import SorobanProxy.Render
import SorobanProxy.Library.Outcomes

/-! Integers through JSON: what is printed is read back, and a 128-bit value is its two
halves. -/
namespace SorobanProxy

open Library
open Library.Numeral (parseInt parseInt_map_ok_iff parseInt_toString_iff parseInt_toString_nat)

theorem parseU32_ok_iff {s : String} {n : UInt32} :
    parseU32 s = .ok n ↔ parseInt 0 (2 ^ 32 - 1) s = .ok (n.toNat : Int) := by
  apply parseInt_map_ok_iff (fun k => UInt32.ofNat k.toNat) (fun n : UInt32 => (n.toNat : Int))
  · decide
  · intro k low high
    rw [UInt32.toNat_ofNat_of_lt' (by norm_num [UInt32.size]; omega)]
    omega
  · intro n
    simp

theorem parseI32_ok_iff {s : String} {n : Int32} :
    parseI32 s = .ok n ↔ parseInt (-2 ^ 31) (2 ^ 31 - 1) s = .ok n.toInt := by
  apply parseInt_map_ok_iff .ofInt Int32.toInt
  · decide
  · intro k low high
    exact Int32.toInt_ofInt_of_le low (by omega)
  · intro n
    simp

theorem parseU64_ok_iff {s : String} {n : UInt64} :
    parseU64 s = .ok n ↔ parseInt 0 (2 ^ 64 - 1) s = .ok (n.toNat : Int) := by
  apply parseInt_map_ok_iff (fun k => UInt64.ofNat k.toNat) (fun n : UInt64 => (n.toNat : Int))
  · decide
  · intro k low high
    rw [UInt64.toNat_ofNat_of_lt' (by norm_num [UInt64.size]; omega)]
    omega
  · intro n
    simp

theorem parseI64_ok_iff {s : String} {n : Int64} :
    parseI64 s = .ok n ↔ parseInt (-2 ^ 63) (2 ^ 63 - 1) s = .ok n.toInt := by
  apply parseInt_map_ok_iff .ofInt Int64.toInt
  · decide
  · intro k low high
    exact Int64.toInt_ofInt_of_le low (by omega)
  · intro n
    simp

theorem parseU128_ok_iff {s : String} {n : BitVec 128} :
    parseU128 s = .ok n ↔ parseInt 0 (2 ^ 128 - 1) s = .ok (n.toNat : Int) := by
  apply parseInt_map_ok_iff (.ofInt 128) (fun n : BitVec 128 => (n.toNat : Int))
  · decide
  · intro k low high
    rw [BitVec.toNat_ofInt]
    omega
  · intro n
    simp

theorem parseI128_ok_iff {s : String} {n : BitVec 128} :
    parseI128 s = .ok n ↔ parseInt (-2 ^ 127) (2 ^ 127 - 1) s = .ok n.toInt := by
  apply parseInt_map_ok_iff (.ofInt 128) BitVec.toInt
  · decide
  · intro k low high
    exact BitVec.toInt_ofInt_eq_self (by decide) low (by omega)
  · intro n
    simp

theorem parseU32_toString (n : UInt32) : parseU32 (toString n.toNat) = .ok n := by
  have bound := n.toNat_lt
  exact parseU32_ok_iff.mpr (parseInt_toString_nat n.toNat (by omega))

theorem parseI32_toString (n : Int32) : parseI32 (toString n.toInt) = .ok n := by
  have low := n.minValue_le_toInt
  have high := n.toInt_lt
  exact parseI32_ok_iff.mpr ((parseInt_toString_iff (by decide) _ _).mpr ⟨rfl,by simpa using low,by omega⟩)

theorem parseU64_toString (n : UInt64) : parseU64 (toString n.toNat) = .ok n := by
  have bound := n.toNat_lt
  exact parseU64_ok_iff.mpr (parseInt_toString_nat n.toNat (by omega))

theorem parseI64_toString (n : Int64) : parseI64 (toString n.toInt) = .ok n := by
  have low := n.minValue_le_toInt
  have high := n.toInt_lt
  exact parseI64_ok_iff.mpr ((parseInt_toString_iff (by decide) _ _).mpr ⟨rfl,by simpa using low,by omega⟩)

theorem parseU128_toString (n : BitVec 128) : parseU128 (toString n.toNat) = .ok n := by
  have bound := n.isLt
  exact parseU128_ok_iff.mpr (parseInt_toString_nat n.toNat (by omega))

theorem parseI128_toString (n : BitVec 128) : parseI128 (toString n.toInt) = .ok n := by
  have low := n.le_toInt
  have high := n.toInt_lt
  exact parseI128_ok_iff.mpr ((parseInt_toString_iff (by decide) _ _).mpr ⟨rfl,by omega,by omega⟩)

theorem u128ToParts_fromParts (p : UInt128Parts) : u128ToParts (u128FromParts p) = p := by
  ext1
  · apply UInt64.toBitVec_inj.mp
    ext i inside
    have low : i < 128 := by omega
    have high : 64 + i < 128 := by omega
    simp [u128ToParts,u128FromParts,low,high,BitVec.getLsbD_eq_getElem inside]
  · apply UInt64.toBitVec_inj.mp
    ext i inside
    simp [u128ToParts,u128FromParts]

theorem i128ToParts_fromParts (p : Int128Parts) : i128ToParts (i128FromParts p) = p := by
  ext1
  · apply Int64.toBitVec_inj.mp
    change ((i128FromParts p).sshiftRight 64).setWidth 64 = p.hi.toBitVec
    ext i inside
    have high : 64 + i < 128 := by omega
    simp [i128FromParts,BitVec.getLsbD_sshiftRight,BitVec.getElem_signExtend,high,inside]
    omega
  · apply UInt64.toBitVec_inj.mp
    ext i inside
    have mask : (18446744073709551615#64)[i] = true := by
      change (BitVec.allOnes 64)[i] = true
      exact BitVec.getElem_allOnes i inside
    simp [i128ToParts,i128FromParts,mask]

theorem u128_parts (b : BitVec 128) :
    ((u128ToParts b).hi.toNat * 2 ^ 64 + (u128ToParts b).lo.toNat : Int) = b.toNat := by
  have bound := b.isLt
  simp only [u128ToParts, UInt64.toNat_ofBitVec, BitVec.toNat_setWidth, BitVec.toNat_ushiftRight,
    Nat.shiftRight_eq_div_pow]
  omega

theorem i128_parts (b : BitVec 128) :
    (i128ToParts b).hi.toInt * 2 ^ 64 + (i128ToParts b).lo.toNat = b.toInt := by
  have low := b.le_toInt
  have high := b.toInt_lt
  have shifted : (b.sshiftRight 64).toInt = b.toInt / 2 ^ 64 := by
    rw [BitVec.toInt_sshiftRight,Int.shiftRight_eq_div_pow]
    rfl
  have hi : (i128ToParts b).hi.toInt = b.toInt / 2 ^ 64 := by
    change ((b.sshiftRight 64).setWidth 64).toInt = _
    rw [BitVec.toInt_eq_toNat_cond] at shifted
    rw [BitVec.toInt_setWidth,Int.bmod_def]
    omega
  have lo : ((i128ToParts b).lo.toNat : Int) = b.toInt % 2 ^ 64 := by
    have masked : b.toNat &&& (2 ^ 64 - 1) = b.toNat % 2 ^ 64 := Nat.and_two_pow_sub_one_eq_mod _ _
    change ((((b &&& 0xFFFFFFFFFFFFFFFF#128).setWidth 64).toNat : Nat) : Int) = _
    rw [BitVec.toNat_setWidth,BitVec.toNat_and]
    change ((((b.toNat &&& (2 ^ 64 - 1)) % 2 ^ 64 : Nat)) : Int) = _
    rw [masked,BitVec.toInt_eq_toNat_cond]
    omega
  rw [hi,lo]
  omega

theorem u32TryFrom_eq_some_iff {m : UInt64} {n : UInt32} :
    u32TryFrom m = some n ↔ m.toNat = n.toNat := by
  have bound := n.toNat_lt
  unfold u32TryFrom
  split_ifs with fits
  · rw [Option.some.injEq,← UInt32.toNat_inj,UInt64.toNat_toUInt32,Nat.mod_eq_of_lt fits]
  · apply iff_of_false
    · simp
    · omega

theorem i32TryFrom_eq_some_iff {m : Int64} {n : Int32} :
    i32TryFrom m = some n ↔ m.toInt = n.toInt := by
  have low := n.le_toInt
  have high := n.toInt_lt
  unfold i32TryFrom
  split_ifs with fits
  · rw [Option.some.injEq,← Int32.toInt_inj,Int64.toInt_toInt32]
    rw [Int.bmod_eq_of_le (by omega) (by omega)]
  · apply iff_of_false
    · simp
    · omega

theorem u32TryFrom_toUInt64 (n : UInt32) : u32TryFrom n.toUInt64 = some n := by
  have bound := n.toNat_lt
  simp [u32TryFrom,bound]

theorem i32TryFrom_toInt64 (n : Int32) : i32TryFrom n.toInt64 = some n := by
  have low : -2147483648 ≤ n.toInt := n.minValue_le_toInt
  have high := n.toInt_lt
  simp [i32TryFrom]
  omega

theorem Number.asI64_ofI32 (n : Int32) : (Number.ofI32 n).asI64 = some n.toInt64 := by
  unfold Number.ofI32
  split_ifs with negative
  · rfl
  · have small : n.toInt64.toUInt64.toNat < 2 ^ 63 := by
      rw [Int64.toNat_toUInt64_of_le (Int64.not_lt.mp negative)]
      exact n.toInt64.toNatClampNeg_lt
    exact (if_pos small).trans (congrArg some (Int64.toInt64_toUInt64 _))

/-- A string goes to the parser, as no string is a native number. -/
theorem readInteger_str_ok_iff {α : Type} {native : Value → Option α}
    {parse : String → Except Numeral.ParseIntError α} {what s : String} {n : α} (text : native (.str s) = none) :
    readInteger native parse what (.str s) = .ok n ↔ parse s = .ok n := by
  rw [readInteger,text]
  simp only [Value.asStr_str, mapError_eq_ok_iff]

/-- A number is only read natively. -/
theorem readInteger_number_ok_iff {α : Type} {native : Value → Option α}
    {parse : String → Except Numeral.ParseIntError α} {what : String} {number : Number} {n : α} :
    readInteger native parse what (.number number) = .ok n ↔ native (.number number) = some n := by
  rw [readInteger]
  cases native (.number number) <;> simp [Value.asStr]

theorem asU64_str_ok_iff {s : String} {n : UInt64} : asU64 (.str s) = .ok n ↔ parseU64 s = .ok n :=
  readInteger_str_ok_iff rfl

theorem asI64_str_ok_iff {s : String} {n : Int64} : asI64 (.str s) = .ok n ↔ parseI64 s = .ok n :=
  readInteger_str_ok_iff rfl

theorem asU128_str_ok_iff {s : String} {n : BitVec 128} : asU128 (.str s) = .ok n ↔ parseU128 s = .ok n :=
  readInteger_str_ok_iff rfl

theorem asI128_str_ok_iff {s : String} {n : BitVec 128} : asI128 (.str s) = .ok n ↔ parseI128 s = .ok n :=
  readInteger_str_ok_iff rfl

theorem asU64_toString (n : UInt64) : asU64 (.str (toString n.toNat)) = .ok n :=
  asU64_str_ok_iff.mpr (parseU64_toString n)

theorem asI64_toString (n : Int64) : asI64 (.str (toString n.toInt)) = .ok n :=
  asI64_str_ok_iff.mpr (parseI64_toString n)

theorem asU128_toString (n : BitVec 128) : asU128 (.str (toString n.toNat)) = .ok n :=
  asU128_str_ok_iff.mpr (parseU128_toString n)

theorem asI128_toString (n : BitVec 128) : asI128 (.str (toString n.toInt)) = .ok n :=
  asI128_str_ok_iff.mpr (parseI128_toString n)

theorem asU64_ofU32 (n : UInt32) : asU64 (.number (.ofU32 n)) = .ok n.toUInt64 := rfl

theorem asI64_ofI32 (n : Int32) : asI64 (.number (.ofI32 n)) = .ok n.toInt64 := by
  rw [asI64,readInteger]
  simp only [Value.asI64, Number.asI64_ofI32]

end SorobanProxy
