import SorobanProxy.Inhabits
import SorobanProxy.Integers

/-! One scalar, spelled in two ways: an integer as a JSON number or as a numeral, and a
text as a value or as a map key. -/
namespace SorobanProxy

open Library
open Library.Numeral (ParseIntError parseInt_narrow_iff parseInt_toString_iff)

variable {c : Crates} {spec : ContractSpec} {v : ScVal}

/-- The JSON number of an integer from `i64::MIN` to `u64::MAX`. -/
def Number.ofInt (n : Int) : Number :=
  if negative : n < 0 ∧ Int64.ofInt n < 0 then .negInt (.ofInt n) negative.2 else .posInt (.ofNat n.toNat)

def numberForm (n : Int) : Value := .number (.ofInt n)

def stringForm (n : Int) : Value := .str (toString n)

/-- The least and the greatest number of an integer type. -/
def ScSpecTypeDef.bounds : ScSpecTypeDef → Option (Int × Int)
  | .u32 => some (0, 2 ^ 32 - 1)
  | .i32 => some (-2 ^ 31, 2 ^ 31 - 1)
  | .u64 | .timepoint | .duration => some (0, 2 ^ 64 - 1)
  | .i64 => some (-2 ^ 63, 2 ^ 63 - 1)
  | .u128 => some (0, 2 ^ 128 - 1)
  | .i128 => some (-2 ^ 127, 2 ^ 127 - 1)
  | _ => none

def ScSpecTypeDef.InRange (ty : ScSpecTypeDef) (n : Int) : Prop :=
  ∃ lo hi, ty.bounds = some (lo, hi) ∧ lo ≤ n ∧ n ≤ hi

/-- The number that a value stands for, the halves of a 128-bit value put together. -/
def ScVal.integer : ScVal → Option Int
  | .u32 n => some n.toNat
  | .i32 n => some n.toInt
  | .u64 n | .timepoint n | .duration n => some n.toNat
  | .i64 n => some n.toInt
  | .u128 p => some (p.hi.toNat * 2 ^ 64 + p.lo.toNat)
  | .i128 p => some (p.hi.toInt * 2 ^ 64 + p.lo.toNat)
  | _ => none

/-- `v` is the value of the type that stands for `n`. -/
def IntegerOf (ty : ScSpecTypeDef) (n : Int) (v : ScVal) : Prop := LeafInhabits ty v ∧ v.integer = some n

/-- In range both forms convert to the one value of the type that stands for the number,
and out of range neither converts. -/
def FormsAgree (c : Crates) (spec : ContractSpec) (ty : ScSpecTypeDef) (n : Int) : Prop :=
  (ty.InRange n → ∃ v, IntegerOf ty n v ∧ jsonToScval c spec (numberForm n) ty = .ok v ∧
    jsonToScval c spec (stringForm n) ty = .ok v) ∧
  (¬ty.InRange n → ∀ v, jsonToScval c spec (numberForm n) ty ≠ .ok v ∧
    jsonToScval c spec (stringForm n) ty ≠ .ok v)

section Forms

variable {n : Int} (low : -2 ^ 63 ≤ n) (high : n ≤ 2 ^ 64 - 1)
include low high

theorem Number.ofInt_cases : (∃ m negative, Number.ofInt n = .negInt m negative ∧ m.toInt = n ∧ n < 0) ∨
    ∃ m, Number.ofInt n = .posInt m ∧ (m.toNat : Int) = n := by
  by_cases negative : n < 0
  · have exactly : (Int64.ofInt n).toInt = n := Int64.toInt_ofInt_of_le low (by omega)
    have below : Int64.ofInt n < 0 := by
      rw [Int64.lt_iff_toInt_lt,exactly]
      exact negative
    exact .inl ⟨_,below,dif_pos ⟨negative,below⟩,exactly,negative⟩
  · refine .inr ⟨_,dif_neg fun both => negative both.1,?_⟩
    rw [UInt64.toNat_ofNat_of_lt' (by norm_num [UInt64.size]; omega)]
    omega

theorem Number.asU64_ofInt (m : UInt64) : (Number.ofInt n).asU64 = some m ↔ (m.toNat : Int) = n := by
  rcases Number.ofInt_cases low high with ⟨k,below,form,exactly,negative⟩ | ⟨k,form,exactly⟩
  · rw [form]
    apply iff_of_false
    · simp [Number.asU64]
    · omega
  · rw [form,← exactly]
    simp [Number.asU64,UInt64.toNat_inj,eq_comm]

theorem Number.asI64_ofInt (m : Int64) : (Number.ofInt n).asI64 = some m ↔ m.toInt = n := by
  rcases Number.ofInt_cases low high with ⟨k,below,form,exactly,negative⟩ | ⟨k,form,exactly⟩
  · rw [form,← exactly]
    simp [Number.asI64,Int64.toInt_inj,eq_comm]
  · rw [form]
    have bound := m.toInt_lt
    by_cases fits : k.toNat < 2 ^ 63
    · have same : k.toInt64.toInt = (k.toNat : Int) := by
        exact BitVec.toInt_eq_toNat_of_lt (by simpa using (by omega : 2 * k.toNat < 2 ^ 64))
      simp only [Number.asI64, if_pos fits, Option.some.injEq]
      rw [← exactly,← same,Int64.toInt_inj,eq_comm]
    · simp only [Number.asI64, if_neg fits]
      apply iff_of_false
      · simp
      · omega

end Forms

/-- What each of the readers makes of a JSON value that stands for `n`. -/
structure ReadsAs (value : Value) (n : Int) : Prop where
  noHatch : value.get "__xdr" = none
  u64 : ∀ m, asU64 value = .ok m ↔ (m.toNat : Int) = n
  i64 : ∀ m, asI64 value = .ok m ↔ m.toInt = n
  u128 : ∀ m, asU128 value = .ok m ↔ (m.toNat : Int) = n

theorem stringForm_readsAs (n : Int) : ReadsAs (stringForm n) n where
  noHatch := rfl
  u64 m := by
    have bound := m.toNat_lt
    rw [stringForm,asU64_str_ok_iff,parseU64_ok_iff,parseInt_toString_iff (by decide)]
    omega
  i64 m := by
    have low := m.le_toInt
    have high := m.toInt_lt
    rw [stringForm,asI64_str_ok_iff,parseI64_ok_iff,parseInt_toString_iff (by decide)]
    omega
  u128 m := by
    have bound := m.isLt
    rw [stringForm,asU128_str_ok_iff,parseU128_ok_iff,parseInt_toString_iff (by decide)]
    omega

theorem stringForm_asI128 (n : Int) (m : BitVec 128) : asI128 (stringForm n) = .ok m ↔ m.toInt = n := by
  have low := m.le_toInt
  have high := m.toInt_lt
  rw [stringForm,asI128_str_ok_iff,parseI128_ok_iff,parseInt_toString_iff (by decide)]
  omega

theorem numberForm_readsAs {n : Int} (low : -2 ^ 63 ≤ n) (high : n ≤ 2 ^ 64 - 1) :
    ReadsAs (numberForm n) n where
  noHatch := rfl
  u64 m := by
    rw [numberForm,asU64,readInteger_number_ok_iff]
    exact Number.asU64_ofInt low high m
  i64 m := by
    rw [numberForm,asI64,readInteger_number_ok_iff]
    exact Number.asI64_ofInt low high m
  u128 m := by
    have bound := m.isLt
    rw [numberForm,asU128,readInteger_number_ok_iff,Option.map_eq_some_iff]
    constructor
    · rintro ⟨k,read,rfl⟩
      have exactly := (Number.asU64_ofInt low high k).mp read
      have bound := k.toNat_lt
      rw [BitVec.toNat_setWidth,UInt64.toNat_toBitVec]
      omega
    · intro exactly
      have fits : n.toNat < UInt64.size := by norm_num [UInt64.size]; omega
      refine ⟨.ofNat n.toNat,(Number.asU64_ofInt low high _).mpr ?_,?_⟩
      · rw [UInt64.toNat_ofNat_of_lt' fits]
        omega
      · apply BitVec.eq_of_toNat_eq
        rw [BitVec.toNat_setWidth,UInt64.toNat_toBitVec,UInt64.toNat_ofNat_of_lt' fits]
        omega

/-- The number form at `i128` goes through `i64`. -/
theorem numberForm_asI128 {n : Int} (low : -2 ^ 63 ≤ n) (high : n ≤ 2 ^ 64 - 1) (m : BitVec 128) :
    asI128 (numberForm n) = .ok m ↔ m.toInt = n ∧ n < 2 ^ 63 := by
  rw [numberForm,asI128,readInteger_number_ok_iff,Option.map_eq_some_iff]
  constructor
  · rintro ⟨k,read,rfl⟩
    have exactly := (Number.asI64_ofInt low high k).mp read
    have bound := k.toInt_lt
    rw [BitVec.toInt_signExtend_of_le (by decide)]
    exact ⟨exactly,exactly ▸ bound⟩
  · rintro ⟨exactly,fits⟩
    have read := Int64.toInt_ofInt_of_le low fits
    refine ⟨.ofInt n,(Number.asI64_ofInt low high _).mpr read,?_⟩
    apply BitVec.eq_of_toInt_eq
    rw [BitVec.toInt_signExtend_of_le (by decide),exactly]
    exact read

/-- A type whose values are made from machine integers, one for each number in range. -/
structure MachineIntegers (ty : ScSpecTypeDef) (make : α → ScVal) (number : α → Int) : Prop where
  typed : ∀ m, LeafInhabits ty (make m)
  made : ∀ v, LeafInhabits ty v → ∃ m, make m = v
  integer : ∀ m, (make m).integer = some (number m)
  inside : ∀ m, ty.InRange (number m)
  each : ∀ n, ty.InRange n → ∃ m, number m = n

namespace MachineIntegers

theorem integerOf_iff {ty : ScSpecTypeDef} {make : α → ScVal} {number : α → Int}
    (integers : MachineIntegers ty make number) {n : Int} :
    IntegerOf ty n v ↔ ∃ m, number m = n ∧ make m = v := by
  constructor
  · rintro ⟨leaf,same⟩
    obtain ⟨m,rfl⟩ := integers.made v leaf
    rw [integers.integer] at same
    exact ⟨m,Option.some.inj same,rfl⟩
  · rintro ⟨m,same,rfl⟩
    exact ⟨integers.typed m,by rw [integers.integer,same]⟩

/-- The numbers in range are the ones that a value of the type stands for. -/
theorem exists_iff {ty : ScSpecTypeDef} {make : α → ScVal} {number : α → Int}
    (integers : MachineIntegers ty make number) {n : Int} : (∃ v, IntegerOf ty n v) ↔ ty.InRange n := by
  constructor
  · rintro ⟨v,is⟩
    obtain ⟨m,rfl,_⟩ := integers.integerOf_iff.mp is
    exact integers.inside m
  · intro inside
    obtain ⟨m,same⟩ := integers.each n inside
    exact ⟨make m,integers.integerOf_iff.mpr ⟨m,same,rfl⟩⟩

theorem unsigned64 (n : Int) (low : 0 ≤ n) (high : n ≤ 2 ^ 64 - 1) : ∃ m : UInt64, (m.toNat : Int) = n := by
  have fits : n.toNat < UInt64.size := by norm_num [UInt64.size]; omega
  refine ⟨.ofNat n.toNat,?_⟩
  rw [UInt64.toNat_ofNat_of_lt' fits]
  omega

theorem u32 : MachineIntegers .u32 .u32 fun m => m.toNat where
  typed := .u32
  made v leaf := by cases leaf with | u32 m => exact ⟨m,rfl⟩
  integer _ := rfl
  inside m := by
    have bound := m.toNat_lt
    exact ⟨_,_,rfl,by omega,by omega⟩
  each := by
    rintro n ⟨_,_,⟨⟩,low,high⟩
    have fits : n.toNat < UInt32.size := by norm_num [UInt32.size]; omega
    refine ⟨.ofNat n.toNat,?_⟩
    rw [UInt32.toNat_ofNat_of_lt' fits]
    omega

theorem i32 : MachineIntegers .i32 .i32 Int32.toInt where
  typed := .i32
  made v leaf := by cases leaf with | i32 m => exact ⟨m,rfl⟩
  integer _ := rfl
  inside m := by
    have low := m.le_toInt
    have high := m.toInt_lt
    exact ⟨_,_,rfl,low,by omega⟩
  each := by
    rintro n ⟨_,_,⟨⟩,low,high⟩
    exact ⟨.ofInt n,Int32.toInt_ofInt_of_le low (by omega)⟩

theorem u64 : MachineIntegers .u64 .u64 fun m => m.toNat where
  typed := .u64
  made v leaf := by cases leaf with | u64 m => exact ⟨m,rfl⟩
  integer _ := rfl
  inside m := by
    have bound := m.toNat_lt
    exact ⟨_,_,rfl,by omega,by omega⟩
  each := by
    rintro n ⟨_,_,⟨⟩,low,high⟩
    exact unsigned64 n low high

theorem i64 : MachineIntegers .i64 .i64 Int64.toInt where
  typed := .i64
  made v leaf := by cases leaf with | i64 m => exact ⟨m,rfl⟩
  integer _ := rfl
  inside m := by
    have low := m.le_toInt
    have high := m.toInt_lt
    exact ⟨_,_,rfl,low,by omega⟩
  each := by
    rintro n ⟨_,_,⟨⟩,low,high⟩
    exact ⟨.ofInt n,Int64.toInt_ofInt_of_le low (by omega)⟩

theorem timepoint : MachineIntegers .timepoint .timepoint fun m => m.toNat where
  typed := .timepoint
  made v leaf := by cases leaf with | timepoint m => exact ⟨m,rfl⟩
  integer _ := rfl
  inside := u64.inside
  each := u64.each

theorem duration : MachineIntegers .duration .duration fun m => m.toNat where
  typed := .duration
  made v leaf := by cases leaf with | duration m => exact ⟨m,rfl⟩
  integer _ := rfl
  inside := u64.inside
  each := u64.each

theorem u128 : MachineIntegers .u128 (fun m => .u128 (u128ToParts m)) fun m => m.toNat where
  typed m := .u128 _
  made v leaf := by cases leaf with | u128 p => exact ⟨u128FromParts p,by rw [u128ToParts_fromParts]⟩
  integer m := congrArg some (u128_parts m)
  inside m := by
    have bound := m.isLt
    exact ⟨_,_,rfl,by omega,by omega⟩
  each := by
    rintro n ⟨_,_,⟨⟩,low,high⟩
    refine ⟨.ofInt 128 n,?_⟩
    rw [BitVec.toNat_ofInt]
    omega

theorem i128 : MachineIntegers .i128 (fun m => .i128 (i128ToParts m)) BitVec.toInt where
  typed m := .i128 _
  made v leaf := by cases leaf with | i128 p => exact ⟨i128FromParts p,by rw [i128ToParts_fromParts]⟩
  integer m := congrArg some (i128_parts m)
  inside m := by
    have low := m.le_toInt
    have high := m.toInt_lt
    exact ⟨_,_,rfl,low,by omega⟩
  each := by
    rintro n ⟨_,_,⟨⟩,low,high⟩
    exact ⟨.ofInt 128 n,BitVec.toInt_ofInt_eq_self (by decide) low (by omega)⟩

end MachineIntegers

/-- Where the readers agree on the number, so does the conversion. -/
theorem jsonToScval_integer_iff {value : Value} {n : Int} {ty : ScSpecTypeDef} (reads : ReadsAs value n)
    (integral : ty.bounds ≠ none) (signed : ty = .i128 → ∀ m, asI128 value = .ok m ↔ m.toInt = n) :
    jsonToScval c spec value ty = .ok v ↔ IntegerOf ty n v := by
  rw [jsonToScval.eq_def,reads.noHatch]
  cases ty with
  | u32 =>
    simp only [bind_eq_ok_iff, okOr_eq_ok_iff, pure_eq_ok_iff, reads.u64, u32TryFrom_eq_some_iff]
    rw [MachineIntegers.u32.integerOf_iff]
    constructor
    · rintro ⟨m,exactly,k,same,shape⟩
      exact ⟨k,by rw [← same,exactly],shape⟩
    · rintro ⟨k,exactly,shape⟩
      exact ⟨k.toUInt64,by simpa using exactly,k,by simp,shape⟩
  | i32 =>
    simp only [bind_eq_ok_iff, okOr_eq_ok_iff, pure_eq_ok_iff, reads.i64, i32TryFrom_eq_some_iff]
    rw [MachineIntegers.i32.integerOf_iff]
    constructor
    · rintro ⟨m,exactly,k,same,shape⟩
      exact ⟨k,by rw [← same,exactly],shape⟩
    · rintro ⟨k,exactly,shape⟩
      exact ⟨k.toInt64,by simpa using exactly,k,by simp,shape⟩
  | u64 => simp only [map_eq_ok_iff, reads.u64, MachineIntegers.u64.integerOf_iff]
  | i64 => simp only [map_eq_ok_iff, reads.i64, MachineIntegers.i64.integerOf_iff]
  | timepoint => simp only [map_eq_ok_iff, reads.u64, MachineIntegers.timepoint.integerOf_iff]
  | duration => simp only [map_eq_ok_iff, reads.u64, MachineIntegers.duration.integerOf_iff]
  | u128 => simp only [map_eq_ok_iff, reads.u128, MachineIntegers.u128.integerOf_iff]
  | i128 => simp only [map_eq_ok_iff, signed rfl, MachineIntegers.i128.integerOf_iff]
  | _ => exact absurd rfl integral

theorem exists_integerOf_iff {ty : ScSpecTypeDef} (integral : ty.bounds ≠ none) {n : Int} :
    (∃ v, IntegerOf ty n v) ↔ ty.InRange n := by
  cases ty with
  | u32 => exact MachineIntegers.u32.exists_iff
  | i32 => exact MachineIntegers.i32.exists_iff
  | u64 => exact MachineIntegers.u64.exists_iff
  | i64 => exact MachineIntegers.i64.exists_iff
  | timepoint => exact MachineIntegers.timepoint.exists_iff
  | duration => exact MachineIntegers.duration.exists_iff
  | u128 => exact MachineIntegers.u128.exists_iff
  | i128 => exact MachineIntegers.i128.exists_iff
  | _ => exact absurd rfl integral

theorem not_formsAgree_i128 {n : Int} (above : 2 ^ 63 ≤ n) (high : n ≤ 2 ^ 64 - 1) :
    ¬FormsAgree c spec .i128 n := by
  intro agree
  obtain ⟨v,_,native,_⟩ := agree.1 ⟨_,_,rfl,by omega,by omega⟩
  rw [jsonToScval.eq_def] at native
  obtain ⟨m,read,_⟩ := map_eq_ok_iff.mp native
  have := (numberForm_asI128 (by omega) high m).mp read
  omega

/-- The forms part ways at `i128` only, on the numbers above the range of `i64`. -/
theorem integer_forms_agree_iff (c : Crates) (spec : ContractSpec) {ty : ScSpecTypeDef}
    (integral : ty.bounds ≠ none) {n : Int} (low : -2 ^ 63 ≤ n) (high : n ≤ 2 ^ 64 - 1) :
    FormsAgree c spec ty n ↔ ¬(ty = .i128 ∧ 2 ^ 63 ≤ n) := by
  have text (v : ScVal) : jsonToScval c spec (stringForm n) ty = .ok v ↔ IntegerOf ty n v :=
    jsonToScval_integer_iff (stringForm_readsAs n) integral fun _ => stringForm_asI128 n
  constructor
  · rintro agree ⟨rfl,above⟩
    exact not_formsAgree_i128 above high agree
  · intro apart
    have native (v : ScVal) : jsonToScval c spec (numberForm n) ty = .ok v ↔ IntegerOf ty n v := by
      refine jsonToScval_integer_iff (numberForm_readsAs low high) integral ?_
      rintro rfl m
      have below : n < 2 ^ 63 := by
        by_contra above
        exact apart ⟨rfl,by omega⟩
      rw [numberForm_asI128 low high]
      exact and_iff_left below
    constructor
    · intro inside
      obtain ⟨v,is⟩ := (exists_integerOf_iff integral).mpr inside
      exact ⟨v,is,(native v).mpr is,(text v).mpr is⟩
    · intro outside v
      have none : ¬IntegerOf ty n v := fun is => outside ((exists_integerOf_iff integral).mp ⟨v,is⟩)
      exact ⟨fun ok => none ((native v).mp ok),fun ok => none ((text v).mp ok)⟩

theorem integer_forms_agree_below : FormsAgree .reference .empty .i128 (2 ^ 63 - 1) ↔
    ¬(ScSpecTypeDef.i128 = .i128 ∧ (2 ^ 63 : Int) ≤ 2 ^ 63 - 1) :=
  integer_forms_agree_iff .reference .empty (by decide) (by decide) (by decide)

/-- The number 2^63 is an `i128`, and its numeral is taken for one. -/
theorem integer_forms_differ : ¬∀ (c : Crates) (spec : ContractSpec) (ty : ScSpecTypeDef) (n : Int),
    ty.bounds ≠ none → -2 ^ 63 ≤ n → n ≤ 2 ^ 64 - 1 → FormsAgree c spec ty n :=
  fun always => not_formsAgree_i128 (n := 2 ^ 63) le_rfl (by decide)
    (always .reference .empty .i128 (2 ^ 63) (by decide) (by decide) (by decide))

/-- The key types whose values are also given as a JSON string. -/
def ScSpecTypeDef.GivenAsText : ScSpecTypeDef → Prop
  | .symbol | .string | .address | .muxedAddress | .u32 | .i32 | .u64 | .i64 => True
  | _ => False

/-- Reading at 32 bits is reading at 64 bits and narrowing. -/
theorem parseU32_ok_iff_narrow {s : String} {n : UInt32} :
    parseU32 s = .ok n ↔ ∃ m, asU64 (.str s) = .ok m ∧ u32TryFrom m = some n := by
  have bound := n.toNat_lt
  simp only [asU64_str_ok_iff, parseU64_ok_iff, u32TryFrom_eq_some_iff]
  rw [parseU32_ok_iff,parseInt_narrow_iff 0 (2 ^ 64 - 1) (by decide) (by decide) Iff.rfl]
  constructor
  · rintro ⟨read,_,_⟩
    exact ⟨n.toUInt64,by simpa using read,by simp⟩
  · rintro ⟨m,read,same⟩
    rw [same] at read
    exact ⟨read,by omega,by omega⟩

theorem parseI32_ok_iff_narrow {s : String} {n : Int32} :
    parseI32 s = .ok n ↔ ∃ m, asI64 (.str s) = .ok m ∧ i32TryFrom m = some n := by
  have low := n.le_toInt
  have high := n.toInt_lt
  simp only [asI64_str_ok_iff, parseI64_ok_iff, i32TryFrom_eq_some_iff]
  rw [parseI32_ok_iff,parseInt_narrow_iff (-2 ^ 63) (2 ^ 63 - 1) (by decide) (by decide) (by decide)]
  constructor
  · rintro ⟨read,_,_⟩
    exact ⟨n.toInt64,by simpa using read,by simp⟩
  · rintro ⟨m,read,same⟩
    rw [same] at read
    exact ⟨read,low,by omega⟩

/-- A map key is converted as the same text is as a value. -/
theorem jsonKeyToScval_sameOutcome (c : Crates) (spec : ContractSpec) (s : String) {keyType : ScSpecTypeDef}
    (textual : keyType.GivenAsText) :
    SameOutcome (jsonKeyToScval c s keyType) (jsonToScval c spec (.str s) keyType) := by
  apply sameOutcome_iff.mpr
  intro v
  rw [jsonToScval.eq_def,Value.get_str]
  cases keyType with
  | symbol => simp [jsonKeyToScval]
  | string => simp [jsonKeyToScval,stringFromStr]
  | address => simp [jsonKeyToScval]
  | muxedAddress => simp [jsonKeyToScval]
  | u32 =>
    simp only [jsonKeyToScval, map_eq_ok_iff, mapError_eq_ok_iff, parseU32_ok_iff_narrow, bind_eq_ok_iff,
      okOr_eq_ok_iff, pure_eq_ok_iff]
    constructor
    · rintro ⟨n,⟨m,read,narrow⟩,shape⟩
      exact ⟨m,read,n,narrow,shape⟩
    · rintro ⟨m,read,n,narrow,shape⟩
      exact ⟨n,⟨m,read,narrow⟩,shape⟩
  | i32 =>
    simp only [jsonKeyToScval, map_eq_ok_iff, mapError_eq_ok_iff, parseI32_ok_iff_narrow, bind_eq_ok_iff,
      okOr_eq_ok_iff, pure_eq_ok_iff]
    constructor
    · rintro ⟨n,⟨m,read,narrow⟩,shape⟩
      exact ⟨m,read,n,narrow,shape⟩
    · rintro ⟨m,read,n,narrow,shape⟩
      exact ⟨n,⟨m,read,narrow⟩,shape⟩
  | u64 => simp only [jsonKeyToScval, map_eq_ok_iff, mapError_eq_ok_iff, asU64_str_ok_iff]
  | i64 => simp only [jsonKeyToScval, map_eq_ok_iff, mapError_eq_ok_iff, asI64_str_ok_iff]
  | _ => exact textual.elim

theorem jsonKeyToScval_sameOutcome_negative_zero :
    SameOutcome (jsonKeyToScval .reference "-0" .u32) (jsonToScval .reference .empty (.str "-0") .u32) :=
  jsonKeyToScval_sameOutcome .reference .empty "-0" trivial

end SorobanProxy
