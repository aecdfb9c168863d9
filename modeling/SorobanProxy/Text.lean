import Mathlib.Data.List.Basic
import Mathlib.Data.String.Basic

/-! Text and its UTF-8 bytes. Strings from the network are byte vectors that need not be
UTF-8; they are read with replacement characters in the place of ill-formed sequences. -/
namespace SorobanProxy

def utf8 (s : String) : List UInt8 := s.toUTF8.data.toList

namespace Utf8

/-- The bounds of the bytes that may follow a first byte from 0x80 on. -/
def following (first : UInt8) : Option (List (UInt8 × UInt8)) :=
  let tail := (0x80, 0xBF)
  if 0xC2 ≤ first ∧ first ≤ 0xDF then some [tail]
  else if first = 0xE0 then some [(0xA0, 0xBF), tail]
  else if first = 0xED then some [(0x80, 0x9F), tail]
  else if 0xE1 ≤ first ∧ first ≤ 0xEF then some [tail, tail]
  else if first = 0xF0 then some [(0x90, 0xBF), tail, tail]
  else if 0xF1 ≤ first ∧ first ≤ 0xF3 then some [tail, tail, tail]
  else if first = 0xF4 then some [(0x80, 0x8F), tail, tail]
  else none

/-- How many of the expected bytes are there before the first wrong one. -/
def matching : List (UInt8 × UInt8) → List UInt8 → Nat
  | (low, high) :: bounds, byte :: rest =>
    if low ≤ byte ∧ byte ≤ high then matching bounds rest + 1 else 0
  | _, _ => 0

def scalar (first : UInt8) (rest : List UInt8) : Char :=
  let lead := first.toNat % 2 ^ (6 - rest.length)
  Char.ofNat (rest.foldl (fun code byte => code * 64 + byte.toNat % 64) lead)

/-- One character for each maximal well-formed or ill-formed subpart. -/
def lossyChars : Nat → List UInt8 → List Char
  | 0, _ | _, [] => []
  | fuel + 1, first :: rest =>
    if first < 0x80 then Char.ofNat first.toNat :: lossyChars fuel rest
    else match following first with
      | none => '\uFFFD' :: lossyChars fuel rest
      | some bounds =>
        let count := matching bounds rest
        let char := if count = bounds.length then scalar first (rest.take count) else '\uFFFD'
        char :: lossyChars fuel (rest.drop count)

end Utf8

/-- `String::from_utf8_lossy`: well-formed input is taken as it is. -/
def fromUtf8Lossy (bytes : List UInt8) : String :=
  match String.fromUTF8? ⟨bytes.toArray⟩ with
  | some s => s
  | none => String.ofList (Utf8.lossyChars bytes.length bytes)

@[simp] theorem fromUtf8Lossy_utf8 (s : String) : fromUtf8Lossy (utf8 s) = s := by
  have whole : (⟨(utf8 s).toArray⟩ : ByteArray) = s.toUTF8 := by simp [utf8]
  have valid : s.toUTF8.IsValidUTF8 := s.isValidUTF8
  have decoded : String.fromUTF8? s.toUTF8 = some s := by
    rw [String.fromUTF8?,dif_pos valid]
    exact congrArg some (String.toByteArray_inj.mp rfl)
  rw [fromUtf8Lossy,whole,decoded]

theorem utf8_eq_flatMap (s : String) : utf8 s = s.toList.flatMap String.utf8EncodeChar := by
  have encoded : s.toUTF8 = (s.toList.flatMap String.utf8EncodeChar).toByteArray := by
    rw [← List.utf8Encode,String.utf8Encode_toList]
    rfl
  rw [utf8,encoded,List.data_toByteArray]

/-- Only an ASCII character has a byte below 0x80 in its encoding, and it has no other. -/
theorem mem_utf8EncodeChar_iff {b : UInt8} (ascii : b < 0x80) {ch : Char} :
    b ∈ String.utf8EncodeChar ch ↔ ch.val.toNat = b.toNat := by
  have small : b.toNat < 128 := ascii
  have lead (n : Nat) (wide : 128 ≤ n ∧ n < 256) : b ≠ .ofNat n := by
    rintro rfl
    rw [UInt8.toNat_ofNat'] at small
    omega
  unfold String.utf8EncodeChar
  dsimp only
  split_ifs with one two three
  · rw [List.mem_singleton,← UInt8.toNat_inj,UInt8.toNat_ofNat']
    omega
  · apply iff_of_false
    · simp only [List.mem_cons, List.not_mem_nil, or_false, not_or]
      exact ⟨lead _ (by omega),lead _ (by omega)⟩
    · omega
  · apply iff_of_false
    · simp only [List.mem_cons, List.not_mem_nil, or_false, not_or]
      exact ⟨lead _ (by omega),lead _ (by omega),lead _ (by omega)⟩
    · omega
  · apply iff_of_false
    · simp only [List.mem_cons, List.not_mem_nil, or_false, not_or]
      exact ⟨lead _ (by omega),lead _ (by omega),lead _ (by omega),lead _ (by omega)⟩
    · omega

theorem mem_utf8_iff {b : UInt8} (ascii : b < 0x80) {s : String} :
    b ∈ utf8 s ↔ ∃ ch ∈ s.toList, ch.val.toNat = b.toNat := by
  simp only [utf8_eq_flatMap, List.mem_flatMap, mem_utf8EncodeChar_iff ascii]

example : fromUtf8Lossy [0x61, 0xE2, 0x82, 0x62, 0xFF] = "a\uFFFDb\uFFFD" := by decide

/-- The bytes are the UTF-8 form of some text. -/
def IsUtf8 (bytes : List UInt8) : Prop := utf8 (fromUtf8Lossy bytes) = bytes

instance (bytes : List UInt8) : Decidable (IsUtf8 bytes) := inferInstanceAs (Decidable (_ = _))

theorem fromUtf8Lossy_injective {a b : List UInt8} (left : IsUtf8 a) (right : IsUtf8 b)
    (same : fromUtf8Lossy a = fromUtf8Lossy b) : a = b := by
  rw [← left,← right,same]

end SorobanProxy
