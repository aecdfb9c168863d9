import Mathlib.Data.String.Basic

/-! Hexadecimal text: written in lower case, read in either case. -/
namespace SorobanProxy.Library.Hex

def digit (n : Nat) : Char := Char.ofNat (if n < 10 then 48 + n else 87 + n)

def digitValue (d : Char) : Option Nat :=
  if '0' ≤ d ∧ d ≤ '9' then some (d.toNat - 48)
  else if 'a' ≤ d ∧ d ≤ 'f' then some (d.toNat - 87)
  else if 'A' ≤ d ∧ d ≤ 'F' then some (d.toNat - 55)
  else none

def encodeChars (bytes : List UInt8) : List Char :=
  bytes.flatMap fun b => [digit (b.toNat / 16), digit (b.toNat % 16)]

def decodeChars : List Char → Except String (List UInt8)
  | [] => .ok []
  | [_] => .error "Odd number of digits"
  | high :: low :: rest =>
    match digitValue high, digitValue low with
    | some high, some low => (decodeChars rest).map (UInt8.ofNat (high * 16 + low) :: ·)
    | _, _ => .error "Invalid character"

def encode (bytes : List UInt8) : String := .ofList (encodeChars bytes)

def decode (s : String) : Except String (List UInt8) := decodeChars s.toList

/-- A property of the ASCII characters, by their codes. -/
theorem forall_ascii {P : Char → Prop} (each : ∀ n < 128, P (Char.ofNat n)) (d : Char) (ascii : d.toNat < 128) :
    P d := by
  have holds := each d.toNat ascii
  rwa [Char.ofNat_toNat] at holds

theorem digitValue_digit : ∀ n < 16, digitValue (digit n) = some n := by decide

theorem decodeChars_encodeChars (bytes : List UInt8) : decodeChars (encodeChars bytes) = .ok bytes := by
  induction bytes with
  | nil => rfl
  | cons b rest ih =>
    have high := digitValue_digit (b.toNat / 16) (by have := b.toNat_lt; omega)
    have low := digitValue_digit (b.toNat % 16) (by omega)
    have whole : b.toNat / 16 * 16 + b.toNat % 16 = b.toNat := by omega
    have step : encodeChars (b :: rest) =
      digit (b.toNat / 16) :: digit (b.toNat % 16) :: encodeChars rest := rfl
    rw [step]
    simp only [decodeChars, high, low, ih, whole, UInt8.ofNat_toNat, Except.map]

theorem decode_encode (bytes : List UInt8) : decode (encode bytes) = .ok bytes := by
  rw [decode,encode,String.toList_ofList,decodeChars_encodeChars]

theorem toNat_le_of_le {c d : Char} (le : c ≤ d) : c.toNat ≤ d.toNat :=
  UInt32.le_iff_toNat_le.mp (Char.le_def.mp le)

/-- Digits are ASCII. -/
theorem toNat_lt_of_digitValue {d : Char} {n : Nat} (read : digitValue d = some n) : d.toNat < 128 := by
  unfold digitValue at read
  split_ifs at read with decimal lower upper
  · exact Nat.lt_of_le_of_lt (toNat_le_of_le decimal.2) (by decide)
  · exact Nat.lt_of_le_of_lt (toNat_le_of_le lower.2) (by decide)
  · exact Nat.lt_of_le_of_lt (toNat_le_of_le upper.2) (by decide)

/-- A digit in either case is written as itself in lower case. -/
theorem digit_of_digitValue {d : Char} {n : Nat} (read : digitValue d = some n) :
    n < 16 ∧ digit n = d.toLower := by
  have table := forall_ascii (P := fun d => ∀ n, digitValue d = some n → n < 16 ∧ digit n = d.toLower) (by decide)
  exact table d (toNat_lt_of_digitValue read) n read

theorem toLower_of_not_ascii {d : Char} (other : ¬d.toNat < 128) : d.toLower = d := by
  unfold Char.toLower
  apply dif_neg
  intro upper
  have above : d.val.toNat ≤ 90 := UInt32.le_iff_toNat_le.mp upper.2
  exact other (Nat.lt_of_le_of_lt above (by decide))

/-- The letter case of a digit does not count. -/
theorem digitValue_toLower (d : Char) : digitValue d.toLower = digitValue d := by
  by_cases ascii : d.toNat < 128
  · exact forall_ascii (P := fun d => digitValue d.toLower = digitValue d) (by decide) d ascii
  · rw [toLower_of_not_ascii ascii]

/-- A pair of digits for each byte, in either case. -/
inductive Denotes : List Char → List UInt8 → Prop where
  | nil : Denotes [] []
  | cons : digitValue high = some h → digitValue low = some l → Denotes rest bytes →
      Denotes (high :: low :: rest) (UInt8.ofNat (h * 16 + l) :: bytes)

theorem decodeChars_ok_iff : ∀ {text : List Char} {bytes : List UInt8},
    decodeChars text = .ok bytes ↔ Denotes text bytes
  | [], bytes => by
    constructor
    · intro read
      cases read
      exact .nil
    · intro denotes
      cases denotes
      rfl
  | [_], bytes => by
    constructor
    · intro read
      cases read
    · intro denotes
      cases denotes
  | high :: low :: rest, bytes => by
    constructor
    · intro read
      unfold decodeChars at read
      split at read
      next h l highOk lowOk =>
        cases tail : decodeChars rest with
        | error e =>
          rw [tail] at read
          cases read
        | ok bytes =>
          rw [tail] at read
          cases read
          exact .cons highOk lowOk (decodeChars_ok_iff.mp tail)
      next => cases read
    · intro denotes
      cases denotes with
      | cons highOk lowOk tail =>
        rw [decodeChars,highOk,lowOk]
        simp only [decodeChars_ok_iff.mpr tail, Except.map]

namespace Denotes

variable {text : List Char} {bytes : List UInt8}

/-- A text denotes its bytes' encoding in lower case. -/
theorem encodeChars_eq (denotes : Denotes text bytes) : encodeChars bytes = text.map Char.toLower := by
  induction denotes with
  | nil => rfl
  | @cons high h low l rest bytes highOk lowOk _ ih =>
    obtain ⟨hBound,hDigit⟩ := digit_of_digitValue highOk
    obtain ⟨lBound,lDigit⟩ := digit_of_digitValue lowOk
    have byte : (UInt8.ofNat (h * 16 + l)).toNat = h * 16 + l := by
      rw [UInt8.toNat_ofNat']
      omega
    have first : (h * 16 + l) / 16 = h := by omega
    have second : (h * 16 + l) % 16 = l := by omega
    change digit (_ / 16) :: digit (_ % 16) :: encodeChars bytes = high.toLower :: low.toLower :: rest.map Char.toLower
    rw [byte,first,second,hDigit,lDigit,ih]

theorem length_eq (denotes : Denotes text bytes) : text.length = 2 * bytes.length := by
  induction denotes with
  | nil => rfl
  | cons _ _ _ ih =>
    simp only [List.length_cons, ih]
    omega

/-- There are only digits. -/
theorem digits (denotes : Denotes text bytes) : ∀ d ∈ text, ∃ n, digitValue d = some n := by
  induction denotes with
  | nil => simp
  | cons highOk lowOk _ ih =>
    intro d member
    rcases List.mem_cons.mp member with rfl | later
    · exact ⟨_,highOk⟩
    rcases List.mem_cons.mp later with rfl | last
    · exact ⟨_,lowOk⟩
    · exact ih d last

end Denotes

theorem decodeChars_map_toLower : ∀ text : List Char, decodeChars (text.map Char.toLower) = decodeChars text
  | [] => rfl
  | [_] => rfl
  | high :: low :: rest => by
    simp only [List.map_cons, decodeChars, digitValue_toLower, decodeChars_map_toLower rest]

/-- The texts that denote some bytes are those that are their encoding up to letter case. -/
theorem denotes_iff_toLower {text : List Char} {bytes : List UInt8} :
    Denotes text bytes ↔ text.map Char.toLower = encodeChars bytes := by
  constructor
  · exact fun denotes => denotes.encodeChars_eq.symm
  · intro same
    rw [← decodeChars_ok_iff,← decodeChars_map_toLower,same,decodeChars_encodeChars]

end SorobanProxy.Library.Hex
