import Mathlib.Data.Nat.Notation
import Mathlib.Data.List.Basic
import Mathlib.Algebra.Order.Ring.Int
import Mathlib.Tactic.Ring

/-! Reading a decimal integer literal into a bounded range, digit by digit with an overflow
check at each, and the unbounded reading that it agrees with inside the range. -/
namespace SorobanProxy.Library.Numeral

inductive ParseIntError where
  | empty
  | invalidDigit
  | posOverflow
  | negOverflow
  deriving DecidableEq, Repr

def ParseIntError.text : ParseIntError → String
  | .empty => "cannot parse integer from empty string"
  | .invalidDigit => "invalid digit found in string"
  | .posOverflow => "number too large to fit in target type"
  | .negOverflow => "number too small to fit in target type"

def signed (negative : Bool) (magnitude : Nat) : Int :=
  if negative then -magnitude else magnitude

/-- The accumulator moves away from zero with each digit. -/
def readDigits (lo hi : Int) (negative : Bool) : Int → List Char → Except ParseIntError Int
  | acc, [] => .ok acc
  | acc, ch :: rest =>
    if ch.isDigit then
      let next := 10 * acc + signed negative (ch.toNat - '0'.toNat)
      if lo ≤ next ∧ next ≤ hi then readDigits lo hi negative next rest
      else .error (if negative then .negOverflow else .posOverflow)
    else .error .invalidDigit

/-- A minus sign is a digit error where the target range has no negative number. -/
def readLiteral (lo hi : Int) : List Char → Except ParseIntError Int
  | [] => .error .empty
  | '+' :: [] | '-' :: [] => .error .invalidDigit
  | '+' :: digits => readDigits lo hi false 0 digits
  | '-' :: digits => if lo < 0 then readDigits lo hi true 0 digits else .error .invalidDigit
  | digits => readDigits lo hi false 0 digits

def parseInt (lo hi : Int) (s : String) : Except ParseIntError Int := readLiteral lo hi s.toList

/-- The number a digit string stands for, with no bound. -/
def natural (digits : List Char) : Option Nat :=
  if digits ≠ [] ∧ digits.all Char.isDigit then some (Nat.ofDigitChars 10 digits 0) else none

def literal (negatives : Bool) : List Char → Option Int
  | '+' :: digits => (natural digits).map (signed false)
  | '-' :: digits => if negatives then (natural digits).map (signed true) else none
  | digits => (natural digits).map (signed false)

theorem le_ofDigitChars (digits : List Char) (acc : Nat) : acc ≤ Nat.ofDigitChars 10 digits acc := by
  induction digits generalizing acc with
  | nil => simp
  | cons ch rest ih =>
    rw [Nat.ofDigitChars_cons]
    exact le_trans (by omega) (ih _)

/-- Inside the range no digit is refused, and outside it the last value read is. -/
theorem readDigits_ok_iff {lo hi : Int} (zero : lo ≤ 0 ∧ 0 ≤ hi) (negative : Bool) (digits : List Char)
    (acc : Nat) (inside : lo ≤ signed negative acc ∧ signed negative acc ≤ hi) (n : Int) :
    readDigits lo hi negative (signed negative acc) digits = .ok n ↔
      digits.all Char.isDigit ∧ n = signed negative (Nat.ofDigitChars 10 digits acc) ∧ lo ≤ n ∧ n ≤ hi := by
  induction digits generalizing acc with
  | nil =>
    simp only [readDigits, Except.ok.injEq, List.all_nil, Nat.ofDigitChars_nil, true_and]
    constructor
    · rintro rfl
      exact ⟨rfl,inside⟩
    · rintro ⟨rfl,-⟩
      rfl
  | cons ch rest ih =>
    have next : 10 * signed negative acc + signed negative (ch.toNat - '0'.toNat) =
        signed negative (10 * acc + (ch.toNat - '0'.toNat)) := by
      cases negative <;> simp only [signed, Bool.false_eq_true, if_true, if_false] <;> push_cast <;> ring
    simp only [readDigits, next, List.all_cons, Bool.and_eq_true, Nat.ofDigitChars_cons]
    by_cases digit : ch.isDigit
    · by_cases fits : lo ≤ signed negative (10 * acc + (ch.toNat - '0'.toNat)) ∧
          signed negative (10 * acc + (ch.toNat - '0'.toNat)) ≤ hi
      · rw [if_pos digit,if_pos fits,ih _ fits]
        simp [digit]
      · rw [if_pos digit,if_neg fits]
        have grows := le_ofDigitChars rest (10 * acc + (ch.toNat - '0'.toNat))
        apply iff_of_false (by simp)
        rintro ⟨-,rfl,low,high⟩
        apply fits
        cases negative <;> simp only [signed, Bool.false_eq_true, if_true, if_false] at low high ⊢ <;> omega
    · simp [digit]

theorem readDigits_from_zero {lo hi : Int} (zero : lo ≤ 0 ∧ 0 ≤ hi) (negative : Bool) {digits : List Char}
    (some_digit : digits ≠ []) (n : Int) :
    readDigits lo hi negative 0 digits = .ok n ↔
      (natural digits).map (signed negative) = some n ∧ lo ≤ n ∧ n ≤ hi := by
  have start : (0 : Int) = signed negative 0 := by cases negative <;> rfl
  rw [start,readDigits_ok_iff zero negative digits 0 (by rw [← start]; exact zero)]
  by_cases all : digits.all Char.isDigit = true
  · simp [natural,some_digit,all,eq_comm]
  · simp [natural,all]

theorem natural_nil : natural [] = none := by simp [natural]

theorem readLiteral_ok_iff {lo hi : Int} (zero : lo ≤ 0 ∧ 0 ≤ hi) (chars : List Char) (n : Int) :
    readLiteral lo hi chars = .ok n ↔ literal (decide (lo < 0)) chars = some n ∧ lo ≤ n ∧ n ≤ hi := by
  unfold readLiteral
  split
  · simp [literal,natural_nil]
  · simp [literal,natural_nil]
  · simp [literal,natural_nil]
  · rename_i digits nonempty
    exact readDigits_from_zero zero false nonempty n
  · rename_i digits nonempty
    by_cases negatives : lo < 0
    · simp only [literal, negatives, decide_true, if_true]
      exact readDigits_from_zero zero true nonempty n
    · simp [literal,negatives]
  · rename_i nonempty noPlus noMinus plusDigits minusDigits
    have plain : literal (decide (lo < 0)) chars = (natural chars).map (signed false) := by
      unfold literal
      split
      · rename_i rest
        exact absurd rfl (plusDigits rest)
      · rename_i rest
        exact absurd rfl (minusDigits rest)
      · rfl
    rw [plain]
    exact readDigits_from_zero zero false nonempty n

/-- The bounded reader accepts exactly the literals whose number is in range. -/
theorem parseInt_ok_iff {lo hi : Int} (zero : lo ≤ 0 ∧ 0 ≤ hi) (s : String) (n : Int) :
    parseInt lo hi s = .ok n ↔ literal (decide (lo < 0)) s.toList = some n ∧ lo ≤ n ∧ n ≤ hi :=
  readLiteral_ok_iff zero s.toList n

theorem natural_toDigits (n : Nat) : natural (Nat.toDigits 10 n) = some n := by
  have digits : (Nat.toDigits 10 n).all Char.isDigit = true :=
    List.all_eq_true.mpr fun ch member => Nat.isDigit_of_mem_toDigits (by decide) (by decide) member
  simp [natural,digits,Nat.toDigits_ne_nil]

theorem literal_of_digits {digits : List Char} (all : digits.all Char.isDigit = true) (negatives : Bool) :
    literal negatives digits = (natural digits).map (signed false) := by
  unfold literal
  split
  · simp at all
  · simp at all
  · rfl

theorem literal_toString_nat (negatives : Bool) (n : Nat) :
    literal negatives (toString n).toList = some (n : Int) := by
  have digits : (Nat.toDigits 10 n).all Char.isDigit = true :=
    List.all_eq_true.mpr fun ch member => Nat.isDigit_of_mem_toDigits (by decide) (by decide) member
  rw [Nat.toString_eq_repr,Nat.toList_repr,literal_of_digits digits,natural_toDigits]
  rfl

theorem literal_toString_int (n : Int) : literal true (toString n).toList = some n := by
  rcases lt_or_ge n 0 with negative | natural
  · obtain ⟨k,rfl⟩ : ∃ k : Nat, n = -(k + 1 : Nat) := ⟨n.natAbs - 1,by omega⟩
    have text : (toString (-(k + 1 : Nat) : Int)).toList = '-' :: (toString (k + 1)).toList := by
      rw [Int.toString_eq_repr,Int.repr_eq_if,if_neg (by omega)]
      simp [Nat.toString_eq_repr]
    rw [text,Nat.toString_eq_repr,Nat.toList_repr]
    simp [literal,natural_toDigits,signed]
  · obtain ⟨k,rfl⟩ := Int.eq_ofNat_of_zero_le natural
    exact literal_toString_nat true k

theorem literal_toString_negative {n : Int} (negative : n < 0) :
    literal false (toString n).toList = none := by
  obtain ⟨k,rfl⟩ : ∃ k : Nat, n = -(k + 1 : Nat) := ⟨n.natAbs - 1,by omega⟩
  rw [Int.toString_eq_repr,Int.repr_eq_if,if_neg (by omega)]
  simp [literal]

/-- Parsing undoes decimal printing. -/
theorem parseInt_toString_nat {hi : Int} (n : Nat) (bound : (n : Int) ≤ hi) :
    parseInt 0 hi (toString n) = .ok (n : Int) :=
  (parseInt_ok_iff ⟨le_rfl,by omega⟩ _ _).mpr ⟨literal_toString_nat _ n,by omega,bound⟩

/-- Of the numerals of all numbers the ones in range are read, each as its number. -/
theorem parseInt_toString_iff {lo hi : Int} (zero : lo ≤ 0 ∧ 0 ≤ hi) (n m : Int) :
    parseInt lo hi (toString n) = .ok m ↔ m = n ∧ lo ≤ n ∧ n ≤ hi := by
  rw [parseInt_ok_iff zero]
  rcases lt_or_ge n 0 with negative | natural
  · by_cases negatives : lo < 0
    · rw [decide_eq_true negatives,literal_toString_int]
      constructor
      · rintro ⟨same,low,high⟩
        obtain rfl := Option.some.inj same
        exact ⟨rfl,low,high⟩
      · rintro ⟨rfl,low,high⟩
        exact ⟨rfl,low,high⟩
    · rw [decide_eq_false negatives,literal_toString_negative negative]
      apply iff_of_false
      · simp
      · omega
  · obtain ⟨k,rfl⟩ := Int.eq_ofNat_of_zero_le natural
    have text : literal (decide (lo < 0)) (toString (k : Int)).toList = some (k : Int) :=
      literal_toString_nat _ k
    rw [text]
    constructor
    · rintro ⟨same,low,high⟩
      obtain rfl := Option.some.inj same
      exact ⟨rfl,low,high⟩
    · rintro ⟨rfl,low,high⟩
      exact ⟨rfl,low,high⟩

/-- A narrower range with negatives in both or in neither reads the same numerals, and
refuses the numbers outside it. -/
theorem parseInt_narrow_iff (lo hi : Int) {low high : Int} (zero : low ≤ 0 ∧ 0 ≤ high)
    (wider : lo ≤ low ∧ high ≤ hi) (signs : lo < 0 ↔ low < 0) (s : String) (n : Int) :
    parseInt low high s = .ok n ↔ parseInt lo hi s = .ok n ∧ low ≤ n ∧ n ≤ high := by
  rw [parseInt_ok_iff zero,parseInt_ok_iff ⟨by omega,by omega⟩,decide_eq_decide.mpr signs]
  constructor
  · rintro ⟨read,above,below⟩
    exact ⟨⟨read,by omega,by omega⟩,above,below⟩
  · rintro ⟨⟨read,_,_⟩,above,below⟩
    exact ⟨read,above,below⟩

/-- Reading into a type whose values are the numbers of the range. -/
theorem parseInt_map_ok_iff {α : Type} {lo hi : Int} (of : Int → α) (number : α → Int)
    (zero : lo ≤ 0 ∧ 0 ≤ hi)
    (inside : ∀ n, lo ≤ n → n ≤ hi → number (of n) = n) (inverse : ∀ a, of (number a) = a) (s : String)
    (a : α) : (parseInt lo hi s).map of = .ok a ↔ parseInt lo hi s = .ok (number a) := by
  constructor
  · intro mapped
    cases read : parseInt lo hi s with
    | error e => rw [read] at mapped; cases mapped
    | ok n =>
      rw [read] at mapped
      obtain ⟨_,low,high⟩ := (parseInt_ok_iff zero s n).mp read
      rw [← Except.ok.inj mapped,inside n low high]
  · intro read
    rw [read,Except.map,inverse]

theorem toString_nat_injective {m n : Nat} (same : toString m = toString n) : m = n := by
  have := literal_toString_nat true m
  rw [same,literal_toString_nat true n] at this
  simpa using this.symm

theorem toString_int_injective {m n : Int} (same : toString m = toString n) : m = n := by
  have := literal_toString_int m
  rw [same,literal_toString_int n] at this
  simpa using this.symm

end SorobanProxy.Library.Numeral
