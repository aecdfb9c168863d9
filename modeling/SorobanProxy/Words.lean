import SorobanProxy.Integers

/-! A 128-bit integer and its two words. Splitting and joining undo each other, and the
derived order of the words is the order of the integers. -/
namespace SorobanProxy

open Library

/-- Splitting into a high and a low word, with the numbers that the integer and its words
stand for. The words compare as parts of a contract value. -/
structure ExactSplit {Parts : Type} (split : BitVec 128 → Parts) (join : Parts → BitVec 128)
    (number : BitVec 128 → Int) (hi lo : Parts → Int) (value : Parts → ScVal) : Prop where
  join_split : ∀ v, join (split v) = v
  split_join : ∀ p, split (join p) = p
  number_join : ∀ p, number (join p) = hi p * 2 ^ 64 + lo p
  lt_iff : ∀ v w, number v < number w ↔ value (split v) < value (split w)
  value_lt_iff : ∀ p q, value p < value q ↔ hi p < hi q ∨ hi p = hi q ∧ lo p < lo q

theorem joined_lt_iff {a b c d : Int} (left : 0 ≤ b ∧ b < 2 ^ 64) (right : 0 ≤ d ∧ d < 2 ^ 64) :
    a * 2 ^ 64 + b < c * 2 ^ 64 + d ↔ a < c ∨ a = c ∧ b < d := by omega

/-- A split that is exact as to its numbers is exact. -/
theorem ExactSplit.of_number {Parts : Type} {split : BitVec 128 → Parts} {join : Parts → BitVec 128}
    {number : BitVec 128 → Int} {hi lo : Parts → Int} {value : Parts → ScVal}
    (injective : Function.Injective number) (bounds : ∀ p, 0 ≤ lo p ∧ lo p < 2 ^ 64)
    (split_join : ∀ p, split (join p) = p) (number_split : ∀ v, hi (split v) * 2 ^ 64 + lo (split v) = number v)
    (value_lt_iff : ∀ p q, value p < value q ↔ hi p < hi q ∨ hi p = hi q ∧ lo p < lo q) :
    ExactSplit split join number hi lo value where
  join_split v := by
    apply injective
    rw [← number_split,split_join,number_split]
  split_join := split_join
  number_join p := by rw [← number_split,split_join]
  lt_iff v w := by
    rw [← number_split v,← number_split w,joined_lt_iff (bounds _) (bounds _),value_lt_iff]
  value_lt_iff := value_lt_iff

theorem lo_bounds (lo : UInt64) : 0 ≤ (lo.toNat : Int) ∧ (lo.toNat : Int) < 2 ^ 64 := by
  have bound := lo.toNat_lt
  omega

theorem u128_lt_iff {p q : UInt128Parts} : ScVal.u128 p < ScVal.u128 q ↔
    (p.hi.toNat : Int) < q.hi.toNat ∨ (p.hi.toNat : Int) = q.hi.toNat ∧ (p.lo.toNat : Int) < q.lo.toNat := by
  change (ScVal.u128 p).tree < (ScVal.u128 q).tree ↔ _
  rw [ScVal.tree,ScVal.tree]
  exact OrderTree.pair_lt_iff

theorem i128_lt_iff {p q : Int128Parts} : ScVal.i128 p < ScVal.i128 q ↔
    p.hi.toInt < q.hi.toInt ∨ p.hi.toInt = q.hi.toInt ∧ (p.lo.toNat : Int) < q.lo.toNat := by
  change (ScVal.i128 p).tree < (ScVal.i128 q).tree ↔ _
  rw [ScVal.tree,ScVal.tree]
  exact OrderTree.pair_lt_iff

/-- Both splits are exact: an `i128` under its signed high word, a `u128` under its unsigned one. -/
theorem splits_exact :
    ExactSplit i128ToParts i128FromParts BitVec.toInt (·.hi.toInt) (·.lo.toNat) ScVal.i128 ∧
      ExactSplit u128ToParts u128FromParts (fun v => v.toNat) (·.hi.toNat) (·.lo.toNat) ScVal.u128 := by
  constructor
  · apply ExactSplit.of_number
    · exact fun _ _ => BitVec.eq_of_toInt_eq
    · exact fun p => lo_bounds p.lo
    · exact i128ToParts_fromParts
    · exact i128_parts
    · exact fun p q => i128_lt_iff
  · apply ExactSplit.of_number
    · exact fun _ _ same => BitVec.eq_of_toNat_eq (Int.ofNat_inj.mp same)
    · exact fun p => lo_bounds p.lo
    · exact u128ToParts_fromParts
    · exact u128_parts
    · exact fun p q => u128_lt_iff

end SorobanProxy
