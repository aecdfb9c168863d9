import Mathlib.Order.Basic
import Mathlib.Order.Lattice
import Mathlib.Data.Int.Order.Basic

/-! Rose trees under the order that a derived comparison gives to data: the rank of a
node first, then its parts from left to right, a proper prefix before its extensions.
A variant is its index, a number is its value, a sequence is the list of its items. -/
namespace SorobanProxy.Library

inductive OrderTree where
  | node (rank : Int) (parts : List OrderTree)

namespace OrderTree

/-- A number has no parts. -/
def leaf (n : Int) : OrderTree := .node n []

mutual
def cmp : OrderTree → OrderTree → Ordering
  | .node a xs, .node b ys => (compare a b).then (cmpParts xs ys)

def cmpParts : List OrderTree → List OrderTree → Ordering
  | [], [] => .eq
  | [], _ :: _ => .lt
  | _ :: _, [] => .gt
  | x :: xs, y :: ys => (cmp x y).then (cmpParts xs ys)
end

theorem then_ne_gt {first second : Ordering} :
    first.then second ≠ .gt ↔ first = .lt ∨ first = .eq ∧ second ≠ .gt := by
  cases first <;> simp

mutual
theorem cmp_eq_iff : ∀ a b : OrderTree, cmp a b = .eq ↔ a = b
  | .node a xs, .node b ys => by
    simp [cmp,cmpParts_eq_iff xs ys]

theorem cmpParts_eq_iff : ∀ xs ys : List OrderTree, cmpParts xs ys = .eq ↔ xs = ys
  | [], [] => by simp [cmpParts]
  | [], _ :: _ => by simp [cmpParts]
  | _ :: _, [] => by simp [cmpParts]
  | x :: xs, y :: ys => by
    simp [cmpParts,cmp_eq_iff x y,cmpParts_eq_iff xs ys]
end

mutual
theorem cmp_swap : ∀ a b : OrderTree, (cmp a b).swap = cmp b a
  | .node a xs, .node b ys => by
    simp only [cmp, Ordering.swap_then, cmpParts_swap xs ys, Std.OrientedCmp.eq_swap (a := b) (b := a)]

theorem cmpParts_swap : ∀ xs ys : List OrderTree, (cmpParts xs ys).swap = cmpParts ys xs
  | [], [] => rfl
  | [], _ :: _ => rfl
  | _ :: _, [] => rfl
  | x :: xs, y :: ys => by
    simp only [cmpParts, Ordering.swap_then, cmp_swap x y, cmpParts_swap xs ys]
end

mutual
theorem cmp_trans : ∀ a b c : OrderTree, cmp a b ≠ .gt → cmp b c ≠ .gt → cmp a c ≠ .gt
  | .node a xs, .node b ys, .node c zs => by
    intro first second
    simp only [cmp, then_ne_gt, compare_lt_iff_lt, compare_eq_iff_eq] at first second ⊢
    rcases first with ab | ⟨ab,xy⟩ <;> rcases second with bc | ⟨bc,yz⟩
    · exact .inl (ab.trans bc)
    · exact .inl (bc ▸ ab)
    · exact .inl (ab ▸ bc)
    · exact .inr ⟨ab.trans bc,cmpParts_trans xs ys zs xy yz⟩

theorem cmpParts_trans : ∀ xs ys zs : List OrderTree,
    cmpParts xs ys ≠ .gt → cmpParts ys zs ≠ .gt → cmpParts xs zs ≠ .gt
  | [], _, [] => by simp [cmpParts]
  | [], _, _ :: _ => by simp [cmpParts]
  | _ :: _, [], _ => by simp [cmpParts]
  | _ :: _, _ :: _, [] => by simp [cmpParts]
  | x :: xs, y :: ys, z :: zs => by
    intro first second
    simp only [cmpParts, then_ne_gt] at first second ⊢
    have below (p q : OrderTree) (h : cmp p q = .lt ∨ cmp p q = .eq) : cmp p q ≠ .gt := by
      rcases h with h | h <;> simp [h]
    have head : cmp x z ≠ .gt := cmp_trans x y z
      (below x y (first.imp id And.left)) (below y z (second.imp id And.left))
    rcases first with xy | ⟨xy,rest⟩
    · left
      cases h : cmp x z with
      | lt => rfl
      | gt => exact absurd h head
      | eq =>
        -- equal ends would put `y` strictly above `x` and at most `x`
        have same := (cmp_eq_iff x z).mp h
        subst same
        have back := cmp_swap x y
        rw [xy] at back
        rcases second with yx | ⟨yx,_⟩ <;> simp [← back] at yx
    · have same := (cmp_eq_iff x y).mp xy
      subst same
      exact second.imp id fun h => ⟨h.1,cmpParts_trans xs ys zs rest h.2⟩
end

instance : LinearOrder OrderTree where
  le a b := cmp a b ≠ .gt
  lt a b := cmp a b = .lt
  le_refl a := by simp [(cmp_eq_iff a a).mpr rfl]
  le_trans := cmp_trans
  lt_iff_le_not_ge a b := by
    rw [← cmp_swap a b]
    cases cmp a b <;> simp
  le_antisymm a b := by
    rw [← cmp_swap a b]
    intro ab ba
    apply (cmp_eq_iff a b).mp
    cases h : cmp a b <;> simp_all
  le_total a b := by
    rw [← cmp_swap a b]
    cases cmp a b <;> simp
  toDecidableLE _ _ := inferInstanceAs (Decidable (_ ≠ _))
  toDecidableLT _ _ := inferInstanceAs (Decidable (_ = _))
  toDecidableEq a b := decidable_of_iff _ (cmp_eq_iff a b)

theorem node_lt_iff {rank : Int} {xs ys : List OrderTree} : node rank xs < node rank ys ↔ cmpParts xs ys = .lt := by
  change (compare rank rank).then (cmpParts xs ys) = .lt ↔ _
  rw [compare_eq_iff_eq.mpr rfl]
  rfl

theorem leaf_lt_iff {a b : Int} : leaf a < leaf b ↔ a < b := by
  change (compare a b).then .eq = .lt ↔ _
  rw [Ordering.then_eq,compare_lt_iff_lt]

/-- Two numbers side by side compare from left to right. -/
theorem pair_lt_iff {rank a b c d : Int} :
    node rank [leaf a, leaf b] < node rank [leaf c, leaf d] ↔ a < c ∨ a = c ∧ b < d := by
  have last : cmpParts [leaf b] [leaf d] = .lt ↔ leaf b < leaf d := by
    change (cmp (leaf b) (leaf d)).then .eq = .lt ↔ cmp (leaf b) (leaf d) = .lt
    rw [Ordering.then_eq]
  have first : cmp (leaf a) (leaf c) = .eq ↔ a = c := by
    rw [cmp_eq_iff]
    simp [leaf]
  rw [node_lt_iff,cmpParts,Ordering.then_eq_lt,last,leaf_lt_iff,first]
  exact or_congr_left leaf_lt_iff

end OrderTree
end SorobanProxy.Library
