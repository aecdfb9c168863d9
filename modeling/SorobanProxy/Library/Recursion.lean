import Mathlib.Order.WellFounded
import Mathlib.Data.List.Basic
import Mathlib.Logic.Relation

/-! Programs with their recursive calls left open. The body of the program answers a node
from the answers to other nodes, its callees. When the callees of a node are finitely many
and descend in a well-founded order, the body settles every node: unfolding it often enough
gives an answer that no longer depends on what is there when the unfolding stops. -/
namespace SorobanProxy.Library.Recursion

variable {ν ρ : Type}

/-- The body asks for nothing but the answers to the callees. -/
def AsksOnly (body : (ν → ρ) → ν → ρ) (callees : ν → List ν) : Prop :=
  ∀ node answer other, (∀ callee ∈ callees node, answer callee = other callee) →
    body answer node = body other node

/-- The body unfolded to a depth, and `start` below it. -/
def unfold (body : (ν → ρ) → ν → ρ) (start : ν → ρ) : Nat → ν → ρ
  | 0 => start
  | depth + 1 => body (unfold body start depth)

/-- What each of finitely many reaches and keeps, all reach together. -/
theorem exists_common_bound {P : ν → Nat → Prop} {nodes : List ν}
    (each : ∀ node ∈ nodes, ∃ bound, ∀ depth, bound ≤ depth → P node depth) :
    ∃ bound, ∀ node ∈ nodes, ∀ depth, bound ≤ depth → P node depth := by
  induction nodes with
  | nil => exact ⟨0,by simp⟩
  | cons node nodes ih =>
    obtain ⟨first,head⟩ := each node List.mem_cons_self
    obtain ⟨others,tail⟩ := ih fun other member => each other (List.mem_cons_of_mem _ member)
    refine ⟨max first others,fun other member depth deep => ?_⟩
    rcases List.mem_cons.mp member with rfl | later
    · exact head depth (by omega)
    · exact tail other later depth (by omega)

section Settling

variable {body : (ν → ρ) → ν → ρ} {callees : ν → List ν}
  (descends : WellFounded fun callee node => callee ∈ callees node) (only : AsksOnly body callees)
include descends only

/-- Unfolding reaches the answers of every solution of the recursion. -/
theorem settles {answer : ν → ρ} (solves : ∀ node, answer node = body answer node) (node : ν) :
    ∃ bound, ∀ depth, bound ≤ depth → ∀ start, unfold body start depth node = answer node := by
  induction node using descends.induction with
  | _ node ih =>
    obtain ⟨bound,below⟩ := exists_common_bound ih
    refine ⟨bound + 1,fun depth deep start => ?_⟩
    obtain ⟨rest,rfl⟩ : ∃ rest, depth = rest + 1 := ⟨depth - 1,by omega⟩
    rw [solves node]
    exact only node _ _ fun callee called => below callee called rest (by omega) start

end Settling

/-- Chains of calls stay in a transitive relation that has every single call. -/
theorem chain_le {callees : ν → List ν} {R : ν → ν → Prop} (transitive : ∀ a b c, R a b → R b c → R a c)
    (single : ∀ node, ∀ callee ∈ callees node, R node callee) {first last : ν}
    (chain : Relation.TransGen (fun node callee => callee ∈ callees node) first last) : R first last := by
  induction chain with
  | single called => exact single _ _ called
  | tail _ called ih => exact transitive _ _ _ ih (single _ _ called)

end SorobanProxy.Library.Recursion
