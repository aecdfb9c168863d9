import Mathlib.Data.List.Basic

/-! Text with escape sequences: after a mark some input stands for one symbol, and all
other input stands for itself. What is read differs from what was written wherever there
is a mark, as a sequence is longer than the symbol it stands for. -/
namespace SorobanProxy.Library

/-- How the input after a mark is read: a symbol and the input left, which is shorter. -/
structure Escapes (α : Type) where
  mark : α
  sequence : List α → Option (α × List α)
  consumes : ∀ input symbol rest, sequence input = some (symbol, rest) → rest.length < input.length

namespace Escapes

variable {α : Type} [DecidableEq α] (escapes : Escapes α)

/-- Fails where a mark is not followed by a sequence. -/
def unescape : List α → Option (List α)
  | [] => some []
  | x :: input =>
    if x = escapes.mark then
      match _sequence : escapes.sequence input with
      | some (symbol, rest) => (unescape rest).map (symbol :: ·)
      | none => none
    else (unescape input).map (x :: ·)
termination_by input => input.length
decreasing_by
  · have := escapes.consumes input symbol rest _sequence
    simp only [List.length_cons]
    omega
  · simp

variable {escapes}

theorem unescape_marked {symbol : α} {input rest : List α}
    (sequence : escapes.sequence input = some (symbol, rest)) :
    escapes.unescape (escapes.mark :: input) = (escapes.unescape rest).map (symbol :: ·) := by
  rw [unescape,if_pos rfl]
  split
  · rename_i found
    obtain ⟨rfl,rfl⟩ := Prod.mk.inj (Option.some.inj (sequence.symm.trans found))
    rfl
  · rename_i dangling
    cases sequence.symm.trans dangling

theorem unescape_dangling {input : List α} (dangling : escapes.sequence input = none) :
    escapes.unescape (escapes.mark :: input) = none := by
  rw [unescape,if_pos rfl]
  split
  · rename_i found
    cases dangling.symm.trans found
  · rfl

theorem unescape_unmarked {x : α} {input : List α} (plain : x ≠ escapes.mark) :
    escapes.unescape (x :: input) = (escapes.unescape input).map (x :: ·) := by
  rw [unescape,if_neg plain]

theorem unescape_of_unmarked {input : List α} (unmarked : escapes.mark ∉ input) :
    escapes.unescape input = some input := by
  induction input with
  | nil => rw [unescape]
  | cons x input ih =>
    have here : x ≠ escapes.mark := fun same => unmarked (same ▸ List.mem_cons_self)
    rw [unescape_unmarked here,ih fun later => unmarked (List.mem_cons_of_mem _ later)]
    rfl

/-- What is read is no longer than the input, and shorter where a sequence was read. -/
theorem length_unescape (input out : List α) (read : escapes.unescape input = some out) :
    out.length ≤ input.length ∧ (escapes.mark ∈ input → out.length < input.length) := by
  induction input using unescape.induct escapes generalizing out with
  | case1 =>
    rw [unescape] at read
    obtain rfl := Option.some.inj read
    simp
  | case2 input symbol rest sequence ih =>
    rw [unescape_marked sequence] at read
    obtain ⟨inner,found,rfl⟩ := Option.map_eq_some_iff.mp read
    have consumed := escapes.consumes _ _ _ sequence
    have shorter := (ih inner found).1
    simp only [List.length_cons]
    constructor
    · omega
    · intro _
      omega
  | case3 input dangling =>
    rw [unescape_dangling dangling] at read
    cases read
  | case4 x input plain ih =>
    rw [unescape_unmarked plain] at read
    obtain ⟨inner,found,rfl⟩ := Option.map_eq_some_iff.mp read
    obtain ⟨noLonger,shorter⟩ := ih inner found
    simp only [List.length_cons]
    constructor
    · omega
    · intro marked
      have later := (List.mem_cons.mp marked).resolve_left (Ne.symm plain)
      have := shorter later
      omega

/-- Input is read as itself just where it has no mark. -/
theorem unescape_eq_self_iff {input : List α} :
    escapes.unescape input = some input ↔ escapes.mark ∉ input := by
  constructor
  · intro same marked
    have shorter := (length_unescape input input same).2 marked
    omega
  · exact unescape_of_unmarked

end Escapes
end SorobanProxy.Library
