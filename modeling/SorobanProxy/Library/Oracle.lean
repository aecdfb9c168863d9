import SorobanProxy.Library.Interaction

/-! Programs against surroundings that are a function of what happened so far. Such
surroundings make one trace of a program: the answered operations, and then the result or
an operation that is never answered. Two programs are compared by their traces against the
same surroundings. -/
namespace SorobanProxy.Library

variable {Op : Type} {Resp : Op → Type} {α β ε : Type}

/-- Answers to operations by the events before them. Some operations are never answered. -/
abbrev Oracle (Resp : Op → Type) := List (Event Resp) → (o : Op) → Option (Resp o)

inductive Ending (Op α : Type) where
  | returned (result : α)
  | unanswered (o : Op)

structure Trace (Resp : Op → Type) (α : Type) where
  events : List (Event Resp)
  ending : Ending Op α

namespace Trace

/-- The operations that were issued, the last one perhaps without an answer. -/
def issued (t : Trace Resp α) : List Op :=
  t.events.map Event.op ++ match t.ending with
    | .returned _ => []
    | .unanswered o => [o]

def after (events : List (Event Resp)) (t : Trace Resp α) : Trace Resp α := ⟨events ++ t.events,t.ending⟩

@[simp] theorem issued_after (events : List (Event Resp)) (t : Trace Resp α) :
    (t.after events).issued = events.map Event.op ++ t.issued := by
  simp [issued,after]

end Trace

namespace Oracle

/-- The trace of a program after a history. -/
def run (oracle : Oracle Resp) : List (Event Resp) → Prog Resp α → Trace Resp α
  | _, .pure a => ⟨[],.returned a⟩
  | history, .op o next =>
    match oracle history o with
    | some r => (run oracle (history ++ [⟨o,r⟩]) (next r)).after [⟨o,r⟩]
    | none => ⟨[],.unanswered o⟩

variable {oracle : Oracle Resp} {history : List (Event Resp)}

theorem run_op {o : Op} {next : Resp o → Prog Resp α} : oracle.run history (.op o next) =
    match oracle history o with
    | some r => (oracle.run (history ++ [⟨o,r⟩]) (next r)).after [⟨o,r⟩]
    | none => ⟨[],.unanswered o⟩ := by rw [run]

/-- A sequence, by how its first part ends. -/
theorem run_bind {p : Prog Resp α} {f : α → Prog Resp β} : oracle.run history (p >>= f) =
    match oracle.run history p with
    | ⟨events,.returned a⟩ => (oracle.run (history ++ events) (f a)).after events
    | ⟨events,.unanswered o⟩ => ⟨events,.unanswered o⟩ := by
  induction p generalizing history with
  | pure a =>
    simp only [Prog.pure_bind, run, List.append_nil]
    rfl
  | op o next ih =>
    rw [Prog.op_bind,run_op,run_op]
    cases oracle history o with
    | none => rfl
    | some r =>
      simp only [ih]
      generalize oracle.run (history ++ [⟨o,r⟩]) (next r) = first
      obtain ⟨events,ending⟩ := first
      cases ending with
      | returned a => simp [Trace.after]
      | unanswered o => rfl

/-- The trace reads the oracle only from the history on. -/
theorem run_congr {first second : List (Event Resp)} {p : Prog Resp α}
    (same : ∀ events o, oracle (first ++ events) o = oracle (second ++ events) o) :
    oracle.run first p = oracle.run second p := by
  induction p generalizing first second with
  | pure a => rfl
  | op o next ih =>
    have answer := same [] o
    rw [List.append_nil,List.append_nil] at answer
    rw [run_op,run_op,answer]
    cases oracle second o with
    | none => rfl
    | some r =>
      simp only
      rw [ih r fun events other => ?_]
      simpa using same (⟨o,r⟩ :: events) other

theorem issued_only {P : Op → Prop} {p : Prog Resp α} (only : p.Only P) :
    ∀ o ∈ (oracle.run history p).issued, P o := by
  induction p generalizing history with
  | pure a => simp [run,Trace.issued]
  | op o next ih =>
    rw [run_op]
    intro issued member
    cases answer : oracle history o with
    | none =>
      simp only [answer, Trace.issued, List.map_nil, List.nil_append, List.mem_singleton] at member
      rw [member]
      exact only.1
    | some r =>
      simp only [answer, Trace.issued_after, List.map_cons, List.map_nil, List.singleton_append,
        List.mem_cons] at member
      rcases member with rfl | later
      · exact only.1
      · exact ih r (only.2 r) issued later

end Oracle
end SorobanProxy.Library
