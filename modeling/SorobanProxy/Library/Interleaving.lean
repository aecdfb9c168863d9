import SorobanProxy.Library.Interaction
import Mathlib.Logic.Relation

/-! Programs that run side by side on a shared state. A turn answers one operation of one
program, so the turns of different programs come in any order. -/
namespace SorobanProxy.Library

variable {Op : Type} {Resp : Op → Type} {σ ι α : Type}

/-- A running program, with what it was started for and its operations so far. -/
structure Task (Resp : Op → Type) (ι α : Type) where
  request : ι
  history : List (Event Resp)
  rest : Prog Resp α

structure System (Resp : Op → Type) (σ ι α : Type) where
  shared : σ
  tasks : List (Task Resp ι α)

namespace System

variable (answers : σ → (o : Op) → Resp o → σ → Prop) (program : ι → Prog Resp α)

inductive Turn : System Resp σ ι α → System Resp σ ι α → Prop where
  | arrive (i : ι) : Turn ⟨a,running⟩ ⟨a,running ++ [⟨i,[],program i⟩]⟩
  | answer (before after : List (Task Resp ι α)) (i : ι) (history : List (Event Resp))
      (next : Resp o → Prog Resp α) : answers a o r b →
      Turn ⟨a,before ++ ⟨i,history,.op o next⟩ :: after⟩ ⟨b,before ++ ⟨i,history ++ [⟨o,r⟩],next r⟩ :: after⟩

/-- What is reached from a shared state on which nothing runs yet. -/
def Reachable (start : σ) (s : System Resp σ ι α) : Prop :=
  Relation.ReflTransGen (Turn answers program) ⟨start,[]⟩ s

/-- The operations of one program alone, and what they make of the shared state. -/
inductive Through : σ → List (Event Resp) → σ → Prop where
  | nil : Through a [] a
  | cons : answers a o r b → Through b events c → Through a (⟨o,r⟩ :: events) c

variable {answers program}

theorem through_nil_iff {a c : σ} : Through answers a [] c ↔ c = a := by
  constructor
  · rintro ⟨⟩
    rfl
  · rintro rfl
    exact .nil

theorem through_cons_iff {a c : σ} {o : Op} {r : Resp o} {events : List (Event Resp)} :
    Through answers a (⟨o,r⟩ :: events) c ↔ ∃ b, answers a o r b ∧ Through answers b events c := by
  constructor
  · rintro (_ | ⟨answer,after⟩)
    exact ⟨_,answer,after⟩
  · rintro ⟨b,answer,after⟩
    exact .cons answer after

theorem through_append_iff {a c : σ} {first second : List (Event Resp)} :
    Through answers a (first ++ second) c ↔ ∃ b, Through answers a first b ∧ Through answers b second c := by
  induction first generalizing a with
  | nil => simp [through_nil_iff]
  | cons e first ih =>
    obtain ⟨o,r⟩ := e
    simp only [List.cons_append, through_cons_iff, ih]
    constructor
    · rintro ⟨b,answer,d,before,after⟩
      exact ⟨d,⟨b,answer,before⟩,after⟩
    · rintro ⟨d,⟨b,answer,before⟩,after⟩
      exact ⟨b,answer,d,before,after⟩

/-- The turns of one task in a row, while the others wait. -/
theorem turns_of_steps (before after : List (Task Resp ι α)) {i : ι} {history events : List (Event Resp)}
    {p q : Prog Resp α} {a b : σ} (steps : Prog.Steps p events q) (through : Through answers a events b) :
    Relation.ReflTransGen (Turn answers program) ⟨a,before ++ ⟨i,history,p⟩ :: after⟩
      ⟨b,before ++ ⟨i,history ++ events,q⟩ :: after⟩ := by
  induction steps generalizing a history with
  | refl =>
    rw [through_nil_iff.mp through,List.append_nil]
  | step r _ ih =>
    obtain ⟨c,answer,rest⟩ := through_cons_iff.mp through
    have later := @ih (history ++ [⟨_,r⟩]) c rest
    rw [List.append_assoc] at later
    exact .head (.answer before after i history _ answer) later

/-- The rule for what holds at every turn: the answers are reliable while it holds, and
the operations that programs come to keep it. Every task then has run as its program does,
on reliable answers. -/
theorem Reachable.invariant_of_steps {rely : (o : Op) → Resp o → Prop} {inv : σ → Prop} {start : σ}
    {s : System Resp σ ι α} (relies : ∀ a o r b, inv a → answers a o r b → rely o r)
    (keeps : ∀ i history o next a r b, inv a → Prog.Reliable rely history →
      Prog.Steps (program i) history (.op o next) → answers a o r b → inv b)
    (initial : inv start) (reach : Reachable answers program start s) :
    inv s.shared ∧ ∀ t ∈ s.tasks, Prog.Steps (program t.request) t.history t.rest ∧
      Prog.Reliable rely t.history := by
  induction reach with
  | refl => exact ⟨initial,by simp⟩
  | tail _ turn ih =>
    obtain ⟨holds,running⟩ := ih
    cases turn with
    | arrive i =>
      refine ⟨holds,fun t member => ?_⟩
      rcases List.mem_append.mp member with old | new
      · exact running t old
      · rw [List.mem_singleton.mp new]
        exact ⟨.refl,by simp [Prog.Reliable]⟩
    | answer before after i history next answer =>
      obtain ⟨steps,reliable⟩ := running _ (List.mem_append_right _ List.mem_cons_self)
      refine ⟨keeps _ _ _ _ _ _ _ holds reliable steps answer,fun t member => ?_⟩
      rcases List.mem_append.mp member with early | later
      · exact running t (List.mem_append_left _ early)
      rcases List.mem_cons.mp later with rfl | late
      · refine ⟨steps.snoc _,fun e inside => ?_⟩
        rcases List.mem_append.mp inside with old | new
        · exact reliable e old
        · rw [List.mem_singleton.mp new]
          exact relies _ _ _ _ holds answer
      · exact running t (List.mem_append_right _ (List.mem_cons_of_mem _ late))

/-- The rule by what programs are allowed. -/
theorem Reachable.invariant {rely : (o : Op) → Resp o → Prop} {allowed : List (Event Resp) → Op → Prop}
    {post : List (Event Resp) → α → Prop} {inv : σ → Prop} {start : σ} {s : System Resp σ ι α}
    (relies : ∀ a o r b, inv a → answers a o r b → rely o r)
    (keeps : ∀ a history o r b, inv a → Prog.Reliable rely history → allowed history o → answers a o r b → inv b)
    (each : ∀ i, Prog.Holds rely allowed post [] (program i)) (initial : inv start)
    (reach : Reachable answers program start s) :
    inv s.shared ∧ ∀ t ∈ s.tasks, Prog.Steps (program t.request) t.history t.rest ∧
      Prog.Reliable rely t.history := by
  refine reach.invariant_of_steps relies ?_ initial
  intro i history o next a r b holds reliable steps answer
  have issued := (each i).allowed_of_issues ⟨next,steps⟩ reliable
  rw [List.nil_append] at issued
  exact keeps _ _ _ _ _ holds reliable issued answer

end System
end SorobanProxy.Library
