import SorobanProxy.Library.Interleaving
import Mathlib.Algebra.Order.BigOperators.Group.List
import Mathlib.Algebra.Order.Group.Nat
import Mathlib.Algebra.GroupWithZero.Nat

/-! What the operations of a program cost, whatever is answered. The cost of an operation
is a parameter. With one unit for each operation a bound for the programs bounds every
schedule of a system in which no more requests arrive. -/
namespace SorobanProxy.Library

variable {Op : Type} {Resp : Op → Type} {α β ε δ σ ι : Type}

namespace Prog

/-- The answered operations of every run cost no more than this in all. -/
def Spends (cost : Op → Nat) : Nat → Prog Resp α → Prop
  | _, .pure _ => True
  | n, .op o next => ∀ r, cost o ≤ n ∧ Spends cost (n - cost o) (next r)

/-- What the operations of a history cost. -/
def spent (cost : Op → Nat) (events : List (Event Resp)) : Nat := (events.map fun e => cost e.op).sum

namespace Spends

variable {cost : Op → Nat} {n m : Nat}

theorem mono {p : Prog Resp α} (spends : Spends cost n p) (more : n ≤ m) : Spends cost m p := by
  induction p generalizing n m with
  | pure a => trivial
  | op o next ih =>
    intro r
    exact ⟨Nat.le_trans (spends r).1 more,ih r (spends r).2 (Nat.sub_le_sub_right more _)⟩

theorem perform {o : Op} (cheap : cost o ≤ n) : Spends cost n (Prog.perform o : Prog Resp (Resp o)) :=
  fun _ => ⟨cheap,trivial⟩

theorem bind {p : Prog Resp α} {f : α → Prog Resp β} (first : Spends cost n p) (next : ∀ a, Spends cost m (f a)) :
    Spends cost (n + m) (p >>= f) := by
  induction p generalizing n with
  | pure a => exact (next a).mono (Nat.le_add_left m n)
  | op o rest ih =>
    intro r
    refine ⟨Nat.le_trans (first r).1 (Nat.le_add_right n m),?_⟩
    rw [Nat.sub_add_comm (first r).1]
    exact ih r (first r).2

theorem bind_except {x : ExceptT ε (Prog Resp) α} {f : α → ExceptT ε (Prog Resp) β} (first : Spends cost n x.run)
    (next : ∀ a, Spends cost m (f a).run) : Spends cost (n + m) (x >>= f).run := by
  rw [ExceptT.run_bind]
  refine first.bind fun result => ?_
  cases result with
  | ok a => exact next a
  | error e => trivial

theorem ofResult_bind {result : Except ε α} {f : α → ExceptT ε (Prog Resp) β}
    (next : ∀ a, result = .ok a → Spends cost n (f a).run) : Spends cost n (Prog.ofResult result >>= f).run := by
  cases result with
  | ok a => exact next a rfl
  | error e => trivial

theorem mapError {x : ExceptT ε (Prog Resp) α} {translate : ε → δ} (spends : Spends cost n x.run) :
    Spends cost n (Prog.mapError x translate).run := bind (m := 0) spends fun _ => trivial

theorem liftExcept {p : Prog Resp α} (spends : Spends cost n p) :
    Spends cost n (Prog.liftExcept p : ExceptT ε (Prog Resp) α).run := bind (m := 0) spends fun _ => trivial

/-- A run has spent part of the bound, and the rest of the program keeps to what is left. -/
theorem of_steps {p rest : Prog Resp α} {events : List (Event Resp)} (spends : Spends cost n p)
    (steps : Steps p events rest) : spent cost events ≤ n ∧ Spends cost (n - spent cost events) rest := by
  induction steps generalizing n with
  | refl => exact ⟨Nat.zero_le n,spends⟩
  | @step o next events rest r _ ih =>
    obtain ⟨afford,next⟩ := spends r
    obtain ⟨within,left⟩ := ih next
    have total : spent cost (⟨o,r⟩ :: events) = cost o + spent cost events := by simp [spent]
    refine ⟨by omega,?_⟩
    rwa [total,← Nat.sub_sub]

end Spends
end Prog

namespace System

variable (answers : σ → (o : Op) → Resp o → σ → Prop) (program : ι → Prog Resp α)

/-- A turn that answers a task. -/
def Serves (s next : System Resp σ ι α) : Prop :=
  Turn answers program s next ∧ next.tasks.length = s.tasks.length

/-- So many answers in a row. -/
inductive Serving : Nat → System Resp σ ι α → System Resp σ ι α → Prop where
  | refl : Serving 0 s s
  | tail : Serving n s middle → Serves answers program middle last → Serving (n + 1) s last

/-- The operations that have been answered. -/
def work (s : System Resp σ ι α) : Nat := (s.tasks.map fun t => t.history.length).sum

variable {answers program} {s next last : System Resp σ ι α} {n : Nat}

theorem Serves.work (serves : Serves answers program s next) :
    next.work = s.work + 1 ∧ next.tasks.map Task.request = s.tasks.map Task.request := by
  obtain ⟨turn,same⟩ := serves
  cases turn with
  | arrive i => simp at same
  | answer before after i history next answer =>
    simp only [System.work, List.map_append, List.map_cons, List.sum_append, List.sum_cons, List.length_append,
      List.length_singleton]
    exact ⟨by omega,trivial⟩

theorem Serving.work (serving : Serving answers program n s last) :
    last.work = s.work + n ∧ last.tasks.map Task.request = s.tasks.map Task.request := by
  induction serving with
  | refl => exact ⟨rfl,rfl⟩
  | tail _ serves ih =>
    obtain ⟨worked,requests⟩ := serves.work
    exact ⟨by omega,requests.trans ih.2⟩

theorem Reachable.serving {start : σ} (reach : Reachable answers program start s)
    (serving : Serving answers program n s last) : Reachable answers program start last := by
  induction serving with
  | refl => exact reach
  | tail _ serves ih => exact (ih reach).tail serves.1

theorem Reachable.steps {start : σ} (reach : Reachable answers program start s) {t : Task Resp ι α}
    (member : t ∈ s.tasks) : Prog.Steps (program t.request) t.history t.rest := by
  have relies (a : σ) (o : Op) (r : Resp o) (b : σ) (_ : True) (_ : answers a o r b) : True := trivial
  have ran := reach.invariant_of_steps relies (fun _ _ _ _ _ _ _ _ _ _ _ => trivial) trivial
  exact (ran.2 t member).1

/-- Where programs issue boundedly many operations, so many answers are all there can be. -/
theorem Serving.bounded {start : σ} {bound : ι → Nat} (each : ∀ i, Prog.Spends (fun _ => 1) (bound i) (program i))
    (reach : Reachable answers program start s) (serving : Serving answers program n s last) :
    s.work + n ≤ ((s.tasks.map Task.request).map bound).sum := by
  obtain ⟨worked,requests⟩ := serving.work
  rw [← worked,← requests,System.work,List.map_map]
  apply List.sum_le_sum
  intro t member
  have within := ((each t.request).of_steps ((reach.serving serving).steps member)).1
  simpa [Prog.spent] using within

/-- No task can be answered just where each has ended or waits for an operation that has no
answer. -/
theorem idle_iff : (∀ next, ¬Serves answers program s next) ↔
    ∀ t ∈ s.tasks, ∀ o next, t.rest = .op o next → ∀ r b, ¬answers s.shared o r b := by
  constructor
  · intro idle t member o next waits r b answer
    obtain ⟨request,history,rest⟩ := t
    obtain ⟨shared,tasks⟩ := s
    obtain ⟨before,after,rfl⟩ := List.append_of_mem member
    change rest = .op o next at waits
    subst waits
    exact idle _ ⟨.answer before after request history next answer,by simp⟩
  · rintro blocked next ⟨turn,same⟩
    cases turn with
    | arrive i => simp at same
    | answer before after i history next answer =>
      exact blocked _ (List.mem_append_right _ List.mem_cons_self) _ _ rfl _ _ answer

end System
end SorobanProxy.Library
