import SorobanProxy.Library.Interleaving
import Mathlib.Data.List.Forall2

/-! Programs whose operations are programs of other operations. The last operation of each
is the one that takes effect, and those before it are silent; then a system of such programs
reaches the states of the system that it implements, and no others. -/
namespace SorobanProxy.Library

variable {Op LowOp : Type} {Resp : Op → Type} {LowResp : LowOp → Type} {α β σ τ ι : Type}

namespace Prog

variable (impl : (o : Op) → Prog LowResp (Resp o))

/-- The program with its operations carried out. -/
def carriedOut : Prog Resp α → Prog LowResp α
  | .pure a => .pure a
  | .op o next => impl o >>= fun r => carriedOut (next r)

/-- The operations of an implementation, for those of a program. -/
inductive Expands : List (Event Resp) → List (Event LowResp) → Prop where
  | nil : Expands [] []
  | snoc : Expands events low → Runs (impl o) run r → Expands (events ++ [⟨o,r⟩]) (low ++ run)

/-- What is left of a program while one of its operations is carried out: the operations of
that one so far, and what is left of the implementation. -/
inductive Within : Prog Resp α → List (Event LowResp) → Prog LowResp α → Prop where
  | ended : Within (.pure a) [] (.pure a)
  | amid {lo : LowOp} {next : Resp o → Prog Resp α} {k : LowResp lo → Prog LowResp (Resp o)} :
      Steps (impl o) pending (.op lo k) →
      Within (.op o next) pending (.op lo fun r => k r >>= fun v => carriedOut impl (next v))

variable {impl}

theorem within_start (proper : ∀ o v, impl o ≠ .pure v) (p : Prog Resp α) : Within impl p [] (carriedOut impl p) := by
  cases p with
  | pure a => exact .ended
  | op o next =>
    rw [carriedOut]
    cases first : impl o with
    | pure v => exact absurd first (proper o v)
    | op lo k =>
      refine .amid ?_
      rw [first]
      exact .refl

theorem steps_carriedOut {o : Op} {next : Resp o → Prog Resp α} {run : List (Event LowResp)} {r : Resp o}
    (runs : Runs (impl o) run r) : Steps (carriedOut impl (.op o next)) run (carriedOut impl (next r)) := by
  have steps := Steps.bind (f := fun r => carriedOut impl (next r)) runs .refl
  rwa [List.append_nil] at steps

theorem Expands.append {first second : List (Event Resp)} {low low' : List (Event LowResp)}
    (expands : Expands impl first low) (later : Expands impl second low') :
    Expands impl (first ++ second) (low ++ low') := by
  induction later with
  | nil => rwa [List.append_nil,List.append_nil]
  | snoc _ runs ih =>
    rw [← List.append_assoc,← List.append_assoc]
    exact ih.snoc runs

theorem runs_carriedOut_iff {p : Prog Resp α} {low : List (Event LowResp)} {a : α} :
    Runs (carriedOut impl p) low a ↔ ∃ events, Runs p events a ∧ Expands impl events low := by
  constructor
  · intro run
    induction p generalizing low with
    | pure b =>
      obtain ⟨rfl,rfl⟩ := runs_pure_iff.mp run
      exact ⟨[],.refl,.nil⟩
    | op o next ih =>
      obtain ⟨first,r,second,rfl,before,after⟩ := runs_bind_iff.mp run
      obtain ⟨events,runs,expands⟩ := ih r after
      exact ⟨⟨o,r⟩ :: events,.step r runs,(Expands.snoc .nil before).append expands⟩
  · rintro ⟨events,run,expands⟩
    suffices steps : ∀ rest, Steps p events rest → Steps (carriedOut impl p) low (carriedOut impl rest) from
      steps _ run
    clear run
    induction expands with
    | nil =>
      intro rest steps
      rw [steps_nil_iff.mp steps]
      exact .refl
    | @snoc events low o run r expands runs ih =>
      intro rest steps
      obtain ⟨next,before⟩ := steps.issues_of_split
      obtain rfl : rest = next r := by
        have last := before.rest steps
        cases last with
        | step _ last => exact steps_nil_iff.mp last
      exact (ih _ before).append (steps_carriedOut runs)

end Prog

/-- The counterparts of a list with a member set apart. -/
theorem forall₂_middle {R : α → β → Prop} {before after : List α} {a : α} {all : List β}
    (each : List.Forall₂ R (before ++ a :: after) all) : ∃ before' b after', all = before' ++ b :: after' ∧
      List.Forall₂ R before before' ∧ R a b ∧ List.Forall₂ R after after' := by
  induction before generalizing all with
  | nil =>
    cases each with
    | cons head tail => exact ⟨[],_,_,rfl,.nil,head,tail⟩
  | cons x before ih =>
    cases each with
    | cons head tail =>
      obtain ⟨before',b,after',rfl,early,related,late⟩ := ih tail
      exact ⟨_ :: before',b,after',rfl,.cons head early,related,late⟩

open Prog (Expands Within)

/-- A task carried out: the same request, with the operations of its implementation. -/
structure Task.Carries (impl : (o : Op) → Prog LowResp (Resp o)) (low : Task LowResp ι α) (t : Task Resp ι α) :
    Prop where
  request : low.request = t.request
  history : ∃ done pending, low.history = done ++ pending ∧ Expands impl t.history done ∧
    Within impl t.rest pending low.rest

/-- A task carried out with no operation under way. -/
structure Task.Rests (impl : (o : Op) → Prog LowResp (Resp o)) (low : Task LowResp ι α) (t : Task Resp ι α) : Prop where
  request : low.request = t.request
  history : Expands impl t.history low.history
  rest : low.rest = t.rest.carriedOut impl

theorem Task.Rests.carries {impl : (o : Op) → Prog LowResp (Resp o)} {low : Task LowResp ι α} {t : Task Resp ι α}
    (rests : Rests impl low t) (proper : ∀ o v, impl o ≠ .pure v) : Carries impl low t := by
  refine ⟨rests.request,low.history,[],(List.append_nil _).symm,rests.history,?_⟩
  rw [rests.rest]
  exact Prog.within_start proper _

/-- The last operation of an implementation takes effect, the others are silent. -/
structure Implements (impl : (o : Op) → Prog LowResp (Resp o)) (view : τ → σ)
    (low : τ → (o : LowOp) → LowResp o → τ → Prop) (answers : σ → (o : Op) → Resp o → σ → Prop) : Prop where
  proper : ∀ o v, impl o ≠ .pure v
  silent : ∀ o pending lo k, Prog.Steps (impl o) pending (.op lo k) → ∀ a r b, low a lo r b →
    ∀ lo' k', k r = .op lo' k' → view b = view a
  effect : ∀ o pending lo k, Prog.Steps (impl o) pending (.op lo k) → ∀ a r b, low a lo r b →
    ∀ v, k r = .pure v → answers (view a) o v (view b)
  possible : ∀ a o v b, answers (view a) o v b → ∃ run c, Prog.Runs (impl o) run v ∧
    System.Through low a run c ∧ view c = b

namespace System

variable {impl : (o : Op) → Prog LowResp (Resp o)} {view : τ → σ}
  {low : τ → (o : LowOp) → LowResp o → τ → Prop} {answers : σ → (o : Op) → Resp o → σ → Prop}
  {program : ι → Prog Resp α} (implements : Implements impl view low answers)
include implements

/-- One operation carried out alone, from some way into its implementation. -/
theorem effect_of_run {o : Op} {v : Resp o} {pending run : List (Event LowResp)} {q : Prog LowResp (Resp o)} {a b : τ}
    (steps : Prog.Steps (impl o) pending q) (runs : Prog.Runs q run v) (through : Through low a run b)
    (proceeds : run ≠ []) : answers (view a) o v (view b) := by
  unfold Prog.Runs at runs
  generalize ends : Prog.pure v = last at runs
  induction runs generalizing pending a with
  | refl => exact absurd rfl proceeds
  | @step lo k run rest r later ih =>
    obtain ⟨c,answer,after⟩ := through_cons_iff.mp through
    have steps' := steps.snoc r
    cases answered : k r with
    | pure w =>
      rw [answered,← ends] at later
      obtain ⟨rfl,rfl⟩ := Prog.runs_pure_iff.mp later
      rw [through_nil_iff.mp after]
      exact implements.effect _ _ _ _ steps _ _ _ answer _ answered
    | op lo' k' =>
      rw [← implements.silent _ _ _ _ steps _ _ _ answer _ _ answered]
      refine ih steps' after (fun none => ?_) ends
      subst none ends
      have stops := Prog.steps_nil_iff.mp later
      rw [answered] at stops
      cases stops

/-- A program carried out alone. -/
theorem Through.of_expands {events : List (Event Resp)} {lowEvents : List (Event LowResp)} {a b : τ}
    (expands : Expands impl events lowEvents) (through : Through low a lowEvents b) :
    Through answers (view a) events (view b) := by
  induction expands generalizing b with
  | nil =>
    rw [through_nil_iff.mp through]
    exact .nil
  | @snoc events lowEvents o run r _ runs ih =>
    obtain ⟨c,before,last⟩ := through_append_iff.mp through
    refine through_append_iff.mpr ⟨view c,ih before,.cons ?_ .nil⟩
    refine effect_of_run implements .refl runs last fun none => ?_
    rw [none] at runs
    exact implements.proper o r (Prog.steps_nil_iff.mp runs).symm

theorem Through.exists_expands {events : List (Event Resp)} {a : τ} {b : σ}
    (through : Through answers (view a) events b) : ∃ lowEvents c, Expands impl events lowEvents ∧
      Through low a lowEvents c ∧ view c = b := by
  generalize same : view a = x at through
  induction through generalizing a with
  | nil => exact ⟨[],a,.nil,.nil,same⟩
  | @cons _ o r _ events _ answer _ ih =>
    subst same
    obtain ⟨run,mid,runs,before,same⟩ := implements.possible _ _ _ _ answer
    obtain ⟨lowEvents,c,expands,after,ends⟩ := ih same
    exact ⟨run ++ lowEvents,c,(Expands.snoc .nil runs).append expands,through_append_iff.mpr ⟨mid,before,after⟩,ends⟩

/-- Every state of the implementation carries a state of the system. -/
theorem Reachable.carries {start : τ} {s : System LowResp τ ι α}
    (reach : Reachable low (fun i => (program i).carriedOut impl) start s) :
    ∃ t, Reachable answers program (view start) t ∧ t.shared = view s.shared ∧
      List.Forall₂ (Task.Carries impl) s.tasks t.tasks := by
  induction reach with
  | refl => exact ⟨⟨view start,[]⟩,.refl,rfl,.nil⟩
  | tail _ turn ih =>
    obtain ⟨⟨shared,tasks⟩,reach,same,carries⟩ := ih
    cases turn with
    | arrive i =>
      refine ⟨⟨shared,tasks ++ [⟨i,[],program i⟩]⟩,reach.tail (.arrive i),same,?_⟩
      refine List.rel_append carries (.cons ⟨rfl,[],[],rfl,.nil,?_⟩ .nil)
      exact Prog.within_start implements.proper _
    | @answer lo a r b before after i history k answer =>
      obtain ⟨before',⟨_,history',rest⟩,after',rfl,early,⟨rfl,done,pending,rfl,expands,within⟩,late⟩ :=
        forall₂_middle carries
      cases within with
      | @amid o pending _ next k steps =>
      have steps' := steps.snoc r
      cases answered : k r with
      | op lo' k' =>
        -- silent: the operation is still being carried out
        refine ⟨_,reach,same.trans (implements.silent _ _ _ _ steps _ _ _ answer _ _ answered).symm,?_⟩
        have within : Within impl (.op o next) (pending ++ [⟨lo,r⟩]) (k r >>= fun v => (next v).carriedOut impl) := by
          rw [answered] at steps' ⊢
          exact .amid steps'
        exact List.rel_append early (.cons ⟨rfl,done,_,List.append_assoc _ _ _,expands,within⟩ late)
      | pure v =>
        have effect := implements.effect _ _ _ _ steps _ _ _ answer v answered
        rw [answered] at steps'
        obtain rfl : shared = view a := same
        refine ⟨_,reach.tail (.answer before' after' _ history' next effect),rfl,?_⟩
        have within : Within impl (next v) [] (k r >>= fun v => (next v).carriedOut impl) := by
          rw [answered]
          exact Prog.within_start implements.proper _
        refine List.rel_append early (.cons ⟨rfl,_,[],?_,expands.snoc steps',within⟩ late)
        simp only [List.append_assoc, List.append_nil]

/-- Every state of the system is carried by a state of the implementation. -/
theorem Reachable.carried {start : τ} {t : System Resp σ ι α} (reach : Reachable answers program (view start) t) :
    ∃ s, Reachable low (fun i => (program i).carriedOut impl) start s ∧ t.shared = view s.shared ∧
      List.Forall₂ (Task.Carries impl) s.tasks t.tasks := by
  suffices rests : ∃ s, Reachable low (fun i => (program i).carriedOut impl) start s ∧ t.shared = view s.shared ∧
      List.Forall₂ (Task.Rests impl) s.tasks t.tasks by
    obtain ⟨s,reached,same,rests⟩ := rests
    exact ⟨s,reached,same,rests.imp fun _ _ rests => rests.carries implements.proper⟩
  induction reach with
  | refl => exact ⟨⟨start,[]⟩,.refl,rfl,.nil⟩
  | tail _ turn ih =>
    obtain ⟨⟨shared,tasks⟩,reached,same,rests⟩ := ih
    cases turn with
    | arrive i =>
      refine ⟨⟨shared,tasks ++ [⟨i,[],(program i).carriedOut impl⟩]⟩,reached.tail (.arrive i),same,?_⟩
      exact List.rel_append rests (.cons ⟨rfl,.nil,rfl⟩ .nil)
    | @answer o a r b before after i history next answer =>
      obtain ⟨before',⟨_,history',rest'⟩,after',rfl,early,⟨rfl,expands,left⟩,late⟩ := forall₂_middle rests.flip
      change rest' = (Prog.op o next).carriedOut impl at left
      subst left
      obtain rfl : a = view shared := same
      obtain ⟨run,c,runs,through,view_eq⟩ := implements.possible _ _ _ _ answer
      have steps : Prog.Steps ((Prog.op o next).carriedOut impl) run ((next r).carriedOut impl) :=
        Prog.steps_carriedOut runs
      refine ⟨_,reached.trans (turns_of_steps before' after' steps through),view_eq.symm,?_⟩
      exact List.rel_append early.flip (.cons ⟨rfl,expands.snoc runs,rfl⟩ late.flip)

end System
end SorobanProxy.Library
