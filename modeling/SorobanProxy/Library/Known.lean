import SorobanProxy.Library.Interleaving
import Mathlib.Data.List.Induction

/-! Operations whose answer is known before a program runs. Putting the known answers in
leaves a program of the other operations, which runs as the first one does with the known
operations left out. Programs on a state that none of them changes do not influence each
other, so a system of them is one of the programs that are left. -/
namespace SorobanProxy.Library

variable {Op : Type} {Resp : Op → Type} {α β ε δ σ τ ι : Type}

/-- The answers that are known. -/
abbrev Known (Resp : Op → Type) := (o : Op) → Option (Resp o)

namespace Known

/-- An answer that contradicts none of the known ones. -/
def Fits (known : Known Resp) (o : Op) (r : Resp o) : Prop := ∀ s, known o = some s → r = s

/-- The events whose answer is not known. -/
def unknown (known : Known Resp) (events : List (Event Resp)) : List (Event Resp) :=
  events.filter fun e => (known e.op).isNone

variable {known : Known Resp}

@[simp] theorem unknown_nil : known.unknown [] = [] := rfl

@[simp] theorem unknown_append (first second : List (Event Resp)) :
    known.unknown (first ++ second) = known.unknown first ++ known.unknown second := List.filter_append _ _

theorem unknown_cons_some {o : Op} {s r : Resp o} {events : List (Event Resp)} (found : known o = some s) :
    known.unknown (⟨o,r⟩ :: events) = known.unknown events := by
  simp [unknown,found]

theorem unknown_cons_none {o : Op} {r : Resp o} {events : List (Event Resp)} (missing : known o = none) :
    known.unknown (⟨o,r⟩ :: events) = ⟨o,r⟩ :: known.unknown events := by
  simp [unknown,missing]

theorem mem_unknown_iff {e : Event Resp} {events : List (Event Resp)} :
    e ∈ known.unknown events ↔ e ∈ events ∧ known e.op = none := by
  simp [unknown]

end Known

namespace Prog

/-- The program that is left when the known answers are put in. -/
def given (known : Known Resp) : Prog Resp α → Prog Resp α
  | .pure a => .pure a
  | .op o next =>
    match known o with
    | some r => given known (next r)
    | none => .op o fun r => given known (next r)

variable {known : Known Resp}

theorem reliable_nil {rely : (o : Op) → Resp o → Prop} : Reliable rely [] := by
  simp [Reliable]

theorem reliable_cons_iff {rely : (o : Op) → Resp o → Prop} {o : Op} {r : Resp o} {events : List (Event Resp)} :
    Reliable rely (⟨o,r⟩ :: events) ↔ rely o r ∧ Reliable rely events := List.forall_mem_cons

theorem reliable_append_iff {rely : (o : Op) → Resp o → Prop} {first second : List (Event Resp)} :
    Reliable rely (first ++ second) ↔ Reliable rely first ∧ Reliable rely second := List.forall_mem_append

theorem fits_of_some {o : Op} {r : Resp o} (found : known o = some r) : known.Fits o r :=
  fun _ known' => Option.some.inj (found.symm.trans known')

theorem fits_of_none {o : Op} {r : Resp o} (missing : known o = none) : known.Fits o r :=
  fun _ known' => nomatch missing.symm.trans known'

@[simp] theorem given_pure (a : α) : given known (.pure a : Prog Resp α) = .pure a := rfl

theorem given_op_some {o : Op} {r : Resp o} {next : Resp o → Prog Resp α} (found : known o = some r) :
    given known (.op o next) = given known (next r) := by
  rw [given,found]

theorem given_op_none {o : Op} {next : Resp o → Prog Resp α} (missing : known o = none) :
    given known (.op o next) = .op o fun r => given known (next r) := by
  rw [given,missing]

theorem given_bind (p : Prog Resp α) (f : α → Prog Resp β) :
    given known (p >>= f) = given known p >>= fun a => given known (f a) := by
  induction p with
  | pure a => rfl
  | op o next ih =>
    rw [op_bind]
    cases found : known o with
    | some r => rw [given_op_some found,given_op_some found,ih]
    | none =>
      rw [given_op_none found,given_op_none found,op_bind]
      simp only [ih]

/-- A program without known operations is left as it is. -/
theorem given_of_only {p : Prog Resp α} (only : Only (fun o => known o = none) p) : given known p = p := by
  induction p with
  | pure a => rfl
  | op o next ih =>
    rw [given_op_none only.1]
    exact congrArg _ (funext fun r => ih r (only.2 r))

theorem given_bind_except (x : ExceptT ε (Prog Resp) α) (f : α → ExceptT ε (Prog Resp) β) :
    given known (x >>= f).run =
      ((ExceptT.mk (given known x.run) : ExceptT ε (Prog Resp) α) >>= fun a =>
        ExceptT.mk (given known (f a).run)).run := by
  rw [ExceptT.run_bind,given_bind,ExceptT.run_bind]
  refine bind_congr fun result => ?_
  cases result <;> rfl

/-- A computed result is left as it is. -/
theorem given_ofResult_bind {result : Except ε α} {f g : α → ExceptT ε (Prog Resp) β}
    (next : ∀ a, result = .ok a → given known (f a).run = (g a).run) :
    given known (ofResult result >>= f).run = (ofResult result >>= g).run := by
  cases result with
  | ok a => exact next a rfl
  | error e => rfl

/-- The runs of what is left are the runs on fitting answers, with the known operations left out. -/
theorem Steps.given {p q : Prog Resp α} {events : List (Event Resp)} (steps : Steps p events q)
    (fits : Reliable known.Fits events) : Steps (given known p) (known.unknown events) (given known q) := by
  induction steps with
  | refl => exact .refl
  | @step o next events rest r _ ih =>
    obtain ⟨fit,fits⟩ := reliable_cons_iff.mp fits
    have later := ih fits
    cases found : known o with
    | some s =>
      obtain rfl := fit s found
      rwa [given_op_some found,Known.unknown_cons_some found]
    | none =>
      rw [given_op_none found,Known.unknown_cons_none found]
      exact .step r later

theorem Steps.of_given {p left : Prog Resp α} {events : List (Event Resp)}
    (steps : Steps (Prog.given known p) events left) : ∃ full rest, Steps p full rest ∧
      Reliable known.Fits full ∧ known.unknown full = events ∧ Prog.given known rest = left := by
  induction p generalizing events with
  | pure a =>
    cases steps
    exact ⟨[],.pure a,.refl,reliable_nil,rfl,rfl⟩
  | op o next ih =>
    cases found : known o with
    | some s =>
      rw [given_op_some found] at steps
      obtain ⟨full,rest,run,fits,same,ends⟩ := ih s steps
      rw [← same,← Known.unknown_cons_some found]
      exact ⟨⟨o,s⟩ :: full,rest,.step s run,reliable_cons_iff.mpr ⟨fits_of_some found,fits⟩,rfl,ends⟩
    | none =>
      rw [given_op_none found] at steps
      cases steps with
      | refl => exact ⟨[],.op o next,.refl,reliable_nil,rfl,given_op_none found⟩
      | step r later =>
        obtain ⟨full,rest,run,fits,rfl,ends⟩ := ih r later
        exact ⟨⟨o,r⟩ :: full,rest,.step r run,reliable_cons_iff.mpr ⟨fits_of_none found,fits⟩,
          Known.unknown_cons_none found,ends⟩

end Prog

/-- A task with the known operations left out. -/
def Task.given (known : Known Resp) (t : Task Resp ι α) : Task Resp ι α :=
  ⟨t.request,known.unknown t.history,t.rest.given known⟩

namespace System

/-- An answer that may be given at a state. -/
def Possible (answers : σ → (o : Op) → Resp o → σ → Prop) (a : σ) (o : Op) (r : Resp o) : Prop :=
  ∃ b, answers a o r b

/-- On the answers of a state no program comes to an operation that changes it. -/
def Fixed (answers : σ → (o : Op) → Resp o → σ → Prop) (program : ι → Prog Resp α) (start : σ) : Prop :=
  ∀ i history o next, Prog.Steps (program i) history (.op o next) →
    Prog.Reliable (Possible answers start) history → ∀ r b, answers start o r b → b = start

/-- A task that has run as its program does, on answers of a state. -/
def Ran (answers : σ → (o : Op) → Resp o → σ → Prop) (program : ι → Prog Resp α) (start : σ)
    (t : Task Resp ι α) : Prop :=
  Prog.Steps (program t.request) t.history t.rest ∧ Prog.Reliable (Possible answers start) t.history

/-- Surroundings without a state. -/
def Free (possible : (o : Op) → Resp o → Prop) : Unit → (o : Op) → Resp o → Unit → Prop :=
  fun _ o r _ => possible o r

/-- The system of what is left of each program. -/
def given (known : Known Resp) (s : System Resp σ ι α) : System Resp Unit ι α :=
  ⟨(),s.tasks.map (Task.given known)⟩

variable {answers : σ → (o : Op) → Resp o → σ → Prop} {program : ι → Prog Resp α} {start : σ}

theorem Fixed.through (fixed : Fixed answers program start) {i : ι} {before events : List (Event Resp)}
    {p q : Prog Resp α} (came : Prog.Steps (program i) before p)
    (steps : Prog.Steps p events q) (reliable : Prog.Reliable (Possible answers start) (before ++ events)) :
    Through answers start events start := by
  induction steps generalizing before with
  | refl => exact .nil
  | @step o next events rest r _ ih =>
    obtain ⟨early,late⟩ := Prog.reliable_append_iff.mp reliable
    obtain ⟨b,answer⟩ := (Prog.reliable_cons_iff.mp late).1
    obtain rfl := fixed i before o next came early r b answer
    rw [List.append_cons] at reliable
    exact .cons answer (ih (came.snoc r) reliable)

/-- Where no program changes the state, the states reached are those whose tasks have each
run alone: no task has an influence on another. -/
theorem reachable_iff (fixed : Fixed answers program start) {s : System Resp σ ι α} :
    Reachable answers program start s ↔ s.shared = start ∧ ∀ t ∈ s.tasks, Ran answers program start t := by
  constructor
  · intro reach
    have relies (a : σ) (o : Op) (r : Resp o) (b : σ) (here : start = a) (answer : answers a o r b) :
        Possible answers start o r := by
      subst here
      exact ⟨b,answer⟩
    have keeps (i : ι) (history : List (Event Resp)) (o : Op) (next : Resp o → Prog Resp α) (a : σ) (r : Resp o)
        (b : σ) (here : start = a) (reliable : Prog.Reliable (Possible answers start) history)
        (steps : Prog.Steps (program i) history (.op o next)) (answer : answers a o r b) : start = b := by
      subst here
      exact (fixed i history o next steps reliable r b answer).symm
    obtain ⟨here,ran⟩ := reach.invariant_of_steps relies keeps rfl
    exact ⟨here.symm,ran⟩
  · obtain ⟨shared,tasks⟩ := s
    rintro ⟨here,ran⟩
    change shared = start at here
    subst here
    induction tasks using List.reverseRecOn with
    | nil => exact .refl
    | append_singleton tasks t ih =>
      obtain ⟨early,last⟩ := List.forall_mem_append.mp ran
      obtain ⟨steps,reliable⟩ := last t List.mem_cons_self
      have arrived := (ih early).tail (.arrive t.request)
      exact arrived.trans (turns_of_steps tasks [] steps (fixed.through .refl steps reliable))

theorem fixed_free {possible : (o : Op) → Resp o → Prop} : Fixed (Free possible) program () :=
  fun _ _ _ _ _ _ _ _ _ => rfl

theorem possible_free {possible : (o : Op) → Resp o → Prop} {o : Op} {r : Resp o} :
    Possible (Free possible) () o r ↔ possible o r := exists_const Unit

section Given

variable {known : Known Resp} {remaining : (o : Op) → Resp o → Prop}
  (same : ∀ o r, known o = none → (remaining o r ↔ Possible answers start o r))
include same

theorem Ran.given {t : Task Resp ι α} (ran : Ran answers program start t)
    (fits : ∀ o r, Possible answers start o r → known.Fits o r) :
    Ran (Free remaining) (fun i => (program i).given known) () (t.given known) := by
  obtain ⟨steps,reliable⟩ := ran
  refine ⟨steps.given fun e member => fits _ _ (reliable e member),fun e member => possible_free.mpr ?_⟩
  obtain ⟨member,missing⟩ := Known.mem_unknown_iff.mp member
  exact (same _ _ missing).mpr (reliable e member)

theorem Ran.of_given {t : Task Resp ι α} (ran : Ran (Free remaining) (fun i => (program i).given known) () t)
    (possible : ∀ o r, known o = some r → Possible answers start o r) :
    ∃ whole : Task Resp ι α, Ran answers program start whole ∧ whole.given known = t := by
  obtain ⟨request,history,rest⟩ := t
  obtain ⟨steps,reliable⟩ := ran
  obtain ⟨full,whole,run,fits,rfl,rfl⟩ := Prog.Steps.of_given steps
  refine ⟨⟨request,full,whole⟩,⟨run,fun e member => ?_⟩,rfl⟩
  cases found : known e.op with
  | some s =>
    rw [fits e member s found]
    exact possible _ _ found
  | none =>
    apply (same _ _ found).mp
    exact possible_free.mp (reliable e (Known.mem_unknown_iff.mpr ⟨member,found⟩))

/-- The system of what is left of the programs reaches the same states, up to the known
operations. -/
theorem reachable_given_iff (fixed : Fixed answers program start)
    (fits : ∀ o r, Possible answers start o r → known.Fits o r)
    (possible : ∀ o r, known o = some r → Possible answers start o r) {left : System Resp Unit ι α} :
    Reachable (Free remaining) (fun i => (program i).given known) () left ↔
      ∃ s, Reachable answers program start s ∧ s.given known = left := by
  constructor
  · obtain ⟨_,tasks⟩ := left
    rw [reachable_iff fixed_free]
    rintro ⟨-,ran⟩
    obtain ⟨whole,each,image⟩ : ∃ whole : List (Task Resp ι α),
        (∀ t ∈ whole, Ran answers program start t) ∧ whole.map (Task.given known) = tasks := by
      induction tasks with
      | nil => exact ⟨[],by simp,rfl⟩
      | cons t tasks ih =>
        obtain ⟨head,tail⟩ := List.forall_mem_cons.mp ran
        obtain ⟨first,ranFirst,rfl⟩ := head.of_given same possible
        obtain ⟨others,ranOthers,rfl⟩ := ih tail
        exact ⟨first :: others,List.forall_mem_cons.mpr ⟨ranFirst,ranOthers⟩,rfl⟩
    exact ⟨⟨start,whole⟩,(reachable_iff fixed).mpr ⟨rfl,each⟩,by rw [given,image]⟩
  · rintro ⟨s,reach,rfl⟩
    obtain ⟨-,ran⟩ := (reachable_iff fixed).mp reach
    refine (reachable_iff fixed_free).mpr ⟨rfl,fun t member => ?_⟩
    obtain ⟨whole,inside,rfl⟩ := List.mem_map.mp member
    exact (ran whole inside).given same fits

end Given
end System
end SorobanProxy.Library
