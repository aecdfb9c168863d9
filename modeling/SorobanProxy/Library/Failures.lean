import SorobanProxy.Library.Interaction

/-! Programs that stop at certain operations, whatever they would have done after another
answer: at a failed operation they give up. Which answers are final, and of what, is a
parameter, and so is what the program's result tells of it. The program is a tree of
operations, so the property is one of the tree, with a rule for each way of combining programs. -/
namespace SorobanProxy.Library.Prog

variable {Op : Type} {Resp : Op → Type} {α β ε δ φ : Type}

/-- No operation of the program is final. -/
def Sure (final : (o : Op) → Resp o → φ → Prop) : Prog Resp α → Prop
  | .pure _ => True
  | .op o next => ∀ r, (∀ f, ¬final o r f) ∧ Sure final (next r)

/-- A final operation is the last one, and the result tells of it. -/
def Last (final : (o : Op) → Resp o → φ → Prop) (told : Op → φ → α → Prop) : Prog Resp α → Prop
  | .pure _ => True
  | .op o next => ∀ r, (∀ f, final o r f → ∃ result, next r = .pure result ∧ told o f result) ∧
      Last final told (next r)

/-- An operation that fails is the last one, and the program's error tells of it. -/
def GivesUp (failure : (o : Op) → Resp o → φ → Prop) (told : Op → φ → ε → Prop) :
    Prog Resp (Except ε α) → Prop := Last failure fun o f result => ∃ e, result = .error e ∧ told o f e

section Last

variable {final : (o : Op) → Resp o → φ → Prop}

theorem Sure.perform {o : Op} (sure : ∀ r f, ¬final o r f) : Sure final (perform o) :=
  fun r => ⟨sure r,trivial⟩

theorem Sure.bind {p : Prog Resp α} {f : α → Prog Resp β} (first : Sure final p)
    (next : ∀ a, Sure final (f a)) : Sure final (p >>= f) := by
  induction p with
  | pure a => exact next a
  | op o rest ih => exact fun r => ⟨(first r).1,ih r (first r).2⟩

/-- A program without certain operations, where these are the final ones. -/
theorem Sure.of_only {P : Op → Prop} {p : Prog Resp α} (only : Only P p) (other : ∀ o r f, P o → ¬final o r f) :
    Sure final p := by
  induction p with
  | pure a => trivial
  | op o next ih => exact fun r => ⟨fun f => other o r f only.1,ih r (only.2 r)⟩

namespace Last

variable {told : Op → φ → β → Prop}

theorem bind {p : Prog Resp α} {f : α → Prog Resp β} (first : Sure final p)
    (next : ∀ a, Last final told (f a)) : Last final told (p >>= f) := by
  induction p with
  | pure a => exact next a
  | op o rest ih => exact fun r => ⟨fun f ends => absurd ends ((first r).1 f),ih r (first r).2⟩

theorem bind_except {told : Op → φ → Except ε β → Prop} {x : ExceptT ε (Prog Resp) α}
    {f : α → ExceptT ε (Prog Resp) β} (first : Sure final x.run) (next : ∀ a, Last final told (f a).run) :
    Last final told (x >>= f).run := by
  rw [ExceptT.run_bind]
  refine bind first fun result => ?_
  cases result with
  | ok a => exact next a
  | error e => trivial

theorem steps {p rest : Prog Resp β} {events : List (Event Resp)} (last : Last final told p)
    (run : Steps p events rest) : Last final told rest := by
  induction run with
  | refl => exact last
  | step r _ ih => exact ih (last r).2

/-- In a run a final operation is the last event. -/
theorem of_runs {p : Prog Resp β} (last : Last final told p) {before after : List (Event Resp)}
    {event : Event Resp} {result : β} (run : Runs p (before ++ event :: after) result) {f : φ}
    (ends : final event.op event.resp f) : after = [] ∧ told event.op f result := by
  obtain ⟨o,r⟩ := event
  obtain ⟨next,steps⟩ := run.issues_of_split
  obtain ⟨_,stops,tells⟩ := (last.steps steps r).1 f ends
  obtain ⟨_,_,shape,stopped⟩ := runs_op_iff.mp (steps.rest run)
  cases shape
  rw [stops] at stopped
  obtain ⟨rfl,rfl⟩ := runs_pure_iff.mp stopped
  exact ⟨rfl,tells⟩

end Last
end Last

namespace GivesUp

variable {failure : (o : Op) → Resp o → φ → Prop} {told : Op → φ → ε → Prop}

theorem ofResult {result : Except ε α} :
    GivesUp failure told (Prog.ofResult result : ExceptT ε (Prog Resp) α).run := trivial

theorem bind {x : ExceptT ε (Prog Resp) α} {f : α → ExceptT ε (Prog Resp) β}
    (first : GivesUp failure told x.run) (next : ∀ a, GivesUp failure told (f a).run) :
    GivesUp failure told (x >>= f).run := by
  rw [ExceptT.run_bind]
  generalize x.run = p at first
  induction p with
  | pure result =>
    cases result with
    | ok a => exact next a
    | error e => trivial
  | op o rest ih =>
    intro r
    refine ⟨fun f failed => ?_,ih r (first r).2⟩
    obtain ⟨_,ends,e,rfl,tells⟩ := (first r).1 f failed
    exact ⟨.error e,by simp only [ends]; rfl,e,rfl,tells⟩

theorem ofResult_bind {result : Except ε α} {f : α → ExceptT ε (Prog Resp) β}
    (next : ∀ a, result = .ok a → GivesUp failure told (f a).run) :
    GivesUp failure told (Prog.ofResult result >>= f).run := by
  cases result with
  | ok a => exact next a rfl
  | error e => trivial

theorem mapError {told' : Op → φ → δ → Prop} {x : ExceptT ε (Prog Resp) α} {translate : ε → δ}
    (gives : GivesUp failure told x.run) (tells : ∀ o f e, told o f e → told' o f (translate e)) :
    GivesUp failure told' (Prog.mapError x translate).run := by
  change GivesUp failure told' (x.run >>= fun result => .pure (result.mapError translate))
  generalize x.run = p at gives
  induction p with
  | pure result => trivial
  | op o rest ih =>
    intro r
    refine ⟨fun f failed => ?_,ih r (gives r).2⟩
    obtain ⟨_,ends,e,rfl,told⟩ := (gives r).1 f failed
    exact ⟨.error (translate e),by simp only [ends]; rfl,_,rfl,tells o f e told⟩

theorem liftExcept {p : Prog Resp α} (sure : Sure failure p) :
    GivesUp failure told (Prog.liftExcept p : ExceptT ε (Prog Resp) α).run := Last.bind sure fun _ => trivial

/-- In a run a failed operation is the last event, and the result is an error that tells of it. -/
theorem of_runs {p : Prog Resp (Except ε α)} (gives : GivesUp failure told p)
    {before after : List (Event Resp)} {event : Event Resp} {result : Except ε α}
    (run : Runs p (before ++ event :: after) result) {f : φ} (failed : failure event.op event.resp f) :
    after = [] ∧ ∃ e, result = .error e ∧ told event.op f e := Last.of_runs gives run failed

end GivesUp

/-- Every error that the program ends with is of a kind. -/
def Errs (kind : ε → Prop) : Prog Resp (Except ε α) → Prop
  | .pure result => ∀ e, result = .error e → kind e
  | .op _ next => ∀ r, Errs kind (next r)

namespace Errs

variable {kind : ε → Prop}

theorem bind {x : ExceptT ε (Prog Resp) α} {f : α → ExceptT ε (Prog Resp) β} (first : Errs kind x.run)
    (next : ∀ a, Errs kind (f a).run) : Errs kind (x >>= f).run := by
  rw [ExceptT.run_bind]
  generalize x.run = p at first
  induction p with
  | pure result =>
    cases result with
    | ok a => exact next a
    | error e =>
      rintro _ same
      obtain rfl := Except.error.inj same
      exact first e rfl
  | op o rest ih => exact fun r => ih r (first r)

theorem ofResult_bind {result : Except ε α} {f : α → ExceptT ε (Prog Resp) β}
    (fails : ∀ e, result = .error e → kind e) (next : ∀ a, Errs kind (f a).run) :
    Errs kind (Prog.ofResult result >>= f).run := bind (x := Prog.ofResult result) fails next

theorem mapError {x : ExceptT δ (Prog Resp) α} {translate : δ → ε} (each : ∀ e, kind (translate e)) :
    Errs kind (Prog.mapError x translate).run := by
  change Errs kind (x.run >>= fun result => .pure (result.mapError translate))
  induction x.run with
  | pure result =>
    intro e same
    cases result with
    | ok a => cases same
    | error e' =>
      obtain rfl := Except.error.inj same
      exact each e'
  | op o rest ih => exact fun r => ih r

theorem of_runs {p : Prog Resp (Except ε α)} (errs : Errs kind p) {events : List (Event Resp)} {e : ε}
    (run : Runs p events (.error e)) : kind e := by
  induction p generalizing events with
  | pure result => exact errs e (runs_pure_iff.mp run).2.symm
  | op o next ih =>
    obtain ⟨r,_,_,later⟩ := runs_op_iff.mp run
    exact ih r (errs r) later

end Errs
end SorobanProxy.Library.Prog
