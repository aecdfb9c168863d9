import Mathlib.Logic.Basic

/-! Programs that issue operations to their surroundings and continue with the answers.
A run is the list of operations with the answers they got. `Holds` is the weakest
precondition over histories: what every issued operation and every result satisfies,
whatever the answers are within a stated reliance. -/
namespace SorobanProxy.Library

inductive Prog {Op : Type} (Resp : Op → Type) (α : Type) where
  | pure (value : α)
  | op (o : Op) (next : Resp o → Prog Resp α)

structure Event {Op : Type} (Resp : Op → Type) where
  op : Op
  resp : Resp op

namespace Prog

variable {Op : Type} {Resp : Op → Type} {α β ε δ : Type}

def bind : Prog Resp α → (α → Prog Resp β) → Prog Resp β
  | .pure a, f => f a
  | .op o next, f => .op o fun r => bind (next r) f

instance : Monad (Prog Resp) where
  pure := .pure
  bind := bind

/-- One operation, returning its answer. -/
def perform (o : Op) : Prog Resp (Resp o) := .op o .pure

@[simp] theorem pure_bind (a : α) (f : α → Prog Resp β) : (Prog.pure a >>= f) = f a := rfl

@[simp] theorem op_bind (o : Op) (next : Resp o → Prog Resp α) (f : α → Prog Resp β) :
    (Prog.op o next >>= f) = .op o fun r => next r >>= f := rfl

theorem bind_assoc (p : Prog Resp α) (f : α → Prog Resp β) (g : β → Prog Resp ε) :
    (p >>= f) >>= g = p >>= fun a => f a >>= g := by
  induction p with
  | pure a => rfl
  | op o next ih => simp only [op_bind, ih]

theorem bind_pure (p : Prog Resp α) : p >>= Prog.pure = p := by
  induction p with
  | pure a => rfl
  | op o next ih => simp only [op_bind, ih]

instance : LawfulMonad (Prog Resp) :=
  LawfulMonad.mk' _ bind_pure (fun _ _ => rfl) bind_assoc

/-- The rest of a program after a finite list of answered operations. -/
inductive Steps : Prog Resp α → List (Event Resp) → Prog Resp α → Prop where
  | refl : Steps p [] p
  | step (r : Resp o) : Steps (next r) events rest → Steps (.op o next) (⟨o,r⟩ :: events) rest

/-- A run to a result. -/
def Runs (p : Prog Resp α) (events : List (Event Resp)) (result : α) : Prop :=
  Steps p events (.pure result)

/-- A run up to an operation, which is issued next. -/
def Issues (p : Prog Resp α) (events : List (Event Resp)) (o : Op) : Prop :=
  ∃ next, Steps p events (.op o next)

theorem Steps.append {p q s : Prog Resp α} {first second : List (Event Resp)}
    (before : Steps p first q) (after : Steps q second s) : Steps p (first ++ second) s := by
  induction before with
  | refl => exact after
  | step r _ ih => exact .step r (ih after)

theorem steps_nil_iff {p q : Prog Resp α} : Steps p [] q ↔ q = p := by
  constructor
  · intro run
    cases run
    rfl
  · rintro rfl
    exact .refl

theorem Steps.snoc {p : Prog Resp α} {events : List (Event Resp)} {o : Op} {next : Resp o → Prog Resp α}
    (before : Steps p events (.op o next)) (r : Resp o) : Steps p (events ++ [⟨o,r⟩]) (next r) :=
  before.append (.step r .refl)

/-- A run of the first part of a sequence, and on from its result. -/
theorem Steps.bind {p : Prog Resp α} {f : α → Prog Resp β} {first second : List (Event Resp)} {a : α}
    {rest : Prog Resp β} (before : Runs p first a) (after : Steps (f a) second rest) :
    Steps (p >>= f) (first ++ second) rest := by
  unfold Runs at before
  generalize result : Prog.pure a = q at before
  induction before with
  | refl =>
    subst result
    exact after
  | step r _ ih => exact .step r (ih result)

/-- A run of a sequence goes through its first part and then through the second. -/
theorem runs_bind_iff {p : Prog Resp α} {f : α → Prog Resp β} {events : List (Event Resp)} {b : β} :
    Runs (p >>= f) events b ↔
      ∃ first a second, events = first ++ second ∧ Runs p first a ∧ Runs (f a) second b := by
  constructor
  · intro run
    induction p generalizing events with
    | pure a => exact ⟨[],a,events,rfl,.refl,run⟩
    | op o next ih =>
      cases run with
      | step r run =>
        obtain ⟨first,a,second,rfl,through,after⟩ := ih r run
        exact ⟨_ :: first,a,second,rfl,.step r through,after⟩
  · rintro ⟨first,a,second,rfl,before,after⟩
    exact .bind before after

theorem runs_pure_iff {a b : α} {events : List (Event Resp)} :
    Runs (.pure a) events b ↔ events = [] ∧ b = a := by
  constructor
  · intro run
    cases run
    exact ⟨rfl,rfl⟩
  · rintro ⟨rfl,rfl⟩
    exact .refl

theorem runs_op_iff {o : Op} {next : Resp o → Prog Resp α} {events : List (Event Resp)} {b : α} :
    Runs (.op o next) events b ↔ ∃ r rest, events = ⟨o,r⟩ :: rest ∧ Runs (next r) rest b := by
  constructor
  · intro run
    cases run with
    | step r run => exact ⟨r,_,rfl,run⟩
  · rintro ⟨r,rest,rfl,run⟩
    exact .step r run

theorem Steps.issues {p q : Prog Resp α} {first second : List (Event Resp)} {o : Op}
    (before : Steps p first q) (after : Issues q second o) : Issues p (first ++ second) o := by
  obtain ⟨next,after⟩ := after
  exact ⟨next,before.append after⟩

/-- A program goes on in one way after given events. -/
theorem Steps.rest {p q s : Prog Resp α} {first second : List (Event Resp)} (before : Steps p first q)
    (whole : Steps p (first ++ second) s) : Steps q second s := by
  induction before with
  | refl => exact whole
  | step r _ ih =>
    cases whole with
    | step _ whole => exact ih whole

/-- A program goes on to one operation. -/
theorem Steps.op_eq {p q s : Prog Resp α} {e other : Event Resp} {first second : List (Event Resp)}
    (one : Steps p (e :: first) q) (two : Steps p (other :: second) s) : e.op = other.op := by
  cases one with
  | step r one =>
    cases two with
    | step _ two => rfl

theorem Steps.issues_of_split {p q : Prog Resp α} {before after : List (Event Resp)} {e : Event Resp}
    (run : Steps p (before ++ e :: after) q) : Issues p before e.op := by
  induction before generalizing p with
  | nil =>
    cases run with
    | step r _ => exact ⟨_,.refl⟩
  | cons first before ih =>
    cases run with
    | step r run =>
      obtain ⟨next,later⟩ := ih run
      exact ⟨next,.step r later⟩

theorem issues_op {o : Op} {next : Resp o → Prog Resp α} : Issues (.op o next) [] o := ⟨next,.refl⟩

/-- Every operation is issued at a history that allows it, and every result is returned
at a history that allows it, as long as the answers are reliable ones. -/
def Holds (rely : (o : Op) → Resp o → Prop) (allowed : List (Event Resp) → Op → Prop)
    (post : List (Event Resp) → α → Prop) : List (Event Resp) → Prog Resp α → Prop
  | history, .pure a => post history a
  | history, .op o next =>
    allowed history o ∧ ∀ r, rely o r → Holds rely allowed post (history ++ [⟨o,r⟩]) (next r)

section Holds

variable {rely : (o : Op) → Resp o → Prop} {allowed : List (Event Resp) → Op → Prop}

@[simp] theorem holds_pure {post : List (Event Resp) → α → Prop} {history : List (Event Resp)} {a : α} :
    Holds rely allowed post history (.pure a) ↔ post history a := Iff.rfl

@[simp] theorem holds_perform {post : (h : List (Event Resp)) → Resp o → Prop}
    {history : List (Event Resp)} : Holds rely allowed post history (perform o) ↔
      allowed history o ∧ ∀ r, rely o r → post (history ++ [⟨o,r⟩]) r := Iff.rfl

theorem Holds.perform {history : List (Event Resp)} {o : Op} (issued : allowed history o) :
    Holds rely allowed (fun h r => h = history ++ [⟨o,r⟩]) history (perform o) :=
  holds_perform.mpr ⟨issued,fun _ _ => rfl⟩

theorem holds_bind {post : List (Event Resp) → β → Prop} {history : List (Event Resp)}
    {p : Prog Resp α} {f : α → Prog Resp β} :
    Holds rely allowed post history (p >>= f) ↔
      Holds rely allowed (fun h a => Holds rely allowed post h (f a)) history p := by
  induction p generalizing history with
  | pure a => exact Iff.rfl
  | op o next ih =>
    rw [op_bind]
    simp only [Holds, ih]

theorem Holds.imp {weak strong : List (Event Resp) → α → Prop} {history : List (Event Resp)}
    {p : Prog Resp α} (holds : Holds rely allowed strong history p)
    (weaker : ∀ h a, strong h a → weak h a) : Holds rely allowed weak history p := by
  induction p generalizing history with
  | pure a => exact weaker _ _ holds
  | op o next ih => exact ⟨holds.1,fun r answer => ih r (holds.2 r answer)⟩

theorem Holds.allow {weak strong : List (Event Resp) → Op → Prop} {post : List (Event Resp) → α → Prop}
    {history : List (Event Resp)} {p : Prog Resp α} (holds : Holds rely strong post history p)
    (weaker : ∀ h o, strong h o → weak h o) : Holds rely weak post history p := by
  induction p generalizing history with
  | pure a => exact holds
  | op o next ih => exact ⟨weaker _ _ holds.1,fun r answer => ih r (holds.2 r answer)⟩

/-- The answers of a list of events are reliable. -/
def Reliable (rely : (o : Op) → Resp o → Prop) (events : List (Event Resp)) : Prop :=
  ∀ e ∈ events, rely e.op e.resp

theorem Holds.steps {post : List (Event Resp) → α → Prop} {history events : List (Event Resp)}
    {p rest : Prog Resp α} (holds : Holds rely allowed post history p) (run : Steps p events rest)
    (reliable : Reliable rely events) : Holds rely allowed post (history ++ events) rest := by
  induction run generalizing history with
  | refl => simpa using holds
  | step r run ih =>
    have head := holds.2 r (reliable _ List.mem_cons_self)
    simpa using ih head fun e member => reliable e (List.mem_cons_of_mem _ member)

/-- An operation that a run comes to was allowed at the history before it. -/
theorem Holds.allowed_of_issues {post : List (Event Resp) → α → Prop}
    {history events : List (Event Resp)} {p : Prog Resp α} {o : Op}
    (holds : Holds rely allowed post history p) (run : Issues p events o)
    (reliable : Reliable rely events) : allowed (history ++ events) o := by
  obtain ⟨next,run⟩ := run
  exact (holds.steps run reliable).1

theorem Holds.post_of_runs {post : List (Event Resp) → α → Prop} {history events : List (Event Resp)}
    {p : Prog Resp α} {a : α} (holds : Holds rely allowed post history p) (run : Runs p events a)
    (reliable : Reliable rely events) : post (history ++ events) a :=
  holds.steps run reliable

variable (rely) in
/-- No operation has two reliable answers. -/
def Functional : Prop := ∀ o r s, rely o r → rely o s → r = s

/-- Where answers are functional, a run goes on from wherever the program has come to. -/
theorem Steps.agree {p q : Prog Resp α} {first second : List (Event Resp)} {a : α} (functional : Functional rely)
    (one : Steps p first q) (two : Runs p second a) (reliable : Reliable rely first)
    (reliable' : Reliable rely second) : ∃ later, second = first ++ later ∧ Runs q later a := by
  induction one generalizing second with
  | refl => exact ⟨second,rfl,two⟩
  | step r _ ih =>
    obtain ⟨s,rest,rfl,on⟩ := runs_op_iff.mp two
    obtain rfl := functional _ r s (reliable _ List.mem_cons_self) (reliable' _ List.mem_cons_self)
    obtain ⟨later,rfl,run⟩ := ih on (fun e member => reliable e (List.mem_cons_of_mem _ member))
      fun e member => reliable' e (List.mem_cons_of_mem _ member)
    exact ⟨later,rfl,run⟩

end Holds

section Errors

-- Programs that may fail: the error transformer over the same operations.
variable {rely : (o : Op) → Resp o → Prop} {allowed : List (Event Resp) → Op → Prop}

/-- What follows a step that may fail: its value goes on, its error is the result. -/
def onResult (post : List (Event Resp) → Except ε β → Prop) (next : List (Event Resp) → α → Prop) :
    List (Event Resp) → Except ε α → Prop
  | h, .ok a => next h a
  | h, .error e => post h (.error e)

theorem holds_bind_except {post : List (Event Resp) → Except ε β → Prop} {history : List (Event Resp)}
    {x : ExceptT ε (Prog Resp) α} {f : α → ExceptT ε (Prog Resp) β} :
    Holds rely allowed post history (x >>= f : ExceptT ε (Prog Resp) β).run ↔
      Holds rely allowed (onResult post fun h a => Holds rely allowed post h (f a).run) history x.run := by
  rw [ExceptT.run_bind,holds_bind]
  constructor
  · intro holds
    refine holds.imp fun h result next => ?_
    cases result <;> exact next
  · intro holds
    refine holds.imp fun h result next => ?_
    cases result <;> exact next

/-- A computed result as a program without operations. -/
def ofResult (result : Except ε α) : ExceptT ε (Prog Resp) α := ExceptT.mk (.pure result)

@[simp] theorem ofResult_ok_bind {a : α} {f : α → ExceptT ε (Prog Resp) β} :
    (ofResult (.ok a) >>= f).run = (f a).run := rfl

@[simp] theorem ofResult_error_bind {e : ε} {f : α → ExceptT ε (Prog Resp) β} :
    (ofResult (.error e) >>= f).run = .pure (.error e) := rfl

theorem ofResult_bind {x : Except ε α} {f : α → Except ε β} :
    (ofResult (x >>= f) : ExceptT ε (Prog Resp) β) = ofResult x >>= fun a => ofResult (f a) := by
  cases x <;> rfl

/-- The same operations, with the error translated. -/
def mapError (x : ExceptT ε (Prog Resp) α) (f : ε → δ) : ExceptT δ (Prog Resp) α :=
  ExceptT.mk (x.run >>= fun result => .pure (result.mapError f))

/-- A program that cannot fail. -/
def liftExcept (p : Prog Resp α) : ExceptT ε (Prog Resp) α := ExceptT.mk (p >>= fun a => .pure (.ok a))

@[simp] theorem holds_ofResult {post : List (Event Resp) → Except ε α → Prop}
    {history : List (Event Resp)} {result : Except ε α} :
    Holds rely allowed post history (ofResult result : ExceptT ε (Prog Resp) α).run ↔ post history result :=
  Iff.rfl

@[simp] theorem holds_mapError {post : List (Event Resp) → Except δ α → Prop}
    {history : List (Event Resp)} {x : ExceptT ε (Prog Resp) α} {f : ε → δ} :
    Holds rely allowed post history (mapError x f).run ↔
      Holds rely allowed (fun h result => post h (result.mapError f)) history x.run := holds_bind

@[simp] theorem holds_liftExcept {post : List (Event Resp) → Except ε α → Prop}
    {history : List (Event Resp)} {p : Prog Resp α} :
    Holds rely allowed post history (liftExcept p : ExceptT ε (Prog Resp) α).run ↔
      Holds rely allowed (fun h a => post h (.ok a)) history p := holds_bind

theorem Steps.bind_except {x : ExceptT ε (Prog Resp) α} {f : α → ExceptT ε (Prog Resp) β}
    {first second : List (Event Resp)} {a : α} {rest : Prog Resp (Except ε β)}
    (before : Runs x.run first (.ok a)) (after : Steps (f a).run second rest) :
    Steps (x >>= f).run (first ++ second) rest := by
  rw [ExceptT.run_bind]
  exact .bind before after

/-- The same, for a part that is one operation. -/
theorem Steps.cons_bind {x : ExceptT ε (Prog Resp) α} {f : α → ExceptT ε (Prog Resp) β} {e : Event Resp}
    {events : List (Event Resp)} {a : α} {rest : Prog Resp (Except ε β)}
    (before : Runs x.run [e] (.ok a)) (after : Steps (f a).run events rest) :
    Steps (x >>= f).run (e :: events) rest := .bind_except before after

theorem Steps.ofResult_bind {result : Except ε α} {f : α → ExceptT ε (Prog Resp) β}
    {events : List (Event Resp)} {a : α} {rest : Prog Resp (Except ε β)} (same : result = .ok a)
    (after : Steps (f a).run events rest) : Steps (ofResult result >>= f).run events rest := by
  subst same
  rw [← List.nil_append events]
  exact .bind_except .refl after

/-- What follows the first part of a sequence, after its one operation. -/
theorem Steps.of_cons_bind {x : ExceptT ε (Prog Resp) α} {f : α → ExceptT ε (Prog Resp) β} {e : Event Resp}
    {events : List (Event Resp)} {a : α} {rest : Prog Resp (Except ε β)} (before : Runs x.run [e] (.ok a))
    (run : Steps (x >>= f).run (e :: events) rest) : Steps (f a).run events rest :=
  (Steps.cons_bind before .refl).rest run

/-- Where a computed result is followed by operations, it is a value. -/
theorem Steps.of_ofResult_bind {result : Except ε α} {f : α → ExceptT ε (Prog Resp) β} {e : Event Resp}
    {events : List (Event Resp)} {rest : Prog Resp (Except ε β)}
    (run : Steps (ofResult result >>= f).run (e :: events) rest) :
    ∃ a, result = .ok a ∧ Steps (f a).run (e :: events) rest := by
  cases result with
  | ok a => exact ⟨a,rfl,run⟩
  | error failed => cases run

/-- A successful run of a sequence goes through a success of its first part. -/
theorem runs_bind_except_iff {x : ExceptT ε (Prog Resp) α} {f : α → ExceptT ε (Prog Resp) β}
    {events : List (Event Resp)} {b : β} : Runs (x >>= f).run events (.ok b) ↔
      ∃ first a second, events = first ++ second ∧ Runs x.run first (.ok a) ∧ Runs (f a).run second (.ok b) := by
  constructor
  · rw [ExceptT.run_bind]
    intro run
    obtain ⟨first,result,second,rfl,before,after⟩ := runs_bind_iff.mp run
    cases result with
    | ok a => exact ⟨first,a,second,rfl,before,after⟩
    | error e => exact nomatch (runs_pure_iff.mp after).2
  · rintro ⟨first,a,second,rfl,before,after⟩
    exact Steps.bind_except before after

/-- A run of a sequence ends with an error of its first part, or goes on from its value. -/
theorem runs_bind_except_cases {x : ExceptT ε (Prog Resp) α} {f : α → ExceptT ε (Prog Resp) β}
    {events : List (Event Resp)} {result : Except ε β} (run : Runs (x >>= f).run events result) :
    (∃ e, Runs x.run events (.error e) ∧ result = .error e) ∨
      ∃ first a second, events = first ++ second ∧ Runs x.run first (.ok a) ∧ Runs (f a).run second result := by
  rw [ExceptT.run_bind] at run
  obtain ⟨first,outcome,second,rfl,before,after⟩ := runs_bind_iff.mp run
  cases outcome with
  | ok a => exact .inr ⟨first,a,second,rfl,before,after⟩
  | error e =>
    obtain ⟨rfl,same⟩ := runs_pure_iff.mp after
    rw [List.append_nil]
    exact .inl ⟨e,before,same⟩

theorem runs_ofResult_iff {outcome result : Except ε α} {events : List (Event Resp)} :
    Runs (ofResult outcome : ExceptT ε (Prog Resp) α).run events result ↔ events = [] ∧ result = outcome :=
  runs_pure_iff

theorem Runs.bind_error {x : ExceptT ε (Prog Resp) α} {f : α → ExceptT ε (Prog Resp) β}
    {events : List (Event Resp)} {e : ε} (failed : Runs x.run events (.error e)) :
    Runs (x >>= f).run events (.error e) := by
  rw [ExceptT.run_bind,← List.append_nil events]
  exact Steps.bind failed .refl

theorem runs_mapError {x : ExceptT ε (Prog Resp) α} {translate : ε → δ} {events : List (Event Resp)}
    {result : Except ε α} (run : Runs x.run events result) :
    Runs (mapError x translate).run events (result.mapError translate) := by
  rw [← List.append_nil events]
  exact Steps.bind run .refl

theorem runs_liftExcept {p : Prog Resp α} {events : List (Event Resp)} {a : α} (run : Runs p events a) :
    Runs (liftExcept p : ExceptT ε (Prog Resp) α).run events (.ok a) := by
  rw [← List.append_nil events]
  exact Steps.bind run .refl

theorem runs_liftExcept_iff {p : Prog Resp α} {events : List (Event Resp)} {a : α} :
    Runs (liftExcept p : ExceptT ε (Prog Resp) α).run events (.ok a) ↔ Runs p events a := by
  constructor
  · intro run
    obtain ⟨first,b,second,rfl,before,after⟩ := runs_bind_iff.mp run
    obtain ⟨rfl,same⟩ := runs_pure_iff.mp after
    obtain rfl := Except.ok.inj same
    rwa [List.append_nil]
  · exact runs_liftExcept

variable {post : List (Event Resp) → Except ε β → Prop} {history : List (Event Resp)}

theorem Holds.ofResult_bind {result : Except ε α} {f : α → ExceptT ε (Prog Resp) β}
    (fails : ∀ e, result = .error e → post history (.error e))
    (next : ∀ a, result = .ok a → Holds rely allowed post history (f a).run) :
    Holds rely allowed post history (ofResult result >>= f).run := by
  rw [holds_bind_except,holds_ofResult]
  cases result with
  | ok a => exact next a rfl
  | error e => exact fails e rfl

theorem Holds.lift_bind {p : Prog Resp α} {f : α → ExceptT ε (Prog Resp) β}
    {mid : List (Event Resp) → α → Prop} (first : Holds rely allowed mid history p)
    (next : ∀ h a, mid h a → Holds rely allowed post h (f a).run) :
    Holds rely allowed post history (liftExcept p >>= f).run := by
  rw [holds_bind_except,holds_liftExcept]
  exact first.imp next

theorem Holds.mapError_bind {x : ExceptT δ (Prog Resp) α} {translate : δ → ε}
    {f : α → ExceptT ε (Prog Resp) β} {mid : List (Event Resp) → Except δ α → Prop}
    (first : Holds rely allowed mid history x.run)
    (fails : ∀ h e, mid h (.error e) → post h (.error (translate e)))
    (next : ∀ h a, mid h (.ok a) → Holds rely allowed post h (f a).run) :
    Holds rely allowed post history (mapError x translate >>= f).run := by
  rw [holds_bind_except,holds_mapError]
  refine first.imp fun h result outcome => ?_
  cases result with
  | ok a => exact next h a outcome
  | error e => exact fails h e outcome

theorem Holds.bind {x : ExceptT ε (Prog Resp) α} {f : α → ExceptT ε (Prog Resp) β}
    {mid : List (Event Resp) → Except ε α → Prop} (first : Holds rely allowed mid history x.run)
    (fails : ∀ h e, mid h (.error e) → post h (.error e))
    (next : ∀ h a, mid h (.ok a) → Holds rely allowed post h (f a).run) :
    Holds rely allowed post history (x >>= f).run := by
  rw [holds_bind_except]
  refine first.imp fun h result outcome => ?_
  cases result with
  | ok a => exact next h a outcome
  | error e => exact fails h e outcome

end Errors

/-- All operations of the program are of a kind. -/
def Only (P : Op → Prop) : Prog Resp α → Prop
  | .pure _ => True
  | .op o next => P o ∧ ∀ r, Only P (next r)

namespace Only

variable {P : Op → Prop}

theorem perform {o : Op} (kind : P o) : Only P (Prog.perform o : Prog Resp (Resp o)) := ⟨kind,fun _ => trivial⟩

theorem bind {p : Prog Resp α} {f : α → Prog Resp β} (first : Only P p) (next : ∀ a, Only P (f a)) :
    Only P (p >>= f) := by
  induction p with
  | pure a => exact next a
  | op o rest ih => exact ⟨first.1,fun r => ih r (first.2 r)⟩

theorem bind_except {x : ExceptT ε (Prog Resp) α} {f : α → ExceptT ε (Prog Resp) β} (first : Only P x.run)
    (next : ∀ a, Only P (f a).run) : Only P (x >>= f).run := by
  rw [ExceptT.run_bind]
  refine first.bind fun result => ?_
  cases result with
  | ok a => exact next a
  | error e => trivial

theorem ofResult_bind {result : Except ε α} {f : α → ExceptT ε (Prog Resp) β}
    (next : ∀ a, result = .ok a → Only P (f a).run) : Only P (ofResult result >>= f).run := by
  cases result with
  | ok a => exact next a rfl
  | error e => trivial

theorem mapError {x : ExceptT ε (Prog Resp) α} {translate : ε → δ} (only : Only P x.run) :
    Only P (Prog.mapError x translate).run := Only.bind only fun _ => trivial

theorem liftExcept {p : Prog Resp α} (only : Only P p) :
    Only P (Prog.liftExcept p : ExceptT ε (Prog Resp) α).run := Only.bind only fun _ => trivial

theorem of_steps {p rest : Prog Resp α} {events : List (Event Resp)} (only : Only P p)
    (run : Steps p events rest) : ∀ e ∈ events, P e.op := by
  induction run with
  | refl => simp
  | step r _ ih =>
    intro e member
    rcases List.mem_cons.mp member with rfl | later
    · exact only.1
    · exact ih (only.2 r) e later

/-- What is left of a program issues operations of the same kind. -/
theorem rest {p rest : Prog Resp α} {events : List (Event Resp)} (only : Only P p)
    (run : Steps p events rest) : Only P rest := by
  induction run with
  | refl => exact only
  | step r _ ih => exact ih (only.2 r)

/-- Operations of an allowed kind are allowed at any history. -/
theorem holds {rely : (o : Op) → Resp o → Prop} {allowed : List (Event Resp) → Op → Prop} {p : Prog Resp α}
    (only : Only P p) (each : ∀ h o, P o → allowed h o) (history : List (Event Resp)) :
    Holds rely allowed (fun _ _ => True) history p := by
  induction p generalizing history with
  | pure a => trivial
  | op o next ih => exact ⟨each _ _ only.1,fun r _ => ih r (only.2 r) _⟩

end Only
end Prog
end SorobanProxy.Library
