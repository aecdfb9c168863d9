import Mathlib.Data.List.Forall2

/-! When computations that may fail succeed: one equivalence for each way of combining
them, so that a success is taken apart and put together by the same rule. -/
namespace SorobanProxy.Library

variable {ε δ α β γ : Type}

@[simp] theorem bind_eq_ok_iff {x : Except ε α} {f : α → Except ε β} {b : β} :
    (x >>= f) = .ok b ↔ ∃ a, x = .ok a ∧ f a = .ok b := by
  cases x with
  | ok a =>
    constructor
    · exact fun h => ⟨a,rfl,h⟩
    · rintro ⟨a,same,h⟩
      obtain rfl := Except.ok.inj same
      exact h
  | error e =>
    refine iff_of_false (fun h => ?_) (by simp)
    cases h

theorem bind_eq_error_iff {x : Except ε α} {f : α → Except ε β} {e : ε} :
    (x >>= f) = .error e ↔ x = .error e ∨ ∃ a, x = .ok a ∧ f a = .error e := by
  cases x <;> simp [bind,Except.bind]

@[simp] theorem map_eq_ok_iff {x : Except ε α} {f : α → β} {b : β} :
    x.map f = .ok b ↔ ∃ a, x = .ok a ∧ f a = b := by
  cases x <;> simp [Except.map]

@[simp] theorem functor_map_eq_ok_iff {x : Except ε α} {f : α → β} {b : β} :
    f <$> x = .ok b ↔ ∃ a, x = .ok a ∧ f a = b := map_eq_ok_iff

@[simp] theorem mapError_eq_ok_iff {x : Except ε α} {f : ε → δ} {a : α} :
    x.mapError f = .ok a ↔ x = .ok a := by
  cases x <;> simp [Except.mapError]

theorem mapError_eq_error_iff {x : Except ε α} {f : ε → δ} {d : δ} :
    x.mapError f = .error d ↔ ∃ e, x = .error e ∧ f e = d := by
  cases x <;> simp [Except.mapError]

@[simp] theorem pure_eq_ok_iff {a b : α} : (pure a : Except ε α) = .ok b ↔ a = b := by
  simp [pure,Except.pure]

/-- Both fail, or both succeed with the same result. -/
def SameOutcome (x : Except ε α) (y : Except δ α) : Prop :=
  (∃ a, x = .ok a ∧ y = .ok a) ∨ ∃ e d, x = .error e ∧ y = .error d

theorem sameOutcome_iff {x : Except ε α} {y : Except δ α} :
    SameOutcome x y ↔ ∀ a, x = .ok a ↔ y = .ok a := by
  cases x with
  | ok a =>
    cases y with
    | ok b => simp [SameOutcome,eq_comm]
    | error d => simp [SameOutcome]
  | error e => cases y <;> simp [SameOutcome]

/-- A sequence of computations succeeds when each of them does. -/
theorem mapM_eq_ok_iff {f : α → Except ε β} {xs : List α} {ys : List β} :
    xs.mapM f = .ok ys ↔ List.Forall₂ (fun x y => f x = .ok y) xs ys := by
  induction xs generalizing ys with
  | nil =>
    rw [List.mapM_nil,pure_eq_ok_iff,List.forall₂_nil_left_iff]
    exact eq_comm
  | cons x xs ih =>
    rw [List.mapM_cons,bind_eq_ok_iff]
    constructor
    · rintro ⟨y,head,tail⟩
      obtain ⟨rest,mapped,shape⟩ := bind_eq_ok_iff.mp tail
      obtain rfl := pure_eq_ok_iff.mp shape
      exact .cons head (ih.mp mapped)
    · intro each
      cases each with
      | cons head tail => exact ⟨_,head,bind_eq_ok_iff.mpr ⟨_,ih.mpr tail,rfl⟩⟩

/-- The error of a sequence is the error of one of its computations. -/
theorem exists_of_mapM_eq_error {f : α → Except ε β} {xs : List α} {e : ε} (failed : xs.mapM f = .error e) :
    ∃ x ∈ xs, f x = .error e := by
  induction xs with
  | nil => cases failed
  | cons x xs ih =>
    rw [List.mapM_cons] at failed
    cases head : f x with
    | error e' =>
      rw [head] at failed
      obtain rfl := Except.error.inj failed
      exact ⟨x,List.mem_cons_self,head⟩
    | ok y =>
      rw [head] at failed
      cases tail : xs.mapM f with
      | error e' =>
        rw [tail] at failed
        obtain rfl := Except.error.inj failed
        obtain ⟨x',member,found⟩ := ih tail
        exact ⟨x',List.mem_cons_of_mem _ member,found⟩
      | ok ys =>
        rw [tail] at failed
        cases failed

theorem mapM_congr {f g : α → Except ε β} {xs : List α} (same : ∀ x ∈ xs, f x = g x) :
    xs.mapM f = xs.mapM g := by
  induction xs with
  | nil => rfl
  | cons x xs ih =>
    rw [List.mapM_cons,List.mapM_cons,same x List.mem_cons_self,ih fun y later => same y (List.mem_cons_of_mem _ later)]

theorem mapM_attach {m : Type → Type} [Monad m] [LawfulMonad m] {f : α → m β} {xs : List α} :
    (xs.attach.mapM fun x => f x.val) = xs.mapM f := by
  rw [List.mapM_subtype (fun _ _ => rfl),List.unattach_attach]

/-- Reading a list of written members, when each is read as its image. -/
theorem mapM_map_eq_some {write : α → β} {read : β → Option γ} {f : α → γ} {xs : List α}
    (each : ∀ x ∈ xs, read (write x) = some (f x)) : (xs.map write).mapM read = some (xs.map f) := by
  induction xs with
  | nil => rfl
  | cons x xs ih =>
    rw [List.map_cons,List.mapM_cons,each x List.mem_cons_self,
      ih fun y later => each y (List.mem_cons_of_mem _ later)]
    rfl

theorem forall₂_mem_right {R : α → β → Prop} {xs : List α} {ys : List β} (each : List.Forall₂ R xs ys)
    {y : β} (member : y ∈ ys) : ∃ x ∈ xs, R x y := by
  induction each with
  | nil => cases member
  | cons head _ ih =>
    rcases List.mem_cons.mp member with rfl | later
    · exact ⟨_,List.mem_cons_self,head⟩
    · obtain ⟨x,inside,related⟩ := ih later
      exact ⟨x,List.mem_cons_of_mem _ inside,related⟩

theorem forall₂_mem_left {R : α → β → Prop} {xs : List α} {ys : List β} (each : List.Forall₂ R xs ys)
    {x : α} (member : x ∈ xs) : ∃ y ∈ ys, R x y :=
  forall₂_mem_right each.flip member

/-- A list is related to some list when each of its members is related to something. -/
theorem exists_forall₂_iff {R : α → β → Prop} {xs : List α} :
    (∃ ys, List.Forall₂ R xs ys) ↔ ∀ x ∈ xs, ∃ y, R x y := by
  constructor
  · rintro ⟨ys,each⟩ x member
    obtain ⟨y,_,related⟩ := forall₂_mem_left each member
    exact ⟨y,related⟩
  · intro each
    induction xs with
    | nil => exact ⟨[],.nil⟩
    | cons x xs ih =>
      obtain ⟨y,head⟩ := each x List.mem_cons_self
      obtain ⟨ys,tail⟩ := ih fun x' later => each x' (List.mem_cons_of_mem _ later)
      exact ⟨y :: ys,.cons head tail⟩

/-- Results of a zipped list, zipped again with its second part. -/
theorem forall₂_zip_mem {R : α × β → γ → Prop} {xs : List α} {ys : List β} {zs : List γ}
    (each : List.Forall₂ R (xs.zip ys) zs) {p : γ × β} (member : p ∈ zs.zip ys) :
    ∃ x, (x, p.2) ∈ xs.zip ys ∧ R (x, p.2) p.1 := by
  induction xs generalizing ys zs with
  | nil =>
    cases each
    simp at member
  | cons x xs ih =>
    cases ys with
    | nil => simp at member
    | cons y ys =>
      rw [List.zip_cons_cons] at each ⊢
      cases each with
      | cons head tail =>
        rcases List.mem_cons.mp member with rfl | later
        · exact ⟨x,List.mem_cons_self,head⟩
        · obtain ⟨x,inside,related⟩ := ih tail later
          exact ⟨x,List.mem_cons_of_mem _ inside,related⟩

theorem forall₂_zip_length {R : α × β → γ → Prop} {xs : List α} {ys : List β} {zs : List γ}
    (arity : xs.length = ys.length) (each : List.Forall₂ R (xs.zip ys) zs) : zs.length = ys.length := by
  rw [← each.length_eq,List.length_zip,arity,Nat.min_self]

theorem mem_zip_left {xs : List α} {ys : List β} (arity : xs.length = ys.length) {x : α} (member : x ∈ xs) :
    ∃ y, (x, y) ∈ xs.zip ys := by
  have firsts : (xs.zip ys).map Prod.fst = xs := List.map_fst_zip (Nat.le_of_eq arity)
  rw [← firsts] at member
  obtain ⟨⟨_,y⟩,zipped,rfl⟩ := List.mem_map.mp member
  exact ⟨y,zipped⟩

theorem mem_zip_right {xs : List α} {ys : List β} (arity : xs.length = ys.length) {y : β} (member : y ∈ ys) :
    ∃ x, (x, y) ∈ xs.zip ys := by
  have seconds : (xs.zip ys).map Prod.snd = ys := List.map_snd_zip (Nat.le_of_eq arity.symm)
  rw [← seconds] at member
  obtain ⟨⟨x,_⟩,zipped,rfl⟩ := List.mem_map.mp member
  exact ⟨x,zipped⟩

/-- A list of the first parts can be chosen for the results when each has one. -/
theorem exists_forall₂_zip {R : α × β → γ → Prop} {ys : List β} {zs : List γ}
    (arity : zs.length = ys.length) (each : ∀ p ∈ zs.zip ys, ∃ x, R (x, p.2) p.1) :
    ∃ xs : List α, xs.length = ys.length ∧ List.Forall₂ R (xs.zip ys) zs := by
  induction zs generalizing ys with
  | nil =>
    obtain rfl := List.length_eq_zero_iff.mp arity.symm
    exact ⟨[],rfl,.nil⟩
  | cons z zs ih =>
    cases ys with
    | nil => cases arity
    | cons y ys =>
      obtain ⟨x,head⟩ := each (z, y) List.mem_cons_self
      obtain ⟨xs,length,tail⟩ := ih (Nat.succ.inj arity) fun p member =>
        each p (List.mem_cons_of_mem _ member)
      exact ⟨x :: xs,congrArg Nat.succ length,.cons head tail⟩

/-- Two pairwise properties that agree on related members. -/
theorem forall₂_pairwise_iff {R : α → β → Prop} {P : α → α → Prop} {Q : β → β → Prop} {xs : List α}
    {ys : List β} (each : List.Forall₂ R xs ys)
    (agree : ∀ x x' y y', R x y → R x' y' → (P x x' ↔ Q y y')) : xs.Pairwise P ↔ ys.Pairwise Q := by
  induction each with
  | nil => simp
  | @cons x y xs ys head tail ih =>
    rw [List.pairwise_cons,List.pairwise_cons,ih]
    refine and_congr_left' ⟨fun all b member => ?_,fun all a member => ?_⟩
    · obtain ⟨a,inside,related⟩ := forall₂_mem_right tail member
      exact (agree x a y b head related).mp (all a inside)
    · obtain ⟨b,inside,related⟩ := forall₂_mem_left tail member
      exact (agree x a y b head related).mpr (all b inside)

/-- Related lists, one of them read through a function. -/
theorem forall₂_map_eq {f : α → γ} {g : β → γ} {R : α → β → Prop} {xs : List α} {ys : List β}
    (each : List.Forall₂ R xs ys) (agree : ∀ x y, R x y → f x = g y) : xs.map f = ys.map g := by
  induction each with
  | nil => rfl
  | cons head _ ih => simp [agree _ _ head,ih]

/-- Lists of related members, under two relations that agree on these. -/
theorem forall₂_related_iff {S : α → β → Prop} {P : α → γ → Prop} {Q : β → γ → Prop} {xs : List α} {ys : List β}
    {zs : List γ} (related : List.Forall₂ S xs ys) (agree : ∀ x ∈ xs, ∀ y, S x y → ∀ z, P x z ↔ Q y z) :
    List.Forall₂ P xs zs ↔ List.Forall₂ Q ys zs := by
  induction related generalizing zs with
  | nil => rw [List.forall₂_nil_left_iff,List.forall₂_nil_left_iff]
  | cons head _ ih =>
    cases zs with
    | nil => simp
    | cons z zs =>
      rw [List.forall₂_cons,List.forall₂_cons,agree _ List.mem_cons_self _ head,
        ih fun x later => agree x (List.mem_cons_of_mem _ later)]

/-- The same list, zipped with lists of related members. -/
theorem forall₂_zip_zip {S : α → β → Prop} {xs : List α} {ys : List β} {zs : List γ}
    (related : List.Forall₂ S xs ys) :
    List.Forall₂ (fun p q => p.1 = q.1 ∧ S p.2 q.2) (zs.zip xs) (zs.zip ys) := by
  induction related generalizing zs with
  | nil => simp
  | cons head _ ih =>
    cases zs with
    | nil => simp
    | cons z zs => exact .cons ⟨rfl,head⟩ ih

/-- A search by an image that related members share. -/
theorem find?_related [BEq δ] {S : α → β → Prop} {f : α → δ} {g : β → δ} {xs : List α} {ys : List β}
    (related : List.Forall₂ S xs ys) (agree : ∀ x y, S x y → f x = g y) (d : δ) :
    Option.Rel S (xs.find? fun x => f x == d) (ys.find? fun y => g y == d) := by
  induction related with
  | nil => exact .none
  | @cons x y _ _ head _ ih =>
    rw [List.find?_cons,List.find?_cons,agree x y head]
    cases g y == d with
    | true => exact .some head
    | false => exact ih

/-- A search by the image finds the one member with it. -/
theorem find?_eq_some_iff_of_nodup [BEq β] [LawfulBEq β] {f : α → β} {xs : List α} (distinct : (xs.map f).Nodup)
    {x : α} {b : β} : xs.find? (fun x => f x == b) = some x ↔ x ∈ xs ∧ f x = b := by
  constructor
  · intro found
    exact ⟨List.mem_of_find?_eq_some found,by simpa using List.find?_some found⟩
  · rintro ⟨member,rfl⟩
    induction xs with
    | nil => cases member
    | cons first rest ih =>
      obtain ⟨fresh,distinct⟩ := List.nodup_cons.mp distinct
      rcases List.mem_cons.mp member with rfl | later
      · simp
      · have apart : ¬f first = f x := fun same => fresh (List.mem_map.mpr ⟨x,later,same.symm⟩)
        rw [List.find?_cons_of_neg (by simpa using apart),ih distinct later]

theorem eq_of_map_eq {f : α → γ} {xs ys : List α} (same : xs.map f = ys.map f)
    (apart : ∀ x ∈ xs, ∀ y ∈ ys, f x = f y → x = y) : xs = ys := by
  induction xs generalizing ys with
  | nil => exact (List.map_eq_nil_iff.mp same.symm).symm
  | cons x xs ih =>
    cases ys with
    | nil => cases same
    | cons y ys =>
      obtain ⟨head,tail⟩ := List.cons.inj same
      rw [apart x List.mem_cons_self y List.mem_cons_self head,ih tail fun a left b right =>
        apart a (List.mem_cons_of_mem _ left) b (List.mem_cons_of_mem _ right)]

theorem eq_of_map_eq_zip {f : α → γ} {xs ys : List α} {zs : List β} (same : xs.map f = ys.map f)
    (arity : xs.length = zs.length)
    (apart : ∀ x y z, (x, z) ∈ xs.zip zs → (y, z) ∈ ys.zip zs → f x = f y → x = y) : xs = ys := by
  induction xs generalizing ys zs with
  | nil => exact (List.map_eq_nil_iff.mp same.symm).symm
  | cons x xs ih =>
    cases ys with
    | nil => cases same
    | cons y ys =>
    cases zs with
    | nil => cases arity
    | cons z zs =>
      obtain ⟨head,tail⟩ := List.cons.inj same
      rw [apart x y z List.mem_cons_self List.mem_cons_self head,ih tail (Nat.succ.inj arity) fun a b d left right =>
        apart a b d (List.mem_cons_of_mem _ left) (List.mem_cons_of_mem _ right)]

end SorobanProxy.Library
