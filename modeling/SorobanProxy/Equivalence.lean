import Mathlib.Logic.Relation
import SorobanProxy.Conversion

/-! Types of two interfaces that take the same values. A user type counts for what its name
stands for, so the types may go round in circles, and the relation is the largest one that
one step of comparison keeps. -/
namespace SorobanProxy

open Library

/-- A type without parts and without a name to look up. -/
def ScSpecTypeDef.Simple : ScSpecTypeDef → Prop
  | .option _ | .result _ _ | .vec _ | .map _ _ | .tuple _ | .udt _ => False
  | _ => True

section Matches

variable (R : ScSpecTypeDef → ScSpecTypeDef → Prop)

structure SameField (f g : ScSpecUdtStructFieldV0) : Prop where
  name : f.name.toUtf8StringLossy = g.name.toUtf8StringLossy
  type : R f.type g.type

/-- A void case is a case without arguments. -/
structure SameUnionCase (case other : ScSpecUdtUnionCaseV0) : Prop where
  name : case.name.toUtf8StringLossy = other.name.toUtf8StringLossy
  types : List.Forall₂ R case.types other.types

structure SameEnumCase (case other : ScSpecUdtEnumCaseV0) : Prop where
  name : case.name.toUtf8StringLossy = other.name.toUtf8StringLossy
  value : case.value = other.value

inductive Udt.Matches : Udt → Udt → Prop where
  | struct : List.Forall₂ (SameField R) s.fields s'.fields → Matches (.struct s) (.struct s')
  | union : List.Forall₂ (SameUnionCase R) u.cases u'.cases → Matches (.union u) (.union u')
  | enum : List.Forall₂ SameEnumCase e.cases e'.cases → Matches (.enum e) (.enum e')
  | errorEnum : List.Forall₂ SameEnumCase e.cases e'.cases → Matches (.errorEnum e) (.errorEnum e')

/-- One step of comparison, which leaves the parts to the relation. -/
inductive ScSpecTypeDef.Matches (left right : ContractSpec) : ScSpecTypeDef → ScSpecTypeDef → Prop where
  | simple : ty.Simple → Matches left right ty ty
  | option : R a b → Matches left right (.option a) (.option b)
  | result : Matches left right (.result okType errorType) (.result okType' errorType')
  | vec : R a b → Matches left right (.vec a) (.vec b)
  | map : R keyType keyType' → R a b → Matches left right (.map keyType a) (.map keyType' b)
  | tuple : List.Forall₂ R types types' → Matches left right (.tuple types) (.tuple types')
  | udt : Option.Rel (Udt.Matches R) (left.resolve (StringM.toUtf8StringLossy name))
      (right.resolve (StringM.toUtf8StringLossy name')) → Matches left right (.udt name) (.udt name')

end Matches

def Bisimulation (left right : ContractSpec) (R : ScSpecTypeDef → ScSpecTypeDef → Prop) : Prop :=
  ∀ a b, R a b → ScSpecTypeDef.Matches R left right a b

def Equivalent (left right : ContractSpec) (a b : ScSpecTypeDef) : Prop :=
  ∃ R, Bisimulation left right R ∧ R a b

variable {c : Crates} {left right : ContractSpec} {R : ScSpecTypeDef → ScSpecTypeDef → Prop} {value : Value}
  {v : ScVal}

/-- The conversion to a simple type looks nothing up. -/
theorem jsonToScval_simple {ty : ScSpecTypeDef} (simple : ty.Simple) :
    jsonToScval c left value ty = jsonToScval c right value ty := by
  rw [jsonToScval.eq_def c left,jsonToScval.eq_def c right]
  cases ty with
  | option | result | vec | map | tuple | udt => exact simple.elim
  | _ => rfl

/-- Of the key type only its own kind counts. -/
theorem jsonKeyToScval_matches {a b : ScSpecTypeDef} (same : ScSpecTypeDef.Matches R left right a b)
    {key : String} {k : ScVal} : jsonKeyToScval c key a = .ok k ↔ jsonKeyToScval c key b = .ok k := by
  cases same with
  | simple => rfl
  | _ => simp [jsonKeyToScval]

theorem positional_iff {s s' : ScSpecUdtStructV0} (same : List.Forall₂ (SameField R) s.fields s'.fields) :
    s.Positional ↔ s'.Positional := by
  have positions (s : ScSpecUdtStructV0) : s.isTupleStruct =
      (s.fields.map fun f => f.name.toUtf8StringLossy).zipIdx.all fun (name, i) => name == toString i := by
    rw [ScSpecUdtStructV0.isTupleStruct,List.zipIdx_map,List.all_map]
    rfl
  have names := forall₂_map_eq same fun _ _ field => field.name
  have empty : s.fields = [] ↔ s'.fields = [] := by
    rw [← List.length_eq_zero_iff,← List.length_eq_zero_iff,same.length_eq]
  rw [ScSpecUdtStructV0.Positional,ScSpecUdtStructV0.Positional,positions,positions,names,Ne,empty]

theorem findCase_related {cases others : List ScSpecUdtEnumCaseV0} (same : List.Forall₂ SameEnumCase cases others)
    (name : String) : Option.Rel SameEnumCase (findCase cases name) (findCase others name) :=
  find?_related same (fun _ _ case => case.name) name

theorem anyValue_eq {cases others : List ScSpecUdtEnumCaseV0} (same : List.Forall₂ SameEnumCase cases others)
    (n : UInt32) : (cases.any fun c => c.value == n) = others.any fun c => c.value == n := by
  have values := forall₂_map_eq same fun _ _ case => case.value
  have through (cases : List ScSpecUdtEnumCaseV0) :
      (cases.any fun c => c.value == n) = (cases.map (·.value)).any (· == n) := by
    rw [List.any_map]
    rfl
  rw [through,through,values]

/-- A case by name, for either kind of enum. -/
theorem caseByName_ok_iff {cases others : List ScSpecUdtEnumCaseV0} (same : List.Forall₂ SameEnumCase cases others)
    {name e e' : String} : (okOr (findCase cases name) e >>= fun case => .ok (.u32 case.value)) = .ok v ↔
      (okOr (findCase others name) e' >>= fun case => .ok (.u32 case.value)) = .ok v := by
  have related := findCase_related same name
  generalize findCase cases name = found at related
  generalize findCase others name = found' at related
  cases related with
  | none => simp
  | some case => simp [okOr,case.value]

theorem enumToScval_matches {e e' : ScSpecUdtEnumV0} (same : List.Forall₂ SameEnumCase e.cases e'.cases) :
    enumToScval e value = .ok v ↔ enumToScval e' value = .ok v := by
  unfold enumToScval
  cases value.asU64 with
  | some n =>
    simp only [bind_eq_ok_iff, anyValue_eq same]
    refine exists_congr fun n => and_congr_right fun _ => ?_
    split_ifs <;> simp
  | none =>
    cases value.asStr with
    | some s => exact caseByName_ok_iff same
    | none => simp

theorem errorEnumToScval_matches {e e' : ScSpecUdtErrorEnumV0} (same : List.Forall₂ SameEnumCase e.cases e'.cases) :
    errorEnumToScval e value = .ok v ↔ errorEnumToScval e' value = .ok v := by
  unfold errorEnumToScval
  cases value.asU64 with
  | some n => rfl
  | none =>
    cases value.asStr with
    | some s => exact caseByName_ok_iff same
    | none => simp

/-- Conversions of the same values to related types, where they agree on each pair. -/
theorem forall₂_zip_ok_iff {α β : Type} {S : α → β → Prop} (type : α → ScSpecTypeDef) (type' : β → ScSpecTypeDef)
    {items : List Value} {xs : List ScVal} {as : List α} {bs : List β} (related : List.Forall₂ S as bs)
    (agree : ∀ x a b, (x, a) ∈ items.zip as → S a b → ∀ y,
      jsonToScval c left x (type a) = .ok y ↔ jsonToScval c right x (type' b) = .ok y) :
    List.Forall₂ (fun p y => jsonToScval c left p.1 (type p.2) = .ok y) (items.zip as) xs ↔
      List.Forall₂ (fun p y => jsonToScval c right p.1 (type' p.2) = .ok y) (items.zip bs) xs := by
  refine forall₂_related_iff (forall₂_zip_zip related) ?_
  rintro ⟨x,a⟩ member ⟨_,b⟩ ⟨rfl,same⟩ y
  exact agree x a b member same y

section Step

variable {name : StringM 60}
  (ih : ∀ value' ty, Calls left value (.udt name) value' ty → ∀ ty', R ty ty' → ∀ v,
    jsonToScval c left value' ty = .ok v ↔ jsonToScval c right value' ty' = .ok v)
include ih

theorem structToScval_matches {s s' : ScSpecUdtStructV0}
    (found : left.resolve name.toUtf8StringLossy = some (.struct s))
    (same : List.Forall₂ (SameField R) s.fields s'.fields) :
    structToScval c s value left = .ok v ↔ structToScval c s' value right = .ok v := by
  by_cases positional : s.Positional
  · rw [struct_positional_ok_iff positional,struct_positional_ok_iff ((positional_iff same).mp positional)]
    refine exists_congr fun items => exists_congr fun xs => ?_
    rw [same.length_eq]
    refine and_congr_right fun shape => and_congr_right fun _ => and_congr_left' ?_
    subst shape
    exact forall₂_zip_ok_iff (·.type) (·.type) same fun x f g member field =>
      ih x f.type (.positional found positional member) _ field.type
  · rw [struct_named_ok_iff positional,struct_named_ok_iff (mt (positional_iff same).mpr positional)]
    refine exists_congr fun members => exists_congr fun entries => ?_
    refine and_congr_right fun shape => and_congr_left' ?_
    subst shape
    refine forall₂_related_iff same fun f member g field e => ?_
    rw [field.name]
    refine exists_congr fun x => exists_congr fun symbol => and_congr_right fun present => ?_
    rw [← field.name] at present
    rw [ih x f.type (.named found positional member present) g.type field.type]

theorem unionToScval_matches {name' : String} {u u' : ScSpecUdtUnionV0}
    (found : left.resolve name.toUtf8StringLossy = some (.union u)) (found' : right.resolve name' = some (.union u'))
    (same : List.Forall₂ (SameUnionCase R) u.cases u'.cases) :
    unionToScval c name.toUtf8StringLossy value left = .ok v ↔ unionToScval c name' value right = .ok v := by
  have cases_eq (caseName : String) : Option.Rel (SameUnionCase R)
      (left.unionCase name.toUtf8StringLossy caseName) (right.unionCase name' caseName) := by
    rw [unionCase_eq found,unionCase_eq found']
    exact find?_related same (fun _ _ case => case.name) caseName
  have called (case other : ScSpecUdtUnionCaseV0) (caseName : String) (args : List Value) (xs : List ScVal)
      (form : unionForm value = some (caseName, args))
      (member : left.unionCase name.toUtf8StringLossy caseName = some case)
      (alike : SameUnionCase R case other) :
      List.Forall₂ (fun p y => jsonToScval c left p.1 p.2 = .ok y) (args.zip case.types) xs ↔
        List.Forall₂ (fun p y => jsonToScval c right p.1 p.2 = .ok y) (args.zip other.types) xs :=
    forall₂_zip_ok_iff id id alike.types fun x ty ty' inside related =>
      ih x ty (.union found form member inside) ty' related
  rw [union_ok_iff,union_ok_iff]
  constructor
  · rintro ⟨caseName,args,case,symbol,xs,form,member,symbolOk,arity,each,fits,rfl⟩
    have related := cases_eq caseName
    rw [member] at related
    cases member' : right.unionCase name' caseName with
    | none => rw [member'] at related; cases related
    | some other =>
    rw [member'] at related
    cases related with
    | some alike =>
    refine ⟨caseName,args,other,symbol,xs,form,member',symbolOk,arity.trans alike.types.length_eq,?_,fits,rfl⟩
    exact (called case other caseName args xs form member alike).mp each
  · rintro ⟨caseName,args,other,symbol,xs,form,member',symbolOk,arity,each,fits,rfl⟩
    have related := cases_eq caseName
    rw [member'] at related
    cases member : left.unionCase name.toUtf8StringLossy caseName with
    | none => rw [member] at related; cases related
    | some case =>
    rw [member] at related
    cases related with
    | some alike =>
    refine ⟨caseName,args,case,symbol,xs,form,member,symbolOk,arity.trans alike.types.length_eq.symm,?_,fits,rfl⟩
    exact (called case other caseName args xs form member alike).mpr each

end Step

/-- Related types take the same values to the same contract values. -/
theorem Bisimulation.ok_iff (bisimulation : Bisimulation left right R) (value : Value) (a : ScSpecTypeDef) :
    ∀ b, R a b → ∀ v, jsonToScval c left value a = .ok v ↔ jsonToScval c right value b = .ok v := by
  refine conversion_induction left (P := fun value a => ∀ b, R a b → ∀ v,
    jsonToScval c left value a = .ok v ↔ jsonToScval c right value b = .ok v) ?_ value a
  intro value a ih b related v
  cases hatch : value.get "__xdr" with
  | some x => rw [jsonToScval_hatch hatch,jsonToScval_hatch hatch]
  | none =>
  cases bisimulation a b related with
  | simple simple => rw [jsonToScval_simple simple]
  | option part =>
    rw [option_ok_iff hatch,option_ok_iff hatch]
    refine or_congr_right (and_congr_right fun present => ?_)
    exact ih _ _ (.option present) _ part v
  | result =>
    rw [jsonToScval.eq_def c left,jsonToScval.eq_def c right,hatch]
  | vec part =>
    rw [vec_ok_iff hatch,vec_ok_iff hatch]
    refine exists_congr fun items => exists_congr fun xs => and_congr_right fun shape => and_congr_left' ?_
    subst shape
    have each (x : Value) (member : x ∈ items) (y : ScVal) := ih x _ (.vec member) _ part y
    refine forall₂_related_iff (List.forall₂_same.mpr fun x _ => rfl) ?_
    rintro x member _ rfl y
    exact each x member y
  | map key part =>
    rw [map_ok_iff hatch,map_ok_iff hatch]
    refine exists_congr fun members => exists_congr fun entries => and_congr_right fun shape => and_congr_left' ?_
    subst shape
    refine forall₂_related_iff (List.forall₂_same.mpr fun m _ => rfl) ?_
    rintro m member _ rfl e
    exact and_congr (jsonKeyToScval_matches (bisimulation _ _ key)) (ih m.2 _ (.map member) _ part e.val)
  | tuple parts =>
    rw [tuple_ok_iff hatch,tuple_ok_iff hatch]
    refine exists_congr fun items => exists_congr fun xs => ?_
    rw [parts.length_eq]
    refine and_congr_right fun shape => and_congr_right fun _ => and_congr_left' ?_
    subst shape
    exact forall₂_zip_ok_iff id id parts fun x ty ty' member part => ih x ty (.tuple member) ty' part
  | @udt name name' udt =>
    rw [udt_eq hatch,udt_eq hatch]
    cases found : left.resolve name.toUtf8StringLossy <;>
      cases found' : right.resolve name'.toUtf8StringLossy <;> rw [found,found'] at udt
    case none.none => simp [udt_undefined found,udt_undefined found']
    case none.some => cases udt
    case some.none => cases udt
    case some.some =>
      cases udt with
      | some alike =>
      cases alike with
      | struct fields => exact structToScval_matches ih found fields
      | union cases => exact unionToScval_matches ih found found' cases
      | enum cases => exact enumToScval_matches cases
      | errorEnum cases => exact errorEnumToScval_matches cases

theorem equivalent_sameOutcome {a b : ScSpecTypeDef} (equivalent : Equivalent left right a b) (c : Crates)
    (value : Value) : SameOutcome (jsonToScval c left value a) (jsonToScval c right value b) := by
  obtain ⟨R,bisimulation,related⟩ := equivalent
  exact sameOutcome_iff.mpr (bisimulation.ok_iff value a b related)

/-- A type that a type is made from, in one step. -/
inductive Part (spec : ContractSpec) : ScSpecTypeDef → ScSpecTypeDef → Prop where
  | option : Part spec (.option ty) ty
  | vec : Part spec (.vec ty) ty
  | key : Part spec (.map keyType ty) keyType
  | value : Part spec (.map keyType ty) ty
  | element : ty ∈ types → Part spec (.tuple types) ty
  | field : spec.resolve (StringM.toUtf8StringLossy name) = some (.struct s) → f ∈ s.fields →
      Part spec (.udt name) f.type
  | case : spec.resolve (StringM.toUtf8StringLossy name) = some (.union u) → case ∈ u.cases → ty ∈ case.types →
      Part spec (.udt name) ty

/-- The interfaces agree on every user type that the type leads to. -/
def AgreeFrom (left right : ContractSpec) (ty : ScSpecTypeDef) : Prop :=
  ∀ name, Relation.ReflTransGen (Part left) ty (.udt name) →
    left.resolve name.toUtf8StringLossy = right.resolve name.toUtf8StringLossy

theorem AgreeFrom.part {ty part : ScSpecTypeDef} (agree : AgreeFrom left right ty) (step : Part left ty part) :
    AgreeFrom left right part := fun name reach => agree name (.head step reach)

theorem agreeFrom_bisimulation : Bisimulation left right fun a b => a = b ∧ AgreeFrom left right a := by
  rintro ty _ ⟨rfl,agree⟩
  cases ty with
  | option => exact .option ⟨rfl,agree.part .option⟩
  | result => exact .result
  | vec => exact .vec ⟨rfl,agree.part .vec⟩
  | map => exact .map ⟨rfl,agree.part .key⟩ ⟨rfl,agree.part .value⟩
  | tuple types => exact .tuple (List.forall₂_same.mpr fun ty member => ⟨rfl,agree.part (.element member)⟩)
  | udt name =>
    refine .udt ?_
    rw [← agree name .refl]
    cases found : left.resolve name.toUtf8StringLossy with
    | none => exact .none
    | some udt =>
      refine .some ?_
      cases udt with
      | struct s =>
        exact .struct (List.forall₂_same.mpr fun f member => ⟨rfl,rfl,agree.part (.field found member)⟩)
      | union u =>
        refine .union (List.forall₂_same.mpr fun case member => ⟨rfl,List.forall₂_same.mpr fun ty inside => ?_⟩)
        exact ⟨rfl,agree.part (.case found member inside)⟩
      | enum => exact .enum (List.forall₂_same.mpr fun _ _ => ⟨rfl,rfl⟩)
      | errorEnum => exact .errorEnum (List.forall₂_same.mpr fun _ _ => ⟨rfl,rfl⟩)
  | _ => exact .simple trivial

theorem AgreeFrom.equivalent {ty : ScSpecTypeDef} (agree : AgreeFrom left right ty) : Equivalent left right ty ty :=
  ⟨_,agreeFrom_bisimulation,rfl,agree⟩

/-- Equivalent types, of one interface or of two, take the same values to the same contract
values and refuse the same values; and of an interface only the user types count that the
type leads to. -/
theorem conversion_respects_types (c : Crates) (value : Value) :
    (∀ left right a b, Equivalent left right a b →
      SameOutcome (jsonToScval c left value a) (jsonToScval c right value b)) ∧
    ∀ left right ty, AgreeFrom left right ty →
      SameOutcome (jsonToScval c left value ty) (jsonToScval c right value ty) := by
  constructor
  · intro left right a b equivalent
    exact equivalent_sameOutcome equivalent c value
  · intro left right ty agree
    exact equivalent_sameOutcome agree.equivalent c value

/-- Two spellings of a chain: an end, or a link with a further chain, under a name of its own. -/
def chain (name : StringM 60) : ScSpecUdtUnionV0 where
  doc := ⟨[],by decide⟩
  name
  cases := [.voidV0 ⟨[],by decide⟩ ⟨[0x65],by decide⟩, .tupleV0 ⟨[],by decide⟩ ⟨[0x6e],by decide⟩ [.udt name]]

theorem chain_resolved (name : StringM 60) :
    ContractSpec.resolve (.fromEntries [.udtUnionV0 (chain name)]) name.toUtf8StringLossy =
      some (.union (chain name)) := by
  simp [ContractSpec.resolve,ContractSpec.fromEntries,ContractSpec.addEntry,ContractSpec.empty,chain]

theorem chains_equivalent (name name' : StringM 60) : Equivalent (.fromEntries [.udtUnionV0 (chain name)])
    (.fromEntries [.udtUnionV0 (chain name')]) (.udt name) (.udt name') := by
  refine ⟨fun a b => a = .udt name ∧ b = .udt name',?_,rfl,rfl⟩
  rintro _ _ ⟨rfl,rfl⟩
  refine .udt ?_
  rw [chain_resolved,chain_resolved]
  exact .some (.union (.cons ⟨rfl,.nil⟩ (.cons ⟨rfl,.cons ⟨rfl,rfl⟩ .nil⟩ .nil)))

theorem conversion_respects_types_chain : SameOutcome
    (jsonToScval .reference (.fromEntries [.udtUnionV0 (chain ⟨[0x55],by decide⟩)])
      (.obj [("n", .array [.str "e"])]) (.udt ⟨[0x55],by decide⟩))
    (jsonToScval .reference (.fromEntries [.udtUnionV0 (chain ⟨[0x56],by decide⟩)])
      (.obj [("n", .array [.str "e"])]) (.udt ⟨[0x56],by decide⟩)) :=
  (conversion_respects_types .reference _).1 _ _ _ _ (chains_equivalent _ _)

end SorobanProxy
