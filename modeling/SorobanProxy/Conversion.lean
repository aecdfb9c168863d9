import SorobanProxy.Scval
import SorobanProxy.Library.Outcomes

/-! What one call of the conversion does: which user type a name stands for, which calls a
call makes, and for each arm when it succeeds and with what value. Everything proved about
the conversion goes through these. -/
namespace SorobanProxy

open Library

inductive Udt where
  | struct (s : ScSpecUdtStructV0)
  | union (u : ScSpecUdtUnionV0)
  | enum (e : ScSpecUdtEnumV0)
  | errorEnum (e : ScSpecUdtErrorEnumV0)

/-- The user type of that name: structs first, then unions, enums and error enums. -/
def ContractSpec.resolve (spec : ContractSpec) (name : String) : Option Udt :=
  match spec.structs.get name with
  | some s => some (.struct s)
  | none =>
  match spec.unions.get name with
  | some u => some (.union u)
  | none =>
  match spec.enums.get name with
  | some e => some (.enum e)
  | none => (spec.errorEnums.get name).map .errorEnum

/-- The positional encoding: a struct with fields, all named by their position. -/
def ScSpecUdtStructV0.Positional (s : ScSpecUdtStructV0) : Prop := s.isTupleStruct ∧ s.fields ≠ []

instance (s : ScSpecUdtStructV0) : Decidable s.Positional := inferInstanceAs (Decidable (_ ∧ _))

/-- A call of the conversion with the second value and type, from one with the first. -/
inductive Calls (spec : ContractSpec) : Value → ScSpecTypeDef → Value → ScSpecTypeDef → Prop where
  | option : value ≠ .null → Calls spec value (.option ty) value ty
  | vec : x ∈ items → Calls spec (.array items) (.vec ty) x ty
  | map : (key, x) ∈ members → Calls spec (.object members) (.map keyType ty) x ty
  | tuple : (x, ty) ∈ items.zip types → Calls spec (.array items) (.tuple types) x ty
  | positional : spec.resolve (StringM.toUtf8StringLossy name) = some (.struct s) → s.Positional →
      (x, f) ∈ items.zip s.fields → Calls spec (.array items) (.udt name) x f.type
  | named : spec.resolve (StringM.toUtf8StringLossy name) = some (.struct s) → ¬s.Positional →
      f ∈ s.fields → Entries.find f.name.toUtf8StringLossy members = some x →
      Calls spec (.object members) (.udt name) x f.type
  | union : spec.resolve (StringM.toUtf8StringLossy name) = some (.union u) →
      unionForm value = some (caseName, args) →
      spec.unionCase (StringM.toUtf8StringLossy name) caseName = some case →
      (x, ty) ∈ args.zip case.types → Calls spec value (.udt name) x ty

variable {c : Crates} {spec : ContractSpec} {value : Value} {v : ScVal}

/-- Each call moves inside the JSON value, or keeps it and moves inside the type. -/
theorem Calls.decreases {value' : Value} {ty ty' : ScSpecTypeDef} (call : Calls spec value ty value' ty') :
    sizeOf value' < sizeOf value ∨ value' = value ∧ sizeOf ty' < sizeOf ty := by
  cases call with
  | option => exact .inr ⟨rfl,by simp⟩
  | vec member => exact .inl (Value.sizeOf_lt_of_item member)
  | map member => exact .inl (Value.sizeOf_lt_of_member member)
  | tuple member => exact .inl (Value.sizeOf_lt_of_item (List.of_mem_zip member).1)
  | positional _ _ member => exact .inl (Value.sizeOf_lt_of_item (List.of_mem_zip member).1)
  | named _ _ _ found => exact .inl (Value.sizeOf_lt_of_find found)
  | union _ form _ member => exact .inl (sizeOf_lt_of_unionForm form (List.of_mem_zip member).1)

/-- Induction along the calls: a property of a call may assume it of the calls it makes. -/
theorem conversion_induction (spec : ContractSpec) {P : Value → ScSpecTypeDef → Prop}
    (step : ∀ value ty, (∀ value' ty', Calls spec value ty value' ty' → P value' ty') → P value ty)
    (value : Value) (ty : ScSpecTypeDef) : P value ty := by
  refine step value ty fun value' ty' call => ?_
  have smaller := call.decreases
  exact conversion_induction spec step value' ty'
termination_by (sizeOf value, sizeOf ty)
decreasing_by
  rcases smaller with inside | ⟨rfl,inside⟩
  · exact .left _ _ inside
  · exact .right _ inside

theorem jsonToScval_hatch {x : Value} (hatch : value.get "__xdr" = some x) (ty : ScSpecTypeDef) :
    jsonToScval c spec value ty =
      (c.scvalFromValue x).mapError fun e => s!"invalid `__xdr` escape-hatch value: {e}" := by
  rw [jsonToScval.eq_def,hatch]

theorem symbolFromStr_eq_ok_iff {s : String} {symbol : ScSymbol} :
    symbolFromStr c s = .ok symbol ↔ c.stringFromStr 32 s = some symbol := okOr_eq_ok_iff

/-- The converter goes by the kind of the user type. -/
theorem udtToScval_eq {name : String} : udtToScval c name value spec =
    match spec.resolve name with
    | some (.struct s) => structToScval c s value spec
    | some (.union _) => unionToScval c name value spec
    | some (.enum e) => enumToScval e value
    | some (.errorEnum e) => errorEnumToScval e value
    | none => udtToScval c name value spec := by
  simp only [udtToScval, ContractSpec.resolve]
  cases spec.structs.get name with
  | some s => rfl
  | none =>
  cases spec.unions.get name with
  | some u => rfl
  | none =>
  cases spec.enums.get name with
  | some e => rfl
  | none => cases spec.errorEnums.get name <;> rfl

section Arms

variable (noHatch : value.get "__xdr" = none)
include noHatch

theorem option_ok_iff {ty : ScSpecTypeDef} : jsonToScval c spec value (.option ty) = .ok v ↔
    value = .null ∧ v = .void ∨ value ≠ .null ∧ jsonToScval c spec value ty = .ok v := by
  rw [jsonToScval.eq_def,noHatch]
  cases value <;> simp [Value.isNull,eq_comm]

theorem vec_ok_iff {ty : ScSpecTypeDef} : jsonToScval c spec value (.vec ty) = .ok v ↔
    ∃ items xs, value = .array items ∧
      List.Forall₂ (fun x y => jsonToScval c spec x ty = .ok y) items xs ∧
      xs.length ≤ u32Max ∧ v = .vec (some xs) := by
  rw [jsonToScval.eq_def,noHatch]
  cases value <;> simp [mapM_eq_ok_iff,eq_comm (a := v)]

theorem map_ok_iff {keyType ty : ScSpecTypeDef} : jsonToScval c spec value (.map keyType ty) = .ok v ↔
    ∃ members entries, value = .object members ∧
      List.Forall₂ (fun m e => jsonKeyToScval c m.1 keyType = .ok e.key ∧
        jsonToScval c spec m.2 ty = .ok e.val) members entries ∧
      entries.length ≤ u32Max ∧ v = .map (some (sortByKey entries)) := by
  have entry (m : String × Value) (e : ScMapEntry) :
      (∃ key, jsonKeyToScval c m.1 keyType = .ok key ∧
        ∃ val, jsonToScval c spec m.2 ty = .ok val ∧ MapEntry.mk key val = e) ↔
      jsonKeyToScval c m.1 keyType = .ok e.key ∧ jsonToScval c spec m.2 ty = .ok e.val := by
    constructor
    · rintro ⟨key,keyOk,val,valOk,rfl⟩
      exact ⟨keyOk,valOk⟩
    · exact fun ⟨keyOk,valOk⟩ => ⟨_,keyOk,_,valOk,rfl⟩
  rw [jsonToScval.eq_def,noHatch]
  cases value <;> simp [mapM_eq_ok_iff,entry,(sortByKey_perm _).length_eq,eq_comm (a := v)]

theorem tuple_ok_iff {types : List ScSpecTypeDef} : jsonToScval c spec value (.tuple types) = .ok v ↔
    ∃ items xs, value = .array items ∧ items.length = types.length ∧
      List.Forall₂ (fun p y => jsonToScval c spec p.1 p.2 = .ok y) (items.zip types) xs ∧
      xs.length ≤ u32Max ∧ v = .vec (some xs) := by
  rw [jsonToScval.eq_def,noHatch]
  simp only [mapM_attach (f := fun p : Value × ScSpecTypeDef => jsonToScval c spec p.1 p.2)]
  cases value with
  | array items =>
    by_cases arity : items.length = types.length
    · simp [arity,mapM_eq_ok_iff,eq_comm (a := v)]
    · simp [arity]
  | _ => simp

theorem udt_eq_udtToScval {name : StringM 60} :
    jsonToScval c spec value (.udt name) = udtToScval c name.toUtf8StringLossy value spec := by
  rw [jsonToScval.eq_def,noHatch]

theorem udt_eq {name : StringM 60} : jsonToScval c spec value (.udt name) =
    match spec.resolve name.toUtf8StringLossy with
    | some (.struct s) => structToScval c s value spec
    | some (.union _) => unionToScval c name.toUtf8StringLossy value spec
    | some (.enum e) => enumToScval e value
    | some (.errorEnum e) => errorEnumToScval e value
    | none => udtToScval c name.toUtf8StringLossy value spec := by
  rw [udt_eq_udtToScval noHatch]
  exact udtToScval_eq

end Arms

theorem udt_undefined {name : String} (undefined : spec.resolve name = none) :
    udtToScval c name value spec = .error s!"contract spec does not define user-defined type `{name}`" := by
  unfold ContractSpec.resolve at undefined
  rw [udtToScval]
  repeat' split at undefined
  all_goals simp_all

theorem resolve_empty {name : String} {udt : Udt} : ContractSpec.empty.resolve name ≠ some udt := nofun

theorem resolve_union {name : String} {u : ScSpecUdtUnionV0} (found : spec.resolve name = some (.union u)) :
    spec.unions.get name = some u := by
  unfold ContractSpec.resolve at found
  repeat' split at found
  all_goals simp_all

theorem unionCase_eq {name caseName : String} {u : ScSpecUdtUnionV0}
    (found : spec.resolve name = some (.union u)) :
    spec.unionCase name caseName = u.cases.find? fun c => c.name.toUtf8StringLossy == caseName := by
  rw [ContractSpec.unionCase,resolve_union found,Option.bind_some]

theorem struct_positional_ok_iff {s : ScSpecUdtStructV0} (positional : s.Positional) :
    structToScval c s value spec = .ok v ↔
    ∃ items xs, value = .array items ∧ items.length = s.fields.length ∧
      List.Forall₂ (fun p y => jsonToScval c spec p.1 p.2.type = .ok y) (items.zip s.fields) xs ∧
      xs.length ≤ u32Max ∧ v = .vec (some xs) := by
  rw [structToScval.eq_def]
  simp only [if_pos (show s.isTupleStruct = true ∧ s.fields ≠ [] from positional),
    mapM_attach (f := fun p : Value × ScSpecUdtStructFieldV0 => jsonToScval c spec p.1 p.2.type)]
  cases value with
  | array items =>
    by_cases arity : items.length = s.fields.length
    · simp [arity,mapM_eq_ok_iff,eq_comm (a := v)]
    · simp [arity]
  | _ => simp

theorem struct_named_ok_iff {s : ScSpecUdtStructV0} (named : ¬s.Positional) :
    structToScval c s value spec = .ok v ↔
    ∃ members entries, value = .object members ∧
      List.Forall₂ (fun f e => ∃ x symbol, Entries.find f.name.toUtf8StringLossy members = some x ∧
        c.stringFromStr 32 f.name.toUtf8StringLossy = some symbol ∧ e.key = .symbol symbol ∧
        jsonToScval c spec x f.type = .ok e.val) s.fields entries ∧
      entries.length ≤ u32Max ∧ v = .map (some (sortByKey entries)) := by
  rw [structToScval.eq_def]
  simp only [if_neg (show ¬(s.isTupleStruct = true ∧ s.fields ≠ []) from named)]
  cases value with
  | object members =>
    simp only [bind_eq_ok_iff, mapM_eq_ok_iff, vecTryInto_eq_ok_iff, pure_eq_ok_iff,
      (sortByKey_perm _).length_eq]
    have shape (entries : List ScMapEntry) :
        (∃ sorted, (entries.length ≤ u32Max ∧ sortByKey entries = sorted) ∧ ScVal.map (some sorted) = v) ↔
        entries.length ≤ u32Max ∧ v = .map (some (sortByKey entries)) := by
      simp [eq_comm (a := v)]
    simp only [shape, Value.object.injEq, exists_and_left, exists_eq_left']
    refine exists_congr fun entries => and_congr_left' ?_
    refine iff_of_eq (congrArg (List.Forall₂ · s.fields entries) ?_)
    funext f e
    split
    · rename_i x found
      simp only [found, bind_eq_ok_iff, symbolFromStr_eq_ok_iff, pure_eq_ok_iff, Option.some.injEq]
      refine propext ⟨?_,?_⟩
      · rintro ⟨symbol,symbolOk,val,valOk,rfl⟩
        exact ⟨x,rfl,symbol,symbolOk,rfl,valOk⟩
      · rintro ⟨_,rfl,symbol,symbolOk,key,valOk⟩
        exact ⟨symbol,symbolOk,e.val,valOk,by rw [← key]⟩
    · rename_i missing
      simp [missing]
  | _ => simp

theorem union_ok_iff {name : String} : unionToScval c name value spec = .ok v ↔
    ∃ caseName args case symbol xs, unionForm value = some (caseName, args) ∧
      spec.unionCase name caseName = some case ∧ c.stringFromStr 32 caseName = some symbol ∧
      args.length = case.types.length ∧
      List.Forall₂ (fun p y => jsonToScval c spec p.1 p.2 = .ok y) (args.zip case.types) xs ∧
      xs.length + 1 ≤ u32Max ∧ v = .vec (some (.symbol symbol :: xs)) := by
  rw [unionToScval.eq_def]
  simp only [mapM_attach (f := fun p : Value × ScSpecTypeDef => jsonToScval c spec p.1 p.2)]
  split
  · rename_i form
    simp [form]
  · rename_i caseName args form
    simp only [form, bind_eq_ok_iff, okOr_eq_ok_iff, symbolFromStr_eq_ok_iff, Option.some.injEq,
      Prod.mk.injEq]
    simp only [exists_and_left, and_assoc, exists_eq_left']
    refine exists_congr fun case => and_congr_right fun _ => ?_
    refine exists_congr fun symbol => and_congr_right fun _ => ?_
    cases case with
    | voidV0 doc name =>
      by_cases bare : args = []
      · simp [bare,ScSpecUdtUnionCaseV0.types,eq_comm (a := v)]
      · simp [bare,ScSpecUdtUnionCaseV0.types]
    | tupleV0 doc name type =>
      by_cases arity : args.length = type.length
      · simp [arity,ScSpecUdtUnionCaseV0.types,mapM_eq_ok_iff,eq_comm (a := v)]
      · simp [arity,ScSpecUdtUnionCaseV0.types]

end SorobanProxy
