import SorobanProxy.Interface
import SorobanProxy.Equivalence
import SorobanProxy.Planning
import SorobanProxy.Startup

/-! The published pages decide what an instance does. What a client can read of the types
and the functions is all that the conversion and the gate go by, so instances that publish
the same act the same. -/
namespace SorobanProxy

open Library

/-- The type with its parts, its size and its name left out. -/
def ScSpecTypeDef.outer : ScSpecTypeDef → ScSpecTypeDef
  | .option _ => .option .val
  | .result _ _ => .result .val .val
  | .vec _ => .vec .val
  | .map _ _ => .map .val .val
  | .tuple _ => .tuple []
  | .bytesN _ => .bytesN 0
  | .udt _ => .udt ⟨[],by decide⟩
  | ty => ty

/-- Members for the sizes and names that are left out. -/
def blank : Value := .obj [("n", .number (.ofU32 0)), ("name", .str "")]

theorem getStr_kind {tag : String} {members : List (String × Value)}
    (distinct : ("kind" :: members.map Prod.fst).Nodup) :
    (typeDefToJson.kind tag members).getStr "kind" = some tag := by
  have names : (("kind", Value.str tag) :: members |>.map Prod.fst).Nodup := distinct
  exact Value.getStr_eq_some_iff.mpr (Value.get_obj names List.mem_cons_self)

theorem outer_of_kind (ty : ScSpecTypeDef) : ∃ tag, (typeDefToJson ty).getStr "kind" = some tag ∧
    typeOfKind (fun _ => some .val) (fun _ => some []) blank tag = some ty.outer := by
  cases ty <;> rw [typeDefToJson] <;> exact ⟨_,getStr_kind (by simp),rfl⟩

theorem outer_eq {a b : ScSpecTypeDef} (same : typeDefToJson a = typeDefToJson b) : a.outer = b.outer := by
  obtain ⟨tag,kind,outer⟩ := outer_of_kind a
  obtain ⟨tag',kind',outer'⟩ := outer_of_kind b
  rw [same,kind'] at kind
  obtain rfl := Option.some.inj kind
  exact Option.some.inj (outer.symm.trans outer')

/-- Equal objects of the same names are equal member by member. -/
theorem obj_members_eq {members members' : List (String × Value)} (same : Value.obj members = .obj members')
    (distinct : (members.map Prod.fst).Nodup) (names : members.map Prod.fst = members'.map Prod.fst) :
    members = members' := by
  apply eq_of_map_eq names
  rintro ⟨key,v⟩ member ⟨_,v'⟩ member' rfl
  have found := Value.get_obj distinct member
  rw [same,Value.get_obj (names ▸ distinct) member'] at found
  rw [Option.some.inj found]

@[simp] theorem str_eq_iff {a b : String} : Value.str a = .str b ↔ a = b := by
  rw [Value.str,Value.str,Value.string.injEq]

theorem array_related {α β : Type} {f : α → Value} {g : β → Value} {xs : List α} {ys : List β}
    (same : Value.array (xs.map f) = .array (ys.map g)) : List.Forall₂ (fun x y => f x = g y) xs ys := by
  have images := Value.array.inj same
  rw [← List.forall₂_eq_eq_eq,List.forall₂_map_left_iff,List.forall₂_map_right_iff] at images
  exact images

abbrev SameType (a b : ScSpecTypeDef) : Prop := typeDefToJson a = typeDefToJson b

theorem field_of_json {f g : ScSpecUdtStructFieldV0} (same : Value.obj [
    ("name", .str f.name.toUtf8StringLossy),
    ("doc", .str f.doc.toUtf8StringLossy),
    ("type", typeDefToJson f.type)] = .obj [
    ("name", .str g.name.toUtf8StringLossy),
    ("doc", .str g.doc.toUtf8StringLossy),
    ("type", typeDefToJson g.type)]) : SameField SameType f g := by
  have members := obj_members_eq same (by simp) (by rfl)
  simp only [List.cons.injEq, Prod.mk.injEq, str_eq_iff, true_and, and_true] at members
  exact ⟨members.1,members.2.2⟩

theorem struct_of_json {s s' : ScSpecUdtStructV0} (same : structToJson s = structToJson s') :
    s.name.toUtf8StringLossy = s'.name.toUtf8StringLossy ∧ List.Forall₂ (SameField SameType) s.fields s'.fields := by
  have members := obj_members_eq same (by simp) (by rfl)
  simp only [List.cons.injEq, Prod.mk.injEq, str_eq_iff, true_and, and_true] at members
  exact ⟨members.1,(array_related members.2.2).imp fun f g => field_of_json⟩

/-- Both kinds of case list a name and types, none for a void case. -/
theorem unionCase_of_json {case other : ScSpecUdtUnionCaseV0} (same : unionCaseToJson case = unionCaseToJson other) :
    SameUnionCase SameType case other := by
  have listed (case : ScSpecUdtUnionCaseV0) : ∃ doc kind, unionCaseToJson case = .obj [
      ("name", .str case.name.toUtf8StringLossy),
      ("doc", .str doc),
      ("kind", .str kind),
      ("types", .array (case.types.map typeDefToJson))] := by
    cases case <;> exact ⟨_,_,rfl⟩
  obtain ⟨_,_,left⟩ := listed case
  obtain ⟨_,_,right⟩ := listed other
  rw [left,right] at same
  have members := obj_members_eq same (by simp) (by rfl)
  simp only [List.cons.injEq, Prod.mk.injEq, str_eq_iff, true_and, and_true] at members
  exact ⟨members.1,array_related members.2.2.2⟩

theorem union_of_json {u u' : ScSpecUdtUnionV0} (same : unionToJson u = unionToJson u') :
    u.name.toUtf8StringLossy = u'.name.toUtf8StringLossy ∧ List.Forall₂ (SameUnionCase SameType) u.cases u'.cases := by
  have members := obj_members_eq same (by simp) (by rfl)
  simp only [List.cons.injEq, Prod.mk.injEq, str_eq_iff, true_and, and_true] at members
  exact ⟨members.1,(array_related members.2.2).imp fun _ _ => unionCase_of_json⟩

theorem ofU32_injective {n m : UInt32} (same : Value.number (.ofU32 n) = .number (.ofU32 m)) : n = m := by
  have read := congrArg (fun v => v.asU64.bind u32TryFrom) same
  simpa [Value.asU64,Number.asU64_ofU32,u32TryFrom_toUInt64] using read

theorem caseTable_of_json {name name' : StringM 60} {doc doc' : StringM 1024}
    {cases others : List ScSpecUdtEnumCaseV0}
    (same : caseTableToJson name doc cases = caseTableToJson name' doc' others) :
    name.toUtf8StringLossy = name'.toUtf8StringLossy ∧ List.Forall₂ SameEnumCase cases others := by
  have members := obj_members_eq same (by simp) (by rfl)
  simp only [List.cons.injEq, Prod.mk.injEq, str_eq_iff, true_and, and_true] at members
  refine ⟨members.1,(array_related members.2.2).imp fun case other listed => ?_⟩
  have members := obj_members_eq listed (by simp) (by rfl)
  simp only [List.cons.injEq, Prod.mk.injEq, str_eq_iff, true_and, and_true] at members
  exact ⟨members.1,ofU32_injective members.2.2⟩

theorem kind_members_eq {tag tag' : String} {members members' : List (String × Value)}
    (same : typeDefToJson.kind tag members = typeDefToJson.kind tag' members')
    (distinct : ("kind" :: members.map Prod.fst).Nodup) (names : members.map Prod.fst = members'.map Prod.fst) :
    members = members' :=
  (List.cons.inj (obj_members_eq same distinct (congrArg (List.cons _) names))).2

/-- The same listing. The tables are hash maps in the source, so they may come in any order. -/
structure SameListing (left right : ContractSpec) : Prop where
  functions : left.functions.map functionToJson = right.functions.map functionToJson
  structs : (left.structs.values.map structToJson).Perm (right.structs.values.map structToJson)
  unions : (left.unions.values.map unionToJson).Perm (right.unions.values.map unionToJson)
  enums : (left.enums.values.map enumToJson).Perm (right.enums.values.map enumToJson)
  errorEnums : (left.errorEnums.values.map errorEnumToJson).Perm (right.errorEnums.values.map errorEnumToJson)

theorem sameListing_of_toJson {left right : ContractSpec} (same : left.toJson = right.toJson) :
    SameListing left right := by
  have members := obj_members_eq same (by simp) (by rfl)
  simp only [List.cons.injEq, Prod.mk.injEq, Value.array.injEq, true_and, and_true] at members
  obtain ⟨functions,structs,unions,enums,errorEnums⟩ := members
  exact ⟨functions,.of_eq structs,.of_eq unions,.of_eq enums,.of_eq errorEnums⟩

/-- Every type stands under its own name. -/
structure ContractSpec.Filed (spec : ContractSpec) : Prop where
  structs : spec.structs.Filed fun s => s.name.toUtf8StringLossy
  unions : spec.unions.Filed fun u => u.name.toUtf8StringLossy
  enums : spec.enums.Filed fun e => e.name.toUtf8StringLossy
  errorEnums : spec.errorEnums.Filed fun e => e.name.toUtf8StringLossy

theorem addEntry_filed {spec : ContractSpec} (filed : spec.Filed) (entry : ScSpecEntry) :
    (spec.addEntry entry).Filed := by
  obtain ⟨structs,unions,enums,errorEnums⟩ := filed
  cases entry with
  | functionV0 | eventV0 => exact ⟨structs,unions,enums,errorEnums⟩
  | udtStructV0 s => exact ⟨structs.insert s,unions,enums,errorEnums⟩
  | udtUnionV0 u => exact ⟨structs,unions.insert u,enums,errorEnums⟩
  | udtEnumV0 e => exact ⟨structs,unions,enums.insert e,errorEnums⟩
  | udtErrorEnumV0 e => exact ⟨structs,unions,enums,errorEnums.insert e⟩

theorem fromEntries_filed (entries : List ScSpecEntry) : (ContractSpec.fromEntries entries).Filed := by
  have general (start : ContractSpec) (filed : start.Filed) : (entries.foldl ContractSpec.addEntry start).Filed := by
    induction entries generalizing start with
    | nil => exact filed
    | cons entry rest ih => exact ih _ (addEntry_filed filed entry)
  exact general .empty ⟨OrdMap.filed_empty,OrdMap.filed_empty,OrdMap.filed_empty,OrdMap.filed_empty⟩

theorem rel_of_map_eq {α β : Type} {look : α → β} {a b : Option α} (same : a.map look = b.map look) :
    Option.Rel (fun x y => look x = look y) a b := by
  cases a <;> cases b
  case none.none => exact .none
  case some.some => exact .some (Option.some.inj same)
  all_goals cases same

section Listing

variable {left right : ContractSpec} (listing : SameListing left right) (filed : left.Filed) (filed' : right.Filed)
include listing filed filed'

/-- A name stands for the same kind of user type, and for types that look the same. -/
theorem resolve_related (name : String) :
    Option.Rel (Udt.Matches SameType) (left.resolve name) (right.resolve name) := by
  have structs := rel_of_map_eq (filed.structs.map_get_eq filed'.structs listing.structs
    (fun _ _ same => (struct_of_json same).1) name)
  have unions := rel_of_map_eq (filed.unions.map_get_eq filed'.unions listing.unions
    (fun _ _ same => (union_of_json same).1) name)
  have enums := rel_of_map_eq (filed.enums.map_get_eq filed'.enums listing.enums
    (fun _ _ same => (caseTable_of_json same).1) name)
  have errorEnums := rel_of_map_eq (filed.errorEnums.map_get_eq filed'.errorEnums listing.errorEnums
    (fun _ _ same => (caseTable_of_json same).1) name)
  unfold ContractSpec.resolve
  generalize left.structs.get name = s, right.structs.get name = s' at structs ⊢
  generalize left.unions.get name = u, right.unions.get name = u' at unions ⊢
  generalize left.enums.get name = e, right.enums.get name = e' at enums ⊢
  generalize left.errorEnums.get name = x, right.errorEnums.get name = x' at errorEnums ⊢
  cases structs with
  | some same => exact .some (.struct (struct_of_json same).2)
  | none =>
  cases unions with
  | some same => exact .some (.union (union_of_json same).2)
  | none =>
  cases enums with
  | some same => exact .some (.enum (caseTable_of_json same).2)
  | none =>
  cases errorEnums with
  | some same => exact .some (.errorEnum (caseTable_of_json same).2)
  | none => exact .none

/-- Types that look the same take the same values. -/
theorem listing_bisimulation : Bisimulation left right SameType := by
  intro a b same
  have outer := outer_eq same
  unfold SameType at same
  cases a with
  | option =>
    cases b with
    | option =>
      rw [typeDefToJson,typeDefToJson] at same
      have members := kind_members_eq same (by simp) (by rfl)
      simp only [List.cons.injEq, Prod.mk.injEq, true_and, and_true] at members
      exact .option members
    | _ => cases outer
  | result =>
    cases b with
    | result => exact .result
    | _ => cases outer
  | vec =>
    cases b with
    | vec =>
      rw [typeDefToJson,typeDefToJson] at same
      have members := kind_members_eq same (by simp) (by rfl)
      simp only [List.cons.injEq, Prod.mk.injEq, true_and, and_true] at members
      exact .vec members
    | _ => cases outer
  | map =>
    cases b with
    | map =>
      rw [typeDefToJson,typeDefToJson] at same
      have members := kind_members_eq same (by simp) (by rfl)
      simp only [List.cons.injEq, Prod.mk.injEq, true_and, and_true] at members
      exact .map members.1 members.2
    | _ => cases outer
  | tuple =>
    cases b with
    | tuple =>
      rw [typeDefToJson,typeDefToJson] at same
      have members := kind_members_eq same (by simp) (by rfl)
      simp only [List.cons.injEq, Prod.mk.injEq, true_and, and_true] at members
      exact .tuple (array_related members)
    | _ => cases outer
  | bytesN =>
    cases b with
    | bytesN =>
      rw [typeDefToJson,typeDefToJson] at same
      have members := kind_members_eq same (by simp) (by rfl)
      simp only [List.cons.injEq, Prod.mk.injEq, true_and, and_true] at members
      rw [ofU32_injective members]
      exact .simple trivial
    | _ => cases outer
  | udt =>
    cases b with
    | udt =>
      rw [typeDefToJson,typeDefToJson] at same
      have members := kind_members_eq same (by simp) (by rfl)
      simp only [List.cons.injEq, Prod.mk.injEq, str_eq_iff, true_and, and_true] at members
      refine .udt ?_
      rw [members]
      exact resolve_related listing filed filed' _
    | _ => cases outer
  | _ =>
    cases b <;> first
      | exact .simple trivial
      | cases outer

theorem converts_related {a b : ScSpecTypeDef} (same : SameType a b) (c : Crates) (value : Value) (v : ScVal) :
    jsonToScval c left value a = .ok v ↔ jsonToScval c right value b = .ok v :=
  (listing_bisimulation listing filed filed').ok_iff value a b same v

end Listing

/-- The same name, and inputs of the same names and types. -/
structure SameFunction (f g : ScSpecFunctionV0) : Prop where
  name : f.name.toUtf8StringLossy = g.name.toUtf8StringLossy
  inputs : List.Forall₂ (fun i j => i.name.toUtf8StringLossy = j.name.toUtf8StringLossy ∧ SameType i.type j.type)
    f.inputs g.inputs

theorem SameFunction.methodGate_eq {f g : ScSpecFunctionV0} (same : SameFunction f g) (functionName : String)
    (isGet useGet : Bool) : methodGate functionName g isGet useGet = methodGate functionName f isGet useGet := by
  have inputs : g.inputs ≠ [] ↔ f.inputs ≠ [] := by
    rw [← List.length_pos_iff,← List.length_pos_iff,same.inputs.length_eq]
  simp only [methodGate, inputs]

theorem function_of_json {f g : ScSpecFunctionV0} (same : functionToJson f = functionToJson g) : SameFunction f g := by
  have members := obj_members_eq same (by simp) (by rfl)
  simp only [List.cons.injEq, Prod.mk.injEq, str_eq_iff, true_and, and_true] at members
  refine ⟨members.1,(array_related members.2.2.1).imp fun i j input => ?_⟩
  have members := obj_members_eq input (by simp) (by rfl)
  simp only [List.cons.injEq, Prod.mk.injEq, str_eq_iff, true_and, and_true] at members
  exact ⟨members.1,members.2.2⟩

theorem okOr_some_bind {α β ε : Type} {a : α} {error : ε} {next : α → Except ε β} :
    (okOr (some a) error >>= next) = next a := rfl

/-- The same result, or refusals of the same argument, each with a text of its own. -/
inductive AlikeResult {α : Type} : Except AppError α → Except AppError α → Prop where
  | same : AlikeResult result result
  | argument (pname e other : String) : AlikeResult (.error (.badRequest s!"argument `{pname}`: {e}"))
      (.error (.badRequest s!"argument `{pname}`: {other}"))

theorem AlikeResult.bind {α β : Type} {x y : Except AppError α} {f g : α → Except AppError β}
    (first : AlikeResult x y) (next : ∀ a, x = .ok a → AlikeResult (f a) (g a)) :
    AlikeResult (x >>= f) (y >>= g) := by
  cases first with
  | argument pname e other => exact .argument pname e other
  | same =>
    cases x with
    | error e => exact .same
    | ok a => exact next a rfl

/-- What a client sees of an instance: the interface and the methods of its functions. -/
structure SamePages (left right : ContractSpec) (methods methods' : OrdMap String Bool) : Prop where
  listing : SameListing left right
  functions : left.functions.map (functionListing methods) = right.functions.map (functionListing methods')

section Pages

variable {p : Platform} {left right : ContractSpec} {methods methods' : OrdMap String Bool}
  (pages : SamePages left right methods methods') (filed : left.Filed) (filed' : right.Filed)

include pages in
theorem functions_related : List.Forall₂ (fun f g => SameFunction f g ∧
    usesGet methods f.name.toUtf8StringLossy = usesGet methods' f.name.toUtf8StringLossy)
    left.functions right.functions := by
  have alike := array_related (congrArg Value.array pages.listing.functions)
  have listed := array_related (congrArg Value.array pages.functions)
  refine List.Forall₂.mp (fun f g same shown => ?_) alike listed
  have same := function_of_json same
  have verbs := congrArg (Value.getStr "http_method") shown
  rw [functionListing_http_method,functionListing_http_method,Option.some.injEq,verb_inj,← same.name] at verbs
  exact ⟨same,verbs⟩

include pages filed filed'

theorem jsonToScval_alike {a b : ScSpecTypeDef} (same : SameType a b) (value : Value) (pname : String) :
    AlikeResult ((jsonToScval p.toCrates left value a).mapError fun e => .badRequest s!"argument `{pname}`: {e}")
      ((jsonToScval p.toCrates right value b).mapError fun e => .badRequest s!"argument `{pname}`: {e}") := by
  have converts (v : ScVal) := converts_related pages.listing filed filed' same p.toCrates value v
  cases converted : jsonToScval p.toCrates left value a with
  | ok v =>
    rw [(converts v).mp converted]
    exact .same
  | error e =>
    cases converted' : jsonToScval p.toCrates right value b with
    | ok v => cases converted.symm.trans ((converts v).mpr converted')
    | error e' => exact .argument pname e e'

/-- The first argument that is refused is the same. -/
theorem convertArgs_alike {f g : ScSpecFunctionV0} (same : SameFunction f g) (args : OrdMap String Value) :
    AlikeResult (convertArgs p left args f.inputs) (convertArgs p right args g.inputs) := by
  obtain ⟨-,inputs⟩ := same
  unfold convertArgs
  generalize f.inputs = is, g.inputs = js at inputs
  induction inputs with
  | nil => exact .same
  | @cons i j _ _ input _ ih =>
    obtain ⟨name,type⟩ := input
    rw [List.mapM_cons,List.mapM_cons,name]
    exact .bind (jsonToScval_alike pages filed filed' type _ _) fun v _ => .bind ih fun _ _ => .same

/-- A call is admitted to both with the same arguments, or to neither for one reason. -/
theorem admission_alike (req : InvokeRequest) :
    AlikeResult (admission p left methods req) (admission p right methods' req) := by
  have related : Option.Rel (fun f g => SameFunction f g ∧
      usesGet methods f.name.toUtf8StringLossy = usesGet methods' f.name.toUtf8StringLossy)
      (left.function req.functionName) (right.function req.functionName) :=
    find?_related (functions_related pages) (fun f g same => same.1.name) req.functionName
  simp only [admission]
  cases found : left.function req.functionName <;> cases found' : right.function req.functionName <;>
    rw [found,found'] at related
  case none.none => exact .same
  case none.some => cases related
  case some.none => cases related
  case some.some f g =>
    have named : f.name.toUtf8StringLossy = req.functionName := by simpa using List.find?_some found
    cases related with
    | some same =>
      obtain ⟨same,verbs⟩ := same
      rw [named] at verbs
      simp only [okOr_some_bind, ← verbs, same.methodGate_eq]
      exact .bind .same fun _ _ => .bind (convertArgs_alike pages filed filed' same _) fun args _ => .same

/-- Apart from the page of the interface, a request comes to the same plan or is refused alike. -/
theorem plan_alike {request : Request} (other : request ≠ .getSpec) :
    AlikeResult (request.plan p left methods) (request.plan p right methods') := by
  cases request with
  | health | getNetwork => exact .same
  | getSpec => exact absurd rfl other
  | getFunctions =>
    rw [Request.plan,Request.plan,pages.functions]
    exact .same
  | invokeGet | invokePost => exact .bind .same fun common _ => admission_alike pages filed filed' _

end Pages

/-- What is left of a request to either instance: the same, an answer that refuses the same
argument, or the page of the interface, with its tables in some order. -/
inductive AlikeRest (left right : ContractSpec) :
    Async (Except AppError Value) → Async (Except AppError Value) → Prop where
  | same : AlikeRest left right rest rest
  | answer (alike : AlikeResult result result') : AlikeRest left right (.pure result) (.pure result')
  | page : AlikeRest left right (.pure (.ok left.toJson)) (.pure (.ok right.toJson))

structure Alike (left right : ContractSpec) (t t' : Task Resp Request (Except AppError Value)) : Prop where
  request : t.request = t'.request
  history : t.history = t'.history
  rest : AlikeRest left right t.rest t'.rest

section Instances

variable {p : Platform} {state state' : AppState} {left right : ContractSpec} {methods methods' : OrdMap String Bool}

theorem AlikeRest.steps {prog prog' rest : Async (Except AppError Value)} {events : Events}
    (alike : AlikeRest left right prog prog') (steps : Prog.Steps prog events rest) :
    ∃ rest', Prog.Steps prog' events rest' ∧ AlikeRest left right rest rest' := by
  cases alike with
  | same => exact ⟨rest,steps,.same⟩
  | answer alike =>
    cases steps
    exact ⟨_,.refl,.answer alike⟩
  | page =>
    cases steps
    exact ⟨_,.refl,.page⟩

/-- A plan is carried out for the contract and the network, whatever the WASM is. -/
theorem carryOut_congr (contract : state.contractId = state'.contractId)
    (passphrase : state.networkPassphrase = state'.networkPassphrase) (plan : Plan) :
    plan.carryOut p state = plan.carryOut p state' := by
  cases plan with
  | answer | network => rfl
  | call =>
    simp only [Plan.carryOut, transact, buildAndRespond, respond, simulatedResponse, contract, passphrase]

variable (contract : state.contractId = state'.contractId)
  (passphrase : state.networkPassphrase = state'.networkPassphrase)
  (pages : SamePages left right methods methods') (filed : left.Filed) (filed' : right.Filed)
include contract passphrase pages filed filed'

theorem serve_alike (request : Request) : AlikeRest left right (request.serve p state left methods).run
    (request.serve p state' right methods').run := by
  by_cases page : request = .getSpec
  · subst page
    exact .page
  · have alike : AlikeResult (request.plan p left methods) (request.plan p right methods') :=
      plan_alike pages filed filed' page
    rw [serve_eq,serve_eq]
    generalize request.plan p left methods = plan, request.plan p right methods' = plan' at alike
    cases alike with
    | argument pname e other => exact .answer (.argument pname e other)
    | same =>
      cases plan with
      | error e => exact .same
      | ok plan =>
        change AlikeRest left right (plan.carryOut p state).run (plan.carryOut p state').run
        rw [carryOut_congr contract passphrase]
        exact .same

theorem service_related {s : Service} (reach : Service.Reachable p state left methods s) :
    ∃ s', Service.Reachable p state' right methods' s' ∧ List.Forall₂ (Alike left right) s.tasks s'.tasks := by
  obtain ⟨-,ran⟩ := (System.reachable_iff System.fixed_free).mp reach
  have each (t : Task Resp Request (Except AppError Value)) (member : t ∈ s.tasks) : ∃ t', Alike left right t t' ∧
      System.Ran (System.Free fun _ _ => True) (fun request => (request.serve p state' right methods').run) () t' := by
    obtain ⟨steps,reliable⟩ := ran t member
    obtain ⟨rest,steps,alike⟩ := (serve_alike contract passphrase pages filed filed' t.request).steps steps
    exact ⟨⟨t.request,t.history,rest⟩,⟨rfl,rfl,alike⟩,steps,reliable⟩
  obtain ⟨tasks,all⟩ := exists_forall₂_iff.mpr each
  refine ⟨⟨(),tasks⟩,(System.reachable_iff System.fixed_free).mpr ⟨rfl,fun t' member => ?_⟩,
    all.imp fun _ _ both => both.1⟩
  obtain ⟨_,_,_,ran'⟩ := forall₂_mem_right all member
  exact ran'

end Instances

/-- Startup reads the interface from the network, into tables filed by name. -/
theorem Started.filed {p : Platform} {state : AppState} {events : Events} {initial : Shared} {spec : ContractSpec}
    {methods : OrdMap String Bool} (started : Started p state events initial)
    (kept : Kept (normalizeHash p state.contractWasmHash) spec methods initial) : spec.Filed := by
  obtain ⟨lookup,read,probes,_,found,_,rfl,kept'⟩ := started.kept
  obtain rfl : read = spec := Option.some.inj (kept'.1.symm.trans kept.1)
  cases found with
  | fetched => exact fromEntries_filed _
  | cached =>
    obtain ⟨_,answer,_⟩ := System.through_cons_iff.mp started.through
    cases answer.of_readCache.1

/-- The published pages decide what an instance does: two instances for one contract and
network whose pages are equal, or are but for the order of the tables, ask the network the
same and answer the same, whatever the WASM is, but for the text that refuses an argument. -/
theorem pages_determine_service {p : Platform} {state state' : AppState} {events events' : Events}
    {initial initial' : Shared} (started : Started p state events initial)
    (started' : Started p state' events' initial') (contract : state.contractId = state'.contractId)
    (passphrase : state.networkPassphrase = state'.networkPassphrase) :
    ∃ left methods right methods', Kept (normalizeHash p state.contractWasmHash) left methods initial ∧
      Kept (normalizeHash p state'.contractWasmHash) right methods' initial' ∧
      (left.toJson = right.toJson →
        left.functions.map (functionListing methods) = right.functions.map (functionListing methods') →
        SamePages left right methods methods') ∧
      (SamePages left right methods methods' → ∀ s, Server.Reachable p state initial s →
        ∃ s', Server.Reachable p state' initial' s' ∧
          List.Forall₂ (Alike left right) (s.given (locks initial)).tasks (s'.given (locks initial')).tasks) := by
  obtain ⟨_,left,_,_,found,_,_,kept⟩ := started.kept
  obtain ⟨_,right,_,_,found',_,_,kept'⟩ := started'.kept
  obtain ⟨_,hashOk⟩ := found.hashOk
  obtain ⟨_,hashOk'⟩ := found'.hashOk
  refine ⟨left,_,right,_,kept,kept',fun page functions => ⟨sameListing_of_toJson page,functions⟩,?_⟩
  intro pages s reach
  have serves := (service_reachable_iff kept hashOk _).mpr ⟨s,reach,rfl⟩
  obtain ⟨left',serves',alike⟩ := service_related contract passphrase pages (started.filed kept)
    (started'.filed kept') serves
  obtain ⟨s',reach',rfl⟩ := (service_reachable_iff kept' hashOk' _).mp serves'
  exact ⟨s',reach',alike⟩

namespace Reference

/-- A WASM module with its place on the ledger, and the entries of its spec section. -/
structure Module where
  hash : Bytes32
  keyXdr : String
  entryXdr : String
  types : List UInt8
  entries : List ScSpecEntry

/-- Its section has the types and then the function. -/
def Module.specSection (m : Module) : List UInt8 := m.types ++ Reference.specSection

/-- The custom section has 127 bytes, with its name. -/
def Module.wasm (m : Module) : List UInt8 :=
  [0x00, 0x61, 0x73, 0x6D, 0x01, 0x00, 0x00, 0x00, 0x00, 0x7F, 0x0E] ++ utf8 contractSpecSection ++ m.specSection

/-- A struct with an amount in it. -/
def order (name : StringM 60) : ScSpecUdtStructV0 := ⟨.empty,name,[⟨.empty,⟨utf8 "amount",by decide⟩,.i128⟩]⟩

def bid : ScSpecUdtStructV0 := order ⟨utf8 "Bid",by decide⟩

def ask : ScSpecUdtStructV0 := order ⟨utf8 "Ask",by decide⟩

def bidXdr : List UInt8 := [
  0x00, 0x00, 0x00, 0x01, 0x00, 0x00, 0x00, 0x00, 0x00, 0x00, 0x00, 0x00, 0x00, 0x00, 0x00, 0x03, 0x42,
  0x69, 0x64, 0x00, 0x00, 0x00, 0x00, 0x01, 0x00, 0x00, 0x00, 0x00, 0x00, 0x00, 0x00, 0x06, 0x61, 0x6D,
  0x6F, 0x75, 0x6E, 0x74, 0x00, 0x00, 0x00, 0x00, 0x00, 0x0B]

def askXdr : List UInt8 := [
  0x00, 0x00, 0x00, 0x01, 0x00, 0x00, 0x00, 0x00, 0x00, 0x00, 0x00, 0x00, 0x00, 0x00, 0x00, 0x03, 0x41,
  0x73, 0x6B, 0x00, 0x00, 0x00, 0x00, 0x01, 0x00, 0x00, 0x00, 0x00, 0x00, 0x00, 0x00, 0x06, 0x61, 0x6D,
  0x6F, 0x75, 0x6E, 0x74, 0x00, 0x00, 0x00, 0x00, 0x00, 0x0B]

def bidFirst : Module where
  hash := {
    bytes := [
      0x3D, 0xB3, 0x7D, 0x65, 0x8F, 0x64, 0x75, 0xAF, 0x57, 0x5E, 0xBF, 0x85, 0xA7, 0xB3, 0x80, 0x33, 0x21,
      0xC6, 0x76, 0xB3, 0x36, 0xBE, 0x69, 0x5D, 0xB7, 0x29, 0x1A, 0x01, 0x74, 0xB8, 0x84, 0x00]
    length_eq := rfl }
  keyXdr := "AAAABz2zfWWPZHWvV16/haezgDMhxnazNr5pXbcpGgF0uIQA"
  entryXdr :=
    "AAAABwAAAAA9s31lj2R1r1dev4Wns4AzIcZ2sza+aV23KRoBdLiEAAAAAIkAYXNtAQAAAAB/DmNvbnRyYWN0c3BlY3YwAAAAAQ" ++
    "AAAAAAAAAAAAAAA0JpZAAAAAABAAAAAAAAAAZhbW91bnQAAAAAAAsAAAABAAAAAAAAAAAAAAADQXNrAAAAAAEAAAAAAAAABmFt" ++
    "b3VudAAAAAAACwAAAAAAAAAAAAAABHBpbmcAAAAAAAAAAAAAAA=="
  types := bidXdr ++ askXdr
  entries := [.udtStructV0 bid, .udtStructV0 ask, .functionV0 ping]

def askFirst : Module where
  hash := {
    bytes := [
      0x9B, 0xF3, 0x30, 0x88, 0x36, 0xA8, 0xEB, 0x21, 0x69, 0x11, 0x95, 0x15, 0xBD, 0x4A, 0x6E, 0x95, 0x91,
      0x43, 0xE4, 0x20, 0x5A, 0xAB, 0x11, 0x30, 0x50, 0x34, 0xEB, 0x12, 0x72, 0x00, 0x0B, 0x4C]
    length_eq := rfl }
  keyXdr := "AAAAB5vzMIg2qOshaRGVFb1KbpWRQ+QgWqsRMFA06xJyAAtM"
  entryXdr :=
    "AAAABwAAAACb8zCINqjrIWkRlRW9Sm6VkUPkIFqrETBQNOsScgALTAAAAIkAYXNtAQAAAAB/DmNvbnRyYWN0c3BlY3YwAAAAAQ" ++
    "AAAAAAAAAAAAAAA0FzawAAAAABAAAAAAAAAAZhbW91bnQAAAAAAAsAAAABAAAAAAAAAAAAAAADQmlkAAAAAAEAAAAAAAAABmFt" ++
    "b3VudAAAAAAACwAAAAAAAAAAAAAABHBpbmcAAAAAAAAAAAAAAA=="
  types := askXdr ++ bidXdr
  entries := [.udtStructV0 ask, .udtStructV0 bid, .functionV0 ping]

def modules : List Module := [bidFirst, askFirst]

/-- The reference libraries, with the two modules for the one that they know. -/
def twins : Platform where
  __ := platform
  responseFromStr text :=
    match modules.find? fun m => entriesText m.entryXdr == text with
    | some m => .ok ⟨entries m.entryXdr,none⟩
    | none => responseFromStr text
  ledgerKeyToBase64
    | .contractCode hash => okOr ((modules.find? fun m => m.hash == hash).map Module.keyXdr) "unsupported"
    | key => ledgerKeyToBase64 key
  ledgerEntryFromBase64 b64 :=
    match modules.find? fun m => m.entryXdr == b64 with
    | some m => .ok (.contractCode m.wasm)
    | none => ledgerEntryFromBase64 b64
  sha256 bytes :=
    match modules.find? fun m => m.wasm == bytes with
    | some m => m.hash
    | none => sha256 bytes
  parseWasm code :=
    match modules.find? fun m => m.wasm == code with
    | some m => [.ok .other, .ok (.customSection contractSpecSection m.specSection), .ok .other]
    | none => [.error ""]
  specEntriesFromXdr data :=
    okOr ((modules.find? fun m => m.specSection == data).map Module.entries) "unsupported"

def Module.state (m : Module) : AppState := { Reference.state with contractWasmHash := Hex.encode m.hash.bytes }

def Module.spec (m : Module) : ContractSpec := .fromEntries m.entries

/-- The network has both modules, and its simulations all read. -/
def twinNetwork : Network := fun method params =>
  if method = "getLedgerEntries" then
    match params with
    | .object [("keys", .array [.string key])] =>
      match modules.find? fun m => m.keyXdr == key with
      | some m => .response 200 (entriesText m.entryXdr)
      | none => .transport "unsupported"
    | _ => .transport "unsupported"
  else .response 200 (simulationText readingXdr)

/-- The modules are told apart by whatever is different in them. -/
theorem modules_find {β : Type} [BEq β] [LawfulBEq β] (key : Module → β) (distinct : key bidFirst ≠ key askFirst)
    {m : Module} (member : m ∈ modules) : modules.find? (fun known => key known == key m) = some m := by
  simp only [modules, List.mem_cons, List.not_mem_nil, or_false] at member
  rcases member with rfl | rfl
  · exact List.find?_cons_of_pos (beq_self_eq_true _)
  · refine (List.find?_cons_of_neg ?_).trans (List.find?_cons_of_pos (beq_self_eq_true _))
    simpa using distinct

theorem twins_entry {m : Module} (member : m ∈ modules) :
    EntryData twins (.response 200 (entriesText m.entryXdr)) (.contractCode m.wasm) := by
  have text : entriesText bidFirst.entryXdr ≠ entriesText askFirst.entryXdr := by decide +kernel
  have xdr : bidFirst.entryXdr ≠ askFirst.entryXdr := by decide +kernel
  apply entryData
  · simp only [twins, modules_find (fun m => entriesText m.entryXdr) text member]
  · simp only [twins, modules_find Module.entryXdr xdr member]

theorem twins_entries {m : Module} (member : m ∈ modules) : readSpecEntriesFromWasm twins m.wasm = .ok m.entries := by
  have wasm : bidFirst.wasm ≠ askFirst.wasm := by decide +kernel
  have sections : bidFirst.specSection ≠ askFirst.specSection := by decide +kernel
  have parsed : twins.parseWasm m.wasm =
      [.ok .other, .ok (.customSection contractSpecSection m.specSection), .ok .other] := by
    simp only [twins, modules_find Module.wasm wasm member]
  have decoded : twins.specEntriesFromXdr m.specSection = .ok m.entries := by
    simp only [twins, modules_find Module.specSection sections member]
    rfl
  rw [readSpecEntriesFromWasm,parsed]
  change (twins.specEntriesFromXdr m.specSection).mapError _ = _
  rw [decoded]
  rfl

theorem twins_readable {m : Module} (member : m ∈ modules) : Readable twins m.state twinNetwork m.spec := by
  have hashes : bidFirst.hash ≠ askFirst.hash := by decide
  have keys : bidFirst.keyXdr ≠ askFirst.keyXdr := by decide +kernel
  have keyOk : twins.ledgerKeyToBase64 (.contractCode m.hash) = .ok m.keyXdr := by
    simp only [twins, modules_find Module.hash hashes member]
    rfl
  have reply : twinNetwork "getLedgerEntries" (RpcClient.keysParams [m.keyXdr]) =
      .response 200 (entriesText m.entryXdr) := by
    change (match modules.find? fun known => known.keyXdr == m.keyXdr with
      | some m => HttpReply.response 200 (entriesText m.entryXdr)
      | none => .transport "unsupported") = _
    rw [modules_find Module.keyXdr keys member]
  have hashOk : parseWasmHash twins (normalizeHash twins m.state.contractWasmHash) = .ok m.hash := by
    simp only [modules, List.mem_cons, List.not_mem_nil, or_false] at member
    rcases member with rfl | rfl <;> decide +kernel
  refine ⟨m.hash,m.keyXdr,m.wasm,m.entries,hashOk,keyOk,?_,twins_entries member,rfl⟩
  rw [reply]
  exact twins_entry member

theorem twins_functions {m : Module} (member : m ∈ modules) : m.spec.functions = [ping] := by
  simp only [modules, List.mem_cons, List.not_mem_nil, or_false] at member
  rcases member with rfl | rfl <;> rfl

theorem order_names : bid.name.toUtf8StringLossy ≠ ask.name.toUtf8StringLossy := by
  have bidName : bid.name.toUtf8StringLossy = "Bid" := fromUtf8Lossy_utf8 "Bid"
  have askName : ask.name.toUtf8StringLossy = "Ask" := fromUtf8Lossy_utf8 "Ask"
  rw [bidName,askName]
  decide

theorem filed_perm {s t : ScSpecUdtStructV0} (names : s.name.toUtf8StringLossy ≠ t.name.toUtf8StringLossy) :
    ((OrdMap.empty.insert s.name.toUtf8StringLossy s).insert t.name.toUtf8StringLossy t).values.Perm [t, s] := by
  have fresh : (OrdMap.empty.insert s.name.toUtf8StringLossy s).get t.name.toUtf8StringLossy = none := by
    rw [OrdMap.get_insert,if_neg names.symm,OrdMap.get_empty]
  exact (OrdMap.values_insert_perm fresh t).trans ((OrdMap.values_insert_perm (OrdMap.get_empty _) s).cons t)

theorem twins_listing : SameListing bidFirst.spec askFirst.spec where
  functions := rfl
  structs := by
    have left : bidFirst.spec.structs.values.Perm [ask, bid] := filed_perm order_names
    have right : askFirst.spec.structs.values.Perm [bid, ask] := filed_perm order_names.symm
    exact ((left.trans (.swap _ _ _)).trans right.symm).map _
  unions := .refl _
  enums := .refl _
  errorEnums := .refl _

/-- Two instances of the contract, with its types in another order under another hash. -/
theorem pages_determine_service_twins : ∃ events initial events' initial',
    Started twins bidFirst.state events initial ∧ Started twins askFirst.state events' initial' ∧
    ∀ s, Server.Reachable twins bidFirst.state initial s → ∃ s', Server.Reachable twins askFirst.state initial' s' ∧
      List.Forall₂ (Alike bidFirst.spec askFirst.spec) (s.given (locks initial)).tasks
        (s'.given (locks initial')).tasks := by
  have readable : Readable twins bidFirst.state twinNetwork bidFirst.spec := twins_readable (by simp [modules])
  have readable' : Readable twins askFirst.state twinNetwork askFirst.spec := twins_readable (by simp [modules])
  obtain ⟨events,initial,started,answered,cached⟩ := exists_started readable
  obtain ⟨events',initial',started',answered',cached'⟩ := exists_started readable'
  obtain ⟨left,methods,right,methods',kept,kept',_,determined⟩ := pages_determine_service started started' rfl rfl
  obtain rfl : bidFirst.spec = left := Option.some.inj (cached.symm.trans kept.1)
  obtain rfl : askFirst.spec = right := Option.some.inj (cached'.symm.trans kept'.1)
  refine ⟨events,initial,events',initial',started,started',determined ⟨twins_listing,?_⟩⟩
  have uses (name : String) : usesGet methods name = usesGet methods' name := by
    rw [← kept.2,← kept'.2,Bool.eq_iff_iff]
    exact (started.usesGet_iff answered readable name).trans (started'.usesGet_iff answered' readable' name).symm
  rw [twins_functions (by simp [modules]),twins_functions (by simp [modules])]
  simp only [List.map_cons, List.map_nil, functionListing, uses]

end Reference

end SorobanProxy
