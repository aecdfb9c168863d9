import SorobanProxy.Handlers
import SorobanProxy.Integers

/-! The published interface, read by a client. The JSON of a type gives the type back, so
different types and signatures are listed differently. -/
namespace SorobanProxy

open Library

/-- The user types that a type names are UTF-8. -/
def ScSpecTypeDef.Utf8Names : ScSpecTypeDef → Prop
  | .option valueType => valueType.Utf8Names
  | .result okType errorType => okType.Utf8Names ∧ errorType.Utf8Names
  | .vec elementType => elementType.Utf8Names
  | .map keyType valueType => keyType.Utf8Names ∧ valueType.Utf8Names
  | .tuple valueTypes => ∀ ty ∈ valueTypes, ty.Utf8Names
  | .udt name => IsUtf8 name.bytes
  | _ => True

/-- A type from its kind and its members, which are types, lists of types, or data. -/
def typeOfKind (part : String → Option ScSpecTypeDef) (parts : String → Option (List ScSpecTypeDef))
    (value : Value) : String → Option ScSpecTypeDef
  | "val" => some .val
  | "bool" => some .bool
  | "void" => some .void
  | "error" => some .error
  | "u32" => some .u32
  | "i32" => some .i32
  | "u64" => some .u64
  | "i64" => some .i64
  | "timepoint" => some .timepoint
  | "duration" => some .duration
  | "u128" => some .u128
  | "i128" => some .i128
  | "u256" => some .u256
  | "i256" => some .i256
  | "bytes" => some .bytes
  | "string" => some .string
  | "symbol" => some .symbol
  | "address" => some .address
  | "muxed_address" => some .muxedAddress
  | "option" => (part "value").map .option
  | "result" => (part "ok").bind fun okType => (part "error").map (.result okType)
  | "vec" => (part "element").map .vec
  | "map" => (part "key").bind fun keyType => (part "value").map (.map keyType)
  | "tuple" => (parts "elements").map .tuple
  | "bytesN" => (((value.get "n").bind Value.asU64).bind u32TryFrom).map .bytesN
  | "udt" => ((value.getStr "name").bind fun name => BytesM.tryFrom 60 (utf8 name)).map .udt
  | _ => none

/-- A client's reading of the JSON of a type. -/
def rebuildType (value : Value) : Option ScSpecTypeDef :=
  (value.getStr "kind").bind <| typeOfKind
    (fun key =>
      match _found : value.get key with
      | some v => rebuildType v
      | none => none)
    (fun key =>
      match _found : value.get key with
      | some (.array items) => items.attach.mapM fun x => rebuildType x.val
      | _ => none)
    value
termination_by sizeOf value
decreasing_by
  · exact Value.sizeOf_lt_of_get _found
  · exact (Value.sizeOf_lt_of_item x.property).trans (Value.sizeOf_lt_of_get _found)

theorem rebuildType_eq (value : Value) : rebuildType value = (value.getStr "kind").bind (typeOfKind
    (fun key => (value.get key).bind rebuildType)
    (fun key => ((value.get key).bind Value.asArray).bind (List.mapM rebuildType)) value) := by
  rw [rebuildType.eq_def]
  congr 2
  · funext key
    cases value.get key <;> rfl
  · funext key
    simp only [mapM_attach (f := rebuildType)]
    cases value.get key with
    | none => rfl
    | some v => cases v <;> rfl

section Kind

variable (tag : String) {members : List (String × Value)} (distinct : ("kind" :: members.map Prod.fst).Nodup)
include distinct

theorem rebuildType_kind : rebuildType (typeDefToJson.kind tag members) = typeOfKind
    (fun key => ((typeDefToJson.kind tag members).get key).bind rebuildType)
    (fun key => (((typeDefToJson.kind tag members).get key).bind Value.asArray).bind (List.mapM rebuildType))
    (typeDefToJson.kind tag members) tag := by
  have names : (("kind", Value.str tag) :: members |>.map Prod.fst).Nodup := distinct
  have kind : (typeDefToJson.kind tag members).getStr "kind" = some tag :=
    Value.getStr_eq_some_iff.mpr (Value.get_obj names List.mem_cons_self)
  rw [rebuildType_eq,kind]
  rfl

theorem get_kind {key : String} {v : Value} (member : (key, v) ∈ members) :
    (typeDefToJson.kind tag members).get key = some v := by
  have names : (("kind", Value.str tag) :: members |>.map Prod.fst).Nodup := distinct
  exact Value.get_obj names (List.mem_cons_of_mem _ member)

end Kind

/-- A type without parts is read by its kind alone. -/
theorem rebuildType_simple {tag : String} {ty : ScSpecTypeDef}
    (simple : ∀ part parts value, typeOfKind part parts value tag = some ty) :
    rebuildType (typeDefToJson.kind tag []) = some ty := by
  rw [rebuildType_kind _ (by simp),simple]

/-- A type with one part, from that part. -/
theorem rebuildType_one {tag key : String} {v : Value} {ty : ScSpecTypeDef} {wrap : ScSpecTypeDef → ScSpecTypeDef}
    (other : "kind" ≠ key) (reads : ∀ part parts value, typeOfKind part parts value tag = (part key).map wrap)
    (part : rebuildType v = some ty) : rebuildType (typeDefToJson.kind tag [(key, v)]) = some (wrap ty) := by
  have distinct : ("kind" :: [(key, v)].map Prod.fst).Nodup := by simpa using other
  have found := get_kind tag distinct (List.mem_singleton_self _)
  rw [rebuildType_kind tag distinct,reads,found,Option.bind_some,part]
  rfl

/-- A type with two parts, from both. -/
theorem rebuildType_two {tag key key' : String} {v v' : Value} {ty ty' : ScSpecTypeDef}
    {join : ScSpecTypeDef → ScSpecTypeDef → ScSpecTypeDef} (distinct : ["kind", key, key'].Nodup)
    (reads : ∀ part parts value, typeOfKind part parts value tag =
      (part key).bind fun first => (part key').map (join first))
    (part : rebuildType v = some ty) (part' : rebuildType v' = some ty') :
    rebuildType (typeDefToJson.kind tag [(key, v), (key', v')]) = some (join ty ty') := by
  have distinct : ("kind" :: [(key, v), (key', v')].map Prod.fst).Nodup := distinct
  have found := get_kind tag distinct List.mem_cons_self
  have found' := get_kind tag distinct (List.mem_cons_of_mem _ (List.mem_singleton_self _))
  rw [rebuildType_kind tag distinct,reads,found,found',Option.bind_some,Option.bind_some,part,part']
  rfl

/-- The reading undoes the rendering. -/
theorem rebuildType_typeDefToJson : ∀ ty : ScSpecTypeDef, ty.Utf8Names → rebuildType (typeDefToJson ty) = some ty
  | .option valueType, utf8 => by
    rw [ScSpecTypeDef.Utf8Names] at utf8
    rw [typeDefToJson]
    exact rebuildType_one (by decide) (fun _ _ _ => rfl) (rebuildType_typeDefToJson valueType utf8)
  | .result okType errorType, utf8 => by
    rw [ScSpecTypeDef.Utf8Names] at utf8
    rw [typeDefToJson]
    exact rebuildType_two (by decide) (fun _ _ _ => rfl) (rebuildType_typeDefToJson okType utf8.1)
      (rebuildType_typeDefToJson errorType utf8.2)
  | .vec elementType, utf8 => by
    rw [ScSpecTypeDef.Utf8Names] at utf8
    rw [typeDefToJson]
    exact rebuildType_one (by decide) (fun _ _ _ => rfl) (rebuildType_typeDefToJson elementType utf8)
  | .map keyType valueType, utf8 => by
    rw [ScSpecTypeDef.Utf8Names] at utf8
    rw [typeDefToJson]
    exact rebuildType_two (by decide) (fun _ _ _ => rfl) (rebuildType_typeDefToJson keyType utf8.1)
      (rebuildType_typeDefToJson valueType utf8.2)
  | .tuple valueTypes, utf8 => by
    rw [ScSpecTypeDef.Utf8Names] at utf8
    have distinct : ("kind" :: [("elements", Value.array (valueTypes.map typeDefToJson))].map Prod.fst).Nodup := by simp
    have elements := get_kind "tuple" distinct (List.mem_singleton_self _)
    have each : (valueTypes.map typeDefToJson).mapM rebuildType = some (valueTypes.map id) :=
      mapM_map_eq_some fun ty member => rebuildType_typeDefToJson ty (utf8 ty member)
    rw [List.map_id] at each
    rw [typeDefToJson,rebuildType_kind _ distinct]
    change (((Value.get "elements" _).bind Value.asArray).bind (List.mapM rebuildType)).map ScSpecTypeDef.tuple = _
    rw [elements,Option.bind_some,Value.asArray,Option.bind_some,each]
    rfl
  | .bytesN n, _ => by
    have distinct : ("kind" :: [("n", Value.number (.ofU32 n))].map Prod.fst).Nodup := by simp
    have number := get_kind "bytesN" distinct (List.mem_singleton_self _)
    rw [typeDefToJson,rebuildType_kind _ distinct]
    change (((Value.get "n" _).bind Value.asU64).bind u32TryFrom).map ScSpecTypeDef.bytesN = _
    simp only [number, Option.bind_some, Value.asU64, Number.asU64_ofU32, u32TryFrom_toUInt64, Option.map_some]
  | .udt name, utf8 => by
    rw [ScSpecTypeDef.Utf8Names] at utf8
    have distinct : ("kind" :: [("name", Value.str name.toUtf8StringLossy)].map Prod.fst).Nodup := by simp
    have text := Value.getStr_eq_some_iff.mpr (get_kind "udt" distinct (List.mem_singleton_self _))
    have fits : BytesM.tryFrom 60 (SorobanProxy.utf8 name.toUtf8StringLossy) = some name :=
      BytesM.tryFrom_eq_some_iff.mpr utf8.symm
    rw [typeDefToJson,rebuildType_kind _ distinct]
    change ((Value.getStr "name" _).bind fun name => BytesM.tryFrom 60 (SorobanProxy.utf8 name)).map
      ScSpecTypeDef.udt = _
    rw [text,Option.bind_some,fits]
    rfl
  | .val, _ | .bool, _ | .void, _ | .error, _ | .u32, _ | .i32, _ | .u64, _ | .i64, _ | .timepoint, _ | .duration, _
  | .u128, _ | .i128, _ | .u256, _ | .i256, _ | .bytes, _ | .string, _ | .symbol, _ | .address, _
  | .muxedAddress, _ => by
    rw [typeDefToJson]
    exact rebuildType_simple fun _ _ _ => rfl

/-- What a caller has to know of a function: its parameters in order, and its output type. -/
structure Signature where
  inputs : List (String × ScSpecTypeDef)
  output : Option ScSpecTypeDef

def ScSpecFunctionV0.signature (f : ScSpecFunctionV0) : Signature where
  inputs := f.inputs.map fun input => (input.name.toUtf8StringLossy, input.type)
  output := f.outputs.head?

/-- The user types that a signature names are UTF-8. -/
structure ScSpecFunctionV0.Utf8Names (f : ScSpecFunctionV0) : Prop where
  inputs : ∀ input ∈ f.inputs, input.type.Utf8Names
  output : ∀ ty, f.outputs.head? = some ty → ty.Utf8Names

def rebuildInput (value : Value) : Option (String × ScSpecTypeDef) := do
  let name ← value.getStr "name"
  let type ← (value.get "type").bind rebuildType
  return (name, type)

/-- The output type is null where there is none. -/
def rebuildOutput (value : Value) : Option (Option ScSpecTypeDef) :=
  if value.isNull then some none else (rebuildType value).map some

/-- A client's reading of the JSON of a function. -/
def rebuildSignature (value : Value) : Option Signature := do
  let inputs ← ((value.get "inputs").bind Value.asArray).bind (List.mapM rebuildInput)
  let output ← (value.get "output").bind rebuildOutput
  return { inputs, output }

/-- The JSON of a parameter. -/
theorem rebuildInput_toJson {input : ScSpecFunctionInputV0} (utf8 : input.type.Utf8Names) : rebuildInput (.obj [
    ("name", .str input.name.toUtf8StringLossy),
    ("doc", .str input.doc.toUtf8StringLossy),
    ("type", typeDefToJson input.type)]) = some (input.name.toUtf8StringLossy, input.type) := by
  have distinct : (([
    ("name", .str input.name.toUtf8StringLossy),
    ("doc", .str input.doc.toUtf8StringLossy),
    ("type", typeDefToJson input.type)] : List (String × Value)).map Prod.fst).Nodup := by simp
  have name := Value.getStr_eq_some_iff.mpr (Value.get_obj distinct List.mem_cons_self)
  have type := Value.get_obj distinct
    (List.mem_cons_of_mem _ (List.mem_cons_of_mem _ (List.mem_singleton_self _)))
  rw [rebuildInput,name,type,Option.bind_some,rebuildType_typeDefToJson _ utf8]
  rfl

theorem rebuildOutput_toJson {output : Option ScSpecTypeDef} (utf8 : ∀ ty, output = some ty → ty.Utf8Names) :
    rebuildOutput ((output.map typeDefToJson).getD .null) = some output := by
  cases output with
  | none => rfl
  | some ty =>
    have type := rebuildType_typeDefToJson ty (utf8 ty rfl)
    have present : (typeDefToJson ty).isNull = false := by
      cases rendered : typeDefToJson ty with
      | null =>
        rw [rendered,rebuildType_eq] at type
        cases type
      | _ => rfl
    rw [rebuildOutput,Option.map_some,Option.getD_some,present,type]
    rfl

theorem functionToJson_get (f : ScSpecFunctionV0) :
    (functionToJson f).get "inputs" = some (.array (f.inputs.map fun i => .obj [
      ("name", .str i.name.toUtf8StringLossy),
      ("doc", .str i.doc.toUtf8StringLossy),
      ("type", typeDefToJson i.type)])) ∧
    (functionToJson f).get "output" = some ((f.outputs.head?.map typeDefToJson).getD .null) := by
  constructor
  · exact Value.get_obj (by simp) (by simp)
  · exact Value.get_obj (by simp) (by simp)

/-- A listed function is read as its signature, whatever its other members are. -/
theorem rebuildSignature_of_members {f : ScSpecFunctionV0} (utf8 : f.Utf8Names) {value : Value}
    (inputs : value.get "inputs" = (functionToJson f).get "inputs")
    (output : value.get "output" = (functionToJson f).get "output") :
    rebuildSignature value = some f.signature := by
  obtain ⟨inputsJson,outputJson⟩ := functionToJson_get f
  have readInputs := mapM_map_eq_some fun input member => rebuildInput_toJson (utf8.inputs input member)
  have readOutput := rebuildOutput_toJson utf8.output
  rw [rebuildSignature,inputs,inputsJson,output,outputJson]
  simp only [Option.bind_some, Value.asArray, readInputs, readOutput]
  rfl

/-- The further member of the listing hides no other. -/
theorem functionListing_get (methods : OrdMap String Bool) (f : ScSpecFunctionV0) {key : String}
    (other : key ≠ "http_method") : (functionListing methods f).get key = (functionToJson f).get key := by
  rw [functionListing,functionToJson,Value.obj]
  simp only [Value.get, Entries.find_insert, if_neg other]

theorem rebuildSignature_functionToJson {f : ScSpecFunctionV0} (utf8 : f.Utf8Names) :
    rebuildSignature (functionToJson f) = some f.signature := rebuildSignature_of_members utf8 rfl rfl

theorem typeDefToJson_injective {first second : ScSpecTypeDef} (utf8 : first.Utf8Names) (utf8' : second.Utf8Names)
    (same : typeDefToJson first = typeDefToJson second) : first = second := by
  have read := rebuildType_typeDefToJson first utf8
  rw [same,rebuildType_typeDefToJson second utf8'] at read
  exact (Option.some.inj read).symm

theorem functionToJson_signature {f g : ScSpecFunctionV0} (utf8 : f.Utf8Names) (utf8' : g.Utf8Names)
    (same : functionToJson f = functionToJson g) : f.signature = g.signature := by
  have read := rebuildSignature_functionToJson utf8
  rw [same,rebuildSignature_functionToJson utf8'] at read
  exact (Option.some.inj read).symm

/-- Parameters of the same texts have the same names, where these are text. -/
theorem inputNames_eq {f g : ScSpecFunctionV0} (same : f.signature = g.signature)
    (text : ∀ input ∈ f.inputs, IsUtf8 input.name.bytes) (text' : ∀ input ∈ g.inputs, IsUtf8 input.name.bytes) :
    f.inputs.map (·.name) = g.inputs.map (·.name) := by
  have texts := congrArg (List.map Prod.fst) (congrArg Signature.inputs same)
  refine eq_of_map_eq (f := StringM.toUtf8StringLossy) ?_ ?_
  · simpa [ScSpecFunctionV0.signature,Function.comp_def] using texts
  intro name listed name' listed' agree
  obtain ⟨input,member,rfl⟩ := List.mem_map.mp listed
  obtain ⟨input',member',rfl⟩ := List.mem_map.mp listed'
  exact BytesM.ext (fromUtf8Lossy_injective (text input member) (text' input' member') agree)

/-- The published interface determines the types: a client reads from the JSON of a type the
type, and from either listing of a function its parameters and its output. -/
theorem interface_determines_types :
    (∀ first second : ScSpecTypeDef, first.Utf8Names → second.Utf8Names →
      typeDefToJson first = typeDefToJson second → first = second) ∧
    (∀ f g : ScSpecFunctionV0, f.Utf8Names → g.Utf8Names → functionToJson f = functionToJson g →
      f.signature = g.signature ∧
      ((∀ input ∈ f.inputs, IsUtf8 input.name.bytes) → (∀ input ∈ g.inputs, IsUtf8 input.name.bytes) →
        f.inputs.map (·.name) = g.inputs.map (·.name))) ∧
    (∀ ty : ScSpecTypeDef, ty.Utf8Names → rebuildType (typeDefToJson ty) = some ty) ∧
    ∀ (methods : OrdMap String Bool) (f : ScSpecFunctionV0), f.Utf8Names →
      rebuildSignature (functionToJson f) = some f.signature ∧
      rebuildSignature (functionListing methods f) = some f.signature := by
  refine ⟨fun first second => typeDefToJson_injective,?_,rebuildType_typeDefToJson,?_⟩
  · intro f g utf8 utf8' same
    have signature := functionToJson_signature utf8 utf8' same
    exact ⟨signature,inputNames_eq signature⟩
  · intro methods f utf8
    refine ⟨rebuildSignature_functionToJson utf8,rebuildSignature_of_members utf8 ?_ ?_⟩
    · exact functionListing_get methods f (by decide)
    · exact functionListing_get methods f (by decide)

end SorobanProxy
