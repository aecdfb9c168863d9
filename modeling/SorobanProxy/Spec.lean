import SorobanProxy.Json
import SorobanProxy.Xdr

/-! A contract's interface: the entries of its `contractspecv0` section, and the view of
them that the proxy keeps. Names are looked up and compared as lossily decoded text. -/
namespace SorobanProxy

open Library

inductive ScSpecTypeDef where
  | val
  | bool
  | void
  | error
  | u32
  | i32
  | u64
  | i64
  | timepoint
  | duration
  | u128
  | i128
  | u256
  | i256
  | bytes
  | string
  | symbol
  | address
  | muxedAddress
  | option (valueType : ScSpecTypeDef)
  | result (okType errorType : ScSpecTypeDef)
  | vec (elementType : ScSpecTypeDef)
  | map (keyType valueType : ScSpecTypeDef)
  | tuple (valueTypes : List ScSpecTypeDef)
  | bytesN (n : UInt32)
  | udt (name : StringM 60)

structure ScSpecUdtStructFieldV0 where
  doc : StringM 1024
  name : StringM 30
  type : ScSpecTypeDef

structure ScSpecUdtStructV0 where
  doc : StringM 1024
  name : StringM 60
  fields : List ScSpecUdtStructFieldV0

inductive ScSpecUdtUnionCaseV0 where
  | voidV0 (doc : StringM 1024) (name : StringM 60)
  | tupleV0 (doc : StringM 1024) (name : StringM 60) (type : List ScSpecTypeDef)

def ScSpecUdtUnionCaseV0.name : ScSpecUdtUnionCaseV0 → StringM 60
  | .voidV0 _ name => name
  | .tupleV0 _ name _ => name

/-- The argument types of a case; a void case has none. -/
def ScSpecUdtUnionCaseV0.types : ScSpecUdtUnionCaseV0 → List ScSpecTypeDef
  | .voidV0 _ _ => []
  | .tupleV0 _ _ type => type

structure ScSpecUdtUnionV0 where
  doc : StringM 1024
  name : StringM 60
  cases : List ScSpecUdtUnionCaseV0

structure ScSpecUdtEnumCaseV0 where
  doc : StringM 1024
  name : StringM 60
  value : UInt32

structure ScSpecUdtEnumV0 where
  doc : StringM 1024
  name : StringM 60
  cases : List ScSpecUdtEnumCaseV0

/-- Error enums have the fields of enums, under a type of their own. -/
structure ScSpecUdtErrorEnumV0 where
  doc : StringM 1024
  name : StringM 60
  cases : List ScSpecUdtEnumCaseV0

structure ScSpecFunctionInputV0 where
  doc : StringM 1024
  name : StringM 30
  type : ScSpecTypeDef

structure ScSpecFunctionV0 where
  doc : StringM 1024
  name : ScSymbol
  inputs : List ScSpecFunctionInputV0
  outputs : List ScSpecTypeDef

/-- An entry of the spec section. Events are skipped, so nothing of one is kept. -/
inductive ScSpecEntry where
  | functionV0 (f : ScSpecFunctionV0)
  | udtStructV0 (s : ScSpecUdtStructV0)
  | udtUnionV0 (u : ScSpecUdtUnionV0)
  | udtEnumV0 (e : ScSpecUdtEnumV0)
  | udtErrorEnumV0 (e : ScSpecUdtErrorEnumV0)
  | eventV0

/-- A structured view over a contract's parsed interface. -/
structure ContractSpec where
  functions : List ScSpecFunctionV0
  structs : OrdMap String ScSpecUdtStructV0
  unions : OrdMap String ScSpecUdtUnionV0
  enums : OrdMap String ScSpecUdtEnumV0
  errorEnums : OrdMap String ScSpecUdtErrorEnumV0

namespace ContractSpec

def empty : ContractSpec := ⟨[],.empty,.empty,.empty,.empty⟩

/-- One turn of the loop: functions are appended, types inserted under their name. -/
def addEntry (spec : ContractSpec) : ScSpecEntry → ContractSpec
  | .functionV0 f => { spec with functions := spec.functions ++ [f] }
  | .udtStructV0 s => { spec with structs := spec.structs.insert s.name.toUtf8StringLossy s }
  | .udtUnionV0 u => { spec with unions := spec.unions.insert u.name.toUtf8StringLossy u }
  | .udtEnumV0 e => { spec with enums := spec.enums.insert e.name.toUtf8StringLossy e }
  | .udtErrorEnumV0 e => { spec with errorEnums := spec.errorEnums.insert e.name.toUtf8StringLossy e }
  | .eventV0 => spec

def fromEntries (entries : List ScSpecEntry) : ContractSpec := entries.foldl addEntry empty

/-- The first function of that name. -/
def function (spec : ContractSpec) (name : String) : Option ScSpecFunctionV0 :=
  spec.functions.find? fun f => f.name.toUtf8StringLossy == name

/-- The first case of that name in the union of that name. -/
def unionCase (spec : ContractSpec) (unionName caseName : String) : Option ScSpecUdtUnionCaseV0 :=
  (spec.unions.get unionName).bind fun u => u.cases.find? fun c => c.name.toUtf8StringLossy == caseName

theorem functions_addEntry (spec : ContractSpec) (entry : ScSpecEntry) :
    (spec.addEntry entry).functions = spec.functions ++
      (match entry with | .functionV0 f => [f] | _ => []) := by
  cases entry <;> simp [addEntry]

/-- The functions of a spec stream, in stream order. -/
def functionEntries (entries : List ScSpecEntry) : List ScSpecFunctionV0 :=
  entries.filterMap fun | .functionV0 f => some f | _ => none

theorem fromEntries_functions (entries : List ScSpecEntry) :
    (fromEntries entries).functions = functionEntries entries := by
  have general (start : ContractSpec) :
      (entries.foldl addEntry start).functions = start.functions ++ functionEntries entries := by
    induction entries generalizing start with
    | nil => simp [functionEntries]
    | cons entry rest ih =>
      rw [List.foldl_cons,ih,functions_addEntry]
      cases entry <;> simp [functionEntries]
  simpa [fromEntries,empty] using general empty

end ContractSpec

def typeDefToJson : ScSpecTypeDef → Value
  | .val => kind "val" []
  | .bool => kind "bool" []
  | .void => kind "void" []
  | .error => kind "error" []
  | .u32 => kind "u32" []
  | .i32 => kind "i32" []
  | .u64 => kind "u64" []
  | .i64 => kind "i64" []
  | .timepoint => kind "timepoint" []
  | .duration => kind "duration" []
  | .u128 => kind "u128" []
  | .i128 => kind "i128" []
  | .u256 => kind "u256" []
  | .i256 => kind "i256" []
  | .bytes => kind "bytes" []
  | .string => kind "string" []
  | .symbol => kind "symbol" []
  | .address => kind "address" []
  | .muxedAddress => kind "muxed_address" []
  | .option valueType => kind "option" [("value", typeDefToJson valueType)]
  | .result okType errorType =>
    kind "result" [("ok", typeDefToJson okType), ("error", typeDefToJson errorType)]
  | .vec elementType => kind "vec" [("element", typeDefToJson elementType)]
  | .map keyType valueType =>
    kind "map" [("key", typeDefToJson keyType), ("value", typeDefToJson valueType)]
  | .tuple valueTypes => kind "tuple" [("elements", .array (valueTypes.map typeDefToJson))]
  | .bytesN n => kind "bytesN" [("n", .number (.ofU32 n))]
  | .udt name => kind "udt" [("name", .str name.toUtf8StringLossy)]
where
  kind (tag : String) (members : List (String × Value)) : Value := .obj (("kind", .str tag) :: members)

def functionToJson (f : ScSpecFunctionV0) : Value := .obj [
  ("name", .str f.name.toUtf8StringLossy),
  ("doc", .str f.doc.toUtf8StringLossy),
  ("inputs", .array (f.inputs.map fun i => .obj [
    ("name", .str i.name.toUtf8StringLossy),
    ("doc", .str i.doc.toUtf8StringLossy),
    ("type", typeDefToJson i.type)])),
  ("output", (f.outputs.head?.map typeDefToJson).getD .null)]

def structToJson (s : ScSpecUdtStructV0) : Value := .obj [
  ("name", .str s.name.toUtf8StringLossy),
  ("doc", .str s.doc.toUtf8StringLossy),
  ("fields", .array (s.fields.map fun f => .obj [
    ("name", .str f.name.toUtf8StringLossy),
    ("doc", .str f.doc.toUtf8StringLossy),
    ("type", typeDefToJson f.type)]))]

def unionCaseToJson : ScSpecUdtUnionCaseV0 → Value
  | .voidV0 doc name => .obj [
    ("name", .str name.toUtf8StringLossy),
    ("doc", .str doc.toUtf8StringLossy),
    ("kind", .str "void"),
    ("types", .array [])]
  | .tupleV0 doc name type => .obj [
    ("name", .str name.toUtf8StringLossy),
    ("doc", .str doc.toUtf8StringLossy),
    ("kind", .str "tuple"),
    ("types", .array (type.map typeDefToJson))]

def unionToJson (u : ScSpecUdtUnionV0) : Value := .obj [
  ("name", .str u.name.toUtf8StringLossy),
  ("doc", .str u.doc.toUtf8StringLossy),
  ("cases", .array (u.cases.map unionCaseToJson))]

/-- What the two enum renderings share: name, doc and the table of cases. -/
def caseTableToJson (name : StringM 60) (doc : StringM 1024) (cases : List ScSpecUdtEnumCaseV0) : Value :=
  .obj [
    ("name", .str name.toUtf8StringLossy),
    ("doc", .str doc.toUtf8StringLossy),
    ("cases", .array (cases.map fun c => .obj [
      ("name", .str c.name.toUtf8StringLossy),
      ("doc", .str c.doc.toUtf8StringLossy),
      ("value", .number (.ofU32 c.value))]))]

def enumToJson (e : ScSpecUdtEnumV0) : Value := caseTableToJson e.name e.doc e.cases

def errorEnumToJson (e : ScSpecUdtErrorEnumV0) : Value := caseTableToJson e.name e.doc e.cases

/-- The tables are hash maps in the source, with no promised order; here they are in the
order of their names. -/
def ContractSpec.toJson (spec : ContractSpec) : Value := .obj [
  ("functions", .array (spec.functions.map functionToJson)),
  ("structs", .array (spec.structs.values.map structToJson)),
  ("unions", .array (spec.unions.values.map unionToJson)),
  ("enums", .array (spec.enums.values.map enumToJson)),
  ("error_enums", .array (spec.errorEnums.values.map errorEnumToJson))]

end SorobanProxy
