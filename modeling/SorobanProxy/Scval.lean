import SorobanProxy.Crates
import SorobanProxy.Library.Numeral

/-! Type-directed conversion from plain JSON to contract values, driven by the contract's
spec. The recursion goes through the spec's tables, so it descends on the JSON value first
and on the type second. -/
namespace SorobanProxy

open Library
open Library.Numeral (ParseIntError parseInt)

/-- `anyhow::Result`: an error is the text it displays. -/
abbrev Result := Except String

/-- `Option::ok_or_else`. -/
def okOr (found : Option α) (error : ε) : Except ε α :=
  match found with
  | some a => .ok a
  | none => .error error

@[simp] theorem okOr_eq_ok_iff {found : Option α} {error : ε} {a : α} :
    okOr found error = .ok a ↔ found = some a := by
  cases found <;> simp [okOr]

def u32TryFrom (n : UInt64) : Option UInt32 := if n.toNat < 2 ^ 32 then some n.toUInt32 else none

def i32TryFrom (n : Int64) : Option Int32 :=
  if -2 ^ 31 ≤ n.toInt ∧ n.toInt < 2 ^ 31 then some n.toInt32 else none

def u8TryFrom (n : UInt64) : Option UInt8 := if n.toNat < 2 ^ 8 then some n.toUInt8 else none

def parseU32 (s : String) : Except ParseIntError UInt32 :=
  (parseInt 0 (2 ^ 32 - 1) s).map fun n => .ofNat n.toNat

def parseI32 (s : String) : Except ParseIntError Int32 :=
  (parseInt (-2 ^ 31) (2 ^ 31 - 1) s).map .ofInt

def parseU64 (s : String) : Except ParseIntError UInt64 :=
  (parseInt 0 (2 ^ 64 - 1) s).map fun n => .ofNat n.toNat

def parseI64 (s : String) : Except ParseIntError Int64 :=
  (parseInt (-2 ^ 63) (2 ^ 63 - 1) s).map .ofInt

def parseU128 (s : String) : Except ParseIntError (BitVec 128) :=
  (parseInt 0 (2 ^ 128 - 1) s).map (.ofInt 128)

def parseI128 (s : String) : Except ParseIntError (BitVec 128) :=
  (parseInt (-2 ^ 127) (2 ^ 127 - 1) s).map (.ofInt 128)

def parseBool : String → Option Bool
  | "true" => some true
  | "false" => some false
  | _ => none

/-- A native number where there is one, else a numeric string. -/
def readInteger (native : Value → Option α) (parse : String → Except ParseIntError α) (what : String)
    (v : Value) : Result α :=
  match native v with
  | some n => .ok n
  | none =>
    match v.asStr with
    | some s => (parse s).mapError fun e =>
      let e := e.text
      s!"invalid {what} `{s}`: {e}"
    | none => .error "expected an integer or a numeric string"

def asU64 : Value → Result UInt64 := readInteger Value.asU64 parseU64 "integer"

def asI64 : Value → Result Int64 := readInteger Value.asI64 parseI64 "integer"

def asU128 : Value → Result (BitVec 128) :=
  readInteger (fun v => v.asU64.map fun n => n.toBitVec.setWidth 128) parseU128 "u128"

def asI128 : Value → Result (BitVec 128) :=
  readInteger (fun v => v.asI64.map fun n => n.toBitVec.signExtend 128) parseI128 "i128"

def u128ToParts (v : BitVec 128) : UInt128Parts where
  hi := ⟨(v >>> 64).setWidth 64⟩
  lo := ⟨v.setWidth 64⟩

def i128ToParts (v : BitVec 128) : Int128Parts where
  hi := ⟨⟨(v.sshiftRight 64).setWidth 64⟩⟩
  lo := ⟨(v &&& 0xFFFFFFFFFFFFFFFF).setWidth 64⟩

def u128FromParts (p : UInt128Parts) : BitVec 128 :=
  (p.hi.toBitVec.setWidth 128 <<< 64) ||| p.lo.toBitVec.setWidth 128

def i128FromParts (p : Int128Parts) : BitVec 128 :=
  (p.hi.toBitVec.signExtend 128 <<< 64) ||| p.lo.toBitVec.setWidth 128

/-- `try_into` a vector bounded by `u32::MAX`. -/
def vecTryInto (items : List α) (message : String) : Result (List α) :=
  if items.length ≤ u32Max then .ok items else .error message

@[simp] theorem vecTryInto_eq_ok_iff {items result : List α} {message : String} :
    vecTryInto items message = .ok result ↔ items.length ≤ u32Max ∧ items = result := by
  unfold vecTryInto
  split_ifs with fits <;> simp [fits]

def symbolFromStr (c : Crates) (s : String) : Result ScSymbol :=
  okOr (c.stringFromStr 32 s) s!"symbol `{s}` is invalid or too long"

def stringFromStr (c : Crates) (s : String) (message : String) : Result ScString :=
  okOr (c.stringFromStr u32Max s) message

def stripPrefix (affix s : String) : Option String :=
  if affix.toList.isPrefixOf s.toList then some (.ofList (s.toList.drop affix.toList.length)) else none

def bytesFromJson (c : Crates) : Value → Result (List UInt8)
  | .string s =>
    (c.hexDecode ((stripPrefix "0x" s).getD s)).mapError fun e => s!"invalid hex bytes: {e}"
  | .array items =>
    items.mapM fun x => okOr (x.asU64.bind u8TryFrom) "byte array elements must be integers 0-255"
  | _ => .error "expected a hex string (optionally 0x-prefixed) or an array of byte values"

def addressFromStr (c : Crates) (s : String) : Result ScAddress :=
  match c.publicKeyFromString s with
  | some key => .ok (.account key)
  | none =>
    match c.contractFromString s with
    | some id => .ok (.contract id)
    | none => .error s!"invalid address `{s}`: expected a G... account or C... contract strkey"

def jsonKeyToScval (c : Crates) (key : String) : ScSpecTypeDef → Result ScVal
  | .symbol => (symbolFromStr c key).map .symbol
  | .string => (stringFromStr c key "map key string too long").map .string
  | .address | .muxedAddress => (addressFromStr c key).map .address
  | .bool => (okOr (parseBool key) s!"invalid boolean map key `{key}`").map .bool
  | .u32 => ((parseU32 key).mapError fun _ => s!"invalid u32 map key `{key}`").map .u32
  | .i32 => ((parseI32 key).mapError fun _ => s!"invalid i32 map key `{key}`").map .i32
  | .u64 => ((parseU64 key).mapError fun _ => s!"invalid u64 map key `{key}`").map .u64
  | .i64 => ((parseI64 key).mapError fun _ => s!"invalid i64 map key `{key}`").map .i64
  | other =>
    let other := c.debugTypeDef other
    .error s!"map keys of type {other} must be supplied via a whole-argument \x7b\"__xdr\": ...\x7d map"

/-- The case table lookup that both kinds of enum make for a name. -/
def findCase (cases : List ScSpecUdtEnumCaseV0) (name : String) : Option ScSpecUdtEnumCaseV0 :=
  cases.find? fun c => c.name.toUtf8StringLossy == name

def enumToScval (e : ScSpecUdtEnumV0) (value : Value) : Result ScVal :=
  let name := e.name.toUtf8StringLossy
  match value.asU64 with
  | some n => do
    let n ← okOr (u32TryFrom n) "enum value out of range"
    if e.cases.any fun c => c.value == n then .ok (.u32 n)
    else .error s!"enum `{name}` has no case with value {n}"
  | none =>
    match value.asStr with
    | some s => do
      let case ← okOr (findCase e.cases s) s!"enum `{name}` has no case `{s}`"
      .ok (.u32 case.value)
    | none => .error s!"expected a case name string or integer for enum `{name}`"

/-- Unlike an enum, an error enum takes every number. -/
def errorEnumToScval (e : ScSpecUdtErrorEnumV0) (value : Value) : Result ScVal :=
  let name := e.name.toUtf8StringLossy
  match value.asU64 with
  | some n => do
    let n ← okOr (u32TryFrom n) "error enum value out of range"
    .ok (.u32 n)
  | none =>
    match value.asStr with
    | some s => do
      let case ← okOr (findCase e.cases s) s!"error enum `{name}` has no case `{s}`"
      .ok (.u32 case.value)
    | none => .error s!"expected a case name string or integer for error enum `{name}`"

/-- The fields are named 0, 1, 2, and so on. -/
def ScSpecUdtStructV0.isTupleStruct (s : ScSpecUdtStructV0) : Bool :=
  s.fields.zipIdx.all fun (f, i) => f.name.toUtf8StringLossy == toString i

/-- The case name and arguments that a union value spells, guessed from its shape. -/
def unionForm : Value → Option (String × List Value)
  | .string s => some (s, [])
  | .object [(k, v)] =>
    match v with
    | .array items => some (k, items)
    | .null => some (k, [])
    | other => some (k, [other])
  | _ => none

theorem sizeOf_lt_of_unionForm {value x : Value} {name : String} {args : List Value}
    (form : unionForm value = some (name, args)) (member : x ∈ args) : sizeOf x < sizeOf value := by
  unfold unionForm at form
  split at form
  · simp only [Option.some.injEq, Prod.mk.injEq] at form
    simp [← form.2] at member
  · rename_i k v
    have inner := Value.sizeOf_lt_of_member (List.mem_singleton_self (k, v))
    split at form <;> simp only [Option.some.injEq, Prod.mk.injEq] at form <;> rw [← form.2] at member
    · exact (Value.sizeOf_lt_of_item member).trans inner
    · simp at member
    · rwa [List.mem_singleton.mp member]
  · cases form

mutual
def jsonToScval (c : Crates) (spec : ContractSpec) (value : Value) (ty : ScSpecTypeDef) : Result ScVal :=
  match value.get "__xdr" with
  | some x => (c.scvalFromValue x).mapError fun e => s!"invalid `__xdr` escape-hatch value: {e}"
  | none =>
  match ty with
  | .val => .error "`val` args must be supplied via \x7b\"__xdr\": ...\x7d"
  | .bool => (okOr value.asBool "expected a boolean").map .bool
  | .void => .ok .void
  | .error => .error "`error` values cannot be supplied as arguments"
  | .u32 => do return .u32 (← okOr (u32TryFrom (← asU64 value)) "u32 value out of range")
  | .i32 => do return .i32 (← okOr (i32TryFrom (← asI64 value)) "i32 value out of range")
  | .u64 => (asU64 value).map .u64
  | .i64 => (asI64 value).map .i64
  | .timepoint => (asU64 value).map .timepoint
  | .duration => (asU64 value).map .duration
  | .u128 => (asU128 value).map fun n => .u128 (u128ToParts n)
  | .i128 => (asI128 value).map fun n => .i128 (i128ToParts n)
  | .u256 => .error "u256 args must be supplied via \x7b\"__xdr\": ...\x7d"
  | .i256 => .error "i256 args must be supplied via \x7b\"__xdr\": ...\x7d"
  | .bytes => do
    let bytes ← bytesFromJson c value
    return .bytes (← okOr (BytesM.tryFrom u32Max bytes) "bytes value too long")
  | .string => do
    let s ← okOr value.asStr "expected a string"
    return .string (← stringFromStr c s "string value too long")
  | .symbol => do
    let s ← okOr value.asStr "expected a string for symbol"
    return .symbol (← symbolFromStr c s)
  | .address | .muxedAddress => do
    let s ← okOr value.asStr "expected an address string"
    return .address (← addressFromStr c s)
  | .option valueType => if value.isNull then .ok .void else jsonToScval c spec value valueType
  | .result _ _ => .error "result-typed args must be supplied via \x7b\"__xdr\": ...\x7d"
  | .vec elementType =>
    match value with
    | .array items => do
      let items ← items.mapM fun x => jsonToScval c spec x elementType
      return .vec (some (← vecTryInto items "vec value too long"))
    | _ => .error "expected an array"
  | .map keyType valueType =>
    match value with
    | .object members => do
      let entries ← members.mapM fun member => do
        let key ← jsonKeyToScval c member.1 keyType
        let val ← jsonToScval c spec member.2 valueType
        return MapEntry.mk key val
      return .map (some (← vecTryInto (sortByKey entries) "map value too large"))
    | _ => .error "expected an object for a map argument"
  | .tuple valueTypes =>
    match value with
    | .array items => do
      let expected := valueTypes.length
      let got := items.length
      if got ≠ expected then .error s!"tuple arity mismatch: expected {expected} element(s), got {got}"
      else
        let items ← (items.zip valueTypes).attach.mapM fun x => jsonToScval c spec x.val.1 x.val.2
        return .vec (some (← vecTryInto items "tuple value too long"))
    | _ => .error "expected an array for a tuple argument"
  | .bytesN n => do
    let bytes ← bytesFromJson c value
    let got := bytes.length
    if got ≠ n.toNat then .error s!"expected exactly {n} byte(s), got {got}"
    else return .bytes (← okOr (BytesM.tryFrom u32Max bytes) "bytesN conversion failed")
  | .udt name => udtToScval c name.toUtf8StringLossy value spec
termination_by (sizeOf value, sizeOf ty, 0)
decreasing_by
  · exact .right _ (.left _ _ (by simp))
  · exact .left _ _ (Value.sizeOf_lt_of_item ‹_›)
  · exact .left _ _ (Value.sizeOf_lt_of_member ‹_›)
  · exact .left _ _ (Value.sizeOf_lt_of_item (List.of_mem_zip x.property).1)
  · exact .right _ (.left _ _ (by simp))

def udtToScval (c : Crates) (name : String) (value : Value) (spec : ContractSpec) : Result ScVal :=
  match spec.structs.get name with
  | some s => structToScval c s value spec
  | none =>
  match spec.unions.get name with
  | some _ => unionToScval c name value spec
  | none =>
  match spec.enums.get name with
  | some e => enumToScval e value
  | none =>
  match spec.errorEnums.get name with
  | some e => errorEnumToScval e value
  | none => .error s!"contract spec does not define user-defined type `{name}`"
termination_by (sizeOf value, 0, 1)
decreasing_by
  · exact .right _ (.right _ (by decide))
  · exact .right _ (.right _ (by decide))

def structToScval (c : Crates) (s : ScSpecUdtStructV0) (value : Value) (spec : ContractSpec) :
    Result ScVal :=
  let name := s.name.toUtf8StringLossy
  let expected := s.fields.length
  if s.isTupleStruct ∧ s.fields ≠ [] then
    match value with
    | .array items => do
      let got := items.length
      if got ≠ expected then .error s!"struct `{name}` expects {expected} field(s), got {got}"
      else
        let items ← (items.zip s.fields).attach.mapM fun x => jsonToScval c spec x.val.1 x.val.2.type
        return .vec (some (← vecTryInto items s!"struct `{name}` has too many fields"))
    | _ => .error s!"expected an array for tuple struct `{name}`"
  else
    match value with
    | .object members => do
      let entries ← s.fields.mapM fun f =>
        let fname := f.name.toUtf8StringLossy
        match _found : Entries.find fname members with
        | some fv => do
          let key ← symbolFromStr c fname
          let val ← jsonToScval c spec fv f.type
          return MapEntry.mk (.symbol key) val
        | none => .error s!"struct `{name}` is missing field `{fname}`"
      return .map (some (← vecTryInto (sortByKey entries) s!"struct `{name}` has too many fields"))
    | _ => .error s!"expected an object for struct `{name}`"
termination_by (sizeOf value, 0, 0)
decreasing_by
  · exact .left _ _ (Value.sizeOf_lt_of_item (List.of_mem_zip x.property).1)
  · exact .left _ _ (Value.sizeOf_lt_of_find _found)

def unionToScval (c : Crates) (unionName : String) (value : Value) (spec : ContractSpec) :
    Result ScVal :=
  match _form : unionForm value with
  | none =>
    .error (s!"expected a case name string, or a single-key object of \x7b\"CaseName\": [args...]\x7d, " ++
      s!"for union `{unionName}`")
  | some (caseName, args) => do
    let case ← okOr (spec.unionCase unionName caseName) s!"union `{unionName}` has no case `{caseName}`"
    let symbol ← symbolFromStr c caseName
    let got := args.length
    let items ← match case with
      | .voidV0 _ _ =>
        if args ≠ [] then .error s!"case `{caseName}` of union `{unionName}` takes no arguments"
        else .ok []
      | .tupleV0 _ _ type =>
        let expected := type.length
        if got ≠ expected then
          .error s!"case `{caseName}` of union `{unionName}` expects {expected} argument(s), got {got}"
        else (args.zip type).attach.mapM fun x => jsonToScval c spec x.val.1 x.val.2
    return .vec (some (← vecTryInto (ScVal.symbol symbol :: items) "union value too large"))
termination_by (sizeOf value, 0, 0)
decreasing_by
  exact .left _ _ (sizeOf_lt_of_unionForm _form (List.of_mem_zip x.property).1)
end

end SorobanProxy
