import SorobanProxy.Conversion
import SorobanProxy.Library.Recursion

/-! The conversion always returns. Its four functions call each other through the spec's
tables, where a type may mention itself, so types do not shrink along the calls, and an
option keeps the JSON value: the two shrink together. -/
namespace SorobanProxy

open Library
open Library.Recursion (AsksOnly unfold)

/-- `x` stands directly inside `v`. -/
inductive Value.Part : Value → Value → Prop where
  | item : x ∈ items → Part x (.array items)
  | member : (key, x) ∈ members → Part x (.object members)

/-- A type written directly inside another, with no name looked up. -/
inductive ScSpecTypeDef.Part : ScSpecTypeDef → ScSpecTypeDef → Prop where
  | option : Part ty (.option ty)
  | ok : Part ty (.result ty errorType)
  | error : Part ty (.result okType ty)
  | vec : Part ty (.vec ty)
  | key : Part ty (.map ty valueType)
  | value : Part ty (.map keyType ty)
  | tuple : ty ∈ types → Part ty (.tuple types)

/-- A strict sub-value. -/
abbrev Value.StrictPart : Value → Value → Prop := Relation.TransGen Value.Part

/-- A strict sub-term. -/
abbrev ScSpecTypeDef.StrictPart : ScSpecTypeDef → ScSpecTypeDef → Prop := Relation.TransGen ScSpecTypeDef.Part

/-- A call of one of the four functions, without the spec that they all share. -/
inductive ConversionCall where
  | json (value : Value) (ty : ScSpecTypeDef)
  | udt (name : String) (value : Value)
  | struct (s : ScSpecUdtStructV0) (value : Value)
  | union (name : String) (value : Value)

namespace ConversionCall

def value : ConversionCall → Value
  | .json value _ | .udt _ value | .struct _ value | .union _ value => value

/-- The calls that a call can make. -/
def callees (spec : ContractSpec) : ConversionCall → List ConversionCall
  | .json value ty =>
    match ty with
    | .option valueType => if value.isNull then [] else [.json value valueType]
    | .vec elementType =>
      match value with
      | .array items => items.map (.json · elementType)
      | _ => []
    | .map _ valueType =>
      match value with
      | .object members => members.map fun member => .json member.2 valueType
      | _ => []
    | .tuple valueTypes =>
      match value with
      | .array items => (items.zip valueTypes).map fun x => .json x.1 x.2
      | _ => []
    | .udt name => [.udt name.toUtf8StringLossy value]
    | _ => []
  | .udt name value =>
    match spec.structs.get name with
    | some s => [.struct s value]
    | none => if (spec.unions.get name).isSome then [.union name value] else []
  | .struct s value =>
    if s.isTupleStruct ∧ s.fields ≠ [] then
      match value with
      | .array items => (items.zip s.fields).map fun x => .json x.1 x.2.type
      | _ => []
    else
      match value with
      | .object members =>
        s.fields.filterMap fun f => (Entries.find f.name.toUtf8StringLossy members).map (.json · f.type)
      | _ => []
  | .union name value =>
    match unionForm value with
    | some (caseName, args) =>
      match spec.unionCase name caseName with
      | some case => (args.zip case.types).map fun x => .json x.1 x.2
      | none => []
    | none => []

/-- The answer to a call. -/
def answer (c : Crates) (spec : ContractSpec) : ConversionCall → Result ScVal
  | .json value ty => jsonToScval c spec value ty
  | .udt name value => udtToScval c name value spec
  | .struct s value => structToScval c s value spec
  | .union name value => unionToScval c name value spec

/-- The four functions with their calls of each other left open. -/
def body (c : Crates) (spec : ContractSpec) (recurse : ConversionCall → Result ScVal) : ConversionCall → Result ScVal
  | .json value ty =>
    match value.get "__xdr" with
    | some x => (c.scvalFromValue x).mapError fun e => s!"invalid `__xdr` escape-hatch value: {e}"
    | none =>
    match ty with
    | .val => .error "`val` args must be supplied via \x7b\"__xdr\": ...\x7d"
    | .bool => (okOr value.asBool "expected a boolean").map .bool
    | .void => .ok .void
    | .error => .error "`error` values cannot be supplied as arguments"
    | .u32 => do return .u32 (← okOr (u32TryFrom (← asU64 value)) "u32 value out of range")
    | .i32 => do return .i32 (← okOr (i32TryFrom (← asI64 value)) "i32 value out of range")
    | .u64 => (asU64 value).map .u64
    | .i64 => (asI64 value).map .i64
    | .timepoint => (asU64 value).map .timepoint
    | .duration => (asU64 value).map .duration
    | .u128 => (asU128 value).map fun n => .u128 (u128ToParts n)
    | .i128 => (asI128 value).map fun n => .i128 (i128ToParts n)
    | .u256 => .error "u256 args must be supplied via \x7b\"__xdr\": ...\x7d"
    | .i256 => .error "i256 args must be supplied via \x7b\"__xdr\": ...\x7d"
    | .bytes => do
      let bytes ← bytesFromJson c value
      return .bytes (← okOr (BytesM.tryFrom u32Max bytes) "bytes value too long")
    | .string => do
      let s ← okOr value.asStr "expected a string"
      return .string (← stringFromStr c s "string value too long")
    | .symbol => do
      let s ← okOr value.asStr "expected a string for symbol"
      return .symbol (← symbolFromStr c s)
    | .address | .muxedAddress => do
      let s ← okOr value.asStr "expected an address string"
      return .address (← addressFromStr c s)
    | .option valueType => if value.isNull then .ok .void else recurse (.json value valueType)
    | .result _ _ => .error "result-typed args must be supplied via \x7b\"__xdr\": ...\x7d"
    | .vec elementType =>
      match value with
      | .array items => do
        let items ← items.mapM fun x => recurse (.json x elementType)
        return .vec (some (← vecTryInto items "vec value too long"))
      | _ => .error "expected an array"
    | .map keyType valueType =>
      match value with
      | .object members => do
        let entries ← members.mapM fun member => do
          let key ← jsonKeyToScval c member.1 keyType
          let val ← recurse (.json member.2 valueType)
          return MapEntry.mk key val
        return .map (some (← vecTryInto (sortByKey entries) "map value too large"))
      | _ => .error "expected an object for a map argument"
    | .tuple valueTypes =>
      match value with
      | .array items => do
        let expected := valueTypes.length
        let got := items.length
        if got ≠ expected then .error s!"tuple arity mismatch: expected {expected} element(s), got {got}"
        else
          let items ← (items.zip valueTypes).mapM fun x => recurse (.json x.1 x.2)
          return .vec (some (← vecTryInto items "tuple value too long"))
      | _ => .error "expected an array for a tuple argument"
    | .bytesN n => do
      let bytes ← bytesFromJson c value
      let got := bytes.length
      if got ≠ n.toNat then .error s!"expected exactly {n} byte(s), got {got}"
      else return .bytes (← okOr (BytesM.tryFrom u32Max bytes) "bytesN conversion failed")
    | .udt name => recurse (.udt name.toUtf8StringLossy value)
  | .udt name value =>
    match spec.structs.get name with
    | some s => recurse (.struct s value)
    | none =>
    match spec.unions.get name with
    | some _ => recurse (.union name value)
    | none =>
    match spec.enums.get name with
    | some e => enumToScval e value
    | none =>
    match spec.errorEnums.get name with
    | some e => errorEnumToScval e value
    | none => .error s!"contract spec does not define user-defined type `{name}`"
  | .struct s value =>
    let name := s.name.toUtf8StringLossy
    let expected := s.fields.length
    if s.isTupleStruct ∧ s.fields ≠ [] then
      match value with
      | .array items => do
        let got := items.length
        if got ≠ expected then .error s!"struct `{name}` expects {expected} field(s), got {got}"
        else
          let items ← (items.zip s.fields).mapM fun x => recurse (.json x.1 x.2.type)
          return .vec (some (← vecTryInto items s!"struct `{name}` has too many fields"))
      | _ => .error s!"expected an array for tuple struct `{name}`"
    else
      match value with
      | .object members => do
        let entries ← s.fields.mapM fun f =>
          let fname := f.name.toUtf8StringLossy
          match Entries.find fname members with
          | some fv => do
            let key ← symbolFromStr c fname
            let val ← recurse (.json fv f.type)
            return MapEntry.mk (.symbol key) val
          | none => .error s!"struct `{name}` is missing field `{fname}`"
        return .map (some (← vecTryInto (sortByKey entries) s!"struct `{name}` has too many fields"))
      | _ => .error s!"expected an object for struct `{name}`"
  | .union unionName value =>
    match unionForm value with
    | none =>
      .error (s!"expected a case name string, or a single-key object of \x7b\"CaseName\": [args...]\x7d, " ++
        s!"for union `{unionName}`")
    | some (caseName, args) => do
      let case ← okOr (spec.unionCase unionName caseName) s!"union `{unionName}` has no case `{caseName}`"
      let symbol ← symbolFromStr c caseName
      let got := args.length
      let items ← match case with
        | .voidV0 _ _ =>
          if args ≠ [] then .error s!"case `{caseName}` of union `{unionName}` takes no arguments"
          else .ok []
        | .tupleV0 _ _ type =>
          let expected := type.length
          if got ≠ expected then
            .error s!"case `{caseName}` of union `{unionName}` expects {expected} argument(s), got {got}"
          else (args.zip type).mapM fun x => recurse (.json x.1 x.2)
      return .vec (some (← vecTryInto (ScVal.symbol symbol :: items) "union value too large"))

end ConversionCall

variable {c : Crates} {spec : ContractSpec}

namespace ConversionCall

theorem answer_solves (call : ConversionCall) : answer c spec call = body c spec (answer c spec) call := by
  cases call with
  | json value ty =>
    rw [answer,jsonToScval.eq_def]
    simp only [mapM_attach (f := fun x : Value × ScSpecTypeDef => jsonToScval c spec x.1 x.2)]
    rfl
  | udt name value =>
    rw [answer,udtToScval]
    rfl
  | struct s value =>
    rw [answer,structToScval.eq_def]
    simp only [mapM_attach (f := fun x : Value × ScSpecUdtStructFieldV0 => jsonToScval c spec x.1 x.2.type)]
    rw [body.eq_def]
    dsimp only [answer]
    split_ifs with positional
    · rfl
    · cases value with
      | object members =>
        refine congrArg (fun entry => List.mapM entry s.fields >>= _) (funext fun f => ?_)
        split
        · rename_i found
          simp only [found]
        · rename_i missing
          simp only [missing]
      | _ => rfl
  | union name value =>
    rw [answer,unionToScval.eq_def,body]
    simp only [mapM_attach (f := fun x : Value × ScSpecTypeDef => jsonToScval c spec x.1 x.2)]
    split
    · rename_i form
      simp [form]
    · rename_i form
      simp only [form]
      rfl

section AsksOnly

variable {first second : ConversionCall → Result ScVal}

theorem json_asksOnly {value : Value} {ty : ScSpecTypeDef}
    (same : ∀ callee ∈ callees spec (.json value ty), first callee = second callee) :
    body c spec first (.json value ty) = body c spec second (.json value ty) := by
  simp only [body]
  split
  · rfl
  · cases ty with
    | option valueType =>
      simp only
      split_ifs with isNull
      · rfl
      · exact same _ (by simp [callees,isNull])
    | vec elementType =>
      cases value with
      | array items =>
        simp only
        rw [mapM_congr fun x member => same (.json x elementType) (List.mem_map_of_mem member)]
      | _ => rfl
    | map keyType valueType =>
      cases value with
      | object members =>
        simp only
        rw [mapM_congr fun member inside => by
          rw [same (.json member.2 valueType) (List.mem_map.mpr ⟨member,inside,rfl⟩)]]
      | _ => rfl
    | tuple valueTypes =>
      cases value with
      | array items =>
        simp only
        rw [mapM_congr fun x member => same (.json x.1 x.2) (List.mem_map.mpr ⟨x,member,rfl⟩)]
      | _ => rfl
    | udt name => exact same _ List.mem_cons_self
    | _ => rfl

theorem udt_asksOnly {name : String} {value : Value}
    (same : ∀ callee ∈ callees spec (.udt name value), first callee = second callee) :
    body c spec first (.udt name value) = body c spec second (.udt name value) := by
  simp only [body]
  cases structs : spec.structs.get name with
  | some s => exact same _ (by simp [callees,structs])
  | none =>
  cases unions : spec.unions.get name with
  | some u => exact same _ (by simp [callees,structs,unions])
  | none => rfl

theorem struct_asksOnly {s : ScSpecUdtStructV0} {value : Value}
    (same : ∀ callee ∈ callees spec (.struct s value), first callee = second callee) :
    body c spec first (.struct s value) = body c spec second (.struct s value) := by
  rw [body.eq_def,body.eq_def]
  dsimp only
  split_ifs with positional
  · cases value with
    | array items =>
      have called (x) (member : x ∈ items.zip s.fields) :
          .json x.1 x.2.type ∈ callees spec (.struct s (.array items)) := by
        simp only [callees, if_pos positional]
        exact List.mem_map.mpr ⟨x,member,rfl⟩
      simp only
      rw [mapM_congr fun x member => same _ (called x member)]
    | _ => rfl
  · cases value with
    | object members =>
      have called (f) (member : f ∈ s.fields) (x) (found : Entries.find f.name.toUtf8StringLossy members = some x) :
          .json x f.type ∈ callees spec (.struct s (.object members)) := by
        simp only [callees, if_neg positional]
        exact List.mem_filterMap.mpr ⟨f,member,by rw [found]; rfl⟩
      refine congrArg (fun entries => entries >>= _) (mapM_congr fun f member => ?_)
      cases found : Entries.find f.name.toUtf8StringLossy members with
      | none => rfl
      | some x =>
        simp only
        rw [same _ (called f member x found)]
    | _ => rfl

theorem union_asksOnly {name : String} {value : Value}
    (same : ∀ callee ∈ callees spec (.union name value), first callee = second callee) :
    body c spec first (.union name value) = body c spec second (.union name value) := by
  simp only [body]
  cases form : unionForm value with
  | none => rfl
  | some spelled =>
    obtain ⟨caseName,args⟩ := spelled
    simp only
    cases found : spec.unionCase name caseName with
    | none => rfl
    | some case =>
      cases case with
      | voidV0 => rfl
      | tupleV0 doc caseName' type =>
        have called (x) (member : x ∈ args.zip type) : .json x.1 x.2 ∈ callees spec (.union name value) := by
          simp only [callees, form, found]
          exact List.mem_map.mpr ⟨x,member,rfl⟩
        dsimp only [okOr, bind, Except.bind]
        rw [mapM_congr fun x member => same _ (called x member)]

end AsksOnly

theorem body_asksOnly : AsksOnly (body c spec) (callees spec) := by
  intro call first second same
  cases call with
  | json value ty => exact json_asksOnly same
  | udt name value => exact udt_asksOnly same
  | struct s value => exact struct_asksOnly same
  | union name value => exact union_asksOnly same

/-- One of two calls on one JSON value that the other leads to: the type shrinks, or a name
is replaced by what it stands for. -/
inductive Lower : ConversionCall → ConversionCall → Prop where
  | type : ty'.StrictPart ty → Lower (.json v ty') (.json v ty)
  | udt : Lower (.udt (StringM.toUtf8StringLossy name) v) (.json v (.udt name))
  | struct : Lower (.struct s v) (.udt name v)
  | union : Lower (.union name v) (.udt name v)

/-- The callee is given a strict sub-value, or the same value at a lower call. -/
def Falls (caller callee : ConversionCall) : Prop :=
  callee.value.StrictPart caller.value ∨
    callee.value = caller.value ∧ Relation.TransGen Lower callee caller

theorem Falls.trans {first second third : ConversionCall} (left : Falls first second) (right : Falls second third) :
    Falls first third := by
  rcases left with inside | ⟨same,lower⟩
  · rcases right with deeper | ⟨same',_⟩
    · exact .inl (deeper.trans inside)
    · exact .inl (same' ▸ inside)
  · rcases right with deeper | ⟨same',lower'⟩
    · exact .inl (same ▸ deeper)
    · exact .inr ⟨same'.trans same,lower'.trans lower⟩

theorem strictPart_of_unionForm {value x : Value} {caseName : String} {args : List Value}
    (form : unionForm value = some (caseName, args)) (member : x ∈ args) : x.StrictPart value := by
  unfold unionForm at form
  split at form
  · simp only [Option.some.injEq, Prod.mk.injEq] at form
    simp [← form.2] at member
  · rename_i k v
    have outer : Value.Part v (.object [(k, v)]) := .member List.mem_cons_self
    split at form <;> simp only [Option.some.injEq, Prod.mk.injEq] at form <;> rw [← form.2] at member
    · exact .head (.item member) (.single outer)
    · simp at member
    · rw [List.mem_singleton.mp member]
      exact .single outer
  · cases form

theorem callee_falls (caller callee : ConversionCall) (called : callee ∈ callees spec caller) :
    Falls caller callee := by
  cases caller with
  | json value ty =>
    cases ty with
    | option valueType =>
      simp only [callees] at called
      split_ifs at called with isNull
      · cases called
      · rw [List.mem_singleton.mp called]
        exact .inr ⟨rfl,.single (.type (.single .option))⟩
    | vec elementType =>
      cases value with
      | array items =>
        obtain ⟨x,member,rfl⟩ := List.mem_map.mp called
        exact .inl (.single (.item member))
      | _ => cases called
    | map keyType valueType =>
      cases value with
      | object members =>
        obtain ⟨x,member,rfl⟩ := List.mem_map.mp called
        exact .inl (.single (.member (show (x.1, x.2) ∈ members from member)))
      | _ => cases called
    | tuple valueTypes =>
      cases value with
      | array items =>
        obtain ⟨x,member,rfl⟩ := List.mem_map.mp called
        exact .inl (.single (.item (List.of_mem_zip member).1))
      | _ => cases called
    | udt name =>
      rw [List.mem_singleton.mp called]
      exact .inr ⟨rfl,.single .udt⟩
    | _ => cases called
  | udt name value =>
    simp only [callees] at called
    split at called
    · rw [List.mem_singleton.mp called]
      exact .inr ⟨rfl,.single .struct⟩
    · split_ifs at called
      · rw [List.mem_singleton.mp called]
        exact .inr ⟨rfl,.single .union⟩
      · cases called
  | struct s value =>
    simp only [callees] at called
    split_ifs at called
    · cases value with
      | array items =>
        obtain ⟨x,member,rfl⟩ := List.mem_map.mp called
        exact .inl (.single (.item (List.of_mem_zip member).1))
      | _ => cases called
    · cases value with
      | object members =>
        obtain ⟨f,_,read⟩ := List.mem_filterMap.mp called
        obtain ⟨x,found,rfl⟩ := Option.map_eq_some_iff.mp read
        exact .inl (.single (.member (Entries.mem_of_find found)))
      | _ => cases called
  | union name value =>
    simp only [callees] at called
    split at called
    · rename_i form
      split at called
      · obtain ⟨x,member,rfl⟩ := List.mem_map.mp called
        exact .inl (strictPart_of_unionForm form (List.of_mem_zip member).1)
      · cases called
    · cases called

/-- A rank for calls on one JSON value. -/
noncomputable def rank : ConversionCall → Nat
  | .json _ ty => sizeOf ty + 2
  | .udt _ _ => 2
  | .struct _ _ | .union _ _ => 1

theorem sizeOf_lt_of_typePart {ty ty' : ScSpecTypeDef} (part : ty'.Part ty) : sizeOf ty' < sizeOf ty := by
  cases part with
  | tuple member =>
    have := List.sizeOf_lt_of_mem member
    simp only [ScSpecTypeDef.tuple.sizeOf_spec]
    omega
  | _ => simp <;> omega

theorem sizeOf_lt_of_valuePart {v v' : Value} (part : v'.Part v) : sizeOf v' < sizeOf v := by
  cases part with
  | item member => exact Value.sizeOf_lt_of_item member
  | member member => exact Value.sizeOf_lt_of_member member

theorem sizeOf_lt_of_strictPart {α : Type} [SizeOf α] {R : α → α → Prop} (part : ∀ a b, R a b → sizeOf a < sizeOf b)
    {a b : α} (strict : Relation.TransGen R a b) : sizeOf a < sizeOf b := by
  induction strict with
  | single direct => exact part _ _ direct
  | tail _ direct ih => exact ih.trans (part _ _ direct)

theorem rank_lt_of_lower {caller callee : ConversionCall} (lower : Lower callee caller) :
    callee.rank < caller.rank := by
  cases lower with
  | type strict =>
    have := sizeOf_lt_of_strictPart (fun _ _ => sizeOf_lt_of_typePart) strict
    simp only [rank]
    omega
  | udt => simp [rank]
  | struct => simp [rank]
  | union => simp [rank]

theorem rank_lt_of_lowers {caller callee : ConversionCall} (lower : Relation.TransGen Lower callee caller) :
    callee.rank < caller.rank := by
  induction lower with
  | single direct => exact rank_lt_of_lower direct
  | tail _ direct ih => exact ih.trans (rank_lt_of_lower direct)

/-- No chain of calls goes on for ever. -/
theorem callees_descend (spec : ContractSpec) :
    WellFounded fun callee caller : ConversionCall => callee ∈ callees spec caller := by
  have order : WellFounded fun callee caller : ConversionCall =>
      Prod.Lex (· < ·) (· < ·) (sizeOf callee.value, callee.rank) (sizeOf caller.value, caller.rank) :=
    InvImage.wf (fun call : ConversionCall => (sizeOf call.value, call.rank)) (Prod.lex Nat.lt_wfRel Nat.lt_wfRel).wf
  refine Subrelation.wf (fun {callee caller} called => ?_) order
  rcases callee_falls caller callee called with inside | ⟨same,lower⟩
  · exact .left _ _ (sizeOf_lt_of_strictPart (fun _ _ => sizeOf_lt_of_valuePart) inside)
  · rw [same]
    exact .right _ (rank_lt_of_lowers lower)

/-- A chain of one or more calls. -/
abbrev LeadsTo (spec : ContractSpec) : ConversionCall → ConversionCall → Prop :=
  Relation.TransGen fun caller callee => callee ∈ callees spec caller

theorem leadsTo_falls {first last : ConversionCall} (chain : LeadsTo spec first last) : Falls first last :=
  Recursion.chain_le (R := Falls) (fun _ _ _ => Falls.trans)
    (fun caller callee called => callee_falls caller callee called) chain

/-- The order of the functions while the JSON value stays. -/
def stage : ConversionCall → Nat
  | .json _ _ => 2
  | .udt _ _ => 1
  | .struct _ _ | .union _ _ => 0

/-- A lower call is one of a later function, or both are of the first with a smaller type. -/
theorem lowers_cases {low high : ConversionCall} (lower : Relation.TransGen Lower low high) :
    low.stage < high.stage ∨
      ∃ v ty v' ty', high = .json v ty ∧ low = .json v' ty' ∧ ty'.StrictPart ty := by
  have one {a b : ConversionCall} (direct : Lower a b) : a.stage < b.stage ∨
      ∃ v ty v' ty', b = .json v ty ∧ a = .json v' ty' ∧ ty'.StrictPart ty := by
    cases direct with
    | type strict => exact .inr ⟨_,_,_,_,rfl,rfl,strict⟩
    | _ => exact .inl (by simp [stage])
  induction lower with
  | single direct => exact one direct
  | tail _ direct ih =>
    rcases one direct with later | ⟨v,ty,v',ty',rfl,rfl,strict⟩
    · rcases ih with later' | ⟨_,_,_,_,rfl,rfl,_⟩
      · exact .inl (later'.trans later)
      · exact .inl later
    · rcases ih with later' | ⟨_,_,_,_,same,rfl,strict'⟩
      · exact .inl later'
      · cases same
        exact .inr ⟨_,_,_,_,rfl,rfl,strict'.trans strict⟩

/-- Between two calls of the conversion the value shrinks, or it stays and the type shrinks. -/
theorem json_shrinks {value value' : Value} {ty ty' : ScSpecTypeDef}
    (chain : LeadsTo spec (.json value ty) (.json value' ty')) :
    value'.StrictPart value ∨ value' = value ∧ ty'.StrictPart ty := by
  rcases leadsTo_falls chain with inside | ⟨same,lower⟩
  · exact .inl inside
  · rcases lowers_cases lower with later | ⟨_,_,_,_,high,low,strict⟩
    · exact absurd later (by simp [stage])
    · cases high
      cases low
      exact .inr ⟨same,strict⟩

/-- Between two lookups of user types the value shrinks. -/
theorem udt_consumes {value value' : Value} {name name' : String}
    (chain : LeadsTo spec (.udt name value) (.udt name' value')) : value'.StrictPart value := by
  rcases leadsTo_falls chain with inside | ⟨_,lower⟩
  · exact inside
  · rcases lowers_cases lower with later | ⟨_,_,_,_,high,_⟩
    · exact absurd later (by simp [stage])
    · cases high

end ConversionCall

/-- Every call settles at some depth of recursion. A call asks for its callees alone, and no
chain of calls is infinite: each return to the conversion has a smaller value, or the same
value at a smaller type, and each return to a user type has a smaller value. -/
theorem conversion_terminates (c : Crates) (spec : ContractSpec) :
    (∀ call : ConversionCall, ∃ bound, ∀ depth, bound ≤ depth → ∀ start,
      unfold (ConversionCall.body c spec) start depth call = call.answer c spec) ∧
    AsksOnly (ConversionCall.body c spec) (ConversionCall.callees spec) ∧
    (WellFounded fun callee caller : ConversionCall => callee ∈ ConversionCall.callees spec caller) ∧
    (∀ value ty value' ty', ConversionCall.LeadsTo spec (.json value ty) (.json value' ty') →
      value'.StrictPart value ∨ value' = value ∧ ty'.StrictPart ty) ∧
    ∀ name value name' value', ConversionCall.LeadsTo spec (.udt name value) (.udt name' value') →
      value'.StrictPart value := by
  refine ⟨fun call => ?_,ConversionCall.body_asksOnly,ConversionCall.callees_descend spec,?_,?_⟩
  · exact Recursion.settles (ConversionCall.callees_descend spec) ConversionCall.body_asksOnly
      ConversionCall.answer_solves call
  · intro value ty value' ty' chain
    exact ConversionCall.json_shrinks chain
  · intro name value name' value' chain
    exact ConversionCall.udt_consumes chain

end SorobanProxy
