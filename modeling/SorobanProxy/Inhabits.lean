import SorobanProxy.Conversion
import Mathlib.Logic.Relation

/-! What the conversion is for: which contract values have a type under a spec. This says
nothing of JSON or of how a value is found. -/
namespace SorobanProxy

open Library

def ScAddress.AccountOrContract : ScAddress → Prop
  | .account _ | .contract _ => True
  | _ => False

/-- The values of the types that have no parts and no name. -/
inductive LeafInhabits : ScSpecTypeDef → ScVal → Prop where
  | bool (b : Bool) : LeafInhabits .bool (.bool b)
  | void : LeafInhabits .void .void
  | u32 (n : UInt32) : LeafInhabits .u32 (.u32 n)
  | i32 (n : Int32) : LeafInhabits .i32 (.i32 n)
  | u64 (n : UInt64) : LeafInhabits .u64 (.u64 n)
  | i64 (n : Int64) : LeafInhabits .i64 (.i64 n)
  | timepoint (n : UInt64) : LeafInhabits .timepoint (.timepoint n)
  | duration (n : UInt64) : LeafInhabits .duration (.duration n)
  | u128 (parts : UInt128Parts) : LeafInhabits .u128 (.u128 parts)
  | i128 (parts : Int128Parts) : LeafInhabits .i128 (.i128 parts)
  | bytes (b : ScBytes) : LeafInhabits .bytes (.bytes b)
  | bytesN (b : ScBytes) : b.bytes.length = n.toNat → LeafInhabits (.bytesN n) (.bytes b)
  | string (s : ScString) : LeafInhabits .string (.string s)
  | symbol (s : ScSymbol) : LeafInhabits .symbol (.symbol s)
  | address : a.AccountOrContract → LeafInhabits .address (.address a)
  | muxedAddress : a.AccountOrContract → LeafInhabits .muxedAddress (.address a)

/-- `v` is a value of the type. `sym` says which symbol stands for the name of a struct
field or of a union case. -/
inductive Inhabits (spec : ContractSpec) (sym : List UInt8 → ScSymbol → Prop) :
    ScSpecTypeDef → ScVal → Prop where
  | leaf : LeafInhabits ty v → Inhabits spec sym ty v
  | none : Inhabits spec sym (.option ty) .void
  | some : Inhabits spec sym ty v → Inhabits spec sym (.option ty) v
  | vec : (∀ x ∈ items, Inhabits spec sym ty x) → items.length ≤ u32Max →
      Inhabits spec sym (.vec ty) (.vec (some items))
  | tuple : items.length = types.length → (∀ p ∈ items.zip types, Inhabits spec sym p.2 p.1) →
      items.length ≤ u32Max → Inhabits spec sym (.tuple types) (.vec (some items))
  | map : (∀ e ∈ entries, Inhabits spec sym keyType e.key) →
      (∀ e ∈ entries, Inhabits spec sym valueType e.val) →
      entries.Pairwise (fun a b => a.key ≤ b.key) → entries.length ≤ u32Max →
      Inhabits spec sym (.map keyType valueType) (.map (some entries))
  | positional : spec.resolve (StringM.toUtf8StringLossy name) = some (.struct s) → s.Positional →
      items.length = s.fields.length → (∀ p ∈ items.zip s.fields, Inhabits spec sym p.2.type p.1) →
      items.length ≤ u32Max → Inhabits spec sym (.udt name) (.vec (some items))
  | named : spec.resolve (StringM.toUtf8StringLossy name) = some (.struct s) → ¬s.Positional →
      declared.length = s.fields.length →
      (∀ p ∈ declared.zip s.fields, ∃ symbol, sym p.2.name.bytes symbol ∧ p.1.key = .symbol symbol) →
      (∀ p ∈ declared.zip s.fields, Inhabits spec sym p.2.type p.1.val) →
      entries.Perm declared → entries.Pairwise (fun a b => a.key ≤ b.key) → entries.length ≤ u32Max →
      Inhabits spec sym (.udt name) (.map (some entries))
  | union : spec.resolve (StringM.toUtf8StringLossy name) = some (.union u) → case ∈ u.cases →
      sym case.name.bytes symbol → args.length = case.types.length →
      (∀ p ∈ args.zip case.types, Inhabits spec sym p.2 p.1) → args.length + 1 ≤ u32Max →
      Inhabits spec sym (.udt name) (.vec (some (.symbol symbol :: args)))
  | enum : spec.resolve (StringM.toUtf8StringLossy name) = some (.enum e) → case ∈ e.cases →
      Inhabits spec sym (.udt name) (.u32 case.value)
  | errorEnum (n : UInt32) : spec.resolve (StringM.toUtf8StringLossy name) = some (.errorEnum e) →
      Inhabits spec sym (.udt name) (.u32 n)

/-- The types whose conversion calls the conversion again. -/
def ScSpecTypeDef.Composite : ScSpecTypeDef → Prop
  | .option _ | .vec _ | .map _ _ | .tuple _ | .udt _ => True
  | _ => False

theorem Inhabits.toLeaf {spec : ContractSpec} {sym : List UInt8 → ScSymbol → Prop} {ty : ScSpecTypeDef}
    {v : ScVal} (typed : Inhabits spec sym ty v) (simple : ¬ty.Composite) : LeafInhabits ty v := by
  cases typed with
  | leaf leaf => exact leaf
  | _ => exact absurd trivial simple

/-- The symbol has the bytes of the name. -/
def verbatim (name : List UInt8) (symbol : ScSymbol) : Prop := symbol.bytes = name

/-- The symbol is what the parser reads in the name's text. -/
def parsed (c : Crates) (name : List UInt8) (symbol : ScSymbol) : Prop :=
  c.stringFromStr 32 (fromUtf8Lossy name) = some symbol

/-- The bytes of a name that a resolved type declares. -/
inductive ContractSpec.Declares (spec : ContractSpec) : List UInt8 → Prop where
  | field : spec.resolve name = some (.struct s) → f ∈ s.fields → Declares spec f.name.bytes
  | case : spec.resolve name = some (.union u) → case ∈ u.cases → Declares spec case.name.bytes

theorem Inhabits.mono {spec : ContractSpec} {weak strong : List UInt8 → ScSymbol → Prop}
    {ty : ScSpecTypeDef} {v : ScVal} (typed : Inhabits spec strong ty v)
    (weaker : ∀ name symbol, spec.Declares name → strong name symbol → weak name symbol) :
    Inhabits spec weak ty v := by
  induction typed with
  | leaf leaf => exact .leaf leaf
  | none => exact .none
  | some _ ih => exact .some ih
  | vec _ fits ih => exact .vec ih fits
  | tuple arity _ fits ih => exact .tuple arity ih fits
  | map _ _ sorted fits keys vals => exact .map keys vals sorted fits
  | positional found positional arity _ fits ih => exact .positional found positional arity ih fits
  | named found named arity keys _ same sorted fits ih =>
    refine .named found named arity (fun p member => ?_) ih same sorted fits
    obtain ⟨symbol,spelled,key⟩ := keys p member
    exact ⟨symbol,weaker _ _ (.field found (List.of_mem_zip member).2) spelled,key⟩
  | union found declared spelled arity _ fits ih =>
    exact .union found declared (weaker _ _ (.case found declared) spelled) arity ih fits
  | enum found declared => exact .enum found declared
  | errorEnum n found => exact .errorEnum n found

/-- `part` is named directly in the definition of the other type. -/
inductive Component (spec : ContractSpec) : ScSpecTypeDef → ScSpecTypeDef → Prop where
  | option : Component spec (.option part) part
  | ok : Component spec (.result part errorType) part
  | error : Component spec (.result okType part) part
  | vec : Component spec (.vec part) part
  | key : Component spec (.map part valueType) part
  | value : Component spec (.map keyType part) part
  | tuple : part ∈ types → Component spec (.tuple types) part
  | field : spec.resolve (StringM.toUtf8StringLossy name) = some (.struct s) → f ∈ s.fields →
      Component spec (.udt name) f.type
  | case : spec.resolve (StringM.toUtf8StringLossy name) = some (.union u) → case ∈ u.cases →
      part ∈ case.types → Component spec (.udt name) part

/-- Every type reachable from `ty`, itself included, is in the fragment. -/
def Fragment (spec : ContractSpec) (P : ScSpecTypeDef → Prop) (ty : ScSpecTypeDef) : Prop :=
  ∀ part, Relation.ReflTransGen (Component spec) ty part → P part

namespace Fragment

variable {spec : ContractSpec} {P : ScSpecTypeDef → Prop} {ty part : ScSpecTypeDef}

theorem self (inside : Fragment spec P ty) : P ty := inside ty .refl

theorem intro (here : P ty) (parts : ∀ part, Component spec ty part → Fragment spec P part) :
    Fragment spec P ty := by
  intro part reached
  rcases reached.cases_head with rfl | ⟨next,direct,reached⟩
  · exact here
  · exact parts next direct part reached

theorem component (inside : Fragment spec P ty) (direct : Component spec ty part) :
    Fragment spec P part := fun other reached => inside other (.head direct reached)

end Fragment

/-- Struct fields have different names. -/
def ContractSpec.DistinctFields (spec : ContractSpec) : Prop :=
  ∀ name s, spec.resolve name = some (.struct s) → (s.fields.map (·.name.bytes)).Nodup

/-- Bytes that are text, and text that is kept as it is. -/
def PlainBytes (bytes : List UInt8) : Prop := IsUtf8 bytes ∧ Plain (fromUtf8Lossy bytes)

instance (bytes : List UInt8) : Decidable (PlainBytes bytes) := inferInstanceAs (Decidable (_ ∧ _))

theorem parsed_iff_verbatim {c : Crates} (text : c.TextLaw) {name : List UInt8} (plain : PlainBytes name)
    {symbol : ScSymbol} : parsed c name symbol ↔ verbatim name symbol := by
  rw [parsed,text.some_iff plain.2,verbatim,plain.1]

/-- A string or symbol whose bytes have the property. -/
def ScVal.TextHas (P : List UInt8 → Prop) : ScVal → Prop
  | .string s => P s.bytes
  | .symbol s => P s.bytes
  | _ => True

/-- Every string and symbol inside `v` is UTF-8. -/
def ScVal.Utf8Text (v : ScVal) : Prop := v.Everywhere (TextHas IsUtf8)

/-- Every string and symbol inside `v` is UTF-8 without a backslash. -/
def ScVal.PlainText (v : ScVal) : Prop := v.Everywhere (TextHas PlainBytes)

/-- A map with no string or symbol `text` among its keys. -/
def ScVal.KeysAvoid (text : String) : ScVal → Prop
  | .map (some entries) => ∀ e ∈ entries, e.key.TextHas fun bytes => fromUtf8Lossy bytes ≠ text
  | _ => True

/-- No map inside `v` has the escape hatch's name for a key. -/
def ScVal.AvoidsHatch (v : ScVal) : Prop := v.Everywhere (KeysAvoid "__xdr")

end SorobanProxy
