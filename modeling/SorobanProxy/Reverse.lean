import SorobanProxy.Readback
import SorobanProxy.Completeness

/-! Where encoding does not undo decoding: the renderer has no type to go by, and shows a
union as an array and a map without text keys as an array of pairs, while the encoder takes
neither for what it was. -/
namespace SorobanProxy

open Library

variable {c : Crates} {spec : ContractSpec} {sym : List UInt8 → ScSymbol → Prop} {v : ScVal}

/-- The rendered value, given back as an argument, is the value. -/
def ReadsBack (c : Crates) (spec : ContractSpec) (ty : ScSpecTypeDef) (v : ScVal) : Prop :=
  jsonToScval c spec (scvalToJson c v) ty = .ok v

section Unions

variable {name : StringM 60} {u : ScSpecUdtUnionV0}
  (found : spec.resolve name.toUtf8StringLossy = some (.union u)) (typed : Inhabits spec sym (.udt name) v)
include found typed

theorem union_rendered : ∃ items, scvalToJson c v = .array items := by
  cases typed with
  | leaf leaf => cases leaf
  | positional other => cases found.symm.trans other
  | named other => cases found.symm.trans other
  | union => exact ⟨_,scvalToJson_vec _⟩
  | enum other => cases found.symm.trans other
  | errorEnum n other => cases found.symm.trans other

/-- An array spells no case of a union, whatever the case and its arguments. -/
theorem union_rendered_refused : ∃ e, jsonToScval c spec (scvalToJson c v) (.udt name) = .error e := by
  obtain ⟨items,rendered⟩ := union_rendered (c := c) found typed
  have noHatch : (Value.array items).get "__xdr" = none := rfl
  have noForm : unionForm (.array items) = none := rfl
  rw [rendered,udt_eq noHatch,found]
  simp only
  rw [unionToScval.eq_def]
  exact ⟨_,rfl⟩

/-- No value of a union is read back, be its case void or not. -/
theorem union_not_readsBack (c : Crates) : ¬ReadsBack c spec (.udt name) v := by
  intro back
  obtain ⟨e,refused⟩ := union_rendered_refused (c := c) found typed
  cases refused.symm.trans back

end Unions

/-- The type and the first case of the sample union. -/
def sampleUnionType : ScSpecTypeDef := .udt sampleUnion.name

def sampleVoidCase : ScVal := .vec (some [.symbol ⟨[0x41],by decide⟩])

theorem sampleUnion_resolved : ContractSpec.resolve (.fromEntries [.udtUnionV0 sampleUnion])
    sampleUnion.name.toUtf8StringLossy = some (.union sampleUnion) := by rfl

theorem sampleVoidCase_typed :
    Inhabits (.fromEntries [.udtUnionV0 sampleUnion]) verbatim sampleUnionType sampleVoidCase :=
  .union sampleUnion_resolved List.mem_cons_self rfl rfl (by simp) (by decide)

theorem union_not_readsBack_void :
    ¬ReadsBack .reference (.fromEntries [.udtUnionV0 sampleUnion]) sampleUnionType sampleVoidCase :=
  union_not_readsBack sampleUnion_resolved sampleVoidCase_typed .reference

/-- The void case `A` is rendered as `["A"]`, and `"A"` is expected. -/
theorem union_readback_fails : ¬∀ (c : Crates) (spec : ContractSpec) (name : StringM 60) (u : ScSpecUdtUnionV0)
    (v : ScVal), c.TextLaw → c.StrkeyLaw → c.HexLaw →
    spec.resolve name.toUtf8StringLossy = some (.union u) → (u.cases.map (·.name.bytes)).Nodup →
    (∀ case ∈ u.cases, ∀ ty ∈ case.types, Fragment spec (·.UnionFree spec) ty) →
    Inhabits spec verbatim (.udt name) v → v.LegalMaps → v.PlainText → v.AvoidsHatch →
    ReadsBack c spec (.udt name) v := by
  intro always
  have atomic {P : ScVal → Prop} (whole : P sampleVoidCase) (symbol : P (.symbol ⟨[0x41],by decide⟩)) :
      sampleVoidCase.Everywhere P := by
    refine ScVal.Everywhere.vec_iff.mpr ⟨whole,?_⟩
    simpa using .atomic trivial symbol
  have back := always .reference (.fromEntries [.udtUnionV0 sampleUnion]) _ sampleUnion sampleVoidCase
    Crates.reference_text Crates.reference_strkey Crates.reference_hex sampleUnion_resolved (by decide) ?_
    sampleVoidCase_typed (atomic trivial trivial) (atomic trivial (show PlainBytes [0x41] by decide))
    (atomic trivial trivial)
  · obtain ⟨e,refused⟩ := union_rendered_refused (c := .reference) sampleUnion_resolved sampleVoidCase_typed
    cases refused.symm.trans back
  · intro case listed ty argument
    have number : ty = .u32 := by
      simp only [sampleUnion, List.mem_cons, List.not_mem_nil, or_false] at listed
      rcases listed with rfl | rfl <;> simp_all [ScSpecUdtUnionCaseV0.types]
    subst number
    exact .intro trivial (by rintro _ ⟨⟩)

/-- The key types that are spelled in a member name and rendered as something else. -/
def ScSpecTypeDef.KeyNotText : ScSpecTypeDef → Prop
  | .u32 | .i32 | .u64 | .i64 | .bool | .address => True
  | _ => False

theorem isTextKey_eq_false {keyType : ScSpecTypeDef} (other : keyType.KeyNotText) {key : ScVal}
    (typed : Inhabits spec sym keyType key) : isTextKey key = false := by
  have leaf := typed.toLeaf (by cases keyType <;> first | exact other.elim | exact id)
  cases leaf <;> first | rfl | exact other.elim

theorem emptyMap_readsBack (keyType valueType : ScSpecTypeDef) :
    ReadsBack c spec (.map keyType valueType) (.map (some [])) := by
  have rendered : scvalToJson c (.map (some [])) = .object [] := scvalToJson_map_text (by simp)
  rw [ReadsBack,rendered]
  refine (map_ok_iff rfl).mpr ⟨[],[],rfl,.nil,Nat.zero_le _,rfl⟩

/-- An array of pairs is no object. -/
theorem pairs_not_readsBack {keyType valueType : ScSpecTypeDef} {entries : List ScMapEntry}
    (other : ¬∀ e ∈ entries, isTextKey e.key) :
    ¬ReadsBack c spec (.map keyType valueType) (.map (some entries)) := by
  rw [ReadsBack,scvalToJson_map_pairs other]
  intro back
  obtain ⟨members,_,object,_⟩ := (map_ok_iff rfl).mp back
  cases object

/-- Of the values of such a type only the empty map is read back. -/
theorem map_readsBack_iff (c : Crates) {keyType valueType : ScSpecTypeDef} (other : keyType.KeyNotText)
    (typed : Inhabits spec sym (.map keyType valueType) v) :
    ReadsBack c spec (.map keyType valueType) v ↔ v = .map (some []) := by
  cases typed with
  | leaf leaf => cases leaf
  | @map entries _ _ keys =>
    constructor
    · intro back
      cases entries with
      | nil => rfl
      | cons e rest =>
        have here := isTextKey_eq_false other (keys e List.mem_cons_self)
        apply absurd back
        apply pairs_not_readsBack
        intro text
        rw [text e List.mem_cons_self] at here
        cases here
    · intro empty
      rw [empty]
      exact emptyMap_readsBack keyType valueType

/-- `{1: true}` as a `Map<U32, Bool>` -/
def sampleMap : ScVal := .map (some [⟨.u32 1,.bool true⟩])

theorem sampleMap_typed : Inhabits .empty verbatim (.map .u32 .bool) sampleMap :=
  .map (by simpa using .leaf (.u32 1)) (by simpa using .leaf (.bool true)) (by simp) (by decide)

theorem map_readsBack_iff_single :
    ReadsBack .reference .empty (.map .u32 .bool) sampleMap ↔ sampleMap = .map (some []) :=
  map_readsBack_iff .reference trivial sampleMap_typed

/-- It is rendered as `[[1, true]]`, and `{"1": true}` is expected. -/
theorem map_readback_fails : ¬∀ (c : Crates) (spec : ContractSpec) (keyType valueType : ScSpecTypeDef) (v : ScVal),
    c.TextLaw → c.StrkeyLaw → c.HexLaw → keyType.KeyNotText → Fragment spec (·.UnionFree spec) valueType →
    Inhabits spec verbatim (.map keyType valueType) v → v.LegalMaps → v.PlainText → v.AvoidsHatch →
    ReadsBack c spec (.map keyType valueType) v := by
  intro always
  have inside {P : ScVal → Prop} (whole : P sampleMap) (key : P (.u32 1)) (val : P (.bool true)) :
      sampleMap.Everywhere P := by
    refine ScVal.Everywhere.map_iff.mpr ⟨whole,?_⟩
    simpa using ⟨ScVal.Everywhere.atomic trivial key,.atomic trivial val⟩
  have back := always .reference .empty .u32 .bool sampleMap Crates.reference_text Crates.reference_strkey
    Crates.reference_hex trivial (.intro trivial (by rintro _ ⟨⟩)) sampleMap_typed
    (inside (show keysAscending _ by decide) trivial trivial) (inside trivial trivial trivial)
    (inside (by simp [sampleMap,ScVal.KeysAvoid,ScVal.TextHas]) trivial trivial)
  revert back
  apply pairs_not_readsBack
  simp [isTextKey]

end SorobanProxy
