import SorobanProxy.Readback
import SorobanProxy.Soundness

/-! Every value of a type that the friendly conversion covers has a JSON form without the
escape hatch. -/
namespace SorobanProxy

open Library

variable {c : Crates} {spec : ContractSpec} {v : ScVal} {ty : ScSpecTypeDef}

/-- The map key types that a member name can stand for. -/
def ScSpecTypeDef.NamesKeys : ScSpecTypeDef → Prop
  | .symbol | .string | .address | .muxedAddress | .bool | .u32 | .i32 | .u64 | .i64 => True
  | _ => False

/-- The types of the friendly conversion, as far as one type can tell. -/
def ScSpecTypeDef.Friendly (spec : ContractSpec) : ScSpecTypeDef → Prop
  | .val | .error | .u256 | .i256 | .result _ _ => False
  | .map keyType _ => keyType.NamesKeys
  | .udt name => spec.resolve name.toUtf8StringLossy ≠ none
  | _ => True

/-- Names are different within their type, and no case has the name of the escape hatch. -/
structure ContractSpec.DistinctNames (spec : ContractSpec) : Prop where
  fields : ∀ name s, spec.resolve name = some (.struct s) → (s.fields.map (·.name.bytes)).Nodup
  cases : ∀ name u, spec.resolve name = some (.union u) →
    (u.cases.map (·.name.toUtf8StringLossy)).Nodup
  noHatch : ∀ name u, spec.resolve name = some (.union u) →
    ∀ case ∈ u.cases, case.name.toUtf8StringLossy ≠ "__xdr"

/-- `j` is JSON without hatches that converts to the value. -/
structure Spells (c : Crates) (spec : ContractSpec) (ty : ScSpecTypeDef) (v : ScVal) (j : Value) :
    Prop where
  wellFormed : j.WellFormed
  lacks : j.Lacks "__xdr"
  ok : jsonToScval c spec j ty = .ok v

/-- The member name that stands for a key. -/
def keyName (c : Crates) : ScVal → String
  | .address a => addressToString c a
  | .bool b => toString b
  | .u32 n => toString n.toNat
  | .i32 n => toString n.toInt
  | .u64 n => toString n.toNat
  | .i64 n => toString n.toInt
  | key => memberName key

theorem addressToString_ne_hatch (strkey : c.StrkeyLaw) {a : ScAddress} (kind : a.AccountOrContract) :
    addressToString c a ≠ "__xdr" := by
  intro same
  cases a with
  | account key =>
    have letter := strkey.publicKeyLetter key
    rw [show c.publicKeyToString key = "__xdr" from same] at letter
    exact absurd letter (by decide)
  | contract id =>
    have letter := strkey.contractLetter id
    rw [show c.contractToString id = "__xdr" from same] at letter
    exact absurd letter (by decide)
  | _ => exact kind.elim

/-- The key types of numbers and truth values. -/
def ScSpecTypeDef.ScalarKey : ScSpecTypeDef → Prop
  | .bool | .u32 | .i32 | .u64 | .i64 => True
  | _ => False

theorem jsonKeyToScval_hatch {key : ScVal} (scalar : ty.ScalarKey) :
    jsonKeyToScval c "__xdr" ty ≠ .ok key := by
  cases ty <;> simp [ScSpecTypeDef.ScalarKey] at scalar <;> exact fun h => nomatch h

theorem key_readback (text : c.TextLaw) (strkey : c.StrkeyLaw) {keyType : ScSpecTypeDef}
    (names : keyType.NamesKeys) {key : ScVal} (leaf : LeafInhabits keyType key) (plain : key.PlainText)
    (avoids : key.TextHas fun bytes => fromUtf8Lossy bytes ≠ "__xdr") :
    jsonKeyToScval c (keyName c key) keyType = .ok key ∧ keyName c key ≠ "__xdr" := by
  have scalar {name : String} (simple : keyType.ScalarKey) (ok : jsonKeyToScval c name keyType = .ok key) :
      jsonKeyToScval c name keyType = .ok key ∧ name ≠ "__xdr" := by
    refine ⟨ok,?_⟩
    rintro rfl
    exact jsonKeyToScval_hatch simple ok
  cases leaf with
  | string s => exact ⟨(textKey_readback text (.inl rfl) (.string s) plain).2,avoids⟩
  | symbol s => exact ⟨(textKey_readback text (.inr rfl) (.symbol s) plain).2,avoids⟩
  | address kind =>
    refine ⟨?_,addressToString_ne_hatch strkey kind⟩
    simp [jsonKeyToScval,keyName,addressFromStr_toString strkey kind]
  | muxedAddress kind =>
    refine ⟨?_,addressToString_ne_hatch strkey kind⟩
    simp [jsonKeyToScval,keyName,addressFromStr_toString strkey kind]
  | bool b => exact scalar trivial (by cases b <;> rfl)
  | u32 n => exact scalar trivial (by rw [keyName,jsonKeyToScval,parseU32_toString]; rfl)
  | i32 n => exact scalar trivial (by rw [keyName,jsonKeyToScval,parseI32_toString]; rfl)
  | u64 n => exact scalar trivial (by rw [keyName,jsonKeyToScval,parseU64_toString]; rfl)
  | i64 n => exact scalar trivial (by rw [keyName,jsonKeyToScval,parseI64_toString]; rfl)
  | _ => exact names.elim

theorem leaf_spells (text : c.TextLaw) (strkey : c.StrkeyLaw) (hex : c.HexLaw)
    (leaf : LeafInhabits ty v) (plain : v.PlainText) : Spells c spec ty v (scvalToJson c v) := by
  have atomic : (scvalToJson c v).Atomic := by cases leaf <;> (rw [scvalToJson]; exact ⟨rfl,rfl⟩)
  exact ⟨Value.wellFormed_atomic atomic,Value.lacks_atomic atomic,leaf_readback text strkey hex leaf plain⟩

/-- Forms of the elements make an array that converts pointwise. -/
theorem array_of_spells {α : Type} (type : α → ScSpecTypeDef) {items : List ScVal} {parts : List α}
    (arity : items.length = parts.length)
    (each : ∀ p ∈ items.zip parts, ∃ j, Spells c spec (type p.2) p.1 j) :
    ∃ js : List Value, js.length = parts.length ∧ (∀ j ∈ js, j.WellFormed ∧ j.Lacks "__xdr") ∧
      List.Forall₂ (fun p y => jsonToScval c spec p.1 (type p.2) = .ok y) (js.zip parts) items := by
  obtain ⟨js,length,spelled⟩ := exists_forall₂_zip
    (R := fun (p : Value × α) y => Spells c spec (type p.2) y p.1) arity each
  refine ⟨js,length,fun j member => ?_,spelled.imp fun _ _ form => form.ok⟩
  obtain ⟨part,zipped⟩ := mem_zip_left length member
  obtain ⟨_,_,form⟩ := forall₂_mem_left spelled zipped
  exact ⟨form.wellFormed,form.lacks⟩

theorem array_wellFormed {js : List Value} (each : ∀ j ∈ js, j.WellFormed ∧ j.Lacks "__xdr") :
    (Value.array js).WellFormed ∧ (Value.array js).Lacks "__xdr" :=
  ⟨Value.wellFormed_array_iff.mpr fun j member => (each j member).1,
    Value.lacks_array_iff.mpr fun j member => (each j member).2⟩

/-- A map, from forms of its values. -/
theorem map_spells (text : c.TextLaw) (strkey : c.StrkeyLaw) {keyType valueType : ScSpecTypeDef}
    (names : keyType.NamesKeys) {entries : List ScMapEntry} (keys : ∀ e ∈ entries, LeafInhabits keyType e.key)
    (legal : (ScVal.map (some entries)).LegalMaps) (plain : (ScVal.map (some entries)).PlainText)
    (avoids : (ScVal.map (some entries)).AvoidsHatch) (fits : entries.length ≤ u32Max)
    (vals : ∀ e ∈ entries, ∃ j, Spells c spec valueType e.val j) :
    ∃ j, Spells c spec (.map keyType valueType) (.map (some entries)) j := by
  choose! json forms using vals
  have key (e) (member : e ∈ entries) :=
    key_readback text strkey names (keys e member) (plain.key member) (avoids.self e member)
  have hatch : "__xdr" ∉ (entries.map fun e => (keyName c e.key, json e)).map Prod.fst := by
    simp only [List.map_map, List.mem_map, not_exists, not_and]
    exact fun e member => (key e member).2
  have each : List.Forall₂ (fun m e => jsonKeyToScval c m.1 keyType = .ok e.key ∧
      jsonToScval c spec m.2 valueType = .ok e.val)
      (entries.map fun e => (keyName c e.key, json e)) entries :=
    List.forall₂_map_left_iff.mpr (List.forall₂_same.mpr fun e member =>
      ⟨(key e member).1,(forms e member).ok⟩)
  have names := memberNames_nodup legal.self (each.imp fun _ _ both => both.1)
  refine ⟨_,Value.wellFormed_obj names ?_,Value.lacks_obj names hatch ?_,
    map_of_members hatch each legal.self fits⟩
  · simpa using fun e member => (forms e member).wellFormed
  · simpa using fun e member => (forms e member).lacks

/-- A struct with named fields, from forms of the fields in their order of declaration. -/
theorem named_spells (text : c.TextLaw) {name : StringM 60} {s : ScSpecUdtStructV0}
    (found : spec.resolve name.toUtf8StringLossy = some (.struct s)) (named : ¬s.Positional)
    (distinct : (s.fields.map (·.name.bytes)).Nodup) {entries declared : List ScMapEntry}
    (arity : declared.length = s.fields.length)
    (keys : ∀ p ∈ declared.zip s.fields, ∃ symbol, verbatim p.2.name.bytes symbol ∧ p.1.key = .symbol symbol)
    (same : entries.Perm declared) (legal : (ScVal.map (some entries)).LegalMaps)
    (plain : (ScVal.map (some entries)).PlainText) (avoids : (ScVal.map (some entries)).AvoidsHatch)
    (fits : entries.length ≤ u32Max) (vals : ∀ p ∈ declared.zip s.fields, ∃ j, Spells c spec p.2.type p.1.val j) :
    ∃ j, Spells c spec (.udt name) (.map (some entries)) j := by
  choose! json forms using vals
  have key (p) (member : p ∈ declared.zip s.fields) := field_key text plain same keys member
  let members := (declared.zip s.fields).map fun p => (p.2.name.toUtf8StringLossy, json p)
  have texts : members.map Prod.fst = s.fields.map (·.name.toUtf8StringLossy) := by
    have seconds : (declared.zip s.fields).map Prod.snd = s.fields := List.map_snd_zip arity.ge
    rw [← seconds,List.map_map,List.map_map]
    rfl
  have names : (members.map Prod.fst).Nodup := by
    rw [texts]
    exact fieldTexts_nodup arity distinct fun p member => (key p member).2.1
  have hatch : "__xdr" ∉ members.map Prod.fst := by
    simp only [members, List.map_map, List.mem_map, not_exists, not_and]
    intro p member same
    obtain ⟨entry,_,name,symbol,shape,_⟩ := key p member
    refine memberName_ne ?_ (avoids.self p.1 entry) (name.trans same)
    rw [shape]
    rfl
  have lacks : (Value.obj members).Lacks "__xdr" := Value.lacks_obj names hatch fun entry listed => by
    obtain ⟨p,member,rfl⟩ := List.mem_map.mp listed
    exact (forms p member).lacks
  refine ⟨_,Value.wellFormed_obj names fun entry listed => ?_,lacks,?_⟩
  · obtain ⟨p,member,rfl⟩ := List.mem_map.mp listed
    exact (forms p member).wellFormed
  · rw [udt_eq lacks.get,found]
    refine named_of_members named names (List.forall₂_iff_zip.mpr ⟨arity,fun {e f} member => ?_⟩).flip
      same legal.self fits
    obtain ⟨_,_,_,symbol,shape,spelled⟩ := key (e, f) member
    exact ⟨_,symbol,List.mem_map.mpr ⟨(e, f),member,rfl⟩,spelled,shape,(forms (e, f) member).ok⟩

/-- A case of a union, from forms of its arguments. -/
theorem case_spells (text : c.TextLaw) (distinct : spec.DistinctNames) {name : StringM 60} {u : ScSpecUdtUnionV0}
    (found : spec.resolve name.toUtf8StringLossy = some (.union u)) {case : ScSpecUdtUnionCaseV0}
    (declared : case ∈ u.cases) {symbol : ScSymbol} (spelled : verbatim case.name.bytes symbol)
    (plain : PlainBytes symbol.bytes) {args : List ScVal} (arity : args.length = case.types.length)
    (fits : args.length + 1 ≤ u32Max) (each : ∀ p ∈ args.zip case.types, ∃ j, Spells c spec p.2 p.1 j) :
    ∃ j, Spells c spec (.udt name) (.vec (some (.symbol symbol :: args))) j := by
  obtain ⟨js,length,each,converted⟩ := array_of_spells (c := c) id arity each
  have ⟨well,lacks⟩ := array_wellFormed each
  have parsed : c.stringFromStr 32 case.name.toUtf8StringLossy = some symbol := by
    rw [show symbol.bytes = case.name.bytes from spelled] at plain
    exact (text.some_iff plain.2).mpr (spelled.trans plain.1.symm)
  have lookup : spec.unionCase name.toUtf8StringLossy case.name.toUtf8StringLossy = some case :=
    (unionCase_eq found).trans ((find?_eq_some_iff_of_nodup (distinct.cases _ _ found)).mpr ⟨declared,rfl⟩)
  have noHatch := distinct.noHatch _ _ found case declared
  have hatchless : (Value.object [(case.name.toUtf8StringLossy, .array js)]).Lacks "__xdr" :=
    Value.lacks_object_iff.mpr ⟨by simpa using noHatch.symm,by simpa using lacks⟩
  refine ⟨_,Value.wellFormed_object_iff.mpr ⟨by simp [Entries.Sorted],by simpa using well⟩,hatchless,?_⟩
  rw [udt_eq hatchless.get,found]
  exact union_ok_iff.mpr ⟨_,js,case,symbol,args,rfl,lookup,parsed,length,converted,fits,rfl⟩

theorem exists_spells (text : c.TextLaw) (strkey : c.StrkeyLaw) (hex : c.HexLaw)
    (names : spec.DistinctNames) (typed : Inhabits spec verbatim ty v)
    (inside : Fragment spec (·.Friendly spec) ty) (legal : v.LegalMaps) (plain : v.PlainText)
    (avoids : v.AvoidsHatch) : ∃ j, Spells c spec ty v j := by
  induction typed with
  | leaf leaf => exact ⟨_,leaf_spells text strkey hex leaf plain⟩
  | none => exact ⟨.null,by simp,by simp,(option_ok_iff rfl).mpr (.inl ⟨rfl,rfl⟩)⟩
  | @some ty v typed ih =>
    obtain ⟨j,form⟩ := ih (inside.component .option) legal plain avoids
    by_cases null : j = .null
    · subst null
      exact ⟨.null,by simp,by simp,(option_ok_iff rfl).mpr (.inl ⟨rfl,(null_ok_iff.mp form.ok).2⟩)⟩
    · exact ⟨j,form.wellFormed,form.lacks,(option_ok_iff form.lacks.get).mpr (.inr ⟨null,form.ok⟩)⟩
  | @vec items ty _ fits ih =>
    choose! json forms using fun x member => ih x member (inside.component .vec) (legal.item member)
      (plain.item member) (avoids.item member)
    have ⟨well,lacks⟩ := array_wellFormed fun j (listed : j ∈ items.map json) => by
      obtain ⟨x,member,rfl⟩ := List.mem_map.mp listed
      exact ⟨(forms x member).wellFormed,(forms x member).lacks⟩
    refine ⟨_,well,lacks,(vec_ok_iff rfl).mpr ⟨_,_,rfl,?_,fits,rfl⟩⟩
    exact List.forall₂_map_left_iff.mpr (List.forall₂_same.mpr fun x member => (forms x member).ok)
  | tuple arity _ fits ih =>
    obtain ⟨js,length,each,converted⟩ := array_of_spells (c := c) id arity fun p member => by
      have item := (List.of_mem_zip member).1
      exact ih p member (inside.component (.tuple (List.of_mem_zip member).2)) (legal.item item)
        (plain.item item) (avoids.item item)
    have ⟨well,lacks⟩ := array_wellFormed each
    exact ⟨_,well,lacks,(tuple_ok_iff rfl).mpr ⟨js,_,rfl,length,converted,fits,rfl⟩⟩
  | @map entries keyType valueType keys _ sorted fits _ ih =>
    have simple : ¬keyType.Composite := fun composite => by
      have named := inside.self
      cases keyType <;> first | exact composite | exact named
    apply map_spells text strkey inside.self (fun e member => (keys e member).toLeaf simple) legal plain avoids fits
    intro e member
    exact ih e member (inside.component .value) (legal.val member) (plain.val member) (avoids.val member)
  | positional found positional arity _ fits ih =>
    obtain ⟨js,length,each,converted⟩ := array_of_spells (c := c) (·.type) arity fun p member => by
      have item := (List.of_mem_zip member).1
      exact ih p member (inside.component (.field found (List.of_mem_zip member).2)) (legal.item item)
        (plain.item item) (avoids.item item)
    have ⟨well,lacks⟩ := array_wellFormed each
    refine ⟨_,well,lacks,?_⟩
    rw [udt_eq rfl,found]
    exact (struct_positional_ok_iff positional).mpr ⟨js,_,rfl,length,converted,fits,rfl⟩
  | @named name s entries declared found named arity keys _ same sorted fits ih =>
    apply named_spells text found named (names.fields _ _ found) arity keys same legal plain avoids fits
    intro p member
    obtain ⟨entry,_⟩ := field_key text plain same keys member
    exact ih p member (inside.component (.field found (List.of_mem_zip member).2)) (legal.val entry)
      (plain.val entry) (avoids.val entry)
  | @union name u case symbol args found declared spelled arity _ fits ih =>
    apply case_spells text names found declared spelled (plain.item List.mem_cons_self).self arity fits
    intro p member
    have item := List.mem_cons_of_mem (.symbol symbol) (List.of_mem_zip member).1
    exact ih p member (inside.component (.case found declared (List.of_mem_zip member).2))
      (legal.item item) (plain.item item) (avoids.item item)
  | @enum name e case found declared =>
    refine ⟨.number (.ofU32 case.value),Value.wellFormed_number _,Value.lacks_number _ _,?_⟩
    rw [udt_eq rfl,found]
    exact enumToScval_value declared
  | errorEnum n found =>
    refine ⟨.number (.ofU32 n),Value.wellFormed_number _,Value.lacks_number _ _,?_⟩
    rw [udt_eq rfl,found]
    exact errorEnumToScval_value n

/-- `enum U { A, B(u32) }` -/
def sampleUnion : ScSpecUdtUnionV0 := ⟨.empty,⟨[0x55],by decide⟩,
  [.voidV0 .empty ⟨[0x41],by decide⟩,.tupleV0 .empty ⟨[0x42],by decide⟩ [.u32]]⟩

theorem resolve_sampleUnion {name : String} {t : Udt}
    (found : ContractSpec.resolve (.fromEntries [.udtUnionV0 sampleUnion]) name = some t) :
    t = .union sampleUnion := by
  simp [ContractSpec.fromEntries,ContractSpec.addEntry,ContractSpec.empty,ContractSpec.resolve] at found
  split at found <;> simp_all

theorem exists_spells_sampleUnion :
    ∃ j, Spells .reference (.fromEntries [.udtUnionV0 sampleUnion]) (.udt ⟨[0x55],by decide⟩)
      (.vec (some [.symbol ⟨[0x42],by decide⟩,.u32 7])) j := by
  have found : ContractSpec.resolve (.fromEntries [.udtUnionV0 sampleUnion])
      (StringM.toUtf8StringLossy (⟨[0x55],by decide⟩ : StringM 60)) = some (.union sampleUnion) := by rfl
  refine exists_spells Crates.reference_text Crates.reference_strkey Crates.reference_hex ⟨?_,?_,?_⟩ ?_ ?_
    (.pair trivial (.atomic trivial trivial) (.atomic trivial trivial))
    (.pair trivial (.atomic trivial (show PlainBytes [0x42] by decide)) (.atomic trivial trivial))
    (.pair trivial (.atomic trivial trivial) (.atomic trivial trivial))
  · intro name s found
    cases resolve_sampleUnion found
  · intro name u found
    cases resolve_sampleUnion found
    decide
  · intro name u found
    cases resolve_sampleUnion found
    decide
  · refine .union found (List.mem_cons_of_mem _ List.mem_cons_self) rfl rfl ?_ (by decide)
    simpa [ScSpecUdtUnionCaseV0.types] using .leaf (.u32 7)
  · refine .intro (by simp [ScSpecTypeDef.Friendly,found]) fun part direct => ?_
    cases direct with
    | field other => cases resolve_sampleUnion other
    | case other listed argument =>
      cases resolve_sampleUnion other
      have argument : part = .u32 := by
        simp only [sampleUnion, List.mem_cons, List.not_mem_nil, or_false] at listed
        rcases listed with rfl | rfl <;> simp_all [ScSpecUdtUnionCaseV0.types]
      subst argument
      exact .intro trivial (by rintro _ ⟨⟩)

end SorobanProxy
