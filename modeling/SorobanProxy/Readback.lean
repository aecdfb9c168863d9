import SorobanProxy.Inhabits
import SorobanProxy.Integers
import Mathlib.Data.List.Perm.Basic

/-! Encoding undoes decoding: on types without unions, what is rendered from a value of the
type converts back to the value. -/
namespace SorobanProxy

open Library

variable {c : Crates} {spec : ContractSpec} {v : ScVal}

theorem stripPrefix_eq_some_iff {affix s rest : String} : stripPrefix affix s = some rest ↔ s = affix ++ rest := by
  rw [stripPrefix,← String.toList_inj,String.toList_append]
  split_ifs with leading
  · have whole := List.prefix_iff_eq_append.mp (List.isPrefixOf_iff_prefix.mp leading)
    rw [Option.some_inj,← String.toList_inj,String.toList_ofList]
    constructor
    · intro dropped
      rw [← dropped,whole]
    · intro same
      rw [same,List.drop_left]
  · apply iff_of_false
    · simp
    · intro same
      exact leading (List.isPrefixOf_iff_prefix.mpr ⟨rest.toList,same.symm⟩)

theorem stripPrefix_append (affix s : String) : stripPrefix affix (affix ++ s) = some s :=
  stripPrefix_eq_some_iff.mpr rfl

theorem addressFromStr_toString (strkey : c.StrkeyLaw) {a : ScAddress} (kind : a.AccountOrContract) :
    addressFromStr c (addressToString c a) = .ok a := by
  cases a with
  | account key => simp [addressFromStr,addressToString,strkey.publicKey]
  | contract id => simp [addressFromStr,addressToString,strkey.versions,strkey.contract]
  | _ => exact kind.elim

theorem stringFromStr_lossy (text : c.TextLaw) {max : Nat} {s : StringM max} (plain : PlainBytes s.bytes) :
    c.stringFromStr max s.toUtf8StringLossy = some s :=
  (text.some_iff plain.2).mpr plain.1.symm

theorem leaf_readback (text : c.TextLaw) (strkey : c.StrkeyLaw) (hex : c.HexLaw) {ty : ScSpecTypeDef}
    (leaf : LeafInhabits ty v) (plain : v.PlainText) :
    jsonToScval c spec (scvalToJson c v) ty = .ok v := by
  have bytes (b : ScBytes) : bytesFromJson c (.str ("0x" ++ c.hexEncode b.bytes)) = .ok b.bytes := by
    simp [bytesFromJson,Value.str,stripPrefix_append,hex.decode_encode]
  have here := plain.self
  rw [jsonToScval.eq_def]
  cases leaf <;> simp only [scvalToJson, Value.get_str, Value.asStr_str]
  case bool b => rfl
  case void => rfl
  case u32 n => simp [Value.get,asU64_ofU32,u32TryFrom_toUInt64]
  case i32 n => simp [Value.get,asI64_ofI32,i32TryFrom_toInt64]
  case u64 n => rw [asU64_toString]; rfl
  case i64 n => rw [asI64_toString]; rfl
  case timepoint n => rw [asU64_toString]; rfl
  case duration n => rw [asU64_toString]; rfl
  case u128 p => rw [asU128_toString,Except.map,u128ToParts_fromParts]
  case i128 p => rw [asI128_toString,Except.map,i128ToParts_fromParts]
  case bytes b =>
    have fits : BytesM.tryFrom u32Max b.bytes = some b := BytesM.tryFrom_eq_some_iff.mpr rfl
    simp [bytes,fits]
  case bytesN b size =>
    have fits : BytesM.tryFrom u32Max b.bytes = some b := BytesM.tryFrom_eq_some_iff.mpr rfl
    simp [bytes,fits,size]
  case string s => simp [stringFromStr,stringFromStr_lossy text here]
  case symbol s => simp [symbolFromStr,stringFromStr_lossy text here]
  case address a kind => simp [addressFromStr_toString strkey kind]
  case muxedAddress a kind => simp [addressFromStr_toString strkey kind]

theorem keysAscending.nodup {entries : List ScMapEntry} (ascending : keysAscending entries) :
    (entries.map MapEntry.key).Nodup := ascending.imp ne_of_lt

/-- Different keys are spelled differently, because a spelling has only one key. -/
theorem memberNames_nodup {keyType : ScSpecTypeDef} {members : List (String × Value)}
    {entries : List ScMapEntry} (ascending : keysAscending entries)
    (each : List.Forall₂ (fun m e => jsonKeyToScval c m.1 keyType = .ok e.key) members entries) :
    (members.map Prod.fst).Nodup := by
  have read : members.map (fun m => jsonKeyToScval c m.1 keyType) =
      entries.map fun e => Except.ok e.key := forall₂_map_eq each fun _ _ key => key
  have keys : (entries.map fun e => (Except.ok e.key : Result ScVal)).Nodup := by
    have := ascending.nodup.map (f := (Except.ok : ScVal → Result ScVal)) fun _ _ => Except.ok.inj
    rwa [List.map_map] at this
  have split : members.map (fun m => jsonKeyToScval c m.1 keyType) =
      (members.map Prod.fst).map fun name => jsonKeyToScval c name keyType := by simp
  rw [← read,split] at keys
  exact keys.of_map

theorem map_of_members {keyType ty : ScSpecTypeDef} {members : List (String × Value)}
    {entries : List ScMapEntry} (hatch : "__xdr" ∉ members.map Prod.fst)
    (each : List.Forall₂ (fun m e => jsonKeyToScval c m.1 keyType = .ok e.key ∧
      jsonToScval c spec m.2 ty = .ok e.val) members entries)
    (ascending : keysAscending entries) (fits : entries.length ≤ u32Max) :
    jsonToScval c spec (.obj members) (.map keyType ty) = .ok (.map (some entries)) := by
  have names := memberNames_nodup ascending (each.imp fun _ _ both => both.1)
  have inserted := Value.insertAll_nil_perm names
  have noHatch : (Value.obj members).get "__xdr" = none :=
    Entries.find_eq_none_iff.mpr fun member => hatch ((inserted.map Prod.fst).mem_iff.mp member)
  obtain ⟨reordered,read,same⟩ := List.perm_comp_forall₂ inserted each
  refine (map_ok_iff noHatch).mpr ⟨_,reordered,rfl,read,same.length_eq ▸ fits,?_⟩
  rw [sortByKey_eq_of_perm same ascending]

theorem named_of_members {s : ScSpecUdtStructV0} (named : ¬s.Positional)
    {members : List (String × Value)} (names : (members.map Prod.fst).Nodup)
    {entries declared : List ScMapEntry}
    (each : List.Forall₂ (fun f e => ∃ x symbol, (f.name.toUtf8StringLossy, x) ∈ members ∧
      c.stringFromStr 32 f.name.toUtf8StringLossy = some symbol ∧ e.key = .symbol symbol ∧
      jsonToScval c spec x f.type = .ok e.val) s.fields declared)
    (same : entries.Perm declared) (ascending : keysAscending entries) (fits : entries.length ≤ u32Max) :
    structToScval c s (.obj members) spec = .ok (.map (some entries)) := by
  refine (struct_named_ok_iff named).mpr ⟨_,declared,rfl,each.imp ?_,same.length_eq ▸ fits,?_⟩
  · rintro f e ⟨x,symbol,member,spelled,key,ok⟩
    exact ⟨x,symbol,Value.find_insertAll names member,spelled,key,ok⟩
  · rw [sortByKey_eq_of_perm same.symm ascending]

theorem memberName_ne {text : String} {key : ScVal} (isText : isTextKey key)
    (avoids : key.TextHas fun bytes => fromUtf8Lossy bytes ≠ text) : memberName key ≠ text := by
  cases key with
  | string s => exact avoids
  | symbol s => exact avoids
  | _ => cases isText

/-- A rendered value is an object with a hatch only for a map that has it as a key. -/
theorem scvalToJson_get_hatch (avoids : v.KeysAvoid "__xdr") : (scvalToJson c v).get "__xdr" = none := by
  cases v with
  | error e => rw [scvalToJson]; exact Value.get_obj_eq_none (by simp)
  | u256 p => rw [scvalToJson]; exact Value.get_obj_eq_none (by simp)
  | i256 p => rw [scvalToJson]; exact Value.get_obj_eq_none (by simp)
  | contractInstance executable storage => rw [scvalToJson]; exact Value.get_obj_eq_none (by simp)
  | ledgerKeyNonce nonce => rw [scvalToJson]; exact Value.get_obj_eq_none (by simp)
  | vec items => cases items <;> (rw [scvalToJson]; rfl)
  | map entries =>
    cases entries with
    | none => rw [scvalToJson]; rfl
    | some entries =>
      by_cases text : ∀ e ∈ entries, isTextKey e.key
      · rw [scvalToJson_map_text text]
        refine Value.get_obj_eq_none fun member => ?_
        simp only [List.map_map, List.mem_map] at member
        obtain ⟨e,inside,same⟩ := member
        exact memberName_ne (text e inside) (avoids e inside) same
      · rw [scvalToJson_map_pairs text]
        rfl
  | _ => rw [scvalToJson]; rfl

/-- Of the values of a type only `Void` is rendered as null. -/
theorem scvalToJson_eq_null {sym : List UInt8 → ScSymbol → Prop} {ty : ScSpecTypeDef}
    (typed : Inhabits spec sym ty v) (same : scvalToJson c v = .null) : v = .void := by
  induction typed with
  | leaf leaf => cases leaf <;> simp_all [scvalToJson,Value.str]
  | none => rfl
  | some _ ih => exact ih same
  | map => rw [scvalToJson] at same; split at same <;> cases same
  | named => rw [scvalToJson] at same; split at same <;> cases same
  | _ => simp [scvalToJson] at same

/-- The fragment of the round trip: no unions, and string or symbol keys. -/
def ScSpecTypeDef.UnionFree (spec : ContractSpec) : ScSpecTypeDef → Prop
  | .val | .error | .u256 | .i256 | .result _ _ => False
  | .map keyType _ => keyType = .string ∨ keyType = .symbol
  | .udt name =>
    match spec.resolve name.toUtf8StringLossy with
    | some (.struct s) => (s.fields.map (·.name.bytes)).Nodup
    | some (.enum _) | some (.errorEnum _) => True
    | some (.union _) | none => False
  | _ => True

/-- A text key is read back from its member name. -/
theorem textKey_readback (text : c.TextLaw) {keyType : ScSpecTypeDef}
    (textual : keyType = .string ∨ keyType = .symbol) {key : ScVal} (leaf : LeafInhabits keyType key)
    (plain : key.PlainText) : isTextKey key ∧ jsonKeyToScval c (memberName key) keyType = .ok key := by
  have here := plain.self
  rcases textual with rfl | rfl
  · cases leaf with
    | string s => exact ⟨rfl,by simp [jsonKeyToScval,memberName,stringFromStr,stringFromStr_lossy text here]⟩
  · cases leaf with
    | symbol s => exact ⟨rfl,by simp [jsonKeyToScval,memberName,symbolFromStr,stringFromStr_lossy text here]⟩

theorem enumToScval_value {e : ScSpecUdtEnumV0} {case : ScSpecUdtEnumCaseV0} (declared : case ∈ e.cases) :
    enumToScval e (.number (.ofU32 case.value)) = .ok (.u32 case.value) := by
  simp [enumToScval,Value.asU64,u32TryFrom_toUInt64,okOr]
  exact ⟨case,declared,rfl⟩

theorem errorEnumToScval_value {e : ScSpecUdtErrorEnumV0} (n : UInt32) :
    errorEnumToScval e (.number (.ofU32 n)) = .ok (.u32 n) := by
  simp [errorEnumToScval,Value.asU64,u32TryFrom_toUInt64,okOr]

section Fields

variable {s : ScSpecUdtStructV0} {entries declared : List ScMapEntry}

/-- Each entry is that of a field, under a symbol with the field's name. -/
theorem entry_field (arity : declared.length = s.fields.length) (same : entries.Perm declared)
    (keys : ∀ p ∈ declared.zip s.fields, ∃ symbol, verbatim p.2.name.bytes symbol ∧ p.1.key = .symbol symbol)
    {e : ScMapEntry} (member : e ∈ entries) : ∃ f symbol, (e, f) ∈ declared.zip s.fields ∧
      verbatim f.name.bytes symbol ∧ e.key = .symbol symbol := by
  obtain ⟨f,zipped⟩ := mem_zip_left arity (same.mem_iff.mp member)
  obtain ⟨symbol,spelled,key⟩ := keys (e, f) zipped
  exact ⟨f,symbol,zipped,spelled,key⟩

theorem field_key (text : c.TextLaw) (plain : (ScVal.map (some entries)).PlainText)
    (same : entries.Perm declared) (keys : ∀ p ∈ declared.zip s.fields,
      ∃ symbol, verbatim p.2.name.bytes symbol ∧ p.1.key = .symbol symbol)
    {p : ScMapEntry × ScSpecUdtStructFieldV0} (member : p ∈ declared.zip s.fields) :
    p.1 ∈ entries ∧ PlainBytes p.2.name.bytes ∧ memberName p.1.key = p.2.name.toUtf8StringLossy ∧
      ∃ symbol, p.1.key = .symbol symbol ∧
        c.stringFromStr 32 p.2.name.toUtf8StringLossy = some symbol := by
  obtain ⟨symbol,spelled,key⟩ := keys p member
  have entry : p.1 ∈ entries := same.mem_iff.mpr (List.of_mem_zip member).1
  have bytes : PlainBytes p.2.name.bytes := by
    have here := (plain.key entry).self
    rw [key] at here
    exact spelled ▸ here
  refine ⟨entry,bytes,?_,symbol,key,(text.some_iff bytes.2).mpr (spelled.trans bytes.1.symm)⟩
  rw [key]
  exact congrArg fromUtf8Lossy spelled

/-- Different UTF-8 names are different texts. -/
theorem fieldTexts_nodup (arity : declared.length = s.fields.length)
    (distinct : (s.fields.map (·.name.bytes)).Nodup)
    (plain : ∀ p ∈ declared.zip s.fields, PlainBytes p.2.name.bytes) :
    (s.fields.map (·.name.toUtf8StringLossy)).Nodup := by
  have valid (f) (listed : f ∈ s.fields) : IsUtf8 f.name.bytes := by
    obtain ⟨e,zipped⟩ := mem_zip_right arity listed
    exact (plain (e, f) zipped).1
  have texts : s.fields.map (·.name.toUtf8StringLossy) = (s.fields.map (·.name.bytes)).map fromUtf8Lossy := by
    simp [StringM.toUtf8StringLossy]
  rw [texts]
  refine distinct.map_on fun a left b right same => ?_
  obtain ⟨f,listed,rfl⟩ := List.mem_map.mp left
  obtain ⟨g,other,rfl⟩ := List.mem_map.mp right
  exact fromUtf8Lossy_injective (valid f listed) (valid g other) same

end Fields

/-- The pointwise conversions of a rendered list. -/
theorem forall₂_rendered {α : Type} (type : α → ScSpecTypeDef) {items : List ScVal} {parts : List α}
    (arity : items.length = parts.length)
    (each : ∀ p ∈ items.zip parts, jsonToScval c spec (scvalToJson c p.1) (type p.2) = .ok p.1) :
    List.Forall₂ (fun p y => jsonToScval c spec p.1 (type p.2) = .ok y)
      ((items.map (scvalToJson c)).zip parts) items := by
  induction items generalizing parts with
  | nil => exact .nil
  | cons x items ih =>
    cases parts with
    | nil => cases arity
    | cons part parts =>
      exact .cons (each (x, part) List.mem_cons_self)
        (ih (Nat.succ.inj arity) fun p member => each p (List.mem_cons_of_mem _ member))

/-- A struct with named fields is read back when the value of each field is. -/
theorem named_readback (text : c.TextLaw) {name : StringM 60} {s : ScSpecUdtStructV0}
    (found : spec.resolve name.toUtf8StringLossy = some (.struct s)) (named : ¬s.Positional)
    (distinct : (s.fields.map (·.name.bytes)).Nodup) {entries declared : List ScMapEntry}
    (arity : declared.length = s.fields.length)
    (keys : ∀ p ∈ declared.zip s.fields, ∃ symbol, verbatim p.2.name.bytes symbol ∧ p.1.key = .symbol symbol)
    (same : entries.Perm declared) (legal : (ScVal.map (some entries)).LegalMaps)
    (plain : (ScVal.map (some entries)).PlainText) (avoids : (ScVal.map (some entries)).AvoidsHatch)
    (fits : entries.length ≤ u32Max)
    (vals : ∀ p ∈ declared.zip s.fields, jsonToScval c spec (scvalToJson c p.1.val) p.2.type = .ok p.1.val) :
    jsonToScval c spec (scvalToJson c (.map (some entries))) (.udt name) = .ok (.map (some entries)) := by
  have key (p) (member : p ∈ declared.zip s.fields) := field_key text plain same keys member
  have textual : ∀ e ∈ entries, isTextKey e.key := fun e member => by
    obtain ⟨_,symbol,_,_,shape⟩ := entry_field arity same keys member
    rw [shape]
    rfl
  have texts : declared.map (fun e => memberName e.key) = s.fields.map (·.name.toUtf8StringLossy) := by
    refine forall₂_map_eq (List.forall₂_iff_zip.mpr ⟨arity,fun {e f} member => ?_⟩) fun _ _ => id
    exact (key (e, f) member).2.2.1
  rw [udt_eq (scvalToJson_get_hatch avoids.self),found,scvalToJson_map_text textual]
  refine named_of_members named ?_ (List.forall₂_iff_zip.mpr ⟨arity,fun {e f} member => ?_⟩).flip
    same legal.self fits
  · rw [List.map_map]
    refine ((same.map fun e => memberName e.key).nodup_iff).mpr (texts ▸ ?_)
    exact fieldTexts_nodup arity distinct fun p member => (key p member).2.1
  · obtain ⟨entry,_,name,symbol,shape,spelled⟩ := key (e, f) member
    exact ⟨_,symbol,List.mem_map.mpr ⟨e,entry,congrArg (·, _) name⟩,spelled,shape,vals (e, f) member⟩

theorem scvalToJson_readback (text : c.TextLaw) (strkey : c.StrkeyLaw) (hex : c.HexLaw) {ty : ScSpecTypeDef}
    (typed : Inhabits spec verbatim ty v) (inside : Fragment spec (·.UnionFree spec) ty)
    (legal : v.LegalMaps) (plain : v.PlainText) (avoids : v.AvoidsHatch) :
    jsonToScval c spec (scvalToJson c v) ty = .ok v := by
  induction typed with
  | leaf leaf => exact leaf_readback text strkey hex leaf plain
  | none => exact (option_ok_iff (scvalToJson_get_hatch avoids.self)).mpr (.inl ⟨by rw [scvalToJson],rfl⟩)
  | @some ty v typed ih =>
    have noHatch := scvalToJson_get_hatch (c := c) avoids.self
    by_cases void : v = .void
    · subst void
      exact (option_ok_iff noHatch).mpr (.inl ⟨by rw [scvalToJson],rfl⟩)
    · exact (option_ok_iff noHatch).mpr (.inr ⟨fun same => void (scvalToJson_eq_null typed same),
        ih (inside.component .option) legal plain avoids⟩)
  | vec _ fits ih =>
    rw [scvalToJson_vec]
    refine (vec_ok_iff rfl).mpr ⟨_,_,rfl,?_,fits,rfl⟩
    refine List.forall₂_map_left_iff.mpr (List.forall₂_same.mpr fun x member => ?_)
    exact ih x member (inside.component .vec) (legal.item member) (plain.item member) (avoids.item member)
  | tuple arity _ fits ih =>
    rw [scvalToJson_vec]
    refine (tuple_ok_iff rfl).mpr ⟨_,_,rfl,by simpa using arity,?_,fits,rfl⟩
    refine forall₂_rendered id arity fun p member => ?_
    have item := (List.of_mem_zip member).1
    exact ih p member (inside.component (.tuple (List.of_mem_zip member).2)) (legal.item item)
      (plain.item item) (avoids.item item)
  | @map entries keyType valueType keys _ sorted fits _ ih =>
    have simple : ¬keyType.Composite := by
      rcases inside.self with rfl | rfl <;> exact id
    have key (e) (member : e ∈ entries) :=
      textKey_readback text inside.self ((keys e member).toLeaf simple) (plain.key member)
    rw [scvalToJson_map_text fun e member => (key e member).1]
    refine map_of_members (fun member => ?_) ?_ legal.self fits
    · simp only [List.map_map, List.mem_map] at member
      obtain ⟨e,member,same⟩ := member
      exact memberName_ne (key e member).1 (avoids.self e member) same
    · refine List.forall₂_map_left_iff.mpr (List.forall₂_same.mpr fun e member => ⟨(key e member).2,?_⟩)
      exact ih e member (inside.component .value) (legal.val member) (plain.val member) (avoids.val member)
  | positional found positional arity _ fits ih =>
    rw [udt_eq (scvalToJson_get_hatch avoids.self),found,scvalToJson_vec]
    refine (struct_positional_ok_iff positional).mpr ⟨_,_,rfl,by simpa using arity,?_,fits,rfl⟩
    refine forall₂_rendered (·.type) arity fun p member => ?_
    have item := (List.of_mem_zip member).1
    exact ih p member (inside.component (.field found (List.of_mem_zip member).2)) (legal.item item)
      (plain.item item) (avoids.item item)
  | @named name s entries declared found named arity keys _ same sorted fits ih =>
    have distinct : (s.fields.map (·.name.bytes)).Nodup := by
      have := inside.self
      simpa [ScSpecTypeDef.UnionFree,found] using this
    apply named_readback text found named distinct arity keys same legal plain avoids fits
    intro p member
    obtain ⟨entry,_⟩ := field_key text plain same keys member
    exact ih p member (inside.component (.field found (List.of_mem_zip member).2)) (legal.val entry)
      (plain.val entry) (avoids.val entry)
  | union found =>
    have := inside.self
    simp [ScSpecTypeDef.UnionFree,found] at this
  | enum found declared =>
    rw [udt_eq (scvalToJson_get_hatch avoids.self),found,scvalToJson]
    exact enumToScval_value declared
  | errorEnum n found =>
    rw [udt_eq (scvalToJson_get_hatch avoids.self),found,scvalToJson]
    exact errorEnumToScval_value n

theorem scvalToJson_readback_tuple :
    jsonToScval .reference .empty
      (scvalToJson .reference (.vec (some [.i128 ⟨-1,5⟩,.map (some [⟨.string ⟨[0x61],by decide⟩,.void⟩])])))
      (.tuple [.i128,.map .string (.option .u64)]) =
    .ok (.vec (some [.i128 ⟨-1,5⟩,.map (some [⟨.string ⟨[0x61],by decide⟩,.void⟩])])) := by
  have everywhere {P : ScVal → Prop} {parts : Int128Parts} {key : ScString}
      (whole : P (.vec (some [.i128 parts,.map (some [⟨.string key,.void⟩])]))) (number : P (.i128 parts))
      (map : P (.map (some [⟨.string key,.void⟩]))) (text : P (.string key)) (void : P .void) :
      (ScVal.vec (some [.i128 parts,.map (some [⟨.string key,.void⟩])])).Everywhere P := by
    refine .pair whole (.atomic trivial number) (ScVal.Everywhere.map_iff.mpr ⟨map,?_⟩)
    simpa using ⟨ScVal.Everywhere.atomic trivial text,.atomic trivial void⟩
  refine scvalToJson_readback Crates.reference_text Crates.reference_strkey Crates.reference_hex ?_ ?_ ?_ ?_ ?_
  · refine .tuple rfl ?_ (by decide)
    intro p member
    simp at member
    rcases member with rfl | rfl
    · exact .leaf (.i128 _)
    · refine .map ?_ ?_ (by simp) (by decide)
      · simpa using .leaf (.string _)
      · simpa using .none
  · have leaf {ty : ScSpecTypeDef} (here : ty.UnionFree .empty) (none : ∀ part, ¬Component .empty ty part) :
        Fragment .empty (·.UnionFree .empty) ty := .intro here fun part direct => (none part direct).elim
    refine .intro trivial fun part direct => ?_
    cases direct with | tuple member =>
    simp at member
    rcases member with rfl | rfl
    · exact leaf trivial (by rintro _ ⟨⟩)
    · refine .intro (.inl rfl) fun part direct => ?_
      cases direct with
      | key => exact leaf trivial (by rintro _ ⟨⟩)
      | value =>
        refine .intro trivial fun part direct => ?_
        cases direct with | option => exact leaf trivial (by rintro _ ⟨⟩)
  · exact everywhere trivial trivial (show keysAscending _ by decide) trivial trivial
  · exact everywhere trivial trivial trivial (show PlainBytes [0x61] by decide) trivial
  · exact everywhere trivial trivial (by simp [ScVal.KeysAvoid,ScVal.TextHas]; decide) trivial trivial

end SorobanProxy
