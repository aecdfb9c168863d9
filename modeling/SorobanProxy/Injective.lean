import SorobanProxy.Readback

/-! At a known type the rendering loses nothing: two values of the type that are rendered
alike are the same value. -/
namespace SorobanProxy

open Library
open Library.Numeral (toString_nat_injective toString_int_injective)

variable {c : Crates} {spec : ContractSpec} {ty : ScSpecTypeDef} {first second : ScVal}

theorem u128FromParts_injective {a b : UInt128Parts} (same : u128FromParts a = u128FromParts b) : a = b := by
  rw [← u128ToParts_fromParts a,same,u128ToParts_fromParts]

theorem i128FromParts_injective {a b : Int128Parts} (same : i128FromParts a = i128FromParts b) : a = b := by
  rw [← i128ToParts_fromParts a,same,i128ToParts_fromParts]

theorem Number.ofU32_injective {a b : UInt32} (same : Number.ofU32 a = Number.ofU32 b) : a = b := by
  have read := u32TryFrom_toUInt64 a
  rw [(Number.posInt.inj same : a.toUInt64 = b.toUInt64),u32TryFrom_toUInt64 b] at read
  exact (Option.some.inj read).symm

theorem Number.ofI32_injective {a b : Int32} (same : Number.ofI32 a = Number.ofI32 b) : a = b := by
  have wide : a.toInt64 = b.toInt64 := by
    have := congrArg Number.asI64 same
    rw [Number.asI64_ofI32,Number.asI64_ofI32] at this
    exact Option.some.inj this
  have read := i32TryFrom_toInt64 a
  rw [wide,i32TryFrom_toInt64 b] at read
  exact (Option.some.inj read).symm

theorem addressToString_injective (encodings : c.InjectiveEncodings) {a b : ScAddress}
    (left : a.AccountOrContract) (right : b.AccountOrContract)
    (same : addressToString c a = addressToString c b) : a = b := by
  cases a with
  | account key =>
    cases b with
    | account other => rw [encodings.publicKey same]
    | contract id => exact (encodings.versions _ _ same).elim
    | _ => exact right.elim
  | contract id =>
    cases b with
    | account key => exact (encodings.versions _ _ same.symm).elim
    | contract other => rw [encodings.contract same]
    | _ => exact right.elim
  | _ => exact left.elim

theorem hexText_injective (encodings : c.InjectiveEncodings) {a b : List UInt8}
    (same : "0x" ++ c.hexEncode a = "0x" ++ c.hexEncode b) : a = b := by
  have stripped := congrArg (stripPrefix "0x") same
  rw [stripPrefix_append,stripPrefix_append] at stripped
  exact encodings.hex (Option.some.inj stripped)

theorem leaf_rendered_injective (encodings : c.InjectiveEncodings) (left : LeafInhabits ty first)
    (right : LeafInhabits ty second) (utf8 : first.Utf8Text) (utf8' : second.Utf8Text)
    (same : scvalToJson c first = scvalToJson c second) : first = second := by
  have here := utf8.self
  have here' := utf8'.self
  have text {s t : String} (same : Value.str s = Value.str t) : s = t := Value.string.inj same
  cases left <;> cases right <;> simp only [scvalToJson] at same
  case bool.bool a b => rw [Value.bool.inj same]
  case void.void => rfl
  case u32.u32 a b => rw [Number.ofU32_injective (Value.number.inj same)]
  case i32.i32 a b => rw [Number.ofI32_injective (Value.number.inj same)]
  case u64.u64 a b => rw [UInt64.toNat_inj.mp (toString_nat_injective (text same))]
  case i64.i64 a b => rw [Int64.toInt_inj.mp (toString_int_injective (text same))]
  case timepoint.timepoint a b => rw [UInt64.toNat_inj.mp (toString_nat_injective (text same))]
  case duration.duration a b => rw [UInt64.toNat_inj.mp (toString_nat_injective (text same))]
  case u128.u128 a b =>
    rw [u128FromParts_injective (BitVec.toNat_inj.mp (toString_nat_injective (text same)))]
  case i128.i128 a b =>
    rw [i128FromParts_injective (BitVec.toInt_inj.mp (toString_int_injective (text same)))]
  case bytes.bytes a b => rw [BytesM.ext (hexText_injective encodings (text same))]
  case bytesN.bytesN a _ b _ => rw [BytesM.ext (hexText_injective encodings (text same))]
  case string.string a b => rw [BytesM.ext (fromUtf8Lossy_injective here here' (text same))]
  case symbol.symbol a b => rw [BytesM.ext (fromUtf8Lossy_injective here here' (text same))]
  case address.address a left b right =>
    rw [addressToString_injective encodings left right (text same)]
  case muxedAddress.muxedAddress a left b right =>
    rw [addressToString_injective encodings left right (text same)]

/-- Text keys of one key type are told apart by their member names. -/
theorem memberName_injective {sym : List UInt8 → ScSymbol → Prop} (left : Inhabits spec sym ty first)
    (right : Inhabits spec sym ty second) (text : isTextKey first) (text' : isTextKey second)
    (utf8 : first.Utf8Text) (utf8' : second.Utf8Text) (same : memberName first = memberName second) :
    first = second := by
  induction left with
  | leaf leaf =>
    have here := utf8.self
    have here' := utf8'.self
    cases right with
    | leaf leaf' =>
      cases leaf with
      | string a => cases leaf' with | string b => rw [BytesM.ext (fromUtf8Lossy_injective here here' same)]
      | symbol a => cases leaf' with | symbol b => rw [BytesM.ext (fromUtf8Lossy_injective here here' same)]
      | _ => cases text
    | _ => cases leaf
  | some _ ih =>
    cases right with
    | leaf leaf => cases leaf
    | none => cases text'
    | some right => exact ih right text utf8 same
  | _ => cases text

theorem ascending_eq_of_mem_iff {entries entries' : List ScMapEntry} (left : keysAscending entries)
    (right : keysAscending entries') (same : ∀ e, e ∈ entries ↔ e ∈ entries') : entries = entries' := by
  have perm : entries.Perm entries' :=
    (List.perm_ext_iff_of_nodup left.nodup.of_map right.nodup.of_map).mpr same
  exact (sortByKey_eq_of_perm (.refl _) left).symm.trans (sortByKey_eq_of_perm perm right)

/-- Two maps with text keys that make the same object. -/
theorem entries_eq_of_obj {entries entries' : List ScMapEntry} (left : keysAscending entries)
    (right : keysAscending entries') (names : (entries.map fun e => memberName e.key).Nodup)
    (names' : (entries'.map fun e => memberName e.key).Nodup)
    (apart : ∀ e ∈ entries, ∀ e' ∈ entries', memberName e.key = memberName e'.key →
      scvalToJson c e.val = scvalToJson c e'.val → e = e')
    (same : Value.obj (entries.map fun e => (memberName e.key, scvalToJson c e.val)) =
      Value.obj (entries'.map fun e => (memberName e.key, scvalToJson c e.val))) : entries = entries' := by
  have inserted {entries : List ScMapEntry} (names : (entries.map fun e => memberName e.key).Nodup) :=
    Value.insertAll_nil_perm (show ((entries.map fun e =>
      (memberName e.key, scvalToJson c e.val)).map Prod.fst).Nodup by rwa [List.map_map])
  have perm := (inserted names).symm.trans (Value.object.inj same ▸ inserted names')
  refine ascending_eq_of_mem_iff left right fun e => ⟨fun member => ?_,fun member => ?_⟩
  · obtain ⟨e',member',agree⟩ := List.mem_map.mp (perm.mem_iff.mp (List.mem_map.mpr ⟨e,member,rfl⟩))
    obtain ⟨name,val⟩ := Prod.mk.inj agree
    rwa [apart e member e' member' name.symm val.symm]
  · obtain ⟨e',member',agree⟩ := List.mem_map.mp (perm.mem_iff.mpr (List.mem_map.mpr ⟨e,member,rfl⟩))
    obtain ⟨name,val⟩ := Prod.mk.inj agree
    rwa [← apart e' member' e member name val]

theorem entryNames_nodup {entries : List ScMapEntry} (ascending : keysAscending entries)
    (apart : ∀ e ∈ entries, ∀ e' ∈ entries, memberName e.key = memberName e'.key → e.key = e'.key) :
    (entries.map fun e => memberName e.key).Nodup := by
  have keys := ascending.nodup.map_on (f := memberName) fun a left b right same => by
    obtain ⟨e,member,rfl⟩ := List.mem_map.mp left
    obtain ⟨e',member',rfl⟩ := List.mem_map.mp right
    exact apart e member e' member' same
  rwa [List.map_map] at keys

/-- Maps with text keys of one type that are rendered alike. Their keys are told apart by
their names, so it is left to tell the values under one key apart. -/
theorem textEntries_injective {entries entries' : List ScMapEntry} {sym : List UInt8 → ScSymbol → Prop}
    (legal : (ScVal.map (some entries)).LegalMaps) (legal' : (ScVal.map (some entries')).LegalMaps)
    (utf8 : (ScVal.map (some entries)).Utf8Text) (utf8' : (ScVal.map (some entries')).Utf8Text)
    (keys : ∀ e ∈ entries, Inhabits spec sym ty e.key ∧ isTextKey e.key)
    (keys' : ∀ e ∈ entries', Inhabits spec sym ty e.key ∧ isTextKey e.key)
    (vals : ∀ e ∈ entries, ∀ e' ∈ entries', e.key = e'.key → scvalToJson c e.val = scvalToJson c e'.val →
      e.val = e'.val)
    (same : scvalToJson c (.map (some entries)) = scvalToJson c (.map (some entries'))) : entries = entries' := by
  rw [scvalToJson_map_text fun e member => (keys e member).2,
    scvalToJson_map_text fun e member => (keys' e member).2] at same
  have names := entryNames_nodup legal.self fun e left e' right => memberName_injective (keys e left).1
    (keys e' right).1 (keys e left).2 (keys e' right).2 (utf8.key left) (utf8.key right)
  have names' := entryNames_nodup legal'.self fun e left e' right => memberName_injective (keys' e left).1
    (keys' e' right).1 (keys' e left).2 (keys' e' right).2 (utf8'.key left) (utf8'.key right)
  apply entries_eq_of_obj legal.self legal'.self names names' ?_ same
  intro e left e' right name val
  have key := memberName_injective (keys e left).1 (keys' e' right).1 (keys e left).2 (keys' e' right).2
    (utf8.key left) (utf8'.key right) name
  ext1
  · exact key
  · exact vals e left e' right key val

/-- Maps of one key type that are rendered alike, when their keys and values can be told apart. -/
theorem mapEntries_injective {entries entries' : List ScMapEntry} {sym : List UInt8 → ScSymbol → Prop}
    (legal : (ScVal.map (some entries)).LegalMaps) (legal' : (ScVal.map (some entries')).LegalMaps)
    (utf8 : (ScVal.map (some entries)).Utf8Text) (utf8' : (ScVal.map (some entries')).Utf8Text)
    (keys : ∀ e ∈ entries, Inhabits spec sym ty e.key) (keys' : ∀ e ∈ entries', Inhabits spec sym ty e.key)
    (apartKeys : ∀ e ∈ entries, ∀ e' ∈ entries', scvalToJson c e.key = scvalToJson c e'.key → e.key = e'.key)
    (apartVals : ∀ e ∈ entries, ∀ e' ∈ entries', scvalToJson c e.val = scvalToJson c e'.val → e.val = e'.val)
    (same : scvalToJson c (.map (some entries)) = scvalToJson c (.map (some entries'))) : entries = entries' := by
  by_cases text : ∀ e ∈ entries, isTextKey e.key
  · by_cases text' : ∀ e ∈ entries', isTextKey e.key
    · apply textEntries_injective legal legal' utf8 utf8' (fun e member => ⟨keys e member,text e member⟩)
        (fun e member => ⟨keys' e member,text' e member⟩) ?_ same
      intro e left e' right _ val
      exact apartVals e left e' right val
    · rw [scvalToJson_map_text text,scvalToJson_map_pairs text'] at same
      cases same
  · by_cases text' : ∀ e ∈ entries', isTextKey e.key
    · rw [scvalToJson_map_pairs text,scvalToJson_map_text text'] at same
      cases same
    · rw [scvalToJson_map_pairs text,scvalToJson_map_pairs text'] at same
      apply eq_of_map_eq (Value.array.inj same)
      intro e left e' right pair
      simp only [Value.array.injEq, List.cons.injEq, and_true] at pair
      ext1
      · exact apartKeys e left e' right pair.1
      · exact apartVals e left e' right pair.2

/-- Two values of a struct with named fields that are rendered alike, when the values of
each field can be told apart. -/
theorem namedEntries_injective {s : ScSpecUdtStructV0} (distinct : (s.fields.map (·.name.bytes)).Nodup)
    {entries declared entries' declared' : List ScMapEntry}
    (legal : (ScVal.map (some entries)).LegalMaps) (legal' : (ScVal.map (some entries')).LegalMaps)
    (utf8 : (ScVal.map (some entries)).Utf8Text) (utf8' : (ScVal.map (some entries')).Utf8Text)
    (field : ∀ e ∈ entries, ∃ f symbol, (e, f) ∈ declared.zip s.fields ∧ verbatim f.name.bytes symbol ∧
      e.key = .symbol symbol)
    (field' : ∀ e ∈ entries', ∃ f symbol, (e, f) ∈ declared'.zip s.fields ∧ verbatim f.name.bytes symbol ∧
      e.key = .symbol symbol)
    (apart : ∀ e ∈ entries, ∀ e' ∈ entries', ∀ f, (e, f) ∈ declared.zip s.fields →
      (e', f) ∈ declared'.zip s.fields → scvalToJson c e.val = scvalToJson c e'.val → e.val = e'.val)
    (same : scvalToJson c (.map (some entries)) = scvalToJson c (.map (some entries'))) : entries = entries' := by
  have symbolic {e : ScMapEntry} {symbol : ScSymbol} (key : e.key = .symbol symbol) :
      Inhabits .empty verbatim .symbol e.key ∧ isTextKey e.key := by
    rw [key]
    exact ⟨.leaf (.symbol symbol),rfl⟩
  have text (e) (member : e ∈ entries) : Inhabits .empty verbatim .symbol e.key ∧ isTextKey e.key := by
    obtain ⟨_,_,_,_,key⟩ := field e member
    exact symbolic key
  have text' (e) (member : e ∈ entries') : Inhabits .empty verbatim .symbol e.key ∧ isTextKey e.key := by
    obtain ⟨_,_,_,_,key⟩ := field' e member
    exact symbolic key
  apply textEntries_injective legal legal' utf8 utf8' text text' ?_ same
  intro e left e' right key val
  obtain ⟨f,symbol,zipped,spelled,shape⟩ := field e left
  obtain ⟨f',symbol',zipped',spelled',shape'⟩ := field' e' right
  have tag : symbol = symbol' := ScVal.symbol.inj (shape.symm.trans (key.trans shape'))
  have bytes : f.name.bytes = f'.name.bytes := spelled.symm.trans (tag ▸ spelled')
  obtain rfl := List.inj_on_of_nodup_map distinct (List.of_mem_zip zipped).2 (List.of_mem_zip zipped').2 bytes
  exact apart e left e' right f zipped zipped' val

/-- Union cases have different names. -/
def ContractSpec.DistinctCases (spec : ContractSpec) : Prop :=
  ∀ name u, spec.resolve name = some (.union u) → (u.cases.map (·.name.bytes)).Nodup

/-- The rendering is injective on the legal UTF-8 values of any one type. -/
theorem scvalToJson_injective (encodings : c.InjectiveEncodings) (fields : spec.DistinctFields)
    (cases' : spec.DistinctCases) (typed : Inhabits spec verbatim ty first)
    (typed' : Inhabits spec verbatim ty second) (legal : first.LegalMaps) (legal' : second.LegalMaps)
    (utf8 : first.Utf8Text) (utf8' : second.Utf8Text)
    (same : scvalToJson c first = scvalToJson c second) : first = second := by
  induction typed generalizing second with
  | leaf leaf =>
    refine leaf_rendered_injective encodings leaf (typed'.toLeaf ?_) utf8 utf8' same
    cases leaf <;> exact id
  | none =>
    rw [scvalToJson] at same
    exact (scvalToJson_eq_null typed' same.symm).symm
  | some typed ih =>
    cases typed' with
    | leaf leaf => cases leaf
    | none =>
      rw [scvalToJson] at same
      exact scvalToJson_eq_null typed same
    | some typed' => exact ih typed' legal legal' utf8 utf8' same
  | vec _ _ ih =>
    cases typed' with
    | leaf leaf => cases leaf
    | vec each' =>
    rw [scvalToJson_vec,scvalToJson_vec] at same
    rw [eq_of_map_eq (Value.array.inj same) fun x member y member' => ih x member (each' y member')
      (legal.item member) (legal'.item member') (utf8.item member) (utf8'.item member')]
  | tuple arity _ _ ih =>
    cases typed' with
    | leaf leaf => cases leaf
    | tuple arity' each' =>
    rw [scvalToJson_vec,scvalToJson_vec] at same
    rw [eq_of_map_eq_zip (Value.array.inj same) arity fun x y ty left right =>
      ih (x, ty) left (each' (y, ty) right) (legal.item (List.of_mem_zip left).1)
        (legal'.item (List.of_mem_zip right).1) (utf8.item (List.of_mem_zip left).1)
        (utf8'.item (List.of_mem_zip right).1)]
  | @map entries _ _ keys vals _ _ ihKeys ihVals =>
    cases typed' with
    | leaf leaf => cases leaf
    | @map entries' _ _ keys' vals' =>
    rw [mapEntries_injective legal legal' utf8 utf8' keys keys' ?_ ?_ same]
    · intro e left e' right
      exact ihKeys e left (keys' e' right) (legal.key left) (legal'.key right) (utf8.key left) (utf8'.key right)
    · intro e left e' right
      exact ihVals e left (vals' e' right) (legal.val left) (legal'.val right) (utf8.val left) (utf8'.val right)
  | positional found positional arity _ _ ih =>
    cases typed' with
    | leaf leaf => cases leaf
    | positional found' positional' arity' each' =>
      cases found.symm.trans found'
      rw [scvalToJson_vec,scvalToJson_vec] at same
      rw [eq_of_map_eq_zip (Value.array.inj same) arity fun x y f left right =>
        ih (x, f) left (each' (y, f) right) (legal.item (List.of_mem_zip left).1)
          (legal'.item (List.of_mem_zip right).1) (utf8.item (List.of_mem_zip left).1)
          (utf8'.item (List.of_mem_zip right).1)]
    | named found' named' =>
      cases found.symm.trans found'
      exact (named' positional).elim
    | union found' | enum found' | errorEnum _ found' => cases found.symm.trans found'
  | @named name s entries declared found named arity keys _ perm _ _ ih =>
    cases typed' with
    | leaf leaf => cases leaf
    | positional found' positional' =>
      cases found.symm.trans found'
      exact (named positional').elim
    | @named _ _ entries' declared' found' named' arity' keys' vals' perm' =>
      cases found.symm.trans found'
      rw [namedEntries_injective (fields _ _ found) legal legal' utf8 utf8'
        (fun e member => entry_field arity perm keys member)
        (fun e member => entry_field arity' perm' keys' member) ?_ same]
      intro e left e' right f zipped zipped'
      exact ih (e, f) zipped (vals' (e', f) zipped') (legal.val left) (legal'.val right) (utf8.val left)
        (utf8'.val right)
    | union found' | enum found' | errorEnum _ found' => cases found.symm.trans found'
  | union found declared spelled arity _ _ ih =>
    cases typed' with
    | leaf leaf => cases leaf
    | union found' declared' spelled' arity' each' =>
      cases found.symm.trans found'
      rw [scvalToJson_vec,scvalToJson_vec] at same
      obtain ⟨head,tail⟩ := List.cons.inj (Value.array.inj same)
      have tag := leaf_rendered_injective encodings (.symbol _) (.symbol _) (utf8.item List.mem_cons_self)
        (utf8'.item List.mem_cons_self) head
      obtain rfl := ScVal.symbol.inj tag
      obtain rfl := List.inj_on_of_nodup_map (cases' _ _ found) declared declared' (spelled.symm.trans spelled')
      rw [eq_of_map_eq_zip tail arity fun x y ty left right =>
        ih (x, ty) left (each' (y, ty) right) (legal.item (List.mem_cons_of_mem _ (List.of_mem_zip left).1))
          (legal'.item (List.mem_cons_of_mem _ (List.of_mem_zip right).1))
          (utf8.item (List.mem_cons_of_mem _ (List.of_mem_zip left).1))
          (utf8'.item (List.mem_cons_of_mem _ (List.of_mem_zip right).1))]
    | positional found' | named found' | enum found' | errorEnum _ found' => cases found.symm.trans found'
  | enum found declared =>
    cases typed' with
    | leaf leaf => cases leaf
    | enum found' declared' =>
      rw [scvalToJson,scvalToJson] at same
      rw [Number.ofU32_injective (Value.number.inj same)]
    | positional found' | named found' | union found' | errorEnum _ found' => cases found.symm.trans found'
  | errorEnum n found =>
    cases typed' with
    | leaf leaf => cases leaf
    | errorEnum m found' =>
      rw [scvalToJson,scvalToJson] at same
      rw [Number.ofU32_injective (Value.number.inj same)]
    | positional found' | named found' | union found' | enum found' => cases found.symm.trans found'

theorem scvalToJson_injective_vec :
    ScVal.vec (some [.void,.string ⟨[0x61],by decide⟩]) = .vec (some [.void,.string ⟨[0x61],by decide⟩]) := by
  have legal : (ScVal.vec (some [.void,.string ⟨[0x61],by decide⟩])).LegalMaps :=
    .pair trivial (.atomic trivial trivial) (.atomic trivial trivial)
  have utf8 : (ScVal.vec (some [.void,.string ⟨[0x61],by decide⟩])).Utf8Text :=
    .pair trivial (.atomic trivial trivial) (.atomic trivial (show IsUtf8 [0x61] by decide))
  have typed : Inhabits .empty verbatim (.vec (.option .string))
      (.vec (some [.void,.string ⟨[0x61],by decide⟩])) := by
    refine .vec ?_ (by decide)
    simpa using ⟨.none,.some (.leaf (.string _))⟩
  exact scvalToJson_injective (Crates.reference_strkey.injective Crates.reference_hex)
    (fun _ _ found => absurd found resolve_empty) (fun _ _ found => absurd found resolve_empty) typed typed
    legal legal utf8 utf8 rfl

end SorobanProxy
