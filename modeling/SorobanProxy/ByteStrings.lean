import SorobanProxy.Readback

/-! The spellings of a byte string: hexadecimal in any letter case, the same after `0x`, and
an array of numbers. They are read alike, and nothing else is read. -/
namespace SorobanProxy

open Library

/-- The `hex` crate reads pairs of digits in either case, and writes lower case. -/
structure Crates.HexTextLaw (c : Crates) : Prop where
  decode : ∀ s bytes, c.hexDecode s = .ok bytes ↔ Hex.Denotes s.toList bytes
  encode : ∀ bytes, c.hexEncode bytes = Hex.encode bytes

theorem Crates.reference_hexText : Crates.reference.HexTextLaw where
  decode _ _ := Hex.decodeChars_ok_iff
  encode _ := rfl

/-- The text is the hexadecimal form of the bytes up to letter case. -/
def HexOf (bytes : List UInt8) (s : String) : Prop :=
  s.toList.map Char.toLower = (Hex.encode bytes).toList

instance (bytes : List UInt8) (s : String) : Decidable (HexOf bytes s) := inferInstanceAs (Decidable (_ = _))

/-- The JSON values that spell the bytes. -/
inductive SpellsBytes (bytes : List UInt8) : Value → Prop where
  | hex : HexOf bytes s → SpellsBytes bytes (.string s)
  | marked : HexOf bytes s → SpellsBytes bytes (.string ("0x" ++ s))
  | array : SpellsBytes bytes (.array (bytes.map fun byte => .number (.posInt byte.toUInt64)))

/-- The types of byte strings. -/
def ScSpecTypeDef.ByteString : ScSpecTypeDef → Prop
  | .bytes | .bytesN _ => True
  | _ => False

/-- The lengths that a type of byte strings has. -/
def ScSpecTypeDef.TakesLength (length : Nat) : ScSpecTypeDef → Prop
  | .bytesN n => length = n.toNat
  | _ => True

variable {c : Crates} {spec : ContractSpec} {value : Value} {v : ScVal} {bytes : List UInt8}

theorem hexOf_iff {s : String} : HexOf bytes s ↔ Hex.Denotes s.toList bytes := by
  rw [HexOf,Hex.encode,String.toList_ofList,Hex.denotes_iff_toLower]

/-- The mark cannot be the beginning of hexadecimal text. -/
theorem not_hexOf_marked (s : String) : ¬HexOf bytes ("0x" ++ s) := by
  rw [hexOf_iff,String.toList_append]
  intro denotes
  obtain ⟨n,digit⟩ := denotes.digits 'x' (by simp)
  exact absurd digit (by simp [Hex.digitValue])

theorem bytesFromJson_string_ok_iff (law : c.HexTextLaw) {s : String} : bytesFromJson c (.string s) = .ok bytes ↔
    ∃ text, (s = text ∨ s = "0x" ++ text) ∧ HexOf bytes text := by
  rw [bytesFromJson,mapError_eq_ok_iff,law.decode,← hexOf_iff]
  cases stripped : stripPrefix "0x" s with
  | none =>
    rw [Option.getD_none]
    constructor
    · exact fun denotes => ⟨s,.inl rfl,denotes⟩
    · rintro ⟨text,rfl | rfl,denotes⟩
      · exact denotes
      · rw [stripPrefix_append] at stripped
        cases stripped
  | some rest =>
    obtain rfl := stripPrefix_eq_some_iff.mp stripped
    rw [Option.getD_some]
    constructor
    · exact fun denotes => ⟨rest,.inr rfl,denotes⟩
    · rintro ⟨text,rfl | same,denotes⟩
      · exact absurd denotes (not_hexOf_marked rest)
      · rw [same,stripPrefix_append] at stripped
        rwa [← Option.some.inj stripped]

theorem u8TryFrom_eq_some_iff {m : UInt64} {n : UInt8} : u8TryFrom m = some n ↔ m = n.toUInt64 := by
  have bound := n.toNat_lt
  rw [← UInt64.toNat_inj,UInt8.toNat_toUInt64]
  unfold u8TryFrom
  split_ifs with fits
  · rw [Option.some_inj,← UInt8.toNat_inj,UInt64.toNat_toUInt8,Nat.mod_eq_of_lt fits]
  · apply iff_of_false
    · simp
    · omega

/-- An element is read when it is a number of one byte. -/
theorem byte_eq_some_iff {byte : UInt8} :
    value.asU64.bind u8TryFrom = some byte ↔ value = .number (.posInt byte.toUInt64) := by
  simp only [Option.bind_eq_some_iff, Value.asU64_eq_some_iff, u8TryFrom_eq_some_iff, exists_eq_right]

theorem bytesFromJson_array_ok_iff {items : List Value} : bytesFromJson c (.array items) = .ok bytes ↔
    items = bytes.map fun byte => .number (.posInt byte.toUInt64) := by
  simp only [bytesFromJson, mapM_eq_ok_iff, okOr_eq_ok_iff, byte_eq_some_iff]
  rw [← List.forall₂_map_right_iff,List.forall₂_eq_eq_eq]

theorem bytesFromJson_ok_iff (law : c.HexTextLaw) : bytesFromJson c value = .ok bytes ↔ SpellsBytes bytes value := by
  cases value with
  | string s =>
    rw [bytesFromJson_string_ok_iff law]
    constructor
    · rintro ⟨text,rfl | rfl,denotes⟩
      · exact .hex denotes
      · exact .marked denotes
    · intro spelled
      cases spelled with
      | hex denotes => exact ⟨s,.inl rfl,denotes⟩
      | marked denotes => exact ⟨_,.inr rfl,denotes⟩
  | array items =>
    rw [bytesFromJson_array_ok_iff]
    constructor
    · rintro rfl
      exact .array
    · intro spelled
      cases spelled
      rfl
  | _ =>
    apply iff_of_false
    · simp [bytesFromJson]
    · intro spelled
      cases spelled

theorem SpellsBytes.noHatch (spelled : SpellsBytes bytes value) : value.get "__xdr" = none := by
  cases spelled <;> rfl

section Types

variable {ty : ScSpecTypeDef} (type : ty.ByteString)
include type

theorem byteString_ok_iff (noHatch : value.get "__xdr" = none) : jsonToScval c spec value ty = .ok v ↔
    ∃ b : ScBytes, bytesFromJson c value = .ok b.bytes ∧ ty.TakesLength b.bytes.length ∧ v = .bytes b := by
  rw [jsonToScval.eq_def,noHatch]
  cases ty with
  | bytes =>
    simp only [bind_eq_ok_iff, okOr_eq_ok_iff, BytesM.tryFrom_eq_some_iff, pure_eq_ok_iff]
    constructor
    · rintro ⟨bytes,read,b,rfl,rfl⟩
      exact ⟨b,read,trivial,rfl⟩
    · rintro ⟨b,read,_,rfl⟩
      exact ⟨b.bytes,read,b,rfl,rfl⟩
  | bytesN n =>
    simp only [bind_eq_ok_iff]
    constructor
    · rintro ⟨bytes,read,ok⟩
      split_ifs at ok with size
      simp only [bind_eq_ok_iff, okOr_eq_ok_iff, BytesM.tryFrom_eq_some_iff, pure_eq_ok_iff] at ok
      obtain ⟨b,rfl,rfl⟩ := ok
      exact ⟨b,read,not_not.mp size,rfl⟩
    · rintro ⟨b,read,size,rfl⟩
      have size : b.bytes.length = n.toNat := size
      refine ⟨b.bytes,read,?_⟩
      rw [if_neg (not_not.mpr size)]
      simp only [bind_eq_ok_iff, okOr_eq_ok_iff, BytesM.tryFrom_eq_some_iff, pure_eq_ok_iff]
      exact ⟨b,rfl,rfl⟩
  | _ => exact type.elim

theorem spelled_ok_iff (law : c.HexTextLaw) {b : ScBytes} (spelled : SpellsBytes b.bytes value) :
    jsonToScval c spec value ty = .ok v ↔ ty.TakesLength b.bytes.length ∧ v = .bytes b := by
  have read := (bytesFromJson_ok_iff law).mpr spelled
  rw [byteString_ok_iff type spelled.noHatch]
  constructor
  · rintro ⟨b',read',size,rfl⟩
    obtain rfl := BytesM.ext (Except.ok.inj (read.symm.trans read'))
    exact ⟨size,rfl⟩
  · rintro ⟨size,rfl⟩
    exact ⟨b,read,size,rfl⟩

/-- Values that are read alike are converted alike, failures included. -/
theorem byteString_congr {value' : Value} (left : value.get "__xdr" = none) (right : value'.get "__xdr" = none)
    (same : bytesFromJson c value = bytesFromJson c value') :
    jsonToScval c spec value ty = jsonToScval c spec value' ty := by
  rw [jsonToScval.eq_def,jsonToScval.eq_def,left,right]
  cases ty with
  | bytes => simp only [same]
  | bytesN n => simp only [same]
  | _ => exact type.elim

end Types

/-- The spellings of a byte string have one result, nothing else is accepted than they, and
what is rendered is one of them. -/
theorem byteStrings_spelled (law : c.HexTextLaw) (spec : ContractSpec) :
    (∀ (b : ScBytes) value ty v, SpellsBytes b.bytes value → ty.ByteString →
      (jsonToScval c spec value ty = .ok v ↔ ty.TakesLength b.bytes.length ∧ v = .bytes b)) ∧
    (∀ bytes value value' ty, SpellsBytes bytes value → SpellsBytes bytes value' → ty.ByteString →
      jsonToScval c spec value ty = jsonToScval c spec value' ty) ∧
    (∀ value ty v, value.get "__xdr" = none → ty.ByteString → jsonToScval c spec value ty = .ok v →
      ∃ b : ScBytes, v = .bytes b ∧ SpellsBytes b.bytes value) ∧
    (∀ bytes s, SpellsBytes bytes (.string s) ↔
      ∃ text : String, (s = text ∨ s = "0x" ++ text) ∧ text.toList.length = 2 * bytes.length ∧
        Hex.Denotes text.toList bytes) ∧
    ∀ (b : ScBytes) ty, ty.ByteString → ty.TakesLength b.bytes.length →
      jsonToScval c spec (scvalToJson c (.bytes b)) ty = .ok (.bytes b) := by
  refine ⟨?_,?_,?_,?_,?_⟩
  · exact fun b value ty v spelled type => spelled_ok_iff type law spelled
  · intro bytes value value' ty spelled spelled' type
    apply byteString_congr type spelled.noHatch spelled'.noHatch
    rw [(bytesFromJson_ok_iff law).mpr spelled,(bytesFromJson_ok_iff law).mpr spelled']
  · intro value ty v noHatch type ok
    obtain ⟨b,read,_,rfl⟩ := (byteString_ok_iff type noHatch).mp ok
    exact ⟨b,rfl,(bytesFromJson_ok_iff law).mp read⟩
  · intro bytes s
    rw [← bytesFromJson_ok_iff law,bytesFromJson_string_ok_iff law]
    refine exists_congr fun text => and_congr_right fun _ => ?_
    rw [hexOf_iff]
    exact ⟨fun denotes => ⟨denotes.length_eq,denotes⟩,And.right⟩
  · intro b ty type size
    have rendered : SpellsBytes b.bytes (scvalToJson c (.bytes b)) := by
      rw [scvalToJson,law.encode]
      apply SpellsBytes.marked
      rw [hexOf_iff,← Hex.decodeChars_ok_iff]
      exact Hex.decode_encode b.bytes
    exact (spelled_ok_iff type law rendered).mpr ⟨size,rfl⟩

theorem byteStrings_spelled_marked :
    jsonToScval .reference .empty (.string ("0x" ++ "aB")) (.bytesN 1) = .ok (.bytes ⟨[0xAB],by decide⟩) :=
  ((byteStrings_spelled Crates.reference_hexText .empty).1 ⟨[0xAB],by decide⟩ _ _ _
    (.marked (by decide)) (show (ScSpecTypeDef.bytesN 1).ByteString from trivial)).mpr ⟨rfl,rfl⟩

end SorobanProxy
