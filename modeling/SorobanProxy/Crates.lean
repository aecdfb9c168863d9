import SorobanProxy.Spec
import SorobanProxy.Library.Escapes
import SorobanProxy.Library.Hex

/-! The library code that the conversions call and that is not part of the proxy, as
parameters, and what the proxy relies on about it. -/
namespace SorobanProxy

structure Crates where
  /-- `StringM::from_str`, whose error is dropped. -/
  stringFromStr : (max : Nat) → String → Option (StringM max)
  /-- Deserialization of a whole `ScVal` from its serde form. -/
  scvalFromValue : Value → Except String ScVal
  hexEncode : List UInt8 → String
  hexDecode : String → Except String (List UInt8)
  /-- The `G...` account strkey. -/
  publicKeyToString : Bytes32 → String
  publicKeyFromString : String → Option Bytes32
  /-- The `C...` contract strkey. -/
  contractToString : Bytes32 → String
  contractFromString : String → Option Bytes32
  /-- Derived debug texts. -/
  debugTypeDef : ScSpecTypeDef → String
  debugError : ScError → String
  debugAddress : ScAddress → String

/-- Text that no parser unescapes. -/
def Plain (s : String) : Prop := '\\' ∉ s.toList

instance (s : String) : Decidable (Plain s) := inferInstanceAs (Decidable (_ ∉ _))

namespace Crates

/-- Parsing text that has no backslash only checks its length. -/
structure TextLaw (c : Crates) : Prop where
  plain : ∀ {max : Nat} {s : String}, Plain s → c.stringFromStr max s = BytesM.tryFrom max (utf8 s)

/-- Parsing text reads its backslash sequences, whatever they are, and then checks the length. -/
structure EscapeLaw (c : Crates) (escapes : Library.Escapes UInt8) : Prop where
  mark : escapes.mark = 0x5C
  parse : ∀ max s, c.stringFromStr max s = (escapes.unescape (utf8 s)).bind (BytesM.tryFrom max)

/-- Decoding undoes encoding, a contract strkey is not an account strkey, and each kind
starts with its letter. -/
structure StrkeyLaw (c : Crates) : Prop where
  publicKey : ∀ key, c.publicKeyFromString (c.publicKeyToString key) = some key
  contract : ∀ id, c.contractFromString (c.contractToString id) = some id
  versions : ∀ id, c.publicKeyFromString (c.contractToString id) = none
  publicKeyLetter : ∀ key, (c.publicKeyToString key).toList.head? = some 'G'
  contractLetter : ∀ id, (c.contractToString id).toList.head? = some 'C'

structure HexLaw (c : Crates) : Prop where
  decode_encode : ∀ bytes, c.hexDecode (c.hexEncode bytes) = .ok bytes

/-- The encodings alone, with nothing about the decoders. -/
structure InjectiveEncodings (c : Crates) : Prop where
  publicKey : Function.Injective c.publicKeyToString
  contract : Function.Injective c.contractToString
  versions : ∀ key id, c.publicKeyToString key ≠ c.contractToString id
  hex : Function.Injective c.hexEncode

theorem TextLaw.some_iff {c : Crates} (text : c.TextLaw) {max : Nat} {s : String} (plain : Plain s)
    {parsed : StringM max} : c.stringFromStr max s = some parsed ↔ parsed.bytes = utf8 s := by
  rw [text.plain plain,BytesM.tryFrom_eq_some_iff]

theorem EscapeLaw.marked_iff {c : Crates} {escapes : Library.Escapes UInt8} (law : c.EscapeLaw escapes)
    {s : String} : escapes.mark ∈ utf8 s ↔ ¬Plain s := by
  rw [law.mark,mem_utf8_iff (by decide),Plain,not_not]
  constructor
  · rintro ⟨ch,member,same⟩
    have backslash : ch = '\\' := Char.ext (UInt32.toNat_inj.mp same)
    rwa [← backslash]
  · intro member
    exact ⟨_,member,rfl⟩

theorem EscapeLaw.textLaw {c : Crates} {escapes : Library.Escapes UInt8} (law : c.EscapeLaw escapes) :
    c.TextLaw where
  plain {max s} plain := by
    have unmarked : escapes.mark ∉ utf8 s := fun marked => law.marked_iff.mp marked plain
    rw [law.parse,Library.Escapes.unescape_of_unmarked unmarked]
    rfl

/-- Text comes out of the parser as it went in just where it has no backslash. -/
theorem EscapeLaw.unchanged_iff {c : Crates} {escapes : Library.Escapes UInt8} (law : c.EscapeLaw escapes)
    {max : Nat} {s : String} (fits : (utf8 s).length ≤ max) :
    (∃ parsed : StringM max, c.stringFromStr max s = some parsed ∧ parsed.bytes = utf8 s) ↔ Plain s := by
  constructor
  · rintro ⟨parsed,ok,same⟩
    rw [law.parse] at ok
    obtain ⟨out,read,checked⟩ := Option.bind_eq_some_iff.mp ok
    rw [← BytesM.tryFrom_eq_some_iff.mp checked,same] at read
    by_contra backslash
    exact Library.Escapes.unescape_eq_self_iff.mp read (law.marked_iff.mpr backslash)
  · intro plain
    exact ⟨⟨utf8 s,fits⟩,(law.textLaw.some_iff plain).mpr rfl,rfl⟩

theorem StrkeyLaw.injective {c : Crates} (strkey : c.StrkeyLaw) (hex : c.HexLaw) :
    c.InjectiveEncodings where
  publicKey a b same := by
    have := strkey.publicKey a
    rw [same,strkey.publicKey b] at this
    exact (Option.some.inj this).symm
  contract a b same := by
    have := strkey.contract a
    rw [same,strkey.contract b] at this
    exact (Option.some.inj this).symm
  versions key id same := by
    have := strkey.publicKey key
    rw [same,strkey.versions id] at this
    cases this
  hex a b same := by
    have := hex.decode_encode a
    rw [same,hex.decode_encode b] at this
    exact (Except.ok.inj this).symm

/-- A key or hash under a letter that tells the two kinds apart, in hexadecimal. -/
def taggedToString (tag : Char) (key : Bytes32) : String :=
  .ofList (tag :: Library.Hex.encodeChars key.bytes)

def taggedFromString (tag : Char) (s : String) : Option Bytes32 :=
  match s.toList with
  | head :: rest =>
    match Library.Hex.decodeChars rest with
    | .ok bytes =>
      if length_eq : bytes.length = 32 then if head = tag then some ⟨bytes,length_eq⟩ else none else none
    | .error _ => none
  | [] => none

theorem taggedFromString_toString (tag other : Char) (key : Bytes32) :
    taggedFromString other (taggedToString tag key) = if tag = other then some key else none := by
  simp only [taggedFromString, taggedToString, String.toList_ofList,
    Library.Hex.decodeChars_encodeChars, dif_pos key.length_eq]

/-- An instance that meets the laws. Text with a backslash is refused and strkeys are
tagged hexadecimal; on plain text without addresses it does what the libraries do. -/
def reference : Crates where
  stringFromStr max s := if Plain s then BytesM.tryFrom max (utf8 s) else none
  scvalFromValue _ := .error "unsupported"
  hexEncode := Library.Hex.encode
  hexDecode := Library.Hex.decode
  publicKeyToString := taggedToString 'G'
  publicKeyFromString := taggedFromString 'G'
  contractToString := taggedToString 'C'
  contractFromString := taggedFromString 'C'
  debugTypeDef _ := ""
  debugError _ := ""
  debugAddress _ := ""

theorem reference_text : reference.TextLaw where
  plain h := if_pos h

theorem reference_strkey : reference.StrkeyLaw where
  publicKey key := taggedFromString_toString 'G' 'G' key
  contract id := taggedFromString_toString 'C' 'C' id
  versions id := taggedFromString_toString 'C' 'G' id
  publicKeyLetter key := by simp [reference,taggedToString]
  contractLetter id := by simp [reference,taggedToString]

theorem reference_hex : reference.HexLaw where
  decode_encode := Library.Hex.decode_encode

/-- The sequences after a backslash: some letters, a backslash, and two hexadecimal digits. -/
def backslashSequence : List UInt8 → Option (UInt8 × List UInt8)
  | 0x30 :: rest => some (0x00, rest)
  | 0x74 :: rest => some (0x09, rest)
  | 0x6E :: rest => some (0x0A, rest)
  | 0x72 :: rest => some (0x0D, rest)
  | 0x5C :: rest => some (0x5C, rest)
  | 0x78 :: high :: low :: rest =>
    match Library.Hex.digitValue (.ofNat high.toNat), Library.Hex.digitValue (.ofNat low.toNat) with
    | some high, some low => some (.ofNat (high * 16 + low), rest)
    | _, _ => none
  | _ => none

def backslashes : Library.Escapes UInt8 where
  mark := 0x5C
  sequence := backslashSequence
  consumes input symbol rest found := by
    unfold backslashSequence at found
    repeat' split at found
    all_goals simp_all
    all_goals omega

/-- The reference instance with backslash sequences in its texts. -/
def unescaping : Crates where
  __ := reference
  stringFromStr max s := (backslashes.unescape (utf8 s)).bind (BytesM.tryFrom max)

theorem unescaping_escapes : unescaping.EscapeLaw backslashes where
  mark := rfl
  parse _ _ := rfl

end Crates
end SorobanProxy
