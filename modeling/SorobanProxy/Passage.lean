import SorobanProxy.Render
import SorobanProxy.Library.Outcomes

/-! Text on its way to the contract and back. Going in it is parsed, which reads backslash
sequences, and coming out it is only decoded: text with a backslash does not survive. -/
namespace SorobanProxy

open Library

variable {c : Crates} {spec : ContractSpec} {escapes : Escapes UInt8}

/-- As a value and as a map key the text becomes the string with its bytes, which is
rendered as the text. -/
def TextKept (c : Crates) (spec : ContractSpec) (s : String) : Prop :=
  ∃ kept : ScString, kept.bytes = utf8 s ∧ jsonToScval c spec (.string s) .string = .ok (.string kept) ∧
    jsonKeyToScval c s .string = .ok (.string kept) ∧ scvalToJson c (.string kept) = .string s

theorem jsonToScval_string_ok_iff {s : String} {kept : ScString} :
    jsonToScval c spec (.string s) .string = .ok (.string kept) ↔ c.stringFromStr u32Max s = some kept := by
  rw [jsonToScval.eq_def]
  simp [Value.get,Value.asStr,stringFromStr]

theorem jsonKeyToScval_string_ok_iff {s : String} {kept : ScString} :
    jsonKeyToScval c s .string = .ok (.string kept) ↔ c.stringFromStr u32Max s = some kept := by
  simp [jsonKeyToScval,stringFromStr]

/-- A string with the bytes of the text is rendered as the text, whatever the text. -/
theorem scvalToJson_of_bytes {s : String} {kept : ScString} (same : kept.bytes = utf8 s) :
    scvalToJson c (.string kept) = .string s := by
  rw [scvalToJson,StringM.toUtf8StringLossy,same,fromUtf8Lossy_utf8,Value.str]

theorem textKept_iff_parsed {s : String} : TextKept c spec s ↔
    ∃ parsed : ScString, c.stringFromStr u32Max s = some parsed ∧ parsed.bytes = utf8 s := by
  constructor
  · rintro ⟨kept,same,ok,_⟩
    exact ⟨kept,jsonToScval_string_ok_iff.mp ok,same⟩
  · rintro ⟨kept,parsed,same⟩
    exact ⟨kept,same,jsonToScval_string_ok_iff.mpr parsed,jsonKeyToScval_string_ok_iff.mpr parsed,
      scvalToJson_of_bytes same⟩

/-- Text survives just where it has no backslash. -/
theorem textKept_iff_plain (law : c.EscapeLaw escapes) (spec : ContractSpec) {s : String}
    (fits : (utf8 s).length ≤ u32Max) : TextKept c spec s ↔ Plain s := by
  rw [textKept_iff_parsed]
  exact law.unchanged_iff fits

theorem textKept_plain : TextKept .unescaping .empty "transfer" ↔ Plain "transfer" :=
  textKept_iff_plain Crates.unescaping_escapes .empty (by decide)

/-- A path with a backslash does not survive. -/
theorem backslash_not_kept : ¬∀ (c : Crates) (escapes : Escapes UInt8) (spec : ContractSpec) (s : String),
    c.EscapeLaw escapes → (utf8 s).length ≤ u32Max → TextKept c spec s := by
  intro always
  have kept := always .unescaping Crates.backslashes .empty "C:\\new" Crates.unescaping_escapes (by decide)
  have plain := (Crates.unescaping_escapes.unchanged_iff (by decide)).mp (textKept_iff_parsed.mp kept)
  revert plain
  decide

-- A text with a backslash may be changed without an error, and it may be refused.
example : Crates.backslashes.unescape [0x5C, 0x6E] = some [0x0A] := by
  have newline : Crates.backslashes.sequence [0x6E] = some (0x0A, []) := rfl
  exact (Escapes.unescape_marked newline).trans (by rw [Escapes.unescape]; rfl)

example : Crates.backslashes.unescape [0x5C] = none := Escapes.unescape_dangling rfl

end SorobanProxy
