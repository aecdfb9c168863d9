import SorobanProxy.ContractSource

/-! The key of a hash in the cache. Trimming and lowercasing leave the hash that a text
denotes alone, and one hash has one key: its bytes in lower case. -/
namespace SorobanProxy

open Library

/-- What lowercasing makes of a character: at least one character, white space of white
space only, and digits of ASCII only. -/
structure LowercaseOf (char : Char) (out : List Char) : Prop where
  nonempty : out ≠ []
  whitespace : ∀ d ∈ out, isWhitespace d = isWhitespace char
  digits : 0x80 ≤ char.toNat → ∀ d ∈ out, Hex.digitValue d = none

/-- What the lookup relies on of the `hex` crate and of the Unicode tables. -/
structure HashTextLaw (p : Platform) : Prop where
  hex : ∀ s bytes, p.hexDecode s = .ok bytes ↔ Hex.decode s = .ok bytes
  lowercase : ∀ s, ∃ outs, List.Forall₂ LowercaseOf s.toList outs ∧ (p.lowercaseUnicode s).toList = outs.flatten

/-- There is no white space at either end. -/
structure Trimmed (text : List Char) : Prop where
  head : ∀ char, text.head? = some char → isWhitespace char = false
  last : ∀ char, text.reverse.head? = some char → isWhitespace char = false

theorem Trimmed.trim_eq {s : String} (trimmed : Trimmed s.toList) : trim s = s := by
  have keep {text : List Char} (head : ∀ char, text.head? = some char → isWhitespace char = false) :
      text.dropWhile isWhitespace = text := by
    cases text with
    | nil => rfl
    | cons char rest => exact List.dropWhile_cons_of_neg (by simp [head char rfl])
  rw [trim,keep trimmed.head,keep trimmed.last,List.reverse_reverse,String.ofList_toList]

theorem trimmed_trim (s : String) : Trimmed (trim s).toList := by
  have stripped (text : List Char) (char : Char) (head : (text.dropWhile isWhitespace).head? = some char) :
      isWhitespace char = false := by
    have := List.head?_dropWhile_not isWhitespace text
    simpa [head] using this
  rw [trim,String.toList_ofList]
  constructor
  · intro char head
    rw [List.head?_reverse] at head
    obtain ⟨dropped,whole⟩ := List.dropWhile_suffix isWhitespace (l := (s.toList.dropWhile isWhitespace).reverse)
    have last := congrArg List.getLast? whole
    rw [List.getLast?_append,head,Option.some_or,List.getLast?_reverse] at last
    exact stripped _ _ last.symm
  · intro char head
    rw [List.reverse_reverse] at head
    exact stripped _ _ head

theorem LowercaseOf.reverse {char : Char} {out : List Char} (lower : LowercaseOf char out) :
    LowercaseOf char out.reverse where
  nonempty := by simpa using lower.nonempty
  whitespace := by simpa using lower.whitespace
  digits := by simpa using lower.digits

theorem head_of_lowercase {text : List Char} {outs : List (List Char)} (each : List.Forall₂ LowercaseOf text outs)
    {d : Char} (head : outs.flatten.head? = some d) :
    ∃ char, text.head? = some char ∧ isWhitespace d = isWhitespace char := by
  cases each with
  | nil => cases head
  | @cons char out _ _ lower _ =>
    cases out with
    | nil => exact absurd rfl lower.nonempty
    | cons first _ =>
      cases head
      exact ⟨char,rfl,lower.whitespace _ List.mem_cons_self⟩

/-- Lowercase text begins and ends with white space only where the text does. -/
theorem Trimmed.lowercase {text : List Char} {outs : List (List Char)} (each : List.Forall₂ LowercaseOf text outs)
    (trimmed : Trimmed text) : Trimmed outs.flatten where
  head := by
    intro d head
    obtain ⟨char,first,same⟩ := head_of_lowercase each head
    rw [same,trimmed.head char first]
  last := by
    intro d last
    have reversed : List.Forall₂ LowercaseOf text.reverse (outs.map List.reverse).reverse := by
      rw [List.forall₂_reverse_iff,List.forall₂_map_right_iff]
      exact each.imp fun _ _ => LowercaseOf.reverse
    rw [List.reverse_flatten] at last
    obtain ⟨char,first,same⟩ := head_of_lowercase reversed last
    rw [same,trimmed.last char first]

theorem lowercaseOf_ascii {char : Char} (ascii : char.toNat < 0x80) : LowercaseOf char [char.toLower] where
  nonempty := by simp
  whitespace := by
    have table := Hex.forall_ascii (P := fun char => isWhitespace char.toLower = isWhitespace char) (by decide)
    simpa using table char ascii
  digits := fun other => absurd ascii (Nat.not_lt.mpr other)

variable {p : Platform}

theorem toLowercase_ascii {s : String} (ascii : ∀ char ∈ s.toList, char.toNat < 0x80) :
    (toLowercase p s).toList = s.toList.map Char.toLower := by
  rw [toLowercase,if_pos (by simpa using ascii),String.toList_ofList]

theorem HashTextLaw.lowercased (law : HashTextLaw p) (s : String) :
    ∃ outs, List.Forall₂ LowercaseOf s.toList outs ∧ (toLowercase p s).toList = outs.flatten := by
  by_cases ascii : ∀ char ∈ s.toList, char.toNat < 0x80
  · refine ⟨s.toList.map fun char => [char.toLower],?_,?_⟩
    · rw [List.forall₂_map_right_iff,List.forall₂_same]
      exact fun char member => lowercaseOf_ascii (ascii char member)
    · rw [toLowercase_ascii ascii,← List.flatMap_def,List.map_eq_flatMap]
  · rw [toLowercase,if_neg (by simpa using ascii)]
    exact law.lowercase s

theorem HashTextLaw.trimmed_normalizeHash (law : HashTextLaw p) (s : String) : Trimmed (normalizeHash p s).toList := by
  obtain ⟨outs,each,shape⟩ := law.lowercased (trim s)
  rw [normalizeHash,shape]
  exact (trimmed_trim s).lowercase each

theorem parseWasmHash_eq_ok_iff {s : String} {hash : Bytes32} :
    parseWasmHash p s = .ok hash ↔ p.hexDecode (trim s) = .ok hash.bytes := by
  obtain ⟨bytes,length⟩ := hash
  unfold parseWasmHash
  cases p.hexDecode (trim s) with
  | error e => simp [Except.mapError,bind,Except.bind]
  | ok found =>
    simp only [Except.mapError, bind, Except.bind, Except.ok.injEq]
    split_ifs with fits
    · simp [pure,Except.pure]
    · simp only [false_iff]
      rintro rfl
      exact fits length

/-- A hash under its key is the hash of the text, and the key is the hash in lower case. -/
theorem HashTextLaw.normalized (law : HashTextLaw p) {s : String} {hash : Bytes32}
    (read : parseWasmHash p (normalizeHash p s) = .ok hash) :
    parseWasmHash p s = .ok hash ∧ normalizeHash p s = Hex.encode hash.bytes := by
  obtain ⟨outs,each,shape⟩ := law.lowercased (trim s)
  rw [parseWasmHash_eq_ok_iff,(law.trimmed_normalizeHash s).trim_eq,law.hex,Hex.decode,normalizeHash] at read
  by_cases ascii : ∀ char ∈ (trim s).toList, char.toNat < 0x80
  · rw [toLowercase_ascii ascii,Hex.decodeChars_map_toLower] at read
    constructor
    · rw [parseWasmHash_eq_ok_iff,law.hex]
      exact read
    · apply String.toList_inj.mp
      rw [normalizeHash,toLowercase_ascii ascii,Hex.encode,String.toList_ofList,
        (Hex.decodeChars_ok_iff.mp read).encodeChars_eq]
  · simp only [not_forall, Nat.not_lt] at ascii
    obtain ⟨char,member,other⟩ := ascii
    obtain ⟨out,inside,lower⟩ := forall₂_mem_left each member
    obtain ⟨d,first⟩ := List.exists_mem_of_ne_nil out lower.nonempty
    have part : d ∈ (toLowercase p (trim s)).toList := by
      rw [shape]
      exact List.mem_flatten.mpr ⟨out,inside,first⟩
    obtain ⟨n,digit⟩ := (Hex.decodeChars_ok_iff.mp read).digits d part
    rw [lower.digits other d first] at digit
    cases digit

end SorobanProxy
