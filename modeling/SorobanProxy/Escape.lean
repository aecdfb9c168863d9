import SorobanProxy.Conversion

/-! Members of a map argument and the name of the escape hatch. The hatch is looked for
before the type, at every call: an object without that name keeps all its members. -/
namespace SorobanProxy

open Library

variable {c : Crates} {spec : ContractSpec}

/-- The key value that a plain name stands for, where it fits. -/
def plainKey (keyType : ScSpecTypeDef) (name : String) : Option ScVal :=
  match keyType with
  | .string => (BytesM.tryFrom u32Max (utf8 name)).map .string
  | .symbol => (BytesM.tryFrom 32 (utf8 name)).map .symbol
  | _ => none

/-- The map has one entry for each member: its key and its converted value. -/
def KeepsMembers (c : Crates) (spec : ContractSpec) (keyType valueType : ScSpecTypeDef)
    (members : List (String × Value)) : Prop :=
  ∃ entries listed, jsonToScval c spec (.object members) (.map keyType valueType) = .ok (.map (some entries)) ∧
    List.Forall₂ (fun m e => plainKey keyType m.1 = some e.key ∧
      jsonToScval c spec m.2 valueType = .ok e.val) members listed ∧
    entries.Perm listed

theorem jsonKeyToScval_plain (text : c.TextLaw) {keyType : ScSpecTypeDef} {name : String} {key : ScVal}
    (plain : Plain name) (spelled : plainKey keyType name = some key) :
    jsonKeyToScval c name keyType = .ok key := by
  unfold plainKey at spelled
  split at spelled
  · obtain ⟨s,fits,rfl⟩ := Option.map_eq_some_iff.mp spelled
    simp [jsonKeyToScval,stringFromStr,text.plain plain,fits]
  · obtain ⟨s,fits,rfl⟩ := Option.map_eq_some_iff.mp spelled
    simp [jsonKeyToScval,symbolFromStr,text.plain plain,fits]
  · cases spelled

/-- Where no member has the name of the hatch, every member becomes an entry. The key type
is a string or a symbol, as no name is a plain key of another type. -/
theorem map_keepsMembers (text : c.TextLaw) {keyType valueType : ScSpecTypeDef}
    {members : List (String × Value)} (noHatch : "__xdr" ∉ members.map Prod.fst)
    (fewer : members.length < 2 ^ 32) (keys : ∀ m ∈ members, Plain m.1 ∧ plainKey keyType m.1 ≠ none)
    (values : ∀ m ∈ members, ∃ v, jsonToScval c spec m.2 valueType = .ok v) :
    KeepsMembers c spec keyType valueType members := by
  have converts (m) (member : m ∈ members) : ∃ e : ScMapEntry, plainKey keyType m.1 = some e.key ∧
      jsonToScval c spec m.2 valueType = .ok e.val := by
    obtain ⟨key,spelled⟩ := Option.ne_none_iff_exists'.mp (keys m member).2
    obtain ⟨v,ok⟩ := values m member
    exact ⟨⟨key,v⟩,spelled,ok⟩
  choose! entry spelled ok using converts
  have listed : List.Forall₂ (fun m e => plainKey keyType m.1 = some e.key ∧
      jsonToScval c spec m.2 valueType = .ok e.val) members (members.map entry) :=
    List.forall₂_map_right_iff.mpr (List.forall₂_same.mpr fun m member => ⟨spelled m member,ok m member⟩)
  have converted : List.Forall₂ (fun m e => jsonKeyToScval c m.1 keyType = .ok e.key ∧
      jsonToScval c spec m.2 valueType = .ok e.val) members (members.map entry) :=
    List.forall₂_map_right_iff.mpr (List.forall₂_same.mpr fun m member =>
      ⟨jsonKeyToScval_plain text (keys m member).1 (spelled m member),ok m member⟩)
  have fits : (members.map entry).length ≤ u32Max := by
    rw [List.length_map,u32Max]
    omega
  have absent : (Value.object members).get "__xdr" = none := Entries.find_eq_none_iff.mpr noHatch
  exact ⟨_,_,(map_ok_iff absent).mpr ⟨_,_,rfl,converted,fits,rfl⟩,listed,sortByKey_perm _⟩

theorem map_keepsMembers_strings :
    KeepsMembers .reference .empty .string .u32 [("a", .number (.posInt 1)), ("xdr", .number (.posInt 2))] := by
  refine map_keepsMembers Crates.reference_text (by decide) (by decide) (by decide) fun m member => ?_
  simp only [List.mem_cons, List.not_mem_nil, or_false] at member
  rcases member with rfl | rfl
  · exact ⟨.u32 1,by simp [jsonToScval]; decide⟩
  · exact ⟨.u32 2,by simp [jsonToScval]; decide⟩

/-- With the hatch's name among the keys the object is not taken for a map. -/
theorem map_hatch_member : ¬∀ (c : Crates) (spec : ContractSpec) (keyType valueType : ScSpecTypeDef)
    (members : List (String × Value)), c.TextLaw → keyType = .string ∨ keyType = .symbol →
    (Value.object members).WellFormed → members.length < 2 ^ 32 →
    (∀ m ∈ members, Plain m.1 ∧ plainKey keyType m.1 ≠ none) →
    (∀ m ∈ members, ∃ v, jsonToScval c spec m.2 valueType = .ok v) →
    KeepsMembers c spec keyType valueType members := by
  intro always
  obtain ⟨entries,listed,ok,_⟩ := always .reference .empty .string .u32 [("__xdr", .number (.posInt 1))]
    Crates.reference_text (.inl rfl) (by simp [Value.wellFormed_object_iff,Entries.Sorted]) (by decide) (by decide) (by
      simpa using ⟨.u32 1,by simp [jsonToScval]; decide⟩)
  rw [jsonToScval_hatch (x := .number (.posInt 1)) rfl] at ok
  cases ok

end SorobanProxy
