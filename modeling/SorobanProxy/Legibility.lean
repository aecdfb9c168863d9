import SorobanProxy.Readback

/-! What a reader can tell from rendered JSON: whether every entry of a map is there, and
whether a ledger key shown as the contract instance is the contract instance. -/
namespace SorobanProxy

open Library

variable {c : Crates} {entries : List ScMapEntry}

/-- The JSON has one member, or one pair, for each entry, with the entry's value. -/
def KeepsEntries (c : Crates) (entries : List ScMapEntry) : Value → Prop
  | .object members =>
    members.Perm (entries.map fun e => (memberName e.key, scvalToJson c e.val)) ∧
      ∀ e ∈ entries, Entries.find (memberName e.key) members = some (scvalToJson c e.val)
  | .array pairs => pairs = entries.map fun e => .array [scvalToJson c e.key, scvalToJson c e.val]
  | _ => False

/-- A symbol and a string of the same text are keys, and there are only such keys. -/
def TextsClash (entries : List ScMapEntry) : Prop :=
  (∀ e ∈ entries, isTextKey e.key) ∧ ∃ a ∈ entries, ∃ b ∈ entries, ∃ (s : ScSymbol) (t : ScString),
    a.key = .symbol s ∧ b.key = .string t ∧ s.bytes = t.bytes

/-- Different keys of one name are a symbol and a string. -/
theorem eq_or_clash {a b : ScVal} (text : isTextKey a) (text' : isTextKey b) (utf8 : a.TextHas IsUtf8)
    (utf8' : b.TextHas IsUtf8) (same : memberName a = memberName b) :
    a = b ∨ (∃ (s : ScSymbol) (t : ScString), a = .symbol s ∧ b = .string t ∧ s.bytes = t.bytes) ∨
      ∃ (s : ScSymbol) (t : ScString), b = .symbol s ∧ a = .string t ∧ s.bytes = t.bytes := by
  cases a with
  | symbol s =>
    cases b with
    | symbol t => exact .inl (congrArg _ (BytesM.ext (fromUtf8Lossy_injective utf8 utf8' same)))
    | string t => exact .inr (.inl ⟨s,t,rfl,rfl,fromUtf8Lossy_injective utf8 utf8' same⟩)
    | _ => cases text'
  | string t =>
    cases b with
    | symbol s => exact .inr (.inr ⟨s,t,rfl,rfl,(fromUtf8Lossy_injective utf8 utf8' same).symm⟩)
    | string s => exact .inl (congrArg _ (BytesM.ext (fromUtf8Lossy_injective utf8 utf8' same)))
    | _ => cases text'
  | _ => cases text

theorem names_nodup_iff (text : ∀ e ∈ entries, isTextKey e.key) (distinct : (entries.map MapEntry.key).Nodup)
    (utf8 : ∀ e ∈ entries, e.key.TextHas IsUtf8) :
    (entries.map fun e => memberName e.key).Nodup ↔ ¬TextsClash entries := by
  constructor
  · rintro names ⟨_,a,left,b,right,s,t,symbol,string,same⟩
    have name : memberName a.key = memberName b.key := by
      rw [symbol,string]
      exact congrArg fromUtf8Lossy same
    obtain rfl := List.inj_on_of_nodup_map names left right name
    rw [symbol] at string
    cases string
  · intro apart
    have shape : entries.map (fun e => memberName e.key) = (entries.map MapEntry.key).map memberName := by
      rw [List.map_map]
      rfl
    rw [shape]
    refine distinct.map_on ?_
    intro k listed l listed' same
    obtain ⟨a,left,rfl⟩ := List.mem_map.mp listed
    obtain ⟨b,right,rfl⟩ := List.mem_map.mp listed'
    rcases eq_or_clash (text a left) (text b right) (utf8 a left) (utf8 b right) same with
      same | ⟨s,t,symbol,string,bytes⟩ | ⟨s,t,symbol,string,bytes⟩
    · exact same
    · exact absurd ⟨text,a,left,b,right,s,t,symbol,string,bytes⟩ apart
    · exact absurd ⟨text,b,right,a,left,s,t,symbol,string,bytes⟩ apart

/-- Every entry of a map is rendered, unless a symbol and a string of the same text are
among keys that are all text. -/
theorem map_keepsEntries_iff (c : Crates) (distinct : (entries.map MapEntry.key).Nodup)
    (utf8 : ∀ e ∈ entries, e.key.TextHas IsUtf8) :
    KeepsEntries c entries (scvalToJson c (.map (some entries))) ↔ ¬TextsClash entries := by
  by_cases text : ∀ e ∈ entries, isTextKey e.key
  · rw [scvalToJson_map_text text,← names_nodup_iff text distinct utf8]
    have names : (entries.map fun e => (memberName e.key, scvalToJson c e.val)).map Prod.fst =
        entries.map fun e => memberName e.key := by
      rw [List.map_map]
      rfl
    constructor
    · rintro ⟨same,_⟩
      have sorted :
          Entries.Sorted (Entries.insertAll [] (entries.map fun e => (memberName e.key, scvalToJson c e.val))) :=
        Entries.sorted_nil.insertAll _
      rw [← names]
      exact (same.map Prod.fst).nodup_iff.mp (sorted.imp ne_of_lt)
    · intro apart
      rw [← names] at apart
      refine ⟨Value.insertAll_nil_perm apart,fun e member => ?_⟩
      exact Value.find_insertAll apart (List.mem_map.mpr ⟨e,member,rfl⟩)
  · rw [scvalToJson_map_pairs text]
    exact iff_of_true rfl fun clash => text clash.1

/-- A string and a symbol `a`, in the order of the host. -/
def clashingEntries : List ScMapEntry :=
  [⟨.string ⟨[0x61],by decide⟩,.u32 1⟩,⟨.symbol ⟨[0x61],by decide⟩,.u32 2⟩]

theorem map_keepsEntries_iff_number : KeepsEntries .reference [⟨.u32 1,.bool true⟩]
    (scvalToJson .reference (.map (some [⟨.u32 1,.bool true⟩]))) ↔ ¬TextsClash [⟨.u32 1,.bool true⟩] :=
  map_keepsEntries_iff .reference (by simp) (by simp [ScVal.TextHas])

/-- The object has one member for the two entries. -/
theorem map_entry_overwritten : ¬∀ (c : Crates) (entries : List ScMapEntry), (entries.map MapEntry.key).Nodup →
    (∀ e ∈ entries, e.key.TextHas IsUtf8) →
    KeepsEntries c entries (scvalToJson c (.map (some entries))) := by
  intro always
  have keeps := always .reference clashingEntries (by simp [clashingEntries]) ?_
  · have text : ∀ e ∈ clashingEntries, isTextKey e.key := by simp [clashingEntries,isTextKey]
    rw [scvalToJson_map_text text] at keeps
    have length := keeps.1.length_eq
    rw [List.length_map] at length
    exact absurd length (by decide)
  · intro e member
    simp only [clashingEntries, List.mem_cons, List.not_mem_nil, or_false] at member
    rcases member with rfl | rfl
    · exact (show IsUtf8 [0x61] by decide)
    · exact (show IsUtf8 [0x61] by decide)

/-- The variant's name in the source. -/
def ScAddress.variant : ScAddress → String
  | .account _ => "Account"
  | .contract _ => "Contract"
  | .muxedAccount _ _ => "MuxedAccount"
  | .claimableBalance _ => "ClaimableBalance"
  | .liquidityPool _ => "LiquidityPool"

/-- A derived debug text begins with the name of the variant. -/
def Crates.DebugLaw (c : Crates) : Prop := ∀ a, ∃ fields, c.debugAddress a = a.variant ++ fields

/-- The reference instance with debug texts of addresses. -/
def Crates.naming : Crates where
  __ := reference
  debugAddress := ScAddress.variant

theorem Crates.naming_strkey : naming.StrkeyLaw where
  __ := reference_strkey

theorem Crates.naming_debug : naming.DebugLaw := fun _ => ⟨"",by simp [naming]⟩

/-- A key whose text is the label of the contract instance. -/
def ScVal.ReadsInstance : ScVal → Prop
  | .symbol s => StringM.toUtf8StringLossy s = "instance"
  | .string s => StringM.toUtf8StringLossy s = "instance"
  | _ => False

theorem addressToString_ne_instance (strkey : c.StrkeyLaw) (debug : c.DebugLaw) (a : ScAddress) :
    addressToString c a ≠ "instance" := by
  intro same
  have head := congrArg (fun s : String => s.toList.head?) same
  obtain ⟨fields,text⟩ := debug a
  cases a with
  | account key => exact absurd ((strkey.publicKeyLetter key).symm.trans head) (by decide)
  | contract id => exact absurd ((strkey.contractLetter id).symm.trans head) (by decide)
  | _ => simp [addressToString,text,ScAddress.variant,String.toList_append] at head

theorem toString_int_ne_instance (n : Int) : toString n ≠ "instance" := by
  intro same
  have read := Numeral.literal_toString_int n
  have refused : Numeral.literal true "instance".toList = none := by decide
  rw [same,refused] at read
  cases read

theorem toString_nat_ne_instance (n : Nat) : toString n ≠ "instance" := toString_int_ne_instance n

/-- The general rendering gives the label for a text key alone. -/
theorem scvalToJson_eq_instance_iff (strkey : c.StrkeyLaw) (debug : c.DebugLaw) {key : ScVal} :
    scvalToJson c key = .str "instance" ↔ key.ReadsInstance := by
  have label (s : String) : Value.str s = .str "instance" ↔ s = "instance" := by simp [Value.str]
  cases key with
  | symbol _ | string _ =>
    rw [scvalToJson,label]
    rfl
  | u64 _ | timepoint _ | duration _ | u128 _ =>
    rw [scvalToJson,label]
    exact iff_of_false (toString_nat_ne_instance _) id
  | i64 _ | i128 _ =>
    rw [scvalToJson,label]
    exact iff_of_false (toString_int_ne_instance _) id
  | bytes b =>
    rw [scvalToJson,label]
    refine iff_of_false (fun same => ?_) id
    have head := congrArg (fun s : String => s.toList.head?) same
    simp [String.toList_append] at head
  | address a =>
    rw [scvalToJson,label]
    exact iff_of_false (addressToString_ne_instance strkey debug a) id
  | vec items => cases items <;> (rw [scvalToJson]; exact iff_of_false (by rintro ⟨⟩) id)
  | map entries =>
    cases entries with
    | none => rw [scvalToJson]; exact iff_of_false (by rintro ⟨⟩) id
    | some entries =>
      by_cases text : ∀ e ∈ entries, isTextKey e.key
      · rw [scvalToJson_map_text text]; exact iff_of_false (by rintro ⟨⟩) id
      · rw [scvalToJson_map_pairs text]; exact iff_of_false (by rintro ⟨⟩) id
  | _ => rw [scvalToJson]; exact iff_of_false (by rintro ⟨⟩) id

/-- Entries of one contract and durability are shown alike just where their keys are. -/
theorem contractData_shown_iff {contract : ScAddress} {durability : ContractDataDurability} {key : ScVal}
    (other : key ≠ .ledgerKeyContractInstance) :
    ledgerKeyToJson c (.contractData contract .ledgerKeyContractInstance durability) =
      ledgerKeyToJson c (.contractData contract key durability) ↔ scvalToJson c key = .str "instance" := by
  let entry (shown : Value) : List (String × Value) := [
    ("type", .str "contract_data"),
    ("contract", .str (addressToString c contract)),
    ("key", shown),
    ("durability", .str durability.debug)]
  have shown : ledgerKeyToJson c (.contractData contract key durability) = .obj (entry (scvalToJson c key)) := by
    cases key with
    | ledgerKeyContractInstance => exact absurd rfl other
    | _ => rfl
  have get (v : Value) : (Value.obj (entry v)).get "key" = some v := by
    have names : ((entry v).map Prod.fst).Nodup := show ["type", "contract", "key", "durability"].Nodup by decide
    exact Value.get_obj names (by simp [entry])
  change Value.obj (entry (.str "instance")) = _ ↔ _
  rw [shown]
  constructor
  · intro same
    have label := congrArg (Value.get "key") same
    rw [get,get] at label
    exact (Option.some.inj label).symm
  · intro label
    rw [label]

/-- The contract instance is told from a data entry of the contract, unless the entry's key
is a text that reads like the label of the instance. -/
theorem instance_apart_iff (strkey : c.StrkeyLaw) (debug : c.DebugLaw) (contract : ScAddress)
    (durability : ContractDataDurability) {key : ScVal} (other : key ≠ .ledgerKeyContractInstance) :
    ledgerKeyToJson c (.contractData contract .ledgerKeyContractInstance durability) ≠
      ledgerKeyToJson c (.contractData contract key durability) ↔ ¬key.ReadsInstance := by
  rw [Ne,contractData_shown_iff other,scvalToJson_eq_instance_iff strkey debug]

/-- A contract of 32 zero bytes. -/
def sampleContract : ScAddress := .contract ⟨List.replicate 32 0,by decide⟩

/-- The symbol `instance` as a storage key. -/
def instanceSymbol : ScVal := .symbol ⟨[0x69, 0x6E, 0x73, 0x74, 0x61, 0x6E, 0x63, 0x65],by decide⟩

theorem instance_apart_iff_counter :
    ledgerKeyToJson .naming (.contractData sampleContract .ledgerKeyContractInstance .persistent) ≠
      ledgerKeyToJson .naming (.contractData sampleContract (.u32 7) .persistent) ↔ ¬(ScVal.u32 7).ReadsInstance :=
  instance_apart_iff Crates.naming_strkey Crates.naming_debug sampleContract .persistent (by simp)

/-- The entry under the symbol `instance` is shown as the contract instance. -/
theorem instance_label_shared : ¬∀ (c : Crates) (contract : ScAddress) (durability : ContractDataDurability)
    (key : ScVal), c.StrkeyLaw → c.DebugLaw → key ≠ .ledgerKeyContractInstance →
    ledgerKeyToJson c (.contractData contract .ledgerKeyContractInstance durability) ≠
      ledgerKeyToJson c (.contractData contract key durability) := by
  intro always
  have apart := always .naming sampleContract .persistent instanceSymbol Crates.naming_strkey Crates.naming_debug
    (by simp [instanceSymbol])
  apply apart
  rw [contractData_shown_iff (by simp [instanceSymbol]),scvalToJson_eq_instance_iff Crates.naming_strkey
    Crates.naming_debug]
  exact (show fromUtf8Lossy [0x69, 0x6E, 0x73, 0x74, 0x61, 0x6E, 0x63, 0x65] = "instance" by decide)

end SorobanProxy
