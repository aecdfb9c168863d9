import SorobanProxy.Scval

/-! Contract values as plain JSON, without a type to direct it: return values, and the
ledger keys of a simulated footprint. -/
namespace SorobanProxy

open Library

def addressToString (c : Crates) : ScAddress → String
  | .account key => c.publicKeyToString key
  | .contract id => c.contractToString id
  | other => c.debugAddress other

def accountIdToString (c : Crates) (id : Bytes32) : String := c.publicKeyToString id

def isTextKey : ScVal → Bool
  | .symbol _ | .string _ => true
  | _ => false

/-- The member name for a text key. -/
def memberName : ScVal → String
  | .symbol s => StringM.toUtf8StringLossy s
  | .string s => StringM.toUtf8StringLossy s
  | _ => "" -- unreachable: the caller has checked `isTextKey`

theorem sizeOf_entry_lt {e : ScMapEntry} {entries : List ScMapEntry} (member : e ∈ entries) :
    sizeOf e.key < sizeOf (ScVal.map (some entries)) ∧ sizeOf e.val < sizeOf (ScVal.map (some entries)) := by
  have smaller := List.sizeOf_lt_of_mem member
  obtain ⟨key,val⟩ := e
  simp at smaller ⊢
  omega

def scvalToJson (c : Crates) : ScVal → Value
  | .bool b => .bool b
  | .void => .null
  | .error e => .obj [("error", .str (c.debugError e))]
  | .u32 n => .number (.ofU32 n)
  | .i32 n => .number (.ofI32 n)
  | .u64 n => .str (toString n.toNat)
  | .i64 n => .str (toString n.toInt)
  | .timepoint t => .str (toString t.toNat)
  | .duration d => .str (toString d.toNat)
  | .u128 p => .str (toString (u128FromParts p).toNat)
  | .i128 p => .str (toString (i128FromParts p).toInt)
  | .u256 _ | .i256 _ => .obj [("note", .str "256-bit value; refetch with raw XDR for full precision")]
  | .bytes b => .str ("0x" ++ c.hexEncode b.bytes)
  | .string s => .str (StringM.toUtf8StringLossy s)
  | .symbol s => .str (StringM.toUtf8StringLossy s)
  | .vec (some items) => .array (items.map fun x => scvalToJson c x)
  | .vec none => .array []
  | .map (some entries) =>
    if entries.all fun e => isTextKey e.key then
      .obj (entries.map fun e => (memberName e.key, scvalToJson c e.val))
    else
      .array (entries.map fun e => .array [scvalToJson c e.key, scvalToJson c e.val])
  | .map none => .object []
  | .address a => .str (addressToString c a)
  | .contractInstance _ _ => .obj [("note", .str "contract instance value")]
  | .ledgerKeyContractInstance => .null
  | .ledgerKeyNonce nonce => .obj [("nonce", .str (toString nonce.toInt))]
termination_by v => v
decreasing_by
  · simpa using Nat.lt_of_lt_of_le (List.sizeOf_lt_of_mem ‹_›) (by omega)
  · exact (sizeOf_entry_lt ‹_›).2
  · exact (sizeOf_entry_lt ‹_›).1
  · exact (sizeOf_entry_lt ‹_›).2

def ContractDataDurability.debug : ContractDataDurability → String
  | .temporary => "Temporary"
  | .persistent => "Persistent"

/-- A footprint entry for API callers. -/
def ledgerKeyToJson (c : Crates) : LedgerKey → Value
  | .account accountId => .obj [
    ("type", .str "account"),
    ("account_id", .str (accountIdToString c accountId))]
  | .contractData contract key durability => .obj [
    ("type", .str "contract_data"),
    ("contract", .str (addressToString c contract)),
    ("key", match key with
      | .ledgerKeyContractInstance => .str "instance"
      | key => scvalToJson c key),
    ("durability", .str durability.debug)]
  | .contractCode hash => .obj [
    ("type", .str "contract_code"),
    ("hash", .str (c.hexEncode hash.bytes))]
  | .other debug => .obj [
    ("type", .str "other"),
    ("debug", .str debug)]

section Rendering

variable {c : Crates}

theorem scvalToJson_vec (items : List ScVal) :
    scvalToJson c (.vec (some items)) = .array (items.map (scvalToJson c)) := by
  rw [scvalToJson]

theorem scvalToJson_map_text {entries : List ScMapEntry} (text : ∀ e ∈ entries, isTextKey e.key) :
    scvalToJson c (.map (some entries)) =
      .obj (entries.map fun e => (memberName e.key, scvalToJson c e.val)) := by
  rw [scvalToJson,if_pos (by simpa using text)]

theorem scvalToJson_map_pairs {entries : List ScMapEntry} (other : ¬∀ e ∈ entries, isTextKey e.key) :
    scvalToJson c (.map (some entries)) =
      .array (entries.map fun e => .array [scvalToJson c e.key, scvalToJson c e.val]) := by
  rw [scvalToJson,if_neg (by simpa using other)]

end Rendering
end SorobanProxy
