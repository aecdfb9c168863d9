import SorobanProxy.Library.OrderTree
import SorobanProxy.Text
import Mathlib.Data.List.Sort
import Mathlib.Order.Hom.Basic

/-! The `stellar_xdr` types of contract values, and their derived order: variants in
declaration order, then fields from left to right. -/
namespace SorobanProxy

open Library (OrderTree)

/-- `u32::MAX`, the bound of every XDR vector without a smaller one. -/
def u32Max : Nat := 2 ^ 32 - 1

/-- A byte vector with a length bound, as `BytesM` and `StringM` keep it. -/
structure BytesM (max : Nat) where
  bytes : List UInt8
  length_le : bytes.length ≤ max
  deriving DecidableEq

/-- Text from the network: nothing makes the bytes UTF-8. -/
abbrev StringM := BytesM

abbrev ScBytes := BytesM u32Max
abbrev ScString := StringM u32Max
abbrev ScSymbol := StringM 32

def BytesM.empty {max : Nat} : BytesM max := ⟨[],Nat.zero_le max⟩

@[ext] theorem BytesM.ext {max : Nat} {a b : BytesM max} (same : a.bytes = b.bytes) : a = b := by
  cases a
  cases b
  simp_all

def BytesM.tryFrom (max : Nat) (bytes : List UInt8) : Option (BytesM max) :=
  if length_le : bytes.length ≤ max then some ⟨bytes,length_le⟩ else none

theorem BytesM.tryFrom_eq_some_iff {max : Nat} {bytes : List UInt8} {b : BytesM max} :
    BytesM.tryFrom max bytes = some b ↔ b.bytes = bytes := by
  unfold BytesM.tryFrom
  split_ifs with fits
  · simp [BytesM.ext_iff,eq_comm]
  · simp only [false_iff]
    rintro rfl
    exact fits b.length_le

def StringM.toUtf8StringLossy {max : Nat} (s : StringM max) : String := fromUtf8Lossy s.bytes

/-- A 32-byte hash or key. -/
structure Bytes32 where
  bytes : List UInt8
  length_eq : bytes.length = 32
  deriving DecidableEq

inductive ScErrorCode where
  | arithDomain | indexBounds | invalidInput | missingValue | existingValue
  | exceededLimit | invalidAction | internalError | unexpectedType | unexpectedSize
  deriving DecidableEq, Repr

inductive ScError where
  | contract (code : UInt32)
  | wasmVm (code : ScErrorCode)
  | context (code : ScErrorCode)
  | storage (code : ScErrorCode)
  | object (code : ScErrorCode)
  | crypto (code : ScErrorCode)
  | events (code : ScErrorCode)
  | budget (code : ScErrorCode)
  | value (code : ScErrorCode)
  | auth (code : ScErrorCode)
  deriving DecidableEq

@[ext] structure UInt128Parts where
  hi : UInt64
  lo : UInt64
  deriving DecidableEq

@[ext] structure Int128Parts where
  hi : Int64
  lo : UInt64
  deriving DecidableEq

@[ext] structure UInt256Parts where
  hiHi : UInt64
  hiLo : UInt64
  loHi : UInt64
  loLo : UInt64
  deriving DecidableEq

@[ext] structure Int256Parts where
  hiHi : Int64
  hiLo : UInt64
  loHi : UInt64
  loLo : UInt64
  deriving DecidableEq

inductive ScAddress where
  | account (key : Bytes32)
  | contract (id : Bytes32)
  | muxedAccount (id : UInt64) (key : Bytes32)
  | claimableBalance (id : Bytes32)
  | liquidityPool (id : Bytes32)
  deriving DecidableEq

inductive ContractExecutable where
  | wasm (hash : Bytes32)
  | stellarAsset
  deriving DecidableEq

/-- `ScMapEntry`, over the type of values that it is part of. -/
@[ext] structure MapEntry (α : Type) where
  key : α
  val : α
  deriving DecidableEq, Inhabited

inductive ScVal where
  | bool (b : Bool)
  | void
  | error (e : ScError)
  | u32 (n : UInt32)
  | i32 (n : Int32)
  | u64 (n : UInt64)
  | i64 (n : Int64)
  | timepoint (n : UInt64)
  | duration (n : UInt64)
  | u128 (parts : UInt128Parts)
  | i128 (parts : Int128Parts)
  | u256 (parts : UInt256Parts)
  | i256 (parts : Int256Parts)
  | bytes (b : ScBytes)
  | string (s : ScString)
  | symbol (s : ScSymbol)
  | vec (items : Option (List ScVal))
  | map (entries : Option (List (MapEntry ScVal)))
  | address (a : ScAddress)
  | contractInstance (executable : ContractExecutable) (storage : Option (List (MapEntry ScVal)))
  | ledgerKeyContractInstance
  | ledgerKeyNonce (nonce : Int64)

instance : Inhabited ScVal := ⟨.void⟩

abbrev ScMapEntry := MapEntry ScVal

section Order

open Library.OrderTree (leaf node)

def bytesTree (bytes : List UInt8) : OrderTree := node 0 (bytes.map fun b => leaf b.toNat)

def ScErrorCode.rank : ScErrorCode → Int
  | .arithDomain => 0
  | .indexBounds => 1
  | .invalidInput => 2
  | .missingValue => 3
  | .existingValue => 4
  | .exceededLimit => 5
  | .invalidAction => 6
  | .internalError => 7
  | .unexpectedType => 8
  | .unexpectedSize => 9

def ScError.tree : ScError → OrderTree
  | .contract code => node 0 [leaf code.toNat]
  | .wasmVm code => node 1 [leaf code.rank]
  | .context code => node 2 [leaf code.rank]
  | .storage code => node 3 [leaf code.rank]
  | .object code => node 4 [leaf code.rank]
  | .crypto code => node 5 [leaf code.rank]
  | .events code => node 6 [leaf code.rank]
  | .budget code => node 7 [leaf code.rank]
  | .value code => node 8 [leaf code.rank]
  | .auth code => node 9 [leaf code.rank]

def ScAddress.tree : ScAddress → OrderTree
  | .account key => node 0 [bytesTree key.bytes]
  | .contract id => node 1 [bytesTree id.bytes]
  | .muxedAccount id key => node 2 [leaf id.toNat, bytesTree key.bytes]
  | .claimableBalance id => node 3 [bytesTree id.bytes]
  | .liquidityPool id => node 4 [bytesTree id.bytes]

def ContractExecutable.tree : ContractExecutable → OrderTree
  | .wasm hash => node 0 [bytesTree hash.bytes]
  | .stellarAsset => node 1 []

def ScVal.rank : ScVal → Int
  | .bool _ => 0
  | .void => 1
  | .error _ => 2
  | .u32 _ => 3
  | .i32 _ => 4
  | .u64 _ => 5
  | .i64 _ => 6
  | .timepoint _ => 7
  | .duration _ => 8
  | .u128 _ => 9
  | .i128 _ => 10
  | .u256 _ => 11
  | .i256 _ => 12
  | .bytes _ => 13
  | .string _ => 14
  | .symbol _ => 15
  | .vec _ => 16
  | .map _ => 17
  | .address _ => 18
  | .contractInstance _ _ => 19
  | .ledgerKeyContractInstance => 20
  | .ledgerKeyNonce _ => 21

mutual
def ScVal.tree (v : ScVal) : OrderTree := node v.rank <|
  match v with
  | .void | .ledgerKeyContractInstance => []
  | .bool b => [leaf b.toNat]
  | .error e => [e.tree]
  | .u32 n => [leaf n.toNat]
  | .i32 n => [leaf n.toInt]
  | .u64 n | .timepoint n | .duration n => [leaf n.toNat]
  | .i64 n | .ledgerKeyNonce n => [leaf n.toInt]
  | .u128 p => [leaf p.hi.toNat, leaf p.lo.toNat]
  | .i128 p => [leaf p.hi.toInt, leaf p.lo.toNat]
  | .u256 p => [leaf p.hiHi.toNat, leaf p.hiLo.toNat, leaf p.loHi.toNat, leaf p.loLo.toNat]
  | .i256 p => [leaf p.hiHi.toInt, leaf p.hiLo.toNat, leaf p.loHi.toNat, leaf p.loLo.toNat]
  | .bytes b => [bytesTree b.bytes]
  | .string s => [bytesTree s.bytes]
  | .symbol s => [bytesTree s.bytes]
  | .vec items => [vecTree items]
  | .map entries => [mapTree entries]
  | .address a => [a.tree]
  | .contractInstance executable storage => [executable.tree, mapTree storage]

def vecTree : Option (List ScVal) → OrderTree
  | none => node 0 []
  | some items => node 1 (trees items)

def mapTree : Option (List (MapEntry ScVal)) → OrderTree
  | none => node 0 []
  | some entries => node 1 (entryTrees entries)

def trees : List ScVal → List OrderTree
  | [] => []
  | v :: rest => v.tree :: trees rest

def entryTrees : List (MapEntry ScVal) → List OrderTree
  | [] => []
  | ⟨key, val⟩ :: rest => node 0 [key.tree, val.tree] :: entryTrees rest
end

theorem leaf_injective {a b : Int} : leaf a = leaf b ↔ a = b := by simp [leaf]

theorem bytesTree_injective {a b : List UInt8} : bytesTree a = bytesTree b ↔ a = b := by
  have values : Function.Injective fun byte : UInt8 => leaf byte.toNat := by
    intro x y same
    exact UInt8.toNat_inj.mp (Int.ofNat_inj.mp (leaf_injective.mp same))
  simp [bytesTree,List.map_inj_right values]

theorem Bytes32.ext {a b : Bytes32} (same : a.bytes = b.bytes) : a = b := by
  cases a
  cases b
  simp_all

theorem ScErrorCode.rank_injective {a b : ScErrorCode} (same : a.rank = b.rank) : a = b := by
  cases a <;> cases b <;> first | rfl | exact absurd same (by decide)

theorem ScError.tree_injective {a b : ScError} (same : a.tree = b.tree) : a = b := by
  cases a <;> cases b <;> simp only [tree, OrderTree.node.injEq, List.cons.injEq, and_true, true_and, false_and,
    Int.reduceEq, leaf_injective, Int.natCast_inj, UInt32.toNat_inj] at same
  case contract.contract => exact congrArg _ same
  all_goals exact congrArg _ (ScErrorCode.rank_injective same)

theorem ScAddress.tree_injective {a b : ScAddress} (same : a.tree = b.tree) : a = b := by
  cases a <;> cases b <;> simp only [tree, OrderTree.node.injEq, List.cons.injEq, and_true, true_and, false_and,
    Int.reduceEq, leaf_injective, bytesTree_injective, Int.natCast_inj, UInt64.toNat_inj] at same
  case muxedAccount.muxedAccount => exact congrArg₂ _ same.1 (Bytes32.ext same.2)
  all_goals exact congrArg _ (Bytes32.ext same)

theorem ContractExecutable.tree_injective {a b : ContractExecutable} (same : a.tree = b.tree) :
    a = b := by
  cases a <;> cases b <;> simp [tree,bytesTree_injective] at same
  · exact congrArg _ (Bytes32.ext same)
  · rfl

mutual
theorem ScVal.tree_injective (a b : ScVal) (same : a.tree = b.tree) : a = b := by
  rw [ScVal.tree.eq_def,ScVal.tree.eq_def,OrderTree.node.injEq] at same
  obtain ⟨rank,parts⟩ := same
  cases a <;> cases b <;> simp [ScVal.rank] at rank
  all_goals simp only [List.cons.injEq, and_true, leaf_injective, bytesTree_injective, Int.natCast_inj,
    UInt32.toNat_inj, UInt64.toNat_inj, Int32.toInt_inj, Int64.toInt_inj, ← BytesM.ext_iff] at parts
  case vec.vec => rw [vecTree_injective _ _ parts]
  case map.map => rw [mapTree_injective _ _ parts]
  case contractInstance.contractInstance =>
    rw [ContractExecutable.tree_injective parts.1,mapTree_injective _ _ parts.2]
  case error.error => rw [ScError.tree_injective parts]
  case address.address => rw [ScAddress.tree_injective parts]
  case bool.bool x y => revert parts; cases x <;> cases y <;> simp
  case u128.u128 x y => exact congrArg _ (UInt128Parts.ext parts.1 parts.2)
  case i128.i128 x y => exact congrArg _ (Int128Parts.ext parts.1 parts.2)
  case u256.u256 x y => exact congrArg _ (UInt256Parts.ext parts.1 parts.2.1 parts.2.2.1 parts.2.2.2)
  case i256.i256 x y => exact congrArg _ (Int256Parts.ext parts.1 parts.2.1 parts.2.2.1 parts.2.2.2)
  all_goals first | rfl | rw [parts]

theorem vecTree_injective : ∀ a b : Option (List ScVal), vecTree a = vecTree b → a = b
  | none, none, _ => rfl
  | none, some _, same => by simp [vecTree] at same
  | some _, none, same => by simp [vecTree] at same
  | some xs, some ys, same => by
    rw [trees_injective xs ys (OrderTree.node.inj same).2]

theorem mapTree_injective : ∀ a b : Option (List (MapEntry ScVal)), mapTree a = mapTree b → a = b
  | none, none, _ => rfl
  | none, some _, same => by simp [mapTree] at same
  | some _, none, same => by simp [mapTree] at same
  | some xs, some ys, same => by
    rw [entryTrees_injective xs ys (OrderTree.node.inj same).2]

theorem trees_injective : ∀ xs ys : List ScVal, trees xs = trees ys → xs = ys
  | [], [], _ => rfl
  | [], _ :: _, same => by simp [trees] at same
  | _ :: _, [], same => by simp [trees] at same
  | x :: xs, y :: ys, same => by
    simp only [trees, List.cons.injEq] at same
    rw [ScVal.tree_injective x y same.1,trees_injective xs ys same.2]

theorem entryTrees_injective : ∀ xs ys : List (MapEntry ScVal), entryTrees xs = entryTrees ys → xs = ys
  | [], [], _ => rfl
  | [], _ :: _, same => by simp [entryTrees] at same
  | _ :: _, [], same => by simp [entryTrees] at same
  | ⟨k,v⟩ :: xs, ⟨l,w⟩ :: ys, same => by
    simp only [entryTrees, List.cons.injEq, OrderTree.node.injEq, true_and, and_true] at same
    rw [ScVal.tree_injective k l same.1.1,ScVal.tree_injective v w same.1.2,
      entryTrees_injective xs ys same.2]
end

instance : LinearOrder ScVal :=
  LinearOrder.lift' ScVal.tree fun a b same => ScVal.tree_injective a b same

end Order

/-- `u` stands somewhere in `v`, `v` itself included. -/
inductive ScVal.Within (u : ScVal) : ScVal → Prop where
  | refl : Within u u
  | item : x ∈ items → Within u x → Within u (.vec (some items))
  | key : e ∈ entries → Within u e.key → Within u (.map (some entries))
  | val : e ∈ entries → Within u e.val → Within u (.map (some entries))
  | storageKey : e ∈ storage → Within u e.key → Within u (.contractInstance executable (some storage))
  | storageVal : e ∈ storage → Within u e.val → Within u (.contractInstance executable (some storage))

/-- A value with nothing inside it. -/
def ScVal.Atomic : ScVal → Prop
  | .vec (some _) | .map (some _) | .contractInstance _ (some _) => False
  | _ => True

/-- Every value inside `v`, `v` itself included, has the property. -/
def ScVal.Everywhere (P : ScVal → Prop) (v : ScVal) : Prop := ∀ u, ScVal.Within u v → P u

namespace ScVal.Everywhere

variable {P : ScVal → Prop}

theorem self {v : ScVal} (all : v.Everywhere P) : P v := all v .refl

theorem item {x : ScVal} {items : List ScVal} (all : (ScVal.vec (some items)).Everywhere P)
    (member : x ∈ items) : x.Everywhere P := fun u inside => all u (.item member inside)

theorem key {e : ScMapEntry} {entries : List ScMapEntry}
    (all : (ScVal.map (some entries)).Everywhere P) (member : e ∈ entries) : e.key.Everywhere P :=
  fun u inside => all u (.key member inside)

theorem val {e : ScMapEntry} {entries : List ScMapEntry}
    (all : (ScVal.map (some entries)).Everywhere P) (member : e ∈ entries) : e.val.Everywhere P :=
  fun u inside => all u (.val member inside)

theorem vec_iff {items : List ScVal} : (ScVal.vec (some items)).Everywhere P ↔
    P (.vec (some items)) ∧ ∀ x ∈ items, x.Everywhere P := by
  constructor
  · exact fun all => ⟨all.self,fun x member => all.item member⟩
  · rintro ⟨here,each⟩ u inside
    cases inside with
    | refl => exact here
    | item member inside => exact each _ member u inside

theorem map_iff {entries : List ScMapEntry} : (ScVal.map (some entries)).Everywhere P ↔
    P (.map (some entries)) ∧ ∀ e ∈ entries, e.key.Everywhere P ∧ e.val.Everywhere P := by
  constructor
  · exact fun all => ⟨all.self,fun e member => ⟨all.key member,all.val member⟩⟩
  · rintro ⟨here,each⟩ u inside
    cases inside with
    | refl => exact here
    | key member inside => exact (each _ member).1 u inside
    | val member inside => exact (each _ member).2 u inside

theorem atomic_iff {v : ScVal} (alone : v.Atomic) : v.Everywhere P ↔ P v := by
  refine ⟨self,fun here u inside => ?_⟩
  cases inside with
  | refl => exact here
  | _ => exact alone.elim

theorem atomic {v : ScVal} (alone : v.Atomic) (here : P v) : v.Everywhere P := (atomic_iff alone).mpr here

theorem pair {a b : ScVal} (here : P (.vec (some [a,b]))) (left : a.Everywhere P) (right : b.Everywhere P) :
    (ScVal.vec (some [a,b])).Everywhere P := by
  refine vec_iff.mpr ⟨here,?_⟩
  simpa using ⟨left,right⟩

end ScVal.Everywhere

def keysAscending (entries : List ScMapEntry) : Prop := (entries.map MapEntry.key).Pairwise (· < ·)

instance (entries : List ScMapEntry) : Decidable (keysAscending entries) :=
  inferInstanceAs (Decidable (List.Pairwise _ _))

def ScVal.Ascending : ScVal → Prop
  | .map (some entries) => keysAscending entries
  | _ => True

/-- In every map inside `v` the keys are strictly ascending, as the host requires. -/
def ScVal.LegalMaps (v : ScVal) : Prop := v.Everywhere Ascending

/-- `sort_by` on the keys: stable, so insertion order decides between equal keys. -/
def sortByKey (entries : List ScMapEntry) : List ScMapEntry :=
  entries.insertionSort fun a b => a.key ≤ b.key

theorem sortByKey_perm (entries : List ScMapEntry) : (sortByKey entries).Perm entries :=
  List.perm_insertionSort _ _

theorem sortByKey_sorted (entries : List ScMapEntry) :
    (sortByKey entries).Pairwise fun a b => a.key ≤ b.key := by
  have total : Std.Total fun a b : ScMapEntry => a.key ≤ b.key := ⟨fun a b => le_total a.key b.key⟩
  have trans : IsTrans ScMapEntry fun a b => a.key ≤ b.key := ⟨fun a b c => le_trans⟩
  exact List.pairwise_insertionSort _ _

/-- Sorting makes the keys strictly ascending exactly when no two of them are equal. -/
theorem sortByKey_ascending_iff (entries : List ScMapEntry) :
    keysAscending (sortByKey entries) ↔ (entries.map MapEntry.key).Nodup := by
  have keys := (sortByKey_perm entries).map MapEntry.key
  rw [← keys.nodup_iff,keysAscending]
  constructor
  · exact fun ascending => ascending.imp ne_of_lt
  · intro distinct
    have sorted := List.pairwise_map.mpr (sortByKey_sorted entries)
    exact (sorted.and distinct).imp fun h => lt_of_le_of_ne h.1 h.2

/-- A strictly ascending list is what sorting makes of any reordering of it. -/
theorem sortByKey_eq_of_perm {entries sorted : List ScMapEntry} (same : entries.Perm sorted)
    (ascending : keysAscending sorted) : sortByKey entries = sorted := by
  have distinct : (entries.map MapEntry.key).Nodup :=
    (same.map MapEntry.key).nodup_iff.mpr (ascending.imp ne_of_lt)
  have result := (sortByKey_ascending_iff entries).mpr distinct
  have asymmetric (a b : ScMapEntry) (_ : a ∈ sortByKey entries) (_ : b ∈ sorted)
      (ab : a.key < b.key) (ba : b.key < a.key) : a = b := absurd (ab.trans ba) (lt_irrefl _)
  exact List.Perm.eq_of_pairwise asymmetric (List.pairwise_map.mp result) (List.pairwise_map.mp ascending)
    ((sortByKey_perm entries).trans same)

inductive ContractDataDurability where
  | temporary
  | persistent
  deriving DecidableEq, Repr

/-- The keys that the proxy builds or shows. Of the other kinds only the derived debug
text is ever used. -/
inductive LedgerKey where
  | account (accountId : Bytes32)
  | contractData (contract : ScAddress) (key : ScVal) (durability : ContractDataDurability)
  | contractCode (hash : Bytes32)
  | other (debug : String)

end SorobanProxy
