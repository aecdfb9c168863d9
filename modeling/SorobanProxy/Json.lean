import SorobanProxy.Library.AssocMap
import Mathlib.Data.String.Basic

/-! JSON values as `serde_json` holds them without its `preserve_order` feature: an object
is a map in the order of its keys. UTF-8 keeps the order of code points, so the byte order
of the keys is the order of Lean's strings. -/
namespace SorobanProxy

open Library

/-- The three forms of a JSON number. No conversion looks inside a finite float, which is
kept as its bit pattern. -/
inductive Number where
  | posInt (n : UInt64)
  | negInt (n : Int64) (negative : n < 0)
  | float (bits : UInt64)
  deriving DecidableEq

inductive Value where
  | null
  | bool (b : Bool)
  | number (n : Number)
  | string (s : String)
  | array (items : List Value)
  | object (members : List (String × Value))

instance : Inhabited Value := ⟨.null⟩

namespace Number

def asU64 : Number → Option UInt64
  | .posInt n => some n
  | _ => none

def asI64 : Number → Option Int64
  | .posInt n => if n.toNat < 2 ^ 63 then some n.toInt64 else none
  | .negInt n _ => some n
  | .float _ => none

def ofU32 (n : UInt32) : Number := .posInt n.toUInt64

def ofI32 (n : Int32) : Number :=
  if negative : n.toInt64 < 0 then .negInt n.toInt64 negative else .posInt n.toInt64.toUInt64

@[simp] theorem asU64_ofU32 (n : UInt32) : (ofU32 n).asU64 = some n.toUInt64 := rfl

end Number

namespace Value

def isNull : Value → Bool
  | .null => true
  | _ => false

def asBool : Value → Option Bool
  | .bool b => some b
  | _ => none

def asStr : Value → Option String
  | .string s => some s
  | _ => none

def asU64 : Value → Option UInt64
  | .number n => n.asU64
  | _ => none

def asI64 : Value → Option Int64
  | .number n => n.asI64
  | _ => none

def asArray : Value → Option (List Value)
  | .array items => some items
  | _ => none

def asObject : Value → Option (List (String × Value))
  | .object members => some members
  | _ => none

/-- `Value::get` with a string index: only objects have members. -/
def get (key : String) : Value → Option Value
  | .object members => Entries.find key members
  | _ => none

/-- The `json!` object macro: insertion into an empty map. -/
def obj (members : List (String × Value)) : Value := .object (Entries.insertAll [] members)

def str (s : String) : Value := .string s

@[simp] theorem get_str (key s : String) : (str s).get key = none := rfl

@[simp] theorem asStr_str (s : String) : (str s).asStr = some s := rfl

theorem asU64_eq_some_iff {v : Value} {n : UInt64} : v.asU64 = some n ↔ v = .number (.posInt n) := by
  cases v with
  | number number => cases number <;> simp [asU64,Number.asU64]
  | _ => simp [asU64]

theorem asStr_eq_some_iff {v : Value} {s : String} : v.asStr = some s ↔ v = .string s := by
  cases v <;> simp [asStr]

/-- `v` stands somewhere in `w`, `w` itself included. -/
inductive Within (v : Value) : Value → Prop where
  | refl : Within v v
  | item : x ∈ items → Within v x → Within v (.array items)
  | member : (key, x) ∈ members → Within v x → Within v (.object members)

/-- Every object is a map: its members are in strictly increasing key order. -/
def WellFormed (v : Value) : Prop :=
  ∀ members, Within (.object members) v → Entries.Sorted members

/-- No object at any depth has a member called `key`. -/
def Lacks (key : String) (v : Value) : Prop :=
  ∀ members, Within (.object members) v → key ∉ members.map Prod.fst

theorem Within.trans {u v w : Value} (inner : Within u v) (outer : Within v w) : Within u w := by
  induction outer with
  | refl => exact inner
  | item member _ ih => exact .item member ih
  | member member _ ih => exact .member member ih

theorem Lacks.within {key : String} {v w : Value} (lacks : w.Lacks key) (inside : Within v w) :
    v.Lacks key := fun members found => lacks members (found.trans inside)

theorem Lacks.item {key : String} {x : Value} {items : List Value} (lacks : (array items).Lacks key)
    (member : x ∈ items) : x.Lacks key := lacks.within (.item member .refl)

theorem Lacks.member {key name : String} {x : Value} {members : List (String × Value)}
    (lacks : (object members).Lacks key) (member : (name, x) ∈ members) : x.Lacks key :=
  lacks.within (.member member .refl)

theorem Lacks.get {key : String} {v : Value} (lacks : v.Lacks key) : v.get key = none := by
  cases v with
  | object members => exact Entries.find_eq_none_iff.mpr (lacks members .refl)
  | _ => rfl

/-- A value that is neither an array nor an object has nothing inside it. -/
def Atomic (v : Value) : Prop := v.asArray = none ∧ v.asObject = none

theorem within_atomic {v w : Value} (atomic : w.Atomic) (inside : Within v w) : v = w := by
  cases inside with
  | refl => rfl
  | item => simp [Atomic,asArray] at atomic
  | member => simp [Atomic,asObject] at atomic

theorem lacks_atomic {key : String} {v : Value} (atomic : v.Atomic) : v.Lacks key := by
  intro members inside
  have same := within_atomic atomic inside
  subst same
  simp [Atomic,asObject] at atomic

theorem wellFormed_atomic {v : Value} (atomic : v.Atomic) : v.WellFormed := by
  intro members inside
  have same := within_atomic atomic inside
  subst same
  simp [Atomic,asObject] at atomic

@[simp] theorem lacks_null (key : String) : null.Lacks key := lacks_atomic ⟨rfl,rfl⟩

@[simp] theorem lacks_bool (key : String) (b : Bool) : (bool b).Lacks key := lacks_atomic ⟨rfl,rfl⟩

@[simp] theorem lacks_number (key : String) (n : Number) : (number n).Lacks key := lacks_atomic ⟨rfl,rfl⟩

@[simp] theorem lacks_string (key s : String) : (string s).Lacks key := lacks_atomic ⟨rfl,rfl⟩

theorem lacks_array_iff {key : String} {items : List Value} :
    (array items).Lacks key ↔ ∀ x ∈ items, x.Lacks key := by
  constructor
  · exact fun lacks x member => lacks.item member
  · intro each members inside
    cases inside with
    | item member inside => exact each _ member members inside

theorem lacks_object_iff {key : String} {members : List (String × Value)} :
    (object members).Lacks key ↔
      key ∉ members.map Prod.fst ∧ ∀ entry ∈ members, entry.2.Lacks key := by
  constructor
  · exact fun lacks => ⟨lacks members .refl,fun entry member => lacks.member member⟩
  · rintro ⟨absent,each⟩ inner inside
    cases inside with
    | refl => exact absent
    | member member inside => exact each _ member inner inside

@[simp] theorem wellFormed_null : null.WellFormed := wellFormed_atomic ⟨rfl,rfl⟩

@[simp] theorem wellFormed_number (n : Number) : (number n).WellFormed := wellFormed_atomic ⟨rfl,rfl⟩

theorem wellFormed_array_iff {items : List Value} :
    (array items).WellFormed ↔ ∀ x ∈ items, x.WellFormed := by
  constructor
  · exact fun well x member members inside => well members (.item member inside)
  · intro each members inside
    cases inside with
    | item member inside => exact each _ member members inside

theorem wellFormed_object_iff {members : List (String × Value)} :
    (object members).WellFormed ↔
      Entries.Sorted members ∧ ∀ entry ∈ members, entry.2.WellFormed := by
  constructor
  · exact fun well => ⟨well members .refl,fun entry member inner inside =>
      well inner (.member member inside)⟩
  · rintro ⟨sorted,each⟩ inner inside
    cases inside with
    | refl => exact sorted
    | member member inside => exact each _ member inner inside

section Obj

variable {members : List (String × Value)} (distinct : (members.map Prod.fst).Nodup)
include distinct

theorem insertAll_nil_perm : (Entries.insertAll [] members).Perm members :=
  Entries.insertAll_perm (by simpa using distinct)

theorem find_insertAll {key : String} {x : Value} (member : (key, x) ∈ members) :
    Entries.find key (Entries.insertAll [] members) = some x := by
  have same := insertAll_nil_perm distinct
  exact Entries.find_of_mem ((same.map Prod.fst).nodup_iff.mpr distinct) (same.mem_iff.mpr member)

theorem get_obj {key : String} {x : Value} (member : (key, x) ∈ members) : (obj members).get key = some x :=
  find_insertAll distinct member

theorem lacks_obj {key : String} (absent : key ∉ members.map Prod.fst)
    (each : ∀ entry ∈ members, entry.2.Lacks key) : (obj members).Lacks key := by
  have same := insertAll_nil_perm distinct
  refine lacks_object_iff.mpr ⟨fun member => absent ((same.map Prod.fst).mem_iff.mp member),?_⟩
  exact fun entry member => each entry (same.mem_iff.mp member)

theorem wellFormed_obj (each : ∀ entry ∈ members, entry.2.WellFormed) : (obj members).WellFormed := by
  have same := insertAll_nil_perm distinct
  refine wellFormed_object_iff.mpr ⟨Entries.sorted_nil.insertAll members,?_⟩
  exact fun entry member => each entry (same.mem_iff.mp member)

end Obj

theorem get_obj_eq_none {key : String} {members : List (String × Value)} (absent : key ∉ members.map Prod.fst) :
    (obj members).get key = none := by
  refine Entries.find_eq_none_iff.mpr fun member => ?_
  rcases Entries.mem_keys_insertAll.mp member with none | added
  · cases none
  · exact absent added

theorem sizeOf_lt_of_find {key : String} {x : Value} {members : List (String × Value)}
    (found : Entries.find key members = some x) : sizeOf x < sizeOf (object members) := by
  have member := List.sizeOf_lt_of_mem (Entries.mem_of_find found)
  simp at member ⊢
  omega

theorem sizeOf_lt_of_get {key : String} {x v : Value} (found : v.get key = some x) : sizeOf x < sizeOf v := by
  cases v with
  | object members => exact sizeOf_lt_of_find found
  | _ => cases found

theorem sizeOf_lt_of_member {entry : String × Value} {members : List (String × Value)}
    (member : entry ∈ members) : sizeOf entry.2 < sizeOf (object members) := by
  have smaller := List.sizeOf_lt_of_mem member
  obtain ⟨key,x⟩ := entry
  simp at smaller ⊢
  omega

theorem sizeOf_lt_of_item {x : Value} {items : List Value} (member : x ∈ items) :
    sizeOf x < sizeOf (array items) := by
  have smaller := List.sizeOf_lt_of_mem member
  simp at smaller ⊢
  omega

end Value
end SorobanProxy
