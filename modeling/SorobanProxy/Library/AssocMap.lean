import Mathlib.Data.List.Sort
import Mathlib.Data.List.Nodup
import Mathlib.Order.Lattice

/-! Finite maps as association lists in strictly increasing key order. The raw operations
are total on every list, so that they may stand inside a nested inductive type; `OrdMap`
packages a list with its order. -/
namespace SorobanProxy.Library

abbrev Entries (κ α : Type) := List (κ × α)

namespace Entries

variable {κ α : Type} [LinearOrder κ]

def Sorted (entries : Entries κ α) : Prop := (entries.map Prod.fst).Pairwise (· < ·)

instance (entries : Entries κ α) : Decidable entries.Sorted :=
  inferInstanceAs (Decidable ((entries.map Prod.fst).Pairwise (· < ·)))

def find (key : κ) : Entries κ α → Option α
  | [] => none
  | (other, value) :: rest => if key = other then some value else find key rest

/-- Ordered insertion; the value of a key that is present is replaced. -/
def insert (key : κ) (value : α) : Entries κ α → Entries κ α
  | [] => [(key, value)]
  | (other, previous) :: rest =>
    if key = other then (key, value) :: rest
    else if key < other then (key, value) :: (other, previous) :: rest
    else (other, previous) :: insert key value rest

/-- Insertion of a sequence of entries, a later one replacing an earlier one. -/
def insertAll (start : Entries κ α) (added : Entries κ α) : Entries κ α :=
  added.foldl (fun entries entry => insert entry.1 entry.2 entries) start

@[simp] theorem find_nil (key : κ) : find key ([] : Entries κ α) = none := rfl

@[simp] theorem find_cons (key other : κ) (value : α) (rest : Entries κ α) :
    find key ((other, value) :: rest) = if key = other then some value else find key rest := rfl

theorem find_eq_none_iff {key : κ} {entries : Entries κ α} :
    entries.find key = none ↔ key ∉ entries.map Prod.fst := by
  induction entries with
  | nil => simp
  | cons entry rest ih =>
    by_cases same : key = entry.1 <;> simp [find,same,ih]

theorem mem_of_find {key : κ} {value : α} {entries : Entries κ α}
    (found : entries.find key = some value) : (key, value) ∈ entries := by
  induction entries with
  | nil => simp at found
  | cons entry rest ih =>
    obtain ⟨other,previous⟩ := entry
    by_cases same : key = other
    · simp_all
    · exact List.mem_cons_of_mem _ (ih (by simpa [same] using found))

theorem find_of_mem {key : κ} {value : α} {entries : Entries κ α}
    (distinct : (entries.map Prod.fst).Nodup) (member : (key, value) ∈ entries) :
    entries.find key = some value := by
  induction entries with
  | nil => simp at member
  | cons entry rest ih =>
    obtain ⟨other,previous⟩ := entry
    simp only [List.map_cons, List.nodup_cons] at distinct
    rcases List.mem_cons.mp member with same | later
    · simp_all
    · have apart : key ≠ other := by
        rintro rfl
        exact distinct.1 (List.mem_map_of_mem later)
      simp [apart,ih distinct.2 later]

theorem sorted_nil : Sorted ([] : Entries κ α) := List.Pairwise.nil

theorem find_insert (key other : κ) (value : α) (entries : Entries κ α) :
    (entries.insert key value).find other = if other = key then some value else entries.find other := by
  induction entries with
  | nil => simp [insert]
  | cons entry rest ih =>
    obtain ⟨head,previous⟩ := entry
    simp only [insert]
    split_ifs <;> simp_all

theorem find_append {key : κ} {first second : Entries κ α} :
    find key (first ++ second : List (κ × α)) = (find key first).or (find key second) := by
  induction first with
  | nil => rfl
  | cons entry rest ih =>
    obtain ⟨other,value⟩ := entry
    by_cases same : key = other
    · simp [same]
    · simpa [same] using ih

/-- After a sequence of insertions the last entry of a key counts. -/
theorem find_insertAll {key : κ} {start added : Entries κ α} :
    (start.insertAll added).find key = (find key added.reverse).or (start.find key) := by
  induction added generalizing start with
  | nil => rfl
  | cons entry rest ih =>
    obtain ⟨other,value⟩ := entry
    rw [show start.insertAll ((other, value) :: rest) = (start.insert other value).insertAll rest from rfl,
      ih,find_insert,List.reverse_cons,find_append,find_cons,find_nil,Option.or_assoc]
    by_cases same : key = other <;> simp [same]

/-- An inserted key that is new adds one entry and keeps the others. -/
theorem insert_perm {key : κ} {value : α} {entries : Entries κ α}
    (fresh : key ∉ entries.map Prod.fst) : (entries.insert key value).Perm ((key, value) :: entries) := by
  induction entries with
  | nil => simp [insert]
  | cons entry rest ih =>
    obtain ⟨head,previous⟩ := entry
    simp only [List.map_cons, List.mem_cons, not_or] at fresh
    simp only [insert, if_neg fresh.1]
    split_ifs with before
    · exact .refl _
    · exact ((ih fresh.2).cons _).trans (.swap _ _ _)

theorem mem_keys_insert {key other : κ} {value : α} {entries : Entries κ α} :
    other ∈ (entries.insert key value).map Prod.fst ↔ other = key ∨ other ∈ entries.map Prod.fst := by
  have present (target : Entries κ α) : other ∈ target.map Prod.fst ↔ target.find other ≠ none := by
    rw [Ne,find_eq_none_iff,not_not]
  rw [present,present,find_insert]
  split_ifs with same <;> simp [same]

theorem mem_keys_insertAll {other : κ} {start added : Entries κ α} :
    other ∈ (start.insertAll added).map Prod.fst ↔
      other ∈ start.map Prod.fst ∨ other ∈ added.map Prod.fst := by
  induction added generalizing start with
  | nil => simp [insertAll]
  | cons entry rest ih =>
    rw [show start.insertAll (entry :: rest) = (start.insert entry.1 entry.2).insertAll rest from rfl,
      ih,mem_keys_insert,List.map_cons,List.mem_cons]
    tauto

theorem Sorted.insert {entries : Entries κ α} (sorted : entries.Sorted) (key : κ) (value : α) :
    (entries.insert key value).Sorted := by
  induction entries with
  | nil => simp [Sorted,Entries.insert]
  | cons entry rest ih =>
    obtain ⟨head,previous⟩ := entry
    obtain ⟨above,tail⟩ := List.pairwise_cons.mp sorted
    simp only [Entries.insert]
    split_ifs with same before
    · subst same
      exact sorted
    · refine List.pairwise_cons.mpr ⟨fun other member => ?_,sorted⟩
      rcases List.mem_cons.mp member with rfl | later
      · exact before
      · exact before.trans (above other later)
    · refine List.pairwise_cons.mpr ⟨fun other member => ?_,ih tail⟩
      rcases mem_keys_insert.mp member with rfl | later
      · exact (lt_or_gt_of_ne same).resolve_left before
      · exact above other later

theorem Sorted.insertAll {start : Entries κ α} (sorted : start.Sorted) (added : Entries κ α) :
    (start.insertAll added).Sorted := by
  induction added generalizing start with
  | nil => exact sorted
  | cons entry rest ih => exact ih (sorted.insert entry.1 entry.2)

theorem insertAll_perm {start added : Entries κ α}
    (distinct : ((start ++ added).map Prod.fst).Nodup) : (start.insertAll added).Perm (start ++ added) := by
  induction added generalizing start with
  | nil => simp [insertAll]
  | cons entry rest ih =>
    have moved : ((entry :: start) ++ rest).Perm (start ++ entry :: rest) := List.perm_middle.symm
    have fresh : entry.1 ∉ start.map Prod.fst := by
      have := (moved.map Prod.fst).nodup_iff.mpr distinct
      simp only [List.cons_append, List.map_cons, List.nodup_cons, List.map_append,
        List.mem_append, not_or] at this
      exact this.1.1
    have step : (start.insert entry.1 entry.2 ++ rest).Perm (start ++ entry :: rest) :=
      ((insert_perm fresh).append_right rest).trans moved
    exact (ih ((step.map Prod.fst).nodup_iff.mpr distinct)).trans step

end Entries

/-- A finite map: equal maps are equal lists, because the order leaves no choice. -/
structure OrdMap (κ α : Type) [LinearOrder κ] where
  entries : Entries κ α
  sorted : entries.Sorted

namespace OrdMap

variable {κ α β : Type} [LinearOrder κ]

def empty : OrdMap κ α := ⟨[],Entries.sorted_nil⟩

def get (m : OrdMap κ α) (key : κ) : Option α := m.entries.find key

def insert (m : OrdMap κ α) (key : κ) (value : α) : OrdMap κ α :=
  ⟨m.entries.insert key value,m.sorted.insert key value⟩

def insertAll (m : OrdMap κ α) (added : Entries κ α) : OrdMap κ α :=
  ⟨m.entries.insertAll added,m.sorted.insertAll added⟩

def values (m : OrdMap κ α) : List α := m.entries.map Prod.snd

def mapValues (f : α → β) (m : OrdMap κ α) : OrdMap κ β where
  entries := m.entries.map fun entry => (entry.1, f entry.2)
  sorted := by
    have keys : (m.entries.map fun entry => (entry.1, f entry.2)).map Prod.fst = m.entries.map Prod.fst := by
      simp [Function.comp_def]
    rw [Entries.Sorted,keys]
    exact m.sorted

@[simp] theorem get_empty (key : κ) : (empty : OrdMap κ α).get key = none := rfl

@[simp] theorem get_insert (m : OrdMap κ α) (key other : κ) (value : α) :
    (m.insert key value).get other = if other = key then some value else m.get other :=
  Entries.find_insert key other value m.entries

@[simp] theorem get_insertAll (m : OrdMap κ α) (added : Entries κ α) (key : κ) :
    (m.insertAll added).get key = (Entries.find key added.reverse).or (m.get key) := Entries.find_insertAll

theorem mem_values_iff {m : OrdMap κ α} {value : α} : value ∈ m.values ↔ ∃ key, m.get key = some value := by
  have distinct : (m.entries.map Prod.fst).Nodup := m.sorted.imp ne_of_lt
  constructor
  · intro member
    obtain ⟨⟨key,_⟩,inside,rfl⟩ := List.mem_map.mp member
    exact ⟨key,Entries.find_of_mem distinct inside⟩
  · rintro ⟨key,found⟩
    exact List.mem_map.mpr ⟨_,Entries.mem_of_find found,rfl⟩

theorem values_insert_perm {m : OrdMap κ α} {key : κ} (fresh : m.get key = none) (value : α) :
    (m.insert key value).values.Perm (value :: m.values) :=
  (Entries.insert_perm (Entries.find_eq_none_iff.mp fresh)).map Prod.snd

/-- Every value stands under its own name. -/
def Filed (name : α → κ) (m : OrdMap κ α) : Prop := ∀ key value, m.get key = some value → name value = key

theorem filed_empty {name : α → κ} : (empty : OrdMap κ α).Filed name := nofun

theorem Filed.insert {name : α → κ} {m : OrdMap κ α} (filed : m.Filed name) (value : α) :
    (m.insert (name value) value).Filed name := by
  intro key other found
  rw [get_insert] at found
  split_ifs at found with same
  · rw [same,Option.some.inj found]
  · exact filed key other found

/-- Maps whose values look alike have values that look alike under each key, where the look
tells the name. The order of the values does not matter. -/
theorem Filed.map_get_eq {name : α → κ} {look : α → β} {m m' : OrdMap κ α} (filed : m.Filed name)
    (filed' : m'.Filed name) (same : (m.values.map look).Perm (m'.values.map look))
    (tells : ∀ a b, look a = look b → name a = name b) (key : κ) : (m.get key).map look = (m'.get key).map look := by
  have carried {m m' : OrdMap κ α} (filed : m.Filed name) (filed' : m'.Filed name)
      (same : (m.values.map look).Perm (m'.values.map look)) {a : α} (found : m.get key = some a) :
      ∃ b, m'.get key = some b ∧ look b = look a := by
    have listed : look a ∈ m.values.map look := List.mem_map_of_mem (mem_values_iff.mpr ⟨key,found⟩)
    obtain ⟨b,inside,alike⟩ := List.mem_map.mp (same.mem_iff.mp listed)
    obtain ⟨key',found'⟩ := mem_values_iff.mp inside
    have keys : key' = key := by rw [← filed' key' b found',tells b a alike,filed key a found]
    exact ⟨b,keys ▸ found',alike⟩
  cases found : m.get key with
  | some a =>
    obtain ⟨b,found',alike⟩ := carried filed filed' same found
    rw [found',Option.map_some,Option.map_some,alike]
  | none =>
    cases found' : m'.get key with
    | none => rfl
    | some b =>
      obtain ⟨a,present,_⟩ := carried filed' filed same.symm found'
      cases found.symm.trans present

end OrdMap
end SorobanProxy.Library
