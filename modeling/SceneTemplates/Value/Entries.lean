import SceneTemplates.Text.Basic

/-!
# Entries

A mapping with text keys is the list of its entries in the order in which the keys were first
stored. Each key occurs once; storing under a key that is there replaces the value in place.
-/
namespace SceneTemplates

/-- The entries of a mapping, in order. -/
abbrev Entries (α : Type) := List (Text × α)

namespace Entries

variable {α : Type}

/-- The value stored under a key. -/
def get? (key : Text) : Entries α → Option α
  | [] => none
  | (k, value) :: rest => if k = key then some value else get? key rest

/-- Whether a key is stored. -/
def has (key : Text) (entries : Entries α) : Bool := (get? key entries).isSome

/-- Stores a value: in place of the former one, or else at the end. -/
def put (key : Text) (value : α) : Entries α → Entries α
  | [] => [(key, value)]
  | (k, former) :: rest =>
    if k = key then (k, value) :: rest else (k, former) :: put key value rest

def erase (key : Text) (entries : Entries α) : Entries α :=
  entries.filter fun entry => entry.1 ≠ key

def keys (entries : Entries α) : List Text := entries.map (·.1)

/-- Stores entries one after the other. -/
def putAll (added entries : Entries α) : Entries α :=
  added.foldl (fun stored entry => put entry.1 entry.2 stored) entries

/-- The entries stored one after the other. -/
def ofList (entries : List (Text × α)) : Entries α := putAll entries []

@[simp] theorem get?_put_self (key : Text) (value : α) (entries : Entries α) :
    get? key (put key value entries) = some value := by
  induction entries with
  | nil => simp [put, get?]
  | cons entry rest ih =>
    by_cases h : entry.1 = key
    · simp [put, get?, h]
    · simp [put, get?, h, ih]

@[simp]
theorem get?_put_of_ne {key other : Text} (value : α) (entries : Entries α) (h : other ≠ key) :
    get? other (put key value entries) = get? other entries := by
  induction entries with
  | nil => simp [put, get?, Ne.symm h]
  | cons entry rest ih =>
    by_cases hk : entry.1 = key
    · subst hk
      simp [put, get?, Ne.symm h]
    · simp [put, get?, hk, ih]

/-- Each value is found where the one was that it comes from. -/
@[simp] theorem get?_map {β : Type} (f : α → β) (key : Text) (entries : Entries α) :
    get? key (entries.map fun entry => (entry.1, f entry.2)) = (get? key entries).map f := by
  induction entries with
  | nil => rfl
  | cons entry rest ih =>
    rw [List.map_cons, get?, get?, ih]
    split <;> rfl

theorem mem_of_get? {key : Text} {value : α} {entries : Entries α}
    (h : get? key entries = some value) : (key, value) ∈ entries := by
  induction entries with
  | nil => cases h
  | cons entry rest ih =>
    obtain ⟨k, first⟩ := entry
    by_cases hk : k = key
    · rw [get?, if_pos hk] at h
      cases h
      exact hk ▸ List.mem_cons_self
    · rw [get?, if_neg hk] at h
      exact List.mem_cons_of_mem _ (ih h)

/-- A property of all values stays when a value with the property is stored. -/
theorem forall_mem_put {P : α → Prop} {key : Text} {value : α} {entries : Entries α}
    (h : ∀ entry ∈ entries, P entry.2) (hvalue : P value) :
    ∀ entry ∈ put key value entries, P entry.2 := by
  induction entries with
  | nil => exact List.forall_mem_singleton.2 hvalue
  | cons head rest ih =>
    obtain ⟨hhead, hrest⟩ := List.forall_mem_cons.1 h
    rw [put]
    split
    · exact List.forall_mem_cons.2 ⟨hvalue, hrest⟩
    · exact List.forall_mem_cons.2 ⟨hhead, ih hrest⟩

theorem forall_mem_putAll {P : α → Prop} {added entries : Entries α}
    (h : ∀ entry ∈ entries, P entry.2) (hadded : ∀ entry ∈ added, P entry.2) :
    ∀ entry ∈ putAll added entries, P entry.2 := by
  induction added generalizing entries with
  | nil => exact h
  | cons head rest ih =>
    obtain ⟨hhead, hrest⟩ := List.forall_mem_cons.1 hadded
    exact ih (forall_mem_put h hhead) hrest

end Entries

end SceneTemplates
