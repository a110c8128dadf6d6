/-!
# Tables

A table maps names to things and remembers in which order the names first came in.  Writing a name
again keeps its place; a removed name that comes back goes to the end.  No name occurs twice, which
is part of the type: it is what makes the number of entries and the look-ups together determine
what a table says.

## What is here

* `Table.get?`, `Table.insert`, `Table.erase`, `Table.ofList` — the operations.
* `get?_insert`, `get?_erase` — what the two updates do to a look-up, and nothing else.
* `mem_entries_iff` — the entries are what look-ups find.
-/

set_option autoImplicit false
namespace LoxValues

universe u

/-- The names of some entries. -/
def names {α : Type u} (entries : List (String × α)) : List String := entries.map Prod.fst

/-- A map from names that keeps the order of first insertion. -/
structure Table (α : Type u) where
  /-- The entries, oldest first. -/
  entries : List (String × α)
  /-- No name occurs twice. -/
  distinct : (names entries).Nodup

namespace Table

variable {α : Type u}

instance [DecidableEq α] : DecidableEq (Table α) := fun s t =>
  if h : s.entries = t.entries then
    isTrue (by cases s; cases t; cases h; rfl)
  else isFalse fun e => h (e ▸ rfl)

/-- The table without entries. -/
def empty : Table α := ⟨[], List.nodup_nil⟩

/-- How many names the table has. -/
def size (t : Table α) : Nat := t.entries.length

/-- The thing written under a name among some entries. -/
def find? (name : String) : List (String × α) → Option α
  | [] => none
  | (other, value) :: rest => if other = name then some value else find? name rest

/-- The thing written under a name. -/
def get? (t : Table α) (name : String) : Option α := find? name t.entries

/-- The entries with one written: in its place if the name is known, at the end if it is new. -/
def put (name : String) (value : α) : List (String × α) → List (String × α)
  | [] => [(name, value)]
  | (other, old) :: rest =>
    if other = name then (name, value) :: rest else (other, old) :: put name value rest

theorem mem_names_put {name : String} {value : α} {entries : List (String × α)} {n : String} :
    n ∈ names (put name value entries) ↔ n = name ∨ n ∈ names entries := by
  induction entries with
  | nil => simp [put, names]
  | cons e rest ih =>
    obtain ⟨other, old⟩ := e
    simp only [names, List.map_cons, List.mem_cons] at ih ⊢
    by_cases h : other = name
    · subst h; simp [put]
    · simp only [put, if_neg h, List.map_cons, List.mem_cons, ih]
      exact or_left_comm

theorem nodup_put {name : String} {value : α} {entries : List (String × α)}
    (h : (names entries).Nodup) : (names (put name value entries)).Nodup := by
  induction entries with
  | nil => simp [put, names]
  | cons e rest ih =>
    obtain ⟨other, old⟩ := e
    simp only [names, List.map_cons, List.nodup_cons] at h
    by_cases hn : other = name
    · subst hn; simpa [put, names] using h
    · have hr : (names rest).Nodup := h.2
      simp only [put, if_neg hn, names, List.map_cons, List.nodup_cons]
      refine ⟨fun hm => ?_, ih hr⟩
      rcases mem_names_put.1 hm with rfl | hm
      · exact hn rfl
      · exact h.1 hm

/-- The table with a name written. -/
def insert (t : Table α) (name : String) (value : α) : Table α :=
  ⟨put name value t.entries, nodup_put t.distinct⟩

/-- The table without a name. -/
def erase (t : Table α) (name : String) : Table α :=
  ⟨t.entries.filter fun e => e.1 != name,
    List.Nodup.sublist (List.Sublist.map Prod.fst List.filter_sublist) t.distinct⟩

/-- The table that results from writing some entries one after the other: the last one for a name
wins, in the place of the first. -/
def ofList (entries : List (String × α)) : Table α :=
  entries.foldl (fun t e => t.insert e.1 e.2) empty

/-! ## What the updates do to a look-up -/

theorem find?_put {name : String} {value : α} {entries : List (String × α)} {n : String} :
    find? n (put name value entries) = if n = name then some value else find? n entries := by
  induction entries with
  | nil => simp [put, find?, eq_comm]
  | cons e rest ih =>
    obtain ⟨other, old⟩ := e
    by_cases h : other = name
    · subst h
      by_cases hn : n = other <;> simp [put, find?, hn, eq_comm]
    · by_cases hn : n = name
      · subst hn; simpa [put, find?, h] using ih
      · by_cases ho : other = n
        · subst ho; simp [put, find?, h]
        · simpa [put, find?, h, ho, hn] using ih

theorem get?_insert (t : Table α) (name : String) (value : α) (n : String) :
    (t.insert name value).get? n = if n = name then some value else t.get? n :=
  find?_put

theorem get?_erase (t : Table α) (name n : String) :
    (t.erase name).get? n = if n = name then none else t.get? n := by
  show find? n (t.entries.filter fun e => e.1 != name) = if n = name then none else find? n t.entries
  induction t.entries with
  | nil => simp [find?]
  | cons e rest ih =>
    obtain ⟨other, old⟩ := e
    by_cases h : other = name
    · subst h
      by_cases hn : n = other
      · subst hn; simpa using ih
      · simpa [find?, hn, Ne.symm hn] using ih
    · by_cases ho : other = n
      · subst ho; simp [find?, h]
      · simpa [find?, h, ho] using ih

theorem get?_empty (n : String) : (empty : Table α).get? n = none := rfl

/-! ## Entries and look-ups -/

theorem mem_of_find? {entries : List (String × α)} {name : String} {x : α}
    (h : find? name entries = some x) : (name, x) ∈ entries := by
  induction entries with
  | nil => simp [find?] at h
  | cons e rest ih =>
    obtain ⟨other, y⟩ := e
    rw [find?] at h
    split at h
    · next same => subst same; simp_all
    · exact List.mem_cons_of_mem _ (ih h)

theorem find?_of_mem {entries : List (String × α)} (distinct : (names entries).Nodup)
    {name : String} {x : α} (h : (name, x) ∈ entries) : find? name entries = some x := by
  induction entries with
  | nil => simp at h
  | cons e rest ih =>
    obtain ⟨other, y⟩ := e
    rw [names, List.map_cons, List.nodup_cons] at distinct
    rw [find?]
    rcases List.mem_cons.mp h with same | later
    · simp_all
    · have ne : other ≠ name := by
        rintro rfl
        exact distinct.1 (List.mem_map.mpr ⟨_, later, rfl⟩)
      rw [if_neg ne]
      exact ih distinct.2 later

theorem mem_entries_iff {t : Table α} {name : String} {x : α} :
    (name, x) ∈ t.entries ↔ t.get? name = some x :=
  ⟨find?_of_mem t.distinct, mem_of_find?⟩

theorem mem_names_iff {t : Table α} {name : String} :
    name ∈ names t.entries ↔ ∃ x, t.get? name = some x := by
  simp [names, mem_entries_iff]

end Table
end LoxValues
