/-!
# Tables

A table maps names to values and keeps its entries in ascending order of their names, so two tables
that answer every look-up alike are the same table.  Inventory variables, groups, cache entries and
environment variables are all tables.
-/

namespace Testbed

/-- A finite map from names to values, listed in ascending order of the names. -/
structure Table (α : Type u) where
  entries : List (String × α)
  ascending : entries.Pairwise (fun a b => a.1 < b.1)

namespace Table

variable {α : Type u} {β : Type v}

/-- Put an entry in its place in an ascending list, replacing the one of the same name. -/
def insertEntry (name : String) (value : α) : List (String × α) → List (String × α)
  | [] => [(name, value)]
  | entry :: rest =>
    if name < entry.1 then (name, value) :: entry :: rest
    else if name = entry.1 then (name, value) :: rest
    else entry :: insertEntry name value rest

theorem mem_insertEntry {name : String} {value : α} {a : String × α} {l : List (String × α)}
    (h : a ∈ insertEntry name value l) : a = (name, value) ∨ a ∈ l := by
  induction l with
  | nil => simpa [insertEntry] using h
  | cons entry rest ih =>
    rw [insertEntry] at h
    split at h
    · simpa using h
    · split at h
      · simp only [List.mem_cons] at h ⊢
        exact h.imp_right Or.inr
      · simp only [List.mem_cons] at h ⊢
        rcases h with h | h
        · exact .inr (.inl h)
        · exact (ih h).imp_right Or.inr

theorem pairwise_insertEntry (name : String) (value : α) {l : List (String × α)}
    (h : l.Pairwise (fun a b => a.1 < b.1)) :
    (insertEntry name value l).Pairwise (fun a b => a.1 < b.1) := by
  induction l with
  | nil => simp [insertEntry]
  | cons entry rest ih =>
    rw [List.pairwise_cons] at h
    rw [insertEntry]
    split
    next hlt =>
      refine List.pairwise_cons.2 ⟨fun a ha => ?_, List.pairwise_cons.2 h⟩
      rcases List.mem_cons.1 ha with rfl | ha
      · exact hlt
      · exact String.lt_trans hlt (h.1 a ha)
    next hlt =>
      split
      next heq =>
        exact List.pairwise_cons.2 ⟨fun a ha => heq ▸ h.1 a ha, h.2⟩
      next hne =>
        refine List.pairwise_cons.2 ⟨fun a ha => ?_, ih h.2⟩
        rcases mem_insertEntry ha with rfl | ha
        · exact Std.lt_of_le_of_ne (String.not_lt.1 hlt) (Ne.symm hne)
        · exact h.1 a ha

/-- The table without entries. -/
def empty : Table α := ⟨[], List.Pairwise.nil⟩

instance : EmptyCollection (Table α) := ⟨empty⟩

instance : Inhabited (Table α) := ⟨empty⟩

/-- Enter a value under a name, in place of the value it had. -/
def insert (t : Table α) (name : String) (value : α) : Table α :=
  ⟨insertEntry name value t.entries, pairwise_insertEntry name value t.ascending⟩

/-- Take the entry of a name out. -/
def erase (t : Table α) (name : String) : Table α :=
  ⟨t.entries.filter (·.1 != name), t.ascending.filter _⟩

/-- The value of a name. -/
def get? (t : Table α) (name : String) : Option α :=
  (t.entries.find? (·.1 == name)).map (·.2)

/-- Whether a name has a value. -/
def contains (t : Table α) (name : String) : Bool :=
  t.entries.any (·.1 == name)

/-- The names, ascending. -/
def names (t : Table α) : List String :=
  t.entries.map (·.1)

/-- Whether there is no entry. -/
def isEmpty (t : Table α) : Bool :=
  t.entries.isEmpty

/-- Enter pairs one after the other, so the last value of a name stays. -/
def insertAll (t : Table α) (pairs : List (String × α)) : Table α :=
  pairs.foldl (fun t pair => t.insert pair.1 pair.2) t

/-- The table of a list of pairs, in which the last value of a name counts. -/
def ofList (pairs : List (String × α)) : Table α :=
  empty.insertAll pairs

/-- The entries of both tables; where both have a name, the second one decides. -/
def merge (t later : Table α) : Table α :=
  t.insertAll later.entries

/-- Change the value of a name, which starts from `initial` if it has none. -/
def alter (t : Table α) (name : String) (initial : α) (f : α → α) : Table α :=
  t.insert name (f ((t.get? name).getD initial))

/-- The entries that pass a test. -/
def filter (t : Table α) (keep : String → α → Bool) : Table α :=
  ⟨t.entries.filter (fun entry => keep entry.1 entry.2), t.ascending.filter _⟩

theorem entries_inj {s t : Table α} : s.entries = t.entries ↔ s = t := by
  refine ⟨fun h => ?_, fun h => h ▸ rfl⟩
  cases s
  cases t
  cases h
  rfl

instance [DecidableEq α] : DecidableEq (Table α) := fun _ _ =>
  decidable_of_iff _ entries_inj

@[simp] theorem entries_empty : (∅ : Table α).entries = [] := rfl

@[simp] theorem get?_empty (name : String) : (∅ : Table α).get? name = none := rfl

theorem get?_insert (t : Table α) (name : String) (value : α) (other : String) :
    (t.insert name value).get? other = if other = name then some value else t.get? other := by
  suffices h : ∀ l : List (String × α),
      ((insertEntry name value l).find? (·.1 == other)).map (·.2)
        = if other = name then some value else (l.find? (·.1 == other)).map (·.2) from h t.entries
  intro l
  induction l with
  | nil => grind [insertEntry]
  | cons entry rest ih => grind [insertEntry]

theorem get?_erase (t : Table α) (name other : String) :
    (t.erase name).get? other = if other = name then none else t.get? other := by
  suffices h : ∀ l : List (String × α),
      ((l.filter (·.1 != name)).find? (·.1 == other)).map (·.2)
        = if other = name then none else (l.find? (·.1 == other)).map (·.2) from h t.entries
  intro l
  induction l with
  | nil => simp
  | cons entry rest ih =>
    by_cases hn : entry.1 = name <;> by_cases ho : entry.1 = other <;> simp_all

end Table

end Testbed
