import Testbed.Table

/-!
# Laws of tables

The look-ups of a table determine its entries and the entries its look-ups.  A table that is taken
apart into its entries and put together again is the same table.  `Holds` is the condition that all
values of a table have a property; whatever is made of such tables is such a table.
-/

namespace Testbed.Table

universe u v

variable {α : Type u}

/-! ## Look-ups and entries -/

theorem mem_entries {t : Table α} {name : String} {value : α} :
    (name, value) ∈ t.entries ↔ t.get? name = some value := by
  obtain ⟨l, ascending⟩ := t
  unfold get?
  dsimp only
  induction l with
  | nil => simp
  | cons entry rest ih =>
      rw [List.pairwise_cons] at ascending
      obtain ⟨key, v⟩ := entry
      by_cases hkey : key = name
      · subst hkey
        have hnot : (key, value) ∉ rest := by
          intro hmem
          exact String.lt_irrefl key (ascending.1 _ hmem)
        simp [hnot, eq_comm]
      · simp [hkey, Ne.symm hkey, ih ascending.2]

/-- What is found by its name stands there under this name. -/
theorem mem_of_find?_map {l : List (String × α)} {name : String} {value : α}
    (h : (l.find? (·.1 == name)).map (·.2) = some value) : (name, value) ∈ l := by
  obtain ⟨⟨found, _⟩, hfind, rfl⟩ := Option.map_eq_some_iff.mp h
  have hfound : found = name := by simpa using List.find?_some hfind
  rw [← hfound]
  exact List.mem_of_find?_eq_some hfind

theorem get?_insert_self (t : Table α) (name : String) (value : α) :
    (t.insert name value).get? name = some value := by
  simp [get?_insert]

theorem get?_alter (t : Table α) (name : String) (initial : α) (f : α → α) (other : String) :
    (t.alter name initial f).get? other =
      if other = name then some (f ((t.get? name).getD initial)) else t.get? other :=
  get?_insert t name _ other

theorem contains_iff {t : Table α} {name : String} :
    t.contains name = true ↔ ∃ value, t.get? name = some value := by
  simp only [← mem_entries]
  simp [contains]

theorem mem_names {t : Table α} {name : String} : name ∈ t.names ↔ t.contains name = true := by
  rw [contains_iff]
  simp only [← mem_entries]
  simp [names]

theorem names_ascending (t : Table α) : t.names.Pairwise (· < ·) :=
  List.pairwise_map.mpr t.ascending

theorem nodup_names (t : Table α) : t.names.Nodup := by
  apply t.names_ascending.imp
  rintro name _ hlt rfl
  exact String.lt_irrefl name hlt

theorem mem_names_filter {t : Table α} {keep : String → α → Bool} {name : String} :
    name ∈ (t.filter keep).names ↔ ∃ value, t.get? name = some value ∧ keep name value = true := by
  simp only [← mem_entries]
  simp [names, filter]

theorem get?_filter (t : Table α) (keep : String → α → Bool) (name : String) :
    (t.filter keep).get? name = (t.get? name).filter (keep name) := by
  ext value
  rw [← mem_entries, Option.filter_eq_some_iff, ← mem_entries]
  exact List.mem_filter

theorem isEmpty_iff {t : Table α} : t.isEmpty = true ↔ t = ∅ := by
  rw [isEmpty, List.isEmpty_iff, ← entries_inj, entries_empty]

/-- Tables that answer every look-up alike are the same. -/
theorem ext_get? {s t : Table α} (h : ∀ name, s.get? name = t.get? name) : s = t := by
  have nodup : ∀ u : Table α, u.entries.Nodup := by
    intro u
    apply u.ascending.imp
    rintro a b hlt rfl
    exact String.lt_irrefl a.1 hlt
  have members : ∀ entry, entry ∈ s.entries ↔ entry ∈ t.entries := by
    rintro ⟨name, value⟩
    rw [mem_entries, mem_entries, h]
  rw [← entries_inj]
  apply List.Perm.eq_of_pairwise ?_ s.ascending t.ascending
  · exact (List.perm_ext_iff_of_nodup (nodup s) (nodup t)).mpr members
  · intro a b _ _ hab hba
    exact absurd (String.lt_trans hab hba) (String.lt_irrefl a.1)

theorem ext_getD {s t : Table α} (initial : α)
    (hcontains : ∀ name, s.contains name = true ↔ t.contains name = true)
    (h : ∀ name, (s.get? name).getD initial = (t.get? name).getD initial) : s = t := by
  apply ext_get?
  intro name
  have hname := h name
  have hsome := hcontains name
  rw [contains_iff, contains_iff, ← Option.isSome_iff_exists, ← Option.isSome_iff_exists] at hsome
  rcases hs : s.get? name with - | value
  · have hnone : ¬(t.get? name).isSome := by
      rw [← hsome, hs]
      simp
    exact (Option.not_isSome_iff_eq_none.mp hnone).symm
  · rcases ht : t.get? name with - | value'
    · simp [hs, ht] at hsome
    · simpa [hs, ht] using hname

/-! ## Putting a table together -/

/-- What comes after all entries is put at the end. -/
theorem insertEntry_of_forall_lt {name : String} (value : α) {l : List (String × α)}
    (h : ∀ entry ∈ l, entry.1 < name) : insertEntry name value l = l ++ [(name, value)] := by
  induction l with
  | nil => rfl
  | cons entry rest ih =>
      have hlt := h entry List.mem_cons_self
      have hnot : ¬name < entry.1 := fun h' => String.lt_irrefl name (String.lt_trans h' hlt)
      have hne : name ≠ entry.1 := by
        rintro rfl
        exact String.lt_irrefl _ hlt
      rw [insertEntry, if_neg hnot, if_neg hne, ih fun e he => h e (List.mem_cons_of_mem entry he)]
      rfl

/-- Pairs that stand in order after the entries of a table are appended to them. -/
theorem entries_insertAll {t : Table α} {pairs : List (String × α)}
    (h : (t.entries ++ pairs).Pairwise fun a b => a.1 < b.1) :
    (t.insertAll pairs).entries = t.entries ++ pairs := by
  induction pairs generalizing t with
  | nil => simp [insertAll]
  | cons pair rest ih =>
      have hinsert : (t.insert pair.1 pair.2).entries = t.entries ++ [pair] := by
        apply insertEntry_of_forall_lt
        intro entry hentry
        exact (List.pairwise_append.mp h).2.2 entry hentry pair List.mem_cons_self
      have hrest :
          ((t.insert pair.1 pair.2).insertAll rest).entries = t.entries ++ pair :: rest := by
        rw [ih, hinsert, List.append_assoc]
        · rfl
        · rw [hinsert, List.append_assoc]
          exact h
      exact hrest

/-- A table is put together from its entries. -/
theorem ofList_entries (t : Table α) : ofList t.entries = t := by
  rw [← entries_inj]
  exact entries_insertAll t.ascending

/-- A name that comes before those of all entries has no entry. -/
theorem find?_eq_none_of_lt {name : String} {l : List (String × α)}
    (h : ∀ entry ∈ l, name < entry.1) : l.find? (·.1 == name) = none := by
  rw [List.find?_eq_none]
  intro entry hentry hsame
  have hlt := h entry hentry
  rw [beq_iff_eq.mp hsame] at hlt
  exact String.lt_irrefl name hlt

/-- In an ascending list, what is found from the end is found at the greatest name that has it. -/
theorem findSome?_reverse_of_ascending {β : Type v} {l : List (String × α)}
    (ascending : l.Pairwise fun a b => a.1 < b.1) {f : String × α → Option β} {found : β} :
    l.reverse.findSome? f = some found ↔
      ∃ entry ∈ l, f entry = some found ∧ ∀ later ∈ l, entry.1 < later.1 → f later = none := by
  have descending := List.pairwise_reverse.mpr ascending
  rw [List.findSome?_eq_some_iff]
  constructor
  · rintro ⟨above, entry, below, hl, hfound, hnone⟩
    have hmem : ∀ other, other ∈ l ↔ other ∈ above ∨ other = entry ∨ other ∈ below := by
      intro other
      rw [← List.mem_reverse, hl, List.mem_append, List.mem_cons]
    rw [hl, List.pairwise_append, List.pairwise_cons] at descending
    refine ⟨entry, (hmem entry).mpr (.inr (.inl rfl)), hfound, ?_⟩
    intro later hlater hlt
    rcases (hmem later).mp hlater with habove | rfl | hbelow
    · exact hnone later habove
    · exact absurd hlt (String.lt_irrefl later.1)
    · have hgt := descending.2.1.1 later hbelow
      exact absurd (String.lt_trans hlt hgt) (String.lt_irrefl entry.1)
  · rintro ⟨entry, hentry, hfound, hlater⟩
    obtain ⟨above, below, hl⟩ := List.append_of_mem (List.mem_reverse.mpr hentry)
    refine ⟨above, entry, below, hl, hfound, ?_⟩
    intro later habove
    rw [hl, List.pairwise_append] at descending
    have hmem : later ∈ l := by
      rw [← List.mem_reverse, hl]
      exact List.mem_append_left _ habove
    exact hlater later hmem (descending.2.2 later habove entry List.mem_cons_self)

theorem get?_insertAll {t : Table α} {pairs : List (String × α)}
    (h : pairs.Pairwise fun a b => a.1 < b.1) (name : String) :
    (t.insertAll pairs).get? name =
      ((pairs.find? (·.1 == name)).map (·.2)).or (t.get? name) := by
  induction pairs generalizing t with
  | nil => simp [insertAll]
  | cons pair rest ih =>
      obtain ⟨hfirst, hrest⟩ := List.pairwise_cons.mp h
      have hstep : (t.insertAll (pair :: rest)).get? name =
          ((rest.find? (·.1 == name)).map (·.2)).or ((t.insert pair.1 pair.2).get? name) := ih hrest
      rw [hstep, get?_insert]
      by_cases hname : pair.1 = name
      · subst hname
        simp [find?_eq_none_of_lt hfirst]
      · simp [hname, Ne.symm hname]

/-- Of several pairs with one name, the last one decides. -/
theorem get?_insertAll_eq_lookup (t : Table α) (pairs : List (String × α)) (name : String) :
    (t.insertAll pairs).get? name = (pairs.reverse.lookup name).or (t.get? name) := by
  induction pairs generalizing t with
  | nil => rfl
  | cons pair rest ih =>
      obtain ⟨key, value⟩ := pair
      have hstep : (t.insertAll ((key, value) :: rest)).get? name =
          (rest.reverse.lookup name).or ((t.insert key value).get? name) := ih _
      rw [hstep, get?_insert, List.reverse_cons, List.lookup_append, Option.or_assoc]
      by_cases hname : name = key
      · simp [hname]
      · simp [List.lookup_cons, beq_eq_false_iff_ne.mpr hname, hname]

theorem get?_ofList (pairs : List (String × α)) (name : String) :
    (ofList pairs).get? name = pairs.reverse.lookup name := by
  rw [ofList, get?_insertAll_eq_lookup]
  exact Option.or_none

theorem get?_ofList_of_last {before after : List (String × α)} {name : String} {value : α}
    (last : ∀ later ∈ after, later.1 ≠ name) :
    (ofList (before ++ (name, value) :: after)).get? name = some value := by
  have hafter : after.reverse.lookup name = none := by
    rw [List.lookup_eq_none_iff]
    intro later hlater
    exact bne_iff_ne.mpr (last later (List.mem_reverse.mp hlater)).symm
  rw [get?_ofList, List.reverse_append, List.reverse_cons, List.lookup_append, List.lookup_append,
    hafter]
  simp

theorem contains_ofList {pairs : List (String × α)} {name : String} :
    (ofList pairs).contains name = true ↔ ∃ pair ∈ pairs, pair.1 = name := by
  rw [contains_iff, ← Option.isSome_iff_exists, get?_ofList, List.lookup_isSome_iff]
  simp only [List.mem_reverse, beq_iff_eq, @eq_comm _ name]

/-- Where both tables have a name, the later one decides. -/
theorem get?_merge (t later : Table α) (name : String) :
    (t.merge later).get? name = (later.get? name).or (t.get? name) :=
  get?_insertAll later.ascending name

/-- Of tables that are merged one after the other, the last one that has a name decides. -/
theorem get?_foldl_merge {β : Type v} (layer : β → Table α) (layers : List β) (t : Table α)
    (name : String) :
    (layers.foldl (fun t b => t.merge (layer b)) t).get? name =
      (layers.reverse.findSome? fun b => (layer b).get? name).or (t.get? name) := by
  induction layers generalizing t with
  | nil => rfl
  | cons first rest ih =>
      rw [List.foldl_cons, ih, get?_merge, List.reverse_cons, List.findSome?_append,
        Option.or_assoc]
      simp

/-- Changing the values of all names of a table, each by its value there. -/
theorem get?_alterAll {β : Type v} (later : Table β) (initial : α) (f : α → β → α) (t : Table α)
    (name : String) :
    (later.entries.foldl (fun t entry => t.alter entry.1 initial (f · entry.2)) t).get? name =
      ((later.get? name).map (f ((t.get? name).getD initial))).or (t.get? name) := by
  obtain ⟨l, ascending⟩ := later
  rw [get?.eq_def ⟨l, ascending⟩]
  dsimp only
  induction l generalizing t with
  | nil => rfl
  | cons entry rest ih =>
      obtain ⟨hfirst, hrest⟩ := List.pairwise_cons.mp ascending
      rw [List.foldl_cons, ih _ hrest, get?_alter]
      by_cases hname : entry.1 = name
      · subst hname
        simp [find?_eq_none_of_lt hfirst]
      · simp [hname, Ne.symm hname]

/-! ## Properties of the values -/

/-- All values of a table have a property. -/
def Holds (P : α → Prop) (t : Table α) : Prop :=
  ∀ name value, t.get? name = some value → P value

variable {P : α → Prop}

theorem Holds.of_mem {t : Table α} (h : t.Holds P) {entry : String × α}
    (hmem : entry ∈ t.entries) : P entry.2 :=
  h entry.1 entry.2 (mem_entries.mp hmem)

instance [DecidablePred P] : DecidablePred (Holds P) := fun t =>
  decidable_of_iff (∀ entry ∈ t.entries, P entry.2)
    ⟨fun h _ _ hvalue => h _ (mem_entries.mpr hvalue), fun h _ hmem => h.of_mem hmem⟩

theorem Holds.imp {t : Table α} {Q : α → Prop} (h : t.Holds P) (imp : ∀ value, P value → Q value) :
    t.Holds Q :=
  fun name value hvalue => imp value (h name value hvalue)

theorem holds_empty : (∅ : Table α).Holds P := by
  intro name value h
  simp at h

theorem Holds.insert {t : Table α} (h : t.Holds P) (name : String) {value : α} (hvalue : P value) :
    (t.insert name value).Holds P := by
  intro other v hv
  rw [get?_insert] at hv
  split at hv
  case isTrue =>
      cases hv
      exact hvalue
  case isFalse => exact h other v hv

theorem Holds.insertAll {t : Table α} (h : t.Holds P) {pairs : List (String × α)}
    (hpairs : ∀ pair ∈ pairs, P pair.2) : (t.insertAll pairs).Holds P := by
  induction pairs generalizing t with
  | nil => exact h
  | cons pair rest ih =>
      apply ih (h.insert pair.1 (hpairs pair List.mem_cons_self))
      intro p hp
      exact hpairs p (List.mem_cons_of_mem pair hp)

theorem holds_ofList {pairs : List (String × α)} (h : ∀ pair ∈ pairs, P pair.2) :
    (ofList pairs).Holds P :=
  holds_empty.insertAll h

theorem Holds.merge {t later : Table α} (h : t.Holds P) (hlater : later.Holds P) :
    (t.merge later).Holds P :=
  h.insertAll fun _ hmem => hlater.of_mem hmem

theorem Holds.alter {t : Table α} (h : t.Holds P) (name : String) {initial : α} {f : α → α}
    (hinitial : P initial) (hf : ∀ value, P value → P (f value)) :
    (t.alter name initial f).Holds P := by
  apply h.insert
  apply hf
  cases hget : t.get? name with
  | none => exact hinitial
  | some value => exact h name value hget

end Testbed.Table
