import Testbed.Proofs.Table
import Testbed.Toml.Reader

/-!
# Tables have different keys

No table of a document that has been read has two entries with one key, on any level.  Statements
are added to a draft of the document one by one, and none of them enters a key that is there; a
table in braces is put together from its assignments in the same way.
-/

namespace Testbed.Toml

/-- Neither an array nor a table. -/
def IsScalar : Toml → Prop
  | .array _ => False
  | .table _ => False
  | _ => True

/-- All tables within a value have entries with different keys. -/
inductive Distinct : Toml → Prop
  | scalar {j : Toml} (h : j.IsScalar) : Distinct j
  | array {items : List Toml} (h : ∀ item ∈ items, Distinct item) : Distinct (.array items)
  | table {entries : List (String × Toml)} (keys : (entries.map (·.1)).Nodup)
      (h : ∀ entry ∈ entries, Distinct entry.2) : Distinct (.table entries)

/-! ## Open tables -/

/-- All tables within a node have entries with different keys. -/
inductive Node.Distinct : Node → Prop
  | closed {value : Toml} (h : value.Distinct) : Node.Distinct (.closed value)
  | table {origin : Origin} {entries : List (String × Node)} (keys : (entries.map (·.1)).Nodup)
      (h : ∀ entry ∈ entries, Node.Distinct entry.2) : Node.Distinct (.table origin entries)
  | tables {items : List (List (String × Node))}
      (keys : ∀ entries ∈ items, (entries.map (·.1)).Nodup)
      (h : ∀ entries ∈ items, ∀ entry ∈ entries, Node.Distinct entry.2) :
      Node.Distinct (.tables items)

/-- The entries of an open table have different keys, and so have those of all tables in it. -/
structure DistinctNodes (entries : List (String × Node)) : Prop where
  keys : (entries.map (·.1)).Nodup
  nodes : ∀ entry ∈ entries, entry.2.Distinct

theorem distinctNodes_nil : DistinctNodes [] := ⟨List.nodup_nil, by simp⟩

theorem DistinctNodes.table {entries : List (String × Node)} (h : DistinctNodes entries)
    (origin : Origin) : (Node.table origin entries).Distinct :=
  .table h.keys h.nodes

theorem Node.Distinct.entries {origin : Origin} {entries : List (String × Node)}
    (h : (Node.table origin entries).Distinct) : DistinctNodes entries := by
  rcases h with - | ⟨keys, nodes⟩ | -
  exact ⟨keys, nodes⟩

theorem DistinctNodes.tables {front : List (List (String × Node))} {last : List (String × Node)}
    (h : ∀ entries ∈ front, DistinctNodes entries) (hlast : DistinctNodes last) :
    (Node.tables (front ++ [last])).Distinct := by
  have hall : ∀ entries ∈ front ++ [last], DistinctNodes entries := by
    intro entries hentries
    rcases List.mem_append.mp hentries with hfront | hnew
    · exact h entries hfront
    · rw [List.mem_singleton.mp hnew]
      exact hlast
  exact .tables (fun entries he => (hall entries he).keys) fun entries he => (hall entries he).nodes

theorem Node.Distinct.items {items : List (List (String × Node))}
    (h : (Node.tables items).Distinct) : ∀ entries ∈ items, DistinctNodes entries := by
  rcases h with - | - | ⟨keys, nodes⟩
  exact fun entries he => ⟨keys entries he, nodes entries he⟩

theorem closeEntries_eq_map (entries : List (String × Node)) :
    closeEntries entries = entries.map fun entry => (entry.1, entry.2.close) := by
  induction entries with
  | nil => rfl
  | cons entry rest ih => rw [closeEntries, ih, List.map_cons]

theorem closeItems_eq_map (items : List (List (String × Node))) :
    closeItems items = items.map fun entries => .table (closeEntries entries) := by
  induction items with
  | nil => rfl
  | cons entries rest ih => rw [closeItems, ih, List.map_cons]

theorem distinct_closeEntries {entries : List (String × Node)}
    (keys : (entries.map (·.1)).Nodup) (closed : ∀ entry ∈ entries, entry.2.close.Distinct) :
    Distinct (.table (closeEntries entries)) := by
  rw [closeEntries_eq_map]
  apply Distinct.table
  · rwa [List.map_map]
  · intro entry hentry
    obtain ⟨open', hopen, rfl⟩ := List.mem_map.mp hentry
    exact closed open' hopen

theorem Node.Distinct.close {node : Node} (h : node.Distinct) : node.close.Distinct := by
  induction h with
  | closed h => exact h
  | table keys _ ih => exact distinct_closeEntries keys ih
  | tables keys _ ih =>
      rw [Node.close, closeItems_eq_map]
      apply Distinct.array
      intro item hitem
      obtain ⟨entries, hentries, rfl⟩ := List.mem_map.mp hitem
      exact distinct_closeEntries (keys entries hentries) (ih entries hentries)

theorem DistinctNodes.close {entries : List (String × Node)} (h : DistinctNodes entries) :
    Distinct (.table (closeEntries entries)) :=
  distinct_closeEntries h.keys fun entry hentry => (h.nodes entry hentry).close

namespace OpenTable

variable {t t' : OpenTable} {key : String} {node : Node}

theorem distinct_of_find? (h : DistinctNodes t.entries) (hfind : t.find? key = some node) :
    node.Distinct := by
  exact h.nodes (key, node) (Table.mem_of_find?_map hfind)

theorem distinct_put (h : DistinctNodes t.entries) (hnode : node.Distinct) :
    DistinctNodes (t.put key node).entries := by
  rw [put]
  split
  case isTrue =>
      constructor
      · have hkeys : (t.entries.map fun e => if e.1 == key then (key, node) else e).map (·.1) =
            t.entries.map (·.1) := by
          rw [List.map_map]
          apply List.map_congr_left
          intro entry _
          by_cases hkey : entry.1 = key
          · simp [hkey]
          · simp [hkey]
        rw [hkeys]
        exact h.keys
      · intro entry hentry
        obtain ⟨old, hold, rfl⟩ := List.mem_map.mp hentry
        split
        case isTrue => exact hnode
        case isFalse => exact h.nodes old hold
  case isFalse hnew =>
      constructor
      · rw [List.map_append, List.nodup_append]
        refine ⟨h.keys, by simp, ?_⟩
        intro old hold new hkey hsame
        obtain ⟨entry, hentry, rfl⟩ := List.mem_map.mp hold
        rw [List.map_singleton, List.mem_singleton] at hkey
        exact hnew (List.any_eq_true.mpr ⟨entry, hentry, by simp [hsame, hkey]⟩)
      · intro entry hentry
        rcases List.mem_append.mp hentry with hold | hlast
        · exact h.nodes entry hold
        · rw [List.mem_singleton.mp hlast]
          exact hnode

/-- A change of one table leaves the keys different if they are in the changed table. -/
theorem distinct_change {dotted : Bool} {f : OpenTable → Option OpenTable}
    (hf : ∀ s s', DistinctNodes s.entries → f s = some s' → DistinctNodes s'.entries)
    {path : List String} (h : DistinctNodes t.entries)
    (hchange : t.change dotted f path = some t') : DistinctNodes t'.entries := by
  induction path generalizing t t' with
  | nil => exact hf t t' h hchange
  | cons key path ih =>
      rw [change] at hchange
      split at hchange
      case h_1 =>
          obtain ⟨s, hs, rfl⟩ := Option.map_eq_some_iff.mp hchange
          exact distinct_put h ((ih distinctNodes_nil hs).table _)
      case h_2 => cases hchange
      case h_3 origin entries hfind =>
          rw [Option.ite_none_left_eq_some] at hchange
          obtain ⟨s, hs, rfl⟩ := Option.map_eq_some_iff.mp hchange.2
          exact distinct_put h ((ih (distinct_of_find? h hfind).entries hs).table _)
      case h_4 items hfind =>
          obtain ⟨last, hlast, hmap⟩ := Option.bind_eq_some_iff.mp hchange
          obtain ⟨s, hs, rfl⟩ := Option.map_eq_some_iff.mp hmap
          have hitems := (distinct_of_find? h hfind).items
          apply distinct_put h
          apply DistinctNodes.tables
          · intro entries hentries
            exact hitems entries ((List.dropLast_sublist items).subset hentries)
          · exact ih (hitems last (List.mem_of_getLast? hlast)) hs

theorem distinct_assign {path : List String} {value : Toml} (h : DistinctNodes t.entries)
    (hvalue : value.Distinct) (hassign : t.assign path key value = some t') :
    DistinctNodes t'.entries := by
  refine distinct_change ?_ h hassign
  intro s s' hs hput
  rw [Option.ite_none_left_eq_some, Option.ite_none_left_eq_some] at hput
  cases hput.2.2
  exact distinct_put hs (.closed hvalue)

theorem distinct_openTable {path : List String} (h : DistinctNodes t.entries)
    (hopen : t.openTable path key = some t') : DistinctNodes t'.entries := by
  refine distinct_change ?_ h hopen
  intro s s' hs hput
  split at hput
  case h_1 =>
      cases hput
      exact distinct_put hs (distinctNodes_nil.table _)
  case h_2 entries hfind =>
      cases hput
      exact distinct_put hs ((distinct_of_find? hs hfind).entries.table _)
  case h_3 => cases hput

theorem distinct_openItem {path : List String} (h : DistinctNodes t.entries)
    (hopen : t.openItem path key = some t') : DistinctNodes t'.entries := by
  refine distinct_change ?_ h hopen
  intro s s' hs hput
  split at hput
  case h_1 =>
      cases hput
      have hnone : ∀ entries ∈ ([] : List (List (String × Node))), DistinctNodes entries := by simp
      exact distinct_put hs (DistinctNodes.tables hnone distinctNodes_nil)
  case h_2 items hfind =>
      cases hput
      have hitems := (distinct_of_find? hs hfind).items
      exact distinct_put hs (DistinctNodes.tables hitems distinctNodes_nil)
  case h_3 => cases hput

end OpenTable

/-! ## Statements -/

/-- A fold that may fail keeps what its steps keep. -/
theorem foldlM_keeps {α β : Type} {P : β → Prop} {f : β → α → Option β} {l : List α}
    (step : ∀ a ∈ l, ∀ b b', P b → f b a = some b' → P b') {b b' : β} (h : P b)
    (hfold : l.foldlM f b = some b') : P b' := by
  induction l generalizing b with
  | nil =>
      cases hfold
      exact h
  | cons a rest ih =>
      rw [List.foldlM_cons] at hfold
      obtain ⟨next, hnext, hrest⟩ := Option.bind_eq_some_iff.mp hfold
      exact ih (fun a ha => step a (List.mem_cons_of_mem _ ha))
        (step a List.mem_cons_self b next h hnext) hrest

theorem distinct_tableOf {assignments : List Assignment} {j : Toml}
    (h : ∀ a ∈ assignments, a.value.Distinct) (htable : tableOf assignments = some j) :
    j.Distinct := by
  obtain ⟨t, ht, rfl⟩ := Option.map_eq_some_iff.mp htable
  refine (foldlM_keeps (P := fun t => DistinctNodes t.entries) ?_ distinctNodes_nil ht).close
  intro a ha s s' hs hassign
  exact OpenTable.distinct_assign hs (h a ha) hassign

/-- The value of a statement, if it has one, has different keys. -/
def Statement.Distinct : Statement → Prop
  | .assignment a => a.value.Distinct
  | _ => True

theorem distinct_add {d d' : Draft} {statement : Statement} (h : DistinctNodes d.root.entries)
    (hstatement : statement.Distinct) (hadd : d.add statement = some d') :
    DistinctNodes d'.root.entries := by
  cases statement with
  | assignment a =>
      obtain ⟨root, hroot, rfl⟩ := Option.map_eq_some_iff.mp hadd
      refine OpenTable.distinct_change ?_ h hroot
      intro s s' hs hassign
      exact OpenTable.distinct_assign hs hstatement hassign
  | table path key =>
      obtain ⟨root, hroot, rfl⟩ := Option.map_eq_some_iff.mp hadd
      exact OpenTable.distinct_openTable h hroot
  | item path key =>
      obtain ⟨root, hroot, rfl⟩ := Option.map_eq_some_iff.mp hadd
      exact OpenTable.distinct_openItem h hroot

theorem distinct_ofStatements? {statements : List Statement} {entries : List (String × Toml)}
    (h : ∀ statement ∈ statements, statement.Distinct)
    (hentries : ofStatements? statements = some entries) : Distinct (.table entries) := by
  obtain ⟨d, hd, rfl⟩ := Option.map_eq_some_iff.mp hentries
  refine (foldlM_keeps (P := fun d => DistinctNodes d.root.entries) ?_ distinctNodes_nil hd).close
  intro statement hstatement s s' hs hadd
  exact distinct_add hs (h statement hstatement) hadd

/-! ## Reading -/

namespace Reader

theorem isScalar_float? {cs : List Char} {v : Toml} (h : Word.float? cs = some v) : v.IsScalar := by
  rw [Word.float?] at h
  simp only [Option.bind_eq_bind, Word.floatValue] at h
  split at h
  case isTrue =>
      obtain rfl := Option.some.inj h
      trivial
  case isFalse =>
      split at h
      case isTrue =>
          obtain rfl := Option.some.inj h
          trivial
      case isFalse =>
          obtain ⟨whole, -, h⟩ := Option.bind_eq_some_iff.mp h
          obtain ⟨rest, -, h⟩ := Option.bind_eq_some_iff.mp h
          obtain ⟨x, -, rfl⟩ := Option.map_eq_some_iff.mp h
          split
          case h_1 => trivial
          case h_2 => trivial

theorem isScalar_value? {cs : List Char} {v : Toml} (h : Word.value? cs = some v) : v.IsScalar := by
  rw [Word.value?] at h
  split at h
  case isTrue =>
      obtain rfl := Option.some.inj h
      trivial
  case isFalse =>
      split at h
      case isTrue =>
          obtain rfl := Option.some.inj h
          trivial
      case isFalse =>
          split at h
          case isTrue =>
              obtain rfl := Option.some.inj h
              trivial
          case isFalse =>
              split at h
              case h_1 n _ =>
                  obtain rfl := Option.some.inj h
                  trivial
              case h_2 => exact isScalar_float? h

theorem isScalar_word {cs : List Char} {r : Toml × List Char} (h : word cs = some r) :
    r.1.IsScalar := by
  have hvalue : ∀ {found rest : List Char},
      (Word.value? found).map (fun v => (v, rest)) = some r → r.1.IsScalar := by
    intro found rest hfound
    obtain ⟨v, hv, rfl⟩ := Option.map_eq_some_iff.mp hfound
    exact isScalar_value? hv
  rw [word] at h
  split at h
  case h_1 =>
      split at h
      case isTrue => exact hvalue h
      case isFalse => exact hvalue h
  case h_2 => exact hvalue h

theorem isScalar_scalar {cs : List Char} {r : Toml × List Char} (h : scalar cs = some r) :
    r.1.IsScalar := by
  have htext : ∀ {found : Option (String × List Char)},
      found.map (fun r => (Toml.string r.1, r.2)) = some r → r.1.IsScalar := by
    intro found hfound
    obtain ⟨text, -, rfl⟩ := Option.map_eq_some_iff.mp hfound
    trivial
  rw [scalar.eq_def] at h
  split at h
  case h_1 => exact htext h
  case h_2 => exact htext h
  case h_3 => exact htext h
  case h_4 => exact htext h
  case h_5 => exact isScalar_word h

/-- Items that are read have what every item that is read has. -/
theorem items_forall {α : Type} {P : α → Prop} {item : Parse α} {close : Char} {fuel : Nat}
    (h : ∀ cs r, item cs = some r → P r.1) {cs : List Char} {r : List α × List Char}
    (hread : items item close fuel cs = some r) : ∀ a ∈ r.1, P a := by
  induction fuel generalizing cs r with
  | zero => simp [items] at hread
  | succ fuel ih =>
      rw [items] at hread
      split at hread
      case isTrue =>
          obtain rfl := Option.some.inj hread
          exact List.forall_mem_nil _
      case isFalse =>
          split at hread
          case h_1 => simp at hread
          case h_2 a rest hitem =>
              have ha := h _ _ hitem
              split at hread
              case h_1 => simp at hread
              case h_2 =>
                  split at hread
                  case isTrue =>
                      obtain ⟨later, hlater, rfl⟩ := Option.map_eq_some_iff.mp hread
                      exact List.forall_mem_cons.mpr ⟨ha, ih hlater⟩
                  case isFalse =>
                      rw [Option.ite_none_right_eq_some] at hread
                      obtain rfl := Option.some.inj hread.2
                      simpa using ha

theorem assignment_forall {P : Toml → Prop} {value : Parse Toml}
    (h : ∀ cs r, value cs = some r → P r.1) {cs : List Char} {r : Assignment × List Char}
    (hread : assignment value cs = some r) : P r.1.value := by
  rw [assignment] at hread
  split at hread
  case h_1 => simp at hread
  case h_2 =>
      split at hread
      case h_1 =>
          obtain ⟨found, hfound, rfl⟩ := Option.map_eq_some_iff.mp hread
          exact h _ _ hfound
      case h_2 => simp at hread

theorem distinct_value {levels : Nat} {cs : List Char} {r : Toml × List Char}
    (h : value levels cs = some r) : r.1.Distinct := by
  induction levels generalizing cs r with
  | zero =>
      rw [value.eq_def] at h
      split at h
      case h_1 => cases h
      case h_2 => cases h
      case h_3 hlevels => cases hlevels
      case h_4 hlevels => cases hlevels
      case h_5 => exact .scalar (isScalar_scalar h)
  | succ levels ih =>
      rw [value.eq_def] at h
      split at h
      case h_1 hlevels => cases hlevels
      case h_2 hlevels => cases hlevels
      case h_3 hlevels =>
          cases hlevels
          obtain ⟨found, hfound, rfl⟩ := Option.map_eq_some_iff.mp h
          exact .array (items_forall (fun _ _ => ih) hfound)
      case h_4 hlevels =>
          cases hlevels
          split at h
          case h_1 => cases h
          case h_2 assignments rest hfound =>
              obtain ⟨j, hj, rfl⟩ := Option.map_eq_some_iff.mp h
              have hvalues := items_forall (P := fun a => a.value.Distinct)
                (fun _ _ => assignment_forall (P := Distinct) fun _ _ => ih) hfound
              exact distinct_tableOf hvalues hj
      case h_5 => exact .scalar (isScalar_scalar h)

theorem distinct_statement {cs : List Char} {r : Statement × List Char}
    (h : statement cs = some r) : r.1.Distinct := by
  rw [statement.eq_def] at h
  split at h
  case h_1 =>
      split at h
      case h_1 =>
          obtain rfl := Option.some.inj h
          trivial
      case h_2 => simp at h
  case h_2 =>
      split at h
      case h_1 =>
          obtain rfl := Option.some.inj h
          trivial
      case h_2 => simp at h
  case h_3 =>
      obtain ⟨a, ha, rfl⟩ := Option.map_eq_some_iff.mp h
      exact assignment_forall (P := Distinct) (fun _ _ => distinct_value) ha

theorem distinct_statements {fuel : Nat} {cs : List Char} {found : List Statement}
    (h : statements fuel cs = some found) : ∀ s ∈ found, s.Distinct := by
  induction fuel generalizing cs found with
  | zero => simp [statements] at h
  | succ fuel ih =>
      rw [statements] at h
      split at h
      case isTrue =>
          obtain rfl := Option.some.inj h
          exact List.forall_mem_nil _
      case isFalse =>
          split at h
          case h_1 => simp at h
          case h_2 s rest hs =>
              have hfirst := distinct_statement hs
              dsimp only at h
              split at h
              case isTrue =>
                  obtain rfl := Option.some.inj h
                  simpa using hfirst
              case isFalse =>
                  split at h
                  case h_1 =>
                      obtain ⟨later, hlater, rfl⟩ := Option.map_eq_some_iff.mp h
                      exact List.forall_mem_cons.mpr ⟨hfirst, ih hlater⟩
                  case h_2 => simp at h

end Reader

/-- The tables of a document that has been read have entries with different keys. -/
theorem distinct_read? {text : String} {entries : List (String × Toml)}
    (h : read? text = some entries) : Distinct (.table entries) := by
  obtain ⟨statements, hstatements, hentries⟩ := Option.bind_eq_some_iff.mp h
  exact distinct_ofStatements? (Reader.distinct_statements hstatements) hentries

/-! ## Positions -/

/-- A step into a value: to what a table has under a key, or to an item of an array. -/
inductive Step where
  | key (name : String)
  | item (index : Nat)

/-- What a step leads to. -/
def child? : Step → Toml → Option Toml
  | .key name, .table entries => entry? entries name
  | .item i, .array items => items[i]?
  | _, _ => none

/-- What stands at a position, which is given by the steps to it. -/
def at? : List Step → Toml → Option Toml
  | [], j => some j
  | step :: rest, j => (child? step j).bind (at? rest)

/-- The keys of a table. -/
def keys : Toml → List String
  | .table entries => entries.map (·.1)
  | _ => []

theorem entry?_of_mem {entries : List (String × Toml)} {key : String} {value : Toml}
    (keys : (entries.map (·.1)).Nodup) (h : (key, value) ∈ entries) :
    entry? entries key = some value := by
  induction entries with
  | nil => cases h
  | cons entry rest ih =>
      obtain ⟨hnot, hrest⟩ := List.nodup_cons.mp keys
      rcases List.mem_cons.mp h with rfl | hmem
      · simp only [List.find?_cons, beq_self_eq_true, Option.map_some, entry?]
      · have hne : entry.1 ≠ key := by
          rintro rfl
          exact hnot (List.mem_map.mpr ⟨_, hmem, rfl⟩)
        rw [← ih hrest hmem, entry?, entry?, List.find?_cons_of_neg (by simpa using hne)]

theorem keys_of_isScalar {j : Toml} (h : j.IsScalar) : j.keys = [] := by
  rw [keys.eq_def]
  split
  case h_1 => cases h
  case h_2 => rfl

theorem Distinct.nodup_keys {j : Toml} (h : j.Distinct) : j.keys.Nodup := by
  rcases h with h | - | ⟨nodup, -⟩
  · rw [keys_of_isScalar h]
    exact List.nodup_nil
  · exact List.nodup_nil
  · exact nodup

/-- Only tables and arrays have something in them. -/
theorem child?_eq_some {step : Step} {j v : Toml} (h : child? step j = some v) :
    (∃ name entries, step = .key name ∧ j = .table entries ∧ entry? entries name = some v) ∨
      ∃ i items, step = .item i ∧ j = .array items ∧ items[i]? = some v := by
  rw [child?.eq_def] at h
  split at h
  case h_1 name entries => exact Or.inl ⟨name, entries, rfl, rfl, h⟩
  case h_2 i items => exact Or.inr ⟨i, items, rfl, rfl, h⟩
  case h_3 => cases h

theorem at?_cons_eq_some {step : Step} {rest : List Step} {j v : Toml} :
    at? (step :: rest) j = some v ↔ ∃ inner, child? step j = some inner ∧ at? rest inner = some v :=
  Option.bind_eq_some_iff

theorem Distinct.at? {j v : Toml} (h : j.Distinct) {position : List Step}
    (hat : at? position j = some v) : v.Distinct := by
  induction position generalizing j with
  | nil =>
      cases hat
      exact h
  | cons step rest ih =>
      obtain ⟨inner, hchild, hrest⟩ := at?_cons_eq_some.mp hat
      refine ih ?_ hrest
      rcases child?_eq_some hchild with ⟨_, _, -, rfl, hentry⟩ | ⟨_, _, -, rfl, hitem⟩
      · rcases h with h | - | ⟨-, h⟩
        · cases h
        · exact h _ (Table.mem_of_find?_map hentry)
      · rcases h with h | h | -
        · cases h
        · exact h _ (List.mem_of_getElem? hitem)

theorem at?_of_isScalar {j v : Toml} (h : j.IsScalar) {position : List Step}
    (hat : at? position j = some v) : v = j := by
  rcases position with - | ⟨step, rest⟩
  · exact (Option.some.inj hat).symm
  · obtain ⟨inner, hchild, -⟩ := at?_cons_eq_some.mp hat
    rcases child?_eq_some hchild with ⟨_, _, -, rfl, -⟩ | ⟨_, _, -, rfl, -⟩
    · cases h
    · cases h

end Testbed.Toml
