import Testbed.Facts.Query
import Testbed.Proofs.Inventory.Merge
import Testbed.Proofs.Json.Nesting

/-!
# The variables of an inventory

All variables come from the inventory files: what holds of all values in the files holds of all
values in the inventory, and, if it holds of texts and lists of texts, of all variables in an
answer.  The values in a file are nested three levels less than a document can be, since they lie
in the variables of a group or a host.
-/

namespace Testbed.Inventory

open Json (Reader Bounded)

variable {P : Json → Prop}

/-! ## Files -/

/-- All variables of a group have a property. -/
def Group.Holds (P : Json → Prop) (g : Group) : Prop := g.vars.Holds P

instance [DecidablePred P] : DecidablePred (Group.Holds P) := fun g =>
  inferInstanceAs (Decidable (g.vars.Holds P))

/-- All variables of a file have a property. -/
structure File.Holds (P : Json → Prop) (file : File) : Prop where
  groups : file.groups.Holds (Group.Holds P)
  hostVars : file.hostVars.Holds (Table.Holds P)

instance [DecidablePred P] : DecidablePred (File.Holds P) := fun file =>
  decidable_of_iff (file.groups.Holds (Group.Holds P) ∧ file.hostVars.Holds (Table.Holds P))
    ⟨fun h => ⟨h.1, h.2⟩, fun h => ⟨h.groups, h.hostVars⟩⟩

namespace File

theorem holds_of_groupOfFields {levels : Nat} {hosts children vars : Option Json} {g : Group}
    (hvars : ∀ j, vars = some j → j.depth ≤ levels + 1)
    (h : groupOfFields hosts children vars = some g) : g.Holds (Bounded levels) := by
  unfold groupOfFields at h
  obtain ⟨_, -, h⟩ := Option.bind_eq_some_iff.mp h
  obtain ⟨_, -, h⟩ := Option.bind_eq_some_iff.mp h
  obtain ⟨t, ht, h⟩ := Option.bind_eq_some_iff.mp h
  cases h
  cases vars with
  | none =>
      cases ht
      exact Table.holds_empty
  | some j => exact Json.Decoder.bounded_of_vars (hvars j rfl) ht

theorem holds_of_group {levels : Nat} {j : Json} {g : Group} (hdepth : j.depth ≤ levels + 2)
    (h : group j = some g) : g.Holds (Bounded levels) := by
  unfold group at h
  split at h
  case h_1 members =>
      rw [Json.depth_object_le] at hdepth
      obtain ⟨_, -, h⟩ := Option.bind_eq_some_iff.mp h
      obtain ⟨_, -, h⟩ := Option.bind_eq_some_iff.mp h
      obtain ⟨vars, hvars, h⟩ := Option.bind_eq_some_iff.mp h
      refine holds_of_groupOfFields ?_ h
      rintro v rfl
      obtain ⟨member, hmember, rfl⟩ := Json.Decoder.mem_of_field? hvars
      exact hdepth member hmember
  case h_2 items =>
      rw [Json.depth_array_le] at hdepth
      split at h
      case isTrue =>
          refine holds_of_groupOfFields ?_ h
          intro v hv
          exact hdepth v (List.mem_of_getElem? hv)
      case isFalse => cases h
  case h_3 => cases h

theorem holds_of_hostTable {levels : Nat} {j : Json} {t : Table Json.Vars}
    (hdepth : j.depth ≤ levels + 2) (h : hostTable j = some t) :
    t.Holds (Table.Holds (Bounded levels)) :=
  Json.Decoder.holds_of_table (fun _ _ hitem hvars => Json.Decoder.bounded_of_vars hitem hvars)
    hdepth h

theorem decoded_eq_some {α : Type} {decode : Json.Decoder α} {levels : Nat} {cs rest : List Char}
    {a : α} (h : decoded decode levels cs = some (a, rest)) :
    ∃ j, j.depth ≤ levels ∧ decode j = some a := by
  unfold decoded at h
  split at h
  case h_1 => cases h
  case h_2 j rest' hvalue =>
      obtain ⟨b, hb, heq⟩ := Option.map_eq_some_iff.mp h
      cases heq
      exact ⟨j, Reader.depth_le_of_value hvalue, hb⟩

theorem holds_of_onlyTable {found : List (Table Json.Vars)} {t : Table Json.Vars}
    (hfound : ∀ table ∈ found, table.Holds (Table.Holds P)) (h : onlyTable found = some t) :
    t.Holds (Table.Holds P) := by
  unfold onlyTable at h
  split at h
  case h_1 =>
      cases h
      exact Table.holds_empty
  case h_2 =>
      cases h
      exact hfound t (List.mem_singleton_self t)
  case h_3 => cases h

theorem holds_of_metaMember {levels : Nat} {name : String} {cs rest : List Char}
    {found : Option (Table Json.Vars)} (h : metaMember (levels + 2) name cs = some (found, rest)) :
    ∀ t, found = some t → t.Holds (Table.Holds (Bounded levels)) := by
  unfold metaMember at h
  split at h
  case isTrue =>
      obtain ⟨⟨table, rest'⟩, hdecoded, heq⟩ := Option.map_eq_some_iff.mp h
      cases heq
      rintro t ⟨⟩
      obtain ⟨j, hdepth, hj⟩ := decoded_eq_some hdecoded
      exact holds_of_hostTable hdepth hj
  case isFalse =>
      obtain ⟨_, -, heq⟩ := Option.map_eq_some_iff.mp h
      cases heq
      rintro t ⟨⟩

theorem holds_of_metaValue {levels : Nat} {cs rest : List Char} {t : Table Json.Vars}
    (h : metaValue (levels + 3) cs = some (t, rest)) : t.Holds (Table.Holds (Bounded levels)) := by
  unfold metaValue at h
  split at h
  case h_1 heq =>
      cases heq
      split at h
      case h_1 => cases h
      case h_2 found rest' hmembers =>
          obtain ⟨t', ht', heq⟩ := Option.map_eq_some_iff.mp h
          cases heq
          refine holds_of_onlyTable ?_ ht'
          intro table htable
          obtain ⟨entry, hentry, hsome⟩ := List.mem_filterMap.mp htable
          exact Reader.members_forall
            (Q := fun _ found => ∀ t, found = some t → t.Holds (Table.Holds (Bounded levels)))
            (fun _ _ _ _ hmember => holds_of_metaMember hmember) hmembers entry hentry table hsome
  case h_2 heq =>
      cases heq
      split at h
      case h_1 => cases h
      case h_2 found rest' hitems =>
          obtain ⟨t', ht', heq⟩ := Option.map_eq_some_iff.mp h
          cases heq
          refine holds_of_onlyTable (Reader.items_forall ?_ hitems) ht'
          intro cs' table rest'' hdecoded
          obtain ⟨j, hdepth, hj⟩ := decoded_eq_some hdecoded
          exact holds_of_hostTable hdepth hj
  case h_3 => cases h

/-- What a member of a file says has a property. -/
def MemberHolds (P : Json → Prop) : Table Json.Vars ⊕ Group → Prop
  | .inl hostVars => hostVars.Holds (Table.Holds P)
  | .inr g => g.Holds P

theorem holds_of_member {levels : Nat} {name : String} {cs rest : List Char}
    {found : Table Json.Vars ⊕ Group} (h : member (levels + 3) name cs = some (found, rest)) :
    MemberHolds (Bounded (levels + 1)) found := by
  unfold member at h
  split at h
  case isTrue =>
      obtain ⟨⟨t, rest'⟩, hmeta, heq⟩ := Option.map_eq_some_iff.mp h
      cases heq
      refine (holds_of_metaValue hmeta).imp fun vars hvars => hvars.imp fun j hj => ?_
      exact ⟨hj.settled, Nat.le_succ_of_le hj.depth_le⟩
  case isFalse =>
      obtain ⟨⟨g, rest'⟩, hdecoded, heq⟩ := Option.map_eq_some_iff.mp h
      cases heq
      obtain ⟨j, hdepth, hj⟩ := decoded_eq_some hdecoded
      exact holds_of_group hdepth hj

theorem holds_of_reader {levels : Nat} {cs rest : List Char} {file : File}
    (h : reader (levels + 4) cs = some (file, rest)) : file.Holds (Bounded (levels + 1)) := by
  unfold reader at h
  split at h
  case h_1 heq =>
      cases heq
      split at h
      case h_1 => cases h
      case h_2 found rest' hmembers =>
          have hfound := Reader.members_forall
            (Q := fun _ found => MemberHolds (Bounded (levels + 1)) found)
            (fun _ _ _ _ hmember => holds_of_member hmember) hmembers
          obtain ⟨hostVars, hhosts, heq⟩ := Option.map_eq_some_iff.mp h
          cases heq
          constructor
          · apply Table.holds_ofList
            intro pair hpair
            obtain ⟨entry, hentry, hright⟩ := List.mem_filterMap.mp hpair
            obtain ⟨g, hg, rfl⟩ := Option.map_eq_some_iff.mp hright
            have hmember := hfound entry hentry
            cases hside : entry.2 with
            | inl t => simp [hside] at hg
            | inr g' =>
                rw [hside] at hmember hg
                cases hg
                exact hmember
          · refine holds_of_onlyTable ?_ hhosts
            intro table htable
            obtain ⟨entry, hentry, hleft⟩ := List.mem_filterMap.mp htable
            have hmember := hfound entry hentry
            cases hside : entry.2 with
            | inl t =>
                rw [hside] at hmember hleft
                cases hleft
                exact hmember
            | inr g => simp [hside] at hleft
  case h_2 => cases h

/-- The values in an inventory file are nested at most 124 deep. -/
theorem bounded_of_parse? {text : String} {file : File} (h : parse? text = some file) :
    file.Holds (Bounded 124) := by
  unfold parse? Reader.document at h
  split at h
  case h_1 => cases h
  case h_2 file' rest hreader =>
      split at h
      case isTrue =>
          cases h
          exact holds_of_reader hreader
      case isFalse => cases h

/-- What holds of all values in a file holds of them together with what else does. -/
theorem Holds.and {Q : Json → Prop} {file : File} (h : file.Holds P) (h' : file.Holds Q) :
    file.Holds fun j => P j ∧ Q j where
  groups := fun name g hg key j hj =>
    ⟨h.groups name g hg key j hj, h'.groups name g hg key j hj⟩
  hostVars := fun name vars hvars key j hj =>
    ⟨h.hostVars name vars hvars key j hj, h'.hostVars name vars hvars key j hj⟩

end File

/-! ## Inventories -/

/-- All variables of an inventory have a property. -/
structure Holds (P : Json → Prop) (inv : Inventory) : Prop where
  hosts : inv.hosts.Holds (Table.Holds P)
  groups : inv.groups.Holds (Group.Holds P)

theorem holds_empty : Holds P {} :=
  ⟨Table.holds_empty, Table.holds_empty⟩

theorem holds_register {hosts : Table Json.Vars} (h : hosts.Holds (Table.Holds P))
    (names : List String) : (register hosts names).Holds (Table.Holds P) := by
  unfold register
  induction names generalizing hosts with
  | nil => exact h
  | cons name rest ih => exact ih (h.alter name Table.holds_empty fun _ hvars => hvars)

theorem Holds.mergeGroup {inv : Inventory} (h : inv.Holds P) (name : String) {g : Group}
    (hg : g.Holds P) : (inv.mergeGroup name g).Holds P where
  hosts := holds_register h.hosts g.hosts
  groups := h.groups.alter name Table.holds_empty fun _ hearlier => Table.Holds.merge hearlier hg

theorem Holds.mergeHost {inv : Inventory} (h : inv.Holds P) (name : String) {vars : Json.Vars}
    (hvars : vars.Holds P) : (inv.mergeHost name vars).Holds P where
  hosts := h.hosts.alter name Table.holds_empty fun _ hearlier => Table.Holds.merge hearlier hvars
  groups := h.groups

theorem Holds.mergeFile {inv : Inventory} (h : inv.Holds P) {file : File} (hfile : file.Holds P) :
    (inv.mergeFile file).Holds P :=
  mergeFile_preserves (fun _ name g hinv hg => hinv.mergeGroup name (hfile.groups name g hg))
    (fun _ name vars hinv hvars => hinv.mergeHost name (hfile.hostVars name vars hvars)) h

/-- All variables of an inventory are in its files. -/
theorem holds_of_load {t : FileTree} {paths : List Path} {inv : Inventory}
    (hfiles : ∀ path ∈ paths, ∀ file, readFile t path = .ok file → file.Holds P)
    (h : load t paths = .ok inv) : inv.Holds P := by
  apply load_preserves holds_empty (fun _ _ hinv => ⟨hinv.hosts, hinv.groups⟩) _ h
  intro path hpath earlier file hread hearlier
  exact hearlier.mergeFile (hfiles path hpath file hread)

/-- Loading asks nothing of a file tree but the texts of the files. -/
theorem load_congr {t t' : FileTree} {paths : List Path}
    (h : ∀ path ∈ paths, t'.readText path = t.readText path) : load t' paths = load t paths := by
  have hfrom : ∀ inv, loadFrom t' inv paths = loadFrom t inv paths := by
    induction paths with
    | nil => exact fun _ => rfl
    | cons path rest ih =>
        intro inv
        have hadd : addFile t' inv path = addFile t inv path := by
          rw [addFile, addFile, readFile, readFile, h path List.mem_cons_self]
        rw [loadFrom, loadFrom, hadd]
        split
        case h_1 => exact ih (fun p hp => h p (List.mem_cons_of_mem path hp)) _
        case h_2 => rfl
  exact hfrom {}

/-! ## Answers -/

theorem Holds.groupVars {inv : Inventory} (h : inv.Holds P) (group : String) :
    (inv.groupVars group).Holds P := by
  unfold Inventory.groupVars
  split
  case h_1 g hg => exact h.groups group g hg
  case h_2 => exact Table.holds_empty

theorem Holds.visibleVars {inv : Inventory} (h : inv.Holds P) (hstring : ∀ s, P (.string s))
    (hstrings : ∀ texts, P (Json.ofStrings texts)) {host : String} {vars : Json.Vars}
    (hvars : inv.visibleVars host = some vars) : vars.Holds P := by
  have hlayers : ∀ (layers : List (Nat × String)) (start : Json.Vars), start.Holds P →
      (layers.foldl (fun vars layer => vars.merge (inv.groupVars layer.2)) start).Holds P := by
    intro layers
    induction layers with
    | nil => exact fun _ hstart => hstart
    | cons layer rest ih => exact fun start hstart => ih _ (hstart.merge (h.groupVars layer.2))
  obtain ⟨own, hown, rfl⟩ := Option.map_eq_some_iff.mp hvars
  have hinherited := (hlayers (inv.layers host) ∅ Table.holds_empty).merge (h.hosts host own hown)
  exact (hinherited.insert _ (hstring host)).insert _ (hstrings _)

/-- All variables in an answer are in the inventory, but for the two that are added. -/
theorem Holds.answer {inv : Inventory} (h : inv.Holds P) (hstring : ∀ s, P (.string s))
    (hstrings : ∀ texts, P (Json.ofStrings texts)) {q : Facts.Query} {name : String}
    {vars : Json.Vars} (hvars : q.answer inv name = some vars) : vars.Holds P := by
  cases q with
  | hostVars => exact h.hosts name vars hvars
  | hostVisibleVars => exact h.visibleVars hstring hstrings hvars
  | groupVisibleVars =>
      obtain ⟨host, -, hhost⟩ := Option.bind_eq_some_iff.mp hvars
      exact h.visibleVars hstring hstrings hhost
  | testServerVars =>
      obtain ⟨host, -, hhost⟩ := Option.bind_eq_some_iff.mp hvars
      exact h.hosts host vars hhost
  | testServerVisibleVars =>
      obtain ⟨host, -, hhost⟩ := Option.bind_eq_some_iff.mp hvars
      exact h.visibleVars hstring hstrings hhost

end Testbed.Inventory
