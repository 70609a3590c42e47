import Testbed.Json.Decode
import Testbed.Proofs.Json.Value

/-!
# What is read is not nested too deep

A reader with a limited number of levels gives no document that is nested deeper.  What is decoded
from such a document are values, and the deeper they lie in it the less they are nested themselves.
-/

namespace Testbed.Json

namespace Reader

universe u

variable {α : Type u} {item : Reader α} {P : α → Prop}

/-- What holds of all that a reader of items can find holds of all the items found. -/
theorem itemsFrom_forall (h : ∀ cs a rest, item cs = some (a, rest) → P a) {close : Char}
    {fuel : Nat}
    {cs rest : List Char} {xs : List α} (hread : itemsFrom item close fuel cs = some (xs, rest)) :
    ∀ a ∈ xs, P a := by
  induction fuel generalizing cs rest xs with
  | zero => cases hread
  | succ fuel ih =>
      unfold itemsFrom at hread
      split at hread
      case h_1 => cases hread
      case h_2 a cs' hitem =>
          have ha := h _ a cs' hitem
          split at hread
          case h_1 => cases hread
          case h_2 =>
              split at hread
              case isTrue =>
                  obtain ⟨found, hfound, heq⟩ := Option.map_eq_some_iff.mp hread
                  cases heq
                  intro b hb
                  rcases List.mem_cons.mp hb with rfl | hb
                  · exact ha
                  · exact ih hfound b hb
              case isFalse =>
                  split at hread
                  case isTrue =>
                      cases hread
                      intro b hb
                      rw [List.mem_singleton.mp hb]
                      exact ha
                  case isFalse => cases hread

theorem items_forall (h : ∀ cs a rest, item cs = some (a, rest) → P a) {close : Char}
    {cs rest : List Char} {xs : List α} (hread : items item close cs = some (xs, rest)) :
    ∀ a ∈ xs, P a := by
  unfold items at hread
  split at hread
  case h_1 => cases hread
  case h_2 =>
      split at hread
      case isTrue =>
          cases hread
          simp
      case isFalse => exact itemsFrom_forall h hread

/-- The value of a member is found by the reader for its name. -/
theorem member_eq_some {leaves : Leaves} {valueOf : String → Reader α} {cs rest : List Char}
    {name : String} {a : α} (hread : member leaves valueOf cs = some ((name, a), rest)) :
    ∃ cs', valueOf name cs' = some (a, rest) := by
  unfold member at hread
  split at hread
  case h_1 => cases hread
  case h_2 =>
      split at hread
      case h_1 rest' _ =>
          obtain ⟨⟨b, rest''⟩, hfound, heq⟩ := Option.map_eq_some_iff.mp hread
          cases heq
          exact ⟨skipBlanks rest', hfound⟩
      case h_2 => cases hread

theorem members_forall {leaves : Leaves} {valueOf : String → Reader α} {Q : String → α → Prop}
    (h : ∀ name cs a rest, valueOf name cs = some (a, rest) → Q name a) {cs rest : List Char}
    {xs : List (String × α)} (hread : members leaves valueOf cs = some (xs, rest)) :
    ∀ entry ∈ xs, Q entry.1 entry.2 := by
  refine items_forall (P := fun entry => Q entry.1 entry.2) ?_ hread
  rintro cs' ⟨name, a⟩ rest' hmember
  obtain ⟨cs'', hvalue⟩ := member_eq_some hmember
  exact h name cs'' a rest' hvalue

theorem depth_of_scalar {leaves : Leaves} {cs rest : List Char} {j : Json}
    (hread : scalar leaves cs = some (j, rest)) : j.depth = 0 := by
  have mapped : ∀ {β : Type} {found : Option β} {f : β → Json × List Char},
      found.map f = some (j, rest) → (∀ b, (f b).1.depth = 0) → j.depth = 0 := by
    intro β found f hmap hdepth
    obtain ⟨b, -, hb⟩ := Option.map_eq_some_iff.mp hmap
    have hb' := hdepth b
    rw [hb] at hb'
    exact hb'
  unfold scalar at hread
  split at hread
  case h_1 => cases hread
  case h_2 =>
      split at hread
      case isTrue => exact mapped hread fun _ => rfl
      case isFalse =>
          split at hread
          case isTrue => exact mapped hread fun _ => rfl
          case isFalse =>
              split at hread
              case isTrue => exact mapped hread fun _ => rfl
              case isFalse =>
                  split at hread
                  case isTrue => exact mapped hread fun _ => rfl
                  case isFalse =>
                      split at hread
                      case h_1 => cases hread
                      case h_2 => exact mapped hread fun _ => rfl

/-- No document is read that is nested deeper than the levels allow. -/
theorem depth_le_of_value {leaves : Leaves} {levels : Nat} {cs rest : List Char} {j : Json}
    (hread : value leaves levels cs = some (j, rest)) : j.depth ≤ levels := by
  induction levels generalizing cs rest j with
  | zero =>
      unfold value at hread
      split at hread
      case h_1 => cases hread
      case h_2 => cases hread
      case h_3 heq => cases heq
      case h_4 heq => cases heq
      case h_5 => exact Nat.le_of_eq (depth_of_scalar hread)
  | succ levels ih =>
      unfold value at hread
      split at hread
      case h_1 heq => cases heq
      case h_2 heq => cases heq
      case h_3 heq =>
          cases heq
          obtain ⟨⟨found, rest'⟩, hfound, heq⟩ := Option.map_eq_some_iff.mp hread
          cases heq
          exact depth_array_le.mpr (items_forall (fun _ _ _ => ih) hfound)
      case h_4 heq =>
          cases heq
          obtain ⟨⟨found, rest'⟩, hfound, heq⟩ := Option.map_eq_some_iff.mp hread
          cases heq
          refine depth_object_le.mpr ?_
          exact members_forall (Q := fun _ j => j.depth ≤ levels) (fun _ _ _ _ => ih) hfound
      case h_5 =>
          rw [depth_of_scalar hread]
          exact Nat.zero_le _

end Reader

/-! ## Decoded values -/

/-- A document is a value, and is nested no deeper than some levels. -/
structure Bounded (levels : Nat) (j : Json) : Prop where
  settled : j.Settled
  depth_le : j.depth ≤ levels

theorem bounded_settle {levels : Nat} {j : Json} (h : j.depth ≤ levels) : Bounded levels j.settle :=
  ⟨settled_settle j, depth_settle_le h⟩

theorem bounded_string (levels : Nat) (s : String) : Bounded levels (.string s) :=
  ⟨rfl, Nat.zero_le _⟩

theorem bounded_ofStrings (levels : Nat) (texts : List String) :
    Bounded (levels + 1) (ofStrings texts) := by
  have hitems : ∀ item ∈ texts.map Json.string, ∃ s, item = .string s := by
    intro item hitem
    obtain ⟨s, -, rfl⟩ := List.mem_map.mp hitem
    exact ⟨s, rfl⟩
  constructor
  · rw [Settled, ofStrings, settle, settleItems_eq_map]
    congr 1
    refine (List.map_congr_left fun item hitem => ?_).trans (List.map_id _)
    obtain ⟨s, rfl⟩ := hitems item hitem
    rfl
  · rw [ofStrings, depth_array_le]
    intro item hitem
    obtain ⟨s, rfl⟩ := hitems item hitem
    exact Nat.zero_le levels

namespace Decoder

variable {α β : Type}

theorem exists_of_mem_mapM {f : α → Option β} {l : List α} {found : List β}
    (h : l.mapM f = some found) : ∀ b ∈ found, ∃ a ∈ l, f a = some b := by
  induction l generalizing found with
  | nil =>
      cases h
      simp
  | cons a rest ih =>
      rw [List.mapM_cons] at h
      obtain ⟨b, hb, h⟩ := Option.bind_eq_some_iff.mp h
      obtain ⟨others, hothers, h⟩ := Option.bind_eq_some_iff.mp h
      cases h
      intro c hc
      rcases List.mem_cons.mp hc with rfl | hc
      · exact ⟨a, List.mem_cons_self, hb⟩
      · obtain ⟨a', ha', hc'⟩ := ih hothers c hc
        exact ⟨a', List.mem_cons_of_mem a ha', hc'⟩

/-- What holds of all that can be decoded one level further in holds of a decoded table. -/
theorem holds_of_table {decode : Decoder α} {P : α → Prop} {levels : Nat} {j : Json} {t : Table α}
    (h : ∀ item a, item.depth ≤ levels → decode item = some a → P a) (hdepth : j.depth ≤ levels + 1)
    (ht : table decode j = some t) : t.Holds P := by
  obtain ⟨found, hpairs, rfl⟩ := Option.map_eq_some_iff.mp ht
  unfold pairs at hpairs
  split at hpairs
  case h_1 members =>
      rw [depth_object_le] at hdepth
      apply Table.holds_ofList
      intro pair hpair
      obtain ⟨member, hmember, heq⟩ := exists_of_mem_mapM hpairs pair hpair
      obtain ⟨a, ha, rfl⟩ := Option.map_eq_some_iff.mp heq
      exact h member.2 a (hdepth member hmember) ha
  case h_2 => cases hpairs

/-- Decoded variables are values, nested one level less. -/
theorem bounded_of_vars {levels : Nat} {j : Json} {t : Vars} (hdepth : j.depth ≤ levels + 1)
    (ht : vars j = some t) : t.Holds (Bounded levels) := by
  refine holds_of_table ?_ hdepth ht
  intro item a hitem ha
  cases ha
  exact bounded_settle hitem

/-- A field is a member of the object. -/
theorem mem_of_field? {members : List (String × Json)} {name : String} {j : Json}
    (h : field? members name = some (some j)) : ∃ member ∈ members, member.2 = j := by
  unfold field? at h
  split at h
  case h_1 => cases h
  case h_2 found _ hfilter =>
      cases h
      have hmem : (found, j) ∈ members.filter (·.1 == name) := by simp [hfilter]
      exact ⟨_, (List.mem_filter.mp hmem).1, rfl⟩
  case h_3 => cases h

end Decoder

end Testbed.Json
