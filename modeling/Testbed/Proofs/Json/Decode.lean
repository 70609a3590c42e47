import Testbed.Json.Decode
import Testbed.Proofs.Json.Value

/-!
# Decoding what was encoded

A list or a table is decoded from the document of its encoded items if each item is.
-/

namespace Testbed.Json.Decoder

theorem mapM_map_eq_some {α β : Type} {l : List α} {f : α → β} {g : β → Option α}
    (h : ∀ a ∈ l, g (f a) = some a) : (l.map f).mapM g = some l := by
  induction l with
  | nil => rfl
  | cons a rest ih =>
      have hrest := ih fun b hb => h b (List.mem_cons_of_mem a hb)
      rw [List.map_cons, List.mapM_cons, h a List.mem_cons_self, hrest]
      rfl

theorem list_array {α : Type} {decode : Decoder α} {encode : α → Json} {l : List α}
    (h : ∀ a ∈ l, decode (encode a) = some a) : list decode (.array (l.map encode)) = some l :=
  mapM_map_eq_some h

/-- A table is decoded from the object of its encoded entries. -/
theorem table_object {α : Type} (decode : Decoder α) (encode : α → Json) (t : Table α)
    (h : ∀ entry ∈ t.entries, decode (encode entry.2) = some entry.2) :
    table decode (.object (t.entries.map fun entry => (entry.1, encode entry.2))) = some t := by
  have hpairs : pairs decode (.object (t.entries.map fun entry => (entry.1, encode entry.2))) =
      some t.entries := by
    apply mapM_map_eq_some
    intro entry hentry
    simp [h entry hentry]
  rw [table, hpairs, Option.map_some, Table.ofList_entries]

theorem list_ofStrings (texts : List String) : list string (ofStrings texts) = some texts :=
  list_array fun _ _ => rfl

/-- Settled variables are decoded from their object. -/
theorem vars_ofTable {t : Vars} (h : t.Holds Settled) : vars (ofTable t) = some t := by
  have hentries : t.entries.map (fun entry => (entry.1, id entry.2)) = t.entries := List.map_id _
  rw [vars, ofTable, ← hentries]
  apply table_object
  intro entry hentry
  exact congrArg some (h.of_mem hentry)

end Testbed.Json.Decoder
