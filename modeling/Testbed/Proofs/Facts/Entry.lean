import Testbed.Facts.Lookup
import Testbed.Proofs.Inventory.Value
import Testbed.Proofs.Json.Decode
import Testbed.Proofs.Json.RoundTrip

/-!
# Stored answers are read back

An answer whose variables come from inventory files with integers only is read back as it was
stored, together with the files it was computed from.
-/

namespace Testbed.Facts

open Json (Bounded Integral)

/-- A value that can be stored and read back: one of integers, nested no deeper than those in
inventory files. -/
def Storable (j : Json) : Prop := Bounded 124 j ∧ j.Integral

theorem storable_string (s : String) : Storable (.string s) :=
  ⟨Json.bounded_string 124 s, .string s⟩

theorem storable_ofStrings (texts : List String) : Storable (Json.ofStrings texts) :=
  ⟨Json.bounded_ofStrings 123 texts, Json.integral_ofStrings texts⟩

/-- All variables of an entry can be stored and read back. -/
def Entry.Storable (e : Entry) : Prop := ∀ vars, e.vars = some vars → vars.Holds Facts.Storable

namespace Entry

variable {e : Entry}

theorem decode_encode (h : e.Storable) : decode e.encode = some e := by
  obtain ⟨files, vars⟩ := e
  have hfiles : Json.Decoder.list Json.Decoder.string (Json.ofStrings files) = some files :=
    Json.Decoder.list_ofStrings files
  cases vars with
  | none =>
      simp [decode, encode, Json.Decoder.field?, hfiles, Json.Decoder.optional,
        Json.Decoder.nullable]
  | some vars =>
      have hvars : Json.Decoder.vars (Json.ofTable vars) = some vars :=
        Json.Decoder.vars_ofTable ((h vars rfl).imp fun _ hj => hj.1.settled)
      have hnullable :
          Json.Decoder.nullable Json.Decoder.vars (Json.ofTable vars) = some (some vars) := by
        unfold Json.Decoder.nullable
        split
        case h_1 hnull => cases hnull
        case h_2 => rw [hvars, Option.map_some]
      simp [decode, encode, Json.Decoder.field?, hfiles, Json.Decoder.optional, hnullable]

theorem integral_encode (h : e.Storable) : e.encode.Integral := by
  apply Integral.object
  intro member hmember
  rw [List.mem_cons, List.mem_singleton] at hmember
  rcases hmember with rfl | rfl
  · exact Json.integral_ofStrings e.files
  · cases hvars : e.vars with
    | none => exact .null
    | some vars =>
        apply Integral.object
        intro entry hentry
        exact ((h vars hvars).of_mem hentry).2

theorem depth_encode_le (h : e.Storable) : e.encode.depth ≤ 126 := by
  rw [encode, Json.depth_object_le]
  intro member hmember
  rw [List.mem_cons, List.mem_singleton] at hmember
  rcases hmember with rfl | rfl
  · exact Nat.le_trans (Json.bounded_ofStrings 0 e.files).depth_le (by decide)
  · cases hvars : e.vars with
    | none => exact Nat.zero_le 125
    | some vars =>
        refine Json.depth_object_le.mpr fun entry hentry => ?_
        exact ((h vars hvars).of_mem hentry).1.depth_le

/-- An entry is read back from the text under which it is stored. -/
theorem decodeText?_encode (h : e.Storable) :
    Json.decodeText? decode e.encode.compact = some e := by
  have hdepth : e.encode.depth ≤ Json.Reader.levelLimit :=
    Nat.le_trans (depth_encode_le h) (by decide)
  rw [Json.decodeText?_compact (integral_encode h) hdepth, decode_encode h]

end Entry

end Testbed.Facts
