import Testbed.Cache.Zone
import Testbed.Proofs.Json.Decode
import Testbed.Proofs.Json.RoundTrip
import Testbed.Proofs.Text.Utf8

/-!
# Zones are read back from their files

The document of a zone holds texts only, nested three deep, so every zone is read back from the
bytes that are written for it, whatever its keys and texts are.
-/

namespace Testbed.Cache.Zone

open Json (Integral)

theorem integral_document (z : Zone) : z.document.Integral := by
  apply Integral.array
  intro item hitem
  rw [List.mem_cons, List.mem_singleton] at hitem
  rcases hitem with rfl | rfl
  · apply Integral.object
    intro member hmember
    obtain ⟨entry, -, rfl⟩ := List.mem_map.mp hmember
    exact .string entry.2
  · apply Integral.object
    intro member hmember
    obtain ⟨entry, -, rfl⟩ := List.mem_map.mp hmember
    exact Json.integral_ofStrings entry.2

theorem depth_document_le (z : Zone) : z.document.depth ≤ 3 := by
  rw [document, Json.depth_array_le]
  intro item hitem
  rw [List.mem_cons, List.mem_singleton] at hitem
  rcases hitem with rfl | rfl
  · rw [Json.depth_object_le]
    intro member hmember
    obtain ⟨entry, -, rfl⟩ := List.mem_map.mp hmember
    exact Nat.zero_le 1
  · rw [Json.depth_object_le]
    intro member hmember
    obtain ⟨entry, -, rfl⟩ := List.mem_map.mp hmember
    rw [Json.ofStrings, Json.depth_array_le]
    intro text htext
    obtain ⟨s, -, rfl⟩ := List.mem_map.mp htext
    exact Nat.zero_le 0

theorem decode_document (z : Zone) : decode z.document = some z := by
  have hentries := Json.Decoder.table_object Json.Decoder.string Json.string z.entries
    fun _ _ => rfl
  have hlists := Json.Decoder.table_object (Json.Decoder.list Json.Decoder.string) Json.ofStrings
    z.lists fun entry _ => Json.Decoder.list_ofStrings entry.2
  simp [decode, document, Json.Decoder.pair, hentries, hlists]

/-- Every zone is read back from the bytes of its file. -/
theorem ofBytes?_toBytes (z : Zone) : ofBytes? z.toBytes = some z := by
  have hdepth : z.document.depth ≤ Json.Reader.levelLimit :=
    Nat.le_trans z.depth_document_le (by decide)
  rw [ofBytes?, toBytes, Text.Utf8.decode?_encode, Option.bind_some, text,
    Json.decodeText?_compact z.integral_document hdepth, decode_document]

end Testbed.Cache.Zone
