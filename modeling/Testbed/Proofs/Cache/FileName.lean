import Testbed.Cache.Basic
import Testbed.Proofs.FileTree.Place

/-!
# Zones have files of their own

The file name of a zone gives the zone back, so different zones have different files.  It is a
plain name whatever the zone is called, so its file is in the directory of the cache and not below
or outside of it.  The name of the draft of a zone's file is plain as well, and it is the file name
of no zone.
-/

namespace Testbed.Cache.FileName

/-- The characters with an escape. -/
def Special (c : Char) : Prop := c = '%' ∨ c = '/' ∨ c = '\\' ∨ c = '\x00'

instance (c : Char) : Decidable (Special c) := inferInstanceAs (Decidable (_ ∨ _))

theorem encodeChar_of_not_special {c : Char} (h : ¬Special c) : encodeChar c = [c] := by
  simp only [Special, not_or] at h
  simp [encodeChar, escape?, h.1, h.2.1, h.2.2.1, h.2.2.2]

theorem decodeChars_encodeChar_append (c : Char) (rest : List Char) :
    decodeChars (encodeChar c ++ rest) = c :: decodeChars rest := by
  by_cases hspecial : Special c
  · rcases hspecial with rfl | rfl | rfl | rfl <;> rfl
  · rw [encodeChar_of_not_special hspecial, List.singleton_append, decodeChars]
    all_goals
      intro _ hc
      exact absurd (Or.inl hc) hspecial

theorem decodeChars_flatMap (cs : List Char) : decodeChars (cs.flatMap encodeChar) = cs := by
  induction cs with
  | nil => rfl
  | cons c rest ih => rw [List.flatMap_cons, decodeChars_encodeChar_append, ih]

/-- A zone is known by the name of its file. -/
theorem toZone_ofZone (zone : String) : toZone (ofZone zone) = zone := by
  rw [toZone, ofZone, String.toList_ofList, List.length_append, Nat.add_sub_cancel,
    List.take_left, decodeChars_flatMap, String.ofList_toList]

theorem ofZone_injective {zone other : String} (h : ofZone zone = ofZone other) : zone = other := by
  rw [← toZone_ofZone zone, h, toZone_ofZone]

/-- No character is written with one that separates the parts of a path or ends it. -/
theorem not_mem_encodeChar {d : Char} (hd : d = '/' ∨ d = '\\' ∨ d = '\x00') (c : Char) :
    d ∉ encodeChar c := by
  have hspecial : Special d := Or.inr hd
  by_cases hc : Special c
  · rcases hc with rfl | rfl | rfl | rfl <;> rcases hd with rfl | rfl | rfl <;> decide
  · rw [encodeChar_of_not_special hc, List.mem_singleton]
    rintro rfl
    exact hc hspecial

theorem not_mem_ofZone {d : Char} (hd : d = '/' ∨ d = '\\' ∨ d = '\x00') (zone : String) :
    d ∉ (ofZone zone).toList := by
  rw [ofZone, String.toList_ofList, List.mem_append, List.mem_flatMap]
  rintro (⟨c, -, hc⟩ | hextension)
  · exact not_mem_encodeChar hd c hc
  · rcases hd with rfl | rfl | rfl <;> exact absurd hextension (by decide)

/-- A text without a slash after the file name of a zone leaves it a plain name. -/
theorem plain_ofZone_append (zone : String) {suffix : String} (h : '/' ∉ suffix.toList) :
    Path.Plain (ofZone zone ++ suffix) := by
  have hlength : 5 ≤ (ofZone zone ++ suffix).toList.length := by
    have hextension : extension.length = 5 := rfl
    rw [String.toList_append, ofZone, String.toList_ofList, List.length_append, List.length_append,
      hextension]
    omega
  have hne : ∀ short : String, short.toList.length < 5 → ofZone zone ++ suffix ≠ short := by
    intro short hshort heq
    rw [heq] at hlength
    omega
  refine ⟨hne _ (by decide), hne _ (by decide), hne _ (by decide), ?_⟩
  rw [String.toList_append, List.mem_append]
  rintro (hname | hsuffix)
  · exact not_mem_ofZone (Or.inl rfl) zone hname
  · exact h hsuffix

theorem plain_ofZone (zone : String) : Path.Plain (ofZone zone) := by
  have hplain : Path.Plain (ofZone zone ++ "") := plain_ofZone_append zone (by simp)
  rwa [String.append_empty] at hplain

theorem plain_draft (zone : String) : Path.Plain (ofZone zone ++ draftStamp) :=
  plain_ofZone_append zone (by decide)

/-- No zone has a draft for its file. -/
theorem draft_ne_ofZone (zone other : String) : ofZone zone ++ draftStamp ≠ ofZone other := by
  intro heq
  have hlast := congrArg (fun name : String => name.toList.getLast?) heq
  simp only [String.toList_append, ofZone, String.toList_ofList, List.getLast?_append] at hlast
  have hstamp : draftStamp.toList.getLast? = some '0' := by decide
  have hextension : extension.getLast? = some 'n' := by decide
  rw [hstamp, hextension] at hlast
  simp at hlast

/-! ## In the directory -/

theorem isAbsolute_of_plain {name : String} (h : Path.Plain name) :
    Path.isAbsolute name = false := by
  rw [Path.isAbsolute, beq_eq_false_iff_ne]
  intro hhead
  exact h.noSlash (List.mem_of_head? hhead)

/-- The file name of a zone belongs to no other zone and gives the zone back.  Whatever the zone is
called, it is a name for a file in a directory, with the extension of all zone files, and the path
of the file leads one step on from the directory of the cache, whatever the path of that is. -/
theorem ofZone_confined (zone : String) :
    (∀ other, ofZone other = ofZone zone ↔ other = zone) ∧ toZone (ofZone zone) = zone ∧
      '/' ∉ (ofZone zone).toList ∧ '\\' ∉ (ofZone zone).toList ∧ '\x00' ∉ (ofZone zone).toList ∧
      ofZone zone ≠ "" ∧ ofZone zone ≠ "." ∧ ofZone zone ≠ ".." ∧
      (∃ stem, ofZone zone = stem ++ ".json") ∧ Path.isAbsolute (ofZone zone) = false ∧
      ∀ location : Path,
        (zonePath location zone).parts = location.parts ++ [ofZone zone] ∧
          (zonePath location zone).isAbsolute = location.isAbsolute ∧
          ∀ t : FileTree, t.place (zonePath location zone) = t.place location ++ [ofZone zone] := by
  have plain := plain_ofZone zone
  refine ⟨fun other => ⟨ofZone_injective, congrArg ofZone⟩, toZone_ofZone zone,
    not_mem_ofZone (Or.inl rfl) zone, not_mem_ofZone (Or.inr (Or.inl rfl)) zone,
    not_mem_ofZone (Or.inr (Or.inr rfl)) zone, plain.nonempty, plain.notSelf, plain.notParent,
    ⟨String.ofList (zone.toList.flatMap encodeChar), ?_⟩, isAbsolute_of_plain plain,
    fun location => ⟨Path.parts_join location plain, Path.isAbsolute_join location plain,
      fun t => FileTree.place_join plain location⟩⟩
  rw [ofZone, extension, String.ofList_append, String.ofList_toList]

example : ofZone "../etc/passwd" = "..%2Fetc%2Fpasswd.json" ∧ ofZone "a%2Fb" = "a%252Fb.json" ∧
    ofZone ".." = "...json" := by
  decide

end Testbed.Cache.FileName
