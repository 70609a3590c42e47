import Mathlib.Data.List.Flatten
import Mathlib.Data.List.Induction
import Testbed.FileTree.Path
import Testbed.Text.Utf8

/-!
# Paths and names

A name in a directory is plain: it has no slash, and it is neither empty nor one of the two names
that every directory has.  Joining a plain name to a path adds it to the parts, whatever the path
is.
-/

namespace Testbed.Path

/-- A name that a file in a directory can have. -/
structure Plain (name : String) : Prop where
  nonempty : name ≠ ""
  notSelf : name ≠ "."
  notParent : name ≠ ".."
  noSlash : '/' ∉ name.toList

theorem parts_append_slash (a b : String) : parts (a ++ "/" ++ b) = parts a ++ parts b := by
  have hchars : (a ++ "/" ++ b).toList = a.toList ++ '/' :: b.toList := by simp
  rw [parts, Text.splitAtChar, hchars, List.splitOn_append_cons_self, List.map_append,
    List.filter_append]
  rfl

theorem Plain.parts_eq {name : String} (h : Plain name) : parts name = [name] := by
  rw [parts, Text.splitAtChar, List.splitOn_eq_singleton h.noSlash]
  simp [h.nonempty]

theorem parts_empty : parts "" = [] := by
  simp [parts, Text.splitAtChar]

/-- A path that ends in a slash is some text with a slash after it. -/
theorem exists_of_endsInSlash {p : Path} (h : p.endsInSlash = true) : ∃ q, p = q ++ "/" := by
  rw [endsInSlash, beq_iff_eq, List.getLast?_eq_some_iff] at h
  obtain ⟨front, hfront⟩ := h
  refine ⟨String.ofList front, ?_⟩
  rw [← String.toList_inj, String.toList_append, String.toList_ofList, hfront]
  rfl

theorem parts_join (p : Path) {name : String} (h : Plain name) :
    parts (p.join name) = parts p ++ [name] := by
  unfold join
  split
  case isTrue hend =>
      rw [Bool.or_eq_true] at hend
      rcases hend with hempty | hslash
      · rw [String.isEmpty_iff] at hempty
        rw [hempty, String.empty_append, parts_empty, h.parts_eq, List.nil_append]
      · obtain ⟨q, rfl⟩ := exists_of_endsInSlash hslash
        have hq := parts_append_slash q ""
        rw [parts_empty, List.append_nil, String.append_empty] at hq
        rw [parts_append_slash, hq, h.parts_eq]
  case isFalse => rw [parts_append_slash, h.parts_eq]

theorem toList_join (p : Path) (name : String) :
    ∃ middle, (p.join name).toList = p.toList ++ middle ++ name.toList ∧
      (p = "" → middle = []) := by
  unfold join
  split
  case isTrue => exact ⟨[], by simp⟩
  case isFalse hend =>
      refine ⟨['/'], by simp, ?_⟩
      rintro rfl
      simp at hend

theorem isAbsolute_join (p : Path) {name : String} (h : Plain name) :
    (p.join name).isAbsolute = p.isAbsolute := by
  obtain ⟨middle, hjoin, hempty⟩ := toList_join p name
  rw [isAbsolute, isAbsolute, hjoin]
  cases hp : p.toList with
  | nil =>
      rw [hempty (by simpa using hp)]
      cases hname : name.toList with
      | nil => rfl
      | cons c cs =>
          have hslash : '/' ∉ c :: cs := by
            rw [← hname]
            exact h.noSlash
          rw [List.mem_cons, not_or] at hslash
          simp [Ne.symm hslash.1]
  | cons c cs => rfl

theorem endsInSlash_join (p : Path) {name : String} (h : Plain name) :
    (p.join name).endsInSlash = false := by
  obtain ⟨middle, hjoin, -⟩ := toList_join p name
  have hne : name.toList ≠ [] := by simpa using h.nonempty
  have hlast := List.getLast?_eq_some_getLast hne
  rw [endsInSlash, hjoin, List.getLast?_append, hlast, Option.some_or, beq_eq_false_iff_ne]
  intro hslash
  rw [← hlast] at hslash
  exact h.noSlash (List.mem_of_getLast? hslash)

/-- What is added to a joined name is added to the name. -/
theorem join_append (p : Path) (name suffix : String) :
    p.join name ++ suffix = p.join (name ++ suffix) := by
  unfold join
  split <;> simp [String.append_assoc]

/-! ## Plain forms -/

theorem not_mem_of_mem_splitOn {separator : Char} {cs part : List Char}
    (h : part ∈ cs.splitOn separator) : separator ∉ part := by
  induction cs generalizing part with
  | nil =>
      rw [List.splitOn_nil, List.mem_singleton] at h
      simp [h]
  | cons c rest ih =>
      rw [List.splitOn_cons_eq_if_modifyHead] at h
      split at h
      case isTrue =>
          rcases List.mem_cons.mp h with rfl | h
          · simp
          · exact ih h
      case isFalse hne =>
          rw [beq_iff_eq] at hne
          obtain ⟨first, others, hsplit⟩ :=
            List.exists_cons_of_ne_nil (List.splitOn_ne_nil separator rest)
          rw [hsplit, List.modifyHead_cons] at h
          rcases List.mem_cons.mp h with rfl | h
          · have hfirst : separator ∉ first := ih (by simp [hsplit])
            simp [Ne.symm hne, hfirst]
          · exact ih (by simp [hsplit, h])

/-- The parts of a path have no slashes. -/
theorem mem_parts {p : Path} {part : String} (h : part ∈ parts p) :
    part ≠ "" ∧ '/' ∉ part.toList := by
  rw [parts, List.mem_filter, Text.splitAtChar, List.mem_map] at h
  obtain ⟨⟨chars, hchars, rfl⟩, hne⟩ := h
  refine ⟨by simpa using hne, ?_⟩
  rw [String.toList_ofList]
  exact not_mem_of_mem_splitOn hchars

/-- What the parts of a path can be: not empty, and without slashes. -/
def Names (ps : List String) : Prop := ∀ part ∈ ps, part ≠ "" ∧ '/' ∉ part.toList

theorem names_parts (p : Path) : Names p.parts := fun _ => mem_parts

theorem Names.subset {ps others : List String} (h : Names ps) (hsubset : others ⊆ ps) :
    Names others := fun part hpart => h part (hsubset hpart)

theorem parts_intercalate {ps : List String} (h : Names ps) :
    parts ("/".intercalate ps) = ps := by
  cases ps with
  | nil => exact parts_empty
  | cons first rest =>
      have hsplit : ("/".intercalate (first :: rest)).toList.splitOn '/' =
          (first :: rest).map String.toList := by
        rw [String.toList_intercalate]
        apply List.splitOn_intercalate
        · intro chars hchars
          obtain ⟨part, hpart, rfl⟩ := List.mem_map.mp hchars
          exact (h part hpart).2
        · simp
      have htexts : ((first :: rest).map String.toList).map String.ofList = first :: rest := by
        rw [List.map_map]
        exact (List.map_congr_left fun part _ => String.ofList_toList).trans (List.map_id _)
      rw [parts, Text.splitAtChar, hsplit, htexts, List.filter_eq_self]
      intro part hpart
      simpa using (h part hpart).1

/-- The path of some parts has these parts. -/
theorem parts_ofParts (absolute : Bool) {ps : List String} (h : Names ps) :
    parts (ofParts absolute ps) = ps := by
  have hparts := parts_intercalate h
  cases absolute with
  | false => simpa [ofParts] using hparts
  | true =>
      have hroot := parts_append_slash "" ("/".intercalate ps)
      rw [String.empty_append, parts_empty, List.nil_append] at hroot
      simpa [ofParts, hroot] using hparts

theorem isAbsolute_ofParts (absolute : Bool) {ps : List String} (h : Names ps) :
    isAbsolute (ofParts absolute ps) = absolute := by
  cases absolute with
  | true => simp [ofParts, isAbsolute]
  | false =>
      cases ps with
      | nil => rfl
      | cons first rest =>
          obtain ⟨hne, hslash⟩ := h first List.mem_cons_self
          have hchars : first.toList ≠ [] := by simpa using hne
          obtain ⟨c, cs, hcons⟩ := List.exists_cons_of_ne_nil hchars
          have hc : c ≠ '/' := by
            rintro rfl
            exact hslash (by simp [hcons])
          obtain ⟨tail, htail⟩ : ∃ tail, ("/".intercalate (first :: rest)).toList = c :: tail := by
            cases rest with
            | nil => exact ⟨cs, by simp [hcons]⟩
            | cons second others =>
                exact ⟨cs ++ '/' :: ("/".intercalate (second :: others)).toList, by simp [hcons]⟩
          simp [ofParts, isAbsolute, htail, hc]

theorem getLast?_intercalate (separator : List Char) (pieces : List (List Char))
    {last : List Char} (h : last ≠ []) :
    (separator.intercalate (pieces ++ [last])).getLast? = last.getLast? := by
  induction pieces with
  | nil => simp
  | cons first rest ih =>
      obtain ⟨second, others, hrest⟩ := List.exists_cons_of_ne_nil
        (List.append_ne_nil_of_right_ne_nil rest (List.cons_ne_nil last []))
      rw [List.cons_append, hrest, List.intercalate_cons_cons, ← hrest, List.getLast?_append, ih,
        List.getLast?_eq_some_getLast h, Option.some_or]

theorem endsInSlash_ofParts (absolute : Bool) {ps : List String} (h : Names ps) (hne : ps ≠ []) :
    endsInSlash (ofParts absolute ps) = false := by
  cases ps using List.reverseRecOn with
  | nil => exact absurd rfl hne
  | append_singleton front last =>
      obtain ⟨hlast, hslash⟩ := h last (by simp)
      have hchars : last.toList ≠ [] := by simpa using hlast
      have hend := getLast?_intercalate "/".toList (front.map String.toList) hchars
      rw [← List.map_singleton, ← List.map_append, ← String.toList_intercalate,
        List.getLast?_eq_some_getLast hchars] at hend
      have hmem := List.getLast_mem hchars
      have hne : last.toList.getLast hchars ≠ '/' := by
        intro heq
        rw [heq] at hmem
        exact hslash hmem
      rw [endsInSlash, ofParts, String.toList_append, List.getLast?_append, hend, Option.some_or]
      simpa using hne

/-- A relative path without parts is empty. -/
theorem eq_empty_of_parts {p : Path} (hparts : parts p = []) (hrelative : p.isAbsolute = false) :
    p = "" := by
  cases hp : p.toList with
  | nil => simpa using hp
  | cons c cs =>
      have hc : c ≠ '/' := by
        rintro rfl
        simp [isAbsolute, hp] at hrelative
      obtain ⟨first, others, hsplit⟩ := List.exists_cons_of_ne_nil (List.splitOn_ne_nil '/' cs)
      have hmem : String.ofList (c :: first) ∈ parts p := by
        rw [parts, List.mem_filter, Text.splitAtChar, hp, List.splitOn_cons_eq_if_modifyHead,
          if_neg (by simpa using hc), hsplit]
        simp
      rw [hparts] at hmem
      simp at hmem

theorem ofParts_ne_empty (absolute : Bool) {ps : List String} (h : Names ps) (hne : ps ≠ []) :
    ofParts absolute ps ≠ "" := by
  intro hempty
  have hparts := parts_ofParts absolute h
  rw [hempty, parts_empty] at hparts
  exact hne hparts.symm

/-! ## Sizes -/

theorem intercalate_sublist (separator : List Char) {pieces others : List (List Char)}
    (h : pieces.Sublist others) :
    (separator.intercalate pieces).Sublist (separator.intercalate others) := by
  induction h with
  | slnil => exact .refl _
  | @cons pieces others first h ih =>
      cases others with
      | nil => simp [List.sublist_nil.mp h]
      | cons second rest =>
          rw [List.intercalate_cons_cons]
          exact ih.trans (List.sublist_append_right _ _)
  | @cons_cons pieces others first h ih =>
      cases pieces with
      | nil =>
          cases others with
          | nil => exact .refl _
          | cons second rest =>
              rw [List.intercalate_singleton, List.intercalate_cons_cons, List.append_assoc]
              exact List.sublist_append_left _ _
      | cons second rest =>
          cases others with
          | nil => cases h
          | cons second' rest' =>
              rw [List.intercalate_cons_cons, List.intercalate_cons_cons]
              exact (List.Sublist.refl _).append ih

theorem toList_intercalate_sublist {p : Path} {ps : List String} (h : ps.Sublist p.parts) :
    ("/".intercalate ps).toList.Sublist p.toList := by
  have hparts : (p.parts.map String.toList).Sublist (p.toList.splitOn '/') := by
    have hfilter : p.parts.Sublist ((p.toList.splitOn '/').map String.ofList) :=
      List.filter_sublist
    have hmap := hfilter.map String.toList
    rw [List.map_map] at hmap
    simpa [Function.comp_def] using hmap
  have hchars := intercalate_sublist ['/'] ((h.map String.toList).trans hparts)
  rw [List.intercalate_splitOn] at hchars
  rw [String.toList_intercalate]
  exact hchars

/-- A path of some of the parts is written with some of the characters. -/
theorem toList_ofParts_sublist {p : Path} {ps : List String} (h : ps.Sublist p.parts) :
    (ofParts p.isAbsolute ps).toList.Sublist p.toList := by
  cases habsolute : p.isAbsolute with
  | false => simpa [ofParts] using toList_intercalate_sublist h
  | true =>
      rw [isAbsolute, beq_iff_eq, List.head?_eq_some_iff] at habsolute
      obtain ⟨rest, hrest⟩ := habsolute
      have hp : p = "" ++ "/" ++ String.ofList rest := by
        rw [← String.toList_inj, hrest]
        simp
      rw [hp, parts_append_slash, parts_empty, List.nil_append] at h
      have hbelow := toList_intercalate_sublist h
      rw [String.toList_ofList] at hbelow
      rw [hrest]
      simpa [ofParts] using hbelow.cons_cons '/'

theorem size_ofParts_le {p : Path} {ps : List String} (h : ps.Sublist p.parts) :
    Text.Utf8.size (ofParts p.isAbsolute ps) ≤ Text.Utf8.size p :=
  ((toList_ofParts_sublist h).flatMap _).length_le

theorem size_le_join (p : Path) (name : String) :
    Text.Utf8.size p ≤ Text.Utf8.size (p.join name) := by
  obtain ⟨middle, hjoin, -⟩ := toList_join p name
  rw [Text.Utf8.size, Text.Utf8.size, Text.Utf8.encode, Text.Utf8.encode, hjoin]
  simp

/-- The parts of the plain form are among the parts. -/
theorem plainParts_sublist (p : Path) : p.plainParts.Sublist p.parts := by
  unfold plainParts
  split
  case h_1 rest hparts _ =>
      rw [hparts]
      exact List.filter_sublist.cons_cons "."
  case h_2 => exact List.filter_sublist

theorem names_plainParts (p : Path) : Names p.plainParts :=
  (names_parts p).subset (plainParts_sublist p).subset

end Testbed.Path
