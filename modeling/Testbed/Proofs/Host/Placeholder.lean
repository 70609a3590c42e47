import Mathlib.Data.List.TakeWhile
import Testbed.Host.Template

/-!
# Placeholders of templates

A placeholder is told here by how it is written, and not by how it is found.  What is found at the
beginning of a text is what is written there, and there is at most one way to read it: the
characters around a name are none of those of a name, and the braces are neither.
-/

namespace Testbed.Host.Template

/-! ## Characters -/

/-- The characters of names: ASCII letters and digits, and the underscore. -/
def NameChar (c : Char) : Prop :=
  ('A' ≤ c ∧ c ≤ 'Z') ∨ ('a' ≤ c ∧ c ≤ 'z') ∨ ('0' ≤ c ∧ c ≤ '9') ∨ c = '_'

/-- The characters around names. -/
def Padding (c : Char) : Prop := c = ' ' ∨ c = '\t'

theorem isNameChar_iff {c : Char} : isNameChar c = true ↔ NameChar c := by
  have hupper : c.isUpper = decide (c.val ≥ 'A'.val ∧ c.val ≤ 'Z'.val) := rfl
  have hlower : c.isLower = (decide (c.val ≥ 'a'.val) && decide (c.val ≤ 'z'.val)) := rfl
  have hdigit : c.isDigit = (decide (c.val ≥ '0'.val) && decide (c.val ≤ '9'.val)) := rfl
  have hname : isNameChar c = ((c.isUpper || c.isLower) || c.isDigit || decide (c = '_')) := rfl
  simp only [hname, hupper, hlower, hdigit, NameChar, Char.le_def, ge_iff_le, Bool.or_eq_true,
    Bool.and_eq_true, decide_eq_true_eq, or_assoc]

theorem isPadding_iff {c : Char} : isPadding c = true ↔ Padding c := by
  simp [isPadding, Padding]

instance : DecidablePred NameChar := fun _ => decidable_of_iff _ isNameChar_iff

instance : DecidablePred Padding := fun _ => decidable_of_iff _ isPadding_iff

theorem not_isPadding_of_nameChar {c : Char} (h : NameChar c) : isPadding c = false := by
  rw [Bool.eq_false_iff, Ne, isPadding_iff]
  rintro (rfl | rfl)
  · exact absurd (isNameChar_iff.mpr h) (by decide)
  · exact absurd (isNameChar_iff.mpr h) (by decide)

theorem not_isNameChar_of_padding {c : Char} (h : Padding c) : isNameChar c = false := by
  rcases h with rfl | rfl <;> decide

/-! ## How placeholders are written -/

/-- A placeholder: a name, and what stands around it between the braces. -/
@[ext]
structure Placeholder where
  before : List Char
  name : String
  after : List Char
  before_padding : ∀ c ∈ before, Padding c
  name_ne_nil : name.toList ≠ []
  name_chars : ∀ c ∈ name.toList, NameChar c
  after_padding : ∀ c ∈ after, Padding c

namespace Placeholder

/-- What stands between the opening braces and the end of the text. -/
def inside (p : Placeholder) (rest : List Char) : List Char :=
  p.before ++ (p.name.toList ++ (p.after ++ '\x7d' :: '\x7d' :: rest))

/-- A placeholder as it is written. -/
def written (p : Placeholder) : List Char := '\x7b' :: '\x7b' :: p.inside []

theorem written_append (p : Placeholder) (rest : List Char) :
    p.written ++ rest = '\x7b' :: '\x7b' :: p.inside rest := by
  simp [written, inside]

theorem written_ne_nil (p : Placeholder) : p.written ≠ [] := by
  simp [written]

end Placeholder

/-- A text begins with a placeholder. -/
def Begins (cs : List Char) : Prop := ∃ (p : Placeholder) (rest : List Char), cs = p.written ++ rest

/-! ## Finding placeholders -/

/-- A run of characters of a class ends where the first other character stands. -/
theorem takeWhile_run {class? : Char → Bool} {run : List Char} (h : ∀ c ∈ run, class? c = true)
    {c : Char} (other : class? c = false) (rest : List Char) :
    (run ++ c :: rest).takeWhile class? = run ∧
      (run ++ c :: rest).dropWhile class? = c :: rest := by
  rw [List.takeWhile_append_of_pos h, List.dropWhile_append_of_pos h]
  simp [other]

namespace Placeholder

variable {p : Placeholder} {rest : List Char}

/-- Where the name begins the padding ends, and where the padding or the closing braces begin the
name ends. -/
theorem inside_parts (p : Placeholder) (rest : List Char) :
    let padded := (p.inside rest).dropWhile isPadding
    let named := padded.dropWhile isNameChar
    (p.inside rest).takeWhile isPadding = p.before ∧
      padded.takeWhile isNameChar = p.name.toList ∧
      named.takeWhile isPadding = p.after ∧
      named.dropWhile isPadding = '\x7d' :: '\x7d' :: rest := by
  have hbefore : ∀ c ∈ p.before, isPadding c = true :=
    fun c hmem => isPadding_iff.mpr (p.before_padding c hmem)
  have hname : ∀ c ∈ p.name.toList, isNameChar c = true :=
    fun c hmem => isNameChar_iff.mpr (p.name_chars c hmem)
  have hafter : ∀ c ∈ p.after, isPadding c = true :=
    fun c hmem => isPadding_iff.mpr (p.after_padding c hmem)
  have padded : (p.inside rest).takeWhile isPadding = p.before ∧
      (p.inside rest).dropWhile isPadding =
        p.name.toList ++ (p.after ++ '\x7d' :: '\x7d' :: rest) := by
    obtain ⟨c, name, hcons⟩ := List.exists_cons_of_ne_nil p.name_ne_nil
    have hc := not_isPadding_of_nameChar (p.name_chars c (by simp [hcons]))
    rw [inside, hcons]
    exact takeWhile_run hbefore hc _
  have named : (p.name.toList ++ (p.after ++ '\x7d' :: '\x7d' :: rest)).takeWhile isNameChar =
        p.name.toList ∧
      (p.name.toList ++ (p.after ++ '\x7d' :: '\x7d' :: rest)).dropWhile isNameChar =
        p.after ++ '\x7d' :: '\x7d' :: rest := by
    rcases hcons : p.after with - | ⟨c, after⟩
    · exact takeWhile_run hname (by decide) _
    · have hc := not_isNameChar_of_padding (p.after_padding c (by simp [hcons]))
      exact takeWhile_run hname hc _
  dsimp only
  rw [padded.2, named.2]
  exact ⟨padded.1, named.1, takeWhile_run hafter (by decide) _⟩

/-- A text begins with at most one placeholder. -/
theorem unique {p' : Placeholder} {rest' : List Char}
    (h : p.written ++ rest = p'.written ++ rest') : p = p' ∧ rest = rest' := by
  rw [written_append, written_append, List.cons.injEq, List.cons.injEq] at h
  obtain ⟨hbefore, hname, hafter, hrest⟩ := p.inside_parts rest
  rw [h.2.2] at hbefore hname hafter hrest
  obtain ⟨hbefore', hname', hafter', hrest'⟩ := p'.inside_parts rest'
  constructor
  · apply Placeholder.ext
    · exact hbefore.symm.trans hbefore'
    · exact String.toList_injective (hname.symm.trans hname')
    · exact hafter.symm.trans hafter'
  · have hclosed := hrest.symm.trans hrest'
    rw [List.cons.injEq, List.cons.injEq] at hclosed
    exact hclosed.2.2

end Placeholder

/-- A text that stands between the opening and the closing braces is that of a placeholder. -/
theorem exists_of_inside {inside rest : List Char}
    (hclosed : ((inside.dropWhile isPadding).dropWhile isNameChar).dropWhile isPadding =
      '\x7d' :: '\x7d' :: rest)
    (hname : (inside.dropWhile isPadding).takeWhile isNameChar ≠ []) :
    ∃ p : Placeholder, p.name = String.ofList ((inside.dropWhile isPadding).takeWhile isNameChar) ∧
      inside = p.inside rest := by
  refine ⟨{
    before := inside.takeWhile isPadding
    name := String.ofList ((inside.dropWhile isPadding).takeWhile isNameChar)
    after := ((inside.dropWhile isPadding).dropWhile isNameChar).takeWhile isPadding
    before_padding := fun c hmem => isPadding_iff.mp (List.mem_takeWhile_imp hmem)
    name_ne_nil := by rwa [String.toList_ofList]
    name_chars := by
      rw [String.toList_ofList]
      exact fun c hmem => isNameChar_iff.mp (List.mem_takeWhile_imp hmem)
    after_padding := fun c hmem => isPadding_iff.mp (List.mem_takeWhile_imp hmem) }, rfl, ?_⟩
  simp only [Placeholder.inside, String.toList_ofList, ← hclosed, List.takeWhile_append_dropWhile]

/-- What a text begins with is found, with its name and what comes after it. -/
theorem placeholder?_written (p : Placeholder) (rest : List Char) :
    ∃ shorter, placeholder? (p.written ++ rest) = some (p.name, ⟨rest, shorter⟩) := by
  obtain ⟨-, hname, -, hclosed⟩ := p.inside_parts rest
  have hne : ¬((p.inside rest).dropWhile isPadding).takeWhile isNameChar = [] := by
    rw [hname]
    exact p.name_ne_nil
  rw [p.written_append, placeholder?]
  split
  case h_1 rest' heq =>
      obtain rfl : rest = rest' := by
        have hclosed' := hclosed.symm.trans heq
        rw [List.cons.injEq, List.cons.injEq] at hclosed'
        exact hclosed'.2.2
      have shorter : rest.length < ('\x7b' :: '\x7b' :: p.inside rest).length := by
        simp only [Placeholder.inside, List.length_append, List.length_cons]
        omega
      rw [if_neg (by simpa using hne), hname, String.ofList_toList]
      exact ⟨shorter, rfl⟩
  case h_2 hnot => exact absurd hclosed (hnot rest)

/-- What is found is written there. -/
theorem written_of_placeholder? {cs : List Char} {name : String}
    {rest : { rest : List Char // rest.length < cs.length }}
    (h : placeholder? cs = some (name, rest)) :
    ∃ p : Placeholder, p.name = name ∧ cs = p.written ++ rest.val := by
  unfold placeholder? at h
  split at h
  case h_1 inside =>
      dsimp only at h
      split at h
      case h_1 closed hclosed =>
          split at h
          case isTrue => cases h
          case isFalse hname =>
              cases h
              obtain ⟨p, hp, hinside⟩ := exists_of_inside hclosed (by simpa using hname)
              exact ⟨p, hp, by rw [p.written_append, ← hinside]⟩
      case h_2 => cases h
  case h_2 => cases h

theorem begins_iff {cs : List Char} : Begins cs ↔ (placeholder? cs).isSome = true := by
  constructor
  · rintro ⟨p, rest, rfl⟩
    obtain ⟨shorter, hfound⟩ := placeholder?_written p rest
    rw [hfound, Option.isSome_some]
  · intro hfound
    obtain ⟨⟨name, rest⟩, hsome⟩ := Option.isSome_iff_exists.mp hfound
    obtain ⟨p, -, hwritten⟩ := written_of_placeholder? hsome
    exact ⟨p, rest, hwritten⟩

/-- Nothing is found where no placeholder begins. -/
theorem placeholder?_eq_none {cs : List Char} (h : ¬Begins cs) : placeholder? cs = none := by
  rwa [begins_iff, Option.not_isSome_iff_eq_none] at h

instance (cs : List Char) : Decidable (Begins cs) := decidable_of_iff _ begins_iff.symm

end Testbed.Host.Template
