import Testbed.Host.Local
import Testbed.Proofs.Host.Placeholder
import Testbed.Proofs.Table

/-!
# Rendering is one substitution from left to right

A template is decomposed into placeholders and the text between them, so that no placeholder begins
within the text.  There is exactly one such decomposition, and rendering puts the value of each name
in the place of its placeholder in it.  The values are looked up in a table that has all of them:
if a name has no value, rendering tells the first such name and nothing is put anywhere.
-/

namespace Testbed.Host.Template

/-! ## Decompositions -/

/-- A template in parts: text that stands for itself, and a placeholder after each part but the
last. -/
inductive Decomposition where
  | last (text : List Char)
  | placeholder (text : List Char) (p : Placeholder) (rest : Decomposition)

/-- No placeholder begins within a text that has something after it. -/
def Plain (text after : List Char) : Prop :=
  ∀ front back, text = front ++ back → back ≠ [] → ¬Begins (back ++ after)

namespace Decomposition

/-- The template of a decomposition. -/
def written : Decomposition → List Char
  | last text => text
  | placeholder text p rest => text ++ (p.written ++ rest.written)

/-- Every placeholder begins as far left as one can after the one before it. -/
def Leftmost : Decomposition → Prop
  | last text => Plain text []
  | placeholder text p rest => Plain text (p.written ++ rest.written) ∧ rest.Leftmost

/-- The placeholders of a template, and the text between them. -/
structure IsOf (d : Decomposition) (template : String) : Prop where
  written : d.written = template.toList
  leftmost : d.Leftmost

/-- The names of the placeholders, from left to right. -/
def names : Decomposition → List String
  | last _ => []
  | placeholder _ p rest => p.name :: rest.names

/-- The text with a value for each name in the place of its placeholder. -/
def fill (value : String → String) : Decomposition → List Char
  | last text => text
  | placeholder text p rest => text ++ ((value p.name).toList ++ rest.fill value)

/-- The characters and the placeholders one by one. -/
def pieces : Decomposition → List Piece
  | last text => text.map .char
  | placeholder text p rest => text.map .char ++ .placeholder p.name :: rest.pieces

end Decomposition

/-! ## There is one decomposition -/

theorem plain_nil (after : List Char) : Plain [] after := by
  intro front back h hne
  exact absurd (List.append_eq_nil_iff.mp h.symm).2 hne

theorem plain_cons {c : Char} {text after : List Char} :
    Plain (c :: text) after ↔ ¬Begins (c :: (text ++ after)) ∧ Plain text after := by
  constructor
  · intro h
    refine ⟨h [] (c :: text) rfl (by simp), ?_⟩
    rintro front back rfl hne
    exact h (c :: front) back rfl hne
  · rintro ⟨hnot, hplain⟩ front back h hne
    rcases front with - | ⟨first, front⟩
    · rw [List.nil_append] at h
      rw [← h]
      exact hnot
    · rw [List.cons_append, List.cons.injEq] at h
      exact hplain front back h.2 hne

instance decidablePlain : (text after : List Char) → Decidable (Plain text after)
  | [], after => .isTrue (plain_nil after)
  | _ :: text, after =>
    have := decidablePlain text after
    decidable_of_iff _ plain_cons.symm

/-- Of two texts that can end here, none is longer: the next placeholder would begin within it. -/
theorem Plain.not_longer {front back after rest : List Char} {p : Placeholder}
    (h : Plain (front ++ back) after) (heq : back ++ after = p.written ++ rest) : back = [] := by
  by_contra hne
  exact h front back rfl hne ⟨p, rest, heq⟩

namespace Decomposition

instance decidableLeftmost : (d : Decomposition) → Decidable d.Leftmost
  | last text => inferInstanceAs (Decidable (Plain text []))
  | placeholder text p rest =>
    have := decidableLeftmost rest
    inferInstanceAs (Decidable (Plain text (p.written ++ rest.written) ∧ rest.Leftmost))

/-- A decomposition with one more character at its front. -/
def push (c : Char) : Decomposition → Decomposition
  | last text => last (c :: text)
  | placeholder text p rest => placeholder (c :: text) p rest

theorem written_push (c : Char) (d : Decomposition) : (d.push c).written = c :: d.written := by
  cases d <;> rfl

theorem Leftmost.push {c : Char} {d : Decomposition} (h : d.Leftmost)
    (hnot : ¬Begins (c :: d.written)) : (d.push c).Leftmost := by
  cases d with
  | last text => exact plain_cons.mpr ⟨by rwa [List.append_nil], h⟩
  | placeholder text p rest => exact ⟨plain_cons.mpr ⟨hnot, h.1⟩, h.2⟩

theorem exists_leftmost (cs : List Char) : ∃ d : Decomposition, d.written = cs ∧ d.Leftmost := by
  induction hlength : cs.length using Nat.strong_induction_on generalizing cs with
  | _ length ih =>
      by_cases hbegins : Begins cs
      · obtain ⟨p, rest, rfl⟩ := hbegins
        have hshorter : rest.length < length := by
          have := List.length_pos_iff.mpr p.written_ne_nil
          rw [List.length_append] at hlength
          omega
        obtain ⟨d, rfl, hd⟩ := ih _ hshorter rest rfl
        exact ⟨placeholder [] p d, rfl, plain_nil _, hd⟩
      · rcases cs with - | ⟨c, rest⟩
        · exact ⟨last [], rfl, plain_nil []⟩
        · obtain ⟨d, rfl, hd⟩ := ih _ (by simp [← hlength]) rest rfl
          exact ⟨d.push c, d.written_push c, hd.push hbegins⟩

/-- Where two texts are each followed by a placeholder they are the same. -/
theorem eq_of_plain {t t' : List Char} {p p' : Placeholder} {rest rest' : List Char}
    (h : Plain t (p.written ++ rest)) (h' : Plain t' (p'.written ++ rest'))
    (heq : t ++ (p.written ++ rest) = t' ++ (p'.written ++ rest')) : t = t' := by
  rcases List.append_eq_append_iff.mp heq with ⟨back, rfl, hback⟩ | ⟨back, rfl, hback⟩
  · rw [h'.not_longer hback.symm, List.append_nil]
  · rw [h.not_longer hback.symm, List.append_nil]

theorem Leftmost.unique {d d' : Decomposition} (h : d.Leftmost) (h' : d'.Leftmost)
    (heq : d.written = d'.written) : d = d' := by
  induction d generalizing d' with
  | last text =>
      cases d' with
      | last text' => exact congrArg last heq
      | placeholder t' p' rest' =>
          -- The text would run over the placeholder.
          have htext : text = t' ++ (p'.written ++ rest'.written) := heq
          subst htext
          have hnil := Plain.not_longer h (List.append_nil _)
          exact absurd (List.append_eq_nil_iff.mp hnil).1 p'.written_ne_nil
  | placeholder t p rest ih =>
      cases d' with
      | last text' =>
          have htext : t ++ (p.written ++ rest.written) = text' := heq
          subst htext
          have hnil := Plain.not_longer h' (List.append_nil _)
          exact absurd (List.append_eq_nil_iff.mp hnil).1 p.written_ne_nil
      | placeholder t' p' rest' =>
          have htext := eq_of_plain h.1 h'.1 heq
          subst htext
          obtain ⟨rfl, hrest⟩ := Placeholder.unique (List.append_cancel_left heq)
          rw [ih h.2 h'.2 hrest]

end Decomposition

/-! ## The parts that are found -/

theorem pieces_plain {text after : List Char} (h : Plain text after) :
    pieces (text ++ after) = text.map .char ++ pieces after := by
  induction text with
  | nil => rfl
  | cons c text ih =>
      obtain ⟨hnot, hplain⟩ := plain_cons.mp h
      rw [List.cons_append, pieces, placeholder?_eq_none hnot]
      dsimp only
      rw [ih hplain]
      rfl

theorem pieces_of_placeholder? {cs : List Char} {name : String}
    {rest : { rest : List Char // rest.length < cs.length }}
    (h : placeholder? cs = some (name, rest)) :
    pieces cs = .placeholder name :: pieces rest.val := by
  rcases cs with - | ⟨c, cs⟩
  · simp [placeholder?] at h
  · rw [pieces, h]

theorem pieces_written (p : Placeholder) (rest : List Char) :
    pieces (p.written ++ rest) = .placeholder p.name :: pieces rest := by
  obtain ⟨shorter, hfound⟩ := placeholder?_written p rest
  exact pieces_of_placeholder? hfound

theorem Decomposition.pieces_eq {d : Decomposition} (h : d.Leftmost) :
    Template.pieces d.written = d.pieces := by
  induction d with
  | last text =>
      have hpieces : Template.pieces (text ++ []) = text.map .char ++ Template.pieces [] :=
        pieces_plain h
      rw [List.append_nil, Template.pieces, List.append_nil] at hpieces
      exact hpieces
  | placeholder text p rest ih =>
      rw [written, pieces_plain h.1, pieces_written, ih h.2]
      rfl

theorem Decomposition.names_pieces (d : Decomposition) : Template.names d.pieces = d.names := by
  induction d with
  | last text => simp [pieces, names, Template.names]
  | placeholder text p rest ih =>
      simp only [Template.names] at ih
      simp [pieces, names, Template.names, ih]

theorem Decomposition.fill_pieces {vars : Table String} {value : String → String}
    {d : Decomposition} (h : ∀ name ∈ d.names, vars.get? name = some (value name)) :
    d.pieces.flatMap (Piece.fill vars) = d.fill value := by
  induction d with
  | last text => simp [pieces, fill, List.flatMap_map, Piece.fill]
  | placeholder text p rest ih =>
      rw [names, List.forall_mem_cons] at h
      simp [pieces, fill, List.flatMap_map, Piece.fill, h.1, ih h.2]

theorem Decomposition.IsOf.pieces_eq {d : Decomposition} {template : String}
    (h : d.IsOf template) : Template.pieces template.toList = d.pieces := by
  rw [← h.written]
  exact Decomposition.pieces_eq h.leftmost

/-- A template has exactly one decomposition. -/
theorem existsUnique_decomposition (template : String) :
    ∃! d : Decomposition, d.IsOf template := by
  obtain ⟨d, hwritten, hleftmost⟩ := Decomposition.exists_leftmost template.toList
  refine ⟨d, ⟨hwritten, hleftmost⟩, ?_⟩
  intro d' h'
  exact h'.leftmost.unique hleftmost (h'.written.trans hwritten.symm)

/-! ## Rendering -/

/-- A name is the first of a list that has no value. -/
def FirstUndefined (vars : Table String) (names : List String) (name : String) : Prop :=
  ∃ before after, names = before ++ name :: after ∧
    (∀ earlier ∈ before, vars.get? earlier ≠ none) ∧ vars.get? name = none

theorem not_contains_iff {vars : Table String} {name : String} :
    (!vars.contains name) = true ↔ vars.get? name = none := by
  rw [Bool.not_eq_true', Bool.eq_false_iff, Ne, Table.contains_iff, Option.eq_none_iff_forall_ne_some,
    not_exists]

theorem find?_eq_some_iff_firstUndefined {vars : Table String} {names : List String}
    {name : String} :
    (names.find? fun name => !vars.contains name) = some name ↔ FirstUndefined vars names name := by
  simp only [List.find?_eq_some_iff_append, not_contains_iff, Bool.not_not, Table.contains_iff,
    ← Option.ne_none_iff_exists']
  constructor
  · rintro ⟨hnone, before, after, hnames, hbefore⟩
    exact ⟨before, after, hnames, hbefore, hnone⟩
  · rintro ⟨before, after, hnames, hbefore, hnone⟩
    exact ⟨hnone, before, after, hnames, hbefore⟩

/-- The name that is told is the first one without a value. -/
theorem render_eq_error_iff {template : String} {vars : Table String} {name : String} :
    render template vars = .error name ↔
      FirstUndefined vars (names (pieces template.toList)) name := by
  rw [← find?_eq_some_iff_firstUndefined, render]
  rcases (names (pieces template.toList)).find? fun name => !vars.contains name with - | undefined
  · simp
  · simp

/-- What is rendered had a value for every name, so none of the look-ups that put it together
failed. -/
theorem defined_of_render {template text : String} {vars : Table String}
    (h : render template vars = .ok text) :
    ∀ name ∈ names (pieces template.toList), ∃ value, vars.get? name = some value := by
  rw [render] at h
  split at h
  case h_1 => cases h
  case h_2 hnone =>
      intro name hname
      have hdefined := List.find?_eq_none.mp hnone name hname
      rwa [Bool.not_eq_true', Bool.not_eq_false, Table.contains_iff] at hdefined

theorem render_of_defined {template : String} {vars : Table String} {d : Decomposition}
    (h : d.IsOf template) {value : String → String}
    (hvalue : ∀ name ∈ d.names, vars.get? name = some (value name)) :
    render template vars = .ok (String.ofList (d.fill value)) := by
  have hnone : (names (pieces template.toList)).find? (fun name => !vars.contains name) = none := by
    rw [List.find?_eq_none, h.pieces_eq, d.names_pieces]
    intro name hname
    rw [not_contains_iff, hvalue name hname]
    exact Option.some_ne_none _
  rw [render, hnone, h.pieces_eq, Decomposition.fill_pieces hvalue]

theorem exists_firstUndefined {vars : Table String} {names : List String} {name : String}
    (hname : name ∈ names) (hnone : vars.get? name = none) :
    ∃ first, FirstUndefined vars names first := by
  have hsome : (names.find? fun name => !vars.contains name).isSome = true := by
    rw [List.find?_isSome]
    exact ⟨name, hname, not_contains_iff.mpr hnone⟩
  obtain ⟨first, hfirst⟩ := Option.isSome_iff_exists.mp hsome
  exact ⟨first, find?_eq_some_iff_firstUndefined.mp hfirst⟩

/-! ## Templates in files -/

section Files

variable {source target : Path} {vars : Table String} {t : FileTree}

theorem execute_of_unreadable {e : FileError} (h : t.readText source = .error e) :
    ∃ result, Local.execute (.template source target vars) t = (result, t) ∧
      result.failed = true := by
  rw [Local.execute, Local.template, h]
  exact ⟨_, rfl, rfl⟩

theorem execute_of_render_error {text name : String} (hread : t.readText source = .ok text)
    (hrender : render text vars = .error name) :
    ∃ result, Local.execute (.template source target vars) t = (result, t) ∧
      result.failed = true := by
  rw [Local.execute, Local.template, hread]
  dsimp only
  rw [hrender]
  exact ⟨_, rfl, rfl⟩

end Files

/-- A template has one decomposition into its leftmost placeholders and the text between them.  If
all names have values, it is rendered as the text with the values in the place of the placeholders;
otherwise the first name without a value is told.  No look-up for what is rendered fails, and a
template that cannot be read or has a name without a value leaves the files as they are. -/
theorem render_substitutes (vars : Table String) :
    (∀ template : String, ∃! d : Decomposition, d.IsOf template) ∧
    (∀ (template : String) (d : Decomposition), d.IsOf template →
      (∀ value : String → String, (∀ name ∈ d.names, vars.get? name = some (value name)) →
        render template vars = .ok (String.ofList (d.fill value))) ∧
      (∀ name, FirstUndefined vars d.names name → render template vars = .error name)) ∧
    (∀ template text : String, render template vars = .ok text →
      ∀ name ∈ names (pieces template.toList), ∃ value, vars.get? name = some value) ∧
    ∀ (source target : Path) (t : FileTree),
      ((∃ e, t.readText source = .error e) ∨
        ∃ (text : String) (d : Decomposition), t.readText source = .ok text ∧ d.IsOf text ∧
          ∃ name ∈ d.names, vars.get? name = none) →
      ∃ result, Local.execute (.template source target vars) t = (result, t) ∧
        result.failed = true := by
  refine ⟨existsUnique_decomposition, ?_, fun _ _ => defined_of_render, ?_⟩
  · intro template d h
    refine ⟨fun value => render_of_defined h, ?_⟩
    intro name hfirst
    rw [render_eq_error_iff, h.pieces_eq, d.names_pieces]
    exact hfirst
  · rintro source target t (⟨e, hread⟩ | ⟨text, d, hread, h, name, hname, hnone⟩)
    · exact execute_of_unreadable hread
    · obtain ⟨first, hfirst⟩ := exists_firstUndefined hname hnone
      rw [← d.names_pieces, ← h.pieces_eq] at hfirst
      exact execute_of_render_error hread (render_eq_error_iff.mpr hfirst)

/-- Placeholders within runs of braces, a candidate that is none, and a value that looks like a
placeholder; a name without a value; and a template that does not exist. -/
theorem render_substitutes_braces :
    let vars := Table.ofList [("a", "\x7b\x7b b \x7d\x7d"), ("b", "1")]
    let first := "\x7b\x7b\x7b a \x7d\x7d \x7b\x7bb\x7d\x7b\x7b\tb \x7d\x7d"
    let second := "\x7b\x7bb\x7d\x7d\x7b\x7bc\x7d\x7d"
    render first vars = .ok "\x7b\x7b\x7b b \x7d\x7d \x7b\x7bb\x7d1" ∧
      render second vars = .error "c" ∧
      ∃ result, Local.execute (.template "in" "out" vars) .empty = (result, .empty) ∧
        result.failed = true := by
  intro vars first second
  let a : Placeholder :=
    ⟨[' '], "a", [' '], by simp [Padding], by decide, by simp [NameChar], by simp [Padding]⟩
  let b : Placeholder := ⟨[], "b", [], by simp, by decide, by simp [NameChar], by simp⟩
  let padded : Placeholder :=
    ⟨['\t'], "b", [' '], by simp [Padding], by decide, by simp [NameChar], by simp [Padding]⟩
  let c : Placeholder := ⟨[], "c", [], by simp, by decide, by simp [NameChar], by simp⟩
  let braces : Decomposition :=
    .placeholder "\x7b".toList a (.placeholder " \x7b\x7bb\x7d".toList padded (.last []))
  let undefined : Decomposition := .placeholder [] b (.placeholder [] c (.last []))
  let value : String → String := fun name => if name = "a" then "\x7b\x7b b \x7d\x7d" else "1"
  obtain ⟨-, hrender, -, hfiles⟩ := render_substitutes vars
  refine ⟨?_, ?_, ?_⟩
  · have hfirst := (hrender first braces ⟨by decide +kernel, by decide +kernel⟩).1
    exact (hfirst value (by decide +kernel)).trans (congrArg Except.ok (by decide +kernel))
  · have hsecond := (hrender second undefined ⟨by decide +kernel, by decide +kernel⟩).2
    exact hsecond "c" ⟨["b"], [], rfl, by decide +kernel, by decide +kernel⟩
  · exact hfiles "in" "out" .empty (.inl ⟨.notFound, by decide +kernel⟩)

end Testbed.Host.Template
