import Mathlib.Logic.ExistsUnique
import Testbed.Text.Line

/-!
# Texts and their lines

Every text is written in exactly one way as lines with their terminators, and the lines that are
read from it are those lines.
-/

namespace Testbed.Text

/-! ## Terminators -/

/-- What may end a line: a line feed, or a carriage return and a line feed.  The last line of a text
may have no terminator. -/
inductive Terminator where
  | lineFeed
  | carriageReturn
  | none
  deriving DecidableEq

/-- A terminator as it is written. -/
def Terminator.written : Terminator → List Char
  | lineFeed => ['\n']
  | carriageReturn => ['\r', '\n']
  | none => []

/-- Lines with their terminators, one after the other. -/
def written (lines : List (String × Terminator)) : List Char :=
  lines.flatMap fun line => line.1.toList ++ line.2.written

/-- A text as lines with their terminators.  A carriage return before a line feed is part of the
terminator, and only a last line that is not empty may have none. -/
structure Layout (text : String) (lines : List (String × Terminator)) : Prop where
  written_eq : written lines = text.toList
  not_lineFeed : ∀ line ∈ lines, '\n' ∉ line.1.toList
  not_carriageReturn : ∀ line ∈ lines, line.2 = .lineFeed → line.1.toList.getLast? ≠ some '\r'
  terminated : ∀ line ∈ lines.dropLast, line.2 ≠ .none
  not_empty : ∀ line ∈ lines, line.2 = .none → line.1 ≠ ""

/-! ## Segments -/

theorem segmentsFrom_append {current line : List Char} (rest : List Char) (h : '\n' ∉ line) :
    segmentsFrom current (line ++ '\n' :: rest) =
      (current.reverse ++ line ++ ['\n']) :: segments rest := by
  induction line generalizing current with
  | nil => simp [segmentsFrom, segments]
  | cons c line ih =>
      rw [List.mem_cons, not_or] at h
      rw [List.cons_append, segmentsFrom, if_neg (Ne.symm h.1), ih h.2]
      simp

theorem segmentsFrom_last {current line : List Char} (h : '\n' ∉ line) :
    segmentsFrom current line =
      if current.isEmpty && line.isEmpty then [] else [current.reverse ++ line] := by
  induction line generalizing current with
  | nil => simp [segmentsFrom]
  | cons c line ih =>
      rw [List.mem_cons, not_or] at h
      rw [segmentsFrom, if_neg (Ne.symm h.1), ih h.2]
      simp

theorem segments_append {line : List Char} (rest : List Char) (h : '\n' ∉ line) :
    segments (line ++ '\n' :: rest) = (line ++ ['\n']) :: segments rest := by
  rw [segments, segmentsFrom_append rest h]
  rfl

theorem segments_last {line : List Char} (h : '\n' ∉ line) (ne_nil : line ≠ []) :
    segments line = [line] := by
  rw [segments, segmentsFrom_last h]
  simp [ne_nil]

/-- A segment as a line and its terminator. -/
def ended (segment : List Char) : String × Terminator :=
  match segment.reverse with
  | '\n' :: '\r' :: front => (String.ofList front.reverse, .carriageReturn)
  | '\n' :: front => (String.ofList front.reverse, .lineFeed)
  | _ => (String.ofList segment, .none)

theorem ended_fst (segment : List Char) :
    (ended segment).1 = String.ofList (unterminated segment) := by
  unfold ended unterminated
  generalize segment.reverse = reversed
  split
  case h_1 => rfl
  case h_2 front hother => simp
  case h_3 hother hother' => simp

theorem ended_lineFeed {line : List Char} (h : line.getLast? ≠ some '\r') :
    ended (line ++ ['\n']) = (String.ofList line, .lineFeed) := by
  have hreverse : (line ++ ['\n']).reverse = '\n' :: line.reverse := by simp
  rw [← List.head?_reverse] at h
  rw [ended, hreverse]
  split
  case h_1 front heq =>
      rw [(List.cons.inj heq).2] at h
      exact absurd rfl h
  case h_2 front heq => rw [← (List.cons.inj heq).2, List.reverse_reverse]
  case h_3 hother => exact absurd rfl (hother line.reverse)

theorem ended_carriageReturn (line : List Char) :
    ended (line ++ ['\r', '\n']) = (String.ofList line, .carriageReturn) := by
  simp [ended]

theorem ended_last {line : List Char} (h : '\n' ∉ line) :
    ended line = (String.ofList line, .none) := by
  rw [← List.mem_reverse] at h
  rw [ended]
  split
  case h_1 front heq => simp [heq] at h
  case h_2 front heq => simp [heq] at h
  case h_3 => rfl

/-! ## Layouts -/

theorem layout_nil : Layout "" [] := by
  constructor <;> simp [written]

theorem layout_last {line : List Char} (ne_nil : line ≠ []) (h : '\n' ∉ line) :
    Layout (String.ofList line) [(String.ofList line, .none)] := by
  constructor <;> simp [written, Terminator.written, h, ne_nil]

theorem Layout.cons {rest : List Char} {lines : List (String × Terminator)}
    (h : Layout (String.ofList rest) lines) {line : String} {terminator : Terminator}
    (not_lineFeed : '\n' ∉ line.toList) (terminated : terminator ≠ .none)
    (not_carriageReturn : terminator = .lineFeed → line.toList.getLast? ≠ some '\r') :
    Layout (String.ofList (line.toList ++ terminator.written ++ rest))
      ((line, terminator) :: lines) := by
  have hwritten := h.written_eq
  rw [String.toList_ofList] at hwritten
  refine ⟨?_, ?_, ?_, ?_, ?_⟩
  · rw [written, List.flatMap_cons, ← written, hwritten, String.toList_ofList]
  · exact List.forall_mem_cons.mpr ⟨not_lineFeed, h.not_lineFeed⟩
  · exact List.forall_mem_cons.mpr ⟨not_carriageReturn, h.not_carriageReturn⟩
  · cases lines with
    | nil => simp
    | cons next lines => exact List.forall_mem_cons.mpr ⟨terminated, h.terminated⟩
  · exact List.forall_mem_cons.mpr ⟨fun hnone => absurd hnone terminated, h.not_empty⟩

theorem Layout.tail {text : String} {line : String × Terminator}
    {lines : List (String × Terminator)} (h : Layout text (line :: lines)) :
    Layout (String.ofList (written lines)) lines := by
  refine ⟨by rw [String.toList_ofList], ?_, ?_, ?_, ?_⟩
  · exact fun other hother => h.not_lineFeed other (List.mem_cons_of_mem line hother)
  · exact fun other hother => h.not_carriageReturn other (List.mem_cons_of_mem line hother)
  · intro other hother
    cases lines with
    | nil => simp at hother
    | cons next lines => exact h.terminated other (List.mem_cons_of_mem line hother)
  · exact fun other hother => h.not_empty other (List.mem_cons_of_mem line hother)

theorem exists_layout (cs : List Char) : ∃ lines, Layout (String.ofList cs) lines := by
  by_cases hmem : '\n' ∈ cs
  · obtain ⟨line, rest, hcs, hline⟩ := List.eq_append_cons_of_mem hmem
    have hshorter : rest.length < cs.length := by
      rw [hcs, List.length_append, List.length_cons]
      omega
    obtain ⟨lines, hlines⟩ := exists_layout rest
    rw [hcs]
    by_cases hreturn : line.getLast? = some '\r'
    · obtain ⟨front, rfl⟩ := List.getLast?_eq_some_iff.mp hreturn
      have hfront : '\n' ∉ (String.ofList front).toList := by
        rw [String.toList_ofList]
        exact fun hmem => hline (List.mem_append_left _ hmem)
      have hcons : Layout _ ((String.ofList front, .carriageReturn) :: lines) :=
        hlines.cons hfront (by decide) (by simp)
      exact ⟨_, by simpa [Terminator.written] using hcons⟩
    · have hcons : Layout _ ((String.ofList line, .lineFeed) :: lines) :=
        hlines.cons (by simpa using hline) (by decide) (by simpa using hreturn)
      exact ⟨_, by simpa [Terminator.written] using hcons⟩
  · by_cases hnil : cs = []
    · exact ⟨[], hnil ▸ layout_nil⟩
    · exact ⟨_, layout_last hnil hmem⟩
termination_by cs.length

/-- A layout can be read off the segments of the text. -/
theorem Layout.eq_segments {text : String} {lines : List (String × Terminator)}
    (h : Layout text lines) : lines = (segments text.toList).map ended := by
  rw [← h.written_eq]
  induction lines generalizing text with
  | nil => rfl
  | cons line lines ih =>
      have htail := ih h.tail
      have hline := h.not_lineFeed line List.mem_cons_self
      obtain ⟨line, terminator⟩ := line
      rw [written, List.flatMap_cons, ← written]
      cases terminator with
      | lineFeed =>
          have hreturn := h.not_carriageReturn _ List.mem_cons_self rfl
          rw [Terminator.written, List.append_assoc, List.singleton_append,
            segments_append _ hline, List.map_cons, ended_lineFeed hreturn, ← htail,
            String.ofList_toList]
      | carriageReturn =>
          have hline' : '\n' ∉ line.toList ++ ['\r'] := by simpa using hline
          have hsplit : line.toList ++ ['\r', '\n'] ++ written lines =
              (line.toList ++ ['\r']) ++ '\n' :: written lines := by simp
          rw [Terminator.written, hsplit, segments_append _ hline', List.map_cons,
            List.append_assoc, List.singleton_append, ended_carriageReturn, ← htail,
            String.ofList_toList]
      | none =>
          cases lines with
          | cons next lines => exact absurd rfl (h.terminated _ List.mem_cons_self)
          | nil =>
              have hne : line.toList ≠ [] := by
                simpa using h.not_empty _ List.mem_cons_self rfl
              simp only [Terminator.written, written, List.flatMap_nil, List.append_nil]
              rw [segments_last hline hne, List.map_singleton, ended_last hline,
                String.ofList_toList]

/-- Every text has one layout, and its lines are those of the layout. -/
theorem existsUnique_layout (text : String) : ∃! lines, Layout text lines := by
  obtain ⟨lines, hlines⟩ := exists_layout text.toList
  rw [String.ofList_toList] at hlines
  exact ⟨lines, hlines, fun others hothers => hothers.eq_segments.trans hlines.eq_segments.symm⟩

theorem Layout.lines_eq {text : String} {lines : List (String × Terminator)}
    (h : Layout text lines) : Text.lines text = lines.map (·.1) := by
  rw [Text.lines, h.eq_segments, List.map_map]
  exact List.map_congr_left fun segment _ => (ended_fst segment).symm

example : lines "a\r\n\nb\r" = ["a", "", "b\r"] := by decide

end Testbed.Text
