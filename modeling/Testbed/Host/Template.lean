import Testbed.Table

/-!
# Templates

A template is text with placeholders: a name between double braces, with blanks and tabs around it.
Rendering puts the value of each name in the place of its placeholder, in one pass from left to
right, so what a value contains is never looked at again.
-/

namespace Testbed.Host.Template

/-- The characters of names. -/
def isNameChar (c : Char) : Bool := c.isAlphanum || c = '_'

/-- The characters that may stand around a name. -/
def isPadding (c : Char) : Bool := c = ' ' || c = '\t'

/-- What is left of a list after taking characters off its front is no longer than the list. -/
theorem length_dropWhile_le {α : Type u} (p : α → Bool) (l : List α) :
    (l.dropWhile p).length ≤ l.length := by
  induction l with
  | nil => simp
  | cons a l ih =>
    rw [List.dropWhile_cons]
    split
    · exact Nat.le_succ_of_le ih
    · exact Nat.le_refl _

/-- The name of the placeholder that a text begins with, and the text after it. -/
def placeholder? :
    (cs : List Char) → Option (String × { rest : List Char // rest.length < cs.length })
  | '\x7b' :: '\x7b' :: inside =>
    let padded := inside.dropWhile isPadding
    let name := padded.takeWhile isNameChar
    match h : (padded.dropWhile isNameChar).dropWhile isPadding with
    | '\x7d' :: '\x7d' :: rest =>
      if name.isEmpty then none
      else some (String.ofList name, ⟨rest, by
        have inner := length_dropWhile_le isPadding inside
        have named := length_dropWhile_le isNameChar padded
        have outer := length_dropWhile_le isPadding (padded.dropWhile isNameChar)
        rw [h] at outer
        simp only [List.length_cons] at outer ⊢
        have : padded.length ≤ inside.length := inner
        omega⟩)
    | _ => none
  | _ => none

/-- A part of a template: a character that stands for itself, or a placeholder. -/
inductive Piece where
  | char (c : Char)
  | placeholder (name : String)
  deriving DecidableEq

/-- The parts of a template.  A placeholder begins as far left as one can. -/
def pieces (cs : List Char) : List Piece :=
  match cs with
  | [] => []
  | c :: rest =>
    match placeholder? (c :: rest) with
    | some (name, after) => .placeholder name :: pieces after.val
    | none => .char c :: pieces rest
termination_by cs.length
decreasing_by
  · exact after.property
  · exact Nat.lt_succ_self _

/-- The names that a template needs, in the order of their placeholders. -/
def names (ps : List Piece) : List String :=
  ps.filterMap fun
    | .char _ => none
    | .placeholder name => some name

/-- What stands for a part; a name without a value leaves nothing. -/
def Piece.fill (vars : Table String) : Piece → List Char
  | char c => [c]
  | placeholder name => ((vars.get? name).getD "").toList

/-- Render a template, or tell the first name without a value. -/
def render (template : String) (vars : Table String) : Except String String :=
  let ps := pieces template.toList
  match (names ps).find? fun name => !vars.contains name with
  | some undefined => .error undefined
  | none => .ok (String.ofList (ps.flatMap (Piece.fill vars)))

end Testbed.Host.Template
