/-!
# Lines

A line ends with a line feed, or with a carriage return and a line feed, and the last one may have
no end at all.  `segments` cuts a text after each line feed and loses nothing; `unterminated` takes
the terminator off one segment.
-/

namespace Testbed.Text

/-- Cut a text after each line feed; `current` is the segment being read, last character first. -/
def segmentsFrom (current : List Char) : List Char → List (List Char)
  | [] => if current.isEmpty then [] else [current.reverse]
  | c :: rest =>
    if c = '\n' then (c :: current).reverse :: segmentsFrom [] rest
    else segmentsFrom (c :: current) rest

/-- The segments of a text: each but perhaps the last ends with its only line feed. -/
def segments (s : List Char) : List (List Char) :=
  segmentsFrom [] s

/-- A segment without its line feed, and without the carriage return before that line feed. -/
def unterminated (segment : List Char) : List Char :=
  match segment.reverse with
  | '\n' :: '\r' :: front => front.reverse
  | '\n' :: front => front.reverse
  | _ => segment

/-- The lines of a text, without their terminators. -/
def lines (s : String) : List String :=
  (segments s.toList).map (fun segment => String.ofList (unterminated segment))

end Testbed.Text
