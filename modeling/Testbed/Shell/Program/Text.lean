import Testbed.Shell.Program.Basic
import Testbed.Text.Blank

/-!
# Programs on text

The programs that turn bytes into other bytes: they select, order and count lines, and replace
single bytes.
-/

namespace Testbed.Shell.Program

open Text (Bytes)
open Print (bytes)

/-- The bytes of the lines of a text, each with its end. -/
def lines (contents : Bytes) : List Bytes :=
  let rec cut (current : Bytes) : Bytes → List Bytes
    | [] => if current.isEmpty then [] else [current.reverse]
    | b :: rest => if b = 10 then (b :: current).reverse :: cut [] rest else cut (b :: current) rest
  cut [] contents

/-- A line with its end. -/
def closed (line : Bytes) : Bytes := if line.getLast? = some 10 then line else line ++ [10]

/-- The number in the options of `head` and `tail`, whether it counts bytes, and the other words. -/
def countOption : List String → Nat × Bool × List String
  | "-n" :: n :: rest => (Print.value n.toList, false, rest)
  | "-c" :: n :: rest => (Print.value n.toList, true, rest)
  | word :: rest =>
    match word.toList with
    | '-' :: 'n' :: ds => (Print.value ds, false, rest)
    | '-' :: 'c' :: ds => (Print.value ds, true, rest)
    | '-' :: d :: ds =>
      if (d :: ds).all Char.isDigit then (Print.value (d :: ds), false, rest)
      else (10, false, word :: rest)
    | _ => (10, false, word :: rest)
  | [] => (10, false, [])

/-- `head` -/
def head : Program := fun words input files =>
  let (count, ofBytes, names) := countOption words
  let read := gather "head" (if ofBytes then count else 0) names input files
  let kept := if ofBytes then read.output.take count else ((lines read.output).take count).flatten
  { read with output := kept }

/-- `tail` -/
def tail : Program := fun words input files =>
  let (count, ofBytes, names) := countOption words
  let read := gather "tail" 0 names input files
  let all := lines read.output
  let kept := if ofBytes then read.output.drop (read.output.length - count)
    else (all.drop (all.length - count)).flatten
  { read with output := kept }

/-- Whether a text comes before another one, byte by byte. -/
def bytesLe : Bytes → Bytes → Bool
  | [], _ => true
  | _ :: _, [] => false
  | a :: as, b :: bs => a < b || (a = b && bytesLe as bs)

/-- The number that a line begins with. -/
def leadingNumber (line : Bytes) : Int :=
  match (line.dropWhile (· = 32)).map fun b => Char.ofNat b.toNat with
  | '-' :: ds => -(Print.value (ds.takeWhile Char.isDigit) : Int)
  | ds => Print.value (ds.takeWhile Char.isDigit)

/-- Lines without those that are equal to the one before. -/
def withoutRepeats : List Bytes → List Bytes
  | a :: b :: rest => if a = b then withoutRepeats (b :: rest) else a :: withoutRepeats (b :: rest)
  | rest => rest

/-- The lines of a text in order: as bytes, or as numbers, from the end, without repeats. -/
def sortedLines (letters : List Char) (contents : Bytes) : Bytes :=
  let le (a b : Bytes) : Bool :=
    if letters.contains 'n' && leadingNumber a != leadingNumber b then
      leadingNumber a ≤ leadingNumber b
    else bytesLe a.dropLast b.dropLast
  let sorted := ((lines contents).map closed).mergeSort le
  let ordered := if letters.contains 'r' then sorted.reverse else sorted
  (if letters.contains 'u' then withoutRepeats ordered else ordered).flatten

/-- `sort` -/
def sort : Program := fun words input files =>
  match (options words).2.filterMap fun name =>
      match files.readBytes name with
      | .ok _ => none
      | .error e => if name = "-" then none else some (name ++ ": " ++ e.reason) with
  | fault :: _ =>
    { code := 2, errors := complaint "sort" ("cannot read: " ++ fault), files }
  | [] => filter "sort" sortedLines words input files

/-- `uniq` -/
def uniq : Program := filter "uniq" fun _ contents =>
  (withoutRepeats ((lines contents).map closed)).flatten

/-- The number of words in a text. -/
def wordCount (contents : Bytes) : Nat := (Text.words (Text.Utf8.decodeLossy contents)).length

/-- A number at the right end of a column. -/
def column (width n : Nat) : String :=
  let text := toString n
  String.ofList (List.replicate (width - text.length) ' ') ++ text

/-- `wc`: a column is as wide as the size of all files together, and at least seven wide where that
is not known.  Several files have a total. -/
def wc : Program := fun words input files =>
  let (letters, names) := options words
  let wants (c : Char) : Bool := letters.isEmpty || letters.contains c
  let counts (contents : Bytes) : List Nat :=
    (if wants 'l' then [contents.count 10] else [])
      ++ (if wants 'w' then [wordCount contents] else [])
      ++ (if wants 'c' then [contents.length] else [])
  let readable := names.filterMap fun name => (files.readBytes name).toOption
  let known := !names.isEmpty && names.all fun name => !files.isDirectory name
  let size := (toString readable.flatten.length).length
  let width := if names.length ≤ 1 && (counts []).length = 1 then 0
    else if known then size else max 7 size
  let report (contents : Bytes) (name : String) : Bytes :=
    bytes (" ".intercalate ((counts contents).map (column width))
      ++ (if name.isEmpty then "" else " " ++ name) ++ "\n")
  let line (name : String) (files : FileTree) : Outcome :=
    match files.readBytes name with
    | .ok contents => { output := report contents name, files }
    | .error e =>
      { code := 1
        output := if e = .isADirectory then report [] name else []
        errors := complaint "wc" (name ++ ": " ++ e.reason)
        files }
  if names.isEmpty then { output := report input "", files }
  else
    let each := forEach line names [] files
    if names.length = 1 then each
    else { each with output := each.output ++ report readable.flatten "total" }

/-- The bytes that a set of `tr` means: ranges, escapes and classes count. -/
def trSet : (fuel : Nat) → List Char → Bytes
  | 0, _ => []
  | _ + 1, [] => []
  | fuel + 1, cs =>
    let range (a b : Nat) : Bytes := (List.range (b + 1 - a)).map fun i => UInt8.ofNat (a + i)
    let between (a b : Char) : Bytes := range a.toNat b.toNat
    let isClass (name : String) : Bool := ("[:" ++ name ++ ":]").toList.isPrefixOf cs
    if isClass "upper" then between 'A' 'Z' ++ trSet fuel (cs.drop 9)
    else if isClass "lower" then between 'a' 'z' ++ trSet fuel (cs.drop 9)
    else if isClass "digit" then between '0' '9' ++ trSet fuel (cs.drop 9)
    else if isClass "space" then range 9 13 ++ [32] ++ trSet fuel (cs.drop 9)
    else if isClass "alpha" then
      between 'A' 'Z' ++ between 'a' 'z' ++ trSet fuel (cs.drop 9)
    else if isClass "alnum" then
      between '0' '9' ++ between 'A' 'Z' ++ between 'a' 'z' ++ trSet fuel (cs.drop 9)
    else
      match cs with
      | '\\' :: c :: rest =>
        let ds := ((c :: rest).take 3).takeWhile Print.isOctal
        if !ds.isEmpty then Print.octal ds :: trSet fuel ((c :: rest).drop ds.length)
        else (Print.letter? c).getD (UInt8.ofNat c.toNat) :: trSet fuel rest
      | a :: '-' :: b :: rest => between a b ++ trSet fuel rest
      | c :: rest => bytes c.toString ++ trSet fuel rest
      | [] => []

/-- Bytes in which those of the same value in a row are one, if they are in a set. -/
def squeezed (set : Bytes) : Bytes → Bytes
  | a :: b :: rest =>
    if a = b && set.contains a then squeezed set (b :: rest) else a :: squeezed set (b :: rest)
  | rest => rest

/-- `tr` -/
def tr : Program := fun words input files =>
  let (letters, sets) := options words
  let setOf (s : String) : Bytes := trSet (s.length + 1) s.toList
  match sets with
  | [] => missingOperand "tr" "operand" files
  | first :: more =>
    let from' := setOf first
    let others := letters.contains 'c' || letters.contains 'C'
    let isFrom (b : UInt8) : Bool := from'.contains b != others
    if letters.contains 'd' then { output := input.filter fun b => !isFrom b, files }
    else
      match more with
      | [] =>
        if letters.contains 's' then { output := squeezed from' input, files }
        else missingOperand "tr" "operand" files
      | second :: _ =>
        let targets := setOf second
        let image (b : UInt8) : UInt8 :=
          match from'.idxOf? b with
          | some i => (targets[i]?).getD (targets.getLast?.getD b)
          | none => targets.getLast?.getD b
        let turned := input.map fun b => if isFrom b then image b else b
        { output := if letters.contains 's' then squeezed targets turned else turned, files }

/-- `tee` -/
def tee : Program := fun words input files =>
  let (letters, names) := options words
  let written := forEach (fun name files =>
    let before := if letters.contains 'a' then (files.readBytes name).toOption.getD [] else []
    match files.write name (before ++ input) with
    | .ok files => { files }
    | .error e => { code := 1, errors := complaint "tee" (name ++ ": " ++ e.reason), files })
    names [] files
  { written with output := input }

/-- `seq` -/
def seq : Program := fun words input files =>
  let numbers := words.map fun word => (Print.numberOf word).1
  let (first, step, last) : Int × Int × Int := match numbers with
    | [last] => (1, 1, last)
    | [first, last] => (first, 1, last)
    | first :: step :: last :: _ => (first, step, last)
    | [] => (1, 1, 0)
  let count := if step = 0 then 0 else (Int.fdiv (last - first) step + 1).toNat
  let line (i : Nat) : String := toString (first + step * (i : Int)) ++ "\n"
  { output := bytes ("".intercalate ((List.range count).map line)), files, left := input }

end Testbed.Shell.Program
