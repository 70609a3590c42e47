import Testbed.Shell.Program.Basic

/-!
# Conditions

The program `test`, which tells by its exit code whether its words are true of texts, numbers and
files.  Negations bind tightest, then what must all hold, then what may hold instead.
-/

namespace Testbed.Shell.Program

/-- The number of a word in base ten, with blanks around it. -/
def decimal? (word : String) : Option Int :=
  let isBlank (c : Char) : Bool := c = ' ' || ('\t' ≤ c && c ≤ '\r')
  let (negative, cs) := match word.toList.dropWhile isBlank with
    | '-' :: rest => (true, rest)
    | '+' :: rest => (false, rest)
    | cs => (false, cs)
  let digits := cs.takeWhile Char.isDigit
  if digits.isEmpty || !((cs.dropWhile Char.isDigit).dropWhile isBlank).isEmpty then none
  else
    let n : Int := Print.value digits
    let n := if negative then -n else n
    if -2 ^ 63 ≤ n ∧ n < 2 ^ 63 then some n else none

/-- Why words are no test. -/
inductive TestFault where
  | argumentExpected (operator : String)
  | unexpectedOperator (word : String)
  | bracketExpected
  | illegalNumber (word : String)
  deriving DecidableEq

/-- The wording of a fault. -/
def TestFault.message : TestFault → String
  | argumentExpected operator => operator ++ ": argument expected"
  | unexpectedOperator word => word ++ ": unexpected operator"
  | bracketExpected => "closing paren expected"
  | illegalNumber word => "Illegal number: " ++ word

/-- Whether a word is an operator on one word. -/
def isUnaryOperator (word : String) : Bool :=
  ["-e", "-f", "-d", "-r", "-w", "-x", "-s", "-n", "-z", "-t", "-b", "-c", "-p", "-S", "-h", "-L",
    "-g", "-k", "-u", "-O", "-G"].contains word

/-- Whether a word is an operator between two words. -/
def isBinaryOperator (word : String) : Bool :=
  ["=", "!=", "<", ">", "-eq", "-ne", "-lt", "-le", "-gt", "-ge", "-nt", "-ot", "-ef"].contains word

/-- What a test of a word says. -/
def unaryTest (files : FileTree) (operator word : String) : Except TestFault Bool :=
  match operator with
  | "-e" => .ok (files.exists? word)
  | "-f" => .ok (files.isFile word)
  | "-d" => .ok (files.isDirectory word)
  | "-r" => .ok (files.exists? word)
  | "-w" => .ok (files.exists? word)
  | "-x" => .ok (files.isDirectory word)
  | "-s" =>
    match files.readBytes word with
    | .ok contents => .ok !contents.isEmpty
    | .error _ => .ok (files.isDirectory word)
  | "-n" => .ok (word != "")
  | "-z" => .ok (word == "")
  | "-t" => if (decimal? word).isSome then .ok false else .error (.illegalNumber word)
  | "-O" => .ok (files.exists? word)
  | "-G" => .ok (files.exists? word)
  | _ => .ok false

/-- What a test of two words says.  All files are of the same age. -/
def binaryTest (files : FileTree) (a operator b : String) : Except TestFault Bool :=
  let numbers (holds : Int → Int → Bool) : Except TestFault Bool :=
    match decimal? a, decimal? b with
    | some x, some y => .ok (holds x y)
    | none, _ => .error (.illegalNumber a)
    | _, none => .error (.illegalNumber b)
  match operator with
  | "=" => .ok (a == b)
  | "!=" => .ok (a != b)
  | "<" => .ok (a < b)
  | ">" => .ok (b < a)
  | "-eq" => numbers (· == ·)
  | "-ne" => numbers (· != ·)
  | "-lt" => numbers fun x y => x < y
  | "-le" => numbers fun x y => x ≤ y
  | "-gt" => numbers fun x y => y < x
  | "-ge" => numbers fun x y => y ≤ x
  | "-ef" =>
    match files.lookup a, files.lookup b with
    | .ok (x, _), .ok (y, _) => .ok (x == y)
    | _, _ => .ok false
  | _ => .ok false

/-- What a part of a test says, its last word, and the words behind it. -/
abbrev Tested := Except TestFault (Bool × String × List String)

/-- Whether the first word is an operator on the next one, and not a word that is compared. -/
def startsUnary : List String → Bool
  | [] => false
  | [_] => false
  | [operator, _] => isUnaryOperator operator
  | operator :: word :: _ => isUnaryOperator operator && !isBinaryOperator word

mutual

/-- A test of one or two words, or one in brackets. -/
def primaryTest (files : FileTree) (plain : Bool) : (fuel : Nat) → List String → Tested
  | 0, _ => .ok (false, "", [])
  | _ + 1, [] => .ok (false, "", [])
  | fuel + 1, first :: rest =>
    if !plain && first = "(" && !rest.isEmpty then
      if rest.head? = some ")" then .ok (false, ")", rest.drop 1)
      else
        match eitherTest files false fuel rest with
        | .error e => .error e
        | .ok (r, _, ")" :: rest) => .ok (r, ")", rest)
        | .ok _ => .error .bracketExpected
    else if !plain && startsUnary (first :: rest) then
      match rest with
      | word :: rest => (unaryTest files first word).map fun r => (r, word, rest)
      | [] => .error (.argumentExpected first)
    else
      match rest with
      | operator :: rest' =>
        if isBinaryOperator operator then
          match rest' with
          | word :: rest => (binaryTest files first operator word).map fun r => (r, word, rest)
          | [] => .error (.argumentExpected operator)
        else .ok (first != "", first, rest)
      | [] => .ok (first != "", first, [])
termination_by structural fuel => fuel

/-- A test with negations in front. -/
def negatedTest (files : FileTree) (plain : Bool) : (fuel : Nat) → List String → Tested
  | 0, _ => .ok (false, "", [])
  | fuel + 1, words =>
    match words with
    | "!" :: rest =>
      if plain then primaryTest files plain fuel words
      else if rest.isEmpty then .ok (true, "!", [])
      else (negatedTest files false fuel rest).map fun (r, last, rest) => (!r, last, rest)
    | _ => primaryTest files plain fuel words
termination_by structural fuel => fuel

/-- Tests that must all succeed. -/
def bothTest (files : FileTree) (plain : Bool) : (fuel : Nat) → List String → Tested
  | 0, _ => .ok (false, "", [])
  | fuel + 1, words =>
    match negatedTest files plain fuel words with
    | .ok (r, _, "-a" :: rest) =>
      (bothTest files false fuel rest).map fun (r', last, rest) => (r && r', last, rest)
    | found => found
termination_by structural fuel => fuel

/-- Tests of which one must succeed. -/
def eitherTest (files : FileTree) (plain : Bool) : (fuel : Nat) → List String → Tested
  | 0, _ => .ok (false, "", [])
  | fuel + 1, words =>
    match bothTest files plain fuel words with
    | .ok (r, _, "-o" :: rest) =>
      (eitherTest files false fuel rest).map fun (r', last, rest) => (r || r', last, rest)
    | found => found
termination_by structural fuel => fuel

end

/-- All words as a test, after which no word may be left. -/
def wholeTest (files : FileTree) (plain : Bool) (words : List String) : Except TestFault Bool :=
  match eitherTest files plain (5 * words.length + 5) words with
  | .error e => .error e
  | .ok (r, _, []) => .ok r
  | .ok (_, last, _) => .error (.unexpectedOperator last)

/-- What words say as a test.  Of three words the middle one counts first, and of three or four
words brackets around them or a negation in front come before all else. -/
def testOf (files : FileTree) : List String → Except TestFault Bool
  | [] => .ok false
  | [a, operator, b] =>
    if isBinaryOperator operator then wholeTest files true [a, operator, b]
    else if a = "(" && b = ")" then wholeTest files false [operator]
    else if a = "!" then (wholeTest files false [operator, b]).map (!·)
    else wholeTest files false [a, operator, b]
  | [a, b, c, d] =>
    if a = "(" && d = ")" then wholeTest files false [b, c]
    else if a = "!" then (testOf files [b, c, d]).map (!·)
    else wholeTest files false [a, b, c, d]
  | words => wholeTest files false words

/-- `test` -/
def test (name : String) : Program := fun words input files =>
  match testOf files words with
  | .ok r => { code := if r then 0 else 1, files, left := input }
  | .error e => { code := 2, errors := complaint name e.message, files, left := input }

/-- The program `[`, whose last word must be a closing bracket. -/
def bracket (name : String) : Program := fun words input files =>
  if words.getLast? = some "]" then test name words.dropLast input files
  else { code := 2, errors := complaint name "missing ]", files, left := input }

end Testbed.Shell.Program
