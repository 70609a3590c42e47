import Testbed.Shell.Command

/-!
# Tokens of command lines

The leaves of the reader of command lines: which characters end a word, what stands for what, and
how far names, operators, comments and texts below a line reach.  A fault is a reason together with
the place where it shows.
-/

namespace Testbed.Shell.Reader


/-- Why a text is no command line. -/
inductive Reason where
  | unterminatedQuote
  | unterminatedBackquote
  | unterminatedBrace
  | unterminatedArithmetic
  | badSubstitution
  | badLoopVariable
  /-- The bound on the steps of a reader was too low. -/
  | exhausted
  | unexpected (token : String) (expected : Option String)
  deriving DecidableEq

/-- A fault in a command line, and how many characters are left behind it. -/
structure SyntaxError where
  reason : Reason
  left : Nat

/-- The wording of a fault. -/
def Reason.message : Reason → String
  | unterminatedQuote => "Syntax error: Unterminated quoted string"
  | unterminatedBackquote => "Syntax error: EOF in backquote substitution"
  | unterminatedBrace => "Syntax error: Missing '\x7d'"
  | unterminatedArithmetic => "Syntax error: Missing '))'"
  | badSubstitution => "Bad substitution"
  | badLoopVariable => "Syntax error: Bad for loop variable"
  | exhausted => "Out of space"
  | unexpected token none => "Syntax error: " ++ token ++ " unexpected"
  | unexpected token (some expected) =>
    "Syntax error: " ++ token ++ " unexpected (expecting " ++ expected ++ ")"

/-- What a reader finds, and the characters it leaves. -/
abbrev Read (α : Type) := Except SyntaxError (α × List Char)

/-- Fail at some characters. -/
def fail {α : Type} (reason : Reason) (cs : List Char) : Read α :=
  .error ⟨reason, cs.length⟩

/-- The characters that end a word unless they are quoted. -/
def isMeta (c : Char) : Bool :=
  c = ' ' || c = '\t' || c = '\n' || c = ';' || c = '&' || c = '|' || c = '<' || c = '>'
    || c = '(' || c = ')'

/-- The characters of names. -/
def isNameChar (c : Char) : Bool := c.isAlphanum || c = '_'

/-- The characters that names begin with. -/
def isNameStart (c : Char) : Bool := c.isAlpha || c = '_'

/-- Whether a text is a name. -/
def isName (s : String) : Bool :=
  match s.toList with
  | c :: cs => isNameStart c && cs.all isNameChar
  | [] => false

/-- The parameters with a name of one special character. -/
def isSpecial (c : Char) : Bool :=
  c = '?' || c = '$' || c = '#' || c = '@' || c = '*' || c = '!' || c = '-' || c.isDigit

/-- The mark around commands whose output is wanted, in its old form. -/
def backquote : Char := '\x60'

/-- The text from its first character that is no blank, continued line or comment. -/
def skipBlanks : List Char → List Char
  | '\\' :: '\n' :: rest => skipBlanks rest
  | c :: rest =>
    if c = ' ' || c = '\t' then skipBlanks rest
    else if c = '#' then rest.dropWhile (· != '\n')
    else c :: rest
  | [] => []

/-- The text from the first character of a command. -/
def skipLines : (fuel : Nat) → List Char → List Char
  | 0, cs => cs
  | fuel + 1, cs =>
    match skipBlanks cs with
    | '\n' :: rest => skipLines fuel rest
    | cs => cs

/-- As `skipLines`, however long the text is. -/
def skipAllLines (cs : List Char) : List Char := skipLines cs.length cs

/-- The characters up to the end of a word, as they are written. -/
def run (cs : List Char) : String := String.ofList (cs.takeWhile fun c => !isMeta c)

/-- The words that have a meaning where a command begins. -/
def reserved : List String :=
  ["if", "then", "else", "elif", "fi", "do", "done", "case", "esac", "while", "until", "for",
    "\x7b", "\x7d", "!"]

/-- The reserved words that end a list of commands. -/
def closing : List String := ["then", "else", "elif", "fi", "do", "done", "esac", "\x7d"]

/-- The operators, those that begin with another one before it. -/
def operators : List String :=
  ["&&", "||", ";;", ";", "&", "|", "(", ")"]

/-- The operator that a text begins with. -/
def operator? (cs : List Char) : Option String :=
  operators.find? fun op => op.toList.isPrefixOf cs

/-- How a message names the token that a text begins with. -/
def tokenName (cs : List Char) : String :=
  match cs with
  | [] => "end of file"
  | '\n' :: _ => "newline"
  | '<' :: _ => "redirection"
  | '>' :: _ => "redirection"
  | _ =>
    match operator? cs with
    | some op => "\"" ++ op ++ "\""
    | none => if reserved.contains (run cs) then "\"" ++ run cs ++ "\"" else "word"

/-- Fail because of the token that a text begins with. -/
def unexpected {α : Type} (expected : Option String) (cs : List Char) : Read α :=
  fail (.unexpected (tokenName cs) (expected.map fun w => "\"" ++ w ++ "\"")) cs

/-- Pass over a reserved word or an operator. -/
def expect (word : String) (cs : List Char) : Read Unit :=
  let cs := skipAllLines cs
  if run cs = word || (operator? cs == some word) then .ok ((), cs.drop word.length)
  else unexpected (some word) cs

/-- Fail because there are no commands before a reserved word or an operator. -/
def noCommands {α : Type} (close : String) (cs : List Char) : Read α :=
  let cs := skipAllLines cs
  unexpected (if cs.isEmpty then some close else none) cs

/-- Whether a list of commands ends here. -/
def atEnd (cs : List Char) : Bool :=
  cs.isEmpty || operator? cs == some ")" || operator? cs == some ";;" || closing.contains (run cs)

/-- The text up to the two brackets that close an arithmetic substitution. -/
def arithmeticText : (depth : Nat) → List Char → Option (List Char × List Char)
  | 0, ')' :: ')' :: rest => some ([], rest)
  | depth, '(' :: rest => (arithmeticText (depth + 1) rest).map fun r => ('(' :: r.1, r.2)
  | depth, ')' :: rest => (arithmeticText (depth - 1) rest).map fun r => (')' :: r.1, r.2)
  | depth, c :: rest => (arithmeticText depth rest).map fun r => (c :: r.1, r.2)
  | _, [] => none

/-- The text up to the closing mark of an old command substitution. -/
def backquotedText : List Char → Option (List Char × List Char)
  | '\\' :: c :: rest =>
    let kept := if c = backquote || c = '\\' || c = '$' then [c] else ['\\', c]
    (backquotedText rest).map fun r => (kept ++ r.1, r.2)
  | c :: rest =>
    if c = backquote then some ([], rest)
    else (backquotedText rest).map fun r => (c :: r.1, r.2)
  | [] => none

/-- The operation that follows a name in braces, and how long its mark is. -/
def operation? : List Char → Option (Operation × List Char)
  | ':' :: '-' :: rest => some (.default true, rest)
  | '-' :: rest => some (.default false, rest)
  | ':' :: '=' :: rest => some (.assign true, rest)
  | '=' :: rest => some (.assign false, rest)
  | ':' :: '?' :: rest => some (.require true, rest)
  | '?' :: rest => some (.require false, rest)
  | ':' :: '+' :: rest => some (.alternative true, rest)
  | '+' :: rest => some (.alternative false, rest)
  | '#' :: '#' :: rest => some (.trimStart true, rest)
  | '#' :: rest => some (.trimStart false, rest)
  | '%' :: '%' :: rest => some (.trimEnd true, rest)
  | '%' :: rest => some (.trimEnd false, rest)
  | _ => none

/-- The name of a parameter: letters and digits, or one special character. -/
def parameterName (cs : List Char) : Option (String × List Char) :=
  match cs with
  | c :: rest =>
    if isNameStart c then
      some (String.ofList (cs.takeWhile isNameChar), cs.dropWhile isNameChar)
    else if c.isDigit then
      some (String.ofList (cs.takeWhile Char.isDigit), cs.dropWhile Char.isDigit)
    else if isSpecial c then some (c.toString, rest)
    else none
  | [] => none

/-- A redirection operator with the descriptor it is for. -/
def redirection? (cs : List Char) : Option (Nat × Direction × List Char) :=
  let digits := cs.takeWhile Char.isDigit
  let number (preset : Nat) : Nat :=
    if digits.isEmpty then preset
    else digits.foldl (fun n c => n * 10 + (c.toNat - '0'.toNat)) 0
  match cs.dropWhile Char.isDigit with
  | '<' :: '&' :: rest => some (number 0, .duplicate, rest)
  | '<' :: '<' :: rest => some (number 0, .here, rest)
  | '>' :: '&' :: rest => some (number 1, .duplicate, rest)
  | '>' :: '>' :: rest => some (number 1, .append, rest)
  | '>' :: '|' :: rest => some (number 1, .write, rest)
  | '<' :: rest => some (number 0, .read, rest)
  | '>' :: rest => some (number 1, .write, rest)
  | _ => none

/-- The name that an assignment begins with. -/
def assignedName? (cs : List Char) : Option (String × List Char) :=
  match cs.head?, cs.dropWhile isNameChar with
  | some c, '=' :: rest =>
    if isNameStart c then some (String.ofList (cs.takeWhile isNameChar), rest) else none
  | _, _ => none

/-- The line on which a text begins, of a text with a number of line breaks. -/
def lineOf (breaks : Nat) (cs : List Char) : Nat := breaks + 1 - cs.count '\n'

/-- A text without the quotes in it, up to the end of a word, whether it had any, and the rest.
`open?` is the quote that is open. -/
def unquoted (open? : Option Char) : List Char → String × Bool × List Char
  | [] => ("", false, [])
  | c :: rest =>
    match open? with
    | some quote =>
      if c = quote then unquoted none rest
      else
        let (text, _, left) := unquoted open? rest
        (c.toString ++ text, true, left)
    | none =>
      if isMeta c then ("", false, c :: rest)
      else if c = '"' || c = '\'' then
        let (text, _, left) := unquoted (some c) rest
        (text, true, left)
      else if c = '\\' then
        let (text, _, left) := unquoted none rest
        (text, true, left)
      else
        let (text, quoted, left) := unquoted none rest
        (c.toString ++ text, quoted, left)

/-- The lines of a text up to one that says that they end, and the text after that one. -/
def linesUpTo (delimiter : String) (indented : Bool) :
    (fuel : Nat) → List Char → List Char × List Char
  | 0, cs => ([], cs)
  | fuel + 1, cs =>
    if cs.isEmpty then ([], [])
    else
      let line := cs.takeWhile (· != '\n')
      let line := if indented then line.dropWhile (· = '\t') else line
      let rest := cs.dropWhile (· != '\n')
      if String.ofList line = delimiter then ([], rest.drop 1)
      else
        let (more, left) := linesUpTo delimiter indented fuel (rest.drop 1)
        (line ++ rest.take 1 ++ more, left)

/-- The lines that stand below a line and belong to a redirection on it, and the text without
them. -/
def hereLines (delimiter : String) (indented : Bool) (cs : List Char) : List Char × List Char :=
  match cs.dropWhile (· != '\n') with
  | [] => ([], cs)
  | _ :: below =>
    let (lines, rest) := linesUpTo delimiter indented (below.length + 1) below
    (lines, cs.takeWhile (· != '\n') ++ '\n' :: rest)

end Testbed.Shell.Reader
