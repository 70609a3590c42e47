import Testbed.Shell.Token

/-!
# Reading command lines

A command line is read from its characters straight into commands.  Words end at blanks and
operators; reserved words count where a command may begin.  All readers recurse on `fuel`, of which
they need no more than a few units for each character.
-/

namespace Testbed.Shell.Reader

/-- Where a text of parts ends. -/
inductive Ending where
  /-- At a character that ends a word. -/
  | word
  /-- At the closing double quote. -/
  | quote
  /-- At the closing brace; the flag says whether the substitution is quoted. -/
  | brace (quoted : Bool)
  /-- At the end of the text. -/
  | text

/-- Whether the parts before an ending are quoted. -/
def Ending.quoted : Ending → Bool
  | word => false
  | quote => true
  | brace quoted => quoted
  | text => true

/-- What is wrong with a substitution in braces that does not end; a quote around it does not end
either. -/
def unclosed (quoted : Bool) : Reason := if quoted then .unterminatedQuote else .unterminatedBrace

/-- The characters that a backslash quotes where other characters are quoted anyhow. -/
def Ending.escapes (ending : Ending) (c : Char) : Bool :=
  match ending with
  | word => true
  | brace false => true
  | text => c = '$' || c = backquote || c = '\\'
  | quote => c = '$' || c = backquote || c = '"' || c = '\\'
  | brace true => c = '$' || c = backquote || c = '"' || c = '\\' || c = '\x7d'

/-- A word in which texts that stand side by side are one. -/
def joined : Word → Word
  | .text a false :: rest =>
    match joined rest with
    | .text b false :: rest => .text (a ++ b) false :: rest
    | rest => .text a false :: rest
  | part :: rest => part :: joined rest
  | [] => []

/-- The command of some stages. -/
def pipelineOf : Bool → List Command → Command
  | false, [only] => only
  | negated, found => .pipeline negated found

/-- Put a part in front of those that were read. -/
def before (part : Part) (found : Read Word) : Read Word :=
  found.map fun r => (part :: r.1, r.2)

mutual

/-- The parts up to an ending. -/
def parts (breaks : Nat) (ending : Ending) : (fuel : Nat) → List Char → Read Word
  | 0, cs => fail .exhausted cs
  | fuel + 1, cs =>
    match cs with
    | [] =>
      match ending with
      | .word => .ok ([], [])
      | .text => .ok ([], [])
      | .quote => fail .unterminatedQuote []
      | .brace quoted => fail (unclosed quoted) []
    | '\\' :: '\n' :: rest => parts breaks ending fuel rest
    | '\\' :: c :: rest =>
      let kept := if ending.escapes c then c.toString else String.ofList ['\\', c]
      before (.text kept true) (parts breaks ending fuel rest)
    | '$' :: rest =>
      match dollar breaks ending.quoted fuel rest with
      | .error e => .error e
      | .ok (part, rest) => before part (parts breaks ending fuel rest)
    | c :: rest =>
      if c = backquote then
        match backquotedText rest with
        | none => fail .unterminatedBackquote []
        | some (text, rest) =>
          match list 0 fuel text with
          | .error e => .error e
          | .ok (commands, _) =>
            before (.output (.sequence commands) ending.quoted) (parts breaks ending fuel rest)
      else
        match ending with
        | .word =>
          if isMeta c then .ok ([], cs)
          else if c = '\'' then
            match rest.dropWhile (· != '\'') with
            | [] => fail .unterminatedQuote []
            | _ :: after =>
              before (.text (String.ofList (rest.takeWhile (· != '\''))) true)
                (parts breaks ending fuel after)
          else if c = '"' then quotedThen breaks ending fuel rest
          else before (.text c.toString false) (parts breaks ending fuel rest)
        | .quote =>
          if c = '"' then .ok ([], rest)
          else before (.text c.toString true) (parts breaks ending fuel rest)
        | .brace quoted =>
          if c = '\x7d' then .ok ([], rest)
          else if c = '"' && !quoted then quotedThen breaks ending fuel rest
          else if c = '\'' && !quoted then
            match rest.dropWhile (· != '\'') with
            | [] => fail .unterminatedQuote []
            | _ :: after =>
              before (.text (String.ofList (rest.takeWhile (· != '\''))) true)
                (parts breaks ending fuel after)
          else before (.text c.toString quoted) (parts breaks ending fuel rest)
        | .text => before (.text c.toString true) (parts breaks ending fuel rest)
termination_by structural fuel => fuel

/-- Parts between double quotes, and those after them. -/
def quotedThen (breaks : Nat) (ending : Ending) : (fuel : Nat) → List Char → Read Word
  | 0, cs => fail .exhausted cs
  | fuel + 1, cs =>
    match parts breaks .quote fuel cs with
    | .error e => .error e
    | .ok (inside, rest) =>
      (parts breaks ending fuel rest).map fun r => (.text "" true :: inside ++ r.1, r.2)
termination_by structural fuel => fuel

/-- A substitution, after its dollar sign. -/
def dollar (breaks : Nat) (quoted : Bool) : (fuel : Nat) → List Char → Read Part
  | 0, cs => fail .exhausted cs
  | fuel + 1, cs =>
    match cs with
    | '(' :: '(' :: rest =>
      match arithmeticText 0 rest with
      | none => fail .unterminatedArithmetic []
      | some (text, rest) =>
        match parts breaks .text fuel text with
        | .error e => .error e
        | .ok (expression, _) => .ok (.arithmetic expression quoted, rest)
    | '(' :: rest =>
      match list breaks fuel rest with
      | .error e => .error e
      | .ok (commands, rest) =>
        (expect ")" rest).map fun r => (.output (.sequence commands) quoted, r.2)
    | '\x7b' :: '#' :: '\x7d' :: rest => .ok (.parameter "#" .plain [] quoted, rest)
    | '\x7b' :: '#' :: rest =>
      match parameterName rest with
      | some (name, '\x7d' :: rest) => .ok (.parameter name .length [] quoted, rest)
      | some (_, []) => fail (unclosed quoted) []
      | _ => fail .badSubstitution rest
    | '\x7b' :: rest =>
      match parameterName rest with
      | none => fail .badSubstitution rest
      | some (name, '\x7d' :: rest) => .ok (.parameter name .plain [] quoted, rest)
      | some (_, []) => fail (unclosed quoted) []
      | some (name, rest) =>
        match operation? rest with
        | none => fail .badSubstitution rest
        | some (operation, rest) =>
          (parts breaks (.brace quoted) fuel rest).map fun r =>
            (.parameter name operation r.1 quoted, r.2)
    | c :: rest =>
      if c.isDigit then .ok (.parameter c.toString .plain [] quoted, rest)
      else
        match parameterName cs with
        | some (name, rest) => .ok (.parameter name .plain [] quoted, rest)
        | none => .ok (.text "$" quoted, cs)
    | [] => .ok (.text "$" quoted, [])
termination_by structural fuel => fuel

/-- A word, which must not be missing. -/
def word (breaks : Nat) : (fuel : Nat) → List Char → Read Word
  | 0, cs => fail .exhausted cs
  | fuel + 1, cs =>
    match parts breaks .word fuel (skipBlanks cs) with
    | .ok ([], rest) => unexpected none rest
    | found => found
termination_by structural fuel => fuel

/-- A redirection, after its operator. -/
def redirection (breaks descriptor : Nat) (direction : Direction) :
    (fuel : Nat) → List Char → Read Redirection
  | 0, cs => fail .exhausted cs
  | fuel + 1, cs =>
    if direction = .here then
      let indented := cs.head? == some '-'
      let (delimiter, quoted, rest) :=
        unquoted none (skipBlanks (if indented then cs.drop 1 else cs))
      let (lines, rest) := hereLines delimiter indented rest
      if quoted then .ok (.mk descriptor direction [.text (String.ofList lines) true], rest)
      else (parts breaks .text fuel lines).map fun r => (.mk descriptor direction r.1, rest)
    else (word breaks fuel cs).map fun r => (.mk descriptor direction r.1, r.2)
termination_by structural fuel => fuel

/-- Redirections. -/
def redirections (breaks : Nat) : (fuel : Nat) → List Char → Read (List Redirection)
  | 0, cs => fail .exhausted cs
  | fuel + 1, cs =>
    match redirection? (skipBlanks cs) with
    | none => .ok ([], cs)
    | some (descriptor, direction, rest) =>
      match redirection breaks descriptor direction fuel rest with
      | .error e => .error e
      | .ok (first, rest) => (redirections breaks fuel rest).map fun r => (first :: r.1, r.2)
termination_by structural fuel => fuel

/-- The rest of a simple command, of which some assignments, words and redirections were read. -/
def simple (breaks line : Nat) (assignments : List (String × Word)) (words : List Word)
    (found : List Redirection) : (fuel : Nat) → List Char → Read Command
  | 0, cs => fail .exhausted cs
  | fuel + 1, cs =>
    let cs := skipBlanks cs
    match redirection? cs with
    | some (descriptor, direction, rest) =>
      match redirection breaks descriptor direction fuel rest with
      | .error e => .error e
      | .ok (next, rest) => simple breaks line assignments words (found ++ [next]) fuel rest
    | none =>
      match assignedName? cs, words with
      | some (name, rest), [] =>
        match parts breaks .word fuel rest with
        | .error e => .error e
        | .ok (value, rest) =>
          simple breaks line (assignments ++ [(name, value)]) words found fuel rest
      | _, _ =>
        match parts breaks .word fuel cs with
        | .error e => .error e
        | .ok ([], rest) =>
          match words, rest with
          | [[.text name false]], '(' :: rest =>
            match expect ")" rest with
            | .error e => .error e
            | .ok (_, rest) =>
              (command breaks fuel (skipAllLines rest)).map fun r => (.define name r.1, r.2)
          | [], _ =>
            if assignments.isEmpty && found.isEmpty then unexpected none rest
            else .ok (.simple line assignments words found, rest)
          | _, _ => .ok (.simple line assignments words found, rest)
        | .ok (found', rest) =>
          simple breaks line assignments (words ++ [joined found']) found fuel rest
termination_by structural fuel => fuel

/-- Redirections behind a command that is built from others. -/
def withRedirections (breaks : Nat) (body : Command) : (fuel : Nat) → List Char → Read Command
  | 0, cs => fail .exhausted cs
  | fuel + 1, cs =>
    (redirections breaks fuel cs).map fun r =>
      (if r.1.isEmpty then body else .redirected (lineOf breaks cs) body r.1, r.2)
termination_by structural fuel => fuel

/-- A command that is built from others, with the redirections behind it. -/
def built (breaks : Nat) (found : Read Command) : (fuel : Nat) → Read Command
  | 0 => fail .exhausted []
  | fuel + 1 =>
    match found with
    | .error e => .error e
    | .ok (body, rest) => withRedirections breaks body fuel rest
termination_by structural fuel => fuel

/-- Commands up to a reserved word, which is passed over. -/
def block (breaks : Nat) (close : String) : (fuel : Nat) → List Char → Read Command
  | 0, cs => fail .exhausted cs
  | fuel + 1, cs =>
    match list breaks fuel cs with
    | .error e => .error e
    | .ok ([], rest) => noCommands close rest
    | .ok (commands, rest) => (expect close rest).map fun r => (.sequence commands, r.2)
termination_by structural fuel => fuel

/-- The clauses of a condition, after `if` or `elif`. -/
def clauses (breaks : Nat) : (fuel : Nat) → List Char →
    Read (List (Command × Command) × Option Command)
  | 0, cs => fail .exhausted cs
  | fuel + 1, cs =>
    match block breaks "then" fuel cs with
    | .error e => .error e
    | .ok (condition, rest) =>
      match list breaks fuel rest with
      | .error e => .error e
      | .ok ([], rest) => noCommands "fi" rest
      | .ok (commands, rest) =>
        let clause := (condition, Command.sequence commands)
        let rest := skipAllLines rest
        if run rest = "elif" then
          (clauses breaks fuel (rest.drop 4)).map fun r => ((clause :: r.1.1, r.1.2), r.2)
        else if run rest = "else" then
          (block breaks "fi" fuel (rest.drop 4)).map fun r => (([clause], some r.1), r.2)
        else (expect "fi" rest).map fun r => (([clause], none), r.2)
termination_by structural fuel => fuel

/-- Patterns with bars between them, up to a closing bracket. -/
def patterns (breaks : Nat) : (fuel : Nat) → List Char → Read (List Word)
  | 0, cs => fail .exhausted cs
  | fuel + 1, cs =>
    match parts breaks .word fuel (skipBlanks cs) with
    | .error e => .error e
    | .ok ([], rest) => unexpected (some ")") rest
    | .ok (pattern, rest) =>
      match skipBlanks rest with
      | '|' :: rest => (patterns breaks fuel rest).map fun r => (pattern :: r.1, r.2)
      | ')' :: rest => .ok ([pattern], rest)
      | rest => unexpected (some ")") rest
termination_by structural fuel => fuel

/-- The clauses of a choice, up to its end. -/
def choices (breaks : Nat) : (fuel : Nat) → List Char → Read (List (List Word × Command))
  | 0, cs => fail .exhausted cs
  | fuel + 1, cs =>
    let cs := skipAllLines cs
    if run cs = "esac" then .ok ([], cs.drop 4)
    else
      let cs := match cs with
        | '(' :: rest => rest
        | _ => cs
      match patterns breaks fuel cs with
      | .error e => .error e
      | .ok (found, rest) =>
        match list breaks fuel rest with
        | .error e => .error e
        | .ok (commands, rest) =>
          let clause := (found, Command.sequence commands)
          match skipAllLines rest with
          | ';' :: ';' :: rest => (choices breaks fuel rest).map fun r => (clause :: r.1, r.2)
          | rest =>
            if run rest = "esac" then .ok ([clause], rest.drop 4) else unexpected (some ";;") rest
termination_by structural fuel => fuel

/-- Words up to the end of a list of words. -/
def words (breaks : Nat) : (fuel : Nat) → List Char → Read (List Word)
  | 0, cs => fail .exhausted cs
  | fuel + 1, cs =>
    match parts breaks .word fuel (skipBlanks cs) with
    | .error e => .error e
    | .ok ([], rest) => .ok ([], rest)
    | .ok (found, rest) => (words breaks fuel rest).map fun r => (joined found :: r.1, r.2)
termination_by structural fuel => fuel

/-- A loop over words, after `for`. -/
def forEach (breaks : Nat) : (fuel : Nat) → List Char → Read Command
  | 0, cs => fail .exhausted cs
  | fuel + 1, cs =>
    let cs := skipBlanks cs
    let name := run cs
    let afterName := skipAllLines (cs.drop name.length)
    let listed : Read (Option (List Word)) :=
      if run afterName = "in" then
        match words breaks fuel (afterName.drop 2) with
        | .error e => .error e
        | .ok (found, rest) =>
          match skipBlanks rest with
          | '\n' :: rest => .ok (some found, rest)
          | ';' :: rest => .ok (some found, rest)
          | rest => unexpected none rest
      else
        match afterName with
        | ';' :: rest => .ok (none, rest)
        | _ => .ok (none, afterName)
    if !isName name then fail .badLoopVariable cs
    else
      match listed with
      | .error e => .error e
      | .ok (listed, rest) =>
        match expect "do" rest with
        | .error e => .error e
        | .ok (_, rest) =>
          (block breaks "done" fuel rest).map fun r => (.forEach name listed r.1, r.2)
termination_by structural fuel => fuel

/-- A command. -/
def command (breaks : Nat) : (fuel : Nat) → List Char → Read Command
  | 0, cs => fail .exhausted cs
  | fuel + 1, cs =>
    let cs := skipBlanks cs
    match cs with
    | '(' :: rest =>
      built breaks ((block breaks ")" fuel rest).map fun r => (.subshell r.1, r.2)) fuel
    | _ =>
      match run cs with
      | "\x7b" =>
        built breaks ((block breaks "\x7d" fuel (cs.drop 1)).map fun r => (.group r.1, r.2)) fuel
      | "if" =>
        built breaks
          ((clauses breaks fuel (cs.drop 2)).map fun r => (.conditional r.1.1 r.1.2, r.2)) fuel
      | "while" => built breaks (loop breaks false fuel (cs.drop 5)) fuel
      | "until" => built breaks (loop breaks true fuel (cs.drop 5)) fuel
      | "for" => built breaks (forEach breaks fuel (cs.drop 3)) fuel
      | "case" =>
        match parts breaks .word fuel (skipBlanks (cs.drop 4)) with
        | .error e => .error e
        | .ok ([], rest) => fail (.unexpected (tokenName rest) (some "word")) rest
        | .ok (subject, rest) =>
          match expect "in" rest with
          | .error e => .error e
          | .ok (_, rest) =>
            built breaks ((choices breaks fuel rest).map fun r => (.choose subject r.1, r.2)) fuel
      | found =>
        if closing.contains found then unexpected none cs
        else simple breaks (lineOf breaks cs) [] [] [] fuel cs
termination_by structural fuel => fuel

/-- A loop, after `while` or `until`. -/
def loop (breaks : Nat) (untilSuccess : Bool) : (fuel : Nat) → List Char → Read Command
  | 0, cs => fail .exhausted cs
  | fuel + 1, cs =>
    match block breaks "do" fuel cs with
    | .error e => .error e
    | .ok (condition, rest) =>
      (block breaks "done" fuel rest).map fun r => (.loop untilSuccess condition r.1, r.2)
termination_by structural fuel => fuel

/-- The stages of a pipeline. -/
def stages (breaks : Nat) : (fuel : Nat) → List Char → Read (List Command)
  | 0, cs => fail .exhausted cs
  | fuel + 1, cs =>
    match command breaks fuel cs with
    | .error e => .error e
    | .ok (first, rest) =>
      let rest := skipBlanks rest
      if operator? rest == some "|" then
        (stages breaks fuel (skipAllLines (rest.drop 1))).map fun r => (first :: r.1, r.2)
      else .ok ([first], rest)
termination_by structural fuel => fuel

/-- A pipeline. -/
def pipeline (breaks : Nat) : (fuel : Nat) → List Char → Read Command
  | 0, cs => fail .exhausted cs
  | fuel + 1, cs =>
    let cs := skipBlanks cs
    let negated := run cs = "!"
    (stages breaks fuel (if negated then cs.drop 1 else cs)).map fun r =>
      (pipelineOf negated r.1, r.2)
termination_by structural fuel => fuel

/-- Pipelines after one that was read, each of which depends on what comes before it. -/
def chained (breaks : Nat) (first : Command) : (fuel : Nat) → List Char → Read Command
  | 0, cs => fail .exhausted cs
  | fuel + 1, cs =>
    let cs := skipBlanks cs
    let op := operator? cs
    if op == some "&&" || op == some "||" then
      match pipeline breaks fuel (skipAllLines (cs.drop 2)) with
      | .error e => .error e
      | .ok (second, rest) => chained breaks (.chain (op == some "&&") first second) fuel rest
    else .ok (first, cs)
termination_by structural fuel => fuel

/-- A pipeline with those that depend on it. -/
def chain (breaks : Nat) : (fuel : Nat) → List Char → Read Command
  | 0, cs => fail .exhausted cs
  | fuel + 1, cs =>
    match pipeline breaks fuel cs with
    | .error e => .error e
    | .ok (first, rest) => chained breaks first fuel rest
termination_by structural fuel => fuel

/-- Commands up to the end of a list of commands. -/
def list (breaks : Nat) : (fuel : Nat) → List Char → Read (List Command)
  | 0, cs => fail .exhausted cs
  | fuel + 1, cs =>
    let cs := skipAllLines cs
    if atEnd cs then .ok ([], cs)
    else
      match chain breaks fuel cs with
      | .error e => .error e
      | .ok (first, rest) =>
        match skipBlanks rest with
        | '\n' :: rest => (list breaks fuel rest).map fun r => (first :: r.1, r.2)
        | rest =>
          match operator? rest with
          | some ";" => (list breaks fuel (rest.drop 1)).map fun r => (first :: r.1, r.2)
          | some "&" =>
            (list breaks fuel (rest.drop 1)).map fun r => (.background first :: r.1, r.2)
          | _ => if atEnd rest then .ok ([first], rest) else unexpected none rest
termination_by structural fuel => fuel

end

/-- The commands of one line, and what comes after the line. -/
def lineFrom (breaks : Nat) : (fuel : Nat) → List Char → Read (List Command)
  | 0, cs => fail .exhausted cs
  | fuel + 1, cs =>
    match chain breaks fuel cs with
    | .error e => .error e
    | .ok (first, rest) =>
      match skipBlanks rest with
      | [] => .ok ([first], [])
      | '\n' :: rest => .ok ([first], rest)
      | rest =>
        let op := operator? rest
        if op == some ";" || op == some "&" then
          let first := if op == some "&" then .background first else first
          match skipBlanks (rest.drop 1) with
          | [] => .ok ([first], [])
          | '\n' :: rest => .ok ([first], rest)
          | rest => (lineFrom breaks fuel rest).map fun r => (first :: r.1, r.2)
        else unexpected none rest

/-- How much fuel a text needs. -/
def enoughFuel (cs : List Char) : Nat := 20 * cs.length + 40

/-- The next line with commands on it, and what comes after it; nothing at the end of the text. -/
def nextLine (breaks : Nat) (cs : List Char) :
    Except SyntaxError (Option (List Command × List Char)) :=
  match skipAllLines cs with
  | [] => .ok none
  | cs => (lineFrom breaks (enoughFuel cs) cs).map some

end Testbed.Shell.Reader
