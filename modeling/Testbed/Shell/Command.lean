/-!
# Shell commands

What a command line consists of: words, whose parts are text and substitutions, and commands, which
are words with assignments and redirections, or are built from other commands.
-/

namespace Testbed.Shell

/-- What a parameter substitution does beside giving the value. -/
inductive Operation where
  | plain
  | length
  /-- Another word where the parameter is not set, or also where it is empty. -/
  | default (alsoEmpty : Bool)
  | assign (alsoEmpty : Bool)
  | require (alsoEmpty : Bool)
  /-- Another word where the parameter is set, or is not empty either. -/
  | alternative (alsoEmpty : Bool)
  /-- The value without its shortest or longest beginning that matches a pattern. -/
  | trimStart (longest : Bool)
  /-- The value without its shortest or longest end that matches a pattern. -/
  | trimEnd (longest : Bool)
  deriving DecidableEq

/-- Where a redirection leads. -/
inductive Direction where
  | read
  | write
  | append
  /-- To where another descriptor leads. -/
  | duplicate
  /-- From the text itself, which is given in place of a path. -/
  | here
  deriving DecidableEq

mutual

/-- A part of a word.  Quoted parts are not split into fields. -/
inductive Part where
  | text (s : String) (quoted : Bool)
  | parameter (name : String) (operation : Operation) (argument : List Part) (quoted : Bool)
  | arithmetic (expression : List Part) (quoted : Bool)
  /-- What commands write. -/
  | output (command : Command) (quoted : Bool)

/-- A redirection of a descriptor. -/
inductive Redirection where
  | mk (descriptor : Nat) (direction : Direction) (target : List Part)

/-- A command. -/
inductive Command where
  | simple (line : Nat) (assignments : List (String × List Part)) (words : List (List Part))
      (redirections : List Redirection)
  | pipeline (negated : Bool) (stages : List Command)
  /-- Two commands, the second of which runs if the first one succeeds, or if it fails. -/
  | chain (ifSuccess : Bool) (first second : Command)
  | sequence (commands : List Command)
  | subshell (body : Command)
  /-- A command that is not waited for. -/
  | background (body : Command)
  | group (body : Command)
  | redirected (line : Nat) (body : Command) (redirections : List Redirection)
  | conditional (clauses : List (Command × Command)) (otherwise : Option Command)
  | loop (untilSuccess : Bool) (condition body : Command)
  | forEach (name : String) (words : Option (List (List Part))) (body : Command)
  | choose (word : List Part) (clauses : List (List (List Part) × Command))
  | define (name : String) (body : Command)

end

/-- A word: its parts, side by side. -/
abbrev Word := List Part

end Testbed.Shell
