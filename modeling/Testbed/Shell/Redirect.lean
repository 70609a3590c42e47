import Testbed.Shell.Builtin

/-!
# Redirections

How a descriptor comes to lead to a file, to a text, or to where another descriptor leads.  Each
action tells whether that was possible; if it was not, there is a complaint and nothing has changed.
-/

namespace Testbed.Shell

open Text (Bytes)
open Print (bytes)

/-- The reason of an error as the shell words it; there is one wording for all that is missing. -/
def openReason (missing : String) (e : FileError) : String :=
  if e = .notFound || e = .notADirectory then missing else e.reason

/-- Let a descriptor lead to a file that is written, and tell whether that was possible. -/
def openFile (descriptor : Nat) (appending : Bool) (p : Path) : Action Bool := do
  let s ← get
  match p with
  | "/dev/null" => set (s.direct descriptor (some .nowhere)); pure true
  | "/dev/stdout" => set (s.direct descriptor (s.target? 1)); pure true
  | "/dev/stderr" => set (s.direct descriptor (s.target? 2)); pure true
  | _ =>
    let opened := if appending && s.files.isFile p then .ok s.files else s.files.write p []
    match opened, s.files.locate p with
    | .ok files, .ok location =>
      set ({ s with files }.direct descriptor (some (.file location)))
      pure true
    | .error e, _ =>
      set (s.complain ("cannot create " ++ p ++ ": " ++ openReason "Directory nonexistent" e))
      pure false
    | .ok _, .error e =>
      set (s.complain ("cannot create " ++ p ++ ": " ++ openReason "Directory nonexistent" e))
      pure false

/-- Take the input from a text. -/
def openText (descriptor : Nat) (text : String) : Action Bool := do
  if descriptor = 0 then modify fun s => { s with input := bytes text }
  pure true

/-- Take the input from a file, and tell whether that was possible. -/
def openInput (descriptor : Nat) (p : Path) : Action Bool := do
  let s ← get
  let take (contents : Bytes) : Action Bool := do
    if descriptor = 0 then set { s with input := contents }
    pure true
  if p = "/dev/null" then take []
  else
    match s.files.readBytes p with
    | .ok contents => take contents
    | .error .isADirectory => take []
    | .error e =>
      set (s.complain ("cannot open " ++ p ++ ": " ++ openReason "No such file" e))
      pure false

/-- Let a descriptor lead to where another one leads, and tell whether that was possible. -/
def duplicate (descriptor : Nat) (word : String) : Action Bool := do
  let s ← get
  if word = "-" then
    set (s.direct descriptor none)
    pure true
  else
    match Builtin.number? word with
    | none => abort "Syntax error: Bad fd number"
    | some n =>
      match s.target? n with
      | some target =>
        set (s.direct descriptor (some target))
        pure true
      | none =>
        if n = 0 then pure true
        else
          set (s.complain (word ++ ": Bad file descriptor"))
          pure false

end Testbed.Shell
