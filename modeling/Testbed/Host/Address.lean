import Testbed.Poll.Basic
import Testbed.Text.Blank

/-!
# Network addresses

A listener is reached by addresses: an address of four or of eight numbers, and a port.  Names are
no addresses here, since nothing resolves them.  Waiting for a connection polls once a second.
-/

namespace Testbed.Host

/-- Where a listener can be: four numbers below 256 or eight below 65536, and a port. -/
structure Address where
  parts : List Nat
  port : Nat
  deriving DecidableEq

namespace Address

/-- The number that some digits of a base write, if there are any and it is below a bound. -/
def number? (base bound : Nat) (digit? : Char → Option Nat) (cs : List Char) : Option Nat := do
  let digits ← cs.mapM digit?
  let n := digits.foldl (fun n d => n * base + d) 0
  if digits.isEmpty || bound ≤ n then none else some n

/-- The value of a decimal digit. -/
def decimalDigit? (c : Char) : Option Nat :=
  if c.isDigit then some (c.toNat - '0'.toNat) else none

/-- The value of a digit in base sixteen. -/
def hexDigit? (c : Char) : Option Nat :=
  if c.isDigit then decimalDigit? c
  else if 'a' ≤ c.toLower && c.toLower ≤ 'f' then some (c.toLower.toNat - 'a'.toNat + 10)
  else none

/-- A port. -/
def port? (cs : List Char) : Option Nat := number? 10 65536 decimalDigit? cs

/-- One of four numbers, written with at most three digits and no zero in front. -/
def byte? (cs : List Char) : Option Nat :=
  if 3 < cs.length || (cs.head? == some '0' && cs.length != 1) then none
  else number? 10 256 decimalDigit? cs

/-- Four numbers with points between them. -/
def quad? (cs : List Char) : Option (List Nat) :=
  let parts := cs.splitOn '.'
  if parts.length = 4 then parts.mapM byte? else none

/-- One of eight numbers, written with at most four digits. -/
def group? (cs : List Char) : Option Nat :=
  if 4 < cs.length then none else number? 16 65536 hexDigit? cs

/-- Numbers with colons between them; the last two may be written as four. -/
def groups? (cs : List Char) : Option (List Nat) :=
  if cs.isEmpty then some []
  else
    let parts := cs.splitOn ':'
    match parts.getLast?.bind quad? with
    | some [a, b, c, d] => do
      let front ← parts.dropLast.mapM group?
      return front ++ [a * 256 + b, c * 256 + d]
    | _ => parts.mapM group?

/-- Cut a text at the first double colon. -/
def splitAtGap (cs : List Char) : Option (List Char × List Char) :=
  match cs with
  | [] => none
  | ':' :: ':' :: rest => some ([], rest)
  | c :: rest => (splitAtGap rest).map fun (front, back) => (c :: front, back)

/-- Eight numbers, of which a double colon leaves out some that are zero. -/
def octet? (cs : List Char) : Option (List Nat) :=
  match splitAtGap cs with
  | some (front, back) => do
    let front ← groups? front
    let back ← groups? back
    if front.length + back.length < 8 then
      some (front ++ List.replicate (8 - front.length - back.length) 0 ++ back)
    else none
  | none => (groups? cs).bind fun parts => if parts.length = 8 then some parts else none

/-- Read an address: `a.b.c.d:port`, or eight numbers in brackets and a port. -/
def read? (s : String) : Option Address :=
  match s.toList with
  | '[' :: rest =>
    match rest.dropWhile (· != ']') with
    | ']' :: ':' :: port => do
      return { parts := ← octet? (rest.takeWhile (· != ']')), port := ← port? port }
    | _ => none
  | cs =>
    match cs.splitOn ':' with
    | [parts, port] => do return { parts := ← quad? parts, port := ← port? port }
    | _ => none

/-- Whether an address means every address of its kind. -/
def isUnspecified (a : Address) : Bool := a.parts.all (· == 0)

/-- Whether an address means the machine itself. -/
def isLoopback (a : Address) : Bool :=
  match a.parts with
  | [127, _, _, _] => true
  | parts => parts == [0, 0, 0, 0, 0, 0, 0, 1]

/-- Whether a connection to an address reaches a listener on the same machine.  A connection to the
unspecified address goes to the machine itself. -/
def reaches (target listener : Address) : Bool :=
  let sameKind := target.parts.length == listener.parts.length
  let target := if target.isUnspecified then
      { target with parts :=
        if target.parts.length == 4 then [127, 0, 0, 1] else [0, 0, 0, 0, 0, 0, 0, 1] }
    else target
  target.port == listener.port
    && ((sameKind && target.parts == listener.parts)
      || (listener.isUnspecified && target.isLoopback
        && (sameKind || listener.parts.length == 8)))

/-- How long to wait between two attempts. -/
def attemptInterval : Duration := ⟨Duration.perSecond⟩

/-- Wait until a listener can be reached by an address. -/
def awaitConnection (address : String) (timeout : Duration) (listener : Option Address) : Bool :=
  let reached := match read? address, listener with
    | some target, some listener => target.reaches listener
    | _, _ => false
  let schedule : Poll.Schedule := { timeout, interval := attemptInterval, delay := .zero }
  match Poll.wait schedule .exact fun _ => .answered reached with
  | .ok report => report.satisfied
  | .error _ => false

end Address

end Testbed.Host
