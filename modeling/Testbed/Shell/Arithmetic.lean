import Testbed.Table

/-!
# Arithmetic

Expressions over integers of 64 bits, as they stand in arithmetic substitutions: with the operators
of the usual precedence, comparisons that give zero or one, and variables, which can be assigned.
-/

namespace Testbed.Shell.Arithmetic

/-- A token of an expression. -/
inductive Token where
  | number (n : Int)
  | name (s : String)
  | operator (s : String)
  deriving DecidableEq

/-- The operators, the longer ones first. -/
def operators : List String :=
  ["<<=", ">>=", "<<", ">>", "<=", ">=", "==", "!=", "&&", "||", "+=", "-=", "*=", "/=", "%=",
    "+", "-", "*", "/", "%", "<", ">", "=", "!", "~", "&", "|", "^", "(", ")", "?", ":"]

/-- The value of a digit, up to base sixteen. -/
def digitValue (c : Char) : Nat :=
  if c.isDigit then c.toNat - '0'.toNat else c.toLower.toNat - 'a'.toNat + 10

/-- The number that digits write in a base, if they are digits of it. -/
def numberOf? (base : Nat) (ds : List Char) : Option Int :=
  let isDigit (c : Char) : Bool :=
    (c.isDigit || ('a' ≤ c.toLower && c.toLower ≤ 'f')) && digitValue c < base
  if ds.all isDigit then some ((ds.foldl (fun n c => n * base + digitValue c) 0 : Nat) : Int)
  else none

/-- A number: in base sixteen after `0x`, in base eight after `0`, or else in base ten. -/
def number? : List Char → Option Int
  | '0' :: 'x' :: ds => if ds.isEmpty then none else numberOf? 16 ds
  | '0' :: 'X' :: ds => if ds.isEmpty then none else numberOf? 16 ds
  | '0' :: ds => numberOf? 8 ds
  | ds => if ds.isEmpty then none else numberOf? 10 ds

/-- The tokens of an expression. -/
def tokens : (fuel : Nat) → List Char → Option (List Token)
  | 0, _ => none
  | _ + 1, [] => some []
  | fuel + 1, c :: rest =>
    let cs := c :: rest
    if c = ' ' || c = '\t' || c = '\n' then tokens fuel rest
    else if c.isDigit then do
      let n ← number? (cs.takeWhile Char.isAlphanum)
      return .number n :: (← tokens fuel (cs.dropWhile Char.isAlphanum))
    else if c.isAlpha || c = '_' then
      let inName (c : Char) : Bool := c.isAlphanum || c = '_'
      (tokens fuel (cs.dropWhile inName)).map fun ts =>
        .name (String.ofList (cs.takeWhile inName)) :: ts
    else
      match operators.find? fun op => op.toList.isPrefixOf cs with
      | some op => (tokens fuel (cs.drop op.length)).map fun ts => .operator op :: ts
      | none => none

/-- Why an expression has no value. -/
inductive Fault where
  /-- Something else was expected. -/
  | expected (what : String)
  | divisionByZero
  /-- A variable has a value that is no number. -/
  | illegalNumber (text : String)
  deriving DecidableEq

/-- The fault of an expression that has nothing where a number could be. -/
def Fault.noPrimary : Fault := .expected "primary"

/-- The fault of an expression that does not end where it could. -/
def Fault.noEnd : Fault := .expected "EOF"

/-- The wording of a fault of an expression. -/
def Fault.message (expression : String) : Fault → String
  | expected what => "arithmetic expression: expecting " ++ what ++ ": \"" ++ expression ++ "\""
  | divisionByZero => "arithmetic expression: division by zero: \"" ++ expression ++ "\""
  | illegalNumber text => "Illegal number: " ++ text

/-- A result of 64 bits. -/
def wrap (n : Int) : Int := Int.bmod n (2 ^ 64)

/-- The number of a truth value. -/
def truth (b : Bool) : Int := if b then 1 else 0

/-- How tightly an operator with two sides binds. -/
def strength? (op : String) : Option Nat :=
  match op with
  | "||" => some 1
  | "&&" => some 2
  | "|" => some 3
  | "^" => some 4
  | "&" => some 5
  | "==" | "!=" => some 6
  | "<" | ">" | "<=" | ">=" => some 7
  | "<<" | ">>" => some 8
  | "+" | "-" => some 9
  | "*" | "/" | "%" => some 10
  | _ => none

/-- An operation on bits of two's complement. -/
def bits (f : BitVec 64 → BitVec 64 → BitVec 64) (a b : Int) : Int :=
  (f (BitVec.ofInt 64 a) (BitVec.ofInt 64 b)).toInt

/-- The value of an operator with two sides. -/
def apply (op : String) (a b : Int) : Except Fault Int :=
  match op with
  | "||" => .ok (truth (a != 0 || b != 0))
  | "&&" => .ok (truth (a != 0 && b != 0))
  | "|" => .ok (bits (· ||| ·) a b)
  | "^" => .ok (bits (· ^^^ ·) a b)
  | "&" => .ok (bits (· &&& ·) a b)
  | "==" => .ok (truth (a == b))
  | "!=" => .ok (truth (a != b))
  | "<" => .ok (truth (a < b))
  | ">" => .ok (truth (b < a))
  | "<=" => .ok (truth (a ≤ b))
  | ">=" => .ok (truth (b ≤ a))
  | "<<" => .ok (wrap (a * 2 ^ (b % 64).toNat))
  | ">>" => .ok (a / 2 ^ (b % 64).toNat)
  | "+" => .ok (wrap (a + b))
  | "-" => .ok (wrap (a - b))
  | "*" => .ok (wrap (a * b))
  | "/" => if b = 0 then .error .divisionByZero else .ok (wrap (a.tdiv b))
  | "%" => if b = 0 then .error .divisionByZero else .ok (a.tmod b)
  | _ => .error .noPrimary

/-- The operator in front of an assignment sign. -/
def assigned? (op : String) : Option (Option String) :=
  match op with
  | "=" => some none
  | "+=" => some (some "+")
  | "-=" => some (some "-")
  | "*=" => some (some "*")
  | "/=" => some (some "/")
  | "%=" => some (some "%")
  | "<<=" => some (some "<<")
  | ">>=" => some (some ">>")
  | _ => none

/-- The value of a variable: zero, if it is not set or empty. -/
def valueOf (vars : Table String) (name : String) : Except Fault Int :=
  match (vars.get? name).getD "" with
  | "" => .ok 0
  | text =>
    let (negative, ds) := match text.toList with
      | '-' :: ds => (true, ds)
      | ds => (false, ds)
    match number? ds with
    | some n => .ok (if negative then -n else n)
    | none => .error (.illegalNumber text)

/-- A value, the variables after it was computed, and the tokens behind it. -/
abbrev Step := Except Fault (Int × Table String × List Token)

mutual

/-- An expression whose operators with two sides bind at least so tightly. -/
def expression (least : Nat) (vars : Table String) : (fuel : Nat) → List Token → Step
  | 0, _ => .error .noPrimary
  | fuel + 1, ts =>
    match operand vars fuel ts with
    | .error e => .error e
    | .ok (a, vars, ts) => continued least a vars fuel ts
termination_by structural fuel => fuel

/-- What follows the first operand of an expression. -/
def continued (least : Nat) (a : Int) (vars : Table String) : (fuel : Nat) → List Token → Step
  | 0, _ => .error .noPrimary
  | fuel + 1, ts =>
    match ts with
    | .operator "?" :: rest =>
      if 0 < least then .ok (a, vars, ts)
      else
        match expression 0 vars fuel rest with
        | .ok (b, vars, .operator ":" :: rest) =>
          match expression 0 vars fuel rest with
          | .error e => .error e
          | .ok (c, vars, rest) => .ok (if a != 0 then b else c, vars, rest)
        | .ok _ => .error (.expected "':'")
        | .error e => .error e
    | .operator op :: rest =>
      match strength? op with
      | none => .ok (a, vars, ts)
      | some strength =>
        if strength < least then .ok (a, vars, ts)
        else
          match expression (strength + 1) vars fuel rest with
          | .error e => .error e
          | .ok (b, vars, rest) =>
            match apply op a b with
            | .error e => .error e
            | .ok n => continued least n vars fuel rest
    | _ => .ok (a, vars, ts)
termination_by structural fuel => fuel

/-- A number, a variable, an expression in brackets, or one of these with signs before it. -/
def operand (vars : Table String) : (fuel : Nat) → List Token → Step
  | 0, _ => .error .noPrimary
  | fuel + 1, ts =>
    match ts with
    | .number n :: rest => .ok (wrap n, vars, rest)
    | .name x :: .operator op :: rest =>
      match assigned? op with
      | none => (valueOf vars x).map fun n => (n, vars, .operator op :: rest)
      | some op =>
        match expression 0 vars fuel rest with
        | .error e => .error e
        | .ok (b, vars, rest) =>
          let value : Except Fault Int := match op with
            | none => .ok b
            | some op => (valueOf vars x).bind fun a => apply op a b
          value.map fun n => (n, vars.insert x (toString n), rest)
    | .name x :: rest => (valueOf vars x).map fun n => (n, vars, rest)
    | .operator "(" :: rest =>
      match expression 0 vars fuel rest with
      | .ok (n, vars, .operator ")" :: rest) => .ok (n, vars, rest)
      | .ok _ => .error (.expected "')'")
      | .error e => .error e
    | .operator op :: rest =>
      match operand vars fuel rest with
      | .error e => .error e
      | .ok (n, vars, rest) =>
        match op with
        | "+" => .ok (n, vars, rest)
        | "-" => .ok (wrap (-n), vars, rest)
        | "!" => .ok (truth (n == 0), vars, rest)
        | "~" => .ok (-n - 1, vars, rest)
        | _ => .error .noPrimary
    | [] => .error .noPrimary
termination_by structural fuel => fuel

end

/-- The value of an expression, and the variables after its assignments. -/
def evaluate (vars : Table String) (text : String) : Except Fault (Int × Table String) :=
  match tokens (text.length + 1) text.toList with
  | none => .error .noEnd
  | some [] => .ok (0, vars)
  | some ts =>
    match expression 0 vars (4 * ts.length + 4) ts with
    | .error e => .error e
    | .ok (n, vars, []) => .ok (n, vars)
    | .ok _ => .error .noEnd

end Testbed.Shell.Arithmetic
