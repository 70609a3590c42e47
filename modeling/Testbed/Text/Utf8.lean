/-!
# UTF-8

Text and its bytes.  Decoding takes one unit at a time off the front of the bytes: a well-formed
sequence gives its character, and anything else is an ill-formed unit, as long as possible a start
of a well-formed sequence and one byte where no sequence starts.  The strict reading refuses bytes
with an ill-formed unit; the lossy one puts a replacement character for each of them.
-/

namespace Testbed.Text

/-- The contents of a file or of an output stream. -/
abbrev Bytes := List UInt8

namespace Utf8

/-- The bytes that carry on a sequence: `10xxxxxx`. -/
def isContinuation (b : UInt8) : Bool :=
  0x80 ≤ b && b ≤ 0xBF

/-- The second bytes that may follow a leading byte of a sequence of three: they leave out the
sequences that a shorter one could stand for, and the surrogates. -/
def isSecondOfThree (lead b : UInt8) : Bool :=
  if lead = 0xE0 then 0xA0 ≤ b && b ≤ 0xBF
  else if lead = 0xED then 0x80 ≤ b && b ≤ 0x9F
  else isContinuation b

/-- The second bytes that may follow a leading byte of a sequence of four: they leave out the
sequences that a shorter one could stand for, and what lies above the last character. -/
def isSecondOfFour (lead b : UInt8) : Bool :=
  if lead = 0xF0 then 0x90 ≤ b && b ≤ 0xBF
  else if lead = 0xF4 then 0x80 ≤ b && b ≤ 0x8F
  else isContinuation b

/-- The payload of a continuation byte. -/
def payload (b : UInt8) : Nat :=
  b.toNat % 64

/-- One unit of the bytes: a character, or nothing for an ill-formed unit. -/
abbrev Piece := Option Char

/-- The unit that starts with a leading byte, and the bytes after it. -/
def piece (lead : UInt8) (rest : Bytes) : Piece × Bytes :=
  if lead < 0x80 then (some (Char.ofNat lead.toNat), rest)
  else if 0xC2 ≤ lead && lead ≤ 0xDF then
    match rest with
    | b :: rest' =>
      if isContinuation b then (some (Char.ofNat (lead.toNat % 32 * 64 + payload b)), rest')
      else (none, rest)
    | [] => (none, [])
  else if 0xE0 ≤ lead && lead ≤ 0xEF then
    match rest with
    | b :: rest' =>
      if isSecondOfThree lead b then
        match rest' with
        | c :: rest'' =>
          if isContinuation c then
            (some (Char.ofNat ((lead.toNat % 16 * 64 + payload b) * 64 + payload c)), rest'')
          else (none, rest')
        | [] => (none, [])
      else (none, rest)
    | [] => (none, [])
  else if 0xF0 ≤ lead && lead ≤ 0xF4 then
    match rest with
    | b :: rest' =>
      if isSecondOfFour lead b then
        match rest' with
        | c :: rest'' =>
          if isContinuation c then
            match rest'' with
            | d :: rest''' =>
              if isContinuation d then
                (some (Char.ofNat
                  (((lead.toNat % 8 * 64 + payload b) * 64 + payload c) * 64 + payload d)), rest''')
              else (none, rest'')
            | [] => (none, [])
          else (none, rest')
        | [] => (none, [])
      else (none, rest)
    | [] => (none, [])
  else (none, rest)

theorem length_piece_le (lead : UInt8) (rest : Bytes) :
    (piece lead rest).2.length ≤ rest.length := by
  unfold piece
  repeat' split
  all_goals simp
  all_goals omega

/-- All units of the bytes, in order. -/
def pieces : Bytes → List Piece
  | [] => []
  | lead :: rest => (piece lead rest).1 :: pieces (piece lead rest).2
termination_by bytes => bytes.length
decreasing_by
  have := length_piece_le lead rest
  simp
  omega

/-- The text whose bytes these are, if they are well-formed. -/
def decode? (bytes : Bytes) : Option String :=
  ((pieces bytes).mapM id).map String.ofList

/-- The character that stands for an ill-formed unit. -/
def replacement : Char := '\uFFFD'

/-- The text of the bytes, with a replacement character for each ill-formed unit. -/
def decodeLossy (bytes : Bytes) : String :=
  String.ofList ((pieces bytes).map (·.getD replacement))

/-- A byte of a sequence, from its value. -/
def byte (n : Nat) : UInt8 := UInt8.ofNat n

/-- The bytes of a character. -/
def encodeChar (c : Char) : Bytes :=
  let n := c.toNat
  if n < 0x80 then [byte n]
  else if n < 0x800 then [byte (0xC0 + n / 64), byte (0x80 + n % 64)]
  else if n < 0x10000 then
    [byte (0xE0 + n / 4096), byte (0x80 + n / 64 % 64), byte (0x80 + n % 64)]
  else
    [byte (0xF0 + n / 262144), byte (0x80 + n / 4096 % 64), byte (0x80 + n / 64 % 64),
      byte (0x80 + n % 64)]

/-- The bytes of a text. -/
def encode (s : String) : Bytes :=
  s.toList.flatMap encodeChar

/-- The number of bytes of a text. -/
def size (s : String) : Nat :=
  (encode s).length

end Utf8

end Testbed.Text
