import Testbed.Proofs.Text.Utf8

/-!
# Ill-formed bytes

Any bytes are cut in exactly one way into the sequences of characters and, where no sequence of a
character comes next, maximal subparts: the longest part there that is one byte or that the sequence
of a character begins with.  The lossy reading puts one replacement character for each maximal
subpart, and the bytes of a text have none.
-/

namespace Testbed.Text.Utf8

/-! ## Sequences of bytes -/

/-- The sequences of one to four bytes that stand for characters, by the bounds of their bytes. -/
inductive WellFormed : Bytes → Prop where
  | one {a : UInt8} : a < 0x80 → WellFormed [a]
  | two {a b : UInt8} : 0xC2 ≤ a ∧ a ≤ 0xDF → isContinuation b = true → WellFormed [a, b]
  | three {a b c : UInt8} : 0xE0 ≤ a ∧ a ≤ 0xEF → isSecondOfThree a b = true →
      isContinuation c = true → WellFormed [a, b, c]
  | four {a b c d : UInt8} : 0xF0 ≤ a ∧ a ≤ 0xF4 → isSecondOfFour a b = true →
      isContinuation c = true → isContinuation d = true → WellFormed [a, b, c, d]

theorem isContinuation_iff {b : UInt8} :
    isContinuation b = true ↔ 0x80 ≤ b.toNat ∧ b.toNat ≤ 0xBF := by
  simp [isContinuation, UInt8.le_iff_toNat_le]

theorem isSecondOfThree_iff {a b : UInt8} :
    isSecondOfThree a b = true ↔ isContinuation b = true ∧
      (a.toNat = 0xE0 → 0xA0 ≤ b.toNat) ∧ (a.toNat = 0xED → b.toNat ≤ 0x9F) := by
  have hE0 : a = 0xE0 ↔ a.toNat = 0xE0 := UInt8.toNat_inj.symm
  have hED : a = 0xED ↔ a.toNat = 0xED := UInt8.toNat_inj.symm
  rw [isContinuation_iff]
  unfold isSecondOfThree
  split
  case isTrue hlead =>
      rw [hE0] at hlead
      simp only [Bool.and_eq_true, decide_eq_true_eq, UInt8.le_iff_toNat_le, UInt8.reduceToNat]
      omega
  case isFalse hother =>
      rw [hE0] at hother
      split
      case isTrue hlead =>
          rw [hED] at hlead
          simp only [Bool.and_eq_true, decide_eq_true_eq, UInt8.le_iff_toNat_le, UInt8.reduceToNat]
          omega
      case isFalse hother' =>
          rw [hED] at hother'
          rw [isContinuation_iff]
          omega

theorem isSecondOfFour_iff {a b : UInt8} :
    isSecondOfFour a b = true ↔ isContinuation b = true ∧
      (a.toNat = 0xF0 → 0x90 ≤ b.toNat) ∧ (a.toNat = 0xF4 → b.toNat ≤ 0x8F) := by
  have hF0 : a = 0xF0 ↔ a.toNat = 0xF0 := UInt8.toNat_inj.symm
  have hF4 : a = 0xF4 ↔ a.toNat = 0xF4 := UInt8.toNat_inj.symm
  rw [isContinuation_iff]
  unfold isSecondOfFour
  split
  case isTrue hlead =>
      rw [hF0] at hlead
      simp only [Bool.and_eq_true, decide_eq_true_eq, UInt8.le_iff_toNat_le, UInt8.reduceToNat]
      omega
  case isFalse hother =>
      rw [hF0] at hother
      split
      case isTrue hlead =>
          rw [hF4] at hlead
          simp only [Bool.and_eq_true, decide_eq_true_eq, UInt8.le_iff_toNat_le, UInt8.reduceToNat]
          omega
      case isFalse hother' =>
          rw [hF4] at hother'
          rw [isContinuation_iff]
          omega

theorem wellFormed_encodeChar (c : Char) : WellFormed (encodeChar c) := by
  have hvalid : c.toNat < 0xD800 ∨ 0xDFFF < c.toNat ∧ c.toNat < 0x110000 := c.valid
  unfold encodeChar
  dsimp only
  generalize c.toNat = n at hvalid
  have hlast := isContinuation_byte (n := n % 64) (by omega)
  split
  case isTrue h1 => exact WellFormed.one ((byte_lead (by omega)).1.mpr h1)
  case isFalse h1 =>
      split
      case isTrue h2 =>
          have hlead := (byte_lead (n := 0xC0 + n / 64) (by omega)).2.1.mpr (by omega)
          exact WellFormed.two (by simpa using hlead) hlast
      case isFalse h2 =>
          split
          case isTrue h3 =>
              have hlead := (byte_lead (n := 0xE0 + n / 4096) (by omega)).2.2.1.mpr (by omega)
              have hsecond := isSecondOfThree_byte h3 (by omega) (by omega)
              exact WellFormed.three (by simpa using hlead) hsecond hlast
          case isFalse h3 =>
              have hlead := (byte_lead (n := 0xF0 + n / 262144) (by omega)).2.2.2.mpr (by omega)
              have hsecond := isSecondOfFour_byte (n := n) (by omega) (by omega)
              have hthird := isContinuation_byte (n := n / 64 % 64) (by omega)
              exact WellFormed.four (by simpa using hlead) hsecond hthird hlast

theorem byte_eq_of_toNat {a : UInt8} {n : Nat} (h : a.toNat = n) : byte n = a := by
  rw [← h, byte, UInt8.ofNat_toNat]

/-- The bytes of the character that has a number. -/
theorem encodeChar_ofNat {n : Nat} (valid : n < 0xD800 ∨ 0xDFFF < n ∧ n < 0x110000) :
    encodeChar (Char.ofNat n) =
      if n < 0x80 then [byte n]
      else if n < 0x800 then [byte (0xC0 + n / 64), byte (0x80 + n % 64)]
      else if n < 0x10000 then
        [byte (0xE0 + n / 4096), byte (0x80 + n / 64 % 64), byte (0x80 + n % 64)]
      else
        [byte (0xF0 + n / 262144), byte (0x80 + n / 4096 % 64), byte (0x80 + n / 64 % 64),
          byte (0x80 + n % 64)] := by
  have hnumber : (Char.ofNat n).toNat = n := by
    rw [Char.ofNat, dif_pos valid]
    rfl
  rw [encodeChar, hnumber]

/-- A well-formed sequence is that of the character whose number it spells. -/
theorem exists_encodeChar {bytes : Bytes} (h : WellFormed bytes) : ∃ c, encodeChar c = bytes := by
  cases h with
  | @one a ha =>
      have ha' : a.toNat < 0x80 := UInt8.lt_iff_toNat_lt.mp ha
      refine ⟨Char.ofNat a.toNat, ?_⟩
      rw [encodeChar_ofNat (by omega), if_pos ha', byte_eq_of_toNat rfl]
  | @two a b ha hb =>
      have hlow : 0xC2 ≤ a.toNat := UInt8.le_iff_toNat_le.mp ha.1
      have hhigh : a.toNat ≤ 0xDF := UInt8.le_iff_toNat_le.mp ha.2
      rw [isContinuation_iff] at hb
      refine ⟨Char.ofNat (a.toNat % 32 * 64 + b.toNat % 64), ?_⟩
      rw [encodeChar_ofNat (by omega), if_neg (by omega), if_pos (by omega),
        byte_eq_of_toNat (a := a) (by omega), byte_eq_of_toNat (a := b) (by omega)]
  | @three a b c ha hb hc =>
      have hlow : 0xE0 ≤ a.toNat := UInt8.le_iff_toNat_le.mp ha.1
      have hhigh : a.toNat ≤ 0xEF := UInt8.le_iff_toNat_le.mp ha.2
      rw [isSecondOfThree_iff, isContinuation_iff] at hb
      rw [isContinuation_iff] at hc
      refine ⟨Char.ofNat ((a.toNat % 16 * 64 + b.toNat % 64) * 64 + c.toNat % 64), ?_⟩
      rw [encodeChar_ofNat (by omega), if_neg (by omega), if_neg (by omega), if_pos (by omega),
        byte_eq_of_toNat (a := a) (by omega), byte_eq_of_toNat (a := b) (by omega),
        byte_eq_of_toNat (a := c) (by omega)]
  | @four a b c d ha hb hc hd =>
      have hlow : 0xF0 ≤ a.toNat := UInt8.le_iff_toNat_le.mp ha.1
      have hhigh : a.toNat ≤ 0xF4 := UInt8.le_iff_toNat_le.mp ha.2
      rw [isSecondOfFour_iff, isContinuation_iff] at hb
      rw [isContinuation_iff] at hc hd
      refine ⟨Char.ofNat (((a.toNat % 8 * 64 + b.toNat % 64) * 64 + c.toNat % 64) * 64 +
        d.toNat % 64), ?_⟩
      rw [encodeChar_ofNat (by omega), if_neg (by omega), if_neg (by omega), if_neg (by omega),
        byte_eq_of_toNat (a := a) (by omega), byte_eq_of_toNat (a := b) (by omega),
        byte_eq_of_toNat (a := c) (by omega), byte_eq_of_toNat (a := d) (by omega)]

/-! ## What characters begin with -/

/-- The sequence of some character begins with these bytes. -/
def Begins (front : Bytes) : Prop := ∃ c, front <+: encodeChar c

theorem Begins.of_front {front longer : Bytes} (h : Begins longer) (hfront : front <+: longer) :
    Begins front := by
  obtain ⟨c, hc⟩ := h
  exact ⟨c, hfront.trans hc⟩

theorem begins_iff {front : Bytes} : Begins front ↔ ∃ tail, WellFormed (front ++ tail) := by
  constructor
  · rintro ⟨c, tail, htail⟩
    exact ⟨tail, htail ▸ wellFormed_encodeChar c⟩
  · rintro ⟨tail, htail⟩
    obtain ⟨c, hc⟩ := exists_encodeChar htail
    exact ⟨c, tail, hc.symm⟩

/-- The leading byte decides which bytes may come second. -/
theorem begins_two {a b : UInt8} (h : Begins [a, b]) :
    (0xC2 ≤ a ∧ a ≤ 0xDF → isContinuation b = true) ∧
      (0xE0 ≤ a ∧ a ≤ 0xEF → isSecondOfThree a b = true) ∧
      (0xF0 ≤ a ∧ a ≤ 0xF4 → isSecondOfFour a b = true) ∧ 0xC2 ≤ a ∧ a ≤ 0xF4 := by
  obtain ⟨tail, htail⟩ := begins_iff.mp h
  cases htail with
  | two ha hb => grind
  | three ha hb hc => grind
  | four ha hb hc hd => grind

theorem begins_three {a b c : UInt8} (h : Begins [a, b, c]) : isContinuation c = true := by
  obtain ⟨tail, htail⟩ := begins_iff.mp h
  cases htail with
  | three _ _ hc => exact hc
  | four _ _ hc _ => exact hc

theorem begins_four {a b c d : UInt8} (h : Begins [a, b, c, d]) : isContinuation d = true := by
  obtain ⟨tail, htail⟩ := begins_iff.mp h
  cases htail with
  | four _ _ _ hd => exact hd

/-! ## Maximal subparts -/

/-- What may be a unit where no character comes next: one byte, or what the sequence of a character
begins with. -/
def Eligible (part : Bytes) : Prop := part.length = 1 ∨ Begins part

/-- Bytes that are not followed by the sequence of a character, and the longest eligible part that
they begin with. -/
structure MaximalSubpart (part bytes : Bytes) : Prop where
  unconvertible : ∀ c, ¬encodeChar c <+: bytes
  ne_nil : part ≠ []
  front : part <+: bytes
  eligible : Eligible part
  longest : ∀ other, other <+: bytes → Eligible other → other.length ≤ part.length

theorem MaximalSubpart.unique {part other bytes : Bytes} (h : MaximalSubpart part bytes)
    (h' : MaximalSubpart other bytes) : part = other := by
  have hlength : part.length = other.length :=
    Nat.le_antisymm (h'.longest part h.front h.eligible) (h.longest other h'.front h'.eligible)
  exact (List.prefix_of_prefix_length_le h.front h'.front (Nat.le_of_eq hlength)).eq_of_length
    hlength

/-- An eligible part that the next byte would make ineligible. -/
structure Stops (part tail : Bytes) : Prop where
  ne_nil : part ≠ []
  eligible : Eligible part
  ends : ∀ next rest, tail = next :: rest → ¬Begins (part ++ [next])

theorem Stops.longest {part tail other : Bytes} (h : Stops part tail)
    (hfront : other <+: part ++ tail) (heligible : Eligible other) :
    other.length ≤ part.length := by
  have hpositive := List.length_pos_iff.mpr h.ne_nil
  rcases heligible with hone | hbegins
  · omega
  · refine Nat.not_lt.mp fun hlonger => ?_
    cases tail with
    | nil =>
        have hle := hfront.length_le
        rw [List.append_nil] at hle
        omega
    | cons next rest =>
        -- What the longer part begins with goes one byte beyond this one.
        refine h.ends next rest rfl (hbegins.of_front ?_)
        apply List.prefix_of_prefix_length_le _ hfront
        · rw [List.length_append, List.length_singleton]
          omega
        · exact ⟨rest, by simp⟩

/-- The first unit of some bytes and the bytes after it: the sequence of a character, or an eligible
part that cannot go on. -/
inductive Leads : Bytes → Piece × Bytes → Prop where
  | character {sequence tail : Bytes} {c : Char} (h : WellFormed sequence) :
      Leads (sequence ++ tail) (some c, tail)
  | illFormed {part tail : Bytes} (h : Stops part tail) : Leads (part ++ tail) (none, tail)

/-- A unit is read one byte further: it ends before a byte that is refused or missing, and after one
that is accepted it goes on. -/
theorem leads_next {part : Bytes} {test : UInt8 → Bool} {go : UInt8 → Bytes → Piece × Bytes}
    (rest : Bytes) (ne_nil : part ≠ []) (eligible : Eligible part)
    (refused : ∀ b, Begins (part ++ [b]) → test b = true)
    (accepted : ∀ b rest', test b = true → Leads (part ++ b :: rest') (go b rest')) :
    Leads (part ++ rest) (match rest with
      | b :: rest' => if test b = true then go b rest' else (none, rest)
      | [] => (none, [])) := by
  cases rest with
  | nil => exact Leads.illFormed ⟨ne_nil, eligible, by simp⟩
  | cons b rest' =>
      by_cases hb : test b = true
      · simp only [if_pos hb]
        exact accepted b rest' hb
      · simp only [if_neg hb]
        refine Leads.illFormed ⟨ne_nil, eligible, ?_⟩
        rintro _ _ ⟨⟩ hbegins
        exact hb (refused b hbegins)

theorem leads_piece (lead : UInt8) (rest : Bytes) : Leads (lead :: rest) (piece lead rest) := by
  have hsingle : Eligible [lead] := Or.inl rfl
  unfold piece
  by_cases hone : lead < 0x80
  · rw [if_pos hone]
    exact Leads.character (WellFormed.one hone)
  rw [if_neg hone]
  by_cases htwo : (0xC2 ≤ lead && lead ≤ 0xDF) = true
  · have hlead : 0xC2 ≤ lead ∧ lead ≤ 0xDF := by simpa using htwo
    rw [if_pos htwo]
    refine leads_next rest (by simp) hsingle (fun b h => (begins_two h).1 hlead) ?_
    intro b rest hb
    exact Leads.character (WellFormed.two hlead hb)
  rw [if_neg htwo]
  by_cases hthree : (0xE0 ≤ lead && lead ≤ 0xEF) = true
  · have hlead : 0xE0 ≤ lead ∧ lead ≤ 0xEF := by simpa using hthree
    rw [if_pos hthree]
    refine leads_next rest (by simp) hsingle (fun b h => (begins_two h).2.1 hlead) ?_
    intro b rest hb
    have hpair : Eligible [lead, b] :=
      Or.inr (begins_iff.mpr ⟨[0x80], WellFormed.three hlead hb (by decide)⟩)
    refine leads_next rest (by simp) hpair (fun c h => begins_three h) ?_
    intro c rest hc
    exact Leads.character (WellFormed.three hlead hb hc)
  rw [if_neg hthree]
  by_cases hfour : (0xF0 ≤ lead && lead ≤ 0xF4) = true
  · have hlead : 0xF0 ≤ lead ∧ lead ≤ 0xF4 := by simpa using hfour
    rw [if_pos hfour]
    refine leads_next rest (by simp) hsingle (fun b h => (begins_two h).2.2.1 hlead) ?_
    intro b rest hb
    have hpair : Eligible [lead, b] := Or.inr (begins_iff.mpr
      ⟨[0x80, 0x80], WellFormed.four hlead hb (by decide) (by decide)⟩)
    refine leads_next rest (by simp) hpair (fun c h => begins_three h) ?_
    intro c rest hc
    have htriple : Eligible [lead, b, c] := Or.inr (begins_iff.mpr
      ⟨[0x80], WellFormed.four hlead hb hc (by decide)⟩)
    refine leads_next rest (by simp) htriple (fun d h => begins_four h) ?_
    intro d rest hd
    exact Leads.character (WellFormed.four hlead hb hc hd)
  · rw [if_neg hfour]
    have hnone : ∀ b, ¬Begins [lead, b] := by
      intro b h
      have hlead := (begins_two h).2.2.2
      simp only [Bool.and_eq_true, decide_eq_true_eq] at htwo hthree hfour
      grind
    exact Leads.illFormed ⟨by simp, hsingle, fun next _ _ => hnone next⟩

/-! ## Decompositions -/

/-- A part of some bytes: the sequence of a character, or a maximal subpart. -/
inductive Span where
  | character (c : Char)
  | illFormed (part : Bytes)

/-- What the reading makes of a part. -/
def Span.piece : Span → Piece
  | character c => some c
  | illFormed _ => none

/-- The character that stands for a part in the text. -/
def Span.char : Span → Char
  | character c => c
  | illFormed _ => replacement

/-- A part comes first in some bytes, and the rest after it. -/
def Span.Heads : Span → Bytes → Bytes → Prop
  | character c, bytes, rest => bytes = encodeChar c ++ rest
  | illFormed part, bytes, rest => MaximalSubpart part bytes ∧ bytes = part ++ rest

/-- Some bytes are cut into parts, each a sequence of a character or a maximal subpart of all that
is left there. -/
def Decomposes : Bytes → List Span → Prop
  | bytes, [] => bytes = []
  | bytes, span :: spans => ∃ rest, span.Heads bytes rest ∧ Decomposes rest spans

/-- The sequence of a character is read as that character, whatever follows it. -/
theorem encodeChar_append_inj {c d : Char} {rest rest' : Bytes}
    (h : encodeChar c ++ rest = encodeChar d ++ rest') : c = d ∧ rest = rest' := by
  have hpieces : some c :: pieces rest = some d :: pieces rest' := by
    rw [← pieces_encodeChar_append, ← pieces_encodeChar_append, h]
  obtain rfl : c = d := Option.some.inj (List.cons.inj hpieces).1
  exact ⟨rfl, List.append_cancel_left h⟩

theorem encodeChar_ne_nil (c : Char) : encodeChar c ≠ [] := by
  obtain ⟨lead, tail, hsplit, -⟩ := piece_encodeChar c []
  rw [List.append_nil] at hsplit
  rw [hsplit]
  exact List.cons_ne_nil lead tail

theorem Span.Heads.ne_nil {span : Span} {bytes rest : Bytes} (h : span.Heads bytes rest) :
    bytes ≠ [] := by
  rintro rfl
  cases span with
  | character c => exact encodeChar_ne_nil c (List.append_eq_nil_iff.mp h.symm).1
  | illFormed part => exact h.1.ne_nil (List.prefix_nil.mp h.1.front)

/-- Only one part can come first. -/
theorem Span.Heads.unique {span other : Span} {bytes rest rest' : Bytes}
    (h : span.Heads bytes rest) (h' : other.Heads bytes rest') : other = span ∧ rest' = rest := by
  cases span with
  | character c =>
      have hbytes : bytes = encodeChar c ++ rest := h
      cases other with
      | character d =>
          obtain ⟨rfl, rfl⟩ := encodeChar_append_inj (hbytes.symm.trans h')
          exact ⟨rfl, rfl⟩
      | illFormed part => exact absurd ⟨rest, hbytes.symm⟩ (h'.1.unconvertible c)
  | illFormed part =>
      obtain ⟨hmaximal, hbytes⟩ := h
      cases other with
      | character d => exact absurd ⟨rest', Eq.symm h'⟩ (hmaximal.unconvertible d)
      | illFormed part' =>
          obtain ⟨hmaximal', hbytes'⟩ := h'
          obtain rfl := hmaximal.unique hmaximal'
          exact ⟨rfl, List.append_cancel_left (hbytes'.symm.trans hbytes)⟩

theorem Decomposes.unique {bytes : Bytes} {spans others : List Span} (h : Decomposes bytes spans)
    (h' : Decomposes bytes others) : others = spans := by
  induction spans generalizing bytes others with
  | nil =>
      cases others with
      | nil => rfl
      | cons other others =>
          obtain ⟨rest', hother, -⟩ := h'
          exact absurd h hother.ne_nil
  | cons span spans ih =>
      obtain ⟨rest, hspan, hrest⟩ := h
      cases others with
      | nil => exact absurd h' hspan.ne_nil
      | cons other others =>
          obtain ⟨rest', hother, hrest'⟩ := h'
          obtain ⟨rfl, rfl⟩ := hspan.unique hother
          rw [ih hrest hrest']

/-- The first unit that is read is the part that comes first. -/
theorem exists_heads (lead : UInt8) (rest : Bytes) :
    ∃ span : Span, span.piece = (piece lead rest).1 ∧
      span.Heads (lead :: rest) (piece lead rest).2 := by
  have hleads := leads_piece lead rest
  generalize hbytes : lead :: rest = bytes at hleads
  generalize hpiece : piece lead rest = result at hleads
  cases hleads with
  | @character sequence tail c h =>
      obtain ⟨d, rfl⟩ := exists_encodeChar h
      have hread : some d :: pieces tail = some c :: pieces tail := by
        rw [← pieces_encodeChar_append, ← hbytes, pieces, hpiece]
      obtain rfl : d = c := Option.some.inj (List.cons.inj hread).1
      exact ⟨.character d, rfl, rfl⟩
  | @illFormed part tail h =>
      have hmaximal : MaximalSubpart part (part ++ tail) := by
        refine ⟨?_, h.ne_nil, ⟨tail, rfl⟩, h.eligible, fun other => h.longest⟩
        rintro c ⟨after, hafter⟩
        have hread : some c :: pieces after = none :: pieces tail := by
          rw [← pieces_encodeChar_append, hafter, ← hbytes, pieces, hpiece]
        cases (List.cons.inj hread).1
      exact ⟨.illFormed part, rfl, hmaximal, rfl⟩

theorem exists_decomposes (bytes : Bytes) :
    ∃ spans, Decomposes bytes spans ∧ spans.map Span.piece = pieces bytes := by
  induction bytes using pieces.induct with
  | case1 => exact ⟨[], rfl, by rw [pieces]; rfl⟩
  | case2 lead rest ih =>
      obtain ⟨spans, hspans, hpieces⟩ := ih
      obtain ⟨span, hspan, hheads⟩ := exists_heads lead rest
      refine ⟨span :: spans, ⟨_, hheads, hspans⟩, ?_⟩
      rw [pieces, List.map_cons, hspan, hpieces]

/-! ## The lossy reading -/

theorem Span.getD_piece (span : Span) : span.piece.getD replacement = span.char := by
  cases span <;> rfl

/-- The lossy reading has the character of each part. -/
theorem decodeLossy_eq {bytes : Bytes} {spans : List Span} (h : Decomposes bytes spans) :
    decodeLossy bytes = String.ofList (spans.map Span.char) := by
  obtain ⟨others, hothers, hpieces⟩ := exists_decomposes bytes
  rw [decodeLossy, ← hpieces, h.unique hothers, List.map_map]
  congr 2
  funext span
  exact span.getD_piece

/-- A start of three bytes that is cut short is one part; neither of the bytes after it is a start. -/
example : decodeLossy [0x61, 0xE2, 0x82, 0xC0, 0x80] = "a\uFFFD\uFFFD\uFFFD" := by cbv

theorem decomposes_encode (s : String) :
    Decomposes (encode s) (s.toList.map Span.character) := by
  rw [encode]
  induction s.toList with
  | nil => rfl
  | cons c rest ih => exact ⟨rest.flatMap encodeChar, List.flatMap_cons, ih⟩

/-- The bytes of a text are read as that text. -/
theorem decodeLossy_encode (s : String) : decodeLossy (encode s) = s := by
  rw [decodeLossy_eq (decomposes_encode s), List.map_map]
  exact (congrArg String.ofList (List.map_id s.toList)).trans String.ofList_toList

end Testbed.Text.Utf8
