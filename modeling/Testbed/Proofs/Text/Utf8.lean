import Testbed.Text.Utf8

/-!
# The bytes of a text give the text

Every character is read back from its sequence of one to four bytes, whatever follows it.
-/

namespace Testbed.Text.Utf8

theorem toNat_byte {n : Nat} (h : n < 256) : (byte n).toNat = n := by
  simp [byte, Nat.mod_eq_of_lt h]

theorem byte_le_byte {a b : Nat} (ha : a < 256) (hb : b < 256) : byte a ≤ byte b ↔ a ≤ b := by
  rw [UInt8.le_iff_toNat_le, toNat_byte ha, toNat_byte hb]

theorem byte_lt_byte {a b : Nat} (ha : a < 256) (hb : b < 256) : byte a < byte b ↔ a < b := by
  rw [UInt8.lt_iff_toNat_lt, toNat_byte ha, toNat_byte hb]

theorem byte_eq_byte {a b : Nat} (ha : a < 256) (hb : b < 256) : byte a = byte b ↔ a = b := by
  rw [← UInt8.toNat_inj, toNat_byte ha, toNat_byte hb]

/-! ## Bytes that carry on -/

theorem isContinuation_byte {n : Nat} (h : n < 64) : isContinuation (byte (0x80 + n)) = true := by
  have hlow : byte 0x80 ≤ byte (0x80 + n) := (byte_le_byte (by decide) (by omega)).mpr (by omega)
  have hhigh : byte (0x80 + n) ≤ byte 0xBF := (byte_le_byte (by omega) (by decide)).mpr (by omega)
  rw [isContinuation, Bool.and_eq_true]
  exact ⟨decide_eq_true hlow, decide_eq_true hhigh⟩

theorem payload_byte {n : Nat} (h : n < 64) : payload (byte (0x80 + n)) = n := by
  rw [payload, toNat_byte (by omega)]
  omega

/-- No shorter sequence and no surrogate is meant, so the second of three bytes is accepted. -/
theorem isSecondOfThree_byte {n : Nat} (h : n < 0x10000) (long : 0x800 ≤ n)
    (valid : n < 0xD800 ∨ 0xDFFF < n) :
    isSecondOfThree (byte (0xE0 + n / 4096)) (byte (0x80 + n / 64 % 64)) = true := by
  have hcontinuation := isContinuation_byte (n := n / 64 % 64) (by omega)
  have hE0 : byte (0xE0 + n / 4096) = 0xE0 ↔ 0xE0 + n / 4096 = 0xE0 :=
    byte_eq_byte (by omega) (by decide)
  have hED : byte (0xE0 + n / 4096) = 0xED ↔ 0xE0 + n / 4096 = 0xED :=
    byte_eq_byte (by omega) (by decide)
  have hA0 : 0xA0 ≤ byte (0x80 + n / 64 % 64) ↔ 0xA0 ≤ 0x80 + n / 64 % 64 :=
    byte_le_byte (by decide) (by omega)
  have h9F : byte (0x80 + n / 64 % 64) ≤ 0x9F ↔ 0x80 + n / 64 % 64 ≤ 0x9F :=
    byte_le_byte (by omega) (by decide)
  rw [isContinuation, Bool.and_eq_true, decide_eq_true_eq, decide_eq_true_eq] at hcontinuation
  unfold isSecondOfThree
  split
  case isTrue hlead =>
      rw [hE0] at hlead
      simp only [Bool.and_eq_true, decide_eq_true_eq]
      exact ⟨hA0.mpr (by omega), hcontinuation.2⟩
  case isFalse =>
      split
      case isTrue hlead =>
          rw [hED] at hlead
          simp only [Bool.and_eq_true, decide_eq_true_eq]
          exact ⟨hcontinuation.1, h9F.mpr (by omega)⟩
      case isFalse =>
          simp only [isContinuation, Bool.and_eq_true, decide_eq_true_eq]
          exact hcontinuation

/-- No shorter sequence and nothing above the last character is meant, so the second of four bytes
is accepted. -/
theorem isSecondOfFour_byte {n : Nat} (h : n < 0x110000) (long : 0x10000 ≤ n) :
    isSecondOfFour (byte (0xF0 + n / 262144)) (byte (0x80 + n / 4096 % 64)) = true := by
  have hcontinuation := isContinuation_byte (n := n / 4096 % 64) (by omega)
  have hF0 : byte (0xF0 + n / 262144) = 0xF0 ↔ 0xF0 + n / 262144 = 0xF0 :=
    byte_eq_byte (by omega) (by decide)
  have hF4 : byte (0xF0 + n / 262144) = 0xF4 ↔ 0xF0 + n / 262144 = 0xF4 :=
    byte_eq_byte (by omega) (by decide)
  have h90 : 0x90 ≤ byte (0x80 + n / 4096 % 64) ↔ 0x90 ≤ 0x80 + n / 4096 % 64 :=
    byte_le_byte (by decide) (by omega)
  have h8F : byte (0x80 + n / 4096 % 64) ≤ 0x8F ↔ 0x80 + n / 4096 % 64 ≤ 0x8F :=
    byte_le_byte (by omega) (by decide)
  rw [isContinuation, Bool.and_eq_true, decide_eq_true_eq, decide_eq_true_eq] at hcontinuation
  unfold isSecondOfFour
  split
  case isTrue hlead =>
      rw [hF0] at hlead
      simp only [Bool.and_eq_true, decide_eq_true_eq]
      exact ⟨h90.mpr (by omega), hcontinuation.2⟩
  case isFalse =>
      split
      case isTrue hlead =>
          rw [hF4] at hlead
          simp only [Bool.and_eq_true, decide_eq_true_eq]
          exact ⟨hcontinuation.1, h8F.mpr (by omega)⟩
      case isFalse =>
          simp only [isContinuation, Bool.and_eq_true, decide_eq_true_eq]
          exact hcontinuation

/-! ## Sequences -/

/-- Where a leading byte stands among the bounds that `piece` compares it with. -/
theorem byte_lead {n : Nat} (h : n < 256) :
    (byte n < 0x80 ↔ n < 0x80) ∧ ((0xC2 ≤ byte n && byte n ≤ 0xDF) = true ↔ 0xC2 ≤ n ∧ n ≤ 0xDF) ∧
      ((0xE0 ≤ byte n && byte n ≤ 0xEF) = true ↔ 0xE0 ≤ n ∧ n ≤ 0xEF) ∧
      ((0xF0 ≤ byte n && byte n ≤ 0xF4) = true ↔ 0xF0 ≤ n ∧ n ≤ 0xF4) := by
  simp only [Bool.and_eq_true, decide_eq_true_eq]
  refine ⟨byte_lt_byte h (by decide), and_congr ?_ ?_, and_congr ?_ ?_, and_congr ?_ ?_⟩
  all_goals first
    | exact byte_le_byte h (by decide)
    | exact byte_le_byte (by decide) h

theorem piece_encodeChar (c : Char) (rest : Bytes) :
    ∃ lead tail, encodeChar c ++ rest = lead :: tail ∧ piece lead tail = (some c, rest) := by
  have hself : Char.ofNat c.toNat = c := Char.ofNat_toNat c
  have hvalid : c.toNat < 0xD800 ∨ 0xDFFF < c.toNat ∧ c.toNat < 0x110000 := c.valid
  generalize hn : c.toNat = n at hself hvalid
  unfold encodeChar
  rw [hn]
  dsimp only
  by_cases h1 : n < 0x80
  · obtain ⟨hone, -⟩ := byte_lead (n := n) (by omega)
    refine ⟨byte n, rest, by simp [h1], ?_⟩
    unfold piece
    rw [if_pos (hone.mpr h1), toNat_byte (by omega), hself]
  by_cases h2 : n < 0x800
  · obtain ⟨hone, htwo, -⟩ := byte_lead (n := 0xC0 + n / 64) (by omega)
    refine ⟨byte (0xC0 + n / 64), byte (0x80 + n % 64) :: rest, by simp [h1, h2], ?_⟩
    have hchar : (0xC0 + n / 64) % 32 * 64 + n % 64 = n := by omega
    unfold piece
    rw [if_neg (by rw [hone]; omega), if_pos (htwo.mpr (by omega))]
    simp only [isContinuation_byte (n := n % 64) (by omega), if_true,
      payload_byte (n := n % 64) (by omega), toNat_byte (n := 0xC0 + n / 64) (by omega), hchar,
      hself]
  by_cases h3 : n < 0x10000
  · obtain ⟨hone, htwo, hthree, -⟩ := byte_lead (n := 0xE0 + n / 4096) (by omega)
    refine ⟨byte (0xE0 + n / 4096), byte (0x80 + n / 64 % 64) :: byte (0x80 + n % 64) :: rest,
      by simp [h1, h2, h3], ?_⟩
    have hchar : ((0xE0 + n / 4096) % 16 * 64 + n / 64 % 64) * 64 + n % 64 = n := by omega
    unfold piece
    rw [if_neg (by rw [hone]; omega), if_neg (by rw [htwo]; omega),
      if_pos (hthree.mpr (by omega))]
    simp only [isSecondOfThree_byte h3 (by omega) (by omega), if_true,
      isContinuation_byte (n := n % 64) (by omega), payload_byte (n := n % 64) (by omega),
      payload_byte (n := n / 64 % 64) (by omega), toNat_byte (n := 0xE0 + n / 4096) (by omega),
      hchar, hself]
  · obtain ⟨hone, htwo, hthree, hfour⟩ := byte_lead (n := 0xF0 + n / 262144) (by omega)
    refine ⟨byte (0xF0 + n / 262144), byte (0x80 + n / 4096 % 64) :: byte (0x80 + n / 64 % 64) ::
      byte (0x80 + n % 64) :: rest, by simp [h1, h2, h3], ?_⟩
    have hchar : (((0xF0 + n / 262144) % 8 * 64 + n / 4096 % 64) * 64 + n / 64 % 64) * 64 + n % 64 =
        n := by omega
    unfold piece
    rw [if_neg (by rw [hone]; omega), if_neg (by rw [htwo]; omega),
      if_neg (by rw [hthree]; omega), if_pos (hfour.mpr (by omega))]
    simp only [isSecondOfFour_byte (n := n) (by omega) (by omega), if_true,
      isContinuation_byte (n := n % 64) (by omega), payload_byte (n := n % 64) (by omega),
      isContinuation_byte (n := n / 64 % 64) (by omega), payload_byte (n := n / 64 % 64) (by omega),
      payload_byte (n := n / 4096 % 64) (by omega), toNat_byte (n := 0xF0 + n / 262144) (by omega),
      hchar, hself]

theorem pieces_encodeChar_append (c : Char) (rest : Bytes) :
    pieces (encodeChar c ++ rest) = some c :: pieces rest := by
  obtain ⟨lead, tail, hsplit, hpiece⟩ := piece_encodeChar c rest
  rw [hsplit, pieces, hpiece]

/-- A text is read back from its bytes. -/
theorem decode?_encode (s : String) : decode? (encode s) = some s := by
  have hpieces : ∀ cs : List Char, pieces (cs.flatMap encodeChar) = cs.map some := by
    intro cs
    induction cs with
    | nil => rw [List.flatMap_nil, pieces, List.map_nil]
    | cons c rest ih => rw [List.flatMap_cons, pieces_encodeChar_append, ih, List.map_cons]
  have hall : ∀ cs : List Char, (cs.map some).mapM id = some cs := by
    intro cs
    induction cs with
    | nil => rfl
    | cons c rest ih => simp [ih]
  rw [decode?, encode, hpieces, hall, Option.map_some, String.ofList_toList]

/-! ## The library's bytes -/

theorem encodeChar_eq (c : Char) : encodeChar c = String.utf8EncodeChar c := by
  have hvalid : c.toNat < 0xD800 ∨ 0xDFFF < c.toNat ∧ c.toNat < 0x110000 := c.valid
  have hnumber : c.val.toNat = c.toNat := rfl
  rw [encodeChar, String.utf8EncodeChar, hnumber]
  generalize c.toNat = n at hvalid
  have hone : n ≤ 0x7F ↔ n < 0x80 := Nat.lt_succ_iff.symm
  have htwo : n ≤ 0x7FF ↔ n < 0x800 := Nat.lt_succ_iff.symm
  have hthree : n ≤ 0xFFFF ↔ n < 0x10000 := Nat.lt_succ_iff.symm
  simp only [byte, hone, htwo, hthree, Nat.add_comm 0x80, Nat.add_comm 0xC0, Nat.add_comm 0xE0,
    Nat.add_comm 0xF0]
  split
  case isTrue => rfl
  case isFalse =>
      split
      case isTrue h2 => rw [Nat.mod_eq_of_lt (a := n / 64) (by omega)]
      case isFalse =>
          split
          case isTrue h3 => rw [Nat.mod_eq_of_lt (a := n / 4096) (by omega)]
          case isFalse => rw [Nat.mod_eq_of_lt (a := n / 262144) (by omega)]

/-- The bytes of a text are those that it is held in. -/
theorem encode_eq_toUTF8 (s : String) : encode s = s.toUTF8.data.toList := by
  have hchars : encodeChar = String.utf8EncodeChar := funext encodeChar_eq
  have hbytes : s.toUTF8 = s.toList.utf8Encode := by
    rw [← String.toByteArray_ofList, String.ofList_toList]
    rfl
  rw [encode, hchars, hbytes, List.utf8Encode]
  simp
/-! ## Zero -/

/-- Only the character NUL has a byte that is zero. -/
theorem zero_mem_encodeChar {c : Char} : 0 ∈ encodeChar c ↔ c = '\x00' := by
  have hzero : ∀ {n : Nat}, n < 256 → (0 = byte n ↔ n = 0) := by
    intro n hn
    rw [eq_comm, ← byte_eq_byte hn (by decide : 0 < 256)]
    rfl
  have hbound : c.toNat < 0x110000 := by
    have := c.valid
    simp only [UInt32.isValidChar, Nat.isValidChar] at this
    simp only [Char.toNat]
    omega
  have hchar : c = '\x00' ↔ c.toNat = 0 := by
    rw [← Char.toNat_inj]
    rfl
  rw [hchar]
  unfold encodeChar
  dsimp only
  by_cases h1 : c.toNat < 0x80
  · rw [if_pos h1, List.mem_singleton, hzero (by omega)]
  rw [if_neg h1]
  split
  case isTrue h2 =>
      simp (disch := omega) only [List.mem_cons, List.not_mem_nil, or_false, hzero]
      omega
  case isFalse h2 =>
      split
      all_goals
        simp (disch := omega) only [List.mem_cons, List.not_mem_nil, or_false, hzero]
        omega

theorem zero_mem_encode {s : String} : 0 ∈ encode s ↔ '\x00' ∈ s.toList := by
  simp only [encode, List.mem_flatMap, zero_mem_encodeChar]
  constructor
  · rintro ⟨c, hc, rfl⟩
    exact hc
  · intro h
    exact ⟨_, h, rfl⟩

end Testbed.Text.Utf8
