import Testbed.Json.Printer
import Testbed.Json.Reader

/-!
# Texts and integers are read back

A text is read back from its quoted form, and an integer of 64 bits from its digits, whatever
follows them; after digits it must be something that no numeral goes on with.
-/

namespace Testbed.Json

open Reader

/-! ## Texts -/

/-- The escapes of control characters: by code point, or by one of the letters that are tried. -/
theorem escapedChar_control : ∀ n < 0x20,
    (escapedChar (Char.ofNat n)).toList =
        ['\\', 'u', '0', '0', Nat.digitChar (n / 16), Nat.digitChar (n % 16)] ∧
      hex4? '0' '0' (Nat.digitChar (n / 16)) (Nat.digitChar (n % 16)) = some n ∨
    ['b', 'f', 'n', 'r', 't'].any fun c =>
      (escapedChar (Char.ofNat n)).toList = ['\\', c] ∧ simpleEscape? c = some (Char.ofNat n) := by
  decide

/-- What stands for a character in a text is the character itself, or a backslash and an escape that
denotes it. -/
theorem escapedChar_cases (c : Char) :
    (c ≠ '"' ∧ c ≠ '\\' ∧ 0x20 ≤ c.toNat ∧ (escapedChar c).toList = [c]) ∨
    (∃ letter, letter ≠ 'u' ∧ (escapedChar c).toList = ['\\', letter] ∧
      simpleEscape? letter = some c) ∨
    (∃ x y, (escapedChar c).toList = ['\\', 'u', '0', '0', x, y] ∧
      hex4? '0' '0' x y = some c.toNat ∧ c.toNat < 0x20) := by
  by_cases hquote : c = '"'
  · subst hquote
    exact Or.inr (Or.inl ⟨'"', by decide, rfl, rfl⟩)
  by_cases hbackslash : c = '\\'
  · subst hbackslash
    exact Or.inr (Or.inl ⟨'\\', by decide, rfl, rfl⟩)
  by_cases hcontrol : c.toNat < 0x20
  · have hself : Char.ofNat c.toNat = c := Char.ofNat_toNat c
    rcases escapedChar_control c.toNat hcontrol with hhex | hany
    · rw [hself] at hhex
      exact Or.inr (Or.inr ⟨_, _, hhex.1, hhex.2, hcontrol⟩)
    · obtain ⟨letter, hletter, hfound⟩ := List.any_eq_true.mp hany
      rw [hself] at hfound
      obtain ⟨hescaped, hsimple⟩ := of_decide_eq_true hfound
      refine Or.inr (Or.inl ⟨letter, ?_, hescaped, hsimple⟩)
      rintro rfl
      simp at hletter
  · refine Or.inl ⟨hquote, hbackslash, Nat.le_of_not_lt hcontrol, ?_⟩
    have hne : ∀ d : Char, d.toNat < 0x20 → c ≠ d := by
      rintro d hd rfl
      exact hcontrol hd
    unfold escapedChar
    rw [if_neg hquote, if_neg hbackslash, if_neg (hne _ (by decide)), if_neg (hne _ (by decide)),
      if_neg (hne _ (by decide)), if_neg (hne _ (by decide)), if_neg (hne _ (by decide)),
      if_neg (by omega), if_neg hcontrol]
    simp [Char.toString]

theorem escape?_letter {letter : Char} (h : letter ≠ 'u') (rest : List Char) :
    escape? (letter :: rest) =
      (simpleEscape? letter).map fun c => (c, ⟨rest, Nat.lt_succ_self rest.length⟩) := by
  rw [escape?]
  intro _ _ _ _ _ hu _
  exact h hu

theorem escape?_code {a b c d : Char} {n : Nat} (h : hex4? a b c d = some n) (control : n < 0x20)
    (rest : List Char) :
    escape? ('u' :: a :: b :: c :: d :: rest) =
      some (Char.ofNat n, ⟨rest, Nat.lt_add_of_pos_right (Nat.zero_lt_succ 4)⟩) := by
  have hlow : isLowSurrogate n = false := by
    simp [isLowSurrogate]
    omega
  have hhigh : isHighSurrogate n = false := by
    simp [isHighSurrogate]
    omega
  rw [escape?]
  simp only [h, hlow, hhigh]
  rfl

theorem textBody_escapedChar (c : Char) (rest : List Char) :
    textBody .exact ((escapedChar c).toList ++ rest) =
      (textBody .exact rest).map fun r => (c :: r.1, r.2) := by
  rcases escapedChar_cases c with ⟨hquote, hbackslash, hprintable, heq⟩ |
    ⟨letter, hletter, heq, hsimple⟩ | ⟨x, y, heq, hhex, hcontrol⟩
  · rw [heq, List.singleton_append, textBody, if_neg hquote, if_neg hbackslash,
      if_neg (Nat.not_lt.mpr hprintable)]
  · have hescape : Leaves.exact.escape (letter :: rest) = some (c, ⟨rest, by simp⟩) := by
      simp [Leaves.exact, escape?_letter hletter, hsimple]
    rw [heq, List.cons_append, List.singleton_append, textBody, if_neg (by decide),
      if_pos rfl, hescape]
  · have hescape : Leaves.exact.escape ('u' :: '0' :: '0' :: x :: y :: rest) =
        some (c, ⟨rest, by simp; omega⟩) := by
      simp [Leaves.exact, escape?_code hhex hcontrol]
    rw [heq]
    simp only [List.cons_append, List.nil_append]
    rw [textBody, if_neg (by decide), if_pos rfl, hescape]

/-- A text is read back from its quoted form. -/
theorem text_quotedText (s : String) (rest : List Char) :
    text .exact ((quotedText s).toList ++ rest) = some (s, rest) := by
  have hbody : ∀ cs : List Char,
      textBody .exact (cs.flatMap (fun c => (escapedChar c).toList) ++ '"' :: rest) =
        some (cs, rest) := by
    intro cs
    induction cs with
    | nil => rw [List.flatMap_nil, List.nil_append, textBody, if_pos rfl]
    | cons c cs ih =>
        rw [List.flatMap_cons, List.append_assoc, textBody_escapedChar, ih, Option.map_some]
  have hchars : (quotedText s).toList ++ rest =
      '"' :: (s.toList.flatMap (fun c => (escapedChar c).toList) ++ '"' :: rest) := by
    simp [quotedText, String.toList_append, String.toList_join, List.flatMap_map]
  rw [hchars, text, hbody, Option.map_some, String.ofList_toList]

/-! ## Integers -/

/-- No numeral goes on with the text. -/
def EndsNumeral (rest : List Char) : Prop :=
  ∀ c ∈ rest.head?, c.isDigit = false ∧ c ≠ '.' ∧ c ≠ 'e' ∧ c ≠ 'E'

theorem digits_append {ds rest : List Char} (hdigits : ∀ c ∈ ds, c.isDigit = true)
    (hne : ds ≠ []) (hrest : EndsNumeral rest) : digits (ds ++ rest) = some (ds, rest) := by
  have htake : rest.takeWhile Char.isDigit = [] := by
    cases rest with
    | nil => rfl
    | cons c cs => simp [(hrest c rfl).1]
  have hdrop : rest.dropWhile Char.isDigit = rest := by
    cases rest with
    | nil => rfl
    | cons c cs => simp [(hrest c rfl).1]
  unfold digits
  rw [List.takeWhile_append_of_pos hdigits, List.dropWhile_append_of_pos hdigits, htake, hdrop,
    List.append_nil]
  simp [hne]

theorem toDigits_ne_zero_cons {n : Nat} (h : 0 < n) :
    ∃ c cs, Nat.toDigits 10 n = c :: cs ∧ c ≠ '0' := by
  induction n using Nat.strongRecOn with
  | ind n ih =>
      rw [Nat.toDigits_eq_if (by decide)]
      split
      case isTrue hlt =>
          have hchar : ∀ d : Fin 10, 0 < d.val → Nat.digitChar d ≠ '0' := by decide
          exact ⟨n.digitChar, [], rfl, hchar ⟨n, hlt⟩ h⟩
      case isFalse hge =>
          obtain ⟨c, cs, heq, hc⟩ := ih (n / 10) (by omega) (by omega)
          exact ⟨c, cs ++ [(n % 10).digitChar], by rw [heq]; rfl, hc⟩

theorem wholeDigits_append {n : Nat} {rest : List Char} (hrest : EndsNumeral rest) :
    wholeDigits (Nat.toDigits 10 n ++ rest) = some (Nat.toDigits 10 n, rest) := by
  rcases Nat.eq_zero_or_pos n with rfl | hpos
  · rw [Nat.toDigits_zero, List.singleton_append]
    cases rest with
    | nil => rfl
    | cons c cs => simp [wholeDigits, (hrest c rfl).1]
  · obtain ⟨c, cs, heq, hc⟩ := toDigits_ne_zero_cons hpos
    have hdigits : ∀ d ∈ c :: cs, d.isDigit = true := by
      intro d hd
      rw [← heq] at hd
      exact Nat.isDigit_of_mem_toDigits (by decide) (by decide) hd
    have hread := digits_append hdigits (by simp) hrest
    rw [heq, List.cons_append, wholeDigits]
    · exact hread
    · intro tail hzero
      rw [List.cons.injEq] at hzero
      exact hc hzero.1

theorem le_ofDigitChars (ds : List Char) (word : Nat) : word ≤ Nat.ofDigitChars 10 ds word := by
  induction ds generalizing word with
  | nil => simp
  | cons c cs ih =>
      rw [Nat.ofDigitChars_cons]
      have hrest := ih (10 * word + (c.toNat - '0'.toNat))
      omega

/-- Digits whose number fits into a word are all gathered. -/
theorem gather_eq {ds : List Char} {word taken : Nat}
    (h : Nat.ofDigitChars 10 ds word ≤ Numeral.greatestWord) :
    Numeral.gather word taken ds = (Nat.ofDigitChars 10 ds word, taken + ds.length, []) := by
  induction ds generalizing word taken with
  | nil => simp [Numeral.gather]
  | cons c cs ih =>
      rw [Nat.ofDigitChars_cons] at h
      have hfits := Nat.le_trans (le_ofDigitChars cs _) h
      rw [Numeral.gather]
      simp only [hfits, if_true]
      rw [ih h, Nat.ofDigitChars_cons, List.length_cons, Nat.add_assoc, Nat.add_comm 1]

theorem fraction_append {rest : List Char} (hrest : EndsNumeral rest) :
    fraction rest = some (none, rest) := by
  cases rest with
  | nil => rfl
  | cons c cs =>
      rw [fraction]
      intro tail hpoint
      rw [List.cons.injEq] at hpoint
      exact (hrest c rfl).2.1 hpoint.1

theorem exponent_append {rest : List Char} (hrest : EndsNumeral rest) :
    exponent rest = some (none, rest) := by
  cases rest with
  | nil => rfl
  | cons c cs =>
      obtain ⟨-, -, hlower, hupper⟩ := hrest c rfl
      simp [exponent, hlower, hupper]

theorem numeral_digits {n : Nat} {rest : List Char} (hrest : EndsNumeral rest) :
    numeral (Nat.toDigits 10 n ++ rest) = some (⟨false, Nat.toDigits 10 n, none, none⟩, rest) := by
  obtain ⟨c, cs, hcons⟩ := List.exists_cons_of_ne_nil (Nat.toDigits_ne_nil (n := n) (b := 10))
  have hsign : c ≠ '-' := by
    rintro rfl
    have hdigit : '-'.isDigit = true :=
      Nat.isDigit_of_mem_toDigits (b := 10) (n := n) (by decide) (by decide) (by simp [hcons])
    exact absurd hdigit (by decide)
  have hwhole := wholeDigits_append (n := n) hrest
  rw [hcons, List.cons_append] at hwhole ⊢
  simp [numeral, hsign, hwhole, fraction_append hrest, exponent_append hrest]

theorem numeral_negative {n : Nat} {rest : List Char} (hrest : EndsNumeral rest) :
    numeral ('-' :: (Nat.toDigits 10 n ++ rest)) =
      some (⟨true, Nat.toDigits 10 n, none, none⟩, rest) := by
  simp [numeral, wholeDigits_append hrest, fraction_append hrest, exponent_append hrest]

/-- The digits of a number that fits into a word denote it. -/
theorem number?_digits {n : Nat} (h : n < 2 ^ 64) :
    Numeral.number? ⟨false, Nat.toDigits 10 n, none, none⟩ = some (.int n) := by
  have hgather : Numeral.gather 0 0 (Nat.toDigits 10 n) = (n, (Nat.toDigits 10 n).length, []) := by
    rw [gather_eq, Nat.ofDigitChars_ten_toDigits, Nat.zero_add]
    rw [Nat.ofDigitChars_ten_toDigits, Numeral.greatestWord]
    omega
  simp [Numeral.number?, hgather]

theorem number?_negative {n : Nat} (hpos : 0 < n) (h : n ≤ 2 ^ 63) :
    Numeral.number? ⟨true, Nat.toDigits 10 n, none, none⟩ = some (.int (-(n : Int))) := by
  have hgather : Numeral.gather 0 0 (Nat.toDigits 10 n) = (n, (Nat.toDigits 10 n).length, []) := by
    rw [gather_eq, Nat.ofDigitChars_ten_toDigits, Nat.zero_add]
    rw [Nat.ofDigitChars_ten_toDigits, Numeral.greatestWord]
    omega
  have hword : (decide (0 < n) && decide (n ≤ 2 ^ 63)) = true :=
    Bool.and_eq_true_iff.mpr ⟨decide_eq_true hpos, decide_eq_true h⟩
  unfold Numeral.number?
  rw [hgather]
  exact if_pos hword

/-- The text of an integer begins with a digit or with a sign. -/
theorem text_int_head (n : Int) :
    ∃ c cs, (Number.int n).text.toList = c :: cs ∧ (c.isDigit = true ∨ c = '-') := by
  cases n with
  | ofNat m =>
      obtain ⟨c, cs, hcons⟩ := List.exists_cons_of_ne_nil (Nat.toDigits_ne_nil (n := m) (b := 10))
      refine ⟨c, cs, ?_, Or.inl ?_⟩
      · exact Nat.toList_repr.trans hcons
      · have hmem : c ∈ Nat.toDigits 10 m := by simp [hcons]
        exact Nat.isDigit_of_mem_toDigits (by decide) (by decide) hmem
  | negSucc m =>
      refine ⟨'-', Nat.toDigits 10 (m + 1), ?_, Or.inr rfl⟩
      rw [← Nat.toList_repr]
      exact String.toList_append

/-- A number is read back from the text of an integer. -/
theorem scalar_int {n : Int} (h : IsInteger n) {rest : List Char} (hrest : EndsNumeral rest) :
    scalar .exact ((Number.int n).text.toList ++ rest) = some (.number (.int n), rest) := by
  have hnumeral : ∃ numeral', numeral ((Number.int n).text.toList ++ rest) = some (numeral', rest) ∧
      Numeral.number? numeral' = some (.int n) := by
    cases n with
    | ofNat m =>
        have htext : (Number.int (Int.ofNat m)).text.toList = Nat.toDigits 10 m := Nat.toList_repr
        have hbound : m < 2 ^ 64 := by
          have hlt := h.2
          rw [Int.ofNat_eq_natCast] at hlt
          omega
        rw [htext]
        exact ⟨_, numeral_digits hrest, number?_digits hbound⟩
    | negSucc m =>
        have htext : (Number.int (Int.negSucc m)).text.toList = '-' :: Nat.toDigits 10 (m + 1) := by
          rw [← Nat.toList_repr]
          exact String.toList_append
        have hbound : m + 1 ≤ 2 ^ 63 := by
          have hle := h.1
          rw [Int.negSucc_eq] at hle
          omega
        rw [htext, List.cons_append]
        exact ⟨_, numeral_negative hrest, number?_negative (Nat.succ_pos m) hbound⟩
  obtain ⟨numeral', hread, hvalue⟩ := hnumeral
  obtain ⟨c, cs, hcons, hc⟩ := text_int_head n
  have hne : ∀ d : Char, d.isDigit = false → d ≠ '-' → c ≠ d := by
    rintro d hdigit hminus rfl
    rcases hc with hc | hc
    · rw [hdigit] at hc
      exact absurd hc (by decide)
    · exact hminus hc
  rw [hcons, List.cons_append] at hread ⊢
  unfold scalar
  dsimp only
  rw [if_neg (hne _ (by decide) (by decide)), if_neg (hne _ (by decide) (by decide)),
    if_neg (hne _ (by decide) (by decide)), if_neg (hne _ (by decide) (by decide)), hread]
  simp [Leaves.exact, hvalue]

end Testbed.Json
