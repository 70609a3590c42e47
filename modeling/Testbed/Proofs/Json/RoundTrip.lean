import Testbed.Json.Decode
import Testbed.Proofs.Json.Leaf
import Testbed.Proofs.Json.Value

/-!
# Documents are read back

A document whose numbers are integers of 64 bits is read back from its compact form, unless it is
nested too deep to be read.  The proof is by induction on the document, for any text that can follow
a value: a comma, a closing mark or the end.
-/

namespace Testbed.Json

open Reader

universe u

/-! ## What follows a value, and what it begins with -/

/-- The text can follow a value inside a document or at its end. -/
def EndsValue (rest : List Char) : Prop :=
  ∀ c ∈ rest.head?, c = ',' ∨ c = ']' ∨ c = '\x7d'

theorem endsValue_nil : EndsValue [] := by
  simp [EndsValue]

theorem endsValue_cons {c : Char} (h : c = ',' ∨ c = ']' ∨ c = '\x7d') (rest : List Char) :
    EndsValue (c :: rest) := by
  simpa [EndsValue] using h

theorem EndsValue.endsNumeral {rest : List Char} (h : EndsValue rest) : EndsNumeral rest := by
  intro c hc
  rcases h c hc with rfl | rfl | rfl <;> decide

/-- The first character of a value: it is not blank, and closes nothing. -/
def BeginsValue (c : Char) : Prop :=
  isBlank c = false ∧ c ≠ ']' ∧ c ≠ '\x7d'

theorem skipBlanks_cons {c : Char} (h : isBlank c = false) (rest : List Char) :
    skipBlanks (c :: rest) = c :: rest := by
  simp [skipBlanks, h]

theorem quotedText_cons (s : String) : ∃ cs, (quotedText s).toList = '"' :: cs := by
  refine ⟨(String.join (s.toList.map escapedChar) ++ "\"").toList, ?_⟩
  rw [quotedText, String.append_assoc, String.toList_append]
  rfl

theorem isBlank_of_isDigit {c : Char} (h : c.isDigit = true) : isBlank c = false := by
  have hne : ∀ d : Char, d.isDigit = false → c ≠ d := by
    rintro d hd rfl
    rw [h] at hd
    exact absurd hd (by decide)
  simp [isBlank, hne ' ' (by decide), hne '\t' (by decide), hne '\n' (by decide),
    hne '\r' (by decide)]

theorem beginsValue_of_int {c : Char} (h : c.isDigit = true ∨ c = '-') : BeginsValue c := by
  rcases h with h | rfl
  · refine ⟨isBlank_of_isDigit h, ?_, ?_⟩
    · rintro rfl
      exact absurd h (by decide)
    · rintro rfl
      exact absurd h (by decide)
  · exact ⟨by decide, by decide, by decide⟩

theorem compact_cons {j : Json} (h : j.Integral) :
    ∃ c cs, j.compact.toList = c :: cs ∧ BeginsValue c := by
  cases h with
  | null => exact ⟨'n', _, rfl, by decide, by decide, by decide⟩
  | bool b =>
      cases b
      · exact ⟨'f', _, rfl, by decide, by decide, by decide⟩
      · exact ⟨'t', _, rfl, by decide, by decide, by decide⟩
  | number n h =>
      obtain ⟨c, cs, hcons, hc⟩ := text_int_head n
      exact ⟨c, cs, hcons, beginsValue_of_int hc⟩
  | string s =>
      obtain ⟨cs, hcons⟩ := quotedText_cons s
      exact ⟨'"', cs, hcons, by decide, by decide, by decide⟩
  | array items h =>
      refine ⟨'[', (compactItems items ++ "]").toList, ?_, by decide, by decide, by decide⟩
      rw [compact, String.append_assoc, String.toList_append]
      rfl
  | object members h =>
      refine ⟨'\x7b', (compactMembers members ++ "\x7d").toList, ?_, by decide, by decide,
        by decide⟩
      rw [compact, String.append_assoc, String.toList_append]
      rfl

/-! ## Lists with commas -/

/-- Texts with commas between them. -/
def joined : List (List Char) → List Char
  | [] => []
  | [cs] => cs
  | cs :: rest => cs ++ ',' :: joined rest

theorem joined_cons_cons (cs next : List Char) (rest : List (List Char)) :
    joined (cs :: next :: rest) = cs ++ ',' :: joined (next :: rest) :=
  rfl

section Items

variable {α : Type u} {item : Reader α} {close : Char} {print : α → List Char}

/-- What is printed begins like a value, and is read back by a reader of items. -/
structure Prints (item : Reader α) (print : α → List Char) (a : α) : Prop where
  begins : ∃ c cs, print a = c :: cs ∧ BeginsValue c
  reads : ∀ rest, EndsValue rest → item (print a ++ rest) = some (a, rest)

theorem Prints.skipBlanks_append {a : α} (h : Prints item print a) (rest : List Char) :
    skipBlanks (print a ++ rest) = print a ++ rest := by
  obtain ⟨c, cs, hcons, hblank, -⟩ := h.begins
  rw [hcons, List.cons_append, skipBlanks_cons hblank]

theorem length_le_length_joined {xs : List α} (h : ∀ a ∈ xs, Prints item print a) :
    xs.length ≤ (joined (xs.map print)).length := by
  induction xs with
  | nil => simp
  | cons a rest ih =>
      have hrest := ih fun b hb => h b (List.mem_cons_of_mem a hb)
      obtain ⟨c, cs, hcons, -⟩ := (h a List.mem_cons_self).begins
      cases rest with
      | nil => simp [joined, hcons]
      | cons b others =>
          simp only [List.map_cons, joined_cons_cons, List.length_append, List.length_cons, hcons]
            at hrest ⊢
          omega

theorem itemsFrom_joined (hclose : close = ']' ∨ close = '\x7d') {xs : List α} (hne : xs ≠ [])
    (h : ∀ a ∈ xs, Prints item print a) {fuel : Nat} (hfuel : xs.length ≤ fuel)
    (rest : List Char) :
    itemsFrom item close fuel (joined (xs.map print) ++ close :: rest) = some (xs, rest) := by
  have hends : EndsValue (close :: rest) := endsValue_cons (Or.inr hclose) rest
  have hmark : isBlank close = false ∧ close ≠ ',' := by
    rcases hclose with rfl | rfl <;> exact ⟨by decide, by decide⟩
  induction xs generalizing fuel with
  | nil => exact absurd rfl hne
  | cons a others ih =>
      cases fuel with
      | zero => simp at hfuel
      | succ fuel =>
          have ha := h a List.mem_cons_self
          cases others with
          | nil =>
              simp only [List.map_cons, List.map_nil, joined, itemsFrom, ha.skipBlanks_append,
                ha.reads _ hends, skipBlanks_cons hmark.1, if_neg hmark.2, if_true]
          | cons b others =>
              have hcomma := ha.reads _
                (endsValue_cons (Or.inl rfl) (joined ((b :: others).map print) ++ close :: rest))
              have hothers := ih (by simp) (fun x hx => h x (List.mem_cons_of_mem a hx))
                (Nat.le_of_succ_le_succ hfuel)
              rw [List.map_cons, List.map_cons, joined_cons_cons, ← List.map_cons,
                List.append_assoc, List.cons_append]
              simp only [itemsFrom, ha.skipBlanks_append, hcomma,
                skipBlanks_cons (show isBlank ',' = false by decide), if_true, hothers,
                Option.map_some]

/-- Items are read back from their texts with commas between them. -/
theorem items_joined (hclose : close = ']' ∨ close = '\x7d') {xs : List α}
    (h : ∀ a ∈ xs, Prints item print a) (rest : List Char) :
    items item close (joined (xs.map print) ++ close :: rest) = some (xs, rest) := by
  have hmark : isBlank close = false := by
    rcases hclose with rfl | rfl <;> decide
  cases xs with
  | nil => simp [items, joined, skipBlanks_cons hmark]
  | cons a others =>
      have hlength := length_le_length_joined h
      obtain ⟨c, cs, hcons, hblank, hbracket, hbrace⟩ := (h a List.mem_cons_self).begins
      have hopen : c ≠ close := by
        rcases hclose with rfl | rfl
        · exact hbracket
        · exact hbrace
      obtain ⟨tail, htail⟩ :
          ∃ tail, joined ((a :: others).map print) ++ close :: rest = c :: tail := by
        cases others with
        | nil => exact ⟨cs ++ close :: rest, by simp [joined, hcons]⟩
        | cons b others =>
            exact ⟨cs ++ ',' :: joined ((b :: others).map print) ++ close :: rest,
              by simp [joined_cons_cons, hcons]⟩
      have hfuel : (a :: others).length ≤ (c :: tail).length + 1 := by
        rw [← htail, List.length_append]
        omega
      have hitems := itemsFrom_joined hclose (by simp) h hfuel rest
      rw [htail] at hitems ⊢
      simp only [items, skipBlanks_cons hblank, if_neg hopen, hitems]

end Items

/-! ## Documents -/

theorem compactItems_toList (items : List Json) :
    (compactItems items).toList = joined (items.map fun item => item.compact.toList) := by
  induction items with
  | nil => rfl
  | cons item rest ih =>
      cases rest with
      | nil => rfl
      | cons next others =>
          have hjoined : joined ((item :: next :: others).map fun item => item.compact.toList) =
              item.compact.toList ++ ',' :: (compactItems (next :: others)).toList := by
            rw [ih]
            rfl
          rw [hjoined]
          simp [compactItems]

/-- The text of a member. -/
def memberText (member : String × Json) : List Char :=
  (quotedText member.1).toList ++ ':' :: member.2.compact.toList

theorem compactMembers_toList (members : List (String × Json)) :
    (compactMembers members).toList = joined (members.map memberText) := by
  induction members with
  | nil => rfl
  | cons member rest ih =>
      obtain ⟨name, value⟩ := member
      cases rest with
      | nil => simp [compactMembers, joined, memberText]
      | cons next others =>
          have hjoined : joined (((name, value) :: next :: others).map memberText) =
              memberText (name, value) ++ ',' :: (compactMembers (next :: others)).toList := by
            rw [ih]
            rfl
          rw [hjoined]
          simp [compactMembers, memberText]

theorem value_scalar {leaves : Leaves} {levels : Nat} {c : Char} (hbracket : c ≠ '[')
    (hbrace : c ≠ '\x7b') (cs : List Char) :
    value leaves levels (c :: cs) = scalar leaves (c :: cs) := by
  rw [value]
  all_goals simp [hbracket, hbrace]

theorem value_array {leaves : Leaves} {levels : Nat} {xs : List Json} {rest : List Char}
    {cs : List Char} (h : items (value leaves levels) ']' cs = some (xs, rest)) :
    value leaves (levels + 1) ('[' :: cs) = some (.array xs, rest) := by
  simp [value, h]

theorem value_object {leaves : Leaves} {levels : Nat} {xs : List (String × Json)}
    {rest cs : List Char}
    (h : members leaves (fun _ => value leaves levels) cs = some (xs, rest)) :
    value leaves (levels + 1) ('\x7b' :: cs) = some (.object xs, rest) := by
  simp [value, h]

/-- A member is read back if its value is. -/
theorem prints_member {levels : Nat} {member : String × Json} (h : member.2.Integral)
    (ih : ∀ rest, EndsValue rest →
      value .exact levels (member.2.compact.toList ++ rest) = some (member.2, rest)) :
    Prints (Reader.member .exact fun _ => value .exact levels) memberText member where
  begins := by
    obtain ⟨cs, hcons⟩ := quotedText_cons member.1
    exact ⟨'"', cs ++ ':' :: member.2.compact.toList, by simp [memberText, hcons], by decide,
      by decide, by decide⟩
  reads := by
    intro rest hrest
    obtain ⟨c, cs, hcons, hblank, -⟩ := compact_cons h
    have hskip :
        skipBlanks (member.2.compact.toList ++ rest) = member.2.compact.toList ++ rest := by
      rw [hcons, List.cons_append, skipBlanks_cons hblank]
    rw [memberText, List.append_assoc, List.cons_append]
    simp only [Reader.member, text_quotedText, skipBlanks_cons (show isBlank ':' = false by decide),
      hskip, ih rest hrest, Option.map_some]

theorem value_bool_append (levels : Nat) (b : Bool) (rest : List Char) :
    value .exact levels ((Json.bool b).compact.toList ++ rest) = some (.bool b, rest) := by
  cases b with
  | false =>
      have hchars : (Json.bool false).compact.toList ++ rest = 'f' :: ("alse".toList ++ rest) := rfl
      rw [hchars, value_scalar (by decide) (by decide)]
      rfl
  | true =>
      have hchars : (Json.bool true).compact.toList ++ rest = 't' :: ("rue".toList ++ rest) := rfl
      rw [hchars, value_scalar (by decide) (by decide)]
      rfl

theorem value_int_append (levels : Nat) {n : Int} (h : IsInteger n) {rest : List Char}
    (hrest : EndsValue rest) :
    value .exact levels ((Json.number (.int n)).compact.toList ++ rest) =
      some (.number (.int n), rest) := by
  have hread := scalar_int h hrest.endsNumeral
  obtain ⟨c, cs, hcons, hc⟩ := text_int_head n
  have hbracket : c ≠ '[' := by
    rintro rfl
    exact absurd hc (by decide)
  have hbrace : c ≠ '\x7b' := by
    rintro rfl
    exact absurd hc (by decide)
  rw [compact]
  rw [hcons, List.cons_append] at hread ⊢
  rw [value_scalar hbracket hbrace, hread]

theorem value_string_append (levels : Nat) (s : String) (rest : List Char) :
    value .exact levels ((Json.string s).compact.toList ++ rest) = some (.string s, rest) := by
  have hread := text_quotedText s rest
  obtain ⟨cs, hcons⟩ := quotedText_cons s
  rw [compact]
  rw [hcons, List.cons_append] at hread ⊢
  rw [value_scalar (by decide) (by decide), scalar]
  simp [hread]

theorem value_array_append {levels : Nat} {items : List Json}
    (h : ∀ item ∈ items, Prints (value .exact levels) (fun item => item.compact.toList) item)
    (rest : List Char) :
    value .exact (levels + 1) ((Json.array items).compact.toList ++ rest) =
      some (.array items, rest) := by
  have hchars : (Json.array items).compact.toList ++ rest =
      '[' :: (joined (items.map fun item => item.compact.toList) ++ ']' :: rest) := by
    rw [← compactItems_toList]
    simp [compact]
  rw [hchars, value_array (items_joined (Or.inl rfl) h rest)]

theorem value_object_append {levels : Nat} {members : List (String × Json)}
    (h : ∀ member ∈ members,
      Prints (Reader.member .exact fun _ => value .exact levels) memberText member)
    (rest : List Char) :
    value .exact (levels + 1) ((Json.object members).compact.toList ++ rest) =
      some (.object members, rest) := by
  have hchars : (Json.object members).compact.toList ++ rest =
      '\x7b' :: (joined (members.map memberText) ++ '\x7d' :: rest) := by
    rw [← compactMembers_toList]
    simp [compact]
  rw [hchars, value_object (items_joined (Or.inr rfl) h rest)]

/-- A value is read back from its compact form, whatever can follow it. -/
theorem value_compact {j : Json} (h : j.Integral) {levels : Nat} (hdepth : j.depth ≤ levels)
    {rest : List Char} (hrest : EndsValue rest) :
    value .exact levels (j.compact.toList ++ rest) = some (j, rest) := by
  induction h generalizing levels rest with
  | null =>
      have hnull : Json.null.compact.toList ++ rest = 'n' :: ("ull".toList ++ rest) := rfl
      rw [hnull, value_scalar (by decide) (by decide)]
      rfl
  | bool b => exact value_bool_append levels b rest
  | number n h => exact value_int_append levels h hrest
  | string s => exact value_string_append levels s rest
  | array items hitems ih =>
      cases levels with
      | zero => simp [depth] at hdepth
      | succ levels =>
          -- The items are one level less deep, and what follows an item ends it.
          rw [depth_array_le] at hdepth
          apply value_array_append
          intro item hitem
          exact ⟨compact_cons (hitems item hitem),
            fun rest hrest => ih item hitem (hdepth item hitem) hrest⟩
  | object members hmembers ih =>
      cases levels with
      | zero => simp [depth] at hdepth
      | succ levels =>
          rw [depth_object_le] at hdepth
          apply value_object_append
          intro member hmember
          exact prints_member (hmembers member hmember)
            fun rest hrest => ih member hmember (hdepth member hmember) hrest

/-- A document of integers is read back from its compact form. -/
theorem read?_compact {j : Json} (h : j.Integral) (hdepth : j.depth ≤ levelLimit) :
    read? j.compact = some j := by
  have hread := value_compact h hdepth endsValue_nil
  obtain ⟨c, cs, hcons, hblank, -⟩ := compact_cons h
  rw [List.append_nil] at hread
  have hskip : skipBlanks j.compact.toList = j.compact.toList := by
    rw [hcons, skipBlanks_cons hblank]
  rw [read?, document, hskip, hread]
  rfl

/-- Whatever decodes a document decodes its text. -/
theorem decodeText?_compact {α : Type} {decode : Decoder α} {j : Json} (h : j.Integral)
    (hdepth : j.depth ≤ levelLimit) : decodeText? decode j.compact = decode j := by
  rw [decodeText?, read?_compact h hdepth, Option.bind_some]

end Testbed.Json
