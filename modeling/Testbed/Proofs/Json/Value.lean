import Testbed.Json.Basic
import Testbed.Proofs.Table

/-!
# Values of documents

What holds of the items of an array and of the members of an object carries over to the document:
`Json.induct` is the induction that says so.  A document is `Integral` if all its numbers are
integers of 64 bits, and `Settled` if it is a value already: no object repeats a name, and all
list their members in order.  Settling makes a document settled, no deeper, and as integral as it
was.
-/

namespace Testbed.Json

/-! ## Induction -/

/-- Induction on documents. -/
@[elab_as_elim]
theorem induct {motive : Json → Prop} (null : motive .null) (bool : ∀ b, motive (.bool b))
    (number : ∀ n, motive (.number n)) (string : ∀ s, motive (.string s))
    (array : ∀ items, (∀ item ∈ items, motive item) → motive (.array items))
    (object : ∀ members, (∀ member ∈ members, motive member.2) → motive (.object members))
    (j : Json) : motive j :=
  Json.rec (motive_1 := motive) (motive_2 := fun items => ∀ item ∈ items, motive item)
    (motive_3 := fun members => ∀ member ∈ members, motive member.2)
    (motive_4 := fun member => motive member.2)
    null bool number string array object (by simp) (by simp_all) (by simp) (by simp_all)
    (fun _ _ h => h) j

/-! ## Nesting -/

theorem depthItems_le {items : List Json} {levels : Nat} :
    depthItems items ≤ levels ↔ ∀ item ∈ items, item.depth ≤ levels := by
  induction items with
  | nil => simp [depthItems]
  | cons item rest ih => simp only [depthItems, Nat.max_le, ih, List.forall_mem_cons]

theorem depthMembers_le {members : List (String × Json)} {levels : Nat} :
    depthMembers members ≤ levels ↔ ∀ member ∈ members, member.2.depth ≤ levels := by
  induction members with
  | nil => simp [depthMembers]
  | cons member rest ih => simp only [depthMembers, Nat.max_le, ih, List.forall_mem_cons]

theorem depth_array_le {items : List Json} {levels : Nat} :
    (array items).depth ≤ levels + 1 ↔ ∀ item ∈ items, item.depth ≤ levels := by
  rw [depth, Nat.succ_le_succ_iff, depthItems_le]

theorem depth_object_le {members : List (String × Json)} {levels : Nat} :
    (object members).depth ≤ levels + 1 ↔ ∀ member ∈ members, member.2.depth ≤ levels := by
  rw [depth, Nat.succ_le_succ_iff, depthMembers_le]

/-! ## Settled documents -/

theorem settleItems_eq_map (items : List Json) : settleItems items = items.map settle := by
  induction items with
  | nil => rfl
  | cons item rest ih => rw [settleItems, ih, List.map_cons]

theorem settleMembers_ascending (members : List (String × Json)) :
    (settleMembers members).Pairwise fun a b => a.1 < b.1 := by
  induction members with
  | nil => simp [settleMembers]
  | cons member rest ih =>
      rw [settleMembers]
      split
      case isTrue => exact ih
      case isFalse => exact Table.pairwise_insertEntry _ _ ih

theorem mem_settleMembers {members : List (String × Json)} {member : String × Json}
    (h : member ∈ settleMembers members) :
    ∃ original ∈ members, member = (original.1, original.2.settle) := by
  induction members with
  | nil => simp [settleMembers] at h
  | cons first rest ih =>
      have later : member ∈ settleMembers rest →
          ∃ original ∈ first :: rest, member = (original.1, original.2.settle) := by
        intro hmem
        obtain ⟨original, horiginal, heq⟩ := ih hmem
        exact ⟨original, List.mem_cons_of_mem first horiginal, heq⟩
      rw [settleMembers] at h
      split at h
      case isTrue => exact later h
      case isFalse =>
          rcases Table.mem_insertEntry h with heq | hmem
          · exact ⟨first, List.mem_cons_self, heq⟩
          · exact later hmem

/-- Members that stand in order are left where they are. -/
theorem settleMembers_of_ascending {members : List (String × Json)}
    (ascending : members.Pairwise fun a b => a.1 < b.1) :
    settleMembers members = members.map fun member => (member.1, member.2.settle) := by
  induction members with
  | nil => rfl
  | cons member rest ih =>
      rw [List.pairwise_cons] at ascending
      have hfirst : ∀ later ∈ settleMembers rest, member.1 < later.1 := by
        intro later hlater
        obtain ⟨original, horiginal, rfl⟩ := mem_settleMembers hlater
        exact ascending.1 original horiginal
      have hnew : (settleMembers rest).any (·.1 == member.1) = false := by
        rw [List.any_eq_false]
        intro later hlater hname
        rw [beq_iff_eq] at hname
        exact String.lt_irrefl member.1 (hname ▸ hfirst later hlater)
      rw [List.map_cons, ← ih ascending.2, settleMembers, hnew, if_neg (by simp)]
      rcases hrest : settleMembers rest with _ | ⟨later, others⟩
      · rfl
      · have hlt := hfirst later (by simp [hrest])
        rw [Table.insertEntry, if_pos hlt]

/-- A document that is its own value. -/
def Settled (j : Json) : Prop := j.settle = j

theorem settled_settle (j : Json) : j.settle.Settled := by
  induction j using induct with
  | null | bool | number | string => rfl
  | array items ih =>
      have hitems : (items.map settle).map settle = items.map settle := by
        rw [List.map_map]
        exact List.map_congr_left ih
      rw [Settled, settle, settle, settleItems_eq_map, settleItems_eq_map, hitems]
  | object members ih =>
      rw [Settled, settle, settle, settleMembers_of_ascending (settleMembers_ascending members)]
      congr 1
      refine (List.map_congr_left ?_).trans (List.map_id _)
      intro member hmember
      obtain ⟨original, horiginal, rfl⟩ := mem_settleMembers hmember
      exact Prod.ext rfl (ih original horiginal)

theorem depth_settle_le {j : Json} {levels : Nat} (h : j.depth ≤ levels) :
    j.settle.depth ≤ levels := by
  induction j using induct generalizing levels with
  | null | bool | number | string => exact h
  | array items ih =>
      cases levels with
      | zero => simp [depth] at h
      | succ levels =>
          rw [depth_array_le] at h
          rw [settle, settleItems_eq_map, depth_array_le]
          intro item hitem
          obtain ⟨original, horiginal, rfl⟩ := List.mem_map.mp hitem
          exact ih original horiginal (h original horiginal)
  | object members ih =>
      cases levels with
      | zero => simp [depth] at h
      | succ levels =>
          rw [depth_object_le] at h
          rw [settle, depth_object_le]
          intro member hmember
          obtain ⟨original, horiginal, rfl⟩ := mem_settleMembers hmember
          exact ih original horiginal (h original horiginal)

/-! ## Documents of integers -/

/-- All numbers of a document are integers of 64 bits. -/
inductive Integral : Json → Prop
  | null : Integral .null
  | bool (b : Bool) : Integral (.bool b)
  | number (n : Int) (h : IsInteger n) : Integral (.number (.int n))
  | string (s : String) : Integral (.string s)
  | array (items : List Json) (h : ∀ item ∈ items, Integral item) : Integral (.array items)
  | object (members : List (String × Json)) (h : ∀ member ∈ members, Integral member.2) :
      Integral (.object members)

theorem integral_array {items : List Json} :
    (array items).Integral ↔ ∀ item ∈ items, item.Integral := by
  refine ⟨?_, .array items⟩
  rintro (_ | _ | _ | _ | ⟨_, h⟩)
  exact h

theorem integral_object {members : List (String × Json)} :
    (object members).Integral ↔ ∀ member ∈ members, member.2.Integral := by
  refine ⟨?_, .object members⟩
  rintro (_ | _ | _ | _ | _ | ⟨_, h⟩)
  exact h

mutual

instance decidableIntegral : DecidablePred Integral
  | .null => .isTrue .null
  | .bool b => .isTrue (.bool b)
  | .number (.int n) => decidable_of_iff (IsInteger n) ⟨.number n, fun | .number _ h => h⟩
  | .number (.float _) => .isFalse nofun
  | .string s => .isTrue (.string s)
  | .array items =>
    have := decidableIntegralItems items
    decidable_of_iff _ integral_array.symm
  | .object members =>
    have := decidableIntegralMembers members
    decidable_of_iff _ integral_object.symm

/-- The items of an array are decided one by one. -/
def decidableIntegralItems : ∀ items : List Json, Decidable (∀ item ∈ items, item.Integral)
  | [] => .isTrue nofun
  | item :: rest =>
    have := decidableIntegral item
    have := decidableIntegralItems rest
    decidable_of_iff _ List.forall_mem_cons.symm

/-- The members of an object are decided one by one. -/
def decidableIntegralMembers :
    ∀ members : List (String × Json), Decidable (∀ member ∈ members, member.2.Integral)
  | [] => .isTrue nofun
  | (_, value) :: rest =>
    have := decidableIntegral value
    have := decidableIntegralMembers rest
    decidable_of_iff _ List.forall_mem_cons.symm

end

theorem integral_ofStrings (texts : List String) : (ofStrings texts).Integral := by
  apply Integral.array
  intro item hitem
  obtain ⟨s, -, rfl⟩ := List.mem_map.mp hitem
  exact .string s

end Testbed.Json
