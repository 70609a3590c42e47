import Testbed.Environment.Scope
import Testbed.Proofs.Table

/-!
# What a scope restores

Variables may be set and removed directly while a scope is open.  When it is left, each variable
that it sets is what it was when the scope was entered, and so is each that it removes and that
existed then.  All other variables stay as they are found.  One that the scope only removes and that
did not exist is among these, so a value it was given inside the scope outlives the scope.
-/

namespace Testbed.Environment

/-- A direct change of one variable. -/
inductive Edit where
  | set (name value : String)
  | unset (name : String)

/-- Make a change; one that cannot be made changes nothing. -/
def edit (env : Environment) : Edit → Environment
  | .set name value => (env.set? name value).getD env
  | .unset name => (env.unset? name).getD env

/-- Make changes in order. -/
def editAll (env : Environment) (edits : List Edit) : Environment := edits.foldl edit env

/-- A scope is entered, changes are made inside it, and it is left: then every variable that it sets
or removes is what it was before. -/
def Restores (env : Environment) (removals : List String) (updates : List (String × String))
    (edits : List Edit) : Prop :=
  ∃ inside scope, env.enter removals updates = (inside, some scope) ∧
    ∀ name, name ∈ updates.map (·.1) ∨ name ∈ removals →
      ((inside.editAll edits).leave scope).get? name = env.get? name

variable {env inside : Environment} {removals : List String} {updates : List (String × String)}
  {scope : Scope}

/-! ## Entering -/

theorem isSome_set? (env : Environment) (name value : String) :
    (env.set? name value).isSome ↔ IsName name ∧ IsValue value := by
  simp [set?]

theorem isSome_unset? (env : Environment) (name : String) :
    (env.unset? name).isSome ↔ IsName name := by
  simp [unset?]

/-- All changes are made if each of them can be made in any environment. -/
theorem applyAll_snd {α : Type} {change : Environment → α → Option Environment} (can : α → Prop)
    (h : ∀ env x, (change env x).isSome ↔ can x) (env : Environment) (xs : List α) :
    (applyAll change env xs).2 = true ↔ ∀ x ∈ xs, can x := by
  induction xs generalizing env with
  | nil => simp [applyAll]
  | cons x rest ih =>
      rw [applyAll, List.forall_mem_cons, ← h env x]
      rcases change env x with - | env'
      · simp
      · simp [ih env']

/-- A scope is entered exactly if all its names and values can be used. -/
theorem enter_iff :
    (∃ inside scope, env.enter removals updates = (inside, some scope)) ↔
      (∀ update ∈ updates, IsName update.1 ∧ IsValue update.2) ∧
        ∀ name ∈ removals, IsName name := by
  rw [← applyAll_snd (fun update => IsName update.1 ∧ IsValue update.2)
    (fun env update => isSome_set? env update.1 update.2) env updates, enter]
  split
  case h_1 updated hupdated => simp [hupdated]
  case h_2 updated hupdated =>
      rw [← applyAll_snd IsName isSome_unset? updated removals]
      split
      case h_1 removed hremoved => simp [hremoved]
      case h_2 removed hremoved => simp [hupdated, hremoved]

/-- The scope remembers the environment in which it is entered. -/
theorem scope_of_enter (h : env.enter removals updates = (inside, some scope)) :
    scope = Scope.of env removals updates := by
  rw [enter] at h
  split at h
  · cases h
  · split at h
    · cases h
    · cases h
      rfl

/-! ## Leaving -/

theorem get?_eraseAll (env : Environment) (names : List String) (name : String) :
    (names.foldl Table.erase env).get? name = if name ∈ names then none else env.get? name := by
  induction names generalizing env with
  | nil => simp
  | cons first rest ih =>
      rw [List.foldl_cons, ih, Table.get?_erase]
      by_cases hrest : name ∈ rest
      · simp [hrest]
      · by_cases hfirst : name = first
        · simp [hfirst]
        · simp [hrest, hfirst]

theorem get?_leave (env : Environment) (scope : Scope) (name : String) :
    (env.leave scope).get? name =
      if name ∈ scope.added then none else (scope.restore.get? name).or (env.get? name) := by
  rw [leave, get?_eraseAll]
  congr 1
  exact Table.get?_merge env scope.restore name

/-- A variable that the scope sets, or that it removes and that existed, is what it was before.  Any
other is what it is found to be. -/
theorem get?_leave_of (env last : Environment) (removals : List String)
    (updates : List (String × String)) (name : String) :
    (last.leave (Scope.of env removals updates)).get? name =
      if name ∈ updates.map (·.1) ∨ name ∈ removals ∧ env.contains name = true then env.get? name
      else last.get? name := by
  rw [get?_leave, Scope.of, Table.get?_filter]
  rcases hget : env.get? name with - | value
  · have hnew : env.contains name = false := by
      rw [Bool.eq_false_iff, Ne, Table.contains_iff]
      simp [hget]
    by_cases hupdated : name ∈ updates.map (·.1)
    · have hadded : name ∈ (updates.map (·.1)).filter fun name => !env.contains name := by
        simp [hupdated, hnew]
      rw [if_pos hadded, if_pos (Or.inl hupdated)]
    · have hadded : name ∉ (updates.map (·.1)).filter fun name => !env.contains name :=
        fun h => hupdated (List.mem_filter.mp h).1
      rw [if_neg hadded, if_neg (by simp [hupdated, hnew])]
      rfl
  · have hold : env.contains name = true := Table.contains_iff.mpr ⟨value, hget⟩
    have hadded : name ∉ (updates.map (·.1)).filter fun name => !env.contains name := by
      simp [hold]
    rw [if_neg hadded]
    by_cases htouched : name ∈ updates.map (·.1) ++ removals
    · have hcontains : (updates.map (·.1) ++ removals).contains name = true := by
        simpa using htouched
      rw [if_pos (by simpa [hold] using htouched), Option.filter_some, if_pos hcontains]
      rfl
    · have hcontains : ¬(updates.map (·.1) ++ removals).contains name = true := by
        simpa using htouched
      rw [if_neg (by simpa [hold] using htouched), Option.filter_some, if_neg hcontains]
      rfl

/-- A scope is entered exactly if all its names and values can be used.  Whatever is changed inside
it, it restores every variable that it sets and every one that it removes and that existed, and
leaves all others as they are.  So it restores all variables it was given exactly if none that it
only removes, and that did not exist, has been given a value when it is left. -/
theorem leave_restores (env : Environment) (removals : List String)
    (updates : List (String × String)) :
    ((∃ inside scope, env.enter removals updates = (inside, some scope)) ↔
      (∀ update ∈ updates, IsName update.1 ∧ IsValue update.2) ∧
        ∀ name ∈ removals, IsName name) ∧
    ∀ inside scope, env.enter removals updates = (inside, some scope) → ∀ edits : List Edit,
      (∀ name, ((inside.editAll edits).leave scope).get? name =
        if name ∈ updates.map (·.1) ∨ name ∈ removals ∧ env.contains name = true
        then env.get? name else (inside.editAll edits).get? name) ∧
      (Restores env removals updates edits ↔
        ∀ name ∈ removals, name ∉ updates.map (·.1) → env.get? name = none →
          (inside.editAll edits).get? name = none) := by
  refine ⟨enter_iff, ?_⟩
  intro inside scope henter edits
  have hscope := scope_of_enter henter
  subst hscope
  have hleave := get?_leave_of env (inside.editAll edits) removals updates
  refine ⟨hleave, ?_⟩
  constructor
  · rintro ⟨inside', scope', henter', hrestored⟩ name hremoved hnot hnew
    obtain ⟨rfl, rfl⟩ : inside = inside' ∧ Scope.of env removals updates = scope' := by
      simpa [henter] using henter'
    have hname := hrestored name (Or.inr hremoved)
    have hcontains : ¬env.contains name = true := by
      rw [Table.contains_iff]
      simp [hnew]
    rwa [hleave, if_neg (by simp [hnot, hcontains]), hnew] at hname
  · intro hunset
    refine ⟨inside, _, henter, ?_⟩
    intro name hname
    rw [hleave]
    split
    case isTrue => rfl
    case isFalse hnot =>
        obtain ⟨hupdated, hgone⟩ := not_or.mp hnot
        have hremoved : name ∈ removals := hname.resolve_left hupdated
        have hnew : env.get? name = none := by
          rw [← Option.not_isSome_iff_eq_none, Option.isSome_iff_exists, ← Table.contains_iff]
          exact fun hcontains => hgone ⟨hremoved, hcontains⟩
        rw [hunset name hremoved hupdated hnew, hnew]

/-- Inside a scope that removes two variables and sets a third one twice, all are changed again. -/
theorem leave_restores_changed :
    let env : Environment := Table.ofList [("A", "0")]
    let removals := ["A", "B"]
    let updates := [("B", "1"), ("C", "2"), ("C", "3")]
    let edits : List Edit := [.set "A" "4", .unset "B", .set "C" "5", .set "D" "6"]
    ∃ inside scope, env.enter removals updates = (inside, some scope) ∧
      Restores env removals updates edits ∧
      ((inside.editAll edits).leave scope).get? "D" = some "6" := by
  intro env removals updates edits
  obtain ⟨hentered, hleft⟩ := leave_restores env removals updates
  obtain ⟨inside, scope, henter⟩ := hentered.mpr (by decide)
  obtain ⟨hget, hrestores⟩ := hleft inside scope henter edits
  refine ⟨inside, scope, henter, hrestores.mpr ?_, ?_⟩
  · intro name hremoved hupdated hnew
    rcases List.mem_cons.mp hremoved with rfl | hremoved
    · exact absurd hnew (by decide)
    · rw [List.mem_singleton.mp hremoved] at hupdated
      exact absurd hupdated (by decide)
  · rw [hget, if_neg (by decide)]
    have hinside : inside = (env.enter removals updates).1 := by rw [henter]
    rw [hinside]
    decide

/-- A variable that a scope removes, that did not exist, and that is set inside, outlives it. -/
theorem not_restores_set_inside : ¬Restores ∅ ["A"] [] [.set "A" "1"] := by
  rintro ⟨inside, scope, henter, hrestored⟩
  have houtlives := get?_leave_of ∅ (inside.editAll [.set "A" "1"]) ["A"] [] "A"
  rw [← scope_of_enter henter, hrestored "A" (Or.inr (List.mem_singleton_self "A")),
    if_neg (by decide)] at houtlives
  have hset : (inside.editAll [.set "A" "1"]).get? "A" = some "1" := by
    have hvalid : inside.set? "A" "1" = some (inside.insert "A" "1") := if_pos (by decide)
    rw [editAll, List.foldl_cons, List.foldl_nil, edit, hvalid]
    exact Table.get?_insert_self inside "A" "1"
  rw [hset] at houtlives
  cases houtlives

end Testbed.Environment
