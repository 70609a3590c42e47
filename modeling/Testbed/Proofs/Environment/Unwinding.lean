import Mathlib.Data.List.Find
import Mathlib.Data.List.Induction
import Testbed.Environment.Session
import Testbed.Proofs.Environment.Restore

/-!
# Nested scopes unwind

Scopes are entered inside one another and left newest first, and in between variables are changed
that a scope still open puts back.  When all scopes have been left, the environment is the one of
the beginning.

The invariant is about the variables that no open scope puts back: they have their first values now,
and each open scope found those of the scopes around it with their first values when it was entered.
An inner scope may therefore remember values that outer ones have changed.
-/

namespace Testbed.Environment

/-! ## Entering -/

/-- All names and values of a scope can be used. -/
def Usable (removals : List String) (updates : List (String × String)) : Prop :=
  (∀ update ∈ updates, IsName update.1 ∧ IsValue update.2) ∧ ∀ name ∈ removals, IsName name

instance (removals : List String) (updates : List (String × String)) :
    Decidable (Usable removals updates) :=
  inferInstanceAs (Decidable (_ ∧ _))

theorem applyAll_eq_foldl {α : Type} {change : Environment → α → Option Environment}
    {f : Environment → α → Environment} {xs : List α}
    (h : ∀ x ∈ xs, ∀ env, change env x = some (f env x)) (env : Environment) :
    applyAll change env xs = (xs.foldl f env, true) := by
  induction xs generalizing env with
  | nil => rfl
  | cons x rest ih =>
      rw [applyAll, h x List.mem_cons_self env, List.foldl_cons]
      exact ih (fun y hy => h y (List.mem_cons_of_mem x hy)) (f env x)

/-- A scope makes its updates from left to right, and then all its removals. -/
theorem enter_of_usable {removals : List String} {updates : List (String × String)}
    (h : Usable removals updates) (env : Environment) :
    env.enter removals updates =
      (removals.foldl Table.erase (env.insertAll updates), some (.of env removals updates)) := by
  have hset : applyAll (fun env update => env.set? update.1 update.2) env updates =
      (env.insertAll updates, true) :=
    applyAll_eq_foldl (fun update hupdate env => if_pos (h.1 update hupdate)) env
  have hunset : applyAll unset? (env.insertAll updates) removals =
      (removals.foldl Table.erase (env.insertAll updates), true) :=
    applyAll_eq_foldl (fun name hname env => if_pos (h.2 name hname)) _
  simp only [enter, hset, hunset]

/-- Inside a scope a variable is absent if it is removed, has the last value that it is set to, or
is as it was outside. -/
theorem get?_inside (env : Environment) (removals : List String) (updates : List (String × String))
    (name : String) :
    (removals.foldl Table.erase (env.insertAll updates)).get? name =
      if name ∈ removals then none else (updates.reverse.lookup name).or (env.get? name) := by
  rw [get?_eraseAll, Table.get?_insertAll_eq_lookup]

/-! ## Open scopes -/

/-- A scope that has been entered: the environment that it found, and what it removes and sets. -/
structure Entered where
  before : Environment
  removals : List String
  updates : List (String × String)

namespace Entered

def scope (e : Entered) : Scope := .of e.before e.removals e.updates

/-- Whether a scope puts a variable back: it sets it, or removes it and the variable existed. -/
def Covers (e : Entered) (name : String) : Prop :=
  name ∈ e.updates.map (·.1) ∨ name ∈ e.removals ∧ e.before.contains name = true

instance (e : Entered) (name : String) : Decidable (e.Covers name) :=
  inferInstanceAs (Decidable (_ ∨ _ ∧ _))

theorem get?_leave (e : Entered) (last : Environment) (name : String) :
    (last.leave e.scope).get? name =
      if e.Covers name then e.before.get? name else last.get? name :=
  get?_leave_of e.before last e.removals e.updates name

/-- A scope changes only variables that it puts back. -/
theorem get?_inside_of_not_covers (e : Entered) {name : String} (h : ¬e.Covers name) :
    (e.removals.foldl Table.erase (e.before.insertAll e.updates)).get? name =
      e.before.get? name := by
  obtain ⟨hupdated, hremoved⟩ := not_or.mp h
  rw [get?_inside]
  split
  case isTrue hmem =>
      have hnew : ¬∃ value, e.before.get? name = some value := by
        rw [← Table.contains_iff]
        exact fun hcontains => hremoved ⟨hmem, hcontains⟩
      exact (Option.eq_none_iff_forall_ne_some.mpr (not_exists.mp hnew)).symm
  case isFalse =>
      have hlookup : e.updates.reverse.lookup name = none := by
        rw [List.lookup_eq_none_iff]
        intro update hupdate
        rw [bne_iff_ne]
        rintro rfl
        exact hupdated (List.mem_map_of_mem (List.mem_reverse.mp hupdate))
      rw [hlookup, Option.none_or]

end Entered

/-- The variables that no scope puts back are as they were first. -/
def Kept (initial : Environment) (opened : List Entered) (env : Environment) : Prop :=
  ∀ name, (∀ e ∈ opened, ¬e.Covers name) → env.get? name = initial.get? name

/-- The variables that no open scope puts back are as they were first, and so they were for each of
the scopes, listed newest first, when it was entered inside those that follow it. -/
structure Layered (initial env : Environment) (opened : List Entered) : Prop where
  kept : Kept initial opened env
  below : ∀ e rest, e :: rest <:+ opened → Kept initial rest e.before

namespace Layered

variable {initial env : Environment} {opened : List Entered}

theorem start (initial : Environment) : Layered initial initial [] where
  kept := fun _ _ => rfl
  below := by
    intro e rest hsuffix
    cases List.suffix_nil.mp hsuffix

theorem eq_initial (h : Layered initial env []) : env = initial := by
  apply Table.ext_get?
  intro name
  exact h.kept name (by simp)

/-- A change of variables that an open scope puts back. -/
theorem change (h : Layered initial env opened) {next : Environment}
    (others : ∀ name, (∀ e ∈ opened, ¬e.Covers name) → next.get? name = env.get? name) :
    Layered initial next opened where
  kept := fun name hname => (others name hname).trans (h.kept name hname)
  below := h.below

theorem enter (h : Layered initial env opened) (removals : List String)
    (updates : List (String × String)) :
    Layered initial (removals.foldl Table.erase (env.insertAll updates))
      (⟨env, removals, updates⟩ :: opened) where
  kept := by
    intro name hname
    obtain ⟨hnewest, hothers⟩ := List.forall_mem_cons.mp hname
    exact (Entered.get?_inside_of_not_covers _ hnewest).trans (h.kept name hothers)
  below := by
    intro e rest hsuffix
    rcases List.suffix_cons_iff.mp hsuffix with heq | hsuffix
    · cases heq
      exact h.kept
    · exact h.below e rest hsuffix

theorem leave {newest : Entered} (h : Layered initial env (newest :: opened)) :
    Layered initial (env.leave newest.scope) opened where
  kept := by
    intro name hothers
    rw [newest.get?_leave]
    split
    case isTrue => exact h.below newest opened (List.suffix_refl _) name hothers
    case isFalse hnewest => exact h.kept name (List.forall_mem_cons.mpr ⟨hnewest, hothers⟩)
  below := fun e rest hsuffix => h.below e rest (hsuffix.trans (List.suffix_cons newest opened))

/-- Leaving all open scopes, newest first, gives the first environment back. -/
theorem leaveAll (h : Layered initial env opened) :
    (opened.map Entered.scope).foldl Environment.leave env = initial := by
  induction opened generalizing env with
  | nil => exact h.eq_initial
  | cons newest rest ih => exact ih h.leave

end Layered

/-! ## The open scopes of a session -/

namespace Session

/-- The scopes that are open, newest first. -/
def stack (s : Session) : List Scope := s.scopes.reverse.filterMap id

/-- A session with one more scope that has been left already. -/
def withGone (s : Session) : Session := { s with scopes := s.scopes ++ [none] }

/-- A session with one more open scope. -/
def withOpen (s : Session) (scope : Scope) : Session :=
  { s with scopes := s.scopes ++ [some scope] }

@[simp] theorem stack_withGone (s : Session) : s.withGone.stack = s.stack := by
  simp [stack, withGone]

@[simp] theorem stack_withOpen (s : Session) (scope : Scope) :
    (s.withOpen scope).stack = scope :: s.stack := by
  simp [stack, withOpen]

/-- Every session is made of one without scopes, by entering scopes one after the other. -/
theorem induction_scopes {P : Session → Prop} (none : ∀ env, P (start env))
    (gone : ∀ s : Session, P s → P s.withGone)
    (opened : ∀ (s : Session) scope, P s → P (s.withOpen scope)) (s : Session) : P s := by
  obtain ⟨env, scopes⟩ := s
  induction scopes using List.reverseRecOn with
  | nil => exact none env
  | append_singleton scopes last ih =>
      cases last with
      | none => exact gone _ ih
      | some scope => exact opened _ scope ih

theorem newest?_withOpen (s : Session) (scope : Scope) :
    (s.withOpen scope).newest? = some s.scopes.length := by
  simp [newest?, withOpen, List.range_succ]

theorem newest?_withGone (s : Session) : s.withGone.newest? = s.newest? := by
  have hnumbers : (List.range s.withGone.scopes.length).reverse =
      s.scopes.length :: (List.range s.scopes.length).reverse := by
    simp [withGone, List.range_succ]
  rw [newest?, newest?, hnumbers, List.find?_cons_of_neg (by simp [withGone])]
  apply List.find?_congr
  intro number hnumber
  rw [List.mem_reverse, List.mem_range] at hnumber
  rw [withGone, List.getElem?_append_left hnumber]

theorem newest?_lt {s : Session} {number : Nat} (h : s.newest? = some number) :
    number < s.scopes.length := by
  have hmem := List.mem_of_find?_eq_some h
  rwa [List.mem_reverse, List.mem_range] at hmem

theorem leaveNumber_withGone {s : Session} {number : Nat} (h : number < s.scopes.length) :
    s.withGone.leaveNumber number = (s.leaveNumber number).withGone := by
  rw [leaveNumber, leaveNumber, withGone, List.getElem?_append_left h]
  split
  case h_1 scope _ => simp only [withGone, List.set_append_left _ _ h]
  case h_2 => rfl

theorem leaveNumber_gone (s : Session) : s.withGone.leaveNumber s.scopes.length = s.withGone := by
  simp [leaveNumber, withGone]

theorem leaveNumber_opened (s : Session) (scope : Scope) :
    (s.withOpen scope).leaveNumber s.scopes.length =
      withGone { s with environment := s.environment.leave scope } := by
  simp [leaveNumber, withOpen, withGone]

@[simp] theorem length_leaveNumber (s : Session) (number : Nat) :
    (s.leaveNumber number).scopes.length = s.scopes.length := by
  rw [leaveNumber]
  split
  case h_1 => exact List.length_set
  case h_2 => rfl

theorem leaveNewest_withGone (s : Session) : s.withGone.leaveNewest = s.leaveNewest.withGone := by
  rw [leaveNewest, leaveNewest, newest?_withGone]
  cases hnewest : s.newest? with
  | none => rfl
  | some number => exact leaveNumber_withGone (newest?_lt hnewest)

theorem leaveNewest_withOpen (s : Session) (scope : Scope) :
    (s.withOpen scope).leaveNewest =
      withGone { s with environment := s.environment.leave scope } := by
  rw [leaveNewest, newest?_withOpen]
  exact leaveNumber_opened s scope

/-- Leaving the newest scope takes it from the open ones; without one nothing happens. -/
theorem leaveNewest_stack (s : Session) :
    (s.leaveNewest.environment, s.leaveNewest.stack) =
      match s.stack with
      | [] => (s.environment, [])
      | scope :: rest => (s.environment.leave scope, rest) := by
  induction s using induction_scopes with
  | none env => rfl
  | gone s ih =>
      rw [leaveNewest_withGone, stack_withGone, stack_withGone]
      exact ih
  | opened s scope _ =>
      rw [leaveNewest_withOpen, stack_withGone, stack_withOpen]
      rfl

theorem foldl_leaveNumber_withGone {numbers : List Nat} {s : Session}
    (h : ∀ number ∈ numbers, number < s.scopes.length) :
    numbers.foldl leaveNumber s.withGone = (numbers.foldl leaveNumber s).withGone := by
  induction numbers generalizing s with
  | nil => rfl
  | cons number rest ih =>
      obtain ⟨hfirst, hrest⟩ := List.forall_mem_cons.mp h
      rw [List.foldl_cons, List.foldl_cons, leaveNumber_withGone hfirst]
      apply ih
      simpa using hrest

/-- The numbers of a session with one more scope, newest first. -/
theorem leaveAll_concat (s : Session) (last : Option Scope) :
    leaveAll { s with scopes := s.scopes ++ [last] } =
      (List.range s.scopes.length).reverse.foldl leaveNumber
        (leaveNumber { s with scopes := s.scopes ++ [last] } s.scopes.length) := by
  simp [leaveAll, List.range_succ]

theorem leaveAll_withGone (s : Session) : s.withGone.leaveAll = s.leaveAll.withGone := by
  refine (leaveAll_concat s none).trans ?_
  rw [← withGone, leaveNumber_gone, foldl_leaveNumber_withGone]
  · rfl
  · simp

theorem leaveAll_withOpen (s : Session) (scope : Scope) :
    (s.withOpen scope).leaveAll =
      (leaveAll { s with environment := s.environment.leave scope }).withGone := by
  refine (leaveAll_concat s (some scope)).trans ?_
  rw [← withOpen, leaveNumber_opened, foldl_leaveNumber_withGone]
  · rfl
  · simp

theorem environment_leaveAll (s : Session) :
    s.leaveAll.environment = s.stack.foldl Environment.leave s.environment := by
  suffices h : ∀ env : Environment, (leaveAll { s with environment := env }).environment =
      s.stack.foldl Environment.leave env from h s.environment
  induction s using induction_scopes with
  | none _ => exact fun env => rfl
  | gone s ih =>
      intro env
      rw [stack_withGone, ← ih env]
      have hgone := congrArg environment (leaveAll_withGone { s with environment := env })
      exact hgone
  | opened s scope ih =>
      intro env
      rw [stack_withOpen, List.foldl_cons, ← ih (env.leave scope)]
      have hopen := congrArg environment (leaveAll_withOpen { s with environment := env } scope)
      exact hopen

/-! ## Changes made in turn -/

/-- Make changes in order. -/
def run (s : Session) (changes : List Change) : Session :=
  changes.foldl (fun s change => (s.apply change).1) s

/-- A change that keeps the nesting of the open scopes, which are listed newest first: the names
and values of a scope that is entered can be used, a scope that is left is the newest, and an open
scope puts back a variable that is changed directly. -/
def InTurn (s : Session) (opened : List Entered) : Change → Prop
  | .enter removals updates => Usable removals updates
  | .panicInside removals updates => Usable removals updates
  | .leaveNewest => True
  | .leaveNumber number => s.newest? = some number
  | .set name _ => ∃ e ∈ opened, e.Covers name
  | .unset name => ∃ e ∈ opened, e.Covers name

/-- The open scopes after a change made in turn. -/
def openedAfter (s : Session) (opened : List Entered) : Change → List Entered
  | .enter removals updates => ⟨s.environment, removals, updates⟩ :: opened
  | .panicInside _ _ => opened
  | .leaveNewest => opened.tail
  | .leaveNumber _ => opened.tail
  | .set _ _ => opened
  | .unset _ => opened

/-- Changes that are all made in turn. -/
def Nested (s : Session) (opened : List Entered) : List Change → Prop
  | [] => True
  | change :: rest =>
    InTurn s opened change ∧ Nested (s.apply change).1 (openedAfter s opened change) rest

instance decidableInTurn (s : Session) (opened : List Entered) :
    (change : Change) → Decidable (InTurn s opened change)
  | .enter removals updates => inferInstanceAs (Decidable (Usable removals updates))
  | .panicInside removals updates => inferInstanceAs (Decidable (Usable removals updates))
  | .leaveNewest => inferInstanceAs (Decidable True)
  | .leaveNumber number => inferInstanceAs (Decidable (s.newest? = some number))
  | .set name _ => inferInstanceAs (Decidable (∃ e ∈ opened, e.Covers name))
  | .unset name => inferInstanceAs (Decidable (∃ e ∈ opened, e.Covers name))

instance decidableNested (s : Session) (opened : List Entered) :
    (changes : List Change) → Decidable (Nested s opened changes)
  | [] => inferInstanceAs (Decidable True)
  | change :: rest =>
    have := decidableNested (s.apply change).1 (openedAfter s opened change) rest
    inferInstanceAs (Decidable (_ ∧ _))

/-- The open scopes of a session are these, and the environment is layered by them. -/
structure Unwinds (initial : Environment) (s : Session) (opened : List Entered) : Prop where
  stack : s.stack = opened.map Entered.scope
  layered : Layered initial s.environment opened

theorem get?_of_set? {env next : Environment} {name value other : String}
    (h : env.set? name value = some next) (hother : other ≠ name) :
    next.get? other = env.get? other := by
  rw [set?, Option.ite_none_right_eq_some] at h
  obtain ⟨-, hnext⟩ := h
  cases hnext
  rw [Table.get?_insert, if_neg hother]

theorem get?_of_unset? {env next : Environment} {name other : String}
    (h : env.unset? name = some next) (hother : other ≠ name) :
    next.get? other = env.get? other := by
  rw [unset?, Option.ite_none_right_eq_some] at h
  obtain ⟨-, hnext⟩ := h
  cases hnext
  rw [Table.get?_erase, if_neg hother]

theorem not_covered_ne {opened : List Entered} {name other : String}
    (h : ∃ e ∈ opened, e.Covers name) (hother : ∀ e ∈ opened, ¬e.Covers other) : other ≠ name := by
  obtain ⟨e, hmem, hcovers⟩ := h
  rintro rfl
  exact hother e hmem hcovers

namespace Unwinds

variable {initial : Environment} {s : Session} {opened : List Entered}

theorem start (initial : Environment) : Unwinds initial (.start initial) [] :=
  ⟨rfl, .start initial⟩

theorem leaveNewest (h : Unwinds initial s opened) :
    Unwinds initial s.leaveNewest opened.tail := by
  have hstack := leaveNewest_stack s
  rw [h.stack] at hstack
  cases opened with
  | nil =>
      obtain ⟨henv, hnone⟩ := Prod.mk.inj hstack
      exact ⟨hnone, henv ▸ h.layered⟩
  | cons newest rest =>
      obtain ⟨henv, hrest⟩ := Prod.mk.inj hstack
      exact ⟨hrest, henv ▸ h.layered.leave⟩

/-- What a change made in turn preserves. -/
theorem apply (h : Unwinds initial s opened) {change : Change} (turn : InTurn s opened change) :
    Unwinds initial (s.apply change).1 (openedAfter s opened change) := by
  cases change with
  | enter removals updates =>
      rw [Session.apply, enter_of_usable turn]
      refine ⟨?_, h.layered.enter removals updates⟩
      refine (stack_withOpen s _).trans ?_
      rw [h.stack]
      rfl
  | panicInside removals updates =>
      rw [Session.apply, enter_of_usable turn]
      exact ⟨h.stack, (h.layered.enter removals updates).leave⟩
  | leaveNewest => exact h.leaveNewest
  | leaveNumber number =>
      have hnewest : s.leaveNewest = s.leaveNumber number := by
        rw [Session.leaveNewest, show s.newest? = some number from turn]
      rw [Session.apply, ← hnewest]
      exact h.leaveNewest
  | set name value =>
      rw [Session.apply]
      cases hset : s.environment.set? name value with
      | none => exact h
      | some next =>
          refine ⟨h.stack, h.layered.change fun other hother => ?_⟩
          exact get?_of_set? hset (not_covered_ne turn hother)
  | unset name =>
      rw [Session.apply]
      cases hunset : s.environment.unset? name with
      | none => exact h
      | some next =>
          refine ⟨h.stack, h.layered.change fun other hother => ?_⟩
          exact get?_of_unset? hunset (not_covered_ne turn hother)

theorem run (h : Unwinds initial s opened) {changes : List Change}
    (nested : Nested s opened changes) : ∃ left, Unwinds initial (s.run changes) left := by
  induction changes generalizing s opened with
  | nil => exact ⟨opened, h⟩
  | cons change rest ih => exact ih (h.apply nested.1) nested.2

end Unwinds

theorem Nested.usable {s : Session} {opened : List Entered} {changes : List Change}
    (nested : Nested s opened changes) {removals : List String} {updates : List (String × String)}
    (hmem : .enter removals updates ∈ changes) : Usable removals updates := by
  induction changes generalizing s opened with
  | nil => cases hmem
  | cons change rest ih =>
      rcases List.mem_cons.mp hmem with rfl | hmem
      · exact nested.1
      · exact ih nested.2 hmem

/-- Changes are made from some environment: scopes are entered and left newest first, and variables
are changed directly that an open scope puts back.  Once no scope is open, and also when those that
are still open are left, newest first, the environment is the first one again.  Right after a scope
is entered it is the newest, and each variable is absent if the scope removes it, has the last value
that the scope gives it, or is as it was. -/
theorem nested_scopes_unwind (env : Environment) (changes : List Change)
    (nested : Nested (start env) [] changes) :
    let last := (start env).run changes
    ((∀ scope ∈ last.scopes, scope = none) → last.environment = env) ∧
      last.leaveAll.environment = env ∧
      ∀ earlier removals updates, earlier ++ [.enter removals updates] <+: changes →
        let outside := (start env).run earlier
        let inside := (start env).run (earlier ++ [.enter removals updates])
        inside.stack = .of outside.environment removals updates :: outside.stack ∧
          ∀ name, inside.environment.get? name =
            if name ∈ removals then none
            else (updates.reverse.lookup name).or (outside.environment.get? name) := by
  intro last
  obtain ⟨opened, unwinds⟩ := (Unwinds.start env).run nested
  have hleft : last.leaveAll.environment = env := by
    rw [environment_leaveAll, unwinds.stack]
    exact unwinds.layered.leaveAll
  refine ⟨?_, hleft, ?_⟩
  · intro hgone
    have hstack : last.stack = [] := by
      rw [stack, List.filterMap_eq_nil_iff]
      intro scope hscope
      exact hgone scope (List.mem_reverse.mp hscope)
    rwa [environment_leaveAll, hstack] at hleft
  · intro earlier removals updates hbegin outside inside
    have husable : Usable removals updates :=
      nested.usable (hbegin.subset (List.mem_append_right _ (List.mem_singleton_self _)))
    have hinside : inside = (outside.apply (.enter removals updates)).1 := by
      simp [inside, outside, run]
    rw [Session.apply, enter_of_usable husable] at hinside
    rw [hinside]
    exact ⟨stack_withOpen outside _, get?_inside outside.environment removals updates⟩

/-- The inner of two scopes remembers a variable that the outer one has set, and one that it found
removed. -/
theorem nested_scopes_unwind_overlapping :
    let env : Environment := Table.ofList [("A", "0"), ("B", "0")]
    let changes : List Change := [
      .enter ["A"] [("B", "1"), ("C", "1")], .set "C" "2", .unset "B",
      .enter ["B", "C", "D"] [("A", "3"), ("A", "4")], .unset "A", .set "C" "5", .leaveNewest,
      .set "A" "6", .panicInside ["A"] [("E", "7")], .leaveNumber 0]
    Nested (start env) [] changes ∧ ((start env).run changes).environment = env := by
  intro env changes
  have nested : Nested (start env) [] changes := by decide
  refine ⟨nested, ?_⟩
  exact (nested_scopes_unwind env changes nested).1 (by decide)

end Session

end Testbed.Environment
