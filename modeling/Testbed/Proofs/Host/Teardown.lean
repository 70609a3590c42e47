import Mathlib.Data.List.Induction
import Testbed.Host.Restore
import Testbed.Proofs.Table

/-!
# Clean-up commands run once

Commands are registered for tests and tests are torn down, in any order and on any hosts.  A command
is executed if a teardown of its test follows its registration, and waits otherwise; so each is
executed once at most, also if commands before it fail.

What a host does is seen from outside, by a host that does the same and keeps a record.
-/

namespace Testbed.Host

variable {σ : Type}

/-- What a host is seen to do: it executes a module with a result, or a time passes. -/
inductive Deed where
  | executed (module : Module) (result : Result)
  | waited (time : Duration)

/-- The module that has been executed. -/
def Deed.module? : Deed → Option Module
  | executed module _ => some module
  | waited _ => none

/-- A host that keeps a record of what it has done. -/
def recording (h : Host σ) : Host (σ × List Deed) where
  name := h.name
  execute module s :=
    let (result, world) := h.execute module s.1
    (result, world, s.2 ++ [.executed module result])
  elapse time s := (h.elapse time s.1, s.2 ++ [.waited time])

@[simp] theorem name_recording (h : Host σ) : h.recording.name = h.name := rfl

theorem execute_recording (h : Host σ) (module : Module) (s : σ × List Deed) :
    h.recording.execute module s =
      ((h.execute module s.1).1, (h.execute module s.1).2,
        s.2 ++ [.executed module (h.execute module s.1).1]) :=
  rfl

namespace Restore

/-! ## The list of a test -/

theorem pending_push (r : Restore) (test command other : String) :
    (r.push test command).pending other =
      r.pending other ++ if other = test then [command] else [] := by
  rw [pending, pending, push, Table.get?_alter]
  split
  case isTrue hother => rw [hother, Option.getD_some]
  case isFalse => rw [List.append_nil]

/-- The registry after the teardown of a test. -/
def without (r : Restore) (test : String) : Restore :=
  { r with commands := r.commands.erase test }

theorem pending_without (r : Restore) (test other : String) :
    (r.without test).pending other = if other = test then [] else r.pending other := by
  rw [pending, pending, without, Table.get?_erase]
  split
  case isTrue => rfl
  case isFalse => rfl

/-! ## One teardown -/

/-- Commands with the results that they have on a host, one after the other. -/
def attempts (h : Host σ) : List String → σ → List (String × Result)
  | [], _ => []
  | command :: rest, s =>
    let (result, s) := h.execute (.shell command) s
    (command, result) :: attempts h rest s

/-- The texts of the attempts that failed. -/
def failures (h : Host σ) (tried : List (String × Result)) : List String :=
  (tried.filter (·.2.failed)).map fun attempt =>
    failureText attempt.1 (.moduleFailed h.name "shell" attempt.2)

/-- How a teardown ends whose commands have these results. -/
def verdict (h : Host σ) (test : String) (tried : List (String × Result)) : Except Error Unit :=
  if tried.all (!·.2.failed) then .ok () else .error (.cleanupFailed test (failures h tried))

/-- The attempts as they are recorded. -/
def deeds (tried : List (String × Result)) : List Deed :=
  tried.map fun attempt => .executed (.shell attempt.1) attempt.2

theorem attempts_commands (h : Host σ) (commands : List String) (s : σ) :
    (attempts h commands s).map (·.1) = commands := by
  induction commands generalizing s with
  | nil => rfl
  | cons command rest ih => rw [attempts, List.map_cons, ih]

theorem runAll_failures (h : Host σ) (commands : List String) (s : σ) :
    (runAll h commands s).1 = failures h (attempts h commands s) := by
  induction commands generalizing s with
  | nil => rfl
  | cons command rest ih =>
      rw [runAll, attempts, run]
      cases hfailed : (h.execute (.shell command) s).1.failed with
      | true => simp [failures, hfailed, ih, Module.name]
      | false => simp [failures, hfailed, ih]

/-- The recording host does what the host does, and records each command with its result. -/
theorem runAll_recording (h : Host σ) (commands : List String) (s : σ) (before : List Deed) :
    runAll h.recording commands (s, before) =
      ((runAll h commands s).1, (runAll h commands s).2,
        before ++ deeds (attempts h commands s)) := by
  induction commands generalizing s before with
  | nil => simp [runAll, attempts, deeds]
  | cons command rest ih =>
      rw [runAll, runAll, attempts, run, run]
      cases hfailed : (h.execute (.shell command) s).1.failed with
      | true => simp [execute_recording, hfailed, ih, Module.name, deeds]
      | false => simp [execute_recording, hfailed, ih, deeds]

/-- The recording host settles as the host does, and records for how long. -/
theorem settled_recording (r : Restore) (h : Host σ) (s : σ) (before : List Deed) :
    r.settled h.recording (s, before) =
      (r.settled h s, before ++ r.settle.toList.map .waited) := by
  rw [settled, settled]
  cases r.settle with
  | none => simp
  | some time => rfl

theorem failures_isEmpty (h : Host σ) (tried : List (String × Result)) :
    (failures h tried).isEmpty = tried.all (!·.2.failed) := by
  rw [failures, List.isEmpty_map]
  induction tried with
  | nil => rfl
  | cons attempt rest ih => cases hfailed : attempt.2.failed <;> simp [hfailed, ih]

/-- A teardown takes the commands of the test off the list however they end. -/
theorem teardown_runAll (r : Restore) (h : Host σ) (test : String) (s : σ) :
    r.teardown h test s =
      (if (runAll h (r.pending test) s).1.isEmpty then .ok ()
        else .error (.cleanupFailed test (runAll h (r.pending test) s).1),
        r.without test, r.settled h (runAll h (r.pending test) s).2) := by
  rw [teardown]
  dsimp only
  split
  case isTrue => rfl
  case isFalse => rfl

theorem teardown_eq (r : Restore) (h : Host σ) (test : String) (s : σ) :
    r.teardown h test s =
      (verdict h test (attempts h (r.pending test) s), r.without test,
        r.settled h (runAll h (r.pending test) s).2) := by
  rw [teardown_runAll, verdict, ← failures_isEmpty, ← runAll_failures]

theorem teardown_recording (r : Restore) (h : Host σ) (test : String) (s : σ) :
    r.teardown h.recording test (s, []) =
      ((r.teardown h test s).1, r.without test, (r.teardown h test s).2.2,
        deeds (attempts h (r.pending test) s) ++ r.settle.toList.map .waited) := by
  rw [teardown_runAll, teardown_runAll, runAll_recording, settled_recording, List.nil_append]

/-! ## Histories -/

/-- What is done with clean-up commands: one is registered for a test, or those of a test are run
on a host. -/
inductive Operation (σ : Type) where
  | push (test command : String)
  | teardown (test : String) (host : Host σ)

def Operation.tearsDown (test : String) : Operation σ → Bool
  | push _ _ => false
  | teardown torn _ => torn == test

/-- The commands registered for a test, in order: those that a teardown of the test follows, or
those that none follows. -/
def pushed (test : String) (followed : Bool) : List (Operation σ) → List String
  | [] => []
  | .push owner command :: rest =>
    if owner = test ∧ rest.any (Operation.tearsDown test) = followed then
      command :: pushed test followed rest
    else pushed test followed rest
  | .teardown _ _ :: rest => pushed test followed rest

/-- A teardown that has been made: what the host did, and how it ended. -/
structure Done where
  test : String
  deeds : List Deed
  outcome : Except Error Unit

/-- The registry, the state that hosts act on, and the teardowns so far. -/
structure Course (σ : Type) where
  registry : Restore := {}
  world : σ
  record : List Done := []

namespace Course

def act (c : Course σ) : Operation σ → Course σ
  | .push test command => { c with registry := c.registry.push test command }
  | .teardown test host =>
    let (outcome, registry, world, deeds) :=
      c.registry.teardown host.recording test (c.world, [])
    { registry, world, record := c.record ++ [⟨test, deeds, outcome⟩] }

def run (c : Course σ) (operations : List (Operation σ)) : Course σ := operations.foldl act c

/-- All that was executed in the teardowns of a test. -/
def executedFor (c : Course σ) (test : String) : List Module :=
  (c.record.filter (·.test == test)).flatMap fun done => done.deeds.filterMap Deed.module?

end Course

section Pushed

variable {test : String} {operations : List (Operation σ)}

theorem pushed_true_of_none (h : operations.any (Operation.tearsDown test) = false) :
    pushed test true operations = [] := by
  induction operations with
  | nil => rfl
  | cons operation rest ih =>
      rw [List.any_cons, Bool.or_eq_false_iff] at h
      cases operation with
      | push owner command => rw [pushed, if_neg (by simp [h.2]), ih h.2]
      | teardown torn host => rw [pushed, ih h.2]

theorem pushed_push (followed : Bool) (owner command : String) :
    pushed test followed (operations ++ [.push owner command]) =
      pushed test followed operations ++
        if owner = test ∧ followed = false then [command] else [] := by
  induction operations with
  | nil => cases followed <;> simp [pushed]
  | cons operation rest ih =>
      cases operation with
      | push owner' command' =>
          rw [List.cons_append, pushed, pushed, ih]
          simp only [List.any_append, List.any_cons, List.any_nil, Operation.tearsDown,
            Bool.or_false]
          split
          case isTrue => rfl
          case isFalse => rfl
      | teardown torn host => exact ih

theorem pushed_teardown_of_ne (followed : Bool) {torn : String} (hne : torn ≠ test)
    (host : Host σ) :
    pushed test followed (operations ++ [.teardown torn host]) =
      pushed test followed operations := by
  induction operations with
  | nil => rfl
  | cons operation rest ih =>
      cases operation with
      | push owner command =>
          have htorn : (torn == test) = false := beq_eq_false_iff_ne.mpr hne
          rw [List.cons_append, pushed, pushed, ih]
          simp [Operation.tearsDown, htorn]
      | teardown torn' host' => exact ih

/-- Before a teardown of the test, every command is followed by it. -/
theorem pushed_teardown (followed : Bool) (host : Host σ) :
    pushed test followed (operations ++ [.teardown test host]) =
      if followed then pushed test true operations ++ pushed test false operations else [] := by
  induction operations with
  | nil => cases followed <;> rfl
  | cons operation rest ih =>
      cases operation with
      | teardown torn host' => exact ih
      | push owner command =>
          have hany : (rest ++ [Operation.teardown test host]).any (Operation.tearsDown test) =
              true := by
            rw [List.any_append, Bool.or_eq_true]
            exact Or.inr (by simp [Operation.tearsDown])
          rw [List.cons_append, pushed, ih, hany]
          cases followed with
          | false => simp
          | true =>
              by_cases howner : owner = test
              · cases hlater : rest.any (Operation.tearsDown test) with
                | true => simp [pushed, howner, hlater]
                | false => simp [pushed, howner, hlater, pushed_true_of_none hlater]
              · simp [pushed, howner]

end Pushed

namespace Course

/-- Of every test, the commands that a teardown follows have been executed, and all others wait. -/
structure Accounts (settle : Option Duration) (c : Course σ) (operations : List (Operation σ)) :
    Prop where
  settle : c.registry.settle = settle
  pending : ∀ test, c.registry.pending test = pushed test false operations
  executed : ∀ test, c.executedFor test = (pushed test true operations).map .shell

theorem act_teardown (c : Course σ) (test : String) (host : Host σ) :
    c.act (.teardown test host) =
      { registry := c.registry.without test
        world := (c.registry.teardown host test c.world).2.2
        record := c.record ++ [⟨test,
          deeds (attempts host (c.registry.pending test) c.world) ++
            c.registry.settle.toList.map .waited,
          (c.registry.teardown host test c.world).1⟩] } := by
  rw [act, teardown_recording]

/-- Of the deeds of a teardown, its commands are what has been executed. -/
theorem executed_deeds (tried : List (String × Result)) (times : List Duration) :
    (deeds tried ++ times.map Deed.waited).filterMap Deed.module? =
      (tried.map (·.1)).map .shell := by
  have waits : (times.map Deed.waited).filterMap Deed.module? = [] := by
    simp [Deed.module?]
  rw [List.filterMap_append, waits, List.append_nil, deeds, List.filterMap_map, List.map_map,
    ← List.filterMap_eq_map]
  rfl

theorem executedFor_teardown (c : Course σ) (torn : String) (host : Host σ) (test : String) :
    (c.act (.teardown torn host)).executedFor test =
      c.executedFor test ++ if torn = test then (c.registry.pending torn).map .shell else [] := by
  rw [act_teardown, executedFor, executedFor, List.filter_append, List.flatMap_append]
  by_cases htorn : torn = test
  · subst htorn
    simp only [List.filter_cons, beq_self_eq_true, if_true, List.filter_nil, List.flatMap_cons,
      List.flatMap_nil, List.append_nil, executed_deeds, attempts_commands]
  · simp [htorn]

theorem Accounts.act {settle : Option Duration} {c : Course σ} {operations : List (Operation σ)}
    (h : c.Accounts settle operations) (operation : Operation σ) :
    (c.act operation).Accounts settle (operations ++ [operation]) := by
  cases operation with
  | push owner command =>
      constructor
      case settle => exact h.settle
      case pending =>
          intro test
          have hpush := pending_push c.registry owner command test
          rw [pushed_push, ← h.pending]
          simpa [Course.act, eq_comm] using hpush
      case executed =>
          intro test
          rw [pushed_push, if_neg (by simp), List.append_nil]
          exact h.executed test
  | teardown torn host =>
      constructor
      case settle =>
          rw [act_teardown]
          exact h.settle
      case pending =>
          intro test
          rw [act_teardown]
          dsimp only
          rw [pending_without]
          by_cases htorn : torn = test
          · subst htorn
            rw [pushed_teardown, if_pos rfl]
            rfl
          · rw [pushed_teardown_of_ne _ htorn, if_neg (Ne.symm htorn), h.pending]
      case executed =>
          intro test
          rw [executedFor_teardown, h.executed]
          by_cases htorn : torn = test
          · subst htorn
            rw [pushed_teardown, if_pos rfl, if_pos rfl, h.pending, List.map_append]
          · rw [pushed_teardown_of_ne _ htorn, if_neg htorn, List.append_nil]

theorem accounts_run (settle : Option Duration) (world : σ) (operations : List (Operation σ)) :
    (run { registry := { settle }, world } operations).Accounts settle operations := by
  induction operations using List.reverseRecOn with
  | nil => exact ⟨rfl, fun _ => rfl, fun _ => rfl⟩
  | append_singleton operations operation ih =>
      rw [run, List.foldl_append]
      exact ih.act operation

end Course

/-- Commands are registered and tests are torn down, on any hosts.  Then of every test the commands
that a teardown follows have been executed, each once and in order, and the others wait.  One more
teardown executes what waits for it, failures or not, and clears the list of its test and no other;
it fails if any of its commands fails, with the texts of all that do.  After the last command it
lets the time to settle pass, if there is one. -/
theorem cleanup_commands_run_once (settle : Option Duration) (world : σ)
    (operations : List (Operation σ)) :
    let c := Course.run { registry := { settle }, world } operations
    (∀ test, c.registry.pending test = pushed test false operations ∧
      c.executedFor test = (pushed test true operations).map .shell) ∧
    ∀ test host, ∃ tried outcome,
      let after := c.act (.teardown test host)
      c.registry.teardown host test c.world = (outcome, after.registry, after.world) ∧
        after.record = c.record ++
          [⟨test, deeds tried ++ settle.toList.map .waited, outcome⟩] ∧
        tried.map (·.1) = pushed test false operations ∧
        outcome = verdict host test tried ∧
        ∀ other, after.registry.pending other =
          if other = test then [] else c.registry.pending other := by
  intro c
  have accounts := Course.accounts_run settle world operations
  refine ⟨fun test => ⟨accounts.pending test, accounts.executed test⟩, ?_⟩
  intro test host
  refine ⟨attempts host (c.registry.pending test) c.world,
    (c.registry.teardown host test c.world).1, ?_⟩
  rw [Course.act_teardown]
  refine ⟨?_, ?_, ?_, ?_, pending_without c.registry test⟩
  · rw [teardown_eq]
  · rw [accounts.settle]
  · rw [attempts_commands]
    exact accounts.pending test
  · rw [teardown_eq]

end Restore

end Testbed.Host
