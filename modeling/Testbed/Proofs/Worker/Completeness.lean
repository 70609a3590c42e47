import Testbed.Proofs.Table
import Testbed.Proofs.Worker.Round
import Testbed.Proofs.Worker.Sightings
import Testbed.Proofs.Worker.Soundness

/-!
# Runs on many nodes are complete

Whatever turns the owner and the threads take, a run that reports values has run its target once on
every node and holds a value for every name, the one of the last node with this name; a failure is
one of the target on some node; and a timeout names the nodes whose workers were last found running,
in their order.

The invariant follows the owner: the workers started so far and those to come are all of them; while
the owner waits, the invariants of the barrier hold; then the verdict stands, and the workers are
emptied in their order.
-/

namespace Testbed.Worker.Parallel

open Handle (Status)
open Barrier (Scene Verdict Place places passes)

universe u v

variable {T : Type u} {N : Type v}

/-! ## Waiting for the workers -/

/-- What holds while the owner waits. -/
structure Watched (workers : List (Worker T)) (deadline : Option Nat) (scene : Scene T) : Prop where
  manned : Manned workers scene.handles
  sound : scene.Sound deadline
  follows : scene.Follows deadline
  tracked : scene.Tracked

/-- What holds from a verdict on: it is the one that is computed from what the barrier has seen, it
tells what was last found, and a worker that was last found at its end has this end.  None of this
depends on what the workers do afterwards. -/
structure Decided (workers : List (Worker T)) (deadline : Option Nat) (scene : Scene T)
    (verdict : Verdict) : Prop where
  computed :
    passes (scene.watch deadline) (scene.pass + 1) 0 (places (workers.map (·.name))) = verdict
  told : verdict.Told scene.lastFound? (places (workers.map (·.name)))
  ended : ∀ place status, scene.lastFound? place = some status → status ≠ .running →
    ∃ w, workers[place.number]? = some w ∧ (finished w).status = status

section Watched

variable {workers : List (Worker T)} {deadline : Option Nat} {scene : Scene T}

theorem Watched.begin {handles : List (Handle T)} (manned : Manned workers handles) :
    Watched workers deadline (Scene.begin handles) where
  manned := manned
  sound := .begin deadline handles
  follows := .begin deadline handles
  tracked := .begin handles

theorem Watched.thread (h : Watched workers deadline scene) (worker : Nat) :
    Watched workers deadline (scene.thread worker) where
  manned := h.manned.thread worker
  sound := h.sound.thread worker
  follows := h.follows.thread worker
  tracked := h.tracked.thread worker

theorem Watched.proceed (h : Watched workers deadline scene) :
    Watched workers deadline scene.proceed where
  manned := by
    rw [Scene.handles_proceed]
    exact h.manned
  sound := h.sound.proceed
  follows := h.follows.proceed h.sound
  tracked := h.tracked.proceed h.sound

theorem Watched.wake (h : Watched workers deadline scene) (now : Nat) :
    Watched workers deadline (scene.wake deadline now) where
  manned := by
    rw [Scene.handles_wake]
    exact h.manned
  sound := h.sound.wake now
  follows := h.follows.wake h.sound now
  tracked := h.tracked.wake deadline now

theorem Watched.places_eq (h : Watched workers deadline scene) :
    scene.places = places (workers.map (·.name)) := by
  rw [← h.manned.map_worker, List.map_map]
  rfl

/-- A worker that was last found at its end has come to the end of its thread. -/
theorem Watched.ended (h : Watched workers deadline scene) {place : Place} {status : Status}
    (found : scene.lastFound? place = some status) (ended : status ≠ .running) :
    ∃ w, workers[place.number]? = some w ∧ (finished w).status = status := by
  have hstatus := h.sound.faithful.status_of_lastFound? found ended
  rw [Scene.status] at hstatus
  cases hhandle : scene.handles[place.number]? with
  | none =>
      rw [hhandle] at hstatus
      exact absurd hstatus.symm ended
  | some handle =>
      rw [hhandle] at hstatus
      dsimp only at hstatus
      obtain ⟨w, hworker, runs⟩ := h.manned.runs hhandle
      rw [← hstatus] at ended
      exact ⟨w, hworker, by rw [← runs.eq_finished ended, hstatus]⟩

theorem Watched.decided (h : Watched workers deadline scene) {verdict : Verdict}
    (hphase : scene.phase = .ended verdict) : Decided workers deadline scene verdict where
  computed := by
    rw [← h.places_eq]
    exact h.follows.ended verdict hphase _ h.sound.faithful.agrees_watch 0
  told := by
    rw [← h.places_eq]
    exact h.tracked.told h.sound hphase
  ended := fun _ _ => h.ended

/-- When the barrier has found that all workers have succeeded, they are at their ends. -/
theorem Watched.handles_eq (h : Watched workers deadline scene)
    (hphase : scene.phase = .ended .allSucceeded) : scene.handles = workers.map finished := by
  have hall : ∀ place ∈ scene.places, scene.status place.number = .succeeded :=
    h.sound.justified _ hphase
  apply h.manned.eq_finished
  intro handle hmem
  obtain ⟨number, hhandle⟩ := List.mem_iff_getElem?.mp hmem
  have hplace : (⟨number, handle.worker.name⟩ : Place) ∈ scene.places := by
    simp [Scene.places, Barrier.mem_places, hhandle]
  have hstatus := hall _ hplace
  simp only [Scene.status, hhandle] at hstatus
  simp [hstatus]

theorem Decided.of_handles {verdict : Verdict} (h : Decided workers deadline scene verdict)
    (handles : List (Handle T)) : Decided workers deadline { scene with handles } verdict :=
  ⟨h.computed, h.told, h.ended⟩

/-- Threads at their ends stay as they are. -/
theorem thread_eq_self (still : ∀ h ∈ scene.handles, h.advance = h) (worker : Nat) :
    scene.thread worker = scene := by
  have hmodify : scene.handles.modify worker Handle.advance = scene.handles := by
    apply List.ext_getElem?
    intro number
    rw [List.getElem?_modify]
    cases hhandle : scene.handles[number]? with
    | none => rfl
    | some h =>
        have hstill := still h (List.mem_of_getElem? hhandle)
        by_cases hsame : worker = number <;> simp [hsame, hstill]
  rw [Scene.thread, hmodify]

end Watched

/-! ## The invariant of a run -/

/-- What holds of a run of some workers at any time. -/
inductive Round.Sound (workers : List (Worker T)) (deadline : Option Nat) : Round T → Prop
  | starting {scene : Scene T} {started rest : List (Worker T)} (split : started ++ rest = workers)
      (manned : Manned started scene.handles) : Sound workers deadline ⟨scene, .starting rest⟩
  | waiting {scene : Scene T} (watched : Watched workers deadline scene) :
      Sound workers deadline ⟨scene, .waiting⟩
  | taking {scene : Scene T} {before after : List (Worker T)} (split : before ++ after = workers)
      (handles : scene.handles = before.map emptied ++ after.map finished)
      (decided : Decided workers deadline scene .allSucceeded) :
      Sound workers deadline
        ⟨scene, .taking before.length ((before.map finished).filterMap result?)⟩
  | reported {scene : Scene T} {verdict : Verdict}
      (handles : verdict = .allSucceeded → scene.handles = workers.map emptied)
      (decided : Decided workers deadline scene verdict) :
      Sound workers deadline ⟨scene, .reported (conclude (workers.map finished) verdict)⟩

namespace Round.Sound

variable {workers : List (Worker T)} {deadline : Option Nat} {s : Round T}

theorem advance_finished (w : Worker T) : (finished w).advance = finished w := by
  obtain ⟨outcome, hstage⟩ := stage_finished w
  exact advance_eq_self hstage

theorem advance_emptied (w : Worker T) : (emptied w).advance = emptied w := by
  obtain ⟨outcome, hstage⟩ := stage_emptied w
  exact advance_eq_self hstage

theorem thread (h : Sound workers deadline s) (worker : Nat) :
    Sound workers deadline { s with scene := s.scene.thread worker } := by
  cases h with
  | starting split manned => exact .starting split (manned.thread worker)
  | waiting watched => exact .waiting (watched.thread worker)
  | @taking scene before after split handles decided =>
      have still : ∀ handle ∈ scene.handles, handle.advance = handle := by
        rw [handles, List.forall_mem_append, List.forall_mem_map, List.forall_mem_map]
        exact ⟨fun w _ => advance_emptied w, fun w _ => advance_finished w⟩
      rw [thread_eq_self still]
      exact .taking split handles decided
  | @reported scene verdict handles decided =>
      refine .reported (fun hverdict => ?_) (decided.of_handles _)
      have still : ∀ handle ∈ scene.handles, handle.advance = handle := by
        rw [handles hverdict, List.forall_mem_map]
        exact fun w _ => advance_emptied w
      rw [thread_eq_self still, handles hverdict]

theorem take {scene : Scene T} {before after : List (Worker T)} (split : before ++ after = workers)
    (handles : scene.handles = before.map emptied ++ after.map finished)
    (decided : Decided workers deadline scene .allSucceeded) :
    Sound workers deadline
      (Round.take ⟨scene, .taking before.length ((before.map finished).filterMap result?)⟩
        before.length ((before.map finished).filterMap result?)) := by
  rw [Round.take]
  cases after with
  | nil =>
      rw [List.append_nil] at split
      rw [List.map_nil, List.append_nil] at handles
      subst split
      have hnone : scene.handles[before.length]? = none := by simp [handles]
      simp only [hnone]
      have reported := Round.Sound.reported (fun _ => handles) decided
      exact reported
  | cons w rest =>
      have hsome : scene.handles[before.length]? = some (finished w) := by simp [handles]
      have hset : scene.handles.set before.length (finished w).takeOutput.2 =
          (before ++ [w]).map emptied ++ rest.map finished := by
        simp [handles, List.set_append_right, emptied]
      simp only [hsome, hset]
      have htaken : (before.map finished).filterMap result? ++ (result? (finished w)).toList =
          ((before ++ [w]).map finished).filterMap result? := by
        cases hresult : result? (finished w) <;> simp [hresult]
      have hlength : before.length + 1 = (before ++ [w]).length := by simp
      rw [htaken, hlength]
      exact .taking (by simpa using split) rfl (decided.of_handles _)

theorem proceed (nul : ∀ w ∈ workers, '\x00' ∉ w.name.toList) (h : Sound workers deadline s) :
    Sound workers deadline s.proceed := by
  cases h with
  | @starting scene started rest split manned =>
      cases rest with
      | nil =>
          rw [List.append_nil] at split
          subst split
          exact .waiting (.begin manned)
      | cons w rest =>
          have hmem : w ∈ workers := by simp [← split]
          simp only [Round.proceed, Round.start, start_eq_ok (nul w hmem)]
          exact .starting (by simpa using split) (manned.start w)
  | @waiting scene watched =>
      rw [Round.proceed]
      cases hphase : scene.phase with
      | looking left =>
          dsimp only
          exact .waiting watched.proceed
      | asleep =>
          dsimp only
          exact .waiting watched.proceed
      | ended verdict =>
          dsimp only
          have decided := watched.decided hphase
          cases verdict with
          | allSucceeded =>
              have handles : scene.handles = [].map emptied ++ workers.map finished :=
                watched.handles_eq hphase
              have taking := Round.Sound.taking (List.nil_append workers) handles decided
              exact taking
          | failed f => exact .reported (by simp) decided
          | timedOut running => exact .reported (by simp) decided
          | waiting running => exact decided.told.elim
  | taking split handles decided => exact take split handles decided
  | reported handles decided => exact .reported handles decided

theorem wake (h : Sound workers deadline s) (now : Nat) :
    Sound workers deadline (s.wake deadline now) := by
  cases h with
  | starting split manned => exact .starting split manned
  | waiting watched => exact .waiting (watched.wake now)
  | taking split handles decided => exact .taking split handles decided
  | reported handles decided => exact .reported handles decided

theorem run (nul : ∀ w ∈ workers, '\x00' ∉ w.name.toList) (h : Sound workers deadline s)
    (actions : List Barrier.Action) : Sound workers deadline (s.run deadline actions) := by
  induction actions generalizing s with
  | nil => exact h
  | cons action rest ih =>
      apply ih
      cases action with
      | thread worker => exact h.thread worker
      | proceed => exact h.proceed nul
      | wake now => exact h.wake now

end Round.Sound

/-! ## What a run reports -/

section Target

variable [Named N] (target : N → Ending T) (n : N)

/-- A worker that runs a target has no handlers, so nothing else happens on its thread. -/
theorem finished_workerOn :
    finished (workerOn target n) =
      { worker := workerOn target n
        stage := .finished (((target n).outcome (Named.name n)).map some)
        events := [.bodyRun] } := by
  simp only [finished, Handle.finish, Handle.advance, workerOn]
  cases target n with
  | _ => rfl

theorem status_workerOn :
    (finished (workerOn target n)).status = found ((target n).outcome (Named.name n)) := by
  rw [finished_workerOn]
  cases target n with
  | _ => rfl

theorem events_workerOn : (emptied (workerOn target n)).events = [.bodyRun] := by
  have hevents : (finished (workerOn target n)).events = [.bodyRun] := by rw [finished_workerOn]
  rw [emptied]
  rcases takeOutput_cases (finished (workerOn target n)) with ⟨v, -, htake⟩ | ⟨-, htake⟩
  · rw [htake]
    exact hevents
  · rw [htake]
    exact hevents

/-- A worker gives a value exactly if its target does, under the name of the node. -/
theorem result?_workerOn (name : String) (v : T) :
    result? (finished (workerOn target n)) = some (name, v) ↔
      target n = .value v ∧ Named.name n = name := by
  rw [result?, finished_workerOn]
  cases htarget : target n with
  | value v' => simp [Handle.takeOutput, Ending.outcome, Except.map, workerOn, and_comm]
  | _ => simp [Handle.takeOutput, Ending.outcome, Except.map]

end Target

/-- The target has succeeded on every node, and the table holds its values under the names. -/
structure Collected [Named N] (target : N → Ending T) (nodes : List N) (t : Table T) : Prop where
  succeeded : ∀ n ∈ nodes, ∃ v, target n = .value v
  keys : ∀ name, t.contains name = true ↔ ∃ n ∈ nodes, Named.name n = name
  last : ∀ before n after, nodes = before ++ n :: after →
    (∀ later ∈ after, Named.name later ≠ Named.name n) →
      ∃ v, target n = .value v ∧ t.get? (Named.name n) = some v
  distinct : (nodes.map Named.name).Nodup → t.names.Perm (nodes.map Named.name)

/-- What has been done when a run reports values, and which ones these are. -/
structure Complete [Named N] (target : N → Ending T) (nodes : List N) (scene : Scene T)
    (t : Table T) : Prop extends Collected target nodes t where
  workers : scene.handles.map (·.worker) = nodes.map (workerOn target)
  once : ∀ h ∈ scene.handles, h.events = [.bodyRun]

/-- What a report of a run says.  A failure is the one that the target gives on a node, and that was
found last of its worker; a timeout names the nodes whose workers were last found running. -/
def Right [Named N] (target : N → Ending T) (nodes : List N) (scene : Scene T) : Report T → Prop
  | .values t => Complete target nodes scene t
  | .failed (.failed f) =>
    ∃ number n, nodes[number]? = some n ∧ (target n).outcome (Named.name n) = .error f ∧
      scene.lastFound? ⟨number, Named.name n⟩ = some (.failed f)
  | .failed (.timedOut names) =>
    names ≠ [] ∧
      names = ((places (nodes.map Named.name)).filter fun place =>
        scene.lastFound? place = some .running).map (·.name)
  | .panicked _ => False
  | .waiting => False

section Reports

variable [Named N] {target : N → Ending T} {nodes : List N}

theorem names_workerOn (target : N → Ending T) (nodes : List N) :
    (nodes.map (workerOn target)).map (·.name) = nodes.map Named.name := by
  rw [List.map_map]
  rfl

theorem reportOn_eq (nul : ∀ n ∈ nodes, '\x00' ∉ (Named.name n).toList) (verdict : Verdict) :
    reportOn target nodes verdict =
      conclude ((nodes.map (workerOn target)).map finished) verdict := by
  have hstart : (nodes.mapM fun n => (workerOn target n).start) =
      .ok ((nodes.map (workerOn target)).map fun w => { worker := w }) := by
    induction nodes with
    | nil => rfl
    | cons n rest ih =>
        rw [List.forall_mem_cons] at nul
        rw [List.mapM_cons, start_eq_ok (w := workerOn target n) nul.1, ih nul.2]
        rfl
  simp only [reportOn, hstart, List.map_map]
  rfl

/-- The values of finished workers are those that the target gives, under the names of the nodes. -/
theorem mem_results {name : String} {v : T} :
    (name, v) ∈ nodes.filterMap (result? ∘ finished ∘ workerOn target) ↔
      ∃ n ∈ nodes, target n = .value v ∧ Named.name n = name := by
  simp only [List.mem_filterMap, Function.comp_apply, result?_workerOn]

/-- The names in the table are those of the nodes on which the target succeeds. -/
theorem contains_results (succeeded : ∀ n ∈ nodes, ∃ v, target n = .value v) (name : String) :
    (Table.ofList (nodes.filterMap (result? ∘ finished ∘ workerOn target))).contains name = true ↔
      ∃ n ∈ nodes, Named.name n = name := by
  rw [Table.contains_ofList]
  constructor
  · rintro ⟨⟨name, v⟩, hpair, rfl⟩
    obtain ⟨n, hn, -, hname⟩ := mem_results.mp hpair
    exact ⟨n, hn, hname⟩
  · rintro ⟨n, hn, rfl⟩
    obtain ⟨v, hv⟩ := succeeded n hn
    exact ⟨(Named.name n, v), mem_results.mpr ⟨n, hn, hv, rfl⟩, rfl⟩

/-- The table has the value of the last node of a name. -/
theorem get?_results {before after : List N} {n : N} {v : T} (hv : target n = .value v)
    (last : ∀ later ∈ after, Named.name later ≠ Named.name n) :
    (Table.ofList ((before ++ n :: after).filterMap (result? ∘ finished ∘ workerOn target))).get?
      (Named.name n) = some v := by
  have hresult : (result? ∘ finished ∘ workerOn target) n = some (Named.name n, v) :=
    (result?_workerOn target n _ _).mpr ⟨hv, rfl⟩
  rw [List.filterMap_append, List.filterMap_cons_some hresult]
  apply Table.get?_ofList_of_last
  rintro ⟨name, v'⟩ hpair
  obtain ⟨later, hlater, -, rfl⟩ := mem_results.mp hpair
  exact last later hlater

/-- The table that is collected of workers that have all succeeded. -/
theorem collected_of_succeeded (succeeded : ∀ n ∈ nodes, ∃ v, target n = .value v) :
    Collected target nodes (collect ((nodes.map (workerOn target)).map finished)) := by
  rw [collect, List.map_map, List.filterMap_map]
  constructor
  case succeeded => exact succeeded
  case keys => exact contains_results succeeded
  case last =>
      rintro before n after rfl hlast
      obtain ⟨v, hv⟩ := succeeded n (by simp)
      exact ⟨v, hv, get?_results hv hlast⟩
  case distinct =>
      intro hnodup
      rw [List.perm_ext_iff_of_nodup (Table.nodup_names _) hnodup]
      intro name
      rw [Table.mem_names, contains_results succeeded, List.mem_map]

theorem complete_of_succeeded {scene : Scene T}
    (handles : scene.handles = (nodes.map (workerOn target)).map emptied)
    (succeeded : ∀ n ∈ nodes, ∃ v, target n = .value v) :
    Complete target nodes scene (collect ((nodes.map (workerOn target)).map finished)) where
  toCollected := collected_of_succeeded succeeded
  workers := by
    rw [handles, List.map_map, List.map_map]
    exact List.map_congr_left fun n _ => worker_emptied _
  once := by
    rw [handles, List.map_map, List.forall_mem_map]
    exact fun n _ => events_workerOn target n

/-- A worker that was last found at its end shows how the target ends on its node. -/
theorem Decided.shows {deadline : Option Nat} {scene : Scene T} {verdict : Verdict}
    (decided : Decided (nodes.map (workerOn target)) deadline scene verdict) {place : Place}
    (hplace : place ∈ places (nodes.map Named.name)) {status : Status}
    (hlast : scene.lastFound? place = some status) (ended : status ≠ .running) :
    ∃ n, nodes[place.number]? = some n ∧ Named.name n = place.name ∧
      found ((target n).outcome (Named.name n)) = status := by
  obtain ⟨w, hworker, hstatus⟩ := decided.ended place status hlast ended
  rw [Barrier.mem_places, List.getElem?_map, Option.map_eq_some_iff] at hplace
  obtain ⟨n, hnumber, hname⟩ := hplace
  obtain rfl : workerOn target n = w := by simpa [hnumber] using hworker
  exact ⟨n, hnumber, hname, by rw [← status_workerOn, hstatus]⟩

theorem Decided.succeeded {deadline : Option Nat} {scene : Scene T}
    (decided : Decided (nodes.map (workerOn target)) deadline scene .allSucceeded) :
    ∀ n ∈ nodes, ∃ v, target n = .value v := by
  have told := decided.told
  rw [names_workerOn] at told
  intro n hn
  obtain ⟨number, hnumber⟩ := List.mem_iff_getElem?.mp hn
  have hplace : (⟨number, Named.name n⟩ : Place) ∈ places (nodes.map Named.name) := by
    simp [Barrier.mem_places, hnumber]
  obtain ⟨n', hnumber', -, hfound⟩ := decided.shows hplace (told _ hplace) (by simp)
  obtain rfl : n = n' := Option.some.inj (hnumber.symm.trans hnumber')
  cases hbody : target n with
  | value v => exact ⟨v, rfl⟩
  | _ => simp [hbody, Ending.outcome, found] at hfound

/-- The report is right, whatever the verdict. -/
theorem Decided.right {deadline : Option Nat} {scene : Scene T} {verdict : Verdict}
    (decided : Decided (nodes.map (workerOn target)) deadline scene verdict)
    (handles : verdict = .allSucceeded →
      scene.handles = (nodes.map (workerOn target)).map emptied) :
    Right target nodes scene (conclude ((nodes.map (workerOn target)).map finished) verdict) := by
  have told := decided.told
  rw [names_workerOn] at told
  cases verdict with
  | allSucceeded => exact complete_of_succeeded (handles rfl) decided.succeeded
  | failed f =>
      obtain ⟨place, hplace, hlast⟩ := told
      obtain ⟨n, hnumber, hname, hfound⟩ := decided.shows hplace hlast (by simp)
      refine ⟨place.number, n, hnumber, ?_, by rw [hname]; exact hlast⟩
      cases houtcome : (target n).outcome (Named.name n) with
      | ok v => simp [houtcome, found] at hfound
      | error g => simpa [houtcome, found] using hfound
  | timedOut running =>
      obtain ⟨hne, hrunning⟩ := told
      exact ⟨by simpa using hne, congrArg _ hrunning⟩
  | waiting running => exact told.elim

end Reports

/-- Whatever turns the owner and the threads take, a run over nodes whose names have no NUL reports
what is right, and what the definition of a run makes of what the barrier has seen; and a run over
shared pointers to the nodes takes the same course. -/
theorem run_complete [Named N] (target : N → Ending T) (nodes : List N)
    (nul : ∀ n ∈ nodes, '\x00' ∉ (Named.name n).toList) (clock : Barrier.Clock)
    (timeout : Duration) (actions : List Barrier.Action) :
    let deadline := clock.deadline? timeout
    let s := (Round.begin target nodes).run deadline actions
    (∀ report, s.report? = some report →
      Right target nodes s.scene report ∧
        report = reportOn target nodes
          (passes (s.scene.watch deadline) (s.scene.pass + 1) 0
            (places (nodes.map Named.name)))) ∧
      (Round.begin (fun pointer : Shared N => target pointer.value) (nodes.map Shared.mk)).run
        deadline actions = s := by
  intro deadline s
  have nul' : ∀ w ∈ nodes.map (workerOn target), '\x00' ∉ w.name.toList := by
    rw [List.forall_mem_map]
    exact nul
  have hbegin : (Round.begin target nodes).Sound (nodes.map (workerOn target)) deadline :=
    .starting rfl .nil
  have sound : s.Sound (nodes.map (workerOn target)) deadline := hbegin.run nul' actions
  constructor
  · intro report hreport
    cases hs : s with
    | mk scene progress =>
        rw [hs] at sound hreport
        cases sound with
        | starting => cases hreport
        | waiting => cases hreport
        | taking => cases hreport
        | @reported _ verdict handles decided =>
            obtain rfl := Option.some.inj hreport
            have hcomputed := decided.computed
            rw [names_workerOn] at hcomputed
            rw [hcomputed, reportOn_eq nul]
            exact ⟨decided.right handles, rfl⟩
  · have hshared : Round.begin (fun pointer : Shared N => target pointer.value)
        (nodes.map Shared.mk) = Round.begin target nodes := by
      rw [Round.begin, List.map_map]
      rfl
    rw [hshared]

/-- Of two nodes with one name, the last one counts. -/
theorem run_complete_same_name :
    let nodes : List (Node Nat) :=
      [⟨"b", .value 1, none⟩, ⟨"a", .value 2, none⟩, ⟨"b", .value 3, none⟩]
    let threads := (List.range 3).flatMap fun worker => List.replicate 4 (.thread worker)
    let actions := List.replicate 4 .proceed ++ threads ++ List.replicate 9 .proceed
    let s := (Round.begin Node.body nodes).run (some 1000000000) actions
    ∃ t, s.report? = some (.values t) ∧ Complete Node.body nodes s.scene t ∧
      t.entries = [("a", 2), ("b", 3)] := by
  intro nodes threads actions s
  have hcheck : (s.report?.map fun report =>
      match report with
      | .values t => t.entries
      | _ => []) = some [("a", 2), ("b", 3)] := by decide +kernel
  obtain ⟨report, hreport, hentries⟩ := Option.map_eq_some_iff.mp hcheck
  have hright := ((run_complete Node.body nodes (by decide) ⟨0, fun _ => 0⟩ (.ofMilliseconds 1000)
    actions).1 _ hreport).1
  cases report with
  | values t => exact ⟨t, hreport, hright, hentries⟩
  | _ => cases hentries

end Testbed.Worker.Parallel
