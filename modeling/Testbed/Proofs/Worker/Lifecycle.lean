import Mathlib.Data.List.Infix
import Testbed.Proofs.Text.Utf8
import Testbed.Proofs.Worker.Scene
import Testbed.Proofs.Worker.Session

/-!
# The life of a worker

Whatever turns the thread and the owner take, the thread follows its course, the outcome is
published at the end of it and not before, and every answer is the one expected after what stands in
the record before it.

The invariant is about three things: the record and what the thread still has to do make up the
whole course; the stage of the thread is the one that the record tells; and the answers so far are
right.
-/

namespace Testbed.Worker

universe u

variable {T : Type u}

/-! ## Setting up -/

theorem configured_concat (name : String) (body : Ending T) (settings : List Setting)
    (setting : Setting) :
    configured name body (settings ++ [setting]) =
      setting.apply (configured name body settings) := by
  simp [configured]

theorem configured_eq (name : String) (body : Ending T) (settings : List Setting) :
    configured name body settings =
      { name, body, errorHandler := lastErrorHandler settings,
        exitHandler := lastExitHandler settings } := by
  induction settings using List.reverseRecOn with
  | nil => rfl
  | append_singleton settings setting ih =>
      rw [configured_concat, ih]
      cases setting <;>
        simp [Setting.apply, setErrorHandler, setExitHandler, lastErrorHandler, lastExitHandler,
          Setting.errorHandler?, Setting.exitHandler?]

/-- A thread can have any name without a NUL. -/
theorem start_eq_ok {w : Worker T} (nul : '\x00' ∉ w.name.toList) :
    w.start = .ok { worker := w } := by
  have hzero : (Text.Utf8.encode w.name).findIdx? (· == 0) = none := by
    rw [List.findIdx?_eq_none_iff]
    intro b hb
    have hne : b ≠ 0 := by
      rintro rfl
      exact nul (Text.Utf8.zero_mem_encode.mp hb)
    simpa using hne
  rw [start, namePanic?]
  simp only [hzero]

/-! ## The record -/

@[simp] theorem isOver_append (record more : List (Entry T)) :
    isOver (record ++ more) = (isOver record || isOver more) := by
  simp [isOver]

theorem isOver_event (e : Event) : isOver [(.event e : Entry T)] = false := rfl

theorem isOver_published : isOver [(.published : Entry T)] = true := rfl

theorem isOver_answered (call : Call) (answer : Answer T) :
    isOver [.answered call answer] = false := rfl

theorem isTaken_append (record more : List (Entry T)) :
    isTaken (record ++ more) =
      if isOver record then isTaken record || more.any Entry.isTake else isTaken more := by
  induction record with
  | nil => simp [isOver]
  | cons entry rest ih =>
      cases hentry : entry.isPublished with
      | true => simp [isTaken, isOver, hentry, Bool.or_assoc]
      | false => simpa [isTaken, isOver, hentry] using ih

/-- The thread answers nothing. -/
theorem answered_of_append {record more before : List (Entry T)} {call : Call} {answer : Answer T}
    (hmore : ∀ entry ∈ more, entry.isOfThread = true)
    (h : before ++ [.answered call answer] <+: record ++ more) :
    before ++ [.answered call answer] <+: record := by
  induction more using List.reverseRecOn with
  | nil => simpa using h
  | append_singleton more entry ih =>
      rw [← List.append_assoc, List.prefix_concat_iff] at h
      rcases h with heq | hprefix
      · obtain ⟨-, hentry⟩ := List.append_inj' heq rfl
        have hthread := hmore entry (by simp)
        rw [← List.singleton_inj.mp hentry] at hthread
        cases hthread
      · exact ih (fun entry hentry => hmore entry (by simp [hentry])) hprefix

/-! ## Steps of the thread -/

/-- What a step of the thread comes to, case by case: the next stage, and what is seen. -/
inductive StepsTo (h : Handle T) : Stage T → List (Entry T) → Prop
  | body (stage : h.stage = .ready) :
      StepsTo h (.ended (h.worker.body.outcome h.worker.name)) [.event .bodyRun]
  | errorHandler {f : Failure} {handler : Handler} (stage : h.stage = .ended (.error f))
      (set : h.worker.errorHandler = some handler) :
      StepsTo h (Handle.after handler .handled (.error f))
        [.event (.errorHandled handler.label f)]
  | unhandled {f : Failure} (stage : h.stage = .ended (.error f))
      (unset : h.worker.errorHandler = none) : StepsTo h (.handled (.error f)) []
  | succeeded {v : T} (stage : h.stage = .ended (.ok v)) : StepsTo h (.handled (.ok v)) []
  | exitHandler {outcome : Except Failure T} {handler : Handler}
      (stage : h.stage = .handled outcome) (set : h.worker.exitHandler = some handler) :
      StepsTo h (.closing outcome) [.event (.exitHandled handler.label)]
  | silent {outcome : Except Failure T} (stage : h.stage = .handled outcome)
      (unset : h.worker.exitHandler = none) : StepsTo h (.closing outcome) []
  | publication {outcome : Except Failure T} (stage : h.stage = .closing outcome) :
      StepsTo h (.finished (outcome.map some)) [.published]
  | still {outcome : Except Failure (Option T)} (stage : h.stage = .finished outcome) :
      StepsTo h (.finished outcome) []

theorem isAlive_eq (h : Handle T) :
    h.isAlive = match h.stage with | .finished _ => false | _ => true := by
  unfold Handle.isAlive Handle.status
  cases h.stage with
  | finished outcome => cases outcome <;> rfl
  | _ => rfl

theorem stepsTo_advance (h : Handle T) : StepsTo h h.advance.stage h.shown := by
  unfold Handle.shown
  rw [isAlive_eq, isAlive_eq]
  cases hstage : h.stage with
  | ready => simpa [Handle.advance, hstage] using StepsTo.body hstage
  | ended outcome =>
      cases outcome with
      | ok v => simpa [Handle.advance, hstage] using StepsTo.succeeded hstage
      | error f =>
          cases hset : h.worker.errorHandler with
          | none => simpa [Handle.advance, hstage, hset] using StepsTo.unhandled hstage hset
          | some handler =>
              have := StepsTo.errorHandler hstage hset
              cases hpanics : handler.panics <;>
                simpa [Handle.advance, hstage, hset, Handle.after, hpanics] using this
  | handled outcome =>
      cases hset : h.worker.exitHandler with
      | none => simpa [Handle.advance, hstage, hset] using StepsTo.silent hstage hset
      | some handler =>
          simpa [Handle.advance, hstage, hset] using StepsTo.exitHandler hstage hset
  | closing outcome => simpa [Handle.advance, hstage] using StepsTo.publication hstage
  | finished outcome => simpa [Handle.advance, hstage] using StepsTo.still hstage

theorem StepsTo.isOfThread {h : Handle T} {stage : Stage T} {shown : List (Entry T)}
    (step : StepsTo h stage shown) : ∀ entry ∈ shown, entry.isOfThread = true := by
  cases step <;> simp [Entry.isOfThread]

/-- What the thread of a worker has still to do, from a stage on. -/
def remaining (w : Worker T) : Stage T → List (Entry T)
  | .ready =>
    (course (w.body.outcome w.name) w.errorHandler w.exitHandler).map .event ++ [.published]
  | .ended outcome =>
    (handlerCourse w.errorHandler w.exitHandler outcome).map .event ++ [.published]
  | .handled _ => (exitCourse w.exitHandler).map .event ++ [.published]
  | .closing _ => [.published]
  | .finished _ => []

theorem StepsTo.remaining_eq {h : Handle T} {stage : Stage T} {shown : List (Entry T)}
    (step : StepsTo h stage shown) :
    remaining h.worker h.stage = shown ++ remaining h.worker stage := by
  cases step with
  | body hstage => simp [hstage, remaining, course]
  | @errorHandler f handler hstage hset =>
      cases hpanics : handler.panics <;>
        simp [hstage, remaining, handlerCourse, hset, Handle.after, hpanics]
  | unhandled hstage hset => simp [hstage, remaining, handlerCourse, hset]
  | succeeded hstage => simp [hstage, remaining, handlerCourse]
  | exitHandler hstage hset => simp [hstage, remaining, exitCourse, hset]
  | silent hstage hset => simp [hstage, remaining, exitCourse, hset]
  | publication hstage => simp [hstage, remaining]
  | still hstage => simp [hstage, remaining]

/-- A bound on the steps of the thread that are left. -/
def stepsLeft : Stage T → Nat
  | .ready => 4
  | .ended _ => 3
  | .handled _ => 2
  | .closing _ => 1
  | .finished _ => 0

theorem StepsTo.stepsLeft_le {h : Handle T} {stage : Stage T} {shown : List (Entry T)}
    (step : StepsTo h stage shown) : stepsLeft stage ≤ stepsLeft h.stage - 1 := by
  cases step with
  | @errorHandler f handler hstage hset =>
      cases hpanics : handler.panics <;> simp [hstage, stepsLeft, Handle.after, hpanics]
  | body hstage => simp [hstage, stepsLeft]
  | unhandled hstage => simp [hstage, stepsLeft]
  | succeeded hstage => simp [hstage, stepsLeft]
  | exitHandler hstage => simp [hstage, stepsLeft]
  | silent hstage => simp [hstage, stepsLeft]
  | publication hstage => simp [hstage, stepsLeft]
  | still hstage => simp [hstage, stepsLeft]

theorem remaining_eq_nil (w : Worker T) {stage : Stage T} (h : stepsLeft stage = 0) :
    remaining w stage = [] := by
  cases stage with
  | finished outcome => rfl
  | _ => cases h

/-! ## What the record tells of the stage -/

/-- What is there to be taken or replayed after a record. -/
def kept (outcome : Except Failure T) (record : List (Entry T)) : Except Failure (Option T) :=
  outcome.map fun v => if isTaken record then none else some v

/-- A stage is the one that a record tells. -/
def Stands (outcome : Except Failure T) (record : List (Entry T)) : Stage T → Prop
  | .ready => isOver record = false
  | .ended result | .handled result | .closing result => result = outcome ∧ isOver record = false
  | .finished result => isOver record = true ∧ result = kept outcome record

theorem StepsTo.stands {h : Handle T} {stage : Stage T} {shown : List (Entry T)}
    (step : StepsTo h stage shown) {record : List (Entry T)}
    (stands : Stands (h.worker.body.outcome h.worker.name) record h.stage) :
    Stands (h.worker.body.outcome h.worker.name) (record ++ shown) stage := by
  cases step with
  | body hstage =>
      rw [hstage] at stands
      exact ⟨rfl, by rw [isOver_append, stands, isOver_event, Bool.or_false]⟩
  | @errorHandler f handler hstage hset =>
      rw [hstage] at stands
      have hover : isOver (record ++ [.event (.errorHandled handler.label f)]) = false := by
        rw [isOver_append, stands.2, isOver_event, Bool.or_false]
      cases hpanics : handler.panics <;> simpa [Handle.after, hpanics] using ⟨stands.1, hover⟩
  | exitHandler hstage =>
      rw [hstage] at stands
      exact ⟨stands.1, by rw [isOver_append, stands.2, isOver_event, Bool.or_false]⟩
  | publication hstage =>
      rw [hstage] at stands
      obtain ⟨rfl, hover⟩ := stands
      refine ⟨by rw [isOver_append, isOver_published, Bool.or_true], ?_⟩
      rw [kept, isTaken_append, hover]
      rfl
  | unhandled hstage => rwa [hstage, ← List.append_nil record] at stands
  | succeeded hstage => rwa [hstage, ← List.append_nil record] at stands
  | silent hstage => rwa [hstage, ← List.append_nil record] at stands
  | still hstage => rwa [hstage, ← List.append_nil record] at stands

section Stands

variable {outcome : Except Failure T} {record : List (Entry T)} {h : Handle T}

theorem Stands.isAlive (stands : Stands outcome record h.stage) :
    h.isAlive = !isOver record := by
  rw [isAlive_eq]
  cases hstage : h.stage with
  | ready =>
      rw [hstage] at stands
      rw [show isOver record = false from stands]
      rfl
  | finished result =>
      rw [hstage] at stands
      rw [stands.1]
      rfl
  | _ =>
      rw [hstage] at stands
      rw [stands.2]
      rfl

theorem Stands.finished (stands : Stands outcome record h.stage) (hover : isOver record = true) :
    h.stage = .finished (kept outcome record) := by
  cases hstage : h.stage with
  | ready => simp [hstage, Stands, hover] at stands
  | finished result =>
      rw [hstage] at stands
      rw [stands.2]
  | _ => simp [hstage, Stands, hover] at stands

theorem Stands.status (stands : Stands outcome record h.stage) :
    h.status = if isOver record then found outcome else .running := by
  cases hover : isOver record with
  | false =>
      have halive : h.isAlive = true := by rw [stands.isAlive, hover, Bool.not_false]
      simpa [Handle.isAlive] using halive
  | true =>
      rw [Handle.status, stands.finished hover]
      cases outcome <;> rfl

theorem Stands.joined (stands : Stands outcome record h.stage) :
    h.joined = if isOver record then failure? outcome else none := by
  rw [Handle.joined, stands.status]
  cases isOver record <;> cases outcome <;> rfl

theorem Stands.answered {stage : Stage T} (stands : Stands outcome record stage) (call : Call)
    (answer : Answer T)
    (same : isOver record = true →
      kept outcome (record ++ [.answered call answer]) = kept outcome record) :
    Stands outcome (record ++ [.answered call answer]) stage := by
  have hover : isOver (record ++ [.answered call answer]) = isOver record := by
    rw [isOver_append, isOver_answered, Bool.or_false]
  cases stage with
  | ready => exact hover.trans stands
  | finished result => exact ⟨hover.trans stands.1, stands.2.trans (same stands.1).symm⟩
  | _ => exact ⟨stands.1, hover.trans stands.2⟩

theorem takeOutput_cases (h : Handle T) :
    (∃ v, h.stage = .finished (.ok (some v)) ∧
      h.takeOutput = (some v, { h with stage := .finished (.ok none) })) ∨
      (∀ v, h.stage ≠ .finished (.ok (some v))) ∧ h.takeOutput = (none, h) := by
  unfold Handle.takeOutput
  split
  case h_1 v hstage => exact Or.inl ⟨v, hstage, rfl⟩
  case h_2 hstage => exact Or.inr ⟨hstage, rfl⟩

/-- Only the first call for the output of a worker that has succeeded gets it. -/
theorem Stands.takeOutput (stands : Stands outcome record h.stage) (answer : Answer T) :
    h.takeOutput.1 = (if isOver record && !isTaken record then outcome.toOption else none) ∧
      Stands outcome (record ++ [.answered .takeOutput answer]) h.takeOutput.2.stage := by
  have htaken : isOver record = true →
      isTaken (record ++ [.answered .takeOutput answer]) = true := by
    intro hover
    rw [isTaken_append, if_pos hover]
    exact Bool.or_true _
  rcases takeOutput_cases h with ⟨v, hstage, htake⟩ | ⟨hstage, htake⟩
  · rw [hstage] at stands
    obtain ⟨hover, hkept⟩ := stands
    rw [htake]
    cases outcome with
    | error f => cases hkept
    | ok v' =>
        cases hyet : isTaken record with
        | true => simp [kept, hyet, Except.map] at hkept
        | false =>
            obtain rfl : v = v' := by simpa [kept, hyet, Except.map] using hkept
            refine ⟨by simp [hover, Except.toOption], ?_, ?_⟩
            · rw [isOver_append, hover, Bool.true_or]
            · rw [kept, htaken hover]
              rfl
  · rw [htake]
    cases hover : isOver record with
    | false => exact ⟨by simp, stands.answered _ _ (by simp [hover])⟩
    | true =>
        have hfinished := stands.finished hover
        cases outcome with
        | error f => exact ⟨by simp [Except.toOption], stands.answered _ _ fun _ => rfl⟩
        | ok v =>
            cases hyet : isTaken record with
            | false => exact absurd hfinished (by simpa [kept, hyet, Except.map] using hstage v)
            | true =>
                refine ⟨by simp, stands.answered _ _ fun _ => ?_⟩
                rw [kept, htaken hover, kept, hyet]

theorem Stands.answered_of_ne {stage : Stage T} (stands : Stands outcome record stage)
    {call : Call} (other : call ≠ .takeOutput) (answer : Answer T) :
    Stands outcome (record ++ [.answered call answer]) stage := by
  refine stands.answered call answer fun hover => ?_
  have htaken : isTaken (record ++ [.answered call answer]) = isTaken record := by
    rw [isTaken_append, if_pos hover]
    cases call with
    | takeOutput => exact absurd rfl other
    | _ => exact Bool.or_false _
  rw [kept, htaken, kept]

/-- A call that ends gets the answer that is expected, and leaves the stage that is told. -/
theorem Stands.end (stands : Stands outcome record h.stage) (call : Call) :
    (call.end h).1 = expected outcome record call ∧
      Stands outcome (record ++ [.answered call (call.end h).1]) (call.end h).2.stage := by
  cases call with
  | isAlive => exact ⟨congrArg Answer.alive stands.isAlive, stands.answered_of_ne (by simp) _⟩
  | join timeout =>
      refine ⟨congrArg Answer.joined ?_, stands.answered_of_ne (by simp) _⟩
      rw [stands.joined]
      cases isOver record <;> cases outcome <;> rfl
  | joinSuppressed timeout =>
      exact ⟨congrArg Answer.suppressed stands.joined, stands.answered_of_ne (by simp) _⟩
  | takeOutput =>
      obtain ⟨hvalue, hstands⟩ := stands.takeOutput (.output h.takeOutput.1)
      exact ⟨congrArg Answer.output hvalue, hstands⟩
  | check => exact ⟨congrArg Answer.checked stands.status, stands.answered_of_ne (by simp) _⟩

end Stands

/-! ## Sessions -/

/-- Every answer in a record is the one expected after what stands before it, and no join without a
timeout has ended before the publication. -/
def Truthful (outcome : Except Failure T) (record : List (Entry T)) : Prop :=
  ∀ before call answer, before ++ [.answered call answer] <+: record →
    answer = expected outcome before call ∧ (call.waitsForever = true → isOver before = true)

theorem Truthful.append {outcome : Except Failure T} {record shown : List (Entry T)}
    (h : Truthful outcome record) (hshown : ∀ entry ∈ shown, entry.isOfThread = true) :
    Truthful outcome (record ++ shown) := by
  intro before call answer hprefix
  exact h before call answer (answered_of_append hshown hprefix)

theorem Truthful.answered {outcome : Except Failure T} {record : List (Entry T)}
    (h : Truthful outcome record) {call : Call}
    (hover : call.waitsForever = true → isOver record = true) :
    Truthful outcome (record ++ [.answered call (expected outcome record call)]) := by
  intro before call' answer' hprefix
  rw [List.prefix_concat_iff] at hprefix
  rcases hprefix with heq | hprefix
  · obtain ⟨rfl, hentry⟩ := List.append_inj' heq rfl
    obtain ⟨rfl, rfl⟩ := Entry.answered.inj (List.singleton_inj.mp hentry)
    exact ⟨rfl, hover⟩
  · exact h before call' answer' hprefix

namespace Session

/-- A session that has gone as it should so far. -/
structure Coherent (w : Worker T) (s : Session T) : Prop where
  worker : s.handle.worker = w
  thread : s.record.filter Entry.isOfThread ++ remaining w s.handle.stage = remaining w .ready
  stage : Stands (w.body.outcome w.name) s.record s.handle.stage
  truthful : Truthful (w.body.outcome w.name) s.record

theorem Coherent.begin (w : Worker T) : Coherent w { handle := { worker := w } } where
  worker := rfl
  thread := rfl
  stage := rfl
  truthful := by
    intro before call answer hprefix
    simp at hprefix

theorem Coherent.threadStep {w : Worker T} {s : Session T} (h : Coherent w s) :
    Coherent w s.thread := by
  obtain ⟨rfl, hthread, hstage, htruthful⟩ := h
  have step := stepsTo_advance s.handle
  refine ⟨Handle.worker_advance s.handle, ?_, step.stands hstage,
    htruthful.append step.isOfThread⟩
  have hshown : s.handle.shown.filter Entry.isOfThread = s.handle.shown :=
    List.filter_eq_self.mpr step.isOfThread
  rw [← hthread, step.remaining_eq, Session.thread, List.filter_append, hshown, List.append_assoc]

/-- What the owner does changes nothing on the thread. -/
theorem end_thread (w : Worker T) (h : Handle T) (call : Call) :
    (call.end h).2.worker = h.worker ∧ remaining w (call.end h).2.stage = remaining w h.stage ∧
      stepsLeft (call.end h).2.stage = stepsLeft h.stage := by
  cases call with
  | takeOutput =>
      simp only [Call.end]
      rcases takeOutput_cases h with ⟨v, hstage, htake⟩ | ⟨-, htake⟩
      · rw [htake, hstage]
        exact ⟨rfl, rfl, rfl⟩
      · rw [htake]
        exact ⟨rfl, rfl, rfl⟩
  | _ => exact ⟨rfl, rfl, rfl⟩

theorem Coherent.ended {w : Worker T} {s : Session T} (h : Coherent w s) {call : Call}
    (hover : call.waitsForever = true → isOver s.record = true) : Coherent w (s.finish call) := by
  obtain ⟨hanswer, hstands⟩ := h.stage.end call
  obtain ⟨hworker, hremaining, -⟩ := end_thread w s.handle call
  refine ⟨hworker.trans h.worker, ?_, hstands, ?_⟩
  · have hfilter : (s.finish call).record.filter Entry.isOfThread =
        s.record.filter Entry.isOfThread := by
      simp [Session.finish, Entry.isOfThread]
    rw [hfilter, Session.finish, hremaining, h.thread]
  · rw [Session.finish, hanswer]
    exact h.truthful.answered hover

theorem Coherent.waiting {w : Worker T} {s : Session T} (h : Coherent w s) (call : Option Call) :
    Coherent w { s with waiting := call } :=
  ⟨h.worker, h.thread, h.stage, h.truthful⟩

theorem waits_of_waitsForever {call : Call} (h : call.waitsForever = true) :
    call.waits = true := by
  cases call with
  | join timeout => rfl
  | joinSuppressed timeout => rfl
  | _ => cases h

theorem Coherent.act {w : Worker T} {s : Session T} (h : Coherent w s) (action : Action) :
    Coherent w (s.act action) := by
  have halive := h.stage.isAlive
  cases action with
  | thread => exact h.threadStep
  | call call =>
      rw [Session.act, Session.call]
      split
      case h_1 => exact h
      case h_2 =>
          split
          case isTrue => exact h.waiting _
          case isFalse hends =>
              refine h.ended fun hforever => ?_
              simpa [waits_of_waitsForever hforever, halive] using hends
  | wake late =>
      rw [Session.act, Session.wake]
      split
      case h_1 => exact h
      case h_2 =>
          split
          case isTrue => exact h
          case isFalse hends =>
              refine h.ended fun hforever => ?_
              simpa [hforever, halive] using hends

theorem Coherent.run {w : Worker T} {s : Session T} (h : Coherent w s) (actions : List Action) :
    Coherent w (s.run actions) := by
  induction actions generalizing s with
  | nil => exact h
  | cons action rest ih => exact ih (h.act action)

/-! ## Progress -/

theorem stepsLeft_act (s : Session T) (action : Action) :
    stepsLeft (s.act action).handle.stage ≤
      stepsLeft s.handle.stage - [action].count .thread := by
  cases action with
  | thread => exact (stepsTo_advance s.handle).stepsLeft_le
  | call call =>
      have hend := (end_thread s.handle.worker s.handle call).2.2
      simp only [Session.act, Session.call]
      split
      case h_1 => simp
      case h_2 => split <;> simp [Session.finish, hend]
  | wake late =>
      simp only [Session.act, Session.wake]
      split
      case h_1 => simp
      case h_2 call hwaiting =>
          have hend := (end_thread s.handle.worker s.handle call).2.2
          split <;> simp [Session.finish, hend]

theorem stepsLeft_run (s : Session T) (actions : List Action) :
    stepsLeft (s.run actions).handle.stage ≤
      stepsLeft s.handle.stage - actions.count .thread := by
  induction actions generalizing s with
  | nil => simp [Session.run]
  | cons action rest ih =>
      have hact := stepsLeft_act s action
      have hrest := ih (s.act action)
      have hrun : s.run (action :: rest) = (s.act action).run rest := rfl
      have hcount :
          (action :: rest).count .thread = [action].count .thread + rest.count .thread := by
        rw [← List.singleton_append, List.count_append]
      rw [hrun, hcount]
      omega

/-- Nobody waits in vain for a worker that is over. -/
theorem Coherent.answered_at_once {w : Worker T} {s : Session T} (h : Coherent w s)
    (hover : isOver s.record = true) (call : Call) (late : Bool) :
    (s.waiting = none → s.call call = s.finish call) ∧
      (s.waiting = some call → s.wake late = s.finish call) := by
  have halive : s.handle.isAlive = false := by rw [h.stage.isAlive, hover, Bool.not_true]
  refine ⟨fun hwaiting => ?_, fun hwaiting => ?_⟩
  · simp [Session.call, hwaiting, halive]
  · simp [Session.wake, hwaiting, halive]

theorem record_act (s : Session T) (action : Action) : s.record <+: (s.act action).record := by
  cases action with
  | thread => exact List.prefix_append _ _
  | call call =>
      simp only [Session.act, Session.call]
      split
      case h_1 => exact List.prefix_refl _
      case h_2 => split <;> simp [Session.finish]
  | wake late =>
      simp only [Session.act, Session.wake]
      split
      case h_1 => exact List.prefix_refl _
      case h_2 => split <;> simp [Session.finish]

theorem record_run (s : Session T) (actions : List Action) :
    s.record <+: (s.run actions).record := by
  induction actions generalizing s with
  | nil => exact List.prefix_refl _
  | cons action rest ih => exact (record_act s action).trans (ih _)

end Session

/-- Of a worker that is started, whatever turns its thread and the owner of its handle take: what
happens on the thread is a beginning of its course, with the publication at the end, and after four
steps all of it; every answer is the one expected after what has happened before; and a worker that
is over answers everything at once, also a join that waits. -/
theorem lifecycle (name : String) (body : Ending T) (settings : List Setting)
    (nul : '\x00' ∉ name.toList) :
    ∃ h, (configured name body settings).start = .ok h ∧
      ∀ actions : List Action,
        let outcome := body.outcome name
        let whole : List (Entry T) :=
          (course outcome (lastErrorHandler settings) (lastExitHandler settings)).map .event ++
            [.published]
        let s := Session.run { handle := h } actions
        s.record.filter Entry.isOfThread <+: whole ∧
          (4 ≤ actions.count .thread → s.record.filter Entry.isOfThread = whole) ∧
          Truthful outcome s.record ∧
          (isOver s.record = true → ∀ call,
            let answered := s.record ++ [.answered call (expected outcome s.record call)]
            (s.waiting = none → (s.call call).record = answered) ∧
              (s.waiting = some call → ∀ late, (s.wake late).record = answered)) ∧
          ∀ more, s.record <+: (s.run more).record := by
  rw [configured_eq]
  refine ⟨_, start_eq_ok nul, ?_⟩
  intro actions outcome whole s
  have hcoherent : Session.Coherent _ s := (Session.Coherent.begin _).run actions
  have hthread : s.record.filter Entry.isOfThread ++ remaining _ s.handle.stage = whole :=
    hcoherent.thread
  refine ⟨⟨_, hthread⟩, ?_, hcoherent.truthful, ?_, Session.record_run s⟩
  · intro hcount
    have hsteps : stepsLeft s.handle.stage ≤ 4 - actions.count .thread :=
      Session.stepsLeft_run _ actions
    rw [remaining_eq_nil _ (by omega), List.append_nil] at hthread
    exact hthread
  · intro hover call answered
    have hanswered : (s.finish call).record = answered := by
      rw [Session.finish, (hcoherent.stage.end call).1]
    constructor
    · intro hwaiting
      rw [(hcoherent.answered_at_once hover call false).1 hwaiting, hanswered]
    · intro hwaiting late
      rw [(hcoherent.answered_at_once hover call late).2 hwaiting, hanswered]

/-- Two error handlers are set, and the last one panics. -/
theorem lifecycle_panicking_handler :
    let failure : Failure := ⟨"w", .panic (.text "boom")⟩
    let settings : List Setting :=
      [.errorHandler ⟨"first", false⟩, .exitHandler ⟨"exit", false⟩, .errorHandler ⟨"last", true⟩]
    let actions : List Action :=
      [.call (.join none), .thread, .thread, .wake true, .thread, .thread, .wake false]
    '\x00' ∉ "w".toList ∧
      ∃ h, (configured (T := Nat) "w" (.panic (.text "boom")) settings).start = .ok h ∧
        let s := Session.run { handle := h } actions
        s.record.filter Entry.isOfThread =
          [.event .bodyRun, .event (.errorHandled "last" failure), .published] := by
  intro failure settings actions
  refine ⟨by decide, ?_⟩
  obtain ⟨h, hstart, hlife⟩ :=
    lifecycle (T := Nat) "w" (.panic (.text "boom")) settings (by decide)
  refine ⟨h, hstart, ?_⟩
  obtain ⟨-, hwhole, -⟩ := hlife actions
  exact hwhole (by decide)

end Testbed.Worker
