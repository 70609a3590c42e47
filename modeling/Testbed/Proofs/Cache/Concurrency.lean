import Testbed.Proofs.Cache.Clearing
import Testbed.Proofs.Cache.Coherence
import Testbed.Proofs.Cache.Threads

/-!
# Concurrent calls lose nothing

Threads share an enabled cache.  However their steps are interleaved, each call gives what its
function gives, and every entry is what one of the calls that have written it has written there
last; an entry that no call has written is as it was at first.  The invariant speaks of entries and
not of the memory or the files of a zone, so it makes no difference that calls write other entries
of the same zone between the steps of a call, although each of them writes the file of the zone as a
whole.
-/

namespace Testbed.Cache

open Lookup (Stage)

/-! ## Hooks that are coherent for what is asked -/

/-- Behind a look-up there is a function of the arguments alone.  For the arguments that are asked
for, what is stored of its results is read back, and what the hook takes from nothing, or from what
is stored in the same zone, is what the function gives. -/
structure Lookup.CoherentFor {A T E S : Type} (l : Lookup A T E S) (f : A → Except E T)
    (asked : A → Prop) : Prop where
  pure : ∀ files args, asked args → l.compute files args = f args
  readBack : ∀ writer written, asked writer → f writer = .ok written →
    Json.decodeText? l.decode (l.encode (l.beforeWrite written writer)).compact =
      some (l.beforeWrite written writer)
  absent : ∀ args value, asked args → l.afterRead none args = some value → f args = .ok value
  present : ∀ writer written args value zone, asked writer → asked args →
    f writer = .ok written → l.zone writer = .ok zone → l.zone args = .ok zone →
    l.afterRead (some (l.beforeWrite written writer)) args = some value → f args = .ok value

theorem Lookup.Coherent.coherentFor {A T E S : Type} {l : Lookup A T E S} {f : A → Except E T}
    (h : l.Coherent f) (asked : A → Prop) : l.CoherentFor f asked where
  pure := fun files args _ => h.pure files args
  readBack := fun writer written _ => h.readBack writer written
  absent := fun args value _ => h.absent args value
  present := fun writer written args value zone _ _ => h.present writer written args value zone

/-- What a call gives without a cache. -/
def Lookup.direct {A T E S : Type} (l : Lookup A T E S) (f : A → Except E T) (args : A) :
    Except (Lookup.Failure E) T :=
  match l.zone args with
  | .error e => .error (.cache e)
  | .ok _ => (f args).mapError .computation

/-- What a call has come to is right: its zone, its value, and in the end its answer.  A value that
it has computed has been written, or the cache has told why not. -/
def Lookup.Stage.Right {A T E S : Type} (l : Lookup A T E S) (f : A → Except E T) (args : A) :
    Stage E T → Prop
  | .asked => True
  | .missed zone => l.zone args = .ok zone
  | .computed zone value => l.zone args = .ok zone ∧ f args = .ok value
  | .answered answer written =>
    answer.result = l.direct f args ∧ ∀ value, answer = ⟨.ok value, true⟩ → written ≠ none

section Family

variable {ι : Type} {A T E S : ι → Type} (ls : ∀ i, Lookup (A i) (T i) (E i) (S i))
  (f : ∀ i, A i → Except (E i) (T i))

namespace Call

/-- A call has written a value that it has computed. -/
def Stored (c : Call A T E) (zone : String) (value : T c.lookup) : Prop :=
  (ls c.lookup).zone c.args = .ok zone ∧
    c.stage = .answered ⟨.ok value, true⟩ (some (.ok ()))

/-- The text of a value that is written. -/
def text (c : Call A T E) (value : T c.lookup) : String :=
  ((ls c.lookup).encode ((ls c.lookup).beforeWrite value c.args)).compact

/-- What a call has come to is right. -/
def Right (c : Call A T E) : Prop := c.stage.Right (ls c.lookup) (f c.lookup) c.args

/-- A call has come to be `c`, and the workspace to be `w'`.  The entry that it has written has been
changed, and no other. -/
structure Effect (c : Call A T E) (w w' : Workspace) : Prop where
  right : c.Right ls f
  stored : ∀ zone value, c.Stored ls zone value →
    w'.text? zone (ls c.lookup).name = some (c.text ls value)
  others : ∀ zone key, (∀ value, ¬(key = (ls c.lookup).name ∧ c.Stored ls zone value)) →
    w'.text? zone key = w.text? zone key
  enabled : w'.cache.enabled = w.cache.enabled
  location : w'.cache.location = w.cache.location
  nested : w'.files.Nested
  through : w.WrittenThrough → w'.WrittenThrough

variable {ls f} {c : Call A T E} {w : Workspace} {zone : String} {value : T c.lookup}

theorem Stored.isOver (h : c.Stored ls zone value) : c.stage.isOver = true := by
  rw [h.2]
  rfl

theorem Stored.eq_ok (h : c.Stored ls zone value) (right : c.Right ls f) :
    f c.lookup c.args = .ok value := by
  obtain ⟨hzone, hstage⟩ := h
  rw [Right, hstage] at right
  have hresult := right.1
  rw [Lookup.direct, hzone] at hresult
  rcases hf : f c.lookup c.args with e | value'
  · rw [hf] at hresult
    cases hresult
  · rw [hf] at hresult
    cases hresult
    rfl

theorem Effect.unchanged (nested : w.files.Nested) (right : c.Right ls f)
    (nothing : ∀ zone value, ¬c.Stored ls zone value) : c.Effect ls f w w where
  right := right
  stored := fun zone value h => absurd h (nothing zone value)
  others := fun _ _ _ => rfl
  enabled := rfl
  location := rfl
  nested := nested
  through := id

theorem Effect.opened (nested : w.files.Nested) (right : c.Right ls f)
    (nothing : ∀ zone value, ¬c.Stored ls zone value) (zone : String) :
    c.Effect ls f w (w.openZone zone).2 where
  right := right
  stored := fun zone value h => absurd h (nothing zone value)
  others := fun other key _ => Workspace.text?_openZone nested zone other key
  enabled := (w.openZone_snd zone).1
  location := (w.openZone_snd zone).2.1
  nested := (Workspace.view_openZone_snd nested zone).1
  through := fun h => h.openZone zone

/-- A call that reads has written nothing, and what it takes from the cache is its answer. -/
theorem Effect.consulted (nested : w.files.Nested) (enabled : w.cache.enabled = true) {i : ι}
    {args : A i} (taken : ∀ zone, (ls i).zone args = .ok zone → ∀ value,
      (ls i).afterRead (w.read (ls i).decode zone (ls i).name).1 args = some value →
        f i args = .ok value) :
    let result := (ls i).consult args w
    Effect ls f { lookup := i, args, stage := result.1 } w result.2 := by
  dsimp only
  rcases hzone : (ls i).zone args with e | zone
  · rw [Lookup.consult_of_error hzone]
    apply Effect.unchanged nested
    · refine ⟨?_, by simp⟩
      rw [Lookup.direct, hzone]
    · rintro zone value ⟨-, hstage⟩
      cases hstage
  · rw [Lookup.consult_of_enabled hzone enabled]
    apply Effect.opened nested
    · rcases htaken : (ls i).afterRead (w.read (ls i).decode zone (ls i).name).1 args
        with - | value
      · exact hzone
      · refine ⟨?_, by simp⟩
        rw [Lookup.direct, hzone, taken zone hzone value htaken]
        rfl
    · rintro zone' value ⟨-, hstage⟩
      dsimp only at hstage
      split at hstage
      case h_1 => cases hstage
      case h_2 => cases hstage

/-- A call that computes has written nothing yet. -/
theorem Effect.produced (nested : w.files.Nested) {i : ι} {args : A i} {zone : String}
    (hzone : (ls i).zone args = .ok zone) (pure : (ls i).compute w.files args = f i args) :
    Effect ls f { lookup := i, args, stage := (ls i).produce args w zone } w w := by
  rw [Lookup.produce, pure]
  rcases hvalue : f i args with e | value
  · apply Effect.unchanged nested
    · refine ⟨?_, by simp [Lookup.Answer.ofComputation, Except.mapError]⟩
      rw [Lookup.direct, hzone, hvalue]
      rfl
    · rintro zone value ⟨-, hstage⟩
      cases hstage
  · apply Effect.unchanged nested
    · exact ⟨hzone, hvalue⟩
    · rintro zone value ⟨-, hstage⟩
      cases hstage

/-- A call that writes its value has written it, unless the cache says that this has failed. -/
theorem Effect.written (nested : w.files.Nested) {i : ι} {args : A i} {zone : String} {value : T i}
    (hzone : (ls i).zone args = .ok zone) (hvalue : f i args = .ok value) :
    let result := (ls i).store args w zone value
    Effect ls f { lookup := i, args, stage := result.1 } w result.2 := by
  intro result
  let entry := (ls i).encode ((ls i).beforeWrite value args)
  have hresult : result =
      (.answered ⟨.ok value, true⟩ (some (w.write zone (ls i).name entry).1),
        (w.write zone (ls i).name entry).2) := rfl
  rw [hresult]
  refine ⟨⟨?_, by simp⟩, ?_, ?_, (w.write_snd _ _ _).1, (w.write_snd _ _ _).2,
    (Workspace.view_write nested _ _ _).1, fun h => h.write _ _ _⟩
  · rw [Lookup.direct, hzone, hvalue]
    rfl
  · rintro own value' ⟨hown, hstage⟩
    cases hzone.symm.trans hown
    obtain ⟨rfl, done⟩ : value = value' ∧ (w.write zone (ls i).name entry).1 = .ok () := by
      simpa using hstage
    exact (Workspace.text?_write nested done zone (ls i).name).trans (if_pos ⟨rfl, rfl⟩)
  · intro other key hnot
    by_cases done : (w.write zone (ls i).name entry).1 = .ok ()
    · apply Workspace.text?_write_of_ne nested
      rintro ⟨rfl, rfl⟩
      apply hnot value
      refine ⟨rfl, hzone, ?_⟩
      rw [done]
    · exact Workspace.text?_write_of_failure nested done other key

end Call

/-! ## The invariant -/

/-- What holds of a session that has started from a workspace: whatever has been written of an entry
last is there. -/
structure Session.Sound (asked : ∀ i, A i → Prop) (w₀ : Workspace) (s : Session A T E) : Prop where
  asked : ∀ c ∈ s.calls, asked c.lookup c.args
  right : ∀ c ∈ s.calls, c.Right ls f
  entries : ∀ zone key,
    (∃ c ∈ s.calls, key = (ls c.lookup).name ∧ ∃ value, c.Stored ls zone value ∧
      s.workspace.text? zone key = some (c.text ls value)) ∨
    (∀ c ∈ s.calls, ∀ value, ¬(key = (ls c.lookup).name ∧ c.Stored ls zone value)) ∧
      s.workspace.text? zone key = w₀.text? zone key
  enabled : s.workspace.cache.enabled = true
  location : s.workspace.cache.location = w₀.cache.location
  nested : s.workspace.files.Nested
  through : w₀.WrittenThrough → s.workspace.WrittenThrough

variable {ls f} {asked : ∀ i, A i → Prop} {w₀ : Workspace} {s s' : Session A T E}

namespace Session

theorem sound_start (enabled : w₀.cache.enabled = true) (nested : w₀.files.Nested)
    (requests : List (List (Σ i, A i))) :
    (start (T := T) (E := E) w₀ requests).Sound ls f
      (fun i args => ∃ calls ∈ requests, ⟨i, args⟩ ∈ calls) w₀ := by
  have hcalls : ∀ c ∈ (start (T := T) (E := E) w₀ requests).calls,
      ∃ calls ∈ requests, ∃ r ∈ calls, Call.ofRequest r = c := by
    intro c hc
    simpa [Session.calls, start] using hc
  refine ⟨?_, ?_, ?_, enabled, rfl, nested, id⟩
  · intro c hc
    obtain ⟨calls, hcalls, r, hr, rfl⟩ := hcalls c hc
    exact ⟨calls, hcalls, hr⟩
  · intro c hc
    obtain ⟨calls, hcalls, r, hr, rfl⟩ := hcalls c hc
    trivial
  · intro zone key
    refine Or.inr ⟨?_, rfl⟩
    rintro c hc value ⟨-, hstored⟩
    obtain ⟨calls, hcalls, r, hr, rfl⟩ := hcalls c hc
    cases hstored.isOver

/-- What a call takes from the cache is the result. -/
theorem Sound.eq_ok (h : s.Sound ls f asked w₀)
    (distinct : Function.Injective fun i => (ls i).name)
    (coherent : ∀ i, (ls i).CoherentFor (f i) (asked i))
    (vacant : ∀ zone i, w₀.text? zone (ls i).name = none)
    {i : ι} {args : A i} (hasked : asked i args) {zone : String}
    (hzone : (ls i).zone args = .ok zone) {value : T i}
    (htaken : (ls i).afterRead (s.workspace.read (ls i).decode zone (ls i).name).1 args =
      some value) :
    f i args = .ok value := by
  rw [Workspace.read_eq_text? h.nested] at htaken
  rcases h.entries zone (ls i).name with ⟨c, hc, hname, written, hstored, htext⟩ | ⟨-, htext⟩
  · have hwritten := hstored.eq_ok (h.right c hc)
    have hwriter := h.asked c hc
    obtain ⟨j, writer, stage⟩ := c
    obtain rfl : i = j := distinct hname
    rw [htext, Option.bind_some, Call.text,
      (coherent i).readBack writer written hwriter hwritten] at htaken
    exact (coherent i).present writer written args value zone hwriter hasked hwritten hstored.1
      hzone htaken
  · rw [htext, vacant, Option.bind_none] at htaken
    exact (coherent i).absent args value hasked htaken

/-- Every step of a call is right, and changes no entry but the one that it writes. -/
theorem Sound.effect (h : s.Sound ls f asked w₀)
    (distinct : Function.Injective fun i => (ls i).name)
    (coherent : ∀ i, (ls i).CoherentFor (f i) (asked i))
    (vacant : ∀ zone i, w₀.text? zone (ls i).name = none) {c : Call A T E} (hc : c ∈ s.calls)
    (hnot : c.stage.isOver = false) :
    (c.step ls s.workspace).1.Effect ls f s.workspace (c.step ls s.workspace).2 := by
  have hasked := h.asked c hc
  have hright := h.right c hc
  clear hc
  obtain ⟨i, args, stage⟩ := c
  rw [Call.step]
  cases stage with
  | asked =>
      exact Call.Effect.consulted h.nested h.enabled fun zone hzone value htaken =>
        h.eq_ok distinct coherent vacant hasked hzone htaken
  | missed zone =>
      exact Call.Effect.produced h.nested hright ((coherent i).pure s.workspace.files args hasked)
  | computed zone value =>
      exact Call.Effect.written h.nested hright.1 hright.2
  | answered answer written => cases hnot

/-- What a step of one call has changed is right for all of them. -/
theorem Sound.stepped (h : s.Sound ls f asked w₀)
    (distinct : Function.Injective fun i => (ls i).name)
    (coherent : ∀ i, (ls i).CoherentFor (f i) (asked i))
    (vacant : ∀ zone i, w₀.text? zone (ls i).name = none) (hstep : s.Stepped ls s') :
    s'.Sound ls f asked w₀ := by
  obtain ⟨before, c, after, hcalls, hnot, hcalls', hworkspace⟩ := hstep
  have hc : c ∈ s.calls := by
    rw [hcalls]
    simp
  have effect := h.effect distinct coherent vacant hc hnot
  rw [← hworkspace] at effect
  have hasked : asked (c.step ls s.workspace).1.lookup (c.step ls s.workspace).1.args :=
    h.asked c hc
  generalize (c.step ls s.workspace).1 = c' at hcalls' effect hasked
  -- The calls are the same but for the one that has taken the step, which was not over.
  have hcases : ∀ other ∈ s'.calls, other = c' ∨ other ∈ s.calls := by
    intro other hother
    rw [hcalls'] at hother
    rw [hcalls]
    grind
  have hkept : ∀ other ∈ s.calls, other.stage.isOver = true → other ∈ s'.calls := by
    intro other hother hover
    rw [hcalls] at hother
    rw [hcalls']
    grind
  refine ⟨?_, ?_, ?_, effect.enabled.trans h.enabled, effect.location.trans h.location,
    effect.nested, fun hthrough => effect.through (h.through hthrough)⟩
  · intro other hother
    rcases hcases other hother with rfl | hother
    · exact hasked
    · exact h.asked other hother
  · intro other hother
    rcases hcases other hother with rfl | hother
    · exact effect.right
    · exact h.right other hother
  · intro zone key
    by_cases hwritten : ∃ value, key = (ls c'.lookup).name ∧ c'.Stored ls zone value
    · obtain ⟨value, rfl, hstored⟩ := hwritten
      have hc' : c' ∈ s'.calls := by
        rw [hcalls']
        simp
      exact Or.inl ⟨c', hc', rfl, value, hstored, effect.stored zone value hstored⟩
    · rw [not_exists] at hwritten
      rw [effect.others zone key hwritten]
      rcases h.entries zone key with ⟨other, hother, hkey, value, hstored, htext⟩ | ⟨hnone, htext⟩
      · exact Or.inl ⟨other, hkept other hother hstored.isOver, hkey, value, hstored, htext⟩
      · refine Or.inr ⟨?_, htext⟩
        intro other hother value
        rcases hcases other hother with rfl | hother
        · exact hwritten value
        · exact hnone other hother value

theorem sound_run (enabled : w₀.cache.enabled = true) (nested : w₀.files.Nested)
    (distinct : Function.Injective fun i => (ls i).name) {requests : List (List (Σ i, A i))}
    (coherent : ∀ i, (ls i).CoherentFor (f i) fun args => ∃ calls ∈ requests, ⟨i, args⟩ ∈ calls)
    (vacant : ∀ zone i, w₀.text? zone (ls i).name = none) (turns : List Nat) :
    ((start (T := T) (E := E) w₀ requests).run ls turns).Sound ls f
      (fun i args => ∃ calls ∈ requests, ⟨i, args⟩ ∈ calls) w₀ :=
  run_preserves (sound_start enabled nested requests)
    (fun _ _ h hstep => h.stepped distinct coherent vacant hstep) turns

/-- Where a call has stored a value, one of the calls that have is read. -/
theorem Sound.read_stored (h : s.Sound ls f asked w₀)
    (distinct : Function.Injective fun i => (ls i).name)
    (coherent : ∀ i, (ls i).CoherentFor (f i) (asked i)) {c : Call A T E} (hc : c ∈ s.calls)
    {zone : String} {value : T c.lookup} (hstored : c.Stored ls zone value) :
    ∃ last ∈ s.calls, last.lookup = c.lookup ∧ ∃ value, last.Stored ls zone value ∧
      f last.lookup last.args = .ok value ∧
      (s.workspace.read (ls last.lookup).decode zone (ls last.lookup).name).1 =
        some ((ls last.lookup).beforeWrite value last.args) := by
  rcases h.entries zone (ls c.lookup).name with
    ⟨last, hlast, hname, written, hwritten, htext⟩ | ⟨hnone, -⟩
  · have hvalue := hwritten.eq_ok (h.right last hlast)
    refine ⟨last, hlast, (distinct hname).symm, written, hwritten, hvalue, ?_⟩
    rw [Workspace.read_eq_text? h.nested, ← hname, htext]
    exact (coherent last.lookup).readBack last.args written (h.asked last hlast) hvalue
  · exact absurd ⟨rfl, hstored⟩ (hnone c hc value)

/-- Where no call has stored a value, the same is read as at first. -/
theorem Sound.read_others (h : s.Sound ls f asked w₀) (nested : w₀.files.Nested)
    {zone key : String}
    (hnone : ∀ c ∈ s.calls, ∀ value, ¬(key = (ls c.lookup).name ∧ c.Stored ls zone value))
    {α : Type} (decode : Json.Decoder α) :
    (s.workspace.read decode zone key).1 = (w₀.read decode zone key).1 := by
  rw [Workspace.read_eq_text? h.nested, Workspace.read_eq_text? nested]
  rcases h.entries zone key with ⟨c, hc, hkey, value, hstored, -⟩ | ⟨-, htext⟩
  · exact absurd ⟨hkey, hstored⟩ (hnone c hc value)
  · rw [htext]

theorem Sound.read_reopen (h : s.Sound ls f asked w₀) {path : Path}
    (hlocation : w₀.cache.location = some path) (through : w₀.WrittenThrough) (enabled : Bool)
    (zone key : String) {α : Type} (decode : Json.Decoder α) :
    ((s.workspace.reopen { enabled, location := some path }).read decode zone key).1 =
      (s.workspace.read decode zone key).1 := by
  have hview : (s.workspace.reopen { enabled, location := some path }).view = s.workspace.view :=
    (h.through through).view_reopen (h.location.trans hlocation) rfl rfl
  rw [Workspace.read_fst (Workspace.nested_flushAll h.nested), hview,
    Workspace.read_fst h.nested]

end Session

/-! ## Any threads and any turns -/

/-- Threads call look-ups with coherent hooks on an enabled cache that has no entries of theirs at
first.  Whatever turns they take, every answer is that of the function, and a thread with enough
turns has made all its calls.  Every value that is computed is written; if the cache does not say
that this has failed, the entry is what one of the calls that have written it stores, and all
entries that none has written are as they were.  A new cache over the same files has all of these
entries, provided that the files agreed with the memory at first, as they do with a new cache. -/
theorem concurrent_calls_lose_nothing (distinct : Function.Injective fun i => (ls i).name)
    {w₀ : Workspace} (enabled : w₀.cache.enabled = true) (nested : w₀.files.Nested)
    {requests : List (List (Σ i, A i))}
    (coherent : ∀ i, (ls i).CoherentFor (f i) fun args => ∃ calls ∈ requests, ⟨i, args⟩ ∈ calls)
    (vacant : ∀ zone i, w₀.text? zone (ls i).name = none) (turns : List Nat) :
    let s : Session A T E := (Session.start w₀ requests).run ls turns
    s.requests = requests ∧
    (∀ c ∈ s.calls, ∀ answer written, c.stage = .answered answer written →
      answer.result = (ls c.lookup).direct (f c.lookup) c.args) ∧
    (∀ thread asked, requests[thread]? = some asked → 3 * asked.length ≤ turns.count thread →
      ∃ calls, s.threads[thread]? = some calls ∧ ∀ c ∈ calls, c.stage.isOver = true) ∧
    (∀ c ∈ s.calls, ∀ zone value written, (ls c.lookup).zone c.args = .ok zone →
      c.stage = .answered ⟨.ok value, true⟩ written →
      ∃ result, written = some result ∧ (result = .ok () →
        ∃ last ∈ s.calls, last.lookup = c.lookup ∧ ∃ value, last.Stored ls zone value ∧
          f last.lookup last.args = .ok value ∧
          (s.workspace.read (ls last.lookup).decode zone (ls last.lookup).name).1 =
            some ((ls last.lookup).beforeWrite value last.args))) ∧
    (∀ zone key,
      (∀ c ∈ s.calls, ∀ value, ¬(key = (ls c.lookup).name ∧ c.Stored ls zone value)) →
      ∀ {α : Type} (decode : Json.Decoder α),
        (s.workspace.read decode zone key).1 = (w₀.read decode zone key).1) ∧
    ∀ path, w₀.cache.location = some path → w₀.WrittenThrough →
      ∀ enabled zone key {α : Type} (decode : Json.Decoder α),
        ((s.workspace.reopen { enabled, location := some path }).read decode zone key).1 =
          (s.workspace.read decode zone key).1 := by
  intro s
  have sound : s.Sound ls f _ w₀ :=
    Session.sound_run enabled nested distinct coherent vacant turns
  refine ⟨?_, ?_, ?_, ?_, ?_, ?_⟩
  · exact (Session.requests_run _ turns).trans (Session.requests_start w₀ requests)
  · intro c hc answer written hstage
    have right := sound.right c hc
    rw [Call.Right, hstage] at right
    exact right.1
  · intro thread asked hasked enough
    exact Session.over_of_turns ls w₀ hasked enough
  · intro c hc zone value written hzone hstage
    have right := sound.right c hc
    rw [Call.Right, hstage] at right
    obtain ⟨result, rfl⟩ := Option.ne_none_iff_exists'.mp (right.2 value rfl)
    refine ⟨result, rfl, ?_⟩
    rintro rfl
    exact sound.read_stored distinct coherent hc ⟨hzone, hstage⟩
  · intro zone key hnone α decode
    exact sound.read_others nested hnone decode
  · intro path hpath through anew zone key α decode
    exact sound.read_reopen hpath through anew zone key decode

end Family

/-- Two threads compute an image of one host and write it, and one of them writes the version of the
host besides. -/
theorem concurrent_calls_lose_nothing_same_zone :
    let ls := HostRelease.lookups
    let requests : List (List (Σ _ : HostRelease.Kind, HostRelease)) :=
      [[⟨.image, ⟨some "h", "r"⟩⟩],
        [⟨.image, ⟨some "h", "s"⟩⟩, ⟨.version, ⟨some "h", "s"⟩⟩]]
    let turns := [0, 1, 0, 1, 0, 1, 1, 1, 1]
    let w₀ : Workspace := ⟨ofSetup {}, .empty⟩
    let s : Session (fun _ => HostRelease) (fun _ => String) (fun _ => String) :=
      (Session.start w₀ requests).run ls turns
    s.requests = requests ∧
      (∃ calls, s.threads[1]? = some calls ∧ ∀ c ∈ calls, c.stage.isOver = true) ∧
      ((s.workspace.reopen { location := some "./_cache" }).read Json.Decoder.string "h"
        "version").1 = some "version of h" := by
  intro ls requests turns w₀ s
  have enabled : w₀.cache.enabled = true := rfl
  have nested : w₀.files.Nested := FileTree.nested_of_nodes (by decide)
  have unused : Unused (Setup.directory {}) .empty := unused_of_nodes (by decide)
  have coherent : ∀ k, (ls k).CoherentFor (HostRelease.compute k) fun args =>
      ∃ calls ∈ requests, ⟨k, args⟩ ∈ calls :=
    fun k => (HostRelease.coherent_lookups k).coherentFor _
  have vacant : ∀ zone k, w₀.text? zone (ls k).name = none :=
    fun zone k => @Workspace.text?_ofSetup {} .empty (fun _ => unused) zone (ls k).name
  have through : w₀.WrittenThrough := Workspace.writtenThrough_of_no_zones nested rfl
  obtain ⟨hrequests, -, hover, -, -, hreopen⟩ :=
    concurrent_calls_lose_nothing HostRelease.distinct_lookups enabled nested coherent vacant turns
  refine ⟨hrequests, hover 1 _ rfl (by decide), ?_⟩
  refine (hreopen "./_cache" rfl through true "h" "version" Json.Decoder.string).trans ?_
  decide +kernel

end Testbed.Cache
