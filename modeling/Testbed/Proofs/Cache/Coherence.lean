import Mathlib.Logic.Function.Basic
import Mathlib.Logic.Relation
import Testbed.Proofs.Cache.Lookup
import Testbed.Proofs.Cache.Provenance
import Testbed.Proofs.Cache.View
import Testbed.Proofs.Json.Nesting

/-!
# Look-ups whose cache cannot be seen

Look-ups of any types and of different names share a cache.  Its files may be disturbed from outside
at any time, so any write may fail.  The invariant is that every entry under the name of a look-up
is what its hook stores of a result for some arguments of the same zone.  Coherent hooks take
nothing else from such an entry than the result that would be computed, so all calls are answered as
without a cache.
-/

namespace Testbed.Cache

open Relation (ReflTransGen)

/-! ## What a call leaves as it is -/

namespace Lookup

variable {A T E S : Type} {l : Lookup A T E S} {w : Workspace} {args : A}

/-- A call changes at most the entry of its name in its zone. -/
theorem view_call (nested : w.files.Nested) (l : Lookup A T E S) (args : A) :
    (l.call w args).2.files.Nested ∧
      ∀ zone key, ¬(l.zone args = .ok zone ∧ key = l.name) →
        ((l.call w args).2.view zone).entries.get? key = (w.view zone).entries.get? key := by
  cases hzone : l.zone args with
  | error e =>
      rw [call_of_error hzone]
      exact ⟨nested, fun _ _ _ => rfl⟩
  | ok own =>
      cases henabled : w.cache.enabled with
      | false =>
          rw [call_of_disabled hzone henabled]
          exact ⟨nested, fun _ _ _ => rfl⟩
      | true =>
          obtain ⟨hnested, hview⟩ := Workspace.view_openZone_snd nested own
          rcases call_cases hzone henabled with
            ⟨value, -, hcall⟩ | ⟨e, -, hcall⟩ | ⟨value, -, hcall⟩
          · rw [hcall, hview]
            exact ⟨hnested, fun _ _ _ => rfl⟩
          · rw [hcall, hview]
            exact ⟨hnested, fun _ _ _ => rfl⟩
          · rw [hcall]
            obtain ⟨hwritten, hwrite⟩ := Workspace.view_write hnested own l.name
              (l.encode (l.beforeWrite value args))
            refine ⟨hwritten, ?_⟩
            intro zone key hother
            rcases hwrite with ⟨-, hsame⟩ | ⟨-, hchanged⟩
            · rw [hsame, hview]
            · rw [hchanged, hview]
              split
              case isTrue hown =>
                  subst hown
                  have hkey : key ≠ l.name := fun hkey => hother ⟨rfl, hkey⟩
                  exact (Table.get?_insert _ _ _ _).trans (if_neg hkey)
              case isFalse => rfl

end Lookup

/-! ## Coherent hooks -/

/-- Behind a look-up there is a function of the arguments alone.  What is stored of its results is
read back, and what the hook takes from nothing, or from what was stored in the same zone, is what
the function gives. -/
structure Lookup.Coherent {A T E S : Type} (l : Lookup A T E S) (f : A → Except E T) : Prop where
  pure : ∀ files args, l.compute files args = f args
  readBack : ∀ writer written, f writer = .ok written →
    Json.decodeText? l.decode (l.encode (l.beforeWrite written writer)).compact =
      some (l.beforeWrite written writer)
  absent : ∀ args value, l.afterRead none args = some value → f args = .ok value
  present : ∀ writer written args value zone, f writer = .ok written →
    l.zone writer = .ok zone → l.zone args = .ok zone →
    l.afterRead (some (l.beforeWrite written writer)) args = some value → f args = .ok value

/-- A look-up that stores its results as they are is coherent if its function depends on the zone
alone. -/
theorem Lookup.coherent_plain {A T E : Type} {name : String} {zone : A → Except Error String}
    {encode : T → Json} {decode : Json.Decoder T} {f : A → Except E T}
    (readBack : ∀ value, Json.decodeText? decode (encode value).compact = some value)
    (ofZone : ∀ writer args own, zone writer = .ok own → zone args = .ok own →
      f writer = f args) :
    (Lookup.plain name zone encode decode fun _ => f).Coherent f where
  pure := fun _ _ => rfl
  readBack := fun _ written _ => readBack written
  absent := by
    intro args value htaken
    cases htaken
  present := by
    intro writer written args value own hwritten hwriter hargs htaken
    cases htaken
    rw [← ofZone writer args own hwriter hargs]
    exact hwritten

/-- In a changed tree a cache has no entries under some names that it had not before. -/
def NoneNew (names : String → Prop) (location : Path) (t t' : FileTree) : Prop :=
  ∀ zone key text, names key →
    (stored t' (slot (t'.place location) zone)).entries.get? key = some text →
    (stored t (slot (t.place location) zone)).entries.get? key = some text

section Family

variable {ι : Type} {A T E S : ι → Type} (ls : ∀ i, Lookup (A i) (T i) (E i) (S i))
  (f : ∀ i, A i → Except (E i) (T i))

/-- What can happen to a cache that look-ups share.  A disturbance of the files may make later
writes fail and may lose entries, but it makes none that a look-up could take for its own. -/
inductive Step : Workspace → Workspace → Prop where
  | call (w : Workspace) (i : ι) (args : A i) : Step w ((ls i).call w args).2
  | cleanup (w : Workspace) (zone key : Option String) : Step w (w.cleanup zone key).2
  | reopen (w : Workspace) (enabled : Bool) :
    Step w (w.reopen { enabled, location := w.cache.location })
  | disturb (w : Workspace) (files : FileTree) (nested : files.Nested)
    (noneNew : ∀ location, w.cache.location = some location →
      NoneNew (fun key => ∃ i, key = (ls i).name) location w.files files) :
    Step w { w with files }

/-- An entry of a look-up is what it stores of a result in the zone. -/
def Vouched (zone key text : String) : Prop :=
  ∀ i, key = (ls i).name → ∃ writer written, (ls i).zone writer = .ok zone ∧
    f i writer = .ok written ∧ text = ((ls i).encode ((ls i).beforeWrite written writer)).compact

/-- All entries of look-ups are results, in a tree in which everything is in a directory. -/
structure Trusted (directory : Option Path) (w : Workspace) : Prop where
  entries : w.Holds (Vouched ls f) directory
  nested : w.files.Nested

variable {ls f} {directory : Option Path} {w w' : Workspace}

theorem Vouched.of_written (distinct : Function.Injective fun i => (ls i).name) {i : ι}
    {args : A i} {zone : String} {value : T i} (hzone : (ls i).zone args = .ok zone)
    (hvalue : f i args = .ok value) :
    Vouched ls f zone (ls i).name ((ls i).encode ((ls i).beforeWrite value args)).compact := by
  intro j hname
  obtain rfl := distinct hname
  exact ⟨args, value, hzone, hvalue, rfl⟩

/-- What a look-up takes from the cache is the result. -/
theorem Trusted.eq_ok (h : Trusted ls f directory w) {i : ι} (coherent : (ls i).Coherent (f i))
    {args : A i} {zone : String} (hzone : (ls i).zone args = .ok zone) {value : T i}
    (htaken : (ls i).afterRead (w.read (ls i).decode zone (ls i).name).1 args = some value) :
    f i args = .ok value := by
  cases hread : (w.read (ls i).decode zone (ls i).name).1 with
  | none =>
      rw [hread] at htaken
      exact coherent.absent args value htaken
  | some entry =>
      rw [hread] at htaken
      obtain ⟨text, hvouched, htext⟩ := h.entries.read_fst hread
      obtain ⟨writer, written, hwriter, hwritten, rfl⟩ := hvouched i rfl
      rw [coherent.readBack writer written hwritten] at htext
      cases htext
      exact coherent.present writer written args value zone hwritten hwriter hzone htaken

/-- A call gives the result, and leaves results only. -/
theorem Trusted.call (h : Trusted ls f directory w)
    (distinct : Function.Injective fun i => (ls i).name) {i : ι}
    (coherent : (ls i).Coherent (f i)) {args : A i} {zone : String}
    (hzone : (ls i).zone args = .ok zone) :
    ((ls i).call w args).1.result = (f i args).mapError .computation ∧
      ((ls i).call w args).2.Holds (Vouched ls f) directory := by
  cases henabled : w.cache.enabled with
  | false =>
      rw [Lookup.call_of_disabled hzone henabled, coherent.pure]
      exact ⟨rfl, h.entries⟩
  | true =>
      have hopened := h.entries.openZone_snd zone
      rcases Lookup.call_cases hzone henabled with
        ⟨value, htaken, hcall⟩ | ⟨e, he, hcall⟩ | ⟨value, hvalue, hcall⟩
      · rw [hcall, h.eq_ok coherent hzone htaken]
        exact ⟨rfl, hopened⟩
      · rw [coherent.pure] at he
        rw [hcall, he]
        exact ⟨rfl, hopened⟩
      · rw [coherent.pure] at hvalue
        rw [hcall, hvalue]
        exact ⟨rfl, hopened.write (Vouched.of_written distinct hzone hvalue)⟩

theorem FilesHold.of_noneNew {location : Path} {t t' : FileTree}
    (h : FilesHold (Vouched ls f) location t)
    (noneNew : NoneNew (fun key => ∃ i, key = (ls i).name) location t t') :
    FilesHold (Vouched ls f) location t' := by
  intro zone key text htext i hname
  exact h zone key text (noneNew zone key text ⟨i, hname⟩ htext) i hname

/-- Whatever happens leaves results only. -/
theorem Trusted.step (h : Trusted ls f directory w)
    (distinct : Function.Injective fun i => (ls i).name)
    (coherent : ∀ i, (ls i).Coherent (f i)) (hstep : Step ls w w') :
    Trusted ls f directory w' := by
  cases hstep with
  | call i args =>
      refine ⟨?_, (Lookup.view_call h.nested (ls i) args).1⟩
      cases hzone : (ls i).zone args with
      | ok zone => exact (h.call distinct (coherent i) hzone).2
      | error e =>
          rw [Lookup.call_of_error hzone]
          exact h.entries
  | cleanup zone key =>
      exact ⟨h.entries.cleanup zone key, Workspace.nested_cleanup h.nested zone key⟩
  | reopen enabled =>
      exact ⟨h.entries.reopen h.entries.location rfl, Workspace.nested_flushAll h.nested⟩
  | disturb files nested noneNew =>
      refine ⟨⟨h.entries.location, h.entries.memory, ?_⟩, nested⟩
      intro path hpath
      exact (h.entries.files path hpath).of_noneNew (noneNew path (h.entries.location.trans hpath))

theorem Trusted.history (h : Trusted ls f directory w)
    (distinct : Function.Injective fun i => (ls i).name)
    (coherent : ∀ i, (ls i).Coherent (f i)) (hhistory : ReflTransGen (Step ls) w w') :
    Trusted ls f directory w' := by
  induction hhistory with
  | refl => exact h
  | tail _ hstep ih => exact ih.step distinct coherent hstep

/-- Look-ups with coherent hooks share a cache that has no entries of theirs at first.  After any
history every call whose zone is known gives the result of the function.  Where the zone is not
known, the call says so, and neither computes nor uses the cache.  No call changes another entry
than the one of its name in its zone. -/
theorem coherent_lookups_transparent (distinct : Function.Injective fun i => (ls i).name)
    (coherent : ∀ i, (ls i).Coherent (f i)) {w₀ : Workspace} (nested : w₀.files.Nested)
    (vacant : w₀.Holds (fun _ key _ => ∀ i, key ≠ (ls i).name) w₀.cache.location)
    (history : ReflTransGen (Step ls) w₀ w) (i : ι) (args : A i) :
    (∀ zone, (ls i).zone args = .ok zone →
      ((ls i).call w args).1.result = (f i args).mapError .computation) ∧
    (∀ e, (ls i).zone args = .error e → (ls i).call w args = (⟨.error (.cache e), false⟩, w)) ∧
    (∀ [HasParameters (A i)] (parameter : String),
      (ls i).zone = Lookup.zoneByParameter (ls i).name parameter →
      parameter? args parameter = none →
      (ls i).call w args =
        (⟨.error (.cache (.zoneNotFound (ls i).name parameter)), false⟩, w)) ∧
    ∀ zone key, ¬((ls i).zone args = .ok zone ∧ key = (ls i).name) →
      ∀ {α : Type} (decode : Json.Decoder α),
        (((ls i).call w args).2.read decode zone key).1 = (w.read decode zone key).1 := by
  have trusted : Trusted ls f w₀.cache.location w := by
    refine Trusted.history ⟨?_, nested⟩ distinct coherent history
    exact vacant.imp fun zone key text hkey i hname => absurd hname (hkey i)
  refine ⟨?_, ?_, ?_, ?_⟩
  · intro zone hzone
    exact (trusted.call distinct (coherent i) hzone).1
  · intro e hzone
    exact Lookup.call_of_error hzone
  · intro _ parameter hgetter hmissing
    apply Lookup.call_of_error
    rw [hgetter, Lookup.zoneByParameter, hmissing]
  · intro zone key hother α decode
    obtain ⟨hnested, hsame⟩ := Lookup.view_call trusted.nested (ls i) args
    rw [Workspace.read_fst hnested, Workspace.read_fst trusted.nested, Zone.read, Zone.read,
      hsame zone key hother]

end Family

/-! ### Two look-ups of a host -/

/-- A host, perhaps, and a release that it could run. -/
structure HostRelease where
  host : Option String
  release : String

namespace HostRelease

instance : HasParameters HostRelease where
  regular args name := if name = "hostname" then args.host else none
  extra args name := if name = "release" then some args.release else none

/-- What is asked: the version of a host, or the image of a release for it. -/
inductive Kind where
  | version
  | image

/-- The functions of the look-ups. -/
def compute : Kind → HostRelease → Except String String
  | .version, args => .ok ("version of " ++ args.host.getD "")
  | .image, args =>
    if args.release = "" then .error "no release" else .ok (args.host.getD "" ++ args.release)

/-- What the look-ups store: a version as it is, and an image with its release. -/
def Stored : Kind → Type
  | .version => String
  | .image => String × String

/-- The look-ups.  An image only counts for the release that it is stored with. -/
def lookups : ∀ k, Lookup HostRelease String String (Stored k)
  | .version =>
    .plain "version" (Lookup.zoneByParameter "version" Lookup.defaultParameter) Json.string
      Json.Decoder.string fun _ => compute .version
  | .image => {
      name := "image"
      zone := Lookup.zoneByParameter "image" Lookup.defaultParameter
      encode := fun (entry : String × String) => Json.ofStrings [entry.1, entry.2]
      decode := Json.Decoder.pair Json.Decoder.string Json.Decoder.string
      afterRead := fun (stored : Option (String × String)) args =>
        stored.bind fun entry => if entry.1 = args.release then some entry.2 else none
      beforeWrite := fun image args => (args.release, image)
      compute := fun _ => compute .image }

theorem distinct_lookups : Function.Injective fun k => (lookups k).name := by
  intro k k' hname
  cases k <;> cases k' <;> first | rfl | exact absurd hname (by decide)

theorem parameter_default (args : HostRelease) :
    parameter? args Lookup.defaultParameter = args.host := by
  simp [parameter?, HasParameters.regular, HasParameters.extra, Lookup.defaultParameter]

theorem zone_eq (k : Kind) {zone : String} {args : HostRelease} :
    (lookups k).zone args = .ok zone ↔ args.host = some zone := by
  have hzone : (lookups k).zone =
      Lookup.zoneByParameter (lookups k).name Lookup.defaultParameter := by
    cases k <;> rfl
  rw [hzone, Lookup.zoneByParameter, parameter_default]
  cases args.host with
  | none => simp
  | some host => simp

theorem coherent_version : (lookups .version).Coherent (compute .version) := by
  apply Lookup.coherent_plain
  · intro value
    exact Json.decodeText?_compact (.string value) (Nat.zero_le _)
  · intro writer args zone hwriter hargs
    rw [compute, compute, (zone_eq .version).mp hwriter, (zone_eq .version).mp hargs]

theorem coherent_image : (lookups .image).Coherent (compute .image) where
  pure := fun _ _ => rfl
  readBack := by
    intro writer written _
    have hdepth := (Json.bounded_ofStrings 1 [writer.release, written]).depth_le
    exact Json.decodeText?_compact (Json.integral_ofStrings _) (Nat.le_trans hdepth (by decide))
  absent := by
    intro args value htaken
    cases htaken
  present := by
    intro writer written args value zone hwritten hwriter hargs htaken
    obtain ⟨hrelease, rfl⟩ : writer.release = args.release ∧ written = value := by
      by_cases hsame : writer.release = args.release
      · exact ⟨hsame, Option.some.inj ((if_pos hsame).symm.trans htaken)⟩
      · cases (if_neg hsame).symm.trans htaken
    rw [← hwritten, compute, compute, (zone_eq .image).mp hwriter, (zone_eq .image).mp hargs,
      hrelease]

theorem coherent_lookups : ∀ k, (lookups k).Coherent (compute k)
  | .version => coherent_version
  | .image => coherent_image

end HostRelease

/-- A write that fails, a disturbance after which the next one succeeds, and a new cache. -/
theorem coherent_lookups_transparent_failed_write :
    let blocked : FileTree := { nodes := [(["_cache"], .directory),
      (["_cache", "h.json.temp.1000000000"], .directory)] }
    let free : FileTree := { nodes := [(["_cache"], .directory)] }
    let ls := HostRelease.lookups
    let args : HostRelease := ⟨some "h", "r"⟩
    let w₀ : Workspace := ⟨ofSetup {}, blocked⟩
    let w₁ := ((ls .version).call w₀ args).2
    let w₂ := ((ls .image).call { w₁ with files := free } args).2
    let w := w₂.reopen { location := w₂.cache.location }
    (w₁.read Json.Decoder.string "h" "version").1 = none ∧
      ((ls .image).call w ⟨some "h", "s"⟩).1.result = .ok "hs" ∧
      (ls .image).call w ⟨none, "s"⟩ =
        (⟨.error (.cache (.zoneNotFound "image" "hostname")), false⟩, w) ∧
      (((ls .image).call w ⟨some "h", "s"⟩).2.read Json.Decoder.string "h" "version").1 =
        (w.read Json.Decoder.string "h" "version").1 := by
  intro blocked free ls args w₀ w₁ w₂ w
  have unused : Unused "./_cache" blocked := unused_of_nodes (by decide)
  have vacant : w₀.Holds (fun _ key _ => ∀ k, key ≠ (ls k).name) w₀.cache.location :=
    Workspace.holds_ofSetup (s := {}) (fun _ => unused) _
  have noneNew : ∀ location, w₁.cache.location = some location →
      NoneNew (fun key => ∃ k, key = (ls k).name) location w₁.files free := by
    intro location _ zone key text _ htext
    have hdirectories : ∀ entry ∈ free.nodes, entry.2 = .directory := by decide
    rw [stored_of_nodes fun entry hentry _ => hdirectories entry hentry] at htext
    cases htext
  have called : Step ls w₀ w₁ := @Step.call _ _ _ _ _ ls w₀ .version args
  have cleared : Step ls w₁ { w₁ with files := free } :=
    .disturb w₁ free (FileTree.nested_of_nodes (by decide)) noneNew
  have computed : Step ls { w₁ with files := free } w₂ := @Step.call _ _ _ _ _ ls _ .image args
  have history : ReflTransGen (Step ls) w₀ w :=
    (((ReflTransGen.single called).tail cleared).tail computed).tail (.reopen w₂ true)
  have transparent := coherent_lookups_transparent HostRelease.distinct_lookups
    HostRelease.coherent_lookups (FileTree.nested_of_nodes (by decide)) vacant history .image
  obtain ⟨hresult, -, -, hother⟩ := transparent ⟨some "h", "s"⟩
  obtain ⟨-, -, hmissing, -⟩ := transparent ⟨none, "s"⟩
  refine ⟨by decide +kernel, ?_, ?_, ?_⟩
  · rw [hresult "h" ((HostRelease.zone_eq .image).mpr rfl)]
    simp [HostRelease.compute, Except.mapError]
  · exact hmissing Lookup.defaultParameter rfl (HostRelease.parameter_default _)
  · exact hother "h" "version" (by simp [HostRelease.lookups]) Json.Decoder.string

end Testbed.Cache
