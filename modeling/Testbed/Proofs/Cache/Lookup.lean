import Testbed.Cache.Lookup

/-!
# The calls of a look-up

What a call of a look-up does in its zone: a computation alone where the cache is not enabled, and
otherwise a read that settles the call or is followed by a computation, whose result is written.
-/

namespace Testbed.Cache

/-- A read does what bringing the zone into memory does. -/
theorem Workspace.read_snd (w : Workspace) {α : Type} (decode : Json.Decoder α)
    (zone key : String) : (w.read decode zone key).2 = (w.openZone zone).2 := by
  unfold Workspace.read
  split
  case h_1 hopen => rw [hopen]
  case h_2 hopen => rw [hopen]

namespace Lookup

variable {A T E S : Type} {l : Lookup A T E S} {w : Workspace} {args : A} {zone : String}

theorem call_of_error {e : Error} (h : l.zone args = .error e) :
    l.call w args = (⟨.error (.cache e), false⟩, w) := by
  simp [call, h]

theorem call_of_disabled (h : l.zone args = .ok zone) (disabled : w.cache.enabled = false) :
    l.call w args = (.ofComputation (l.compute w.files args), w) := by
  simp [call, h, disabled]

/-- What was read settles the call. -/
theorem call_of_taken (h : l.zone args = .ok zone) (enabled : w.cache.enabled = true) {value : T}
    (taken : l.afterRead (w.read l.decode zone l.name).1 args = some value) :
    l.call w args = (⟨.ok value, false⟩, (w.openZone zone).2) := by
  rw [← w.read_snd l.decode zone l.name]
  simp [call, h, enabled, taken]

/-- What was read does not settle the call, so there is a computation; a value is written. -/
theorem call_of_not_taken (h : l.zone args = .ok zone) (enabled : w.cache.enabled = true)
    (nothing : l.afterRead (w.read l.decode zone l.name).1 args = none) :
    l.call w args =
      (.ofComputation (l.compute (w.openZone zone).2.files args),
        match l.compute (w.openZone zone).2.files args with
        | .error _ => (w.openZone zone).2
        | .ok value =>
          ((w.openZone zone).2.write zone l.name (l.encode (l.beforeWrite value args))).2) := by
  rw [← w.read_snd l.decode zone l.name]
  simp only [call, h, enabled, if_true, nothing]
  rcases l.compute (w.read l.decode zone l.name).2.files args with e | value <;> rfl

/-- The three ways of a call with an enabled cache: what was read settles it, the computation fails,
or the computed value is written. -/
theorem call_cases (h : l.zone args = .ok zone) (enabled : w.cache.enabled = true) :
    (∃ value, l.afterRead (w.read l.decode zone l.name).1 args = some value ∧
      l.call w args = (⟨.ok value, false⟩, (w.openZone zone).2)) ∨
    (∃ e, l.compute (w.openZone zone).2.files args = .error e ∧
      l.call w args = (.ofComputation (.error e), (w.openZone zone).2)) ∨
    ∃ value, l.compute (w.openZone zone).2.files args = .ok value ∧
      l.call w args = (.ofComputation (.ok value),
        ((w.openZone zone).2.write zone l.name (l.encode (l.beforeWrite value args))).2) := by
  rcases htaken : l.afterRead (w.read l.decode zone l.name).1 args with - | value
  · have hcall := call_of_not_taken h enabled htaken
    rcases hcompute : l.compute (w.openZone zone).2.files args with e | value
    · rw [hcompute] at hcall
      exact Or.inr (Or.inl ⟨e, rfl, hcall⟩)
    · rw [hcompute] at hcall
      exact Or.inr (Or.inr ⟨value, rfl, hcall⟩)
  · exact Or.inl ⟨value, rfl, call_of_taken h enabled htaken⟩

end Lookup

end Testbed.Cache
