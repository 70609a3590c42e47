import Testbed.Cache.Basic

/-!
# Cached look-ups

A look-up is a function whose results are remembered in a cache, under the name of the look-up in
the zone that its arguments give.  What is stored may be more than the result: one hook annotates a
result before it is stored, and another decides what a stored value is good for when it is read.
-/

namespace Testbed.Cache

/-- Arguments whose parameters have names: regular ones, and extra ones. -/
class HasParameters (A : Type) where
  regular : A → String → Option String
  extra : A → String → Option String

/-- The value of a parameter; the regular ones come first. -/
def parameter? {A : Type} [HasParameters A] (args : A) (name : String) : Option String :=
  (HasParameters.regular args name).or (HasParameters.extra args name)

/-- A cached look-up: of type `A → T`, failing with `E`, and storing values of type `S`. -/
structure Lookup (A T E S : Type) where
  name : String
  /-- The zone of a call. -/
  zone : A → Except Error String
  encode : S → Json
  decode : Json.Decoder S
  /-- What a stored value, or its absence, gives for the arguments; nothing if it has to be
  computed. -/
  afterRead : Option S → A → Option T
  /-- What is stored of a computed value. -/
  beforeWrite : T → A → S
  /-- The function whose results are remembered; it may read files. -/
  compute : FileTree → A → Except E T

namespace Lookup

/-- The zone getter that takes the zone from a parameter. -/
def zoneByParameter {A : Type} [HasParameters A] (name parameter : String) (args : A) :
    Except Error String :=
  match parameter? args parameter with
  | some zone => .ok zone
  | none => .error (.zoneNotFound name parameter)

/-- The parameter that gives the zone where none is named. -/
def defaultParameter : String := "hostname"

/-- A look-up that stores its results as they are. -/
def plain {A T E : Type} (name : String) (zone : A → Except Error String) (encode : T → Json)
    (decode : Json.Decoder T) (compute : FileTree → A → Except E T) :
    Lookup A T E T where
  name
  zone
  encode
  decode
  afterRead stored _ := stored
  beforeWrite value _ := value
  compute

/-- Why a call fails. -/
inductive Failure (E : Type) where
  | cache (e : Error)
  | computation (e : E)

/-- What a call tells, and whether it computed. -/
structure Answer (E T : Type) where
  result : Except (Failure E) T
  computed : Bool

/-- The answer of a computation. -/
def Answer.ofComputation {E T : Type} (result : Except E T) : Answer E T :=
  ⟨result.mapError .computation, true⟩

/-- Call a look-up.  A result that cannot be stored is a result all the same. -/
def call {A T E S : Type} (l : Lookup A T E S) (w : Workspace) (args : A) :
    Answer E T × Workspace :=
  match l.zone args with
  | .error e => (⟨.error (.cache e), false⟩, w)
  | .ok zone =>
    if w.cache.enabled then
      match w.read l.decode zone l.name with
      | (stored, w) =>
        match l.afterRead stored args with
        | some value => (⟨.ok value, false⟩, w)
        | none =>
          match l.compute w.files args with
          | .error e => (.ofComputation (.error e), w)
          | .ok value =>
            (.ofComputation (.ok value),
              (w.write zone l.name (l.encode (l.beforeWrite value args))).2)
    else (.ofComputation (l.compute w.files args), w)

/-- A look-up as it is shown to a programmer. -/
def shown {A T E S : Type} (l : Lookup A T E S) (cache : Cache) : String :=
  "Cached \x7b namespace: " ++ Text.quoted l.name ++ ", cache: " ++ cache.shown ++ " \x7d"

end Lookup

end Testbed.Cache
