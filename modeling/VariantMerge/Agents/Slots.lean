import VariantMerge.Agents.State

/-!
# Agents' states in two slots

The merged type of the two states: a discriminant and two slots, which hold the fields of either state
in their order. A method called on a value runs that of the state which is rebuilt from the slots; a
changed state is written back. On a value without a tag, a method does nothing and gives a default.
-/

namespace VariantMerge

namespace Agents

/-- The merged value of all states. -/
structure State where
  tag : Option StateTag
  slot₀ : Float32
  slot₁ : Float32
  deriving Repr

namespace State

/-- The value without a tag. -/
def blank : State := ⟨none, 0, 0⟩

instance : Inhabited State := ⟨blank⟩

/-- Equality of the tags and, as numbers, of the slots. -/
def same (a b : State) : Bool :=
  a.tag == b.tag && a.slot₀ == b.slot₀ && a.slot₁ == b.slot₁

end State

/-! ## Conversions -/

namespace Idle

/-- The fields in the slots, whatever the tag is. -/
def ofState (state : State) : Idle := ⟨state.slot₀, state.slot₁⟩

/-- Writes the fields and the tag over a merged value. -/
def writeInto (self : Idle) (state : State) : State :=
  { state with tag := some .idle, slot₀ := self.elapsed, slot₁ := self.delay }

def toState (self : Idle) : State := self.writeInto .blank

end Idle

namespace Moving

/-- The fields in the slots, whatever the tag is. -/
def ofState (state : State) : Moving := ⟨state.slot₀, state.slot₁⟩

/-- Writes the fields and the tag over a merged value. -/
def writeInto (self : Moving) (state : State) : State :=
  { state with tag := some .moving, slot₀ := self.elapsed, slot₁ := self.speed }

def toState (self : Moving) : State := self.writeInto .blank

end Moving

namespace State

instance : Merges State where
  tag := tag
  idle := ⟨Idle.ofState, Idle.toState, Idle.writeInto⟩
  moving := ⟨Moving.ofState, Moving.toState, Moving.writeInto⟩

/-! ## Methods -/

/-- The name of the state. -/
def name (state : State) : String :=
  match state.tag with
  | some .idle => (Idle.behaviour State).name (Idle.ofState state)
  | some .moving => (Moving.behaviour State).name (Moving.ofState state)
  | none => ""

/-- How long the state has lasted. -/
def elapsed (state : State) : Float32 :=
  match state.tag with
  | some .idle => (Idle.behaviour State).elapsed (Idle.ofState state)
  | some .moving => (Moving.behaviour State).elapsed (Moving.ofState state)
  | none => 0

/-- Sets how long the state has lasted. -/
def setElapsed (state : State) (value : Float32) : State :=
  match state.tag with
  | some .idle => ((Idle.behaviour State).setElapsed (Idle.ofState state) value).writeInto state
  | some .moving =>
    ((Moving.behaviour State).setElapsed (Moving.ofState state) value).writeInto state
  | none => state

/-- Updates the state with what the agent's states share. -/
def update (state : State) (context : Context) (dt : Float32) : Update State State :=
  match state.tag with
  | some .idle =>
    ((Idle.behaviour State).update (Idle.ofState state) context dt).map (·.writeInto state)
  | some .moving =>
    ((Moving.behaviour State).update (Moving.ofState state) context dt).map (·.writeInto state)
  | none => ⟨state, context, none⟩

instance : Dispatches State where
  behaviour := ⟨elapsed, setElapsed, name, update⟩

/-- What an update does to the context. -/
def move (state : State) (context : Context) (dt : Float32) : Context :=
  (state.update context dt).context

/-- The state that follows an update, if it is another one. -/
def next? (state : State) (context : Context) (dt : Float32) : Option State :=
  (state.update context dt).next?

end State

end Agents

end VariantMerge
