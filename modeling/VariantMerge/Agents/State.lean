/-!
# States of agents

An agent either rests at a place or moves towards a target. Both states have the same methods
(`Behaviour`), and a population keeps the states of its agents as values of one merged type. The
merged type is generated from the two states: it tells which of them a value holds, is converted to
and from both (`Merges`), and has their methods (`Dispatches`). The states are written against any
such type, since an update may give the state that follows.
-/

namespace VariantMerge

namespace Agents

/-- Which state a merged value holds. -/
inductive StateTag where
  | idle
  | moving
  deriving DecidableEq, Repr, Inhabited

namespace StateTag

def label : StateTag → String
  | idle => "Idle"
  | moving => "Moving"

end StateTag

/-- What an agent's states share. -/
structure Context where
  position : Float32
  target : Float32
  /-- How long the agent rests at a target. -/
  rest : Float32
  speed : Float32
  transitions : UInt32
  deriving Repr

/-- Resting until the delay is over. -/
structure Idle where
  elapsed : Float32
  delay : Float32
  deriving Repr

/-- Moving towards the target. -/
structure Moving where
  elapsed : Float32
  speed : Float32
  deriving Repr

namespace Context

def blank : Context := ⟨0, 0, 0, 0, 0⟩

instance : Inhabited Context := ⟨blank⟩

end Context

/-! ## Merged types -/

/-- What an update gives: the updated state, the context and the state that follows, if the state
is to be replaced. A state that follows is given as a merged value. -/
structure Update (σ τ : Type) where
  self : τ
  context : Context
  next? : Option σ

/-- The same update of what is made of the updated state. -/
def Update.map {σ τ υ : Type} (f : τ → υ) (after : Update σ τ) : Update σ υ :=
  ⟨f after.self, after.context, after.next?⟩

/-- The methods of the states, and of the merged type. -/
structure Behaviour (σ τ : Type) where
  /-- How long the state has lasted. -/
  elapsed : τ → Float32
  setElapsed : τ → Float32 → τ
  name : τ → String
  /-- Advances a state by a time. -/
  update : τ → Context → Float32 → Update σ τ

/-- The conversions between a state and the merged type. -/
structure Conversions (σ τ : Type) where
  /-- The state whose fields are in the slots. -/
  read : σ → τ
  /-- A fresh merged value that holds the state. -/
  fresh : τ → σ
  /-- Writes the state over a merged value. -/
  write : τ → σ → σ

/-- A type whose values hold the states. -/
class Merges (σ : Type) where
  /-- The discriminant, which a default value does not have. -/
  tag : σ → Option StateTag
  idle : Conversions σ Idle
  moving : Conversions σ Moving

/-- A merged type with the methods of the states. -/
class Dispatches (σ : Type) extends Merges σ where
  behaviour : Behaviour σ σ

/-! ## What the states do -/

/-- The magnitude of the first number with the sign of the second. -/
def withSign (x sign : Float32) : Float32 :=
  Float32.ofBits ((x.toBits &&& 0x7FFFFFFF) ||| (sign.toBits &&& 0x80000000))

/-- A rest that has just begun. -/
def Idle.new (delay : Float32) : Idle := ⟨0, delay⟩

/-- A movement that has just begun. -/
def Moving.new (speed : Float32) : Moving := ⟨0, speed⟩

section Behaviour

variable (σ : Type) [Merges σ]

/-- When the delay is over, the agent sets out. -/
def Idle.behaviour : Behaviour σ Idle where
  elapsed := Idle.elapsed
  setElapsed idle value := { idle with elapsed := value }
  name _ := "idle"
  update idle context _ :=
    ⟨idle, context,
      if idle.delay ≤ idle.elapsed then some (Merges.moving.fresh (.new context.speed)) else none⟩

/-- Moves nearer to the target, or to it when it is in reach. At the target, the agent turns around
and rests: the next target is at the opposite place. -/
def Moving.behaviour : Behaviour σ Moving where
  elapsed := Moving.elapsed
  setElapsed moving value := { moving with elapsed := value }
  name _ := "moving"
  update moving context dt :=
    let remaining := context.target - context.position
    let step := moving.speed * dt
    if step < remaining.abs then
      ⟨moving, { context with position := context.position + withSign step remaining }, none⟩
    else
      ⟨moving, { context with position := context.target, target := -context.target },
        some (Merges.idle.fresh (.new context.rest))⟩

end Behaviour

end Agents

end VariantMerge
