import VariantMerge.Agents.Slots

/-!
# Simulation

A population of agents that are advanced in step. The merged states of all agents lie in one list,
and the contexts in another. Any merged type does; a `Simulation` is a population with the two slots.
-/

namespace VariantMerge

namespace Agents

/-- A member of a population: its state, and what its states share. -/
structure Individual (σ : Type) where
  state : σ
  context : Context
  deriving Repr, Inhabited

/-- A population. An agent has its state and its context at one place of the two lists. -/
structure Population (σ : Type) where
  states : List σ
  contexts : List Context
  deriving Repr, Inhabited

abbrev Agent : Type := Individual State

abbrev Simulation : Type := Population State

variable {σ : Type} [Dispatches σ]

namespace Individual

/-- An agent that rests at a position. -/
def atRest (position target speed rest : Float32) : Individual σ where
  state := Merges.idle.fresh (.new rest)
  context := ⟨position, target, rest, speed, 0⟩

/-- What an update leaves: a state that follows replaces the current one and is counted. -/
def ofUpdate (after : Update σ σ) : Individual σ :=
  match after.next? with
  | some next => ⟨next, { after.context with transitions := after.context.transitions + 1 }⟩
  | none => ⟨after.self, after.context⟩

/-- Advances an agent in time: first its clock, and then its state. -/
def step (individual : Individual σ) (dt : Float32) : Individual σ :=
  let methods : Behaviour σ σ := Dispatches.behaviour
  let timed := methods.setElapsed individual.state (methods.elapsed individual.state + dt)
  ofUpdate (methods.update timed individual.context dt)

end Individual

namespace Population

/-- A population without agents. -/
def empty : Population σ := ⟨[], []⟩

/-- The agents, in the order in which they came. -/
def agents (population : Population σ) : List (Individual σ) :=
  List.zipWith Individual.mk population.states population.contexts

/-- Adds an agent that rests at a position. -/
def spawn (population : Population σ) (position target speed rest : Float32) : Population σ :=
  let agent : Individual σ := .atRest position target speed rest
  ⟨population.states ++ [agent.state], population.contexts ++ [agent.context]⟩

/-- Advances all agents. What has no counterpart in the other list stays as it is. -/
def step (population : Population σ) (dt : Float32) : Population σ :=
  let stepped := population.agents.map (·.step dt)
  ⟨stepped.map (·.state) ++ population.states.drop stepped.length,
    stepped.map (·.context) ++ population.contexts.drop stepped.length⟩

/-- The number of agents. -/
def size (population : Population σ) : Nat :=
  population.states.length

/-- The number of agents whose state has this name. -/
def count (population : Population σ) (name : String) : Nat :=
  population.states.countP (Dispatches.behaviour.name · == name)

end Population

end Agents

end VariantMerge
