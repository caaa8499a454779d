import Mathlib.Algebra.Group.Nat.Even
import Mathlib.Data.List.Induction
import VariantMerge.Proofs.Agents.Generated

/-!
# The cycle of an agent

An agent rests, sets out, moves and rests again, and its counter goes up when it sets out and when
it arrives. `Individual.Advances` lists what one step does to an agent, with the state that it leaves
behind, and `Individual.advances_step` says that the step of a tagged agent is one of these. What holds
of an agent at all times is then a matter of the four cases (`Individual.Cycling`): the parity of the
counter tells the tag, and an agent that rests after a movement has its next target at the opposite
place.

A population is run by commands. Agents come one by one and are advanced together, and what one of
them does depends on no other, so that a command takes the list of agents to the list that one
expects (`Population.spawn_ofAgents`, `Population.step_ofAgents`). Nothing is assumed about the
numbers: an operation on them gives some number, and the cycle does not depend on which. Of the merged
type nothing is assumed but what generated code promises (`Laws`), and the code that is emitted for the
states keeps that (`GeneratedType.laws`).
-/

namespace VariantMerge

namespace Agents

variable {σ : Type}

/-- The population of these agents. -/
def Population.ofAgents (agents : List (Individual σ)) : Population σ :=
  ⟨agents.map (·.state), agents.map (·.context)⟩

/-- A population is made of its agents. -/
@[simp]
theorem Population.agents_ofAgents (agents : List (Individual σ)) :
    (ofAgents agents).agents = agents := by
  simp [ofAgents, Population.agents, List.zipWith_map]

variable [Dispatches σ]

/-- The value holds an agent's rest. -/
abbrev Rests (idle : Idle) (value : σ) : Prop :=
  Merges.idle.Holds .idle idle value

/-- The value holds an agent's movement. -/
abbrev Travels (moving : Moving) (value : σ) : Prop :=
  Merges.moving.Holds .moving moving value

namespace Individual

/-! ## One agent -/

/-- What one step does to an agent: it goes on with its rest, sets out, comes nearer to its target,
or arrives and turns around. -/
inductive Advances (dt : Float32) : Individual σ → Individual σ → Prop where
  | rest {value later : σ} {idle : Idle} {context : Context} (resting : Rests idle value)
      (early : ¬ idle.delay ≤ idle.elapsed + dt)
      (still : Rests { idle with elapsed := idle.elapsed + dt } later) :
      Advances dt ⟨value, context⟩ ⟨later, context⟩
  | depart {value later : σ} {idle : Idle} {context : Context} (resting : Rests idle value)
      (due : idle.delay ≤ idle.elapsed + dt) (left : Travels (.new context.speed) later) :
      Advances dt ⟨value, context⟩
        ⟨later, { context with transitions := context.transitions + 1 }⟩
  | approach {value later : σ} {moving : Moving} {context : Context}
      (travelling : Travels moving value)
      (short : moving.speed * dt < (context.target - context.position).abs)
      (still : Travels { moving with elapsed := moving.elapsed + dt } later) :
      Advances dt ⟨value, context⟩
        ⟨later, { context with
          position := context.position +
            withSign (moving.speed * dt) (context.target - context.position) }⟩
  | arrive {value later : σ} {moving : Moving} {context : Context}
      (travelling : Travels moving value)
      (reached : ¬ moving.speed * dt < (context.target - context.position).abs)
      (turned : Rests (.new context.rest) later) :
      Advances dt ⟨value, context⟩
        ⟨later, { context with
          position := context.target
          target := -context.target
          transitions := context.transitions + 1 }⟩

/-- The step of an agent is that of the state that it holds: its own clock is set and it updates
itself. What is left of it is written over some merged value. -/
theorem exists_step_eq {τ : Type} {tag : StateTag} {conversions : Conversions σ τ}
    {own : Behaviour σ τ} (laws : VariantLaws tag conversions own) {value : σ} {state : τ}
    (holds : conversions.Holds tag state value) (context : Context) (dt : Float32) :
    ∃ timed, step ⟨value, context⟩ dt =
      ofUpdate ((own.update (own.setElapsed state (own.elapsed state + dt)) context dt).map
        (conversions.write · timed)) := by
  have timed := laws.write (own.setElapsed state (own.elapsed state + dt)) value
  refine ⟨conversions.write (own.setElapsed state (own.elapsed state + dt)) value, ?_⟩
  unfold step
  simp only [laws.elapsed holds, laws.setElapsed holds, laws.update timed]

/-- An agent that rests goes on with its rest, or sets out when it is over. -/
theorem advances_idle (laws : Laws σ) {value : σ} {idle : Idle} (resting : Rests idle value)
    (context : Context) (dt : Float32) : Advances dt ⟨value, context⟩ (step ⟨value, context⟩ dt) := by
  obtain ⟨timed, stepped⟩ := exists_step_eq laws.idle resting context dt
  rw [stepped]
  by_cases due : idle.delay ≤ idle.elapsed + dt
  · simp only [Idle.behaviour, Update.map, ofUpdate, if_pos due]
    exact .depart resting due (laws.moving.fresh _)
  · simp only [Idle.behaviour, Update.map, ofUpdate, if_neg due]
    exact .rest resting due (laws.idle.write _ _)

/-- An agent that travels comes nearer to its target, or arrives. -/
theorem advances_moving (laws : Laws σ) {value : σ} {moving : Moving}
    (travelling : Travels moving value) (context : Context) (dt : Float32) :
    Advances dt ⟨value, context⟩ (step ⟨value, context⟩ dt) := by
  obtain ⟨timed, stepped⟩ := exists_step_eq laws.moving travelling context dt
  rw [stepped]
  by_cases short : moving.speed * dt < (context.target - context.position).abs
  · simp only [Moving.behaviour, Update.map, ofUpdate, if_pos short]
    exact .approach travelling short (laws.moving.write _ _)
  · simp only [Moving.behaviour, Update.map, ofUpdate, if_neg short]
    exact .arrive travelling short (laws.idle.fresh _)

/-- The step of a tagged agent is one of the four. -/
theorem advances_step (laws : Laws σ) (dt : Float32) {individual : Individual σ}
    (tagged : Merges.tag individual.state = some .idle ∨
      Merges.tag individual.state = some .moving) :
    individual.Advances dt (individual.step dt) := by
  rcases tagged with resting | travelling
  · exact advances_idle laws ⟨resting, rfl⟩ individual.context dt
  · exact advances_moving laws ⟨travelling, rfl⟩ individual.context dt

/-- What holds of an agent at all times. -/
structure Cycling (individual : Individual σ) : Prop where
  tagged : Merges.tag individual.state = some .idle ∨ Merges.tag individual.state = some .moving
  /-- An agent that rests has arrived as often as it has set out. -/
  idle_iff_even : Merges.tag individual.state = some .idle ↔
    Even individual.context.transitions.toNat
  /-- After a movement, the agent rests at its target and is to go to the opposite place. -/
  turned : Merges.tag individual.state = some .idle → 0 < individual.context.transitions →
    individual.context.target = -individual.context.position

/-- An agent that comes has not moved yet. -/
theorem cycling_atRest (laws : Laws σ) (position target speed rest : Float32) :
    (atRest position target speed rest : Individual σ).Cycling := by
  have resting := (laws.idle.fresh (.new rest)).tag
  refine ⟨.inl resting, iff_of_true resting Even.zero, ?_⟩
  intro _ counted
  exact absurd counted (by simp [atRest])

/-- The counter has an even number of values, so its parity changes also when it wraps. -/
private theorem even_succ_iff (n : UInt32) : Even (n + 1).toNat ↔ ¬ Even n.toNat := by
  have bound : n.toNat < 2 ^ 32 := n.toNat_lt
  rw [UInt32.toNat_add, Nat.even_iff, Nat.even_iff, UInt32.toNat_one]
  omega

/-- An agent that travels does not rest. -/
private theorem not_idle_of_travels {moving : Moving} {value : σ} (travelling : Travels moving value) :
    ¬ Merges.tag value = some .idle := by
  rw [travelling.tag]
  decide

/-- **One step keeps the cycle.** Setting out and arriving change the tag and the parity together.
-/
theorem Advances.cycling {dt : Float32} {individual next : Individual σ}
    (advances : individual.Advances dt next) (cycling : individual.Cycling) : next.Cycling := by
  have parity := cycling.idle_iff_even
  cases advances with
  | rest resting early still =>
      have turned := cycling.turned resting.tag
      exact ⟨.inl still.tag, iff_of_true still.tag (parity.mp resting.tag), fun _ => turned⟩
  | depart resting due left =>
      have moved := not_idle_of_travels left
      refine ⟨.inr left.tag, iff_of_false moved ?_, fun rests => absurd rests moved⟩
      exact (even_succ_iff _).not_left.mpr (parity.mp resting.tag)
  | approach travelling short still =>
      have moved := not_idle_of_travels still
      have odd := (not_congr parity).mp (not_idle_of_travels travelling)
      exact ⟨.inr still.tag, iff_of_false moved odd, fun rests => absurd rests moved⟩
  | arrive travelling reached turned =>
      have odd := (not_congr parity).mp (not_idle_of_travels travelling)
      exact ⟨.inl turned.tag, iff_of_true turned.tag ((even_succ_iff _).mpr odd), fun _ _ => rfl⟩

/-- A step keeps an agent in its cycle. -/
theorem cycling_step (laws : Laws σ) (dt : Float32) {individual : Individual σ}
    (cycling : individual.Cycling) : (individual.step dt).Cycling :=
  (advances_step laws dt cycling.tagged).cycling cycling

end Individual

/-- How fast an agent moves and how long it rests. -/
def Context.pace (context : Context) : Float32 × Float32 :=
  (context.speed, context.rest)

/-- No step changes the pace. -/
theorem Individual.pace_step (laws : Laws σ) (dt : Float32) {individual : Individual σ}
    (cycling : individual.Cycling) :
    (individual.step dt).context.pace = individual.context.pace := by
  have advances := advances_step laws dt cycling.tagged
  generalize individual.step dt = next at advances
  cases advances <;> rfl

/-! ## A population -/

/-- What a caller asks of a population. -/
inductive Command where
  | spawn (position target speed rest : Float32)
  | step (dt : Float32)

/-- The pace of the agent that a command adds. -/
def Command.pace? : Command → Option (Float32 × Float32)
  | spawn _ _ speed rest => some (speed, rest)
  | step _ => none

namespace Population

/-- Follows a command. -/
def follow (population : Population σ) : Command → Population σ
  | .spawn position target speed rest => population.spawn position target speed rest
  | .step dt => population.step dt

/-- Follows commands in order, from a population without agents. -/
def run (commands : List Command) : Population σ :=
  commands.foldl follow empty

/-- The last command is followed by what the others left. -/
theorem run_concat (commands : List Command) (command : Command) :
    (run (commands ++ [command]) : Population σ) = (run commands).follow command := by
  simp [run]

/-- A new agent comes last. -/
theorem spawn_ofAgents (agents : List (Individual σ)) (position target speed rest : Float32) :
    (ofAgents agents).spawn position target speed rest =
      ofAgents (agents ++ [.atRest position target speed rest]) := by
  simp [ofAgents, spawn]

/-- All agents are advanced, each by itself. -/
theorem step_ofAgents (agents : List (Individual σ)) (dt : Float32) :
    (ofAgents agents).step dt = ofAgents (agents.map (·.step dt)) := by
  rw [step, agents_ofAgents]
  simp [ofAgents]

/-- After any commands, the agents are in their cycle, and each has the pace of its `spawn`. -/
theorem exists_agents (laws : Laws σ) (commands : List Command) :
    ∃ agents : List (Individual σ), run commands = ofAgents agents ∧
      (∀ agent ∈ agents, agent.Cycling) ∧
      agents.map (·.context.pace) = commands.filterMap Command.pace? := by
  induction commands using List.reverseRecOn with
  | nil => exact ⟨[], rfl, by simp, rfl⟩
  | append_singleton commands command ih =>
      obtain ⟨agents, ran, cycling, paces⟩ := ih
      rw [run_concat, ran, List.filterMap_append, ← paces]
      cases command with
      | spawn position target speed rest =>
          refine ⟨_, spawn_ofAgents agents position target speed rest, fun agent mem => ?_, ?_⟩
          · rcases List.mem_append.mp mem with old | new
            · exact cycling agent old
            · rw [List.mem_singleton.mp new]
              exact Individual.cycling_atRest laws position target speed rest
          · rw [List.map_append]
            rfl
      | step dt =>
          refine ⟨_, step_ofAgents agents dt, fun stepped mem => ?_, ?_⟩
          · obtain ⟨agent, old, rfl⟩ := List.mem_map.mp mem
            exact Individual.cycling_step laws dt (cycling agent old)
          · have unspawned : [Command.step dt].filterMap Command.pace? = [] := rfl
            rw [List.map_map, unspawned, List.append_nil]
            exact List.map_congr_left fun agent old =>
              Individual.pace_step laws dt (cycling agent old)

/-- Agents in their cycle have one of the two names. -/
theorem count_ofAgents (laws : Laws σ) {agents : List (Individual σ)}
    (cycling : ∀ agent ∈ agents, agent.Cycling) :
    (ofAgents agents).count "idle" + (ofAgents agents).count "moving" = agents.length := by
  let called (name : String) (agent : Individual σ) : Bool :=
    Dispatches.behaviour.name agent.state == name
  have others : agents.countP (called "moving") =
      agents.countP fun agent => ¬ called "idle" agent := by
    refine List.countP_congr fun agent mem => ?_
    rcases (cycling agent mem).tagged with resting | travelling
    · simp [called, laws.idle.name ⟨resting, rfl⟩, Idle.behaviour]
    · simp [called, laws.moving.name ⟨travelling, rfl⟩, Moving.behaviour]
  calc (ofAgents agents).count "idle" + (ofAgents agents).count "moving"
      = agents.countP (called "idle") + agents.countP (called "moving") := by
        simp only [count, ofAgents, List.countP_map, Function.comp_def, called]
    _ = agents.length := by
        rw [others, ← List.length_eq_countP_add_countP]

/-- What holds of a population after commands. -/
structure Sound (commands : List Command) (population : Population σ) : Prop where
  aligned : population.states.length = population.contexts.length
  tagged : ∀ state ∈ population.states,
    Merges.tag state = some .idle ∨ Merges.tag state = some .moving
  cycling : ∀ agent ∈ population.agents, agent.Cycling
  counted : population.count "idle" + population.count "moving" = population.size
  /-- The agents keep the paces with which they came, in the order in which they came. -/
  paces : population.contexts.map Context.pace = commands.filterMap Command.pace?

/-- **A population stays in its cycle.** Let the merged type keep what generated code promises.
Whatever the commands are and whatever numbers they give, there are as many states as contexts, every
state has a tag, and every agent rests just when its counter is even, with its next target at the
opposite place once it has moved. An agent that does not rest moves, so the two counts add up to the
size. No bound on the turns is needed: a counter that wraps keeps its parity. -/
theorem run_sound (laws : Laws σ) (commands : List Command) :
    (run commands : Population σ).Sound commands := by
  obtain ⟨agents, ran, cycling, paces⟩ := exists_agents laws commands
  rw [ran]
  refine ⟨by simp [ofAgents], fun state mem => ?_, by simpa using cycling, ?_, ?_⟩
  · obtain ⟨agent, old, rfl⟩ := List.mem_map.mp mem
    exact (cycling agent old).tagged
  · rw [count_ofAgents laws cycling]
    simp [size, ofAgents]
  · simpa [ofAgents, Function.comp_def] using paces

/-- Two agents, of which the second comes when the first has been advanced: in the type that is generated
for the states, and in two slots. -/
theorem run_sound_generated :
    let commands : List Command := [.spawn 0 1 2 1, .step 0.5, .spawn 0 3 1 0, .step 0.25]
    (∃ units interface sources, ∃ type : GeneratedType,
      (∀ unit ∈ units, SourceUnit.IsRead unit) ∧
      Generation.Generates type.config (ScanResult.ofUnits type.config.marker units) interface
        type.merged sources ∧
      Laws type.State ∧ (run commands : Population type.State).Sound commands) ∧
    Laws State ∧ (run commands : Simulation).Sound commands ∧
      (run commands : Simulation).count "idle" + (run commands : Simulation).count "moving" = 2 := by
  intro commands
  obtain ⟨units, interface, sources, type, read, generated⟩ := exists_generatedType
  have sound : (run commands : Simulation).Sound commands := run_sound State.laws commands
  have size : (run commands : Simulation).size = 2 := rfl
  exact ⟨⟨units, interface, sources, type, read, generated, type.laws, run_sound type.laws commands⟩,
    State.laws, sound, sound.counted.trans size⟩

end Population

end Agents

end VariantMerge
