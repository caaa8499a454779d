import VariantMerge.Agents.Simulation

/-!
# What a merged type promises

A population works with any merged type that keeps the promises of generated code (`Laws`). They are
the same for both states: a value that a state was turned into or written over holds the state, and on
a value that holds a state a method does what the state's own method does, where a method that can
change the state writes it back. No promise is made about values without a tag. The two slots keep all
of them (`State.laws`), and so does the code that is emitted for the states (`GeneratedType.laws`).
-/

namespace VariantMerge

namespace Agents

variable {σ τ : Type}

/-- The value holds this state: it carries the tag, and the state is read from it. -/
structure Conversions.Holds [Merges σ] (conversions : Conversions σ τ) (tag : StateTag) (state : τ)
    (value : σ) : Prop where
  tag : Merges.tag value = some tag
  read : conversions.read value = state

/-- What a merged type promises for one of the states. -/
structure VariantLaws [Dispatches σ] (tag : StateTag) (conversions : Conversions σ τ)
    (own : Behaviour σ τ) : Prop where
  /-- The state is read back from a fresh value. -/
  fresh : ∀ state, conversions.Holds tag state (conversions.fresh state)
  /-- The state is read back from a value that it was written over, whatever that held before. -/
  write : ∀ state value, conversions.Holds tag state (conversions.write state value)
  /-- How long the state has lasted is asked of the state. -/
  elapsed : ∀ {state value}, conversions.Holds tag state value →
    Dispatches.behaviour.elapsed value = own.elapsed state
  /-- The name is that of the state. -/
  name : ∀ {state value}, conversions.Holds tag state value →
    Dispatches.behaviour.name value = own.name state
  /-- The state is changed by itself, and written back. -/
  setElapsed : ∀ {state value}, conversions.Holds tag state value → ∀ time,
    Dispatches.behaviour.setElapsed value time =
      conversions.write (own.setElapsed state time) value
  /-- The state is updated by itself, and written back. -/
  update : ∀ {state value}, conversions.Holds tag state value → ∀ context dt,
    Dispatches.behaviour.update value context dt =
      (own.update state context dt).map (conversions.write · value)

/-- What a merged type promises for the two states. -/
structure Laws (σ : Type) [Dispatches σ] : Prop where
  idle : VariantLaws .idle Merges.idle (Idle.behaviour σ)
  moving : VariantLaws .moving Merges.moving (Moving.behaviour σ)

/-! ## Two slots -/

/-- Both slots are a resting agent's, so a value that holds a state is the one made of it. -/
theorem Idle.eq_toState {idle : Idle} {value : State}
    (holds : Merges.idle.Holds .idle idle value) : value = idle.toState := by
  obtain ⟨tag, slot₀, slot₁⟩ := value
  obtain ⟨tagged, rfl⟩ := holds
  cases tagged
  rfl

/-- Both slots are a moving agent's, so a value that holds a state is the one made of it. -/
theorem Moving.eq_toState {moving : Moving} {value : State}
    (holds : Merges.moving.Holds .moving moving value) : value = moving.toState := by
  obtain ⟨tag, slot₀, slot₁⟩ := value
  obtain ⟨tagged, rfl⟩ := holds
  cases tagged
  rfl

/-- **Two slots keep what is promised.** -/
theorem State.laws : Laws State where
  idle := {
    fresh := fun _ => ⟨rfl, rfl⟩
    write := fun _ _ => ⟨rfl, rfl⟩
    elapsed := fun holds => Idle.eq_toState holds ▸ rfl
    name := fun holds => Idle.eq_toState holds ▸ rfl
    setElapsed := fun holds _ => Idle.eq_toState holds ▸ rfl
    update := fun holds _ _ => Idle.eq_toState holds ▸ rfl }
  moving := {
    fresh := fun _ => ⟨rfl, rfl⟩
    write := fun _ _ => ⟨rfl, rfl⟩
    elapsed := fun holds => Moving.eq_toState holds ▸ rfl
    name := fun holds => Moving.eq_toState holds ▸ rfl
    setElapsed := fun holds _ => Moving.eq_toState holds ▸ rfl
    update := fun holds _ _ => Moving.eq_toState holds ▸ rfl }

end Agents

end VariantMerge
