import VariantMerge.Proofs.Import.Anchoring
import VariantMerge.Proofs.Token.Lexeme

/-!
# Paths that climb

A relative path climbs once for each `super` at its front and goes down from there. So what it leads
to depends on one ancestor of the module that it is read from (`ModulePath.climb?_eq`), and two
modules read it alike exactly if they have that ancestor in common and are equally deep
(`ModulePath.climb?_eq_iff`). `Lexeme.relativePaths` finds such paths in a text.
-/

namespace VariantMerge

namespace ModulePath

variable {module other : ModulePath} {path place : List String} {count : Nat}

/-- How many modules a path climbs. -/
def climbs (path : List String) : Nat :=
  (path.takeWhile fun name => IsRelative name).count "super"

/-- What comes after the relative names at the front of a path. -/
def descent (path : List String) : List String :=
  path.dropWhile fun name => IsRelative name

theorem ancestor?_eq (module : ModulePath) (count : Nat) :
    module.ancestor? count =
      if count ≤ module.segments.length then
        some ⟨module.segments.take (module.segments.length - count)⟩
      else none := by
  induction count generalizing module with
  | zero => simp [ancestor?]
  | succ count ih =>
      obtain ⟨segments⟩ := module
      cases segments with
      | nil => simp [ancestor?, parent?, isRoot]
      | cons first rest =>
          have parent : parent? ⟨first :: rest⟩ = some ⟨(first :: rest).dropLast⟩ := rfl
          have length : (first :: rest).dropLast.length = rest.length := by simp
          rw [ancestor?, parent, Option.bind_some, ih]
          simp only [length, List.length_cons, Nat.add_le_add_iff_right, Nat.add_sub_add_right]
          rw [List.dropLast_eq_take, List.take_take, List.length_cons, Nat.add_sub_cancel,
            Nat.min_eq_left (Nat.sub_le _ _)]

/-- **What a path depends on.** It leads down from one ancestor of the module that reads it. -/
theorem climb?_eq (module : ModulePath) (path : List String) :
    module.climb? path = (module.ancestor? (climbs path)).bind fun base =>
      if IsPlain (descent path) then some (base.segments ++ descent path) else none := by
  -- `self` stays, `super` goes on from the parent, and at any other name the descent begins.
  induction path generalizing module with
  | nil => simp [climb?, climbs, descent, ancestor?, IsPlain]
  | cons first rest ih =>
      by_cases relative : IsRelative first
      · have further : descent (first :: rest) = descent rest := by
          simp [descent, relative]
        obtain rfl | rfl := relative
        · have level : climbs ("self" :: rest) = climbs rest := by
            simp [climbs, IsRelative]
          rw [climb?, if_pos rfl, ih, level, further]
        · have above : climbs ("super" :: rest) = climbs rest + 1 := by
            simp [climbs, IsRelative]
          rw [climb?, if_neg (by decide), if_pos rfl, above, ancestor?, further,
            Option.bind_assoc]
          exact congrArg _ (funext ih)
      · have level : climbs (first :: rest) = 0 := by simp [climbs, relative]
        have here : descent (first :: rest) = first :: rest := by simp [descent, relative]
        have settled : ∀ name ∈ (first :: rest).head?, ¬ IsRelative name := by simp [relative]
        rw [climb?_of_settled settled, level, here, ancestor?, Option.bind_some]

/-- The modules are equally deep, and have the ancestor `count` levels up in common. -/
def Meets (count : Nat) (module other : ModulePath) : Prop :=
  module.segments.length = other.segments.length ∧
    module.segments.take (module.segments.length - count) =
      other.segments.take (module.segments.length - count)

instance (count : Nat) (module other : ModulePath) : Decidable (Meets count module other) :=
  inferInstanceAs (Decidable (_ ∧ _))

theorem ancestor?_eq_iff {base : ModulePath} (above : module.ancestor? count = some base) :
    other.ancestor? count = some base ↔ Meets count module other := by
  rw [ancestor?_eq] at above ⊢
  split at above
  next inside =>
    cases above
    unfold Meets
    constructor
    · intro meets
      split at meets
      next inside' =>
        have same := congrArg segments (Option.some.inj meets)
        have lengths := congrArg List.length same
        simp only [List.length_take] at lengths
        have deep : module.segments.length = other.segments.length := by omega
        exact ⟨deep, by rw [deep] at same ⊢; exact same.symm⟩
      next => cases meets
    · rintro ⟨deep, same⟩
      rw [if_pos (deep ▸ inside), same, deep]
  next => cases above

/-- **Reading a path elsewhere.** Two modules read a path alike exactly if they meet where it has
climbed to. -/
theorem climb?_eq_iff (leads : module.climb? path = some place) :
    other.climb? path = some place ↔ Meets (climbs path) module other := by
  rw [climb?_eq] at leads ⊢
  obtain ⟨base, above, down⟩ := Option.bind_eq_some_iff.mp leads
  rw [← ancestor?_eq_iff above]
  split at down
  next plain =>
    cases down
    rw [Option.bind_eq_some_iff]
    constructor
    · rintro ⟨base', above', same⟩
      rw [if_pos plain, Option.some.injEq, List.append_cancel_right_eq] at same
      exact above'.trans (congrArg some (congrArg ModulePath.mk same))
    · intro above'
      exact ⟨base, above', if_pos plain⟩
  next => cases down

theorem eq_child_of_parent? (above : module.parent? = some other) :
    ∃ name, module = other.child name := by
  obtain ⟨segments⟩ := module
  unfold parent? at above
  split at above
  · cases above
  next inside =>
    cases above
    have nonempty : segments ≠ [] := fun empty => inside (by rw [isRoot, empty]; rfl)
    exact ⟨segments.getLast nonempty,
      congrArg ModulePath.mk (List.dropLast_concat_getLast nonempty).symm⟩

theorem not_meets_child (module : ModulePath) (name : String) :
    ¬ Meets count module (module.child name) := by
  rintro ⟨deep, -⟩
  simp [child] at deep

/-- Modules with one parent meet as soon as a path climbs. -/
theorem meets_siblings (module : ModulePath) (first second : String) (climbed : 0 < count) :
    Meets count (module.child first) (module.child second) := by
  have inside : (module.segments ++ [first]).length - count ≤ module.segments.length := by
    rw [List.length_append, List.length_singleton]
    omega
  refine ⟨by simp [child], ?_⟩
  simp only [child, List.take_append_of_le_length inside]

end ModulePath

namespace Lexeme

/-- The names that follow, each after a double colon. -/
def furtherNames : List Lexeme → List String
  | .op "::" :: .word name :: rest => name :: furtherNames rest
  | _ => []

/-- The paths of several names that begin with a relative one. The names after a double colon belong
to the path before them. -/
def relativePaths : List Lexeme → List (List String)
  | [] => []
  | .op "::" :: .word _ :: rest => relativePaths rest
  | .word first :: rest =>
    let path := first :: furtherNames rest
    if IsRelative first ∧ 1 < path.length then path :: relativePaths rest else relativePaths rest
  | _ :: rest => relativePaths rest

end Lexeme

/-- The relative paths in tokens that are written out. -/
def Token.relativePaths (tokens : List Token) : List (List String) :=
  Lexeme.relativePaths (lexemesAll (fuseAll tokens))

end VariantMerge
