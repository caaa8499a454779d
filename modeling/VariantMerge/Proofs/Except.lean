import Mathlib.Data.List.Forall2

/-!
# Computations that can fail

What a successful computation says about its parts, and the first failure of many. A list is turned
into results one by one (`Except.mapM_eq_ok_iff`) up to the first value that has none
(`Except.mapM_eq_error_iff`), and a run over a list keeps what each of its steps keeps
(`Except.foldlM_keeps`).
-/

namespace VariantMerge

theorem exists_of_forall₂ {R : α → β → Prop} {values : List α} {results : List β}
    (related : List.Forall₂ R values results) {value : α} (member : value ∈ values) :
    ∃ result ∈ results, R value result := by
  induction related with
  | nil => cases member
  | cons head _ ih =>
      obtain rfl | later := List.mem_cons.mp member
      · exact ⟨_, List.mem_cons_self, head⟩
      · obtain ⟨result, listed, holds⟩ := ih later
        exact ⟨result, List.mem_cons_of_mem _ listed, holds⟩

namespace Except

/-! ## One computation -/

theorem bind_eq_ok_iff {result : Except ε α} {f : α → Except ε β} {value : β} :
    result.bind f = .ok value ↔ ∃ earlier, result = .ok earlier ∧ f earlier = .ok value := by
  cases result with
  | error failure => simp [Except.bind]
  | ok earlier => simp [Except.bind]

theorem bind_assoc {first : Except ε α} {f : α → Except ε β} {g : β → Except ε γ} :
    (first.bind f).bind g = first.bind fun value => (f value).bind g := by
  cases first <;> rfl

theorem map_eq_ok_iff {result : Except ε α} {f : α → β} {value : β} :
    result.map f = .ok value ↔ ∃ earlier, result = .ok earlier ∧ f earlier = value := by
  cases result <;> simp [Except.map]

theorem map_eq_error_iff {result : Except ε α} {f : α → β} {error : ε} :
    result.map f = .error error ↔ result = .error error := by
  cases result <;> simp [Except.map]

theorem mapError_eq_ok_iff {result : Except ε α} {f : ε → δ} {value : α} :
    result.mapError f = .ok value ↔ result = .ok value := by
  cases result <;> simp [Except.mapError]

theorem exists_of_toOption_map {result : Except ε α} {f : α → β} {image : β}
    (turned : result.toOption.map f = some image) :
    ∃ value, result = .ok value ∧ f value = image := by
  cases result with
  | ok value => exact ⟨value, rfl, Option.some.inj turned⟩
  | error => cases turned

/-! ## One for each value of a list -/

/-- A property of states that every step of a successful run keeps holds at its end. -/
theorem foldlM_keeps {step : β → α → Except ε β} {keeps : β → Prop} {values : List α}
    (each : ∀ value ∈ values, ∀ state after, keeps state → step state value = .ok after →
      keeps after) {state result : β} (start : keeps state)
    (ran : values.foldlM step state = .ok result) : keeps result := by
  induction values generalizing state with
  | nil =>
      cases ran
      exact start
  | cons value rest ih =>
      rw [List.foldlM_cons] at ran
      obtain ⟨between, first, others⟩ := bind_eq_ok_iff.mp ran
      refine ih (fun later member => ?_) ?_ others
      · exact each later (List.mem_cons_of_mem _ member)
      · exact each value List.mem_cons_self state between start first

theorem mapM_cons (f : α → Except ε β) (value : α) (rest : List α) :
    (value :: rest).mapM f = (f value).bind fun result =>
      (rest.mapM f).bind fun later => .ok (result :: later) :=
  List.mapM_cons

/-- A list is turned into the results of its values. -/
theorem mapM_eq_ok_iff {f : α → Except ε β} {values : List α} {results : List β} :
    values.mapM f = .ok results ↔
      List.Forall₂ (fun value result => f value = .ok result) values results := by
  induction values generalizing results with
  | nil =>
      rw [List.forall₂_nil_left_iff]
      exact ⟨fun same => (Except.ok.inj same).symm, fun same => congrArg Except.ok same.symm⟩
  | cons value rest ih =>
      rw [mapM_cons, List.forall₂_cons_left_iff]
      simp only [bind_eq_ok_iff, ih, Except.ok.injEq]
      constructor
      · rintro ⟨result, turned, later, others, rfl⟩
        exact ⟨result, later, turned, others, rfl⟩
      · rintro ⟨result, later, turned, others, rfl⟩
        exact ⟨result, turned, later, others, rfl⟩

theorem mapM_eq_error {f : α → Except ε β} {before after : List α} {value : α} {error : ε}
    (turned : ∀ earlier ∈ before, ∃ result, f earlier = .ok result) (failed : f value = .error error) :
    (before ++ value :: after).mapM f = .error error := by
  induction before with
  | nil =>
      rw [List.nil_append, mapM_cons, failed]
      rfl
  | cons first before ih =>
      obtain ⟨⟨result, here⟩, later⟩ := List.forall_mem_cons.mp turned
      rw [List.cons_append, mapM_cons, here, ih later]
      rfl

/-- A list is not turned into results because of the first of its values that has none. -/
theorem mapM_eq_error_iff {f : α → Except ε β} {values : List α} {error : ε} :
    values.mapM f = .error error ↔
      ∃ before value after, values = before ++ value :: after ∧
        (∀ earlier ∈ before, ∃ result, f earlier = .ok result) ∧ f value = .error error := by
  constructor
  · intro failed
    induction values with
    | nil => cases failed
    | cons head rest ih =>
        rw [mapM_cons] at failed
        cases turned : f head with
        | error failure =>
            rw [turned] at failed
            cases failed
            exact ⟨[], head, rest, rfl, fun _ none_ => absurd none_ List.not_mem_nil, turned⟩
        | ok result =>
            have later : rest.mapM f = .error error := by
              rw [turned] at failed
              exact map_eq_error_iff.mp failed
            obtain ⟨before, value, after, rfl, read, stopped⟩ := ih later
            exact ⟨head :: before, value, after, rfl,
              List.forall_mem_cons.mpr ⟨⟨result, turned⟩, read⟩, stopped⟩
  · rintro ⟨before, value, after, rfl, turned, failed⟩
    exact mapM_eq_error turned failed

/-- Values that are turned into images of other ones. -/
theorem mapM_eq_map {f f' : α → Except ε β} {g : β → β} {values : List α}
    (each : ∀ value ∈ values, f' value = (f value).map g) :
    values.mapM f' = (values.mapM f).map (List.map g) := by
  induction values with
  | nil => rfl
  | cons value rest ih =>
      rw [mapM_cons, mapM_cons, each value List.mem_cons_self,
        ih fun later listed => each later (List.mem_cons_of_mem _ listed)]
      cases f value with
      | error error => rfl
      | ok result => cases rest.mapM f <;> rfl

end Except

end VariantMerge
