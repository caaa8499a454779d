import VariantMerge.Proofs.Grammar.BoundRuns

/-!
# Bounds in a row

Bounds are joined by plus signs, and some lists of them may end in one. Three loops of the grammar read
such lists: one for types that are bounds (`Bound.bounds_runs`), one for what goes on from a type that
turned out to be the first bound (`Bound.moreBounds_runs`), and one for conditions
(`Bound.looseBounds_runs`).
-/

namespace VariantMerge

open VariantMerge.Parser

namespace Token

variable {plus trails : Bool} {rest : List Token}

/-- After a plus sign at the end, no bound comes in whatever place. -/
theorem EndsType.no_bound (ends : EndsType plus true rest) (place : BoundPlace) :
    Shows (startsBound place) rest false := by
  intro line
  have other := ends.bound rfl line
  simp only [startsBound, Bool.or_eq_false_iff, Bool.and_eq_false_iff] at other ⊢
  exact ⟨other.1, .inr (other.2.resolve_left (by decide))⟩

/-- The plus sign after the last bound. -/
def plusIf (trailing : Bool) : List Token :=
  if trailing then [.op "+"] else []

end Token

namespace Bound

variable {place : BoundPlace} {bounds : List Bound} {trailing : Bool} {depth : Nat}
  {rest : List Token}

theorem light_of_list {b : Bound} (listed : b ∈ bounds)
    (light : Token.weights (Token.separated "+" trailing (boundsEach bounds)) ≤ depth) :
    Token.weights b.tokens ≤ depth := by
  rw [TypeNode.boundsEach_eq_map] at light
  exact (Token.weights_le_separated (List.mem_map_of_mem listed)).trans light

theorem legible_list (trailing : Bool) (each : ∀ b ∈ bounds, b.ReadsBack place) :
    Token.Legible (Token.separated "+" trailing (boundsEach bounds)) := by
  rw [TypeNode.boundsEach_eq_map]
  exact .separated (by decide) trailing (List.forall_mem_map.mpr fun b listed =>
    (each b listed).legible)

/-- The first bound with the others, each after its sign. -/
theorem tokens_list (first : Bound) (others : List Bound) (trailing : Bool) :
    Token.separated "+" trailing (boundsEach (first :: others)) =
      first.tokens ++ (others.flatMap (fun b => .op "+" :: b.tokens) ++ Token.plusIf trailing) := by
  rw [TypeNode.boundsEach_eq_map, List.map_cons, Token.separated_eq_flatMap, List.flatMap_map]
  rfl

/-- A bound after its sign weighs less than all of them. -/
theorem weights_signed {others : List Bound} {b : Bound} (listed : b ∈ others) :
    Token.weights b.tokens < Token.weights (others.flatMap fun b => .op "+" :: b.tokens) := by
  induction others with
  | nil => cases listed
  | cons first others ih =>
      rw [List.flatMap_cons, Token.weights_append, Token.weights]
      rcases List.mem_cons.mp listed with rfl | listed
      · exact Nat.lt_add_right _ (Nat.lt_add_of_pos_left (Token.op "+").weight_pos)
      · exact Nat.lt_add_left _ (ih listed)

/-- A single bound, where no others may be joined to it. -/
theorem boundsFrom_single {b : Bound} (back : b.ReadsBack place)
    (light : Token.weights b.tokens ≤ depth) (ends : Token.EndsType false false rest) (count : Nat) :
    (boundsFrom (Grammar.upTo depth) place false (count + 1)).Runs (b.tokens ++ rest) rest
      ([b], false) :=
  .bind (back.runs depth rest light ends) (.look_any fun _ => .pure)

theorem boundsFrom_runs (each : ∀ b ∈ bounds, b.ReadsBack place) (some_ : bounds ≠ [])
    (light : ∀ b ∈ bounds, Token.weights b.tokens ≤ depth)
    (ends : Token.EndsType true trailing rest) {line : Nat} :
    (boundsFrom (Grammar.upTo depth) place true ((Token.trees line
        (Token.separated "+" trailing (boundsEach bounds) ++ rest)).length + 1)).Runs
      (Token.separated "+" trailing (boundsEach bounds) ++ rest) rest (bounds, trailing) := by
  rw [TypeNode.boundsEach_eq_map]
  refine .rounds (boundsFrom (Grammar.upTo depth) place true) (by decide)
    (fun nothing => absurd nothing some_) (fun b listed count _ => ?_)
    (fun b listed next among count more read others => ?_) _ _ rfl
  · cases trailing with
    | false =>
        refine .bind ((each b listed).runs depth _ (light b listed) ends.weaken) ?_
        exact .look (ends.plus rfl) .pure
    | true =>
        refine .bind ((each b listed).runs depth _ (light b listed) .another) ?_
        refine .look (startsOp_self (by decide)) (.take_op (by decide) ?_)
        exact .look (ends.no_bound place) .pure
  · refine .bind ((each b listed).runs depth _ (light b listed) .another) ?_
    refine .look (startsOp_self (by decide)) (.take_op (by decide) ?_)
    exact .look ((each next among).starts more) (.bind others .pure)

/-- **Bounds are read back.** At least one of them is a trait; if no others may be joined, there is
only one. -/
theorem bounds_runs {allowPlus : Bool} {start : Cursor} (each : ∀ b ∈ bounds, b.ReadsBack place)
    (trait_ : bounds.any Bound.isTrait = true)
    (single : allowPlus = false → trailing = false ∧ ∃ b, bounds = [b])
    (light : ∀ b ∈ bounds, Token.weights b.tokens ≤ depth)
    (ends : Token.EndsType allowPlus trailing rest) :
    (Parser.bounds (Grammar.upTo depth) place allowPlus start).Runs
      (Token.separated "+" trailing (boundsEach bounds) ++ rest) rest (bounds, trailing) := by
  refine .measured fun line => .through (bounds, trailing) rest ?_ ?_
  · cases allowPlus with
    | true =>
        refine boundsFrom_runs each ?_ light ends
        rintro rfl
        cases trait_
    | false =>
        obtain ⟨rfl, b, rfl⟩ := single rfl
        exact boundsFrom_single (each b List.mem_cons_self) (light b List.mem_cons_self) ends.weaken _
  · simp only [trait_, Bool.not_true]
    exact .pure

/-- **What goes on from the first bound is read back.** -/
theorem moreBounds_runs {loose : Bool} {others : List Bound}
    (each : ∀ b ∈ others, b.ReadsBack .object) (closed : loose = false → trailing = false)
    (light : ∀ b ∈ others, Token.weights b.tokens ≤ depth)
    (ends : Token.EndsType true trailing rest) (count : Nat)
    (enough : others.length + (Token.plusIf trailing).length < count) :
    (moreBounds (Grammar.upTo depth) loose count).Runs
      (others.flatMap (fun b => .op "+" :: b.tokens) ++ (Token.plusIf trailing ++ rest)) rest
      (others, trailing) := by
  induction others generalizing count with
  | nil =>
      obtain ⟨count, rfl⟩ := Nat.exists_eq_succ_of_ne_zero (Nat.ne_of_gt (Nat.zero_le _ |>.trans_lt
        enough))
      cases trailing with
      | false => exact .skip_op? (ends.plus rfl) .pure
      | true =>
          obtain rfl : loose = true := by
            cases loose with
            | false => cases closed rfl
            | true => rfl
          exact .take_op? (by decide) (.look (ends.no_bound .object) .pure)
  | cons b others ih =>
      obtain ⟨count, rfl⟩ := Nat.exists_eq_succ_of_ne_zero (Nat.ne_of_gt (Nat.zero_le _ |>.trans_lt
        enough))
      have back := each b List.mem_cons_self
      have later := ih (fun b listed => each b (List.mem_cons_of_mem _ listed))
        (fun b listed => light b (List.mem_cons_of_mem _ listed)) count
        (by simp only [List.length_cons] at enough; omega)
      have after : Token.EndsType false false
          (others.flatMap (fun b => .op "+" :: b.tokens) ++ (Token.plusIf trailing ++ rest)) := by
        cases others with
        | nil =>
            cases trailing with
            | false => exact ends.weaken
            | true => exact .another
        | cons next others => exact .another
      rw [List.flatMap_cons, List.append_assoc]
      refine .take_op? (by decide) (.look (back.starts _) ?_)
      have next := back.runs depth _ (light b List.mem_cons_self) after
      cases loose <;> exact .bind next (.bind later .pure)

/-- Each bound and the plus sign at the end are one tree at least. -/
theorem length_more (others : List Bound) (trailing : Bool) (rest : List Token) (line : Nat) :
    others.length + (Token.plusIf trailing).length ≤ (Token.trees line
      (others.flatMap (fun b => .op "+" :: b.tokens) ++ (Token.plusIf trailing ++ rest))).length := by
  obtain ⟨next, long⟩ := Runs.length_signed (show "+".toList ≠ [] by decide) Bound.tokens others
    (Token.plusIf trailing ++ rest) line
  refine le_trans ?_ long
  cases trailing with
  | false => exact Nat.le_add_right _ _
  | true => exact Nat.add_le_add_left (Nat.le_add_left _ _) _

/-- **Bounds of a condition are read back.** There may be none. -/
theorem looseBounds_runs {stop : List Tree → Bool} (each : ∀ b ∈ bounds, b.ReadsBack .declaration)
    (empty : bounds = [] → trailing = true)
    (light : Token.weights (Token.separated "+" trailing (boundsEach bounds)) ≤ depth)
    (before : ∀ b ∈ bounds, ∀ rest, Shows stop (b.tokens ++ rest) false)
    (last : Shows stop rest true) (ends : Token.EndsType true trailing rest) :
    (looseBounds (Grammar.upTo depth) stop).Runs
      (Token.separated "+" trailing (boundsEach bounds) ++ rest) rest (bounds, trailing) := by
  have lighter (b : Bound) (listed : b ∈ bounds) := light_of_list listed light
  rw [TypeNode.boundsEach_eq_map]
  refine .sepWhile (by decide) (fun b listed more after => ?_) before last (ends.plus rfl) empty
  refine (each b listed).runs depth more (lighter b listed) ?_
  rcases after with rfl | ⟨more, rfl⟩
  · exact ends.weaken
  · exact .another

end Bound

end VariantMerge
