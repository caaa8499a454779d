import VariantMerge.Proofs.Grammar.TypeRuns

/-!
# Types that are bounds

A type can be given by bounds: after `dyn` or `impl`, or without a keyword, if the first bound is a
lifetime, a path with something after it that makes it a bound, or a bound in parentheses. Each of these
forms is read back if its bounds are.
-/

namespace VariantMerge

open VariantMerge.Parser

namespace Bound

variable {place : BoundPlace} {b : Bound} {bounds : List Bound} {trailing : Bool}

theorem ReadsBack.some_ (back : b.ReadsBack place) : b.tokens ≠ [] := by
  intro nothing
  have starts := back.starts [] 1
  rw [nothing] at starts
  cases place <;> cases starts

/-- Bounds do not start with a star. -/
theorem no_star (each : ∀ b ∈ bounds, b.ReadsBack place) (some_ : bounds ≠ []) (rest : List Token) :
    Shows (startsOp "*") (Token.separated "+" trailing (boundsEach bounds) ++ rest) false := by
  rw [TypeNode.boundsEach_eq_map]
  refine Token.shows_separated (List.forall_mem_map.mpr fun b listed more =>
    (each b listed).signs "*" (by decide) more) fun nothing => ?_
  exact absurd (List.map_eq_nil_iff.mp nothing) some_

theorem isPlain_list (each : ∀ b ∈ bounds, b.ReadsBack place) :
    ∀ next ∈ (Token.separated "+" trailing (boundsEach bounds)).head?, next.isPlain = true := by
  cases bounds with
  | nil => rintro next ⟨⟩
  | cons first others =>
      have back := each first List.mem_cons_self
      intro next head
      rw [tokens_list, List.head?_append_of_ne_nil _ back.some_] at head
      exact back.plain next head

end Bound

namespace Ty

variable {plus : Bool} {bounds others : List Bound} {trailing : Bool}

theorem some_of_trait (trait_ : bounds.any Bound.isTrait = true) : bounds ≠ [] := by
  rintro rfl
  cases trait_

theorem dyn_readsBack (each : ∀ b ∈ bounds, b.ReadsBack .object)
    (trait_ : bounds.any Bound.isTrait = true)
    (single : plus = false → trailing = false ∧ ∃ b, bounds = [b]) :
    (Ty.object true bounds trailing).ReadsBack plus where
  starts := (by decide : Token.startsType [.word "dyn"] = true)
  unnamed := Token.startsNamed_keyword (by decide) _
  bare := fun _ => rfl
  closed := fun closed => (single closed).1
  joined := rfl
  legible := .cons (.inl (by decide)) rfl (Bound.isPlain_list each) (Bound.legible_list trailing each)
  runs := fun depth rest light ends => by
    simp only [Ty.tokens, Token.keywordIf, if_true, List.singleton_append, Token.weights,
      Token.weight] at light
    have inside : Token.weights (Token.separated "+" trailing (boundsEach bounds)) ≤ depth := by omega
    have weighs (b : Bound) (listed : b ∈ bounds) : Token.weights b.tokens ≤ depth :=
      Bound.light_of_list listed inside
    have word {condition : List Tree → Bool} {found : Bool} {tokens : List Token}
        (holds : ∀ line trees, condition (.ident line "dyn" :: trees) = found) :
        Shows condition (.word "dyn" :: tokens) found := shows_word (by decide) holds
    refine .get fun before => .bind (.binder?_absent (word fun _ _ => rfl)) (.look (word fun _ _ => rfl)
      (.look (word fun _ _ => rfl) (.take_keyword? (by decide) (.skip_op? (Bound.no_star each
        (some_of_trait trait_) rest) (.bind (Bound.bounds_runs each trait_ single weighs ends) .pure)))))

theorem implTrait_readsBack (each : ∀ b ∈ bounds, b.ReadsBack .implTrait)
    (trait_ : bounds.any Bound.isTrait = true)
    (single : plus = false → trailing = false ∧ ∃ b, bounds = [b]) :
    (Ty.implTrait bounds trailing).ReadsBack plus where
  starts := (by decide : Token.startsType [.word "impl"] = true)
  unnamed := Token.startsNamed_keyword (by decide) _
  bare := fun _ => rfl
  closed := fun closed => (single closed).1
  joined := rfl
  legible := .cons (.inl (by decide)) rfl (Bound.isPlain_list each) (Bound.legible_list trailing each)
  runs := fun depth rest light ends => by
    simp only [Ty.tokens, Token.weights, Token.weight] at light
    have inside : Token.weights (Token.separated "+" trailing (boundsEach bounds)) ≤ depth := by omega
    have weighs (b : Bound) (listed : b ∈ bounds) : Token.weights b.tokens ≤ depth :=
      Bound.light_of_list listed inside
    have word {condition : List Tree → Bool} {found : Bool} {tokens : List Token}
        (holds : ∀ line trees, condition (.ident line "impl" :: trees) = found) :
        Shows condition (.word "impl" :: tokens) found := shows_word (by decide) holds
    refine .get fun before => .bind (.binder?_absent (word fun _ _ => rfl)) (.look (word fun _ _ => rfl)
      (.look (word fun _ _ => rfl) (.skip_keyword? (word fun _ _ => rfl) (.look (word fun _ _ => rfl)
        (.skip_op? (startsOp_other_token (by decide) rfl) (.skip_op? (startsOp_other_token (by decide)
          rfl) (.skip_op? (startsOp_other_token (by decide) rfl) ?_)))))))
    exact .take_keyword? (by decide) (.bind (Bound.bounds_runs each trait_ single weighs ends) .pure)

/-- A lifetime is not the only bound, so a plus sign comes after it. -/
theorem lifetimeFirst_readsBack {name : String}
    (each : ∀ b ∈ .lifetime name :: others, b.ReadsBack .object)
    (trait_ : others.any Bound.isTrait = true) :
    (Ty.object false (.lifetime name :: others) trailing).ReadsBack true := by
  obtain ⟨second, more, rfl⟩ := List.exists_cons_of_ne_nil (some_of_trait trait_)
  refine ⟨rfl, rfl, nofun, nofun, rfl, Bound.legible_list trailing each,
    fun depth rest light ends => ?_⟩
  have weighs : ∀ b ∈ .lifetime name :: second :: more, Token.weights b.tokens ≤ depth := by
    rw [Ty.tokens, Token.keywordIf, if_neg Bool.false_ne_true, List.nil_append, Bound.tokens_list,
      Token.weights_append, Token.weights_append] at light
    have signed := Bound.weights_signed (List.mem_cons_self (a := second) (l := more))
    refine List.forall_mem_cons.mpr ⟨by omega, fun b listed => ?_⟩
    have := Bound.weights_signed listed
    have : 0 < Token.weights (Bound.lifetime name).tokens := Token.weights_pos (by simp [Bound.tokens])
    omega
  have sign (text : String) (real : text.toList ≠ []) {tokens : List Token} :
      Shows (startsOp text) (.lifetime name :: tokens) false := startsOp_other_token real rfl
  refine .get fun before => .bind (.binder?_absent fun _ => rfl) (.look (fun _ => rfl)
    (.look (fun _ => rfl) (.skip_keyword? (fun _ => rfl) (.look (fun _ => rfl) ?_))))
  refine .skip_op? (sign "*" (by decide)) (.skip_op? (sign "&" (by decide)) (.skip_op?
    (sign "!" (by decide)) (.skip_keyword? (fun _ => rfl) (.skip_keyword? (fun _ => rfl)
      (.look (fun _ => rfl) ?_)))))
  exact .bind (Bound.bounds_runs each (by simpa [Bound.isTrait] using trait_) nofun weighs ends) .pure

/-- A type in parentheses that holds a lifetime and other bounds. -/
theorem paren_bounds_readsBack {name : String}
    (each : ∀ b ∈ .lifetime name :: others, b.ReadsBack .object)
    (trait_ : others.any Bound.isTrait = true) :
    (Ty.paren (.object false (.lifetime name :: others) trailing)).ReadsBack plus where
  starts := rfl
  unnamed := rfl
  bare := fun _ => rfl
  closed := fun _ => rfl
  joined := rfl
  legible := .single (Bound.legible_list trailing each)
  runs := fun depth rest light ends => by
    have weighs : Token.weights
        (Token.separated "+" trailing (boundsEach (.lifetime name :: others))) ≤ depth := by
      simp only [Ty.tokens, Token.keywordIf, if_neg Bool.false_ne_true, List.nil_append, Token.weights,
        Token.weight] at light
      omega
    have bounds (start : Cursor) : (Parser.bounds (Grammar.upTo depth) .object true start).Runs
        (Token.separated "+" trailing (boundsEach (.lifetime name :: others)) ++ []) []
        (.lifetime name :: others, trailing) :=
      Bound.bounds_runs each (by simpa [Bound.isTrait] using trait_) (by rintro ⟨⟩)
        (fun b listed => Bound.light_of_list listed weighs) .nil
    rw [List.append_nil] at bounds
    refine parenType_starts (parenType_paren ?_ ends)
    change (insideParens (Grammar.upTo depth)).Runs
      (Token.separated "+" trailing (boundsEach (.lifetime name :: others))) [] _
    have whole : ∃ more, Token.separated "+" trailing (boundsEach (.lifetime name :: others)) =
        .lifetime name :: more := ⟨_, Bound.tokens_list ..⟩
    obtain ⟨more, whole⟩ := whole
    refine .look_false (fun line => ?_) (.look_true (fun line => ?_)
      (.get fun start => .bind (bounds start) .pure))
    · rw [whole]
      rfl
    · rw [whole]
      rfl

/-! ## Paths that are bounds -/

section PathBound

variable {binder : Option Binder} {p : Path}

theorem tokens_pathBound (binder : Option Binder) (p : Path) (others : List Bound) (trailing : Bool) :
    (Ty.object false (.trait false false binder p :: others) trailing).tokens =
    Binder.tokens? binder ++ (p.tokens ++
      (others.flatMap (fun b => .op "+" :: b.tokens) ++ Token.plusIf trailing)) := by
  rw [Ty.tokens, Bound.tokens_list]
  exact List.append_assoc ..

theorem isLone_pathBound :
    (Ty.object false (.trait false false binder p :: others) trailing).isLone = false := by
  cases others <;> cases trailing <;> rfl

/-- What follows the path of the first bound. -/
theorem after_pathBound (others : List Bound) (trailing : Bool) {trails : Bool} {rest : List Token} (ends : Token.EndsType plus trails rest) :
    Token.EndsType false false
      (others.flatMap (fun b => Token.op "+" :: b.tokens) ++ (Token.plusIf trailing ++ rest)) := by
  cases others with
  | cons next others => exact .another
  | nil =>
      cases trailing with
      | true => exact .another
      | false => exact ends.weaken

/-- Behind the path of the first bound, the others are read back. -/
theorem otherBounds_runs (binder : Option Binder) (p : Path) {depth : Nat} {rest : List Token} (each : ∀ b ∈ others, b.ReadsBack .object)
    (light : ∀ b ∈ others, Token.weights b.tokens ≤ depth)
    (single : plus = false → others = [] ∧ trailing = false)
    (ends : Token.EndsType plus trailing rest) : (do
      let (rest, trailing) ← (if plus = true then do
          moreBounds (Grammar.upTo depth) true ((← ahead).length + 1) else pure ([], false))
      return Ty.object false (.trait false false binder p :: rest) trailing).Runs
        (others.flatMap (fun b : Bound => Token.op "+" :: b.tokens) ++
          (Token.plusIf trailing ++ rest)) rest
        (.object false (.trait false false binder p :: others) trailing) := by
  refine .through (others, trailing) rest ?_ .pure
  cases plus with
  | true =>
      have loose : true = false → trailing = false := by rintro ⟨⟩
      exact .measured fun line => Bound.moreBounds_runs each loose light ends _
        (Nat.lt_succ_of_le (Bound.length_more others trailing rest line))
  | false =>
      obtain ⟨rfl, rfl⟩ := single rfl
      exact .pure

theorem pathType_bounds {depth : Nat} {rest : List Token} (front : p.IsFront)
    (each : ∀ b ∈ others, b.ReadsBack .object) (lightPath : Token.weights p.tokens ≤ depth + 1)
    (light : ∀ b ∈ others, Token.weights b.tokens ≤ depth)
    (single : plus = false → others = [] ∧ trailing = false)
    (isBound : binder.isSome = true ∨ plus = true ∧ (others ≠ [] ∨ trailing = true))
    (ends : Token.EndsType plus trailing rest) :
    (pathType (Grammar.upTo depth) plus binder).Runs (p.tokens ++
      (others.flatMap (fun b => .op "+" :: b.tokens) ++ (Token.plusIf trailing ++ rest))) rest
      (.object false (.trait false false binder p :: others) trailing) := by
  have after := after_pathBound others trailing ends
  have goesOn := otherBounds_runs binder p each light single ends
  refine .bind (front.qualifiedPath_runs (by rintro ⟨⟩) lightPath after.endsPath)
    (.look_false (fun line => ?_) ?_)
  · rw [startsOpNot, after.op "!" (by decide) line, Bool.false_and]
  · rw [Bool.and_false]
    cases binder with
    | some b => exact .look_any fun _ => goesOn
    | none =>
        obtain ⟨rfl, more⟩ := isBound.resolve_left Bool.false_ne_true
        refine .look_true ?_ goesOn
        cases others with
        | cons next others => exact startsOp_self (by decide)
        | nil =>
            obtain rfl := more.resolve_left (fun some_ => some_ rfl)
            exact startsOp_self (by decide)

theorem legible_pathBound (front : p.IsFront) (quantifies : ∀ b ∈ binder, b.ReadsBack)
    (each : ∀ b ∈ others, b.ReadsBack .object) :
    Token.Legible (Ty.object false (.trait false false binder p :: others) trailing).tokens := by
  have first : (Bound.trait false false binder p).ReadsBack .object :=
    Bound.trait_readsBack ⟨.plain front.back, quantifies, nofun⟩
  exact Bound.legible_list trailing (List.forall_mem_cons.mpr ⟨first, each⟩)

/-- A path with other bounds after it. -/
theorem pathBound_readsBack (front : p.IsFront) (each : ∀ b ∈ others, b.ReadsBack .object)
    (more : others ≠ [] ∨ trailing = true) :
    (Ty.object false (.trait false false none p :: others) trailing).ReadsBack true := by
  have whole := tokens_pathBound none p others trailing
  rw [Binder.tokens?, List.nil_append] at whole
  have unbound : ∀ b ∈ (none : Option Binder), b.ReadsBack := fun b listed =>
    absurd listed (Option.not_mem_none b)
  refine ⟨?_, ?_, by rintro ⟨⟩, by rintro ⟨⟩, isLone_pathBound, legible_pathBound front unbound each,
    fun depth rest light ends => ?_⟩
  · rw [whole]
    exact Token.startsType_append front.starts _
  · rw [whole]
    refine front.unnamed fun next head text same => ?_
    subst same
    cases others with
    | cons second others =>
        cases head
        decide
    | nil =>
        obtain rfl := more.resolve_left (fun some_ => some_ rfl)
        cases head
        decide
  · rw [whole, Token.weights_append, Token.weights_append] at light
    rw [whole, List.append_assoc, List.append_assoc]
    have some_ : 0 < Token.weights p.tokens := Token.weights_pos fun nothing => by
      have starts := front.starts
      rw [nothing] at starts
      cases starts
    refine front.ty_runs ((after_pathBound others trailing ends).op "#" (by decide)) (pathType_bounds front each
      (by omega) (fun b listed => ?_) (by rintro ⟨⟩) (.inr ⟨rfl, more⟩) ends)
    have := Bound.weights_signed listed
    omega

/-- A path that quantifies over lifetimes. -/
theorem quantified_readsBack {b : Binder} (quantifies : b.ReadsBack) (front : p.IsFront)
    (unled : ∀ more, p.tokens ≠ .op "::" :: more) (each : ∀ b ∈ others, b.ReadsBack .object)
    (single : plus = false → others = [] ∧ trailing = false) :
    (Ty.object false (.trait false false (some b) p :: others) trailing).ReadsBack plus := by
  have whole := tokens_pathBound (some b) p others trailing
  refine ⟨?_, ?_, fun _ => ?_, fun closed => (single closed).2, isLone_pathBound,
    legible_pathBound front (by rintro _ ⟨rfl⟩; exact quantifies) each, fun depth rest light ends => ?_⟩
  · rw [whole]
    exact (by decide : Token.startsType [.word "for"] = true)
  · rw [whole]
    exact Token.startsNamed_keyword (by decide) _
  · rw [whole]
    rfl
  · rw [whole, Token.weights_append, Token.weights_append, Token.weights_append] at light
    rw [whole, List.append_assoc, List.append_assoc, List.append_assoc]
    have keyword : 1 < Token.weights b.tokens := by
      simp only [Binder.tokens, List.cons_append, Token.weights, Token.weight]
      omega
    have some_ : 0 < Token.weights p.tokens := Token.weights_pos fun nothing => by
      have starts := front.starts
      rw [nothing] at starts
      cases starts
    rw [Binder.tokens?] at light ⊢
    obtain ⟨depth, rfl⟩ : ∃ before, depth = before + 1 := ⟨depth - 1, by omega⟩
    refine .get fun before => .bind quantifies.runs (.look_true (fun line => ?_)
      (front.namedType_runs ((after_pathBound others trailing ends).op "#" (by decide)) (pathType_bounds front each
        (by omega) (fun b listed => ?_) single (.inl rfl) ends)))
    · obtain ⟨more, led⟩ | ⟨name, more, same, named, kind, -⟩ := front.cases
      · exact absurd led (unled more)
      · rw [same, List.cons_append, Token.trees_name named]
        simp only [startsName, startsPathKeyword, startsWord, Bool.or_eq_true]
        refine kind.elim (fun free => .inl (.inr (by rw [free]; rfl))) fun listed => .inr ?_
        exact List.any_eq_true.mpr ⟨name, listed, beq_self_eq_true name⟩
    · have := Bound.weights_signed listed
      omega

end PathBound

/-- Bounds of which the first one is in parentheses: there, it is a type. -/
theorem parenBound_readsBack {inner : Ty} {first : Bound} (back : inner.ReadsBack true)
    (bare : Token.isLifetimeFirst inner.tokens = false) (turns : parenBound? inner = some first)
    (same : first.tokens = [.group .paren inner.tokens])
    (each : ∀ b ∈ others, b.ReadsBack .object) (some_ : others ≠ []) :
    (Ty.object false (first :: others) false).ReadsBack true := by
  have whole (rest : List Token) : (Ty.object false (first :: others) false).tokens ++ rest =
      .group .paren inner.tokens ::
        (others.flatMap (fun b => .op "+" :: b.tokens) ++ (Token.plusIf false ++ rest)) := by
    rw [Ty.tokens, Token.keywordIf, if_neg Bool.false_ne_true, List.nil_append, Bound.tokens_list, same]
    simp
  have alone := whole []
  rw [List.append_nil] at alone
  refine ⟨?_, ?_, by rintro ⟨⟩, by rintro ⟨⟩, ?_, ?_, fun depth rest light ends => ?_⟩
  · rw [alone]
    rfl
  · rw [alone]
    rfl
  · obtain ⟨second, more, rfl⟩ := List.exists_cons_of_ne_nil some_
    cases first with
    | trait parens => cases parens <;> rfl
    | _ => rfl
  · rw [Ty.tokens, TypeNode.boundsEach_eq_map]
    refine .separated (by decide) false (List.forall_mem_map.mpr (List.forall_mem_cons.mpr ⟨?_,
      fun b listed => (each b listed).legible⟩))
    rw [same]
    exact .single back.legible
  · rw [alone] at light
    simp only [Token.weights, Token.weight, Token.weights_append] at light
    rw [whole]
    have weighs : Token.weights inner.tokens ≤ depth := by omega
    have inside := insideParens_runs back bare weighs .nil
      (.skip_op? (fun _ => rfl) .pure)
    rw [List.append_nil] at inside
    refine parenType_starts (.measured fun line => .bind (.group inside) ?_)
    dsimp only
    rw [turns]
    refine .look_true ?_ (.bind (Bound.moreBounds_runs each (fun _ => rfl) (fun b listed => ?_)
      ends _ ?_) .pure)
    · obtain ⟨second, more, rfl⟩ := List.exists_cons_of_ne_nil some_
      exact startsOp_self (by decide)
    · have := Bound.weights_signed listed
      omega
    · obtain ⟨next, shorter⟩ := Token.length_trees_append [.group .paren inner.tokens]
        (others.flatMap (fun b => .op "+" :: b.tokens) ++ (Token.plusIf false ++ rest)) line
      exact Nat.lt_succ_of_le ((Bound.length_more others false rest next).trans shorter)

end Ty

end VariantMerge
