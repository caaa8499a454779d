import VariantMerge.Proofs.Grammar.ArgumentRuns

/-!
# Types that are read back

There is one lemma for each form of type: it is read back (`Ty.ReadsBack`) if its parts are. The grammar
decides by the first tokens which form it reads, so each lemma follows it down to the form, takes what is
written there, and hands the parts to the grammar inside.
-/

namespace VariantMerge

open VariantMerge.Parser

namespace Ty

variable {plus : Bool} {t : Ty} {depth : Nat} {rest : List Token}

/-- A type without bounds at its end, of which the end is that of another one. -/
theorem ReadsBack.inner_last (back : t.ReadsBack false) {trails : Bool}
    (light : Token.weights t.tokens ≤ depth) (ends : Token.EndsType plus trails rest) :
    ((Grammar.upTo depth).ty false).Runs (t.tokens ++ rest) rest t :=
  back.inner light (back.ends ends.weaken)

/-- A type that does not print a lifetime first does not begin with one. -/
theorem ReadsBack.no_lifetime (back : t.ReadsBack plus)
    (bare : Token.isLifetimeFirst t.tokens = false) (rest : List Token) :
    Shows startsLifetime (t.tokens ++ rest) false := by
  have starts := back.starts
  cases tokens : t.tokens with
  | nil =>
      rw [tokens] at starts
      cases starts
  | cons token more =>
      intro line
      rw [tokens] at starts bare
      rw [List.cons_append, Token.trees]
      cases token with
      | word text =>
          rw [Token.treesOnto]
          split <;> rfl
      | lifetime name => cases bare
      | op text =>
          have listed := Token.startsType_op starts
          simp only [List.mem_cons, List.not_mem_nil, or_false] at listed
          rcases listed with rfl | rfl | rfl | rfl | rfl <;> rfl
      | openOp text => cases starts
      | group delimiter inner => rfl

/-! ## Types with a sign in front -/

/-- The type without values reads back. -/
theorem never_readsBack : Ty.never.ReadsBack plus where
  starts := rfl
  unnamed := rfl
  bare := fun _ => rfl
  closed := fun _ => rfl
  joined := rfl
  legible := .cons_op _ (by decide) (by decide) .nil
  runs := fun depth rest _ _ => by
    refine .get fun before => .bind (.binder?_absent fun _ => rfl) (.look (fun _ => rfl)
      (.look (fun _ => rfl) (.skip_keyword? (fun _ => rfl) (.look (fun _ => rfl) ?_))))
    exact .skip_op? (fun _ => rfl) (.skip_op? (fun _ => rfl) (.take_op? (by decide) .pure))

/-- An inferred type reads back. -/
theorem infer_readsBack : Ty.infer.ReadsBack plus where
  starts := by decide
  unnamed := rfl
  bare := fun _ => rfl
  closed := fun _ => rfl
  joined := rfl
  legible := .cons (.inl (by decide)) rfl nofun .nil
  runs := fun depth rest _ _ => by
    have word {condition : List Tree → Bool} {found : Bool}
        (holds : ∀ line trees, condition (.ident line "_" :: trees) = found) :
        Shows condition (.word "_" :: rest) found := shows_word (by decide) holds
    have sign (text : String) (real : text.toList ≠ []) :
        Shows (startsOp text) (.word "_" :: rest) false := startsOp_other_token real rfl
    refine .get fun before => .bind (.binder?_absent (word fun _ _ => rfl)) (.look (word fun _ _ => rfl)
      (.look (word fun _ _ => rfl) (.skip_keyword? (word fun _ _ => rfl) (.look (word fun _ _ => rfl)
        ?_))))
    exact .skip_op? (sign "*" (by decide)) (.skip_op? (sign "&" (by decide)) (.skip_op?
      (sign "!" (by decide)) (.skip_keyword? (word fun _ _ => rfl) (.take_keyword? (by decide) .pure))))

/-- A reference reads back if its target does. -/
theorem reference_readsBack {lifetime : Option String} {isMut : Bool} {target : Ty}
    (named : ∀ name ∈ lifetime, Literal.rawableWord name.toList = some [])
    (back : target.ReadsBack false) : (Ty.reference lifetime isMut target).ReadsBack plus where
  starts := rfl
  unnamed := rfl
  bare := fun _ => rfl
  closed := fun _ => rfl
  joined := rfl
  legible := by
    have after : Token.Legible (Token.keywordIf isMut "mut" ++ target.tokens) := by
      cases isMut with
      | false => exact back.legible
      | true =>
          refine .cons (.inl (by decide)) rfl (fun next first => ?_) back.legible
          exact Token.isPlain_of_startsType back.starts next first
    rw [Ty.tokens, List.append_assoc, List.cons_append]
    refine .cons_op _ (by decide) (by decide) ?_
    cases lifetime with
    | none => exact after
    | some name =>
        refine .cons (named name rfl) rfl (fun next first => ?_) after
        cases isMut with
        | false => exact Token.isPlain_of_startsType back.starts next first
        | true =>
            cases first
            rfl
  runs := fun depth rest light ends => by
    have whole : (Ty.reference lifetime isMut target).tokens ++ rest = .op "&" ::
        (Token.lifetime? lifetime ++ (Token.keywordIf isMut "mut" ++ (target.tokens ++ rest))) := by
      simp [Ty.tokens]
    have weighs : Token.weights target.tokens ≤ depth := by
      simp only [Ty.tokens, Token.weights_append, Token.weights, Token.weight] at light
      omega
    rw [whole]
    refine .get fun before => .bind (.binder?_absent fun _ => rfl) (.look (fun _ => rfl)
      (.look (fun _ => rfl) (.skip_keyword? (fun _ => rfl) (.look (fun _ => rfl) ?_))))
    refine .skip_op? (fun _ => rfl) (.take_op? (by decide) (.through lifetime
      (Token.keywordIf isMut "mut" ++ (target.tokens ++ rest)) ?_
      (.through isMut (target.tokens ++ rest) ?_
        (.bind (back.inner_last weighs ends) .pure))))
    · cases lifetime with
      | some name => exact .lifetime?_taken
      | none =>
          refine .lifetime?_absent ?_
          cases isMut with
          | true => exact shows_word (by decide) fun _ _ => rfl
          | false => exact back.no_lifetime (back.bare rfl) rest
    · cases isMut with
      | true => exact .keyword?_taken (by decide)
      | false => exact .keyword?_absent ((back.typeStart rest).word "mut" (by decide))

/-- A pointer reads back if its target does. -/
theorem pointer_readsBack {isMut : Bool} {target : Ty} (back : target.ReadsBack false) :
    (Ty.pointer isMut target).ReadsBack plus where
  starts := rfl
  unnamed := rfl
  bare := fun _ => rfl
  closed := fun _ => rfl
  joined := rfl
  legible := by
    refine .cons_op _ (by decide) (by decide) (.cons (.inl ?_) rfl (fun next first => ?_) back.legible)
    · cases isMut <;> decide
    · exact Token.isPlain_of_startsType back.starts next first
  runs := fun depth rest light ends => by
    have weighs : Token.weights target.tokens ≤ depth := by
      simp only [Ty.tokens, Token.weights, Token.weight] at light
      omega
    refine .get fun before => .bind (.binder?_absent fun _ => rfl) (.look (fun _ => rfl)
      (.look (fun _ => rfl) (.skip_keyword? (fun _ => rfl) (.look (fun _ => rfl) ?_))))
    refine .take_op? (by decide) ?_
    cases isMut with
    | true => exact .take_keyword? (by decide) (.bind (back.inner_last weighs ends) .pure)
    | false =>
        refine .skip_keyword? (shows_word (by decide) fun _ _ => rfl) ?_
        exact .take_keyword (by decide) (.bind (back.inner_last weighs ends) .pure)

/-! ## Types in delimiters -/

/-- A slice reads back if its elements do. -/
theorem slice_readsBack {element : Ty} (back : element.ReadsBack true) :
    (Ty.slice element).ReadsBack plus where
  starts := rfl
  unnamed := rfl
  bare := fun _ => rfl
  closed := fun _ => rfl
  joined := rfl
  legible := .single back.legible
  runs := fun depth rest light _ => by
    have weighs : Token.weights element.tokens ≤ depth := by
      simp only [Ty.tokens, Token.weights, Token.weight] at light
      omega
    have inside := back.inner weighs .nil
    rw [List.append_nil] at inside
    refine .get fun before => .bind (.binder?_absent fun _ => rfl) (.look (fun _ => rfl)
      (.look (fun _ => rfl) (.skip_keyword? (fun _ => rfl) (.look (fun _ => rfl) ?_))))
    exact .group (.bind inside (.skip_op? (fun _ => rfl) .pure))

end Ty

/-- A constant that is read back where it stands alone. -/
structure Token.IsConstant (value : List Token) : Prop where
  legible : Token.Legible value
  runs : ∀ depth, Token.weights value ≤ depth →
    ((Grammar.upTo depth).expr true).Runs value [] value

/-- What is passed on as it was written: its punctuation is read back as the same operators. -/
structure Token.IsVerbatim (inner : List Token) : Prop where
  legible : Token.Legible inner
  same : ∀ line, Tree.tokens (Token.trees line inner) = inner

namespace Ty

variable {plus : Bool} {depth : Nat} {rest : List Token}

/-- An array reads back if its elements and its length do. -/
theorem array_readsBack {element : Ty} {length : List Token} (back : element.ReadsBack true)
    (constant : Token.IsConstant length) : (Ty.array element length).ReadsBack plus where
  starts := rfl
  unnamed := rfl
  bare := fun _ => rfl
  closed := fun _ => rfl
  joined := rfl
  legible := by
    refine .single (back.legible.append (constant.legible.cons_op _ (by decide) (by decide)) ?_)
    rintro next ⟨rfl⟩
    decide
  runs := fun depth rest light _ => by
    have weighs : Token.weights element.tokens ≤ depth ∧ Token.weights length ≤ depth := by
      simp only [Ty.tokens, Token.weights_append, Token.weights, Token.weight] at light
      omega
    refine .get fun before => .bind (.binder?_absent fun _ => rfl) (.look (fun _ => rfl)
      (.look (fun _ => rfl) (.skip_keyword? (fun _ => rfl) (.look (fun _ => rfl) ?_))))
    refine .group (.bind (back.inner weighs.1 (.sign (by decide))) (.take_op? (by decide) ?_))
    exact .bind (constant.runs depth weighs.2) .pure

/-- What parentheses hold that start with a type. -/
theorem insideParens_runs {first : Ty} {more : List Token} {read : Ty}
    (back : first.ReadsBack true) (bare : Token.isLifetimeFirst first.tokens = false)
    (weighs : Token.weights first.tokens ≤ depth) (ends : Token.EndsType true first.trails more)
    (goesOn : (do
      if ← op? "," then
        let (rest, trailing) ← commaList ((Grammar.upTo depth).ty true)
        return ParenType.ty (.tuple (first :: rest) trailing)
      else return .ty (.paren first)).Runs more [] (.ty read)) :
    (insideParens (Grammar.upTo depth)).Runs (first.tokens ++ more) [] (.ty read) := by
  have starts := back.typeStart more
  exact .look starts.some_ (.look (back.no_lifetime bare more) (.look (starts.op "?" (by decide))
    (.bind (back.inner weighs ends) goesOn)))

/-- Parentheses around one type. -/
theorem parenType_paren {inner : Ty} {trails : Bool}
    (inside : (insideParens (Grammar.upTo depth)).Runs inner.tokens [] (.ty (.paren inner)))
    (ends : Token.EndsType plus trails rest) :
    (parenType (Grammar.upTo depth) plus).Runs (.group .paren inner.tokens :: rest) rest
      (.paren inner) := by
  refine .measured fun line => .bind (.group inside) ?_
  dsimp only
  cases bound : parenBound? inner with
  | none => exact .pure
  | some first =>
      cases plus with
      | false => exact .look_any fun _ => .pure
      | true => exact .look (ends.plus rfl) .pure

/-- Parentheses at the beginning of a type are read as such. -/
theorem parenType_starts {input : List Token} {inner : List Token} {read : Ty}
    (reads : (parenType (Grammar.upTo depth) plus).Runs (.group .paren inner :: input) rest read) :
    (Parser.ty (Grammar.upTo depth) plus).Runs (.group .paren inner :: input) rest read :=
  .get fun _ => .bind (.binder?_absent fun _ => rfl) (.look (fun _ => rfl) reads)

/-- A type in parentheses reads back if it does inside them. -/
theorem paren_readsBack {inner : Ty} (back : inner.ReadsBack true)
    (bare : Token.isLifetimeFirst inner.tokens = false) : (Ty.paren inner).ReadsBack plus where
  starts := rfl
  unnamed := rfl
  bare := fun _ => rfl
  closed := fun _ => rfl
  joined := rfl
  legible := .single back.legible
  runs := fun depth rest light ends => by
    have weighs : Token.weights inner.tokens ≤ depth := by
      simp only [Ty.tokens, Token.weights, Token.weight] at light
      omega
    refine parenType_starts (parenType_paren ?_ ends)
    rw [← List.append_nil inner.tokens]
    exact insideParens_runs back bare weighs .nil (.skip_op? (fun _ => rfl) .pure)

/-- The unit reads back. -/
theorem tuple_nil_readsBack : (Ty.tuple [] false).ReadsBack plus where
  starts := rfl
  unnamed := rfl
  bare := fun _ => rfl
  closed := fun _ => rfl
  joined := rfl
  legible := .single .nil
  runs := fun _ _ _ _ => parenType_starts
    (.measured fun _ => .bind (.group (a := .ty (.tuple [] false)) (.look (fun _ => rfl) .pure)) .pure)

/-- A tuple reads back if its elements do, and a single one has its comma. -/
theorem tuple_readsBack {first : Ty} {others : List Ty} {trailing : Bool}
    (each : ∀ t ∈ first :: others, t.ReadsBack true)
    (bare : Token.isLifetimeFirst first.tokens = false) (single : others = [] → trailing = true) :
    (Ty.tuple (first :: others) trailing).ReadsBack plus where
  starts := rfl
  unnamed := rfl
  bare := fun _ => rfl
  closed := fun _ => rfl
  joined := rfl
  legible := .single (legible_separated trailing each)
  runs := fun depth rest light _ => by
    have back := each first List.mem_cons_self
    have whole : Token.separated "," trailing (typesEach (first :: others)) =
        first.tokens ++ .op "," :: Token.separated "," trailing (typesEach others) := by
      cases others with
      | nil =>
          rw [single rfl]
          rfl
      | cons second others => rfl
    rw [Ty.tokens, whole] at light ⊢
    simp only [Token.weights_append, Token.weights, Token.weight] at light
    refine parenType_starts (.measured fun line => .bind (a := .ty (.tuple (first :: others) trailing))
      (.group ?_) .pure)
    refine insideParens_runs back bare (by omega) (.sign (by decide)) (.take_op? (by decide) ?_)
    refine .bind (commaList_runs (fun t listed => each t (List.mem_cons_of_mem _ listed)) single
      (by omega)) .pure

/-! ## Paths -/

end Ty

namespace Path

variable {p : Path} {rest : List Token}

/-- A path with which a type starts. -/
structure IsFront (p : Path) : Prop where
  back : p.ReadsBack
  starts : Token.startsType p.tokens = true

namespace IsFront

/-- The front of a path is where a path begins. -/
theorem pathStart (front : p.IsFront) (rest : List Token) : Token.PathStart (p.tokens ++ rest) :=
  (IsTrait.plain front.back).starts rest

/-- The front of a path is no function type. -/
theorem fnPointer (front : p.IsFront) (rest : List Token) :
    Shows startsFnPointer (p.tokens ++ rest) false := by
  intro line
  have starts := front.pathStart rest
  rw [startsFnPointer, List.any_cons, List.any_cons, List.any_cons, List.any_nil,
    starts.word "fn" (by decide) line, starts.word "unsafe" (by decide) line,
    starts.word "extern" (by decide) line]
  rfl

/-- The path starts with a double colon, or with a name or a keyword of paths. -/
theorem cases (front : p.IsFront) : (∃ more, p.tokens = .op "::" :: more) ∨
    ∃ name more, p.tokens = .word name :: more ∧ Token.isName name = true ∧
      (keywords.contains name = false ∨ name ∈ ["self", "Self", "super", "crate"]) ∧
      ∀ next ∈ more.head?, next = .op "::" ∨ next = .op "<" := by
  obtain ⟨leading, segments⟩ := p
  obtain ⟨⟨name, arguments⟩, others, whole⟩ := List.exists_cons_of_ne_nil front.back.some_
  obtain rfl : segments = .mk name arguments :: others := whole
  have starts := front.starts
  obtain ⟨named, behind⟩ := front.back.each (.mk name arguments) List.mem_cons_self
  rw [tokens_eq] at starts ⊢
  cases leading with
  | true => exact .inl ⟨_, rfl⟩
  | false =>
      refine .inr ⟨name, _, rfl, named.named, ?_, ?_⟩
      · simp only [if_neg Bool.false_ne_true, Segment.tokens, List.nil_append, List.cons_append,
          Token.startsType, Bool.and_eq_true, Bool.or_eq_true, Bool.not_eq_true'] at starts
        refine starts.2.imp id fun listed => ?_
        have other (text : String) (listed : text ∈ ["for", "const", "use", "dyn", "impl", "fn",
            "unsafe", "extern", "_"]) : name ≠ text := beq_eq_false_iff_ne.mp (named.ne listed)
        have told := List.contains_iff_mem.mp listed
        simp only [List.mem_cons, List.not_mem_nil, or_false] at told
        simpa [other] using told
      · cases arguments with
        | none =>
            cases others with
            | nil => rintro next ⟨⟩
            | cons second others =>
                rintro next ⟨rfl⟩
                exact .inl rfl
        | angle turbofish each trailing =>
            cases turbofish with
            | true =>
                rintro next ⟨rfl⟩
                exact .inl rfl
            | false =>
                rintro next ⟨rfl⟩
                exact .inr rfl
        | paren inputs trailing output => exact behind.elim

/-- The front of a path is where a type that is a path begins. -/
theorem names (front : p.IsFront) (rest : List Token) : Shows startsPath (p.tokens ++ rest) true := by
  obtain ⟨more, whole⟩ | ⟨name, more, whole, named, kind, -⟩ := front.cases
  · rw [whole]
    exact fun _ => rfl
  · rw [whole, List.cons_append]
    refine shows_word named fun line trees => ?_
    simp only [startsPath, startsName, startsPathKeyword, startsWord, Bool.or_eq_true]
    refine .inl (.inl (kind.imp (fun free => by rw [free]; rfl) fun listed => ?_))
    exact List.any_eq_true.mpr ⟨name, listed, beq_self_eq_true name⟩

/-- The front of a path is no built-in type. -/
theorem no_builtin (front : p.IsFront) (mark : Shows (startsOp "#") rest false) :
    Shows startsBuiltin (p.tokens ++ rest) false := by
  obtain ⟨more, whole⟩ | ⟨name, more, whole, named, -, after⟩ := front.cases
  · rw [whole]
    exact fun _ => rfl
  · intro line
    rw [whole, List.cons_append, Token.trees_name named, startsBuiltin, Bool.and_eq_false_iff]
    refine .inr ?_
    cases more with
    | nil => exact mark _
    | cons next more =>
        rcases after next rfl with rfl | rfl
        · exact startsOp_other (by decide) (by decide) (by decide) _
        · exact startsOp_other (by decide) (by decide) (by decide) _

/-- The front of a path is not the name of a parameter. -/
theorem unnamed (front : p.IsFront) {more : List Token}
    (after : ∀ next ∈ more.head?, ∀ text, next = .op text → text.toList.head? ≠ some ':') :
    Token.startsNamed (p.tokens ++ more) = false := by
  obtain ⟨behind, whole⟩ | ⟨name, behind, whole, -, -, next⟩ := front.cases
  · rw [whole]
    rfl
  · rw [whole]
    cases behind with
    | nil =>
        cases more with
        | nil => rfl
        | cons token more =>
            cases token with
            | op text => simp [Token.startsNamed, after _ rfl text rfl]
            | _ => rfl
    | cons token behind => rcases next token rfl with rfl | rfl <;> simp [Token.startsNamed]

/-- The front of a path is no lifetime. -/
theorem bare (front : p.IsFront) (more : List Token) :
    Token.isLifetimeFirst (p.tokens ++ more) = false := by
  obtain ⟨behind, whole⟩ | ⟨name, behind, whole, -⟩ := front.cases <;> rw [whole] <;> rfl

/-- A type that starts with a path is read from there. -/
theorem namedType_runs (front : p.IsFront) {plus : Bool} {depth : Nat} {before : Cursor}
    {binder : Option Binder} {middle : List Token} {read : Ty}
    (mark : Shows (startsOp "#") middle false)
    (goesOn : (pathType (Grammar.upTo depth) plus binder).Runs (p.tokens ++ middle) rest read) :
    (namedType (Grammar.upTo depth) plus before binder).Runs (p.tokens ++ middle) rest read :=
  .look (front.fnPointer middle) (.look (front.no_builtin mark) goesOn)

/-- **Types that begin with a path.** A type is read as what its path goes on with. -/
theorem ty_runs (front : p.IsFront) {plus : Bool} {depth : Nat} {middle : List Token} {read : Ty}
    (mark : Shows (startsOp "#") middle false)
    (goesOn : (pathType (Grammar.upTo depth) plus none).Runs (p.tokens ++ middle) rest read) :
    (ty (Grammar.upTo depth) plus).Runs (p.tokens ++ middle) rest read := by
  have starts := front.pathStart middle
  refine .get fun before => .bind (.binder?_absent (starts.word "for" (by decide)))
    (.look (starts.group .paren) (.look_true (fun line => ?_)
      (front.namedType_runs mark goesOn)))
  rw [front.names middle line, Bool.or_true]

/-- The path itself, as the grammar reads it at the front of a type. -/
theorem qualifiedPath_runs (front : p.IsFront) {depth : Nat} {exprStyle : Bool}
    (fits : exprStyle = true → ∀ s ∈ p.segments, s.arguments.fitsExpr = true)
    (light : Token.weights p.tokens ≤ depth + 1) (ends : Token.EndsPath exprStyle rest) :
    (qualifiedPath (Grammar.upTo depth) exprStyle).Runs (p.tokens ++ rest) rest (.path p) :=
  .skip_op? ((front.pathStart rest).op "<" (by decide)) (.bind (Path.runs front.back fits light ends) .pure)

end IsFront

end Path

namespace Ty

variable {plus : Bool}

/-- A path reads back as a type. -/
theorem path_readsBack {p : Path} (front : p.IsFront) : (Ty.path p).ReadsBack plus where
  starts := front.starts
  unnamed := by
    have here : Token.startsNamed (p.tokens ++ []) = false := front.unnamed nofun
    rwa [List.append_nil] at here
  bare := fun _ => by
    have here := front.bare []
    rwa [List.append_nil] at here
  closed := fun _ => rfl
  joined := rfl
  legible := front.back.legible
  runs := fun depth rest light ends => by
    refine front.ty_runs (ends.op "#" (by decide)) (.bind (front.qualifiedPath_runs nofun light
      ends.endsPath) (.look_false (fun line => ?_) ?_))
    · rw [startsOpNot, ends.op "!" (by decide) line, Bool.false_and]
    · rw [Bool.and_false]
      cases plus with
      | false => exact .look_any fun _ => .pure
      | true => exact .look (ends.plus rfl) .pure

/-- The call of a macro, with what is passed to it. -/
theorem macroCall_readsBack {p : Path} {delimiter : Delimiter} {inner : List Token} (front : p.IsFront)
    (plain : p.isPlain = true) (kept : Token.IsVerbatim inner) :
    (Ty.macroCall p (.group delimiter inner)).ReadsBack plus where
  starts := Token.startsType_append front.starts _
  unnamed := front.unnamed fun next first text same => by
    subst same
    cases first
    decide
  bare := fun _ => front.bare _
  closed := fun _ => rfl
  joined := rfl
  legible := by
    refine front.back.legible.append (.cons_op _ (by decide) (by decide) (.single kept.legible)) ?_
    rintro next ⟨rfl⟩
    decide
  runs := fun depth rest light ends => by
    rw [Ty.tokens, Token.weights_append] at light
    rw [Ty.tokens, List.append_assoc]
    have args : anyGroup.Runs (.group delimiter inner :: rest) rest (.group delimiter inner) := by
      intro line endLine leftOver
      refine ⟨line + Token.feedsAll inner, ?_⟩
      rw [Token.trees, Token.treesOnto]
      change Except.ok (Token.group delimiter (Tree.tokens (Token.trees line inner)), _) = _
      rw [kept.same line]
      rfl
    refine front.ty_runs (fun _ => rfl) (.bind (front.qualifiedPath_runs (by rintro ⟨⟩) (by omega)
      ⟨fun _ _ => rfl, fun _ => rfl⟩) (.look_true (fun _ => rfl) ?_))
    rw [plain]
    exact .take_op (by decide) (.bind args .pure)

/-! ## Paths that start at a type -/

/-- A qualified path prints its type in brackets, and then its segments. -/
theorem tokens_qualified (self : Ty) (interface : Option Path) (first : Segment) (others : List Segment)
    (rest : List Token) : (Ty.qualified self interface (first :: others)).tokens ++ rest =
      .op "<" :: (self.tokens ++ (interfaceTokens interface ++ .op ">" :: .op "::" ::
        (first.tokens ++ (others.flatMap (fun s => .op "::" :: s.tokens) ++ rest)))) := by
  rw [Ty.tokens, Path.separated_segments]
  simp

/-- The trait that a path goes through is read if there is one. -/
theorem interface_runs {interface : Option Path} {depth : Nat} {rest : List Token}
    (back : ∀ p ∈ interface, p.ReadsBack) (light : Token.weights (interfaceTokens interface) ≤ depth) :
    Runs (do
        if ← keyword? "as" then return some (← (Grammar.upTo depth).path false)
        else return none)
      (interfaceTokens interface ++ .op ">" :: rest) (.op ">" :: rest) interface := by
  cases interface with
  | none => exact .skip_keyword? (fun _ => rfl) .pure
  | some p =>
      simp only [interfaceTokens, Token.weights, Token.weight] at light
      exact .take_keyword? (by decide) (.bind (Path.runs_inner (back p rfl) (by omega)
        ⟨fun _ _ => rfl, fun _ => rfl⟩) .pure)

/-- A type and the trait that it is taken as can be told apart in the text. -/
theorem legible_interface {self : Ty} {interface : Option Path} {rest : List Token}
    (start : Token.Legible self.tokens) (back : ∀ p ∈ interface, p.ReadsBack)
    (behind : Token.Legible (.op ">" :: rest)) :
    Token.Legible (self.tokens ++ (interfaceTokens interface ++ .op ">" :: rest)) := by
  cases interface with
  | none => exact start.append behind (by rintro next ⟨rfl⟩; decide)
  | some p =>
      have path : Token.Legible (.word "as" :: p.tokens) := by
        refine .cons (.inl (by decide)) rfl (fun next first => ?_) (back p rfl).legible
        obtain ⟨token, rest, whole, kind⟩ := (Path.IsTrait.plain (back p rfl)).head
        rw [whole] at first
        cases first
        rcases kind with rfl | ⟨name, rfl⟩ <;> rfl
      exact start.append (path.append behind (by rintro next ⟨rfl⟩; decide))
        (by rintro next ⟨rfl⟩; rfl)

/-- Segments can be told apart in the text. -/
theorem legible_segments {segments : List Segment} (each : ∀ s ∈ segments, s.ReadsBack) :
    Token.Legible (Token.separated "::" false (segmentsEach segments)) := by
  rw [TypeNode.segmentsEach_eq_map]
  exact .separated (by decide) false (List.forall_mem_map.mpr fun s listed => Segment.legible (each s listed))

/-- Each name behind the type weighs less than the whole. -/
theorem weights_qualified {self : Ty} {interface : Option Path} {segments : List Segment} {s : Segment}
    (listed : s ∈ segments) :
    Token.weights s.tokens ≤ Token.weights (Ty.qualified self interface segments).tokens := by
  have part : Token.weights s.tokens ≤
      Token.weights (Token.separated "::" false (segmentsEach segments)) := by
    rw [TypeNode.segmentsEach_eq_map]
    exact Token.weights_le_separated (List.mem_map_of_mem listed)
  rw [Ty.tokens]
  simp only [Token.weights_append, Token.weights]
  omega

/-- A qualified path reads back if its type, its trait and its segments do. -/
theorem qualified_readsBack {self : Ty} {interface : Option Path} {first : Segment}
    {others : List Segment} (back : self.ReadsBack true)
    (through : ∀ p ∈ interface, p.ReadsBack ∧ self.trails = false)
    (each : ∀ s ∈ first :: others, s.ReadsBack) :
    (Ty.qualified self interface (first :: others)).ReadsBack plus := by
  have whole := tokens_qualified self interface first others
  have alone := whole []
  rw [List.append_nil, List.append_nil] at alone
  have traits : ∀ p ∈ interface, p.ReadsBack := fun p named => (through p named).1
  refine ⟨?_, rfl, fun _ => rfl, fun _ => rfl, rfl, ?_, fun depth rest light ends => ?_⟩
  · rw [alone]
    exact Token.startsType_append back.starts _
  · have names := legible_segments each
    rw [Path.separated_segments] at names
    rw [alone]
    exact .cons_op _ (by decide) (by decide) (legible_interface back.legible traits
      ((names.cons_op "::" (by decide) (by decide)).cons_op ">" (by decide) (by decide)))
  · have lighter (s : Segment) (listed : s ∈ first :: others) : Token.weights s.tokens ≤ depth + 1 :=
      (weights_qualified listed).trans light
    rw [alone] at light
    simp only [Token.weights_append, Token.weights, Token.weight] at light
    have ended : Token.EndsType true self.trails (interfaceTokens interface ++ .op ">" :: .op "::" ::
        (first.tokens ++ (others.flatMap (fun s => .op "::" :: s.tokens) ++ rest))) := by
      cases interface with
      | none => exact .sign (by decide)
      | some p =>
          rw [(through p rfl).2]
          exact .interface
    rw [whole]
    refine .get fun before => .bind (.binder?_absent fun _ => rfl) (.look (fun _ => rfl)
      (.look (fun _ => rfl) (.look (fun _ => rfl) (.look (fun _ => rfl) (.through
        (.qualified self interface (first :: others)) rest ?_ .pure)))))
    exact .take_op? (by decide) (.bind (back.inner (by omega) ended) (.bind
      (interface_runs traits (by omega)) (.take_op (by decide) (.take_op (by decide)
        (Path.names_runs each (by rintro ⟨⟩) lighter (fun _ _ => startsOp_self (by decide))
          (ends.op "::" (by decide)) ends.endsPath .pure)))))

end Ty

end VariantMerge
