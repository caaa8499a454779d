import VariantMerge.Proofs.Grammar.TypeRuns

/-!
# Function types that are read back

A function type has a list of parameters, with or without names, of which the last may stand for any
number of arguments. It is read back if the types in it are (`Ty.fnPointer_readsBack`).
-/

namespace VariantMerge

open VariantMerge.Parser

/-! ## What parameters start with -/

/-- A parameter ends here. -/
def Token.EndsParam (rest : List Token) : Prop :=
  rest = [] ∨ ∃ more, rest = .op "," :: more

namespace Ty.ReadsBack

variable {t : Ty} {rest : List Token}

/-- No colon comes after a word that a type starts with, unless it is a double one. -/
theorem behind_name {name : String} {more : List Token} (tokens : t.tokens = .word name :: more)
    (names : Token.namesParam name = true) (back : t.ReadsBack true) (ends : Token.EndsParam rest) :
    Shows (startsOp ":") (more ++ rest) false ∨ ∃ behind, more ++ rest = .op "::" :: behind := by
  have unnamed := back.unnamed
  have legible := back.legible
  rw [tokens] at unnamed legible
  cases more with
  | nil =>
      obtain rfl | ⟨more, rfl⟩ := ends
      · exact .inl fun _ => rfl
      · exact .inl fun _ => rfl
  | cons next more =>
      have here : next.IsLegible := legible.2.2.1
      rw [List.cons_append]
      cases next with
      | openOp text => exact here.elim
      | word text => exact .inl (startsOp_other_token (by decide) rfl)
      | lifetime text => exact .inl (startsOp_other_token (by decide) rfl)
      | group delimiter inner => exact .inl (startsOp_other_token (by decide) rfl)
      | op text =>
          by_cases double : text = "::"
          · exact .inr ⟨_, by rw [double]⟩
          · have other : text.toList.head? ≠ some ':' := by
              simpa [Token.startsNamed, names, double] using unnamed
            exact .inl (startsOp_other (Token.isOperator_punct here).1 (Ne.symm other)
              (by decide))

/-- The front of a parameter without a name: no word that could be its name, or one with no colon after
it. -/
theorem unnamed_cases (back : t.ReadsBack true) (ends : Token.EndsParam rest) :
    ((∀ name, Token.namesParam name = true → Shows (startsWord name) (t.tokens ++ rest) false) ∧
        Shows startsName (t.tokens ++ rest) false) ∨
      ∃ name more, t.tokens ++ rest = .word name :: more ∧ Token.isName name = true ∧
        (Shows (startsOp ":") more false ∨ ∃ behind, more = .op "::" :: behind) := by
  have starts := back.starts
  cases tokens : t.tokens with
  | nil =>
      rw [tokens] at starts
      cases starts
  | cons token more =>
      rw [tokens] at starts
      rw [List.cons_append]
      cases token with
      | lifetime name => exact .inl ⟨fun _ _ _ => rfl, fun _ => rfl⟩
      | openOp text => cases starts
      | group delimiter inner => exact .inl ⟨fun _ _ _ => rfl, fun _ => rfl⟩
      | op text =>
          have listed := Token.startsType_op starts
          simp only [List.mem_cons, List.not_mem_nil, or_false] at listed
          rcases listed with rfl | rfl | rfl | rfl | rfl <;> exact .inl ⟨fun _ _ _ => rfl, fun _ => rfl⟩
      | word name =>
          have named : Token.isName name = true := (Bool.and_eq_true_iff.mp starts).1
          cases kind : Token.namesParam name with
          | false =>
              refine .inl ⟨fun other names => shows_word named fun _ _ => ?_, shows_word named fun _ _ => ?_⟩
              · refine beq_eq_false_iff_ne.mpr ?_
                rintro rfl
                rw [kind] at names
                cases names
              · simp only [Token.namesParam, Bool.or_eq_false_iff] at kind
                exact kind.1.1
          | true => exact .inr ⟨name, _, rfl, named, back.behind_name tokens kind ends⟩

/-- A type is no parameter for any number of arguments. -/
theorem no_variadic (back : t.ReadsBack true) (ends : Token.EndsParam rest) :
    Shows startsVariadic (t.tokens ++ rest) false := by
  intro line
  rw [startsVariadic, (back.typeStart rest).op "..." (by decide) line, Bool.false_or]
  obtain ⟨words, names⟩ | ⟨name, more, whole, named, after⟩ := back.unnamed_cases ends
  · rw [names line, words "_" (by decide) line]
    rfl
  · rw [whole, Token.trees_name named, Bool.and_assoc, Bool.and_eq_false_iff]
    refine .inr ?_
    obtain other | ⟨behind, rfl⟩ := after
    · exact Bool.and_eq_false_iff.mpr (.inl (other _))
    · rfl

/-- A type does not start with the name of a parameter. -/
theorem no_name (back : t.ReadsBack true) (ends : Token.EndsParam rest) (first : Bool) :
    Shows (fun trees => (startsName trees || startsWord "_" trees ||
      (first && startsWord "self" trees)) && startsOpNot ":" ["::"] (trees.drop 1))
        (t.tokens ++ rest) false := by
  intro line
  obtain ⟨words, names⟩ | ⟨name, more, whole, named, after⟩ := back.unnamed_cases ends
  · dsimp only
    rw [names line, words "_" (by decide) line, words "self" (by decide) line, Bool.and_false]
    rfl
  · rw [whole, Token.trees_name named, Bool.and_eq_false_iff]
    refine .inr ?_
    obtain other | ⟨behind, rfl⟩ := after
    · rw [List.drop_one, List.tail_cons, startsOpNot, other, Bool.false_and]
    · rfl

/-- A type is no receiver that can be changed. -/
theorem no_changeable (back : t.ReadsBack true) (first : Bool) (rest : List Token) :
    Shows (fun trees => first && startsWord "mut" trees && startsWord "self" (trees.drop 1))
      (t.tokens ++ rest) false := by
  intro line
  dsimp only
  rw [(back.typeStart rest).word "mut" (by decide) line, Bool.and_false, Bool.false_and]

end Ty.ReadsBack

/-! ## Parameters -/

namespace FnParam

/-- A parameter that is read back. Only the first one can be called `self`. -/
def ReadsBack (first : Bool) : FnParam → Prop
  | .mk attributes name ty => attributes = [] ∧ ty.ReadsBack true ∧ ∀ n ∈ name,
    Token.isName n = true ∧ (!keywords.contains n || n == "_" || (first && n == "self")) = true

variable {param : FnParam} {first : Bool} {depth : Nat} {rest : List Token}

/-- The name of a parameter is a word. -/
theorem ReadsBack.named {n : String} {t : Ty} {attributes : List Token}
    (back : (FnParam.mk attributes (some n) t).ReadsBack first) : Token.isName n = true ∧ n ≠ "mut" := by
  obtain ⟨-, -, names⟩ := back
  obtain ⟨named, kind⟩ := names n rfl
  refine ⟨named, ?_⟩
  rintro rfl
  cases first <;> exact absurd kind (by decide)

/-- A parameter can be told apart in the text. -/
theorem ReadsBack.legible (back : param.ReadsBack first) : Token.Legible param.tokens := by
  obtain ⟨attributes, name, t⟩ := param
  cases name with
  | none =>
      obtain ⟨rfl, back, -⟩ := back
      exact back.legible
  | some n =>
      have named := back.named.1
      obtain ⟨rfl, back, -⟩ := back
      refine .cons (.inl named) rfl (fun next head => ?_)
        (back.legible.cons_op ":" (by decide) (by decide))
      cases head
      decide

/-- A parameter is not taken for the end of the list, for an attribute, or for dots. -/
theorem ReadsBack.front (back : param.ReadsBack first) (ends : Token.EndsParam rest) :
    Shows List.isEmpty (param.tokens ++ rest) false ∧ Shows (startsOp "#") (param.tokens ++ rest) false ∧
      Shows startsVariadic (param.tokens ++ rest) false := by
  obtain ⟨attributes, name, t⟩ := param
  cases name with
  | none =>
      obtain ⟨rfl, back, -⟩ := back
      have starts := back.typeStart rest
      exact ⟨starts.some_, starts.op "#" (by decide), back.no_variadic ends⟩
  | some n =>
      have named := back.named.1
      obtain ⟨rfl, back, -⟩ := back
      have starts := back.typeStart rest
      refine ⟨shows_word named fun _ _ => rfl, startsOp_other_token (by decide) rfl, fun line => ?_⟩
      change startsVariadic (Token.trees line (.word n :: .op ":" :: (t.tokens ++ rest))) = false
      have dots : Shows (startsOp "...") (.word n :: .op ":" :: (t.tokens ++ rest)) false :=
        startsOp_other_token (by decide) rfl
      rw [startsVariadic, dots line, Token.trees_name named, Bool.false_or, Bool.and_eq_false_iff]
      exact .inr (starts.op "..." (by decide) _)

/-- **Parameters are read back.** -/
theorem ReadsBack.runs (back : param.ReadsBack first) (light : Token.weights param.tokens ≤ depth)
    (ends : Token.EndsParam rest) :
    (fnParam (Grammar.upTo depth) [] first).Runs (param.tokens ++ rest) rest param := by
  obtain ⟨attributes, name, t⟩ := param
  have after : Token.EndsType true t.trails rest := by
    obtain rfl | ⟨more, rfl⟩ := ends
    · exact .nil
    · exact .sign (by decide)
  cases name with
  | none =>
      obtain ⟨rfl, back, -⟩ := back
      exact .get fun before => .look (back.no_changeable first rest) (.look (back.no_name ends first)
        (.bind (back.inner light after) .pure))
  | some n =>
      obtain ⟨named, other⟩ := back.named
      obtain ⟨rfl, back, names⟩ := back
      have colon {tokens : List Token} : Shows (startsOpNot ":" ["::"]) (.op ":" :: tokens) true := by
        have spaced : Token.isSpaced ":" = true := by decide
        intro line
        rw [Token.trees_op, spaced]
        rfl
      have weighs : Token.weights t.tokens ≤ depth := by
        simp only [FnParam.tokens, List.nil_append, Token.weights, Token.weight] at light
        omega
      change Runs _ (.word n :: .op ":" :: (t.tokens ++ rest)) rest _
      refine .get fun before => .look_false (fun line => ?_) (.look_true
        (fun line => ?_) (.bind (.anyWord named) (.take_op (by decide) (.look_false
          (fun line => ?_) (.bind (back.inner weighs after) .pure)))))
      · rw [Token.trees_name named, startsWord, beq_eq_false_iff_ne.mpr other, Bool.and_false,
          Bool.false_and]
      · rw [Token.trees_name named]
        exact Bool.and_eq_true_iff.mpr ⟨(names n rfl).2, colon _⟩
      · rw [(back.typeStart rest).word "mut" (by decide) line, Bool.and_false, Bool.false_and]

end FnParam

/-! ## Lists of parameters -/

/-- The dots for any number of arguments, with or without a name before and a comma after them. -/
def Token.dots (name : Option String) (comma : Bool) : List Token :=
  (match name with
    | none => [.op "..."]
    | some n => [.word n, .op ":", .op "..."]) ++ if comma then [.op ","] else []

/-- What stands after the parameters and their comma: nothing, or dots. -/
def Token.IsVariadic (last : List Token) : Prop :=
  last = [] ∨ ∃ name comma, last = dots name comma ∧
    ∀ n ∈ name, Token.isName n = true ∧ (!keywords.contains n || n == "_") = true

/-- Dots with a name can be told apart in the text. -/
theorem Token.legible_dots {name : Option String} (comma : Bool)
    (names : ∀ n ∈ name, Token.isName n = true ∧ (!keywords.contains n || n == "_") = true) :
    Token.Legible (dots name comma) := by
  have ends : Token.Legible (.op "..." :: if comma then [.op ","] else []) := by
    cases comma with
    | false => exact .cons_op _ (by decide) (by decide) .nil
    | true => exact .cons_op _ (by decide) (by decide) (.cons_op _ (by decide) (by decide) .nil)
  cases name with
  | none => exact ends
  | some n =>
      refine .cons (.inl (names n rfl).1) rfl (fun next head => ?_)
        (ends.cons_op ":" (by decide) (by decide))
      cases head
      decide

namespace FnParam

/-- Parameters that are read back, of which the first one here may be called `self` or not. -/
def AllReadBack (first : Bool) : List FnParam → Prop
  | [] => True
  | param :: rest => param.ReadsBack first ∧ AllReadBack false rest

variable {params : List FnParam} {first trailing : Bool} {last : List Token} {depth : Nat}

/-- All parameters can be told apart in the text. -/
theorem AllReadBack.legible (each : AllReadBack first params) :
    ∀ param ∈ params, Token.Legible param.tokens := by
  induction params generalizing first with
  | nil => nofun
  | cons param params ih => exact List.forall_mem_cons.mpr ⟨each.1.legible, ih each.2⟩

/-- The dots end the list. -/
theorem dots_runs {name : Option String} {comma : Bool}
    (names : ∀ n ∈ name, Token.isName n = true ∧ (!keywords.contains n || n == "_") = true)
    (count : Nat) : (fnParamsFrom (Grammar.upTo depth) first (count + 1)).Runs (Token.dots name comma)
      [] ([], true, Token.dots name comma) := by
  have ending : (op? ",").Runs (if comma then [.op ","] else []) [] comma := by
    cases comma with
    | false => exact .op?_absent fun _ => rfl
    | true => exact .op?_taken (by decide)
  have last {front : List Token} (same : Token.dots name comma =
      front ++ if comma then [.op ","] else []) : (do
        let comma ← op? ","
        return (([] : List FnParam), true, [] ++ front ++ if comma then [Token.op ","] else [])).Runs
          (if comma then [Token.op ","] else []) [] ([], true, Token.dots name comma) := by
    rw [same]
    exact .bind ending .pure
  cases name with
  | none =>
      refine .look (fun _ => rfl) (.bind (.attributes_absent fun _ => rfl) (.look_true
        (fun _ => rfl) (.bind (a := [.op "..."]) (.take_op? (by decide) .pure) (last rfl))))
  | some n =>
      obtain ⟨named, kind⟩ := names n rfl
      have dots (line : Nat) : startsVariadic (Token.trees line (Token.dots (some n) comma)) = true := by
        change startsVariadic (Token.trees line (.word n :: .op ":" :: .op "..." :: _)) = true
        rw [Token.trees_name named, startsVariadic, Bool.or_eq_true]
        exact .inr (Bool.and_eq_true_iff.mpr ⟨Bool.and_eq_true_iff.mpr ⟨kind, rfl⟩, rfl⟩)
      refine .look (shows_word named fun _ _ => rfl) (.bind (.attributes_absent (startsOp_other_token
        (by decide) rfl)) (.look dots (.bind (a := [.word n, .op ":", .op "..."]) ?_ (last rfl))))
      exact .skip_op? (startsOp_other_token (by decide) rfl) (.bind (.anyWord named) (.take_op (by decide)
        (.take_op (by decide) .pure)))

/-- What is behind a parameter decides what is read with it. -/
theorem fnParamsFrom_step {param : FnParam} {rest : List Token}
    {read : List FnParam × Bool × List Token} (back : param.ReadsBack first)
    (ends : Token.EndsParam rest) (light : Token.weights param.tokens ≤ depth) {count : Nat}
    (goesOn : (do
      if ← atEnd then return ([param], false, [])
      op ","
      let (rest, trailing, last) ← fnParamsFrom (Grammar.upTo depth) false count
      return (param :: rest, trailing, last)).Runs rest [] read) :
    (fnParamsFrom (Grammar.upTo depth) first (count + 1)).Runs (param.tokens ++ rest) [] read := by
  obtain ⟨some_, mark, noDots⟩ := back.front ends
  exact .look some_ (.bind (.attributes_absent mark) (.look noDots
    (.bind (back.runs light ends) goesOn)))

/-- **Parameters are read back one by one**, in as many rounds as there are and one more to see their
end after a comma. -/
theorem fnParamsFrom_runs (each : AllReadBack first params) (variadic : Token.IsVariadic last)
    (empty : params = [] → trailing = true) (after : trailing = false → last = [])
    (light : Token.weights (Token.separated "," trailing (paramsEach params)) ≤ depth) (count : Nat)
    (enough : params.length + trailing.toNat ≤ count) :
    (fnParamsFrom (Grammar.upTo depth) first count).Runs
      (Token.separated "," trailing (paramsEach params) ++ last) [] (params, trailing, last) := by
  induction params generalizing first count with
  | nil =>
      obtain rfl := empty rfl
      obtain ⟨count, rfl⟩ := Nat.exists_eq_succ_of_ne_zero (Nat.pos_iff_ne_zero.mp enough)
      rw [paramsEach, Token.separated, List.nil_append]
      obtain rfl | ⟨name, comma, rfl, names⟩ := variadic
      · exact .look (fun _ => rfl) .pure
      · exact dots_runs names count
  | cons param others ih =>
      obtain ⟨count, rfl⟩ := Nat.exists_eq_succ_of_ne_zero (n := count)
        (by simp only [List.length_cons] at enough; omega)
      by_cases comma : trailing = true ∨ others ≠ []
      · have whole : Token.separated "," trailing (paramsEach (param :: others)) =
            param.tokens ++ .op "," :: Token.separated "," trailing (paramsEach others) := by
          cases others with
          | cons second others => rfl
          | nil =>
              rw [comma.resolve_right (fun some_ => some_ rfl)]
              rfl
        rw [whole] at light ⊢
        simp only [Token.weights_append, Token.weights, Token.weight] at light
        rw [List.append_assoc, List.cons_append]
        refine fnParamsFrom_step each.1 (.inr ⟨_, rfl⟩) (by omega) (.look (fun _ => rfl) (.take_op (by decide)
          (.bind (ih each.2 (fun nothing => comma.resolve_right fun some_ => some_ nothing) (by omega)
            count ?_) .pure)))
        simp only [List.length_cons] at enough
        omega
      · obtain ⟨closed, rfl⟩ := not_or.mp comma |>.imp Bool.eq_false_iff.mpr not_not.mp
        obtain rfl := after closed
        subst closed
        exact fnParamsFrom_step each.1 (.inl rfl) light (.look (fun _ => rfl) .pure)

end FnParam

/-! ## Function types -/

/-- A calling convention that is read back: its name is a string literal. -/
def Abi.ReadsBack (abi : Abi) : Prop :=
  ∀ text ∈ abi.name, Lexer.IsLiteral text.toList ∧ Token.isName text = false ∧
    (text.toList.head? == some '"' || text.toList.head? == some 'r') = true

/-- A string that may be missing is read if it is there. -/
theorem Parser.Runs.stringLiteral?_taken {text : String} {rest : List Token}
    (unnamed : Token.isName text = false)
    (quoted : (text.toList.head? == some '"' || text.toList.head? == some 'r') = true) :
    stringLiteral?.Runs (.word text :: rest) rest (some text) := by
  intro line endLine leftOver
  refine ⟨line + text.toList.count '\n', bind_eq_ok_iff.mpr ⟨_, _, rfl, ?_⟩⟩
  rw [Token.trees_literal unnamed]
  dsimp only
  rw [if_pos quoted]
  rfl

/-- Nothing is read where a word stands. -/
theorem Parser.Runs.stringLiteral?_absent {text : String} {rest : List Token}
    (named : Token.isName text = true) :
    stringLiteral?.Runs (.word text :: rest) (.word text :: rest) none := by
  refine .measured fun line => ?_
  rw [Token.trees_name named]
  exact .pure

/-- A calling convention is read back before the keyword. -/
theorem Abi.runs {abi : Option Abi} (back : ∀ a ∈ abi, a.ReadsBack) {rest : List Token} :
    abi?.Runs (Abi.tokens? abi ++ .word "fn" :: rest) (.word "fn" :: rest) abi := by
  match abi with
  | none => exact .skip_keyword? (shows_word (by decide) fun _ _ => rfl) .pure
  | some ⟨none⟩ =>
      exact .take_keyword? (by decide) (.bind (.stringLiteral?_absent (by decide)) .pure)
  | some ⟨some text⟩ =>
      obtain ⟨-, unnamed, quoted⟩ := back _ rfl text rfl
      exact .take_keyword? (by decide) (.bind (.stringLiteral?_taken unnamed quoted) .pure)

/-- It can be told apart in the text. -/
theorem Abi.legible {abi : Option Abi} (back : ∀ a ∈ abi, a.ReadsBack) {rest : List Token}
    (legible : Token.Legible (.word "fn" :: rest)) :
    Token.Legible (Abi.tokens? abi ++ .word "fn" :: rest) := by
  match abi with
  | none => exact legible
  | some ⟨none⟩ => exact .cons (.inl (by decide)) rfl (by rintro next ⟨rfl⟩; rfl) legible
  | some ⟨some text⟩ =>
      obtain ⟨isLiteral, -, -⟩ := back _ rfl text rfl
      exact .cons (.inl (by decide)) rfl (by rintro next ⟨rfl⟩; rfl)
        (.cons (.inr isLiteral) rfl (by rintro next ⟨rfl⟩; rfl) legible)

/-- A list of parameters can be written, with the dots after it. -/
theorem FnParam.AllReadBack.legible_separated {params : List FnParam} {trailing : Bool}
    {last : List Token} (each : AllReadBack true params) (variadic : Token.IsVariadic last)
    (after : trailing = false → last = []) :
    Token.Legible (Token.separated "," trailing (paramsEach params) ++ last) := by
  have parts : ∀ part ∈ paramsEach params, Token.Legible part := by
    rw [TypeNode.paramsEach_eq_map]
    exact List.forall_mem_map.mpr each.legible
  cases trailing with
  | false =>
      rw [after rfl, List.append_nil]
      exact .separated (by decide) false parts
  | true =>
      refine .separated_append parts ?_
      obtain rfl | ⟨name, comma, rfl, names⟩ := variadic
      · exact .nil
      · exact Token.legible_dots comma names

/-- **The parameters of a function type are read back**: there are rounds enough for all of them. -/
theorem FnParam.AllReadBack.runs {params : List FnParam} {trailing : Bool} {last : List Token}
    {depth : Nat} (each : AllReadBack true params) (variadic : Token.IsVariadic last)
    (empty : params = [] → trailing = true) (after : trailing = false → last = [])
    (light : Token.weights (Token.separated "," trailing (paramsEach params)) ≤ depth) :
    (fnParams (Grammar.upTo depth)).Runs (Token.separated "," trailing (paramsEach params) ++ last) []
      (params, trailing, last) := by
  refine .measured fun line => FnParam.fnParamsFrom_runs each variadic empty after light _ ?_
  have long := Runs.length_separated (show ",".toList ≠ [] by decide) FnParam.tokens params
    trailing last line
  rw [← TypeNode.paramsEach_eq_map] at long
  cases trailing with
  | false => exact long.1
  | true => exact Nat.succ_le_succ (long.2 rfl)

namespace Ty

variable {plus : Bool} {binder : Option Binder} {isUnsafe : Bool} {abi : Option Abi}
  {params : List FnParam} {trailing : Bool} {last : List Token} {output : Option Ty} {depth : Nat}
  {rest : List Token}

/-- What a function type consists of behind its keyword, in front of other tokens. -/
def signatureTokens (params : List FnParam) (trailing : Bool) (last : List Token) (output : Option Ty)
    (rest : List Token) : List Token :=
  .group .paren (Token.separated "," trailing (paramsEach params) ++ last) :: (outputTokens output ++ rest)

/-- A function type prints its binder, its words and its signature. -/
theorem tokens_fnPointer (rest : List Token) :
    (Ty.fnPointer binder isUnsafe abi params trailing last output).tokens ++ rest =
      Binder.tokens? binder ++ (Token.keywordIf isUnsafe "unsafe" ++ (Abi.tokens? abi ++ .word "fn" ::
        signatureTokens params trailing last output rest)) := by
  rw [Ty.tokens]
  simp [signatureTokens]

/-- The words that a function type starts with, after what it quantifies over. -/
def signatureWords : List String :=
  ["fn", "unsafe", "extern"]

/-- The words before a signature are words that begin a type. -/
theorem signatureWords_spec : ∀ word ∈ signatureWords, Token.isName word = true ∧
    Token.namesParam word = false ∧ Token.startsType [.word word] = true := by
  decide

/-- After what it quantifies over, a function type starts with one of three keywords. -/
theorem fnPointer_head (isUnsafe : Bool) (abi : Option Abi) (rest : List Token) :
    ∃ word more, word ∈ signatureWords ∧
      Token.keywordIf isUnsafe "unsafe" ++ (Abi.tokens? abi ++ .word "fn" :: rest) =
        .word word :: more := by
  cases isUnsafe with
  | true => exact ⟨"unsafe", _, by decide, rfl⟩
  | false =>
      match abi with
      | none => exact ⟨"fn", _, by decide, rfl⟩
      | some ⟨none⟩ => exact ⟨"extern", _, by decide, rfl⟩
      | some ⟨some text⟩ => exact ⟨"extern", _, by decide, rfl⟩

/-- The mark for unsafe functions is read if it is there. -/
theorem unsafe_runs (isUnsafe : Bool) (abi : Option Abi) (rest : List Token) :
    (keyword? "unsafe").Runs (Token.keywordIf isUnsafe "unsafe" ++ (Abi.tokens? abi ++ .word "fn" :: rest))
      (Abi.tokens? abi ++ .word "fn" :: rest) isUnsafe := by
  cases isUnsafe with
  | true => exact .keyword?_taken (by decide)
  | false =>
      refine .keyword?_absent ?_
      match abi with
      | none => exact shows_word (by decide) fun _ _ => rfl
      | some ⟨none⟩ => exact shows_word (by decide) fun _ _ => rfl
      | some ⟨some text⟩ => exact shows_word (by decide) fun _ _ => rfl

/-- The words before a signature can be told apart in the text. -/
theorem legible_unsafe (convention : ∀ a ∈ abi, a.ReadsBack)
    (legible : Token.Legible (.word "fn" :: rest)) :
    Token.Legible (Token.keywordIf isUnsafe "unsafe" ++ (Abi.tokens? abi ++ .word "fn" :: rest)) := by
  have behind := Abi.legible convention legible
  cases isUnsafe with
  | false => exact behind
  | true =>
      refine .cons (.inl (by decide)) rfl (fun next first => ?_) behind
      match abi, first with
      | none, rfl => rfl
      | some ⟨none⟩, rfl => rfl
      | some ⟨some text⟩, rfl => rfl

/-- A signature can be told apart in the text. -/
theorem legible_signature (each : FnParam.AllReadBack true params) (variadic : Token.IsVariadic last)
    (after : trailing = false → last = []) (returned : ∀ t ∈ output, t.ReadsBack false) :
    Token.Legible (.word "fn" :: signatureTokens params trailing last output []) := by
  rw [signatureTokens, List.append_nil]
  refine .cons (.inl (by decide)) rfl (by rintro next ⟨rfl⟩; rfl)
    ⟨each.legible_separated variadic after, fun next first => ?_, Ty.legible_output returned⟩
  cases output with
  | none => cases first
  | some t => cases first; rfl

/-- A function type can be told apart in the text. -/
theorem legible_fnPointer (quantifies : ∀ b ∈ binder, b.ReadsBack) (convention : ∀ a ∈ abi, a.ReadsBack)
    (each : FnParam.AllReadBack true params) (variadic : Token.IsVariadic last)
    (after : trailing = false → last = []) (returned : ∀ t ∈ output, t.ReadsBack false) :
    Token.Legible (Ty.fnPointer binder isUnsafe abi params trailing last output).tokens := by
  rw [← List.append_nil (Ty.tokens _), tokens_fnPointer]
  have behind : Token.Legible (Token.keywordIf isUnsafe "unsafe" ++ (Abi.tokens? abi ++ .word "fn" ::
      signatureTokens params trailing last output [])) :=
    legible_unsafe convention (legible_signature each variadic after returned)
  cases binder with
  | none => exact behind
  | some b =>
      obtain ⟨word, more, -, head⟩ := fnPointer_head isUnsafe abi
        (signatureTokens params trailing last output [])
      refine (quantifies b rfl).legible.append behind fun next first => ?_
      rw [head] at first
      cases first
      rfl

/-- A function type is read from behind what it quantifies over. -/
theorem signature_runs (convention : ∀ a ∈ abi, a.ReadsBack) (each : FnParam.AllReadBack true params)
    (variadic : Token.IsVariadic last) (empty : params = [] → trailing = true)
    (after : trailing = false → last = []) (returned : ∀ t ∈ output, t.ReadsBack false)
    (light : Token.weights (signatureTokens params trailing last output []) ≤ depth)
    (ends : Token.EndsType false false rest) :
    (Parser.fnPointer (Grammar.upTo depth) binder).Runs (Token.keywordIf isUnsafe "unsafe" ++
        (Abi.tokens? abi ++ .word "fn" :: signatureTokens params trailing last output rest)) rest
      (.fnPointer binder isUnsafe abi params trailing last output) := by
  simp only [signatureTokens, Token.weights_append, Token.weights, Token.weight] at light
  exact .bind (unsafe_runs isUnsafe abi _) (.bind (Abi.runs convention) (.take_keyword (by decide)
    (.bind (a := (params, trailing, last)) (.group (each.runs variadic empty after (by omega)))
      (.bind (Ty.output?_runs returned (by omega) ends) .pure))))

/-- Each of these words begins a function type. -/
theorem startsFnPointer_word {word : String} (listed : word ∈ signatureWords) :
    Shows startsFnPointer (.word word :: rest) true :=
  shows_word (signatureWords_spec word listed).1 fun _ _ =>
    List.any_eq_true.mpr ⟨word, listed, beq_self_eq_true word⟩

/-- **Function types are read back.** -/
theorem fnPointer_readsBack (quantifies : ∀ b ∈ binder, b.ReadsBack) (convention : ∀ a ∈ abi, a.ReadsBack)
    (each : FnParam.AllReadBack true params) (variadic : Token.IsVariadic last)
    (empty : params = [] → trailing = true) (after : trailing = false → last = [])
    (returned : ∀ t ∈ output, t.ReadsBack false) :
    (Ty.fnPointer binder isUnsafe abi params trailing last output).ReadsBack plus := by
  have whole := @tokens_fnPointer binder isUnsafe abi params trailing last output
  have alone := whole []
  rw [List.append_nil] at alone
  obtain ⟨word, more, listed, head⟩ := fnPointer_head isUnsafe abi
    (signatureTokens params trailing last output [])
  obtain ⟨-, unnamed, starts⟩ := signatureWords_spec word listed
  refine ⟨?_, ?_, fun _ => ?_, fun _ => rfl, rfl,
    legible_fnPointer quantifies convention each variadic after returned, fun depth rest light ends => ?_⟩
  · rw [alone, head]
    cases binder with
    | none => exact starts
    | some b => exact (by decide : Token.startsType [.word "for"] = true)
  · rw [alone, head]
    cases binder with
    | none => exact Token.startsNamed_keyword unnamed _
    | some b => exact Token.startsNamed_keyword (by decide) _
  · rw [alone, head]
    cases binder <;> rfl
  · rw [alone] at light
    simp only [Token.weights_append, Token.weights, Token.weight] at light
    rw [whole]
    obtain ⟨word, more, listed, head⟩ := fnPointer_head isUnsafe abi
      (signatureTokens params trailing last output rest)
    have named := (signatureWords_spec word listed).1
    have behind : (Parser.fnPointer (Grammar.upTo depth) binder).Runs _ rest
        (.fnPointer binder isUnsafe abi params trailing last output) :=
      signature_runs convention each variadic empty after returned (by omega) ends.weaken
    rw [head] at behind ⊢
    cases binder with
    | none =>
        have noBinder : Shows (startsWord "for") (.word word :: more) false :=
          shows_word named fun _ _ => beq_eq_false_iff_ne.mpr
            (by rintro rfl; exact absurd listed (by decide))
        refine .get fun before => .bind (.binder?_absent noBinder) (.look
          (shows_word named fun _ _ => rfl) (.look_true (fun line => ?_)
            (.look (startsFnPointer_word listed) behind)))
        change (startsFnPointer (Token.trees line (.word word :: more)) || _) = true
        rw [startsFnPointer_word listed line, Bool.true_or]
    | some b =>
        have keyword : 1 < Token.weights b.tokens := by
          simp only [Binder.tokens, List.cons_append, Token.weights, Token.weight]
          omega
        rw [Binder.tokens?] at light ⊢
        obtain ⟨depth, rfl⟩ : ∃ before, depth = before + 1 := ⟨depth - 1, by omega⟩
        refine .get fun before => .bind (quantifies b rfl).runs (.look_true (fun line => ?_)
          (.look (startsFnPointer_word listed) behind))
        rw [startsFnPointer_word listed line, Bool.true_or, Bool.true_or]

end Ty

end VariantMerge
