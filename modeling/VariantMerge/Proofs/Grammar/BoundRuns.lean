import VariantMerge.Proofs.Grammar.PathRuns

/-!
# Bounds that are read back

A bound is read back in the places where it may stand (`Bound.ReadsBack`): a lifetime, a trait with what
it quantifies over and the types of a call, and the parameters that a type captures.
-/

namespace VariantMerge

open VariantMerge.Parser

/-! ## What quantifies over lifetimes -/

/-- An argument between angle brackets ends here. -/
def Token.EndsArgument (rest : List Token) : Prop :=
  ∃ text more, text ∈ [",", ">"] ∧ rest = .op text :: more

/-- An argument ends at a comma or at the closing bracket. -/
theorem Token.EndsArgument.cases {rest : List Token} (ends : EndsArgument rest) :
    (∃ more, rest = .op "," :: more) ∨ ∃ more, rest = .op ">" :: more := by
  obtain ⟨text, more, listed, rfl⟩ := ends
  simp only [List.mem_cons, List.not_mem_nil, or_false] at listed
  rcases listed with rfl | rfl
  · exact .inl ⟨more, rfl⟩
  · exact .inr ⟨more, rfl⟩

/-- A lifetime parameter without attributes. -/
structure LifetimeParam.IsPlain (param : LifetimeParam) : Prop where
  bare : param.attributes = []
  named : Literal.rawableWord param.name.toList = some []
  bounds : ∀ bound ∈ param.bounds, Literal.rawableWord bound.toList = some []

/-- A binder that quantifies over lifetimes only. -/
structure Binder.ReadsBack (binder : Binder) : Prop where
  each : ∀ tokens ∈ binder.params, ∃ param : LifetimeParam, param.IsPlain ∧ tokens = param.tokens
  empty : binder.params = [] → binder.trailing = true

/-- No attribute is read where none is. -/
theorem Parser.Runs.attributes_absent {g : Grammar} {input : List Token}
    (shows : Shows (startsOp "#") input false) : (attributes g).Runs input input [] :=
  .many_none shows

namespace LifetimeParam

variable {param : LifetimeParam} {rest : List Token} {depth : Nat}

/-- A lifetime that is bound prints with the lifetimes that it outlives. -/
theorem IsPlain.tokens_eq (plain : param.IsPlain) : param.tokens = .lifetime param.name ::
    if param.bounds.isEmpty then [] else
      .op ":" :: Token.separated "+" param.trailing (param.bounds.map fun b => [.lifetime b]) := by
  rw [LifetimeParam.tokens, plain.bare, List.nil_append]

/-- It can be told apart in the text. -/
theorem IsPlain.legible (plain : param.IsPlain) : Token.Legible param.tokens := by
  rw [plain.tokens_eq]
  split
  · exact .single plain.named
  · have bounds : Token.Legible
        (Token.separated "+" param.trailing (param.bounds.map fun b => [.lifetime b])) :=
      .separated (by decide) _ (List.forall_mem_map.mpr fun b listed =>
        .single (plain.bounds b listed))
    refine .cons plain.named rfl ?_ (bounds.cons_op _ (by decide) (by decide))
    rintro next ⟨rfl⟩
    decide

/-- Parameters are read back up to the next one. -/
theorem IsPlain.runs (plain : param.IsPlain) (ends : Token.EndsArgument rest) :
    (do return (← (Grammar.upTo (depth + 1)).param).tokens.2).Runs (param.tokens ++ rest) rest
      param.tokens := by
  have absent (text : String) (listed : text ∈ [":", "+"]) : Shows (startsOp text) rest false := by
    simp only [List.mem_cons, List.not_mem_nil, or_false] at listed
    obtain ⟨more, rfl⟩ | ⟨more, rfl⟩ := ends.cases <;> rcases listed with rfl | rfl <;> exact fun _ => rfl
  have stops : Shows (fun trees => startsOp "," trees || startsOp ">" trees) rest true := by
    obtain ⟨more, rfl⟩ | ⟨more, rfl⟩ := ends.cases <;> exact fun _ => rfl
  have first (more : List Token) (read : LifetimeParam)
      (next : (lifetimeParam []).Runs (.lifetime param.name :: more) rest read)
      (whole : param.tokens ++ rest = .lifetime param.name :: more)
      (same : read.tokens = param.tokens) :
      (do return (← (Grammar.upTo (depth + 1)).param).tokens.2).Runs (param.tokens ++ rest) rest
        param.tokens := by
    rw [whole]
    refine .bind (a := .lifetime read) ?_ (by rw [← same]; exact .pure)
    refine .bind (.attributes_absent (startsOp_other_token (by decide) rfl)) ?_
    exact .look_true (fun _ => rfl) (.bind next .pure)
  cases bounds : param.bounds with
  | nil =>
      refine first rest ⟨[], param.name, [], false⟩ ?_ ?_ ?_
      · exact .bind .lifetime (.skip_op? (absent ":" (by decide)) .pure)
      · simp [plain.tokens_eq, bounds]
      · simp [LifetimeParam.tokens, plain.bare, bounds]
  | cons bound others =>
      refine first (.op ":" ::
        (Token.separated "+" param.trailing (param.bounds.map fun b => [.lifetime b]) ++ rest))
        ⟨[], param.name, param.bounds, param.trailing⟩ ?_ ?_ ?_
      · refine .bind .lifetime (.take_op? (by decide)
          (.bind (a := (param.bounds, param.trailing)) ?_ .pure))
        rw [bounds]
        exact .sepWhile (by decide) (fun _ _ _ _ => .lifetime) (fun _ _ _ _ => rfl) stops
          (absent "+" (by decide)) fun nothing => absurd nothing (List.cons_ne_nil _ _)
      · simp [plain.tokens_eq, bounds]
      · simp [LifetimeParam.tokens, plain.bare]

end LifetimeParam

namespace Binder

variable {binder : Binder} {rest : List Token} {depth : Nat}

/-- A binder prints its parameters between brackets. -/
theorem tokens_eq : binder.tokens ++ rest = .word "for" :: .op "<" ::
    (Token.separated "," binder.trailing binder.params ++ .op ">" :: rest) := by
  simp [Binder.tokens]

/-- It can be told apart in the text. -/
theorem ReadsBack.legible (back : binder.ReadsBack) : Token.Legible binder.tokens := by
  have inside : Token.Legible
      (Token.separated "," binder.trailing binder.params ++ [.op ">"]) := by
    refine .append (.separated (by decide) _ fun tokens listed => ?_)
      (.cons_op _ (by decide) (by decide) .nil) (by rintro next ⟨rfl⟩; decide)
    obtain ⟨param, plain, rfl⟩ := back.each tokens listed
    exact plain.legible
  refine .cons (.inl (by decide)) rfl ?_ (inside.cons_op "<" (by decide) (by decide))
  rintro next ⟨rfl⟩
  decide

/-- **What quantifies over lifetimes is read back.** -/
theorem ReadsBack.runs (back : binder.ReadsBack) :
    (binder? (Grammar.upTo (depth + 1))).Runs (binder.tokens ++ rest) rest (some binder) := by
  have inside : (sepUntil (startsOp ">") "," do
      return (← (Grammar.upTo (depth + 1)).param).tokens.2).Runs
      (Token.separated "," binder.trailing (binder.params.map id) ++ .op ">" :: rest)
      (.op ">" :: rest) (binder.params, binder.trailing) := by
    refine .sepUntil (by decide) (fun tokens listed more after => ?_)
      (fun tokens listed more => ?_) (fun _ _ => rfl) (startsOp_self (by decide)) back.empty
    · obtain ⟨param, plain, rfl⟩ := back.each tokens listed
      refine plain.runs ?_
      rcases after with rfl | ⟨more, rfl⟩
      · exact ⟨">", rest, by decide, rfl⟩
      · exact ⟨",", more, by decide, rfl⟩
    · obtain ⟨param, plain, rfl⟩ := back.each tokens listed
      change Shows _ (param.tokens ++ more) false
      rw [plain.tokens_eq]
      exact startsOp_other_token (by decide) rfl
  rw [List.map_id] at inside
  rw [tokens_eq]
  exact .take_keyword? (by decide) (.take_op (by decide) (.bind inside (.take_op (by decide) .pure)))

end Binder

/-- No binder is read where none is. -/
theorem Parser.Runs.binder?_absent {g : Grammar} {input : List Token}
    (shows : Shows (startsWord "for") input false) : (binder? g).Runs input input none :=
  .skip_keyword? shows .pure

/-! ## Bounds -/

namespace Ty

variable {depth : Nat} {rest : List Token}

/-- What ends a type without bounds ends it also where it is part of another type. -/
theorem ReadsBack.ends {t : Ty} (back : t.ReadsBack false) (ends : Token.EndsType false false rest) :
    Token.EndsType false t.trails rest := by
  rwa [back.closed rfl]

/-- A result type after its arrow, if there is one. -/
theorem output?_runs {output : Option Ty} (returned : ∀ t ∈ output, t.ReadsBack false)
    (light : Token.weights (outputTokens output) ≤ depth) (ends : Token.EndsType false false rest) :
    (output? (Grammar.upTo depth) false).Runs (outputTokens output ++ rest) rest output := by
  cases output with
  | none => exact .skip_op? (ends.op "->" (by decide)) .pure
  | some t =>
      have back := returned t rfl
      simp only [outputTokens, Token.weights, Token.weight] at light
      exact .take_op? (by decide) (.bind (back.inner (by omega) (back.ends ends)) .pure)

/-- A result type can be told apart in the text. -/
theorem legible_output {output : Option Ty} (returned : ∀ t ∈ output, t.ReadsBack false) :
    Token.Legible (outputTokens output) := by
  cases output with
  | none => exact .nil
  | some t => exact (returned t rfl).legible.cons_op _ (by decide) (by decide)

/-- Types with commas between them, up to the end of their group. -/
theorem commaList_runs {types : List Ty} {trailing : Bool} (each : ∀ t ∈ types, t.ReadsBack true)
    (empty : types = [] → trailing = true)
    (light : Token.weights (Token.separated "," trailing (typesEach types)) ≤ depth) :
    (commaList ((Grammar.upTo depth).ty true)).Runs
      (Token.separated "," trailing (typesEach types)) [] (types, trailing) := by
  rw [TypeNode.typesEach_eq_map] at light ⊢
  rw [← List.append_nil (Token.separated _ _ _)]
  refine .sepUntil (by decide) (fun t listed more after => ?_)
    (fun t listed more => ((each t listed).typeStart more).some_) (fun _ _ => rfl) (fun _ => rfl) empty
  refine (each t listed).inner
    ((Token.weights_le_separated (List.mem_map_of_mem listed)).trans light) ?_
  rcases after with rfl | ⟨more, rfl⟩
  · exact .nil
  · exact .sign (by decide)

/-- Types with commas can be told apart in the text. -/
theorem legible_separated {types : List Ty} (trailing : Bool)
    (each : ∀ t ∈ types, t.ReadsBack true) :
    Token.Legible (Token.separated "," trailing (typesEach types)) := by
  rw [TypeNode.typesEach_eq_map]
  exact .separated (by decide) trailing (List.forall_mem_map.mpr fun t listed =>
    (each t listed).legible)

end Ty

/-- The arguments in parentheses of a bound on a function. -/
structure Arguments.Calls (inputs : List Ty) (trailing : Bool) (output : Option Ty) : Prop where
  each : ∀ t ∈ inputs, t.ReadsBack true
  empty : inputs = [] → trailing = true
  returned : ∀ t ∈ output, t.ReadsBack false

namespace Arguments.Calls

variable {inputs : List Ty} {trailing : Bool} {output : Option Ty} {depth : Nat} {rest : List Token}

/-- Arguments in parentheses can be told apart in the text. -/
theorem legible (calls : Arguments.Calls inputs trailing output) :
    Token.Legible (Arguments.paren inputs trailing output).tokens := by
  have arrow := Ty.legible_output calls.returned
  refine ⟨Ty.legible_separated trailing calls.each, fun next first => ?_, arrow⟩
  cases output with
  | none => cases first
  | some t => cases first; rfl

/-- **Arguments in parentheses.** They are read back with their result type, where a type may end.
-/
theorem runs (calls : Arguments.Calls inputs trailing output)
    (light : Token.weights (Arguments.paren inputs trailing output).tokens ≤ depth)
    (ends : Token.EndsType false false rest) :
    (parenArguments (Grammar.upTo depth)).Runs
      ((Arguments.paren inputs trailing output).tokens ++ rest) rest
      (.paren inputs trailing output) := by
  simp only [Arguments.tokens, Token.weights, Token.weight] at light
  exact .bind (.group (Ty.commaList_runs calls.each calls.empty (by omega)))
    (.bind (Ty.output?_runs calls.returned (by omega) ends) .pure)

end Arguments.Calls

/-- What the grammar sees where a path starts. -/
structure Token.PathStart (tokens : List Token) : Prop where
  word : ∀ text ∈ ["for", "const", "use", "dyn", "impl", "fn", "unsafe", "extern", "_"],
    Shows (startsWord text) tokens false
  op : ∀ text ∈ ["?", "#", "+", ",", ">", "=", "<", "*", "&", "!", "..."],
    Shows (startsOp text) tokens false
  group : ∀ delimiter, Shows (startsGroup delimiter) tokens false
  lifetime : Shows startsLifetime tokens false
  begins : Shows (fun trees => startsAnyWord trees || startsOp "::" trees) tokens true

/-- What names a segment is none of the words that begin other types. -/
theorem Segment.IsNamed.ne {name : String} {bare : Bool} (named : Segment.IsNamed name bare)
    {text : String} (listed : text ∈ ["for", "const", "use", "dyn", "impl", "fn", "unsafe", "extern",
      "_"]) : (name == text) = false := by
  have told : ["for", "const", "use", "dyn", "impl", "fn", "unsafe", "extern", "_"].all (fun text =>
      keywords.contains text && text != "Self" &&
        !(["super", "self", "crate", "try"].contains text)) = true := by decide
  refine beq_eq_false_iff_ne.mpr ?_
  rintro rfl
  have here := List.all_eq_true.mp told name listed
  simp only [Bool.and_eq_true, bne_iff_ne, Bool.not_eq_true'] at here
  rcases named.allowed with ⟨keyword, -⟩ | self | free
  · rw [here.2] at keyword
    cases keyword
  · exact here.1.2 self
  · rw [here.1.1] at free
    cases free

namespace Path

/-- A path starts with a double colon or with its first name. -/
theorem pathStart {leading : Bool} {name : String} {arguments : Arguments} {others : List Segment}
    {bare : Bool} (named : Segment.IsNamed name bare) (rest : List Token) :
    Token.PathStart ((Path.mk leading (.mk name arguments :: others)).tokens ++ rest) := by
  have real : ∀ text ∈ ["?", "#", "+", ",", ">", "=", "<", "*", "&", "!", "..."],
      text.toList ≠ [] ∧ text.toList.head? ≠ "::".toList.head? := by decide
  rw [tokens_eq, Segment.tokens]
  cases leading with
  | true =>
      exact ⟨fun _ _ _ => rfl, fun text listed => startsOp_other (by decide) (real text listed).2
        (real text listed).1, fun _ _ => rfl, fun _ => rfl, fun _ => rfl⟩
  | false =>
      refine ⟨fun text listed line => ?_, fun text listed => startsOp_other_token (real text listed).1
        rfl, fun delimiter line => ?_, fun line => ?_, fun line => ?_⟩
      all_goals
        rw [if_neg Bool.false_ne_true, List.nil_append, List.cons_append, List.cons_append,
          Token.trees_name named.named]
      · exact named.ne listed
      all_goals rfl

/-- A path that names a trait: one that is read back, or one with the arguments of a call at its
end. -/
inductive IsTrait : Path → Prop where
  | plain {p : Path} : p.ReadsBack → IsTrait p
  | call {leading : Bool} {front : List Segment} {name : String} {inputs : List Ty} {trailing : Bool}
    {output : Option Ty} : (Path.mk leading (front ++ [.mk name .none])).ReadsBack →
      Arguments.Calls inputs trailing output →
        IsTrait (.mk leading (front ++ [.mk name (.paren inputs trailing output)]))

/-- The arguments of a path are printed behind it. -/
theorem tokens_call (leading : Bool) (front : List Segment) (name : String) (a : Arguments) :
    (Path.mk leading (front ++ [.mk name a])).tokens =
      (Path.mk leading (front ++ [.mk name .none])).tokens ++ a.tokens := by
  have last (parts : List (List Token)) (first second : List Token) :
      Token.separated "::" false (parts ++ [first ++ second]) =
        Token.separated "::" false (parts ++ [first]) ++ second := by
    induction parts with
    | nil => rfl
    | cons part parts ih =>
        cases parts with
        | nil => simp [Token.separated]
        | cons next rest => simpa [Token.separated] using ih
  rw [Path.tokens, Path.tokens, TypeNode.segmentsEach_eq_map, TypeNode.segmentsEach_eq_map,
    List.map_append, List.map_append, List.append_assoc]
  exact congrArg _ (last _ [.word name] a.tokens)

/-- A path to a trait begins with colons or with a word. -/
theorem IsTrait.head {p : Path} (isTrait : p.IsTrait) :
    ∃ next rest, p.tokens = next :: rest ∧ (next = .op "::" ∨ ∃ name, next = .word name) := by
  have some_ : ∃ leading segments, p = .mk leading segments ∧ segments ≠ [] := by
    cases isTrait with
    | plain back =>
        obtain ⟨leading, segments⟩ := p
        exact ⟨leading, segments, rfl, back.some_⟩
    | call back calls => exact ⟨_, _, rfl, by simp⟩
  obtain ⟨leading, segments, rfl, some_⟩ := some_
  obtain ⟨⟨name, arguments⟩, others, rfl⟩ := List.exists_cons_of_ne_nil some_
  rw [tokens_eq, Segment.tokens]
  cases leading with
  | true => exact ⟨_, _, rfl, .inl rfl⟩
  | false => exact ⟨_, _, rfl, .inr ⟨name, rfl⟩⟩

/-- A path to a trait is where a path begins. -/
theorem IsTrait.starts {p : Path} (isTrait : p.IsTrait) (rest : List Token) :
    Token.PathStart (p.tokens ++ rest) := by
  cases isTrait with
  | plain back =>
      obtain ⟨leading, segments⟩ := p
      obtain ⟨first, others, whole⟩ := List.exists_cons_of_ne_nil back.some_
      obtain rfl : segments = first :: others := whole
      obtain ⟨name, arguments⟩ := first
      exact pathStart (back.each _ List.mem_cons_self).1 rest
  | @call leading front name inputs trailing output back calls =>
      cases front with
      | nil => exact pathStart (back.each (.mk name .none) (by simp [Path.segments])).1 rest
      | cons first front =>
          obtain ⟨word, arguments⟩ := first
          exact pathStart (back.each (.mk word arguments) (by simp [Path.segments])).1 rest

end Path

/-- A segment can be told apart in the text. -/
theorem Segment.legible {s : Segment} (back : s.ReadsBack) : Token.Legible s.tokens := by
  obtain ⟨name, arguments⟩ := s
  have word : Token.IsLegible (.word name) := .inl back.1.named
  cases arguments with
  | none => exact .single word
  | angle turbofish each trailing =>
      refine .cons word rfl ?_ back.2.1
      cases turbofish <;> rintro next ⟨rfl⟩ <;> decide
  | paren inputs trailing output => exact back.2.elim

namespace Path

/-- A path can be told apart in the text. -/
theorem ReadsBack.legible {p : Path} (back : p.ReadsBack) : Token.Legible p.tokens := by
  obtain ⟨leading, segments⟩ := p
  rw [Path.tokens, TypeNode.segmentsEach_eq_map]
  have names : Token.Legible (Token.separated "::" false (segments.map Segment.tokens)) :=
    .separated (by decide) false (List.forall_mem_map.mpr fun s listed =>
      Segment.legible (back.each s listed))
  cases leading with
  | false => exact names
  | true => exact names.cons_op _ (by decide) (by decide)

/-- A path to a trait can be told apart in the text. -/
theorem IsTrait.legible {p : Path} (isTrait : p.IsTrait) : Token.Legible p.tokens := by
  cases isTrait with
  | plain back => exact back.legible
  | call back calls =>
      rw [tokens_call]
      refine back.legible.append calls.legible ?_
      rintro next ⟨rfl⟩
      rfl

end Path

/-- The tokens of a bound by a trait, without parentheses. -/
def Bound.traitTokens (maybe : Bool) (binder : Option Binder) (p : Path) : List Token :=
  (if maybe then [.op "?"] else []) ++ Binder.tokens? binder ++ p.tokens

/-- A bound by a trait that is read back. Only one that is not relaxed quantifies over lifetimes. -/
structure Bound.IsTraitBound (maybe : Bool) (binder : Option Binder) (p : Path) : Prop where
  path : p.IsTrait
  lifetimes : ∀ b ∈ binder, b.ReadsBack
  only : maybe = true → binder = none

namespace Bound.IsTraitBound

variable {maybe : Bool} {binder : Option Binder} {p : Path} {depth : Nat} {rest : List Token}

/-- A trait as a bound can be told apart in the text. -/
theorem legible (bound : Bound.IsTraitBound maybe binder p) :
    Token.Legible (Bound.traitTokens maybe binder p) := by
  have path := bound.path.legible
  cases maybe with
  | true =>
      rw [bound.only rfl]
      exact path.cons_op "?" (by decide) (by decide)
  | false =>
      cases binder with
      | none => exact path
      | some b =>
          refine (bound.lifetimes b rfl).legible.append path fun next first => ?_
          obtain ⟨token, rest, whole, kind⟩ := bound.path.head
          rw [whole] at first
          cases first
          rcases kind with rfl | ⟨name, rfl⟩ <;> rfl

/-- The marker of a trait for constants is not there. -/
theorem marker_absent {place : BoundPlace} {input : List Token}
    (bracket : Shows (startsGroup .bracket) input false)
    (word : Shows (startsWord "const") input false) :
    (constMarker? place).Runs input input false :=
  .get fun _ => .look bracket (.bind (.keyword?_absent word) .pure)

/-- What a bound quantifies over is read from in front of its question mark. -/
theorem binder?_runs (bound : Bound.IsTraitBound maybe binder p)
    (light : Token.weights (Binder.tokens? binder) ≤ depth) :
    (binder? (Grammar.upTo depth)).Runs
      ((if maybe then [.op "?"] else []) ++ (Binder.tokens? binder ++ (p.tokens ++ rest)))
      ((if maybe then [.op "?"] else []) ++ (p.tokens ++ rest)) binder := by
  cases maybe with
  | true =>
      rw [bound.only rfl]
      exact .binder?_absent fun _ => rfl
  | false =>
      cases binder with
      | none => exact .binder?_absent ((bound.path.starts rest).word "for" (by decide))
      | some b =>
          have some_ : 0 < Token.weights b.tokens := Token.weights_pos (by simp [Binder.tokens])
          simp only [Binder.tokens?] at light
          obtain ⟨depth, rfl⟩ : ∃ before, depth = before + 1 := ⟨depth - 1, by omega⟩
          exact (bound.lifetimes b rfl).runs

/-- No marker is read where the trait begins. -/
theorem constMarker?_runs (bound : Bound.IsTraitBound maybe binder p) (place : BoundPlace) :
    (constMarker? place).Runs ((if maybe then [.op "?"] else []) ++ (p.tokens ++ rest))
      ((if maybe then [.op "?"] else []) ++ (p.tokens ++ rest)) false := by
  have starts := bound.path.starts rest
  cases maybe with
  | true => exact marker_absent (fun _ => rfl) fun _ => rfl
  | false => exact marker_absent (starts.group .bracket) (starts.word "const" (by decide))

/-- A sign for a relaxed bound is read if it is there. -/
theorem relaxed_runs (bound : Bound.IsTraitBound maybe binder p) :
    (op? "?").Runs ((if maybe then [.op "?"] else []) ++ (p.tokens ++ rest)) (p.tokens ++ rest)
      maybe := by
  cases maybe with
  | true => exact .op?_taken (by decide)
  | false => exact .op?_absent ((bound.path.starts rest).op "?" (by decide))

/-- The trait of a bound is read with the arguments of a call, if it has any. -/
theorem path_runs {f : Path → Parser β} {output : List Token} {b : β} (isTrait : p.IsTrait)
    (light : Token.weights p.tokens ≤ depth) (ends : Token.EndsType false false rest)
    (next : (f p).Runs rest output b) :
    Runs (do
        let path ← (Grammar.upTo depth).path false
        let path ← (do
          if path.segments.getLast?.any (·.arguments.isEmpty) &&
              (← looks fun trees => startsGroup .paren trees ||
                (startsOp "::" trees && startsGroup .paren (trees.drop 2))) then
            let _ ← op? "::"
            return path.withArguments (← parenArguments (Grammar.upTo depth))
          else return path)
        f path)
      (p.tokens ++ rest) output b := by
  cases isTrait with
  | plain back =>
      refine .bind (Path.runs_inner back light ends.endsPath) (.bind (a := p) ?_ next)
      refine .look_false (fun line => ?_) ?_
      · rw [ends.paren line, ends.op "::" (by decide) line]
        rfl
      · rw [Bool.and_false]
        exact .pure
  | @call leading front name inputs trailing output back calls =>
      rw [Path.tokens_call, Token.weights_append] at light
      rw [Path.tokens_call, List.append_assoc]
      have callable :
          (front ++ [Segment.mk name .none]).getLast?.any (·.arguments.isEmpty) = true := by
        rw [List.getLast?_concat]
        rfl
      have called : (Path.mk leading (front ++ [.mk name .none])).withArguments
          (.paren inputs trailing output) =
            .mk leading (front ++ [.mk name (.paren inputs trailing output)]) := by
        simp [Path.withArguments, Segment.name]
      refine .bind (Path.runs_inner back (by omega) ⟨fun _ _ => rfl, fun _ => rfl⟩)
        (.through _ rest ?_ next)
      refine .look_true (fun _ => rfl) ?_
      rw [Path.segments, callable, ← called]
      exact .skip_op? (fun _ => rfl) (.bind (calls.runs (by omega) ends) .pure)

/-- **Bounds by traits are read back.** -/
theorem runs (bound : Bound.IsTraitBound maybe binder p) (place : BoundPlace) (parens : Bool)
    (light : Token.weights (Bound.traitTokens maybe binder p) ≤ depth)
    (ends : Token.EndsType false false rest) :
    (traitBound (Grammar.upTo depth) place parens).Runs
      (Bound.traitTokens maybe binder p ++ rest) rest (false, .trait parens maybe binder p) := by
  have whole : Bound.traitTokens maybe binder p ++ rest =
      (if maybe then [.op "?"] else []) ++ (Binder.tokens? binder ++ (p.tokens ++ rest)) := by
    simp [Bound.traitTokens]
  simp only [Bound.traitTokens, Token.weights_append] at light
  have late : (if (maybe && binder.isNone) = true then binder? (Grammar.upTo depth) else
      Pure.pure none).Runs (p.tokens ++ rest) (p.tokens ++ rest) none := by
    split
    · exact .binder?_absent ((bound.path.starts rest).word "for" (by decide))
    · exact .pure
  have single : (maybe && (binder.isSome || (none : Option Binder).isSome)) = false := by
    cases maybe with
    | true => rw [bound.only rfl]; rfl
    | false => rfl
  rw [whole]
  refine .bind (bound.binder?_runs (by omega)) (.bind (bound.constMarker?_runs place)
    (.get fun atSign => .bind bound.relaxed_runs (.bind late ?_)))
  simp only [single]
  exact path_runs bound.path (by omega) ends .pure

end Bound.IsTraitBound

/-- A bound that is read back where it stands. -/
structure Bound.ReadsBack (place : BoundPlace) (b : Bound) : Prop where
  starts : ∀ rest, Shows (startsBound place) (b.tokens ++ rest) true
  signs : ∀ text ∈ [",", ">", "*"], ∀ rest, Shows (startsOp text) (b.tokens ++ rest) false
  plain : ∀ next ∈ b.tokens.head?, next.isPlain = true
  legible : Token.Legible b.tokens
  runs : ∀ depth rest, Token.weights b.tokens ≤ depth → Token.EndsType false false rest →
    (bound (Grammar.upTo depth) place).Runs (b.tokens ++ rest) rest b

namespace Bound

variable {place : BoundPlace}

/-- A lifetime reads back as a bound. -/
theorem lifetime_readsBack {name : String} (named : Literal.rawableWord name.toList = some []) :
    (Bound.lifetime name).ReadsBack place where
  starts := fun _ _ => rfl
  signs := fun text listed _ => by
    have real : ∀ text ∈ [",", ">", "*"], text.toList ≠ [] := by decide
    exact startsOp_other_token (real text listed) rfl
  plain := by rintro next ⟨rfl⟩; rfl
  legible := .single named
  runs := fun depth rest _ _ => .get fun before => .look (fun _ => rfl) (.bind .lifetime .pure)

/-- A bound by a trait starts with a question mark, with what it quantifies over or with its path. -/
theorem traitTokens_cases (maybe : Bool) (binder : Option Binder) (p : Path) (rest : List Token) :
    (∃ more, traitTokens maybe binder p ++ rest = .op "?" :: more) ∨
      (∃ more, traitTokens maybe binder p ++ rest = .word "for" :: more) ∨
        traitTokens maybe binder p ++ rest = p.tokens ++ rest := by
  cases maybe with
  | true => exact .inl ⟨_, rfl⟩
  | false =>
      cases binder with
      | none => exact .inr (.inr rfl)
      | some b => exact .inr (.inl ⟨_, rfl⟩)

namespace IsTraitBound

variable {maybe : Bool} {binder : Option Binder} {p : Path}

/-- A trait as a bound is where a bound begins. -/
theorem startsBound (bound : IsTraitBound maybe binder p) (rest : List Token) :
    Shows (startsBound place) (traitTokens maybe binder p ++ rest) true := by
  obtain ⟨more, whole⟩ | ⟨more, whole⟩ | whole := traitTokens_cases maybe binder p rest
  all_goals rw [whole]
  · exact fun _ => rfl
  · exact fun line => by rw [Token.trees_name (by decide)]; rfl
  · intro line
    have begins := (bound.path.starts rest).begins line
    simp only [Parser.startsBound, begins, Bool.true_or]

/-- A trait as a bound begins with none of these signs. -/
theorem no_sign (bound : IsTraitBound maybe binder p) {text : String} (listed : text ∈ [",", ">", "*"])
    (rest : List Token) : Shows (startsOp text) (traitTokens maybe binder p ++ rest) false := by
  have real : ∀ text ∈ [",", ">", "*"], text.toList ≠ [] ∧ text.toList.head? ≠ "?".toList.head? ∧
      text ∈ ["?", "#", "+", ",", ">", "=", "<", "*", "&", "!", "..."] := by decide
  obtain ⟨some_, other, noPath⟩ := real text listed
  obtain ⟨more, whole⟩ | ⟨more, whole⟩ | whole := traitTokens_cases maybe binder p rest
  all_goals rw [whole]
  · exact startsOp_other (by decide) other some_
  · exact startsOp_other_token some_ rfl
  · exact (bound.path.starts rest).op text noPath

/-- Nothing is joined to the first token of a trait as a bound. -/
theorem plain (bound : IsTraitBound maybe binder p) :
    ∀ next ∈ (traitTokens maybe binder p).head?, next.isPlain = true := by
  intro next first
  rw [← List.append_nil (traitTokens maybe binder p)] at first
  obtain ⟨more, whole⟩ | ⟨more, whole⟩ | whole := traitTokens_cases maybe binder p []
  all_goals rw [whole] at first
  · cases first
    decide
  · cases first
    rfl
  · obtain ⟨token, rest, whole, kind⟩ := bound.path.head
    rw [whole] at first
    cases first
    rcases kind with rfl | ⟨name, rfl⟩ <;> rfl

/-- It is none of the other kinds of bound, and not in parentheses. -/
theorem no_other (bound : IsTraitBound maybe binder p) (rest : List Token) :
    Shows startsLifetime (traitTokens maybe binder p ++ rest) false ∧
      Shows (startsWord "use") (traitTokens maybe binder p ++ rest) false ∧
        Shows (startsGroup .paren) (traitTokens maybe binder p ++ rest) false := by
  obtain ⟨more, whole⟩ | ⟨more, whole⟩ | whole := traitTokens_cases maybe binder p rest
  all_goals rw [whole]
  · exact ⟨fun _ => rfl, fun _ => rfl, fun _ => rfl⟩
  · refine ⟨fun line => ?_, fun line => ?_, fun line => ?_⟩ <;>
      rw [Token.trees_name (by decide)] <;> rfl
  · have starts := bound.path.starts rest
    exact ⟨starts.lifetime, starts.word "use" (by decide), starts.group .paren⟩

end IsTraitBound

/-- **A trait as a bound reads back**, with its binder, its sign and its parentheses. -/
theorem trait_readsBack {parens maybe : Bool} {binder : Option Binder} {p : Path}
    (bound : Bound.IsTraitBound maybe binder p) :
    (Bound.trait parens maybe binder p).ReadsBack place := by
  have tokens_eq : (Bound.trait parens maybe binder p).tokens =
      if parens then [.group .paren (traitTokens maybe binder p)] else traitTokens maybe binder p := rfl
  cases parens with
  | true =>
      have real : ∀ text ∈ [",", ">", "*"], text.toList ≠ [] := by decide
      rw [if_pos rfl] at tokens_eq
      refine ⟨?_, ?_, ?_, ?_, fun depth rest light _ => ?_⟩ <;> rw [tokens_eq]
      · exact fun _ _ => rfl
      · exact fun text listed _ => startsOp_other_token (real text listed) rfl
      · rintro next ⟨rfl⟩
        rfl
      · exact .single bound.legible
      · rw [tokens_eq] at light
        simp only [Token.weights, Token.weight] at light
        have weighs : Token.weights (traitTokens maybe binder p) ≤ depth := by omega
        have inside := bound.runs place true weighs .nil
        rw [List.append_nil] at inside
        exact .get fun before => .look (fun _ => rfl) (.look (fun _ => rfl)
          (.bind (a := (false, .trait true maybe binder p)) (.look (fun _ => rfl) (.group inside)) .pure))
  | false =>
      rw [if_neg Bool.false_ne_true] at tokens_eq
      refine ⟨?_, ?_, ?_, ?_, fun depth rest light ends => ?_⟩ <;> rw [tokens_eq]
      · exact bound.startsBound
      · exact fun text listed => bound.no_sign listed
      · exact bound.plain
      · exact bound.legible
      · rw [tokens_eq] at light
        obtain ⟨noLifetime, noCapture, noGroup⟩ := bound.no_other rest
        refine .get fun before => .look noLifetime (.look noCapture
          (.bind (a := (false, .trait false maybe binder p)) (.look noGroup ?_) .pure))
        exact bound.runs place false light ends

/-- A parameter that a type captures. -/
def IsCaptured (param : Bool × List Token) : Prop :=
  (∃ name, param = (true, [.lifetime name]) ∧ Literal.rawableWord name.toList = some []) ∨
    ∃ name, param = (false, [.word name]) ∧ Token.isName name = true ∧
      (name = "Self" ∨ keywords.contains name = false)

namespace IsCaptured

variable {param : Bool × List Token} {params : List (Bool × List Token)} {trailing : Bool}
  {rest : List Token}

/-- A captured parameter can be told apart in the text. -/
theorem legible (captured : IsCaptured param) : Token.Legible param.2 := by
  obtain ⟨name, rfl, named⟩ | ⟨name, rfl, named, -⟩ := captured
  · exact .single named
  · exact .single (.inl named)

/-- A captured parameter is a lifetime, the type itself or a name. -/
theorem runs (captured : IsCaptured param) :
    Runs (do
        if ← looks startsLifetime then return (true, [Token.lifetime (← Parser.lifetime)])
        else if ← looks (startsWord "Self") then return (false, [Token.word (← anyWord)])
        else return (false, [Token.word (← Parser.name)]))
      (param.2 ++ rest) rest param := by
  obtain ⟨name, rfl, -⟩ | ⟨name, rfl, named, free⟩ := captured
  · exact .look (fun _ => rfl) (.bind .lifetime .pure)
  · have word : Shows startsLifetime (.word name :: rest) false :=
      fun line => by rw [Token.trees_name named]; rfl
    refine .look word ?_
    by_cases self : name = "Self"
    · refine .look_true (fun line => ?_) (.bind (.anyWord named) .pure)
      rw [List.singleton_append, Token.trees_name named, self]
      rfl
    · refine .look_false (fun line => ?_) (.bind (.name named (free.resolve_left self)) .pure)
      rw [List.singleton_append, Token.trees_name named]
      exact beq_eq_false_iff_ne.mpr self

/-- A captured parameter is not the end of the list. -/
theorem no_end (captured : IsCaptured param) : Shows (startsOp ">") (param.2 ++ rest) false := by
  obtain ⟨name, rfl, -⟩ | ⟨name, rfl, -, -⟩ := captured <;> exact startsOp_other_token (by decide) rfl

/-- **Captured parameters are read back.** -/
theorem capture_runs (each : ∀ param ∈ params, IsCaptured param) (empty : params = [] → trailing = true) :
    Parser.capture.Runs (.word "use" :: .op "<" ::
        (Token.separated "," trailing (params.map (·.2)) ++ .op ">" :: rest)) rest
      (.capture params trailing) := by
  refine .take_keyword (by decide) (.take_op (by decide) (.bind (a := (params, trailing)) ?_
    (.take_op (by decide) .pure)))
  exact .sepUntil (by decide) (fun param listed more _ => (each param listed).runs)
    (fun param listed more => (each param listed).no_end) (fun _ _ => rfl) (startsOp_self (by decide)) empty

end IsCaptured

/-- A list of what is captured reads back. -/
theorem capture_readsBack {params : List (Bool × List Token)} {trailing : Bool}
    (each : ∀ param ∈ params, IsCaptured param) (empty : params = [] → trailing = true)
    (order : Token.lifetimesFirst trailing params =
      Token.separated "," trailing (params.map (·.2))) :
    (Bound.capture params trailing).ReadsBack .implTrait := by
  have tokens_eq : (Bound.capture params trailing).tokens =
      .word "use" :: .op "<" :: (Token.separated "," trailing (params.map (·.2)) ++ [.op ">"]) := by
    rw [Bound.tokens, order]
    rfl
  refine ⟨?_, ?_, ?_, ?_, fun depth rest _ _ => ?_⟩ <;> rw [tokens_eq]
  · intro rest line
    rw [List.cons_append, Token.trees_name (by decide)]
    rfl
  · intro text listed rest
    have real : ∀ text ∈ [",", ">", "*"], text.toList ≠ [] := by decide
    exact startsOp_other_token (real text listed) rfl
  · rintro next ⟨rfl⟩
    rfl
  · have inside : Token.Legible (Token.separated "," trailing (params.map (·.2)) ++ [.op ">"]) := by
      refine .append (.separated (by decide) _ (List.forall_mem_map.mpr fun param listed =>
        (each param listed).legible)) (.cons_op _ (by decide) (by decide) .nil) ?_
      rintro next ⟨rfl⟩
      decide
    refine .cons (.inl (by decide)) rfl ?_ (inside.cons_op "<" (by decide) (by decide))
    rintro next ⟨rfl⟩
    decide
  · have whole : .word "use" :: .op "<" :: (Token.separated "," trailing (params.map (·.2)) ++
        [.op ">"]) ++ rest = .word "use" :: .op "<" ::
          (Token.separated "," trailing (params.map (·.2)) ++ .op ">" :: rest) := by simp
    have noLifetime {tokens : List Token} : Shows startsLifetime (.word "use" :: tokens) false :=
      fun line => by rw [Token.trees_name (by decide)]; rfl
    rw [whole]
    exact .get fun before => .look noLifetime (.look (Runs.startsWord_self (by decide))
      (.bind (IsCaptured.capture_runs each empty) .pure))

end Bound

end VariantMerge
