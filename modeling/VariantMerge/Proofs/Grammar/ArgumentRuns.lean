import VariantMerge.Proofs.Grammar.BoundLists

/-!
# Arguments that are read back

An argument between angle brackets is a lifetime, a constant or a type. A type that is a single name can
also be the name of a type or constant of a trait, which is then set equal to something or bounded. The
arguments of a name are read back (`Arguments.angle_readsBack`) if each of them is and the lifetimes come
first.
-/

namespace VariantMerge

open VariantMerge.Parser

/-- An argument between angle brackets that is read back. -/
structure GenericArg.ReadsBack (argument : GenericArg) : Prop where
  signs : ∀ text ∈ [">", "=", "<="], ∀ rest, Shows (startsOp text) (argument.tokens.2 ++ rest) false
  legible : Token.Legible argument.tokens.2
  runs : ∀ depth rest, Token.weights argument.tokens.2 ≤ depth → Token.EndsArgument rest →
      (genericArg (Grammar.upTo depth)).Runs (argument.tokens.2 ++ rest) rest argument

namespace GenericArg

variable {arguments : List GenericArg} {trailing : Bool} {depth : Nat}

/-- Arguments up to their bracket can be told apart in the text. -/
theorem legible_separated (each : ∀ a ∈ arguments, a.ReadsBack) (trailing : Bool) :
    Token.Legible (Token.separated "," trailing (arguments.map (·.tokens.2)) ++ [.op ">"]) := by
  refine .append (.separated (by decide) trailing (List.forall_mem_map.mpr fun a among =>
    (each a among).legible)) (.cons_op _ (by decide) (by decide) .nil) ?_
  rintro next ⟨rfl⟩
  decide

/-- Neither an argument nor the end of the arguments goes on with an angle bracket. -/
theorem no_sign (each : ∀ a ∈ arguments, a.ReadsBack) {text : String} (listed : text ∈ ["=", "<="])
    (rest : List Token) : Shows (startsOp text)
      (Token.separated "," trailing (arguments.map (·.tokens.2)) ++ .op ">" :: rest) false := by
  refine Token.shows_separated (List.forall_mem_map.mpr fun a among more =>
    (each a among).signs text (List.mem_cons_of_mem _ listed) more) fun _ => ?_
  simp only [List.mem_cons, List.not_mem_nil, or_false] at listed
  rcases listed with rfl | rfl <;> exact fun _ => rfl

/-- **Arguments are read back one by one**, up to the bracket that ends them. -/
theorem separated_runs (each : ∀ a ∈ arguments, a.ReadsBack) (empty : arguments = [] → trailing = true)
    (light : Token.weights (Token.separated "," trailing (arguments.map (·.tokens.2))) ≤ depth)
    (rest : List Token) :
    (sepUntil (startsOp ">") "," (genericArg (Grammar.upTo depth))).Runs
      (Token.separated "," trailing (arguments.map (·.tokens.2)) ++ .op ">" :: rest)
      (.op ">" :: rest) (arguments, trailing) := by
  refine .sepUntil (by decide) (fun a among more after => ?_)
    (fun a among more => (each a among).signs ">" (by decide) more) (fun _ _ => rfl)
    (startsOp_self (by decide)) empty
  have lighter : Token.weights a.tokens.2 ≤ depth :=
    (Token.weights_le_separated (List.mem_map_of_mem among)).trans light
  refine (each a among).runs depth more lighter ?_
  rcases after with rfl | ⟨more, rfl⟩
  · exact ⟨">", rest, by decide, rfl⟩
  · exact ⟨",", more, by decide, rfl⟩

end GenericArg

/-- **Arguments in brackets read back** if each does, and lifetimes come first. -/
theorem Arguments.angle_readsBack {turbofish trailing : Bool} {arguments : List GenericArg}
    (each : ∀ a ∈ arguments, a.ReadsBack) (empty : arguments = [] → trailing = true)
    (order : Token.lifetimesFirst trailing (genericsEach arguments) =
      Token.separated "," trailing (arguments.map (·.tokens.2))) :
    (Arguments.angle turbofish arguments trailing).ReadsBack := by
  have tokens_eq (rest : List Token) : (Arguments.angle turbofish arguments trailing).tokens ++ rest =
      (if turbofish then [.op "::"] else []) ++ .op "<" ::
        (Token.separated "," trailing (arguments.map (·.tokens.2)) ++ .op ">" :: rest) := by
    rw [Arguments.tokens, order]
    simp
  have alone := tokens_eq []
  rw [List.append_nil] at alone
  refine ⟨?_, ?_, fun depth rest light => ?_⟩
  · have angle := (GenericArg.legible_separated each trailing).cons_op "<" (by decide) (by decide)
    rw [alone]
    cases turbofish with
    | false => exact angle
    | true => exact angle.cons_op "::" (by decide) (by decide)
  · rintro rfl rest line
    have equal : Shows (startsOp "<=") (.op "<" :: (Token.separated "," trailing
        (arguments.map (·.tokens.2)) ++ .op ">" :: rest)) false :=
      startsOp_of_single "<" ['='] rfl rfl (GenericArg.no_sign each (by decide : "=" ∈ _) rest)
    have shift : Shows (startsOp "<<=") (.op "<" :: (Token.separated "," trailing
        (arguments.map (·.tokens.2)) ++ .op ">" :: rest)) false :=
      startsOp_of_single "<" ['<', '='] rfl rfl (GenericArg.no_sign each (by decide : "<=" ∈ _) rest)
    rw [tokens_eq, if_neg Bool.false_ne_true, List.nil_append, startsOpNot,
      startsOp_self (by decide) line, List.any_cons, List.any_cons, List.any_nil, equal line, shift line]
    rfl
  · rw [alone] at light
    simp only [Token.weights_append, Token.weights] at light
    rw [tokens_eq]
    refine .through turbofish (.op "<" :: (Token.separated "," trailing
      (arguments.map (·.tokens.2)) ++ .op ">" :: rest)) ?_ (.take_op (by decide)
        (.bind (GenericArg.separated_runs each empty (by omega) rest) (.take_op (by decide) .pure)))
    cases turbofish with
    | true => exact .op?_taken (by decide)
    | false => exact .op?_absent (startsOp_other (by decide) (by decide) (by decide))

/-- A constant that is read back where arguments stand. -/
structure Token.IsConstArgument (value : List Token) : Prop where
  signs : ∀ text ∈ [">", "=", "<="], ∀ rest, Shows (startsOp text) (value ++ rest) false
  starts : ∀ rest, Shows (fun trees => startsLiteral trees || startsGroup .brace trees)
    (value ++ rest) true
  lifetime : ∀ rest, Shows startsLifetime (value ++ rest) false
  legible : Token.Legible value
  runs : ∀ depth rest, Token.weights value ≤ depth →
    (constArgument (Grammar.upTo depth)).Runs (value ++ rest) rest value

namespace GenericArg

/-- A lifetime reads back as an argument. -/
theorem lifetime_readsBack {name : String} (named : Literal.rawableWord name.toList = some []) :
    (GenericArg.lifetime name).ReadsBack where
  signs := fun text listed rest => by
    have real : ∀ text ∈ [">", "=", "<="], text.toList ≠ [] := by decide
    exact startsOp_other_token (real text listed) rfl
  legible := .single named
  runs := by
    intro depth rest _ ends
    refine .look_true (fun line => ?_) (.bind .lifetime .pure)
    obtain ⟨more, rfl⟩ | ⟨more, rfl⟩ := ends.cases <;> rfl

/-- A constant reads back as an argument. -/
theorem const_readsBack {value : List Token} (back : Token.IsConstArgument value) :
    (GenericArg.const value).ReadsBack where
  signs := back.signs
  legible := back.legible
  runs := by
    intro depth rest light _
    refine .look_false (fun line => ?_) (.look (back.starts rest)
      (.bind (back.runs depth rest light) .pure))
    exact Bool.and_eq_false_iff.mpr (.inl (back.lifetime rest line))

/-- What an argument is that starts with a type, up to the type. -/
theorem runs_type {t : Ty} {f : Ty → Parser GenericArg} {depth : Nat} {middle rest : List Token}
    {argument : GenericArg} (back : t.ReadsBack true) (light : Token.weights t.tokens ≤ depth)
    (ends : Token.EndsType true t.trails middle) (next : (f t).Runs middle rest argument) :
    (do
      if ← looks fun trees => startsLifetime trees && !startsOp "+" (trees.drop 1) then
        return GenericArg.lifetime (← Parser.lifetime)
      else if ← looks fun trees => startsLiteral trees || startsGroup .brace trees then
        return GenericArg.const (← constArgument (Grammar.upTo depth))
      else
        f (← (Grammar.upTo depth).ty true)).Runs (t.tokens ++ middle) rest argument := by
  have starts := back.typeStart middle
  refine .look starts.lifetime (.look_false (fun line => ?_) (.bind (back.inner light ends)
    next))
  rw [starts.literal line, starts.brace line]
  rfl

/-- A type does not begin with a sign that ends an argument or makes it another one. -/
theorem signs_of_type {t : Ty} (back : t.ReadsBack true) :
    ∀ text ∈ [">", "=", "<="], ∀ rest, Shows (startsOp text) (t.tokens ++ rest) false := by
  intro text listed rest
  refine (back.typeStart rest).op text ?_
  exact (by decide : [">", "=", "<="] ⊆ [",", ";", ">", "=", "?", "+", "#", "...", "->", "<=", "<<=",
    "-"]) listed

/-- What ends an argument ends its type. -/
theorem ends_of_sign {plus trails : Bool} {rest : List Token}
    (after : Token.EndsArgument rest) : Token.EndsType plus trails rest := by
  obtain ⟨text, more, listed, rfl⟩ := after
  exact .sign ((by decide : [",", ">"] ⊆ [",", ";", ">", "=", ":"]) listed)

/-- A type reads back as an argument. -/
theorem type_readsBack {t : Ty} (back : t.ReadsBack true) : (GenericArg.type t).ReadsBack where
  signs := signs_of_type back
  legible := back.legible
  runs := by
    intro depth rest light after
    refine runs_type back light (ends_of_sign after) ?_
    cases sole : soleSegment? t with
    | none => exact .pure
    | some segment =>
        obtain ⟨name, arguments⟩ := segment
        obtain ⟨more, rfl⟩ | ⟨more, rfl⟩ := after.cases
        · exact .skip_op? (fun _ => rfl) (.skip_op? (fun _ => rfl) .pure)
        · exact .skip_op? (fun _ => rfl) (.skip_op? (fun _ => rfl) .pure)

section Sole

variable {name : String} {arguments : Arguments}

/-- A name with arguments prints as a path of one segment. -/
theorem tokens_sole : (Ty.path (.mk false [.mk name arguments])).tokens =
    .word name :: arguments.tokens := by
  rw [Ty.tokens, Path.tokens]
  rfl

/-- A name with its arguments, a sign and what is said of it, as a type in front of the sign. -/
theorem tokens_behind_sole (sign : String) (value rest : List Token) :
    .word name :: arguments.tokens ++ .op sign :: value ++ rest =
      (Ty.path (.mk false [.mk name arguments])).tokens ++ .op sign :: (value ++ rest) := by
  rw [tokens_sole]
  simp

/-- What is bound to a name weighs less than the whole argument. -/
theorem weights_behind_sole (sign : String) (value : List Token) :
    Token.weights (.word name :: arguments.tokens ++ .op sign :: value) =
      Token.weights (Ty.path (.mk false [.mk name arguments])).tokens + 1 + Token.weights value := by
  rw [tokens_sole]
  simp only [List.cons_append, Token.weights_append, Token.weights, Token.weight]
  omega

variable (sole : soleSegment? (.path (.mk false [.mk name arguments])) = some (.mk name arguments))
  (back : (Ty.path (.mk false [.mk name arguments])).ReadsBack true)

include back

/-- A name does not begin with a sign. -/
theorem signs_of_sole (sign : String) (value : List Token) : ∀ text ∈ [">", "=", "<="], ∀ rest,
    Shows (startsOp text) (.word name :: arguments.tokens ++ .op sign :: value ++ rest) false := by
  intro text listed rest
  rw [tokens_behind_sole]
  exact signs_of_type back text listed _

/-- A name with what is bound to it can be told apart in the text. -/
theorem legible_of_sole {sign : String} (listed : sign ∈ ["=", ":"]) {value : List Token}
    (legible : Token.Legible value) :
    Token.Legible (.word name :: arguments.tokens ++ .op sign :: value) := by
  have operators : ∀ sign ∈ ["=", ":"], Token.isOperator sign = true ∧
      (Token.op sign).isCalm = true ∧ (Token.op sign).isMild = true := by decide
  obtain ⟨operator, calm, mild⟩ := operators sign listed
  have here := back.legible.append (legible.cons_op sign operator calm) (by rintro next ⟨rfl⟩; exact mild)
  rwa [tokens_sole] at here

include sole

/-- A type that is bound to a name reads back. -/
theorem assocType_readsBack {t : Ty} (value : t.ReadsBack true) :
    (GenericArg.assocType name arguments t).ReadsBack where
  signs := signs_of_sole back "=" t.tokens
  legible := legible_of_sole back (by decide) value.legible
  runs := by
    intro depth rest light after
    rw [GenericArg.tokens, weights_behind_sole] at light
    rw [GenericArg.tokens, tokens_behind_sole]
    refine runs_type back (by omega) (.sign (by decide)) ?_
    rw [sole]
    have starts := value.typeStart rest
    refine .take_op? (by decide) (.look_false (fun line => ?_)
      (.bind (value.inner (by omega) (ends_of_sign after)) .pure))
    rw [starts.literal line, starts.brace line]
    rfl

/-- A constant that is bound to a name reads back. -/
theorem assocConst_readsBack {value : List Token} (constant : Token.IsConstArgument value) :
    (GenericArg.assocConst name arguments value).ReadsBack where
  signs := signs_of_sole back "=" value
  legible := legible_of_sole back (by decide) constant.legible
  runs := by
    intro depth rest light _
    rw [GenericArg.tokens, weights_behind_sole] at light
    rw [GenericArg.tokens, tokens_behind_sole]
    refine runs_type back (by omega) (.sign (by decide)) ?_
    rw [sole]
    exact .take_op? (by decide) (.look (constant.starts rest)
      (.bind (constant.runs depth rest (by omega)) .pure))

/-- Bounds of a name read back. -/
theorem constraint_readsBack {bounds : List Bound} {trailing : Bool}
    (each : ∀ b ∈ bounds, b.ReadsBack .declaration) (empty : bounds = [] → trailing = true) :
    (GenericArg.constraint name arguments bounds trailing).ReadsBack where
  signs := signs_of_sole back ":" (Token.separated "+" trailing (boundsEach bounds))
  legible := legible_of_sole back (by decide) (Bound.legible_list trailing each)
  runs := by
    intro depth rest light after
    rw [GenericArg.tokens, weights_behind_sole] at light
    rw [GenericArg.tokens, tokens_behind_sole]
    have last : Shows (fun trees => startsOp "," trees || startsOp ">" trees) rest true := by
      obtain ⟨more, rfl⟩ | ⟨more, rfl⟩ := after.cases <;> exact fun _ => rfl
    refine runs_type back (by omega) (.sign (by decide)) ?_
    rw [sole]
    refine .skip_op? (fun _ => rfl) (.take_op? (by decide) (.bind (Bound.looseBounds_runs each empty
      (by omega) (fun b listed more line => ?_) last (ends_of_sign after)) .pure))
    rw [(each b listed).signs "," (by decide) more line, (each b listed).signs ">" (by decide) more line]
    rfl

end Sole

end GenericArg

end VariantMerge
