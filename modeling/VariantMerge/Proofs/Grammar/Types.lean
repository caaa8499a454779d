import VariantMerge.Grammar.Type
import VariantMerge.Proofs.Grammar.Yields
import VariantMerge.Proofs.Syntax.Types

/-!
# The types that are read

A type that the grammar reads is legible, with all its parts: after the sign of a reference, a
lifetime is read before the type, and nothing but a comma is read before a parameter for any number
of arguments. The proof follows the grammar, of which each part is as good as the parts inside.
-/

namespace VariantMerge

/-- The types and paths inside are read as legible ones, and a type without bounds at its end starts
with a lifetime only if one comes first. -/
structure Grammar.ReadsTypes (g : Grammar) : Prop where
  ty : ∀ allowPlus, (g.ty allowPlus).Yields fun t => (TypeNode.ty t).Legible
  path : ∀ exprStyle, (g.path exprStyle).Yields fun p => (TypeNode.path p).Legible
  starts : (g.ty false).Meets Cursor.NoLifetime fun t _ => Token.startsStatic t.tokens = false

namespace Parser

variable {g : Grammar}

/-! ## Pieces -/

/-- A lifetime as a bound has no part that could be misread. -/
theorem lifetimeBound_legible (name : String) : (TypeNode.bound (.lifetime name)).Legible :=
  .of_children trivial (List.forall_mem_singleton.mpr (.of_leaf trivial rfl))

/-- A trait as a bound is as legible as its path. -/
theorem traitBound_legible {parens maybe : Bool} {binder : Option Binder} {p : Path}
    (legible : (TypeNode.path p).Legible) :
    (TypeNode.bound (.trait parens maybe binder p)).Legible :=
  .of_children trivial (List.forall_mem_singleton.mpr legible)

/-- A trait object is as legible as its bounds. -/
theorem object_legible {hasDyn trailing : Bool} {bounds : List Bound}
    (each : ∀ b ∈ bounds, (TypeNode.bound b).Legible) :
    (TypeNode.ty (.object hasDyn bounds trailing)).Legible :=
  .of_children trivial (List.forall_mem_map.mpr each)

/-- A path with other arguments is as legible as both. -/
theorem withArguments_legible {p : Path} {a : Arguments} (legible : (TypeNode.path p).Legible)
    (arguments : (TypeNode.arguments a).Legible) :
    (TypeNode.path (p.withArguments a)).Legible := by
  obtain ⟨leading, segments⟩ := p
  unfold Path.withArguments
  dsimp only
  split
  · exact legible
  · refine .of_children trivial (List.forall_mem_map.mpr (List.forall_mem_append.mpr ⟨?_, ?_⟩))
    · intro s listed
      exact legible.child (List.mem_map_of_mem (List.dropLast_subset _ listed))
    · refine List.forall_mem_singleton.mpr (.of_children trivial ?_)
      exact List.forall_mem_singleton.mpr arguments

/-- The arguments of the name that a type consists of. -/
theorem soleSegment?_legible {t : Ty} {name : String} {a : Arguments}
    (sole : soleSegment? t = some (.mk name a)) (legible : (TypeNode.ty t).Legible) :
    (TypeNode.arguments a).Legible := by
  have inside {name : String} {a : Arguments}
      (legible : (TypeNode.ty (.path (.mk false [.mk name a]))).Legible) :
      (TypeNode.arguments a).Legible :=
    ((legible.child List.mem_cons_self).child List.mem_cons_self).child List.mem_cons_self
  unfold soleSegment? at sole
  split at sole
  · cases sole
    exact inside legible
  · cases sole
    exact inside legible
  · cases sole

/-- A type in parentheses that is taken for a bound is as legible as before. -/
theorem parenBound?_legible {t : Ty} {b : Bound} (turns : parenBound? t = some b)
    (legible : (TypeNode.ty t).Legible) : (TypeNode.bound b).Legible := by
  unfold parenBound? at turns
  split at turns
  · cases turns
    exact traitBound_legible (legible.child List.mem_cons_self)
  · cases turns
    exact traitBound_legible ((legible.child List.mem_cons_self).child List.mem_cons_self)
  · cases turns
    exact lifetimeBound_legible _
  · cases turns
    exact .of_leaf trivial rfl
  · cases turns

/-- What a type captures is legible. -/
theorem capture_yields : capture.Yields fun b => (TypeNode.bound b).Legible := by
  refine .bind_any fun _ => .bind_any fun _ => .bind_any fun (params, trailing) => ?_
  exact .bind_any fun _ => .pure (.of_leaf trivial rfl)

/-! ## What types start with -/

/-- No path begins with the static lifetime. -/
theorem startsStatic_path (p : Path) : Token.startsStatic p.tokens = false := by
  obtain ⟨leading, segments⟩ := p
  cases leading with
  | true => rfl
  | false =>
      cases segments with
      | nil => rfl
      | cons first rest =>
          obtain ⟨name, a⟩ := first
          exact Token.startsStatic_separated

/-- No trait as a bound begins with the static lifetime. -/
theorem startsStatic_traitBound (parens maybe : Bool) (binder : Option Binder) (p : Path) :
    Token.startsStatic (Bound.trait parens maybe binder p).tokens = false := by
  cases parens with
  | true => rfl
  | false =>
      cases maybe with
      | true => rfl
      | false =>
          cases binder with
          | none => exact startsStatic_path p
          | some binder => rfl

/-- A trait object without keyword begins as its first bound does. -/
theorem startsStatic_object {first : Bound} {rest : List Bound} {trailing : Bool}
    (starts : Token.startsStatic first.tokens = false) :
    Token.startsStatic (Ty.object false (first :: rest) trailing).tokens = false := by
  rw [Ty.tokens, boundsEach]
  exact Token.startsStatic_separated.trans starts

/-- No function type begins with the static lifetime. -/
theorem startsStatic_fnPointer (binder : Option Binder) (isUnsafe : Bool) (abi : Option Abi)
    (params : List FnParam) (trailing : Bool) (variadic : List Token) (output : Option Ty) :
    Token.startsStatic
      (Ty.fnPointer binder isUnsafe abi params trailing variadic output).tokens = false := by
  cases binder with
  | some binder => rfl
  | none =>
      cases isUnsafe with
      | true => rfl
      | false =>
          obtain _ | ⟨_ | name⟩ := abi <;> rfl

/-- Nothing begins with the static lifetime where a sign stands first. -/
theorem startsStatic_joinPunct (c : Char) (joined : Bool) (tokens : List Token) :
    Token.startsStatic (Tree.joinPunct c joined tokens) = false := by
  unfold Tree.joinPunct
  split
  · split <;> rfl
  · split <;> rfl
  · rfl

/-- Trees that are passed on as they were written start with a lifetime only if it comes first. -/
theorem startsStatic_tokens {trees : List Tree} (other : startsLifetime trees = false) :
    Token.startsStatic (Tree.tokens trees) = false := by
  cases trees with
  | nil => rfl
  | cons tree rest =>
      rw [Tree.tokens]
      cases tree with
      | ident line text => rfl
      | literal line text => rfl
      | lifetime line name => cases other
      | punct line c joint =>
          rw [Tree.pushTokens]
          split
          · rfl
          · exact startsStatic_joinPunct c _ _
      | group line closeLine delimiter inner => rfl

/-- A beginning of the trees starts as all of them do. -/
theorem startsLifetime_take {trees : List Tree} (other : startsLifetime trees = false)
    (count : Nat) : startsLifetime (trees.take count) = false := by
  cases count with
  | zero => rfl
  | succ count =>
      cases trees with
      | nil => rfl
      | cons tree rest => cases tree <;> first | rfl | exact other

/-- What is written down as it was read begins as the input did. -/
theorem written_yields (before : Cursor) :
    (written before).Yields fun tokens =>
      before.NoLifetime → Token.startsStatic tokens = false :=
  .bind_any fun _ => .pure fun other => startsStatic_tokens (startsLifetime_take other _)

/-- Where no binder is read, the input is as it was. -/
theorem binder?_meets {pre : Cursor → Prop} :
    (binder? g).Meets pre fun binder cursor => binder = none → pre cursor := by
  refine .bind .keyword? fun found => .ite (fun _ => .of_never ?_) fun absent => ?_
  · exact .bind_any fun _ => .bind_any fun _ => .bind_any fun _ => .pure nofun
  · exact .pure fun cursor stays _ => stays (Bool.eq_false_iff.mpr absent)

/-! ## Bounds -/

section Reads

variable (reads : g.ReadsTypes)

include reads

/-- A result type is legible. -/
theorem output?_yields (allowPlus : Bool) :
    (output? g allowPlus).Yields fun output => ∀ t ∈ output, (TypeNode.ty t).Legible := by
  refine .bind_any fun _ => .ite (fun _ => ?_) fun _ => .pure (by simp)
  exact .bind (reads.ty allowPlus) fun t legible => .pure (by simpa using legible)

/-- Arguments in parentheses are legible. -/
theorem parenArguments_yields :
    (parenArguments g).Yields fun arguments => (TypeNode.arguments arguments).Legible := by
  refine .bind (.group (.commaList (reads.ty true))) fun (inputs, trailing) each => ?_
  refine .bind (output?_yields reads false) fun output returned => .pure ?_
  refine .of_children trivial (List.forall_mem_append.mpr ⟨?_, TypeNode.legible_output returned⟩)
  exact List.forall_mem_map.mpr each

/-- A trait that is read as a bound is legible, and has the parentheses that it was read in. -/
theorem traitBound_yields (place : BoundPlace) (parens : Bool) :
    (traitBound g place parens).Yields fun read => (TypeNode.bound read.2).Legible ∧
      ∃ maybe binder path, read.2 = .trait parens maybe binder path := by
  refine .bind_any fun binder => .bind_any fun isConst => .bind_any fun atSign => ?_
  refine .bind_any fun maybe => .bind_any fun late => .bind (reads.path false) fun p legible => ?_
  refine .bind_as (fun p => (TypeNode.path p).Legible) ?_ fun p legible => ?_
  · refine .bind_any fun _ => .ite (fun _ => ?_) fun _ => .pure legible
    refine .bind_any fun _ => .bind (parenArguments_yields reads) fun arguments taken => .pure ?_
    exact withArguments_legible legible taken
  · refine .ite (fun _ => .bind_any fun _ => .fail_bind) fun _ => ?_
    exact .pure ⟨traitBound_legible legible, maybe, binder, p, rfl⟩

/-- Every bound is legible. -/
theorem bound_yields (place : BoundPlace) :
    (bound g place).Yields fun b => (TypeNode.bound b).Legible := by
  refine .bind_any fun before => .bind_any fun _ => .ite (fun _ => ?_) fun _ => ?_
  · exact .bind_any fun name => .pure (lifetimeBound_legible name)
  · refine .bind_any fun _ => .ite (fun _ => ?_) fun _ => ?_
    · refine .bind capture_yields fun b legible => ?_
      exact .ite (fun _ => .bind_any fun _ => .fail_bind) fun _ => .pure legible
    · refine .bind_as (fun read => (TypeNode.bound read.2).Legible) ?_ fun (isConst, b) legible => ?_
      · refine .bind_any fun _ => .ite (fun _ => .group ?_) fun _ => ?_
        · exact (traitBound_yields reads place true).mono fun _ read => read.1
        · exact (traitBound_yields reads place false).mono fun _ read => read.1
      · refine .ite (fun _ => .bind_any fun tokens => .pure ?_) fun _ => .pure legible
        exact .of_leaf trivial rfl

/-- Bounds are legible, by induction on the rounds in which they are read. -/
theorem boundsFrom_yields (place : BoundPlace) (allowPlus : Bool) (rounds : Nat) :
    (boundsFrom g place allowPlus rounds).Yields
      fun read => ∀ b ∈ read.1, (TypeNode.bound b).Legible := by
  induction rounds with
  | zero => exact .fail
  | succ rounds ih =>
      refine .bind (bound_yields reads place) fun first legible => ?_
      have alone : ∀ b ∈ [first], (TypeNode.bound b).Legible :=
        List.forall_mem_singleton.mpr legible
      refine .bind_any fun _ => .ite (fun _ => ?_) fun _ => .pure alone
      refine .bind_any fun _ => .bind_any fun _ => .ite (fun _ => ?_) fun _ => .pure alone
      refine .bind ih fun (rest, trailing) others => .pure ?_
      exact List.forall_mem_cons.mpr ⟨legible, others⟩

/-- Bounds that need a trait are legible. -/
theorem bounds_yields (place : BoundPlace) (allowPlus : Bool) (start : Cursor) :
    (bounds g place allowPlus start).Yields
      fun read => ∀ b ∈ read.1, (TypeNode.bound b).Legible := by
  refine .bind_any fun trees => .bind (boundsFrom_yields reads place allowPlus _)
    fun (read, trailing) each => ?_
  exact .ite (fun _ => .bind_any fun _ => .fail_bind) fun _ => .pure each

/-- Bounds up to a stop are legible. -/
theorem looseBounds_yields (stop : List Tree → Bool) :
    (looseBounds g stop).Yields fun read => ∀ b ∈ read.1, (TypeNode.bound b).Legible :=
  .sepWhile (bound_yields reads .declaration)

/-- Bounds behind a first one are legible. -/
theorem moreBounds_yields (loose : Bool) (rounds : Nat) :
    (moreBounds g loose rounds).Yields fun read => ∀ b ∈ read.1, (TypeNode.bound b).Legible := by
  induction rounds with
  | zero => exact .fail
  | succ rounds ih =>
      refine .bind_any fun _ => .ite (fun _ => ?_) fun _ => .pure (by simp)
      refine .bind_any fun _ => .ite (fun _ => .pure (by simp)) fun _ => ?_
      refine .bind (bound_yields reads .object) fun next legible => ?_
      refine .bind ih fun (rest, trailing) others => .pure ?_
      exact List.forall_mem_cons.mpr ⟨legible, others⟩

/-! ## Paths -/

/-- Every generic argument is legible. -/
theorem genericArg_yields :
    (genericArg g).Yields fun argument => (TypeNode.generic argument).Legible := by
  refine .bind_any fun _ => .ite (fun _ => ?_) fun _ => ?_
  · refine .bind_any fun name => .pure (.of_children trivial ?_)
    exact List.forall_mem_singleton.mpr (.of_leaf trivial rfl)
  refine .bind_any fun _ => .ite (fun _ => ?_) fun _ => ?_
  · exact .bind_any fun value => .pure (.of_leaf trivial rfl)
  refine .bind (reads.ty true) fun t legible => ?_
  have alone : (TypeNode.generic (.type t)).Legible :=
    .of_children trivial (List.forall_mem_singleton.mpr legible)
  split
  · exact .pure alone
  next name arguments sole =>
    have inside := soleSegment?_legible sole legible
    refine .bind_any fun _ => .ite (fun _ => ?_) fun _ => ?_
    · refine .bind_any fun _ => .ite (fun _ => ?_) fun _ => ?_
      · refine .bind_any fun value => .pure (.of_children trivial ?_)
        exact List.forall_mem_singleton.mpr inside
      · refine .bind (reads.ty true) fun value legible => .pure (.of_children trivial ?_)
        exact List.forall_mem_cons.mpr ⟨inside, List.forall_mem_singleton.mpr legible⟩
    · refine .bind_any fun _ => .ite (fun _ => ?_) fun _ => .pure alone
      refine .bind (looseBounds_yields reads _) fun (read, trailing) each =>
        .pure (.of_children trivial ?_)
      exact List.forall_mem_cons.mpr ⟨inside, List.forall_mem_map.mpr each⟩

/-- Arguments in angle brackets are legible. -/
theorem angleArguments_yields :
    (angleArguments g).Yields fun arguments => (TypeNode.arguments arguments).Legible := by
  refine .bind_any fun turbofish => .bind_any fun _ => ?_
  refine .bind (.sepUntil (genericArg_yields reads)) fun (arguments, trailing) each => ?_
  exact .bind_any fun _ => .pure (.of_children trivial (List.forall_mem_map.mpr each))

/-- A segment is legible, with or without a turbofish. -/
theorem segment_yields (exprStyle : Bool) :
    (segment g exprStyle).Yields fun s => (TypeNode.segment s).Legible := by
  have plain (name : String) : (TypeNode.segment (.mk name .none)).Legible :=
    .of_children trivial (List.forall_mem_singleton.mpr (.of_leaf trivial rfl))
  refine .bind_any fun _ => .ite (fun _ => .bind_any fun name => .pure (plain name)) fun _ => ?_
  refine .bind_any fun name => .bind_any fun _ => .ite (fun _ => ?_) fun _ => .pure (plain name)
  refine .bind (angleArguments_yields reads) fun arguments legible => .pure ?_
  exact .of_children trivial (List.forall_mem_singleton.mpr legible)

/-- All segments of a path are legible. -/
theorem segments_yields (exprStyle : Bool) (goesOn : List Tree → Bool) :
    (segments g exprStyle goesOn).Yields fun read => ∀ s ∈ read, (TypeNode.segment s).Legible :=
  .many (.bind_any fun _ => segment_yields reads exprStyle)

/-- Every path is legible. -/
theorem path_yields (exprStyle : Bool) :
    (path g exprStyle).Yields fun p => (TypeNode.path p).Legible := by
  refine .bind_any fun leading => .bind (segment_yields reads exprStyle) fun first legible => ?_
  refine .bind (segments_yields reads exprStyle _) fun rest each => .pure (.of_children trivial ?_)
  exact List.forall_mem_map.mpr (List.forall_mem_cons.mpr ⟨legible, each⟩)

/-- A qualified path is legible, and begins with its bracket. -/
theorem qualifiedPath_yields (exprStyle : Bool) :
    (qualifiedPath g exprStyle).Yields fun t =>
      (TypeNode.ty t).Legible ∧ Token.startsStatic t.tokens = false := by
  refine .bind_any fun _ => .ite (fun _ => ?_) fun _ => ?_
  · refine .bind (reads.ty true) fun self legible => ?_
    refine .bind_as (fun interface => ∀ p ∈ interface, (TypeNode.path p).Legible) ?_
      fun interface through => ?_
    · refine .bind_any fun _ => .ite (fun _ => ?_) fun _ => .pure (by simp)
      exact .bind (reads.path false) fun p legible => .pure (by simpa using legible)
    refine .bind_any fun _ => .bind_any fun _ => ?_
    refine .bind (segment_yields reads exprStyle) fun first leads => ?_
    refine .bind (segments_yields reads exprStyle _) fun rest each => .pure ⟨?_, rfl⟩
    refine .of_children trivial (List.forall_mem_cons.mpr ⟨legible, ?_⟩)
    refine List.forall_mem_append.mpr ⟨?_, ?_⟩
    · exact List.forall_mem_map.mpr fun p listed => through p (Option.mem_toList.mp listed)
    · exact List.forall_mem_map.mpr (List.forall_mem_cons.mpr ⟨leads, each⟩)
  · refine .bind (path_yields reads exprStyle) fun p legible => .pure ⟨?_, startsStatic_path p⟩
    exact .of_children trivial (List.forall_mem_singleton.mpr legible)

/-! ## Types -/

/-- What stands in parentheses is legible, whether it is a tuple, a type or bounds. -/
theorem insideParens_yields :
    (insideParens g).Yields fun read =>
      match read with
      | .ty t => (TypeNode.ty t).Legible ∧ Token.startsStatic t.tokens = false
      | .bound b => (TypeNode.bound b).Legible ∧ Token.startsStatic b.tokens = false := by
  refine .bind_any fun _ => .ite (fun _ => .pure ⟨.of_leaf trivial rfl, rfl⟩) fun _ => ?_
  refine .bind_any fun _ => .ite (fun _ => ?_) fun _ => ?_
  · refine .bind_any fun start => .bind (bounds_yields reads .object true start)
      fun (read, trailing) each => .pure ⟨.of_children trivial ?_, rfl⟩
    exact List.forall_mem_singleton.mpr (object_legible each)
  refine .bind_any fun _ => .ite (fun _ => ?_) fun _ => ?_
  · refine .bind (traitBound_yields reads .object true) fun (isConst, b) read => .pure ?_
    obtain ⟨legible, maybe, binder, p, rfl⟩ := read
    exact ⟨legible, rfl⟩
  refine .bind (reads.ty true) fun first legible => ?_
  refine .bind_any fun _ => .ite (fun _ => ?_) fun _ => ?_
  · refine .bind (.commaList (reads.ty true)) fun (rest, trailing) each =>
      .pure ⟨.of_children trivial ?_, rfl⟩
    exact List.forall_mem_map.mpr (List.forall_mem_cons.mpr ⟨legible, each⟩)
  · exact .pure ⟨.of_children trivial (List.forall_mem_singleton.mpr legible), rfl⟩

/-- A type in parentheses is legible, and does not begin with the static lifetime unless bounds may
follow it. -/
theorem parenType_yields (allowPlus : Bool) :
    (parenType g allowPlus).Yields fun t => (TypeNode.ty t).Legible ∧
      (allowPlus = false → Token.startsStatic t.tokens = false) := by
  refine .bind_any fun trees => .bind (.group (insideParens_yields reads)) fun read inside => ?_
  split
  next first =>
    refine .bind (moreBounds_yields reads false _) fun (rest, trailing) each => ?_
    refine .pure ⟨?_, fun _ => ?_⟩
    · exact object_legible (List.forall_mem_cons.mpr ⟨inside.1, each⟩)
    · exact startsStatic_object inside.2
  next inner =>
    split
    next first turns =>
      refine .bind_any fun _ => .ite (fun plus => ?_) fun _ => .pure ⟨inside.1, fun _ => rfl⟩
      have legible := parenBound?_legible turns (inside.1.child List.mem_cons_self)
      refine .bind (moreBounds_yields reads false _) fun (rest, trailing) each =>
        .pure ⟨object_legible (List.forall_mem_cons.mpr ⟨legible, each⟩), fun none_ => ?_⟩
      rw [none_, Bool.false_and] at plus
      cases plus
    next => exact .pure ⟨inside.1, fun _ => rfl⟩
  next t _ => exact .pure ⟨inside.1, fun _ => inside.2⟩

/-- A parameter of a function type is legible. -/
theorem fnParam_yields (attrs : List Token) (first : Bool) :
    (fnParam g attrs first).Yields fun p => (TypeNode.param p).Legible := by
  have plain (name : Option String) (tokens : List Token) :
      (TypeNode.param (.mk attrs name (.other tokens))).Legible :=
    .of_children trivial (List.forall_mem_singleton.mpr (.of_leaf trivial rfl))
  have typed (name : Option String) {t : Ty} (legible : (TypeNode.ty t).Legible) :
      (TypeNode.param (.mk attrs name t)).Legible :=
    .of_children trivial (List.forall_mem_singleton.mpr legible)
  refine .bind_any fun before => .bind_any fun _ => .ite (fun _ => ?_) fun _ => ?_
  · refine .bind_any fun _ => .bind_any fun _ => .bind_any fun _ => .ite (fun _ => ?_) fun _ => ?_
    · exact .bind_any fun _ => .bind_any fun _ => .bind_any fun tokens => .pure (plain _ tokens)
    · exact .bind_any fun tokens => .pure (plain _ tokens)
  refine .bind_any fun _ => .ite (fun _ => ?_) fun _ => ?_
  · refine .bind_any fun name => .bind_any fun _ => .bind_any fun _ => .ite (fun _ => ?_) fun _ => ?_
    · exact .bind_any fun _ => .bind_any fun _ => .bind_any fun tokens => .pure (plain _ tokens)
    · exact .bind (reads.ty true) fun t legible => .pure (typed _ legible)
  · exact .bind (reads.ty true) fun t legible => .pure (typed _ legible)

/-- Parameters of a function type are legible, and what is variadic comes last. -/
theorem fnParamsFrom_yields (first : Bool) (rounds : Nat) :
    (fnParamsFrom g first rounds).Yields fun read =>
      (∀ p ∈ read.1, (TypeNode.param p).Legible) ∧ (read.2.1 = true ∨ read.2.2 = []) := by
  induction rounds generalizing first with
  | zero => exact .fail
  | succ rounds ih =>
      refine .bind_any fun _ => .ite (fun _ => .pure ⟨by simp, .inl rfl⟩) fun _ => ?_
      refine .bind_any fun attrs => .bind_any fun _ => .ite (fun _ => ?_) fun _ => ?_
      · exact .bind_any fun last => .bind_any fun comma => .pure ⟨by simp, .inl rfl⟩
      · refine .bind (fnParam_yields reads _ first) fun p legible => ?_
        refine .bind_any fun _ => .ite (fun _ => .pure ⟨by simpa using legible, .inr rfl⟩) fun _ => ?_
        refine .bind_any fun _ => .bind (ih false) fun (rest, trailing, last) read => ?_
        exact .pure ⟨List.forall_mem_cons.mpr ⟨legible, read.1⟩, read.2⟩

/-- A function type is legible, and begins with a word. -/
theorem fnPointer_yields (binder : Option Binder) :
    (fnPointer g binder).Yields fun t =>
      (TypeNode.ty t).Legible ∧ Token.startsStatic t.tokens = false := by
  refine .bind_any fun isUnsafe => .bind_any fun abi => .bind_any fun _ => ?_
  refine .bind (.group (.bind_any fun trees => fnParamsFrom_yields reads true _))
    fun (params, trailing, last) read => ?_
  refine .bind (output?_yields reads false) fun output returned =>
    .pure ⟨.of_children read.2 ?_, startsStatic_fnPointer ..⟩
  exact List.forall_mem_append.mpr
    ⟨List.forall_mem_map.mpr read.1, TypeNode.legible_output returned⟩

/-- A type that begins with a path is legible, also if bounds follow. -/
theorem pathType_yields (allowPlus : Bool) (binder : Option Binder) :
    (pathType g allowPlus binder).Yields fun t =>
      (TypeNode.ty t).Legible ∧ Token.startsStatic t.tokens = false := by
  refine .bind (qualifiedPath_yields reads false) fun t read => ?_
  split
  next p =>
    have legible := read.1.child List.mem_cons_self
    refine .bind_any fun _ => .ite (fun _ => ?_) fun _ => ?_
    · refine .bind_any fun _ => .bind_any fun tokens => .pure ⟨?_, ?_⟩
      · exact .of_children trivial (List.forall_mem_singleton.mpr legible)
      · exact (Token.startsStatic_append rfl).trans (startsStatic_path p)
    · refine .bind_any fun _ => .ite (fun _ => ?_) fun _ => .pure read
      refine .bind_as (fun read => ∀ b ∈ read.1, (TypeNode.bound b).Legible) ?_
        fun (rest, trailing) each => .pure ⟨?_, ?_⟩
      · refine .ite (fun _ => .bind_any fun trees => moreBounds_yields reads true _) fun _ => ?_
        exact .pure (by simp)
      · exact object_legible (List.forall_mem_cons.mpr ⟨traitBound_legible legible, each⟩)
      · exact startsStatic_object (startsStatic_traitBound ..)
  next => exact .pure read

/-- A type that begins with a word is legible, whatever the word stands for. -/
theorem namedType_yields (allowPlus : Bool) (before : Cursor) (binder : Option Binder) :
    (namedType g allowPlus before binder).Yields fun t => (TypeNode.ty t).Legible ∧
      (before.NoLifetime → Token.startsStatic t.tokens = false) := by
  refine .bind_any fun _ => .ite (fun _ => ?_) fun _ => ?_
  · exact (fnPointer_yields reads binder).mono fun t read => ⟨read.1, fun _ => read.2⟩
  refine .bind_any fun _ => .ite (fun _ => ?_) fun _ => ?_
  · refine .bind_any fun _ => .bind (written_yields before) fun tokens starts => .pure ?_
    exact ⟨.of_leaf trivial rfl, starts⟩
  · exact (pathType_yields reads allowPlus binder).mono fun t read => ⟨read.1, fun _ => read.2⟩

/-- The part of a reference after its sign. Without a lifetime and `mut`, the type stands where no
lifetime comes first. -/
theorem reference_yields :
    Yields (do
      let lifetime ← lifetime?
      let isMut ← keyword? "mut"
      return Ty.reference lifetime isMut (← g.ty false)) fun t => (TypeNode.ty t).Legible := by
  intro cursor t after read
  have taken : Meets (fun _ => True) lifetime? fun name cursor => name = none → cursor.NoLifetime :=
    .lifetime?
  obtain ⟨lifetime, afterLifetime, lifetimeRead, read⟩ := bind_eq_ok_iff.mp read
  obtain ⟨isMut, afterMut, mutRead, read⟩ := bind_eq_ok_iff.mp read
  obtain ⟨target, afterTarget, targetRead, read⟩ := bind_eq_ok_iff.mp read
  have legible := reads.ty false afterMut target afterTarget targetRead
  cases read
  refine .of_children ?_ (List.forall_mem_append.mpr ⟨?_, List.forall_mem_singleton.mpr legible⟩)
  · cases lifetime with
    | some name => trivial
    | none =>
        cases isMut with
        | true => trivial
        | false =>
            have absent : afterLifetime.NoLifetime := taken cursor _ _ trivial lifetimeRead rfl
            have stays : afterMut.NoLifetime := Meets.keyword? _ _ _ absent mutRead rfl
            exact reads.starts _ target _ stays targetRead
  · exact List.forall_mem_map.mpr fun name _ => .of_leaf trivial rfl

/-- **Types are legible.** Every type that is read has parts that can be told apart. -/
theorem ty_yields (allowPlus : Bool) :
    (ty g allowPlus).Yields fun t => (TypeNode.ty t).Legible := by
  have one {t : Ty} {node : TypeNode} (here : node.IsLegible)
      (children : node.children = [.ty t]) (legible : (TypeNode.ty t).Legible) : node.Legible :=
    .of_children here (children ▸ List.forall_mem_singleton.mpr legible)
  refine .bind_any fun before => .bind_any fun binder => .ite (fun _ => ?_) fun _ => ?_
  · refine .bind_any fun isNamed => .ite (fun _ => ?_) fun _ => .fail
    exact (namedType_yields reads allowPlus before binder).mono fun _ read => read.1
  refine .bind_any fun _ => .ite (fun _ => ?_) fun _ => ?_
  · exact (parenType_yields reads allowPlus).mono fun _ read => read.1
  refine .bind_any fun _ => .ite (fun _ => ?_) fun _ => ?_
  · exact (namedType_yields reads allowPlus before none).mono fun _ read => read.1
  refine .bind_any fun _ => .ite (fun _ => ?_) fun _ => ?_
  · refine .bind_any fun star => .bind (bounds_yields reads .object allowPlus before)
      fun (read, trailing) each => .ite (fun _ => ?_) fun _ => .pure (object_legible each)
    exact .bind_any fun tokens => .pure (.of_leaf trivial rfl)
  refine .bind_any fun _ => .ite (fun _ => .group ?_) fun _ => ?_
  · refine .bind (reads.ty true) fun element legible => ?_
    refine .bind_any fun _ => .ite (fun _ => ?_) fun _ => .pure (one trivial rfl legible)
    exact .bind_any fun length => .pure (one trivial rfl legible)
  refine .bind_any fun _ => .ite (fun _ => ?_) fun _ => ?_
  · refine .bind_any fun isMut => .when fun _ => ?_
    exact .bind (reads.ty false) fun t legible => .pure (one trivial rfl legible)
  refine .bind_any fun _ => .ite (fun _ => reference_yields reads) fun _ => ?_
  refine .bind_any fun _ => .ite (fun _ => .pure (.of_leaf trivial rfl)) fun _ => ?_
  refine .bind_any fun _ => .ite (fun _ => ?_) fun _ => ?_
  · refine .bind (bounds_yields reads .implTrait allowPlus before) fun (read, trailing) each => ?_
    exact .pure (.of_children trivial (List.forall_mem_map.mpr each))
  refine .bind_any fun _ => .ite (fun _ => .pure (.of_leaf trivial rfl)) fun _ => ?_
  refine .bind_any fun _ => .ite (fun _ => ?_) fun _ => .fail
  refine .bind (bounds_yields reads .object allowPlus before) fun (read, trailing) each => ?_
  exact .pure (object_legible each)

/-- Where no lifetime comes first, no type without bounds at its end starts with one. -/
theorem ty_starts :
    (ty g false).Meets Cursor.NoLifetime fun t _ => Token.startsStatic t.tokens = false := by
  intro cursor t after start read
  obtain ⟨before, same, got, read⟩ := bind_eq_ok_iff.mp read
  cases got
  have named (binder : Option Binder) : (namedType g false cursor binder).Yields
      fun t => Token.startsStatic t.tokens = false :=
    (namedType_yields reads false cursor binder).mono fun _ read => read.2 start
  refine (?_ : Meets Cursor.NoLifetime _ fun t _ => Token.startsStatic t.tokens = false)
    cursor t after start read
  refine .bind binder?_meets fun binder => .ite (fun _ => .of_yields ?_) fun isNone => ?_
  · exact .bind_any fun _ => .ite (fun _ => named binder) fun _ => .fail
  refine .weaken (fun _ stays => stays (by simpa using isNone)) ?_
  refine .bind_ite .stays ((parenType_yields reads false).mono fun _ read => read.2 rfl) ?_
  refine .bind_ite .stays (named none) ?_
  refine .bind_ite .keyword? ?_ ?_
  · refine .bind_any fun star => .bind_any fun (read, trailing) => .ite (fun _ => ?_) fun _ => ?_
    · exact .bind (written_yields cursor) fun tokens starts => .pure (starts start)
    · exact .pure rfl
  refine .bind_ite .stays (.group (.bind_any fun element => .bind_any fun _ => ?_)) ?_
  · exact .ite (fun _ => .bind_any fun _ => .pure rfl) fun _ => .pure rfl
  refine .bind_ite .op? (.bind_any fun isMut => .when fun _ => .bind_any fun _ => .pure rfl) ?_
  refine .bind_ite .op? (.bind_any fun _ => .bind_any fun _ => .bind_any fun _ => .pure rfl) ?_
  refine .bind_ite .op? (.pure rfl) ?_
  refine .bind_ite .keyword? (.bind_any fun (read, trailing) => .pure rfl) ?_
  refine .bind_ite .keyword? (.pure rfl) ?_
  refine .bind .looks fun found => .ite (fun isFound => ?_) fun _ => .fail
  rintro other t after ⟨absent, rfl⟩ -
  cases absent.symm.trans isFound

end Reads

end Parser

end VariantMerge
