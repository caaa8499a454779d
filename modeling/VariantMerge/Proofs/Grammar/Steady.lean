import VariantMerge.Proofs.Grammar.Finds
import VariantMerge.Proofs.Grammar.FunctionRuns
import VariantMerge.Proofs.Grammar.ObjectRuns
import VariantMerge.Proofs.Syntax.Normal

/-!
# Paths and bounds that are taken from a text

Some parts of a type are only kept as tokens. `TypeNode.Steady` says that these are read back by themselves
in a type and all its parts: its constants and what it passes to macros. Then so is the type: each part
that the grammar takes from a text is read back in the order in which it is written (`Ty.normal`). The proof
follows the grammar, of which each part is as good as the parts inside (`Grammar.TakesTypes`). Here are
bounds, arguments and paths.
-/

namespace VariantMerge

open VariantMerge.Parser

/-- All parameters are lifetimes without attributes. -/
def Binder.OverLifetimes (binder : Binder) : Prop :=
  ∀ tokens ∈ binder.params, Token.isLifetimeFirst tokens = true

/-- Whether a bound is relaxed by a question mark inside its parentheses. -/
def Bound.isRelaxed : Bound → Bool
  | .trait parens maybe _ _ => parens && maybe
  | _ => false

namespace TypeNode

/-- What a node keeps only as tokens is read back by itself. Lifetimes are all that it quantifies over, its
parameters have no attributes, and nothing in it is passed on as it was written. Bounds without a keyword
do not start with a relaxed one. -/
def IsSteady : TypeNode → Prop
  | ty (.array _ length) => Token.IsConstant length
  | ty (.fnPointer binder _ _ _ _ variadic _) =>
    (∀ b ∈ binder, b.OverLifetimes) ∧ variadic.head? ≠ some (.op "#")
  | ty (.object hasDyn bounds _) => hasDyn = false → ∀ first ∈ bounds.head?, first.isRelaxed = false
  | ty (.macroCall _ passed) =>
    ∃ delimiter inner, passed = .group delimiter inner ∧ Token.IsVerbatim inner
  | ty (.other _) => False
  | param (.mk attributes _ _) => attributes = []
  | generic (.const value) => Token.IsConstArgument value
  | generic (.assocConst _ _ value) => Token.IsConstArgument value
  | bound (.trait _ _ binder _) => ∀ b ∈ binder, b.OverLifetimes
  | bound (.other _) => False
  | _ => True

/-- The node and all parts of it are steady. -/
def Steady (node : TypeNode) : Prop :=
  ∀ inner, node.Contains inner → inner.IsSteady

namespace Steady

variable {node part : TypeNode}

/-- What is steady is so by itself. -/
theorem here (steady : node.Steady) : node.IsSteady :=
  steady node .refl

/-- What is steady has steady parts. -/
theorem child (steady : node.Steady) (listed : part ∈ node.children) : part.Steady :=
  fun inner below => steady inner (.head listed below)

/-- What is steady by itself and has steady parts is steady. -/
theorem of_children (here : node.IsSteady) (below : ∀ child ∈ node.children, child.Steady) :
    node.Steady := by
  intro inner part
  obtain rfl | ⟨child, listed, part⟩ := Relation.ReflTransGen.cases_head part
  · exact here
  · exact below child listed inner part

end Steady

end TypeNode

/-- What is known of a type that is taken from a text, with the trees before and after it. -/
structure Ty.Taken (plus : Bool) (before : List Tree) (t : Ty) (after : List Tree) : Prop where
  ends : t.trails = true → startsAnyWord after = false
  back : (TypeNode.ty t).Steady → t.normal.ReadsBack plus
  bare : (TypeNode.ty t).Steady → startsLifetime before = false →
    Token.isLifetimeFirst t.normal.tokens = false

/-- The types and paths inside that are taken from a text are read back, and so are the lifetimes that
something quantifies over. -/
structure Grammar.TakesTypes (g : Grammar) : Prop where
  ty : ∀ plus trees, Finds (fun ahead => ahead = trees) (g.ty plus) (Ty.Taken plus trees)
  path : Takes (g.path false) fun p => (TypeNode.path p).Steady → p.normal.ReadsBack
  param : Takes g.param fun param => Token.isLifetimeFirst param.tokens.2 = true →
    ∃ p : LifetimeParam, p.IsPlain ∧ param.tokens.2 = p.tokens

/-- What is known of bounds in a row that are taken from a text. -/
structure Bound.ListTaken (place : BoundPlace) (plus : Bool) (before : List Tree)
    (read : List Bound × Bool) (after : List Tree) : Prop where
  each : ∀ b ∈ read.1, (TypeNode.bound b).Steady → b.normal.ReadsBack place
  single : plus = false → read.2 = false ∧ ∃ b, read.1 = [b]
  ends : read.2 = true → startsAnyWord after = false
  first : startsLifetime before = true → ∃ name others, read.1 = .lifetime name :: others

namespace Parser

variable {g : Grammar} {pre : List Tree → Prop}

/-! ## Words and signs ahead -/

/-- Trees that begin with a word have it as their first one. -/
theorem startsWord_cases {text : String} {trees : List Tree} (starts : startsWord text trees = true) :
    ∃ line rest, trees = .ident line text :: rest := by
  unfold startsWord at starts
  split at starts
  next line name rest =>
    obtain rfl := beq_iff_eq.mp starts
    exact ⟨line, rest, rfl⟩
  next => cases starts

/-- Trees that begin with a group have it as their first one. -/
theorem startsGroup_cases {delimiter : Delimiter} {trees : List Tree}
    (starts : startsGroup delimiter trees = true) :
    ∃ line closeLine inner rest, trees = .group line closeLine delimiter inner :: rest := by
  unfold startsGroup at starts
  split at starts
  next line closeLine d inner rest =>
    obtain rfl := beq_iff_eq.mp starts
    exact ⟨line, closeLine, inner, rest, rfl⟩
  next => cases starts

/-! ## Parts that do not matter -/

/-- Attributes are read whatever they are. -/
theorem attributes_takes : Takes (attributes g) fun _ => True :=
  (Takes.many (.skip .op fun _ => .anyInside)).mono fun _ _ => trivial

/-- A constant is read whatever it is. -/
theorem constArgument_takes : Takes (constArgument g) fun _ => True := by
  have block_ : Takes (block g) fun _ => True := .skip .anyInside fun _ => .pure trivial
  refine .look fun _ => .ite (fun _ => Finds.literal) fun _ => ?_
  refine .look fun _ => .ite (fun _ => .skip .name fun _ => .pure trivial) fun _ => ?_
  exact .skip block_ fun _ => .pure trivial

/-- The marker of a trait that counts for constants comes before no question mark. -/
theorem constMarker?_finds {place : BoundPlace} : Finds pre (constMarker? place) fun found after =>
    (found = true → ∃ before, pre before ∧ startsOp "?" before = false) ∧ (found = false → pre after) := by
  refine .get fun before => .bind .looks fun isBracketed => .ite (fun yes => ?_) fun no => ?_
  · have told (trees : List Tree) (start : pre trees ∧ isBracketed = startsGroup .bracket trees) :
        ∃ before, pre before ∧ startsOp "?" before = false := by
      obtain ⟨line, closeLine, inner, rest, rfl⟩ := startsGroup_cases (start.2.symm.trans yes)
      exact ⟨_, start.1, rfl⟩
    refine .known _ told fun told => Takes.anyInside.then_find fun _ _ => ?_
    refine .bind_as (fun found _ => found = true) (.ite (fun _ => .pure fun _ _ => rfl) fun no =>
      absurd yes no) fun isMarked => .refuse_at fun _ => .pure fun _ marked => ?_
    subst marked
    exact ⟨fun _ => told, nofun⟩
  · refine .bind (.ite (fun yes => absurd yes no) fun _ => .keyword?) fun isMarked => ?_
    refine .refuse_at fun _ => .pure fun trees found => ⟨fun taken => ?_, fun absent =>
      (found.2 absent).1.1⟩
    obtain ⟨earlier, start, starts⟩ := found.1 taken
    obtain ⟨line, rest, rfl⟩ := startsWord_cases starts
    exact ⟨_, start.1, rfl⟩

/-! ## Captured parameters -/

/-- What is captured is a lifetime or a name. -/
theorem captured_takes : Takes (do
    if ← looks startsLifetime then return (true, [Token.lifetime (← lifetime)])
    else if ← looks (startsWord "Self") then return (false, [Token.word (← anyWord)])
    else return (false, [Token.word (← name)])) Bound.IsCaptured := by
  refine .look fun _ => .ite (fun _ => ?_) fun _ => ?_
  · exact Finds.bind Finds.lifetime fun name => .pure fun _ named => .inl ⟨name, rfl, named⟩
  refine Finds.bind Finds.looks fun isSelf => .ite (fun yes => ?_) fun _ => ?_
  · refine .bind .anyWord fun name => .pure ?_
    rintro _ ⟨named, line, rest, -, self⟩
    have same : name = "Self" := beq_iff_eq.mp (self.symm.trans yes)
    exact .inr ⟨name, rfl, named, .inl same⟩
  · exact .bind .name fun name => .pure fun _ found => .inr ⟨name, rfl, found.2.1, .inr found.1⟩

/-- What is captured is a list with commas. -/
theorem capture_takes : Takes capture fun b => ∃ params trailing, b = .capture params trailing ∧
    Takes.Listed Bound.IsCaptured (params, trailing) := by
  refine .skip .keyword fun _ => .skip .op fun _ => .bind (.sepUntil captured_takes) ?_
  rintro ⟨params, trailing⟩ listed
  exact .skip .op fun _ => .pure ⟨params, trailing, rfl, listed⟩

/-- It reads back with lifetimes first. -/
theorem capture_back {params : List (Bool × List Token)} {trailing : Bool}
    (listed : Takes.Listed Bound.IsCaptured (params, trailing)) :
    (Bound.capture params trailing).normal.ReadsBack .implTrait :=
  Bound.capture_readsBack (fun param among => listed.1 param (Token.mem_lifetimesBefore.mp among))
    (fun nothing => Token.endsWithComma_of_empty listed.2 (Token.lifetimesBefore_eq_nil_iff.mp nothing))
    (Token.lifetimesFirst_ordered _ _)

/-! ## Calls at the end of a path -/

/-- A segment without arguments is steady. -/
theorem steady_segment {name : String} {a : Arguments} (empty : a.isEmpty = true) :
    (TypeNode.segment (.mk name a)).Steady := by
  refine .of_children trivial (List.forall_mem_singleton.mpr ?_)
  cases a with
  | none => exact .of_children trivial nofun
  | angle turbofish each trailing =>
      obtain rfl := List.isEmpty_iff.mp empty
      exact .of_children trivial nofun
  | paren inputs trailing output => cases empty

/-- The path of a bound that goes on with the arguments of a call. -/
theorem withArguments_isTrait {p : Path} {inputs : List Ty} {trailing : Bool} {output : Option Ty}
    (back : (TypeNode.path p).Steady → p.normal.ReadsBack)
    (callable : p.segments.getLast?.any (·.arguments.isEmpty) = true)
    (calls : (TypeNode.arguments (.paren inputs trailing output)).Steady →
      Arguments.Calls (typesNormal inputs) trailing (outputNormal output))
    (steady : (TypeNode.path (p.withArguments (.paren inputs trailing output))).Steady) :
    (p.withArguments (.paren inputs trailing output)).normal.IsTrait := by
  obtain ⟨leading, segments⟩ := p
  obtain ⟨⟨name, a⟩, last, empty⟩ := (Option.any_eq_true _ _).mp callable
  obtain ⟨front, rfl⟩ := List.getLast?_eq_some_iff.mp last
  have whole : (Path.mk leading (front ++ [.mk name a])).withArguments (.paren inputs trailing output) =
      .mk leading (front ++ [.mk name (.paren inputs trailing output)]) := by
    simp [Path.withArguments, Segment.name]
  rw [whole] at steady ⊢
  have each (s : Segment) (listed : s ∈ front) : (TypeNode.segment s).Steady :=
    steady.child (List.mem_map_of_mem (List.mem_append_left _ listed))
  have called : (TypeNode.arguments (.paren inputs trailing output)).Steady :=
    (steady.child (List.mem_map_of_mem (List.mem_append_right _ List.mem_cons_self))).child
      List.mem_cons_self
  have before := back (.of_children trivial (List.forall_mem_map.mpr (List.forall_mem_append.mpr
    ⟨each, List.forall_mem_singleton.mpr (steady_segment empty)⟩)))
  have normal (a : Arguments) : (Path.mk leading (front ++ [.mk name a])).normal =
      .mk leading (front.map Segment.normal ++ [.mk name a.normal]) := by
    rw [Path.normal, segmentsNormal_eq_map, List.map_append]
    rfl
  rw [normal] at before ⊢
  refine .call ⟨by simp [Path.segments], ?_⟩ (calls called)
  refine List.forall_mem_append.mpr ⟨fun s listed => before.each s (List.mem_append_left _ listed),
    List.forall_mem_singleton.mpr ⟨?_, trivial⟩⟩
  have named := (before.each (.mk name a.normal) (List.mem_append_right _ List.mem_cons_self)).1
  exact ⟨named.named, named.allowed.imp_left fun keyword => ⟨keyword.1, rfl⟩⟩

section Takes

variable (reads : g.TakesTypes)

include reads

/-! ## What quantifies over lifetimes, and results -/

/-- Types inside a type read back in order. -/
theorem ty_takes (plus : Bool) :
    Takes (g.ty plus) fun t => (TypeNode.ty t).Steady → t.normal.ReadsBack plus :=
  Finds.each fun trees _ => (reads.ty plus trees).mono fun _ _ taken => taken.back

/-- A binder reads back if it binds lifetimes, and where there is none, nothing was read. -/
theorem binder?_finds : Finds pre (binder? g) fun found after =>
    (∀ b ∈ found, b.OverLifetimes → b.ReadsBack) ∧
      (found.isSome = true → ∃ before, pre before ∧ startsWord "for" before = true) ∧
        (found = none → pre after) := by
  refine .bind .keyword? fun found => .ite (fun taken => ?_) fun absent => ?_
  · have param : Takes (do return (← g.param).tokens.2) fun tokens =>
        Token.isLifetimeFirst tokens = true → ∃ p : LifetimeParam, p.IsPlain ∧ tokens = p.tokens :=
      .bind reads.param fun _ found => .pure found
    refine .known _ (fun _ start => start.1 taken) fun starts => Takes.op.then_find fun _ _ => ?_
    refine (Takes.sepUntil param).then_find ?_
    rintro ⟨params, trailing⟩ ⟨each, empty⟩
    refine Takes.op.then_find fun _ _ => .pure fun _ _ => ⟨?_, fun _ => starts, nofun⟩
    rintro _ ⟨rfl⟩ lifetimes
    exact ⟨fun tokens listed => each tokens listed (lifetimes tokens listed), empty⟩
  · exact .pure fun _ start => ⟨nofun, nofun, fun _ => (start.2 (Bool.eq_false_iff.mpr absent)).1⟩

/-- A result type reads back in order. -/
theorem output?_takes : Takes (output? g false) fun output =>
    (∀ t ∈ output, (TypeNode.ty t).Steady) → ∀ t ∈ outputNormal output, t.ReadsBack false := by
  refine .skip .op? fun _ => .ite (fun _ => ?_) fun _ => .pure fun _ _ => nofun
  refine .bind (ty_takes reads false) fun t back => .pure ?_
  rintro steady _ ⟨rfl⟩
  exact back (steady t rfl)

/-- Arguments in parentheses read back in order. -/
theorem parenArguments_takes : Takes (parenArguments g) fun a => ∃ inputs trailing output,
    a = .paren inputs trailing output ∧ ((TypeNode.arguments a).Steady →
      Arguments.Calls (typesNormal inputs) trailing (outputNormal output)) := by
  refine .bind (.group (.commaList (ty_takes reads true))) ?_
  rintro ⟨inputs, trailing⟩ ⟨each, empty⟩
  refine .bind (output?_takes reads) fun output returned =>
    .pure ⟨inputs, trailing, output, rfl, fun steady => ⟨?_, ?_, ?_⟩⟩
  · rw [typesNormal_eq_map]
    exact List.forall_mem_map.mpr fun t listed => each t listed
      (steady.child (List.mem_append_left _ (List.mem_map_of_mem listed)))
  · rw [typesNormal_eq_map, List.map_eq_nil_iff]
    exact empty
  · exact returned fun t among => steady.child
      (List.mem_append_right _ (List.mem_map_of_mem (Option.mem_toList.mpr among)))

/-! ## Bounds -/

/-- What quantifies over lifetimes is absent where a question mark is ahead. -/
theorem binder?_passes (trees : List Tree) :
    Finds (fun ahead => ahead = trees) (binder? g) fun binder after =>
      (∀ b ∈ binder, b.OverLifetimes → b.ReadsBack) ∧ (startsOp "?" trees = true → after = trees) := by
  refine (binder?_finds reads).mono fun binder after found => ⟨found.1, fun asks => found.2.2 ?_⟩
  cases binder with
  | none => rfl
  | some b =>
      obtain ⟨before, rfl, starts⟩ := found.2.1 rfl
      obtain ⟨line, rest, rfl⟩ := startsWord_cases starts
      cases asks

omit reads in
/-- A sign is no marker, so it is still there. -/
theorem constMarker?_passes (place : BoundPlace) (trees : List Tree) :
    Finds (fun ahead => startsOp "?" trees = true → ahead = trees) (constMarker? place)
      fun _ after => startsOp "?" trees = true → after = trees := by
  refine constMarker?_finds.mono fun isConst after found asks => ?_
  cases isConst with
  | true =>
      obtain ⟨before, same, absent⟩ := found.1 rfl
      rw [same asks, asks] at absent
      cases absent
  | false => exact found.2 rfl asks

omit reads in
/-- A sign that was ahead is found. -/
theorem questionMark_found (trees : List Tree) :
    Finds (fun ahead => startsOp "?" trees = true → ahead = trees) (op? "?") fun maybe _ =>
      startsOp "?" trees = true → maybe = true := by
  refine Finds.op?.mono fun maybe after found asks => ?_
  cases maybe with
  | true => rfl
  | false =>
      obtain ⟨same, absent⟩ := found.2 rfl
      rw [same asks, asks] at absent
      cases absent

/-- A trait as a bound reads back in order, with its sign. -/
theorem traitBound_finds (place : BoundPlace) (parens : Bool) (trees : List Tree) :
    Finds (fun ahead => ahead = trees) (traitBound g place parens) fun read _ =>
      ∃ maybe binder p, read.2 = .trait parens maybe binder p ∧
        ((TypeNode.bound read.2).Steady → Bound.IsTraitBound maybe binder p.normal) ∧
          (startsOp "?" trees = true → maybe = true) := by
  -- A question mark stays ahead until it is taken.
  refine .bind (binder?_passes reads trees) fun binder => ?_
  refine .known _ (fun _ start => start.1) fun quantifies => .weaken (fun _ start => start.2) ?_
  refine .bind (constMarker?_passes place trees) fun isConst => .get fun atSign => ?_
  refine .bind (questionMark_found trees) fun maybe => .known _ (fun _ asks => asks) fun asks => ?_
  refine .weaken (fun _ _ => trivial) ?_
  have late_ : Takes (if (maybe && binder.isNone) = true then binder? g else pure none) fun _ => True :=
    .ite (fun _ => (binder?_finds reads).mono fun _ _ _ => trivial) fun _ => .pure trivial
  refine late_.then_find fun late _ => reads.path.then_find fun p back => ?_
  refine .bind_as (fun q _ => (TypeNode.path q).Steady → q.normal.IsTrait) (.bind .looks fun found =>
    .ite (fun goesOn => ?_) fun _ => .pure fun _ _ steady => .plain (back steady)) fun q => ?_
  · have callable := (Bool.and_eq_true_iff.mp goesOn).1
    refine Takes.op?.then_find fun _ _ => (parenArguments_takes reads).then_find ?_
    rintro _ ⟨inputs, trailing, output, rfl, calls⟩
    exact .pure fun _ _ => withArguments_isTrait back callable calls
  refine .refuse_at fun single => .pure fun _ isTrait => ⟨maybe, binder, q, rfl, fun steady => ?_, asks⟩
  refine ⟨isTrait (steady.child List.mem_cons_self), fun b among => quantifies b among
    (steady.here b among), fun relaxed => ?_⟩
  subst relaxed
  cases binder with
  | none => rfl
  | some b => exact absurd rfl single

/-- A bound reads back in order, and is a lifetime if one was ahead. -/
theorem bound_finds (place : BoundPlace) (trees : List Tree) :
    Finds (fun ahead => ahead = trees) (bound g place) fun b _ =>
      ((TypeNode.bound b).Steady → b.normal.ReadsBack place) ∧
        (startsLifetime trees = true → ∃ name, b = .lifetime name) := by
  refine .get fun before => .bind .looks fun isLifetime => .ite (fun _ => ?_) fun no => ?_
  · exact .bind .lifetime fun name => .pure fun _ named =>
      ⟨fun _ => Bound.lifetime_readsBack named, fun _ => ⟨name, rfl⟩⟩
  refine .known (startsLifetime trees = false) ?_ fun other => ?_
  · rintro _ ⟨rfl, found⟩
    exact found.symm.trans (Bool.eq_false_iff.mpr no)
  refine .mono (?_ : Finds _ _ fun b _ => (TypeNode.bound b).Steady → b.normal.ReadsBack place)
    fun b _ back => ⟨back, fun starts => ?_⟩
  · refine .weaken (fun _ _ => trivial) ?_
    refine Takes.look fun _ => .ite (fun _ => ?_) fun _ => ?_
    · refine .bind capture_takes ?_
      rintro _ ⟨params, trailing, rfl, listed⟩
      refine Finds.refuse_at fun admitted => Takes.pure fun _ => ?_
      have here : place = .implTrait := by simpa [BoundPlace.admitsCapture] using admitted
      rw [here]
      exact capture_back listed
    · have trait_ (parens : Bool) : Takes (traitBound g place parens) fun read =>
          (TypeNode.bound read.2).Steady → read.2.normal.ReadsBack place := by
        refine Finds.each fun trees _ => (traitBound_finds reads place parens trees).mono ?_
        rintro ⟨isConst, _⟩ _ ⟨maybe, binder, p, rfl, back, -⟩ steady
        exact Bound.trait_readsBack (back steady)
      refine Takes.bind (.look fun _ => .ite (fun _ => .group (trait_ true)) fun _ => trait_ false) ?_
      rintro ⟨isConst, b⟩ back
      exact .ite (fun _ => .skip Finds.written fun _ => .pure fun steady => steady.here.elim)
        fun _ => .pure back
  · rw [other] at starts
    cases starts

/-- Every bound reads back in order. -/
theorem bound_takes (place : BoundPlace) :
    Takes (bound g place) fun b => (TypeNode.bound b).Steady → b.normal.ReadsBack place :=
  Finds.each fun trees _ => (bound_finds reads place trees).mono fun _ _ found => found.1

/-! ## Lists of bounds -/

omit reads in
/-- Where no bound begins, there is no word. -/
theorem no_word_of_no_bound {place : BoundPlace} {trees : List Tree}
    (absent : startsBound place trees = false) : startsAnyWord trees = false := by
  simp only [startsBound, Bool.or_eq_false_iff] at absent
  exact absent.1.1.1.1.1

/-- Bounds read back in order, by induction on the rounds in which they are read. -/
theorem boundsFrom_finds (place : BoundPlace) (plus : Bool) (rounds : Nat) (trees : List Tree) :
    Finds (fun ahead => ahead = trees) (boundsFrom g place plus rounds)
      (Bound.ListTaken place plus trees) := by
  induction rounds generalizing trees with
  | zero => exact .fail
  | succ rounds ih =>
      refine .bind (bound_finds reads place trees) fun first => .known _ (fun _ found => found)
        fun found => .bind .looks fun ahead => .ite (fun goesOn => ?_) fun _ => .pure fun after _ => ?_
      · have plus_ := (Bool.and_eq_true_iff.mp goesOn).1
        refine Takes.op.then_find fun _ _ => .bind .looks fun another => .ite (fun _ => ?_) fun last => ?_
        · refine .bind_as (fun read after => (∀ b ∈ read.1, (TypeNode.bound b).Steady →
            b.normal.ReadsBack place) ∧ (read.2 = true → startsAnyWord after = false))
            (.each fun later _ => (ih later).mono fun _ _ taken => ⟨taken.each, taken.ends⟩) ?_
          rintro ⟨rest, trailing⟩
          refine .pure fun after others => ⟨List.forall_mem_cons.mpr ⟨found.1, others.1⟩, ?_, others.2, ?_⟩
          · rintro rfl
            cases plus_
          · exact fun starts => (found.2 starts).imp fun name same => ⟨rest, by rw [same]⟩
        · refine .pure fun after start => ⟨List.forall_mem_singleton.mpr found.1, ?_, fun _ => ?_, ?_⟩
          · rintro rfl
            cases plus_
          · exact no_word_of_no_bound (start.2.symm.trans (Bool.eq_false_iff.mpr last))
          · exact fun starts => (found.2 starts).imp fun name same => ⟨[], by rw [same]⟩
      · exact ⟨List.forall_mem_singleton.mpr found.1, fun _ => ⟨rfl, first, rfl⟩, nofun,
          fun starts => (found.2 starts).imp fun name same => ⟨[], by rw [same]⟩⟩

/-- Bounds read back in order, and one of them is a trait. -/
theorem bounds_finds (place : BoundPlace) (plus : Bool) (start : Cursor) (trees : List Tree) :
    Finds (fun ahead => ahead = trees) (bounds g place plus start) fun read after =>
      Bound.ListTaken place plus trees read after ∧ read.1.any Bound.isTrait = true := by
  refine .bind .ahead fun ahead => .weaken (fun _ start => start.1)
    (.bind (boundsFrom_finds reads place plus _ trees) ?_)
  rintro ⟨read, trailing⟩
  exact .refuse_at fun trait_ => .pure fun after taken => ⟨taken, by simpa using trait_⟩

/-- Bounds up to a stop read back in order. -/
theorem looseBounds_takes {stop : List Tree → Bool} : Takes (looseBounds g stop)
    (Takes.Listed fun b => (TypeNode.bound b).Steady → b.normal.ReadsBack .declaration) :=
  .sepWhile (bound_takes reads .declaration)

/-- Bounds behind a first one read back in order, and there are some where a plus was ahead. -/
theorem moreBounds_finds (loose : Bool) (rounds : Nat) (trees : List Tree) :
    Finds (fun ahead => ahead = trees) (moreBounds g loose rounds) fun read after =>
      (∀ b ∈ read.1, (TypeNode.bound b).Steady → b.normal.ReadsBack .object) ∧
        (loose = false → read.2 = false) ∧ (read.2 = true → startsAnyWord after = false) ∧
          (startsOp "+" trees = true → read.1 ≠ [] ∨ read.2 = true) := by
  induction rounds generalizing trees with
  | zero => exact .fail
  | succ rounds ih =>
      refine .bind .op? fun found => .ite (fun _ => .weaken (fun _ _ => trivial) ?_) fun absent => ?_
      · refine .bind .looks fun another => .ite (fun last => ?_) fun _ => ?_
        · obtain ⟨isLoose, none_⟩ := Bool.and_eq_true_iff.mp last
          refine .pure fun after start => ⟨nofun, ?_, fun _ => ?_, fun _ => .inr rfl⟩
          · rintro rfl
            cases isLoose
          · exact no_word_of_no_bound (start.2.symm.trans (by simpa using none_))
        · refine (bound_takes reads .object).then_find fun next back => .bind_as (fun read after =>
            (∀ b ∈ read.1, (TypeNode.bound b).Steady → b.normal.ReadsBack .object) ∧
              (loose = false → read.2 = false) ∧ (read.2 = true → startsAnyWord after = false))
            (.each fun later _ => (ih later).mono fun _ _ found => ⟨found.1, found.2.1, found.2.2.1⟩) ?_
          rintro ⟨rest, trailing⟩
          exact .pure fun after others => ⟨List.forall_mem_cons.mpr ⟨back, others.1⟩, others.2.1,
            others.2.2, fun _ => .inl nofun⟩
      · refine .pure fun after start => ⟨nofun, fun _ => rfl, nofun, fun starts => ?_⟩
        obtain ⟨rfl, none_⟩ := start.2 (Bool.eq_false_iff.mpr absent)
        rw [starts] at none_
        cases none_

end Takes

end Parser

end VariantMerge
