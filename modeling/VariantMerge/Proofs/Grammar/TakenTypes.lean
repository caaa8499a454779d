import VariantMerge.Proofs.Grammar.TakenPaths

/-!
# Types that are taken from a text

Every steady type that the grammar takes from a text is read back in the order in which it is written
(`Parser.upTo_takes`). There is one lemma for each part of the grammar, and the induction is on its depth.
-/

namespace VariantMerge

open VariantMerge.Parser

namespace Ty

/-- Putting a type in order does not change whether bounds may follow it. -/
theorem trails_normal (t : Ty) : t.normal.trails = t.trails := by
  cases t <;> rfl

/-- A type that is read back wherever it stands. -/
theorem Taken.of_any {t : Ty} {plus : Bool} {before after : List Tree} (closed : t.trails = false)
    (back : (TypeNode.ty t).Steady → ∀ plus, t.normal.ReadsBack plus) : t.Taken plus before after where
  ends := fun trails => by
    rw [closed] at trails
    cases trails
  back := fun steady => back steady plus
  bare := fun steady _ => (back steady false).bare rfl

/-- Of a type that is not steady nothing has to be shown. -/
theorem Taken.of_unsteady {t : Ty} {plus : Bool} {before after : List Tree} (closed : t.trails = false)
    (unsteady : ¬ (TypeNode.ty t).Steady) : t.Taken plus before after :=
  .of_any closed fun steady => absurd steady unsteady

end Ty

/-- Putting a path in order does not change whether it is plain. -/
theorem Path.isPlain_normal (p : Path) : p.normal.isPlain = p.isPlain := by
  obtain ⟨leading, segments⟩ := p
  rw [Path.normal, Path.isPlain, Path.isPlain, segmentsNormal_eq_map, Path.segments, Path.segments,
    List.all_map]
  congr 1
  funext s
  obtain ⟨name, a⟩ := s
  cases a <;> rfl

/-! ## Types that are bounds -/

namespace Bound

/-- Putting a bound in order does not change what it is. -/
theorem isTrait_normal (b : Bound) : b.normal.isTrait = b.isTrait := by
  cases b <;> rfl

variable {place : BoundPlace} {bounds : List Bound}

/-- There is a trait among bounds in order if there was one before. -/
theorem any_isTrait_normal : (boundsNormal bounds).any isTrait = bounds.any isTrait := by
  rw [boundsNormal_eq_map, List.any_map]
  exact congrArg (List.any bounds) (funext isTrait_normal)

/-- Steady bounds read back in order. -/
theorem normal_readsBack (each : ∀ b ∈ bounds, (TypeNode.bound b).Steady → b.normal.ReadsBack place)
    (steady : ∀ b ∈ bounds, (TypeNode.bound b).Steady) :
    ∀ b ∈ boundsNormal bounds, b.ReadsBack place := by
  rw [boundsNormal_eq_map]
  exact List.forall_mem_map.mpr fun b listed => each b listed (steady b listed)

variable {plus : Bool} {before after trees : List Tree} {read : List Bound} {trailing : Bool}

/-- Where no plus may follow, there is one bound. -/
theorem ListTaken.single_normal (taken : ListTaken place plus before (read, trailing) after)
    (none_ : plus = false) : trailing = false ∧ ∃ b, boundsNormal read = [b] := by
  obtain ⟨closed, b, same⟩ := taken.single none_
  refine ⟨closed, b.normal, ?_⟩
  change read = [b] at same
  rw [same]
  rfl

/-- Bounds behind a keyword are a trait object. -/
theorem ListTaken.dyn (taken : ListTaken .object plus before (read, trailing) after)
    (trait_ : read.any isTrait = true) : (Ty.object true read trailing).Taken plus trees after where
  ends := taken.ends
  back := fun steady => Ty.dyn_readsBack (normal_readsBack taken.each fun _ listed =>
    steady.child (List.mem_map_of_mem listed)) (any_isTrait_normal.trans trait_) taken.single_normal
  bare := fun _ _ => rfl

/-- Bounds behind a keyword are what a type implements. -/
theorem ListTaken.implTrait (taken : ListTaken .implTrait plus before (read, trailing) after)
    (trait_ : read.any isTrait = true) : (Ty.implTrait read trailing).Taken plus trees after where
  ends := taken.ends
  back := fun steady => Ty.implTrait_readsBack (normal_readsBack taken.each fun _ listed =>
    steady.child (List.mem_map_of_mem listed)) (any_isTrait_normal.trans trait_) taken.single_normal
  bare := fun _ _ => rfl

/-- Bounds that start with a lifetime go on with others. -/
theorem ListTaken.lifetimeFirst (taken : ListTaken .object plus before (read, trailing) after)
    (trait_ : read.any isTrait = true) (starts : startsLifetime before = true) :
    plus = true ∧ ∃ name others, read = .lifetime name :: others ∧ others.any isTrait = true := by
  obtain ⟨name, others, same⟩ := taken.first starts
  change read = _ at same
  rw [same] at trait_
  refine ⟨?_, name, others, same, trait_⟩
  cases plus with
  | true => rfl
  | false =>
      obtain ⟨-, b, single⟩ := taken.single rfl
      rw [same] at single
      cases single
      cases trait_

/-- Bounds without a keyword are a trait object, if they begin with a lifetime. -/
theorem ListTaken.object (taken : ListTaken .object plus before (read, trailing) after)
    (trait_ : read.any isTrait = true) (starts : startsLifetime before = true) :
    (Ty.object false read trailing).Taken plus before after where
  ends := taken.ends
  back := fun steady => by
    have each := normal_readsBack taken.each fun b listed => steady.child (List.mem_map_of_mem listed)
    obtain ⟨rfl, name, others, rfl, others_⟩ := taken.lifetimeFirst trait_ starts
    exact Ty.lifetimeFirst_readsBack each (any_isTrait_normal.trans others_)
  bare := fun _ absent => by
    rw [starts] at absent
    cases absent

end Bound

namespace Parser

/-! ## Types in parentheses -/

/-- What parentheses at the front of a type hold, taken from a text. -/
def ParenType.Taken : ParenType → Prop
  | .ty t => t.trails = false ∧ ((TypeNode.ty t).Steady → ∀ plus, t.normal.ReadsBack plus) ∧
    ∀ inner first, t = .paren inner → parenBound? inner = some first → (TypeNode.ty inner).Steady →
      inner.normal.ReadsBack true ∧ Token.isLifetimeFirst inner.normal.tokens = false
  | .bound b => b.isRelaxed = true

/-- A type in parentheses that turns out to be a bound. -/
theorem parenBound?_normal {inner : Ty} {first : Bound} (turns : parenBound? inner = some first)
    (steady : (TypeNode.bound first).Steady) (strict : first.isRelaxed = false) :
    (TypeNode.ty inner).Steady ∧ (inner.normal.ReadsBack true →
      parenBound? inner.normal = some first.normal ∧
        first.normal.tokens = [.group .paren inner.normal.tokens]) := by
  unfold parenBound? at turns
  split at turns
  next p =>
    cases turns
    refine ⟨.of_children trivial (List.forall_mem_singleton.mpr (steady.child List.mem_cons_self)),
      fun _ => ⟨rfl, rfl⟩⟩
  next parens maybe binder p =>
    cases turns
    obtain rfl : maybe = false := strict
    refine ⟨.of_children ?_ (List.forall_mem_singleton.mpr (.of_children steady.here
      (List.forall_mem_singleton.mpr (steady.child List.mem_cons_self)))), fun back => ?_⟩
    · rintro - _ ⟨rfl⟩
      exact Bool.and_false _
    · have joined := back.joined
      cases parens with
      | true => cases joined
      | false => exact ⟨rfl, rfl⟩
  next name =>
    cases turns
    refine ⟨.of_children (by rintro - _ ⟨rfl⟩; rfl) (List.forall_mem_singleton.mpr steady), fun back => ?_⟩
    have joined := back.joined
    cases joined
  next tokens =>
    cases turns
    exact steady.here.elim
  next => cases turns

/-- A bound in parentheses, with the bounds that go on behind it. -/
theorem parenBound_goesOn {inner : Ty} {first : Bound} {rest : List Bound}
    (turns : parenBound? inner = some first)
    (back : (TypeNode.ty inner).Steady →
      inner.normal.ReadsBack true ∧ Token.isLifetimeFirst inner.normal.tokens = false)
    (each : ∀ b ∈ rest, (TypeNode.bound b).Steady → b.normal.ReadsBack .object) (some_ : rest ≠ [])
    (steady : (TypeNode.ty (.object false (first :: rest) false)).Steady) :
    (Ty.object false (first :: rest) false).normal.ReadsBack true ∧
      Token.isLifetimeFirst (Ty.object false (first :: rest) false).normal.tokens = false := by
  have steady_ (b : Bound) (listed : b ∈ first :: rest) : (TypeNode.bound b).Steady :=
    steady.child (List.mem_map_of_mem listed)
  obtain ⟨innerSteady, normal⟩ := parenBound?_normal turns (steady_ first List.mem_cons_self)
    (steady.here rfl first rfl)
  obtain ⟨innerBack, bare⟩ := back innerSteady
  obtain ⟨turns_, same⟩ := normal innerBack
  have others := Bound.normal_readsBack each fun b listed =>
    steady_ b (List.mem_cons_of_mem _ listed)
  have some' : boundsNormal rest ≠ [] := by
    rw [boundsNormal_eq_map]
    exact fun nothing => some_ (List.map_eq_nil_iff.mp nothing)
  rw [Ty.normal, boundsNormal]
  refine ⟨Ty.parenBound_readsBack innerBack bare turns_ same others some', ?_⟩
  rw [Ty.tokens, Bound.tokens_list, same]
  rfl

section Takes

variable {g : Grammar} (reads : g.TakesTypes)

include reads

/-- What stands in parentheses reads back in order. -/
theorem insideParens_takes : Takes (insideParens g) ParenType.Taken := by
  refine .look fun _ => .ite (fun _ => .pure ⟨rfl, fun _ _ => Ty.tuple_nil_readsBack, nofun⟩) fun _ => ?_
  refine Finds.bind Finds.looks fun isLifetime => .ite (fun yes => ?_) fun no => ?_
  · refine .each fun trees start => .get fun place => .bind (bounds_finds reads .object true place trees) ?_
    rintro ⟨read, trailing⟩
    refine .pure fun after found => ?_
    have starts : startsLifetime trees = true := start.2.symm.trans yes
    obtain ⟨-, name, others, rfl, others_⟩ := found.1.lifetimeFirst found.2 starts
    refine ⟨rfl, fun steady plus => ?_, ?_⟩
    · have each := Bound.normal_readsBack found.1.each fun b listed =>
        (steady.child List.mem_cons_self).child (List.mem_map_of_mem listed)
      exact Ty.paren_bounds_readsBack each (Bound.any_isTrait_normal.trans others_)
    · rintro _ first ⟨rfl⟩ turns
      cases others with
      | nil => cases others_
      | cons second others => cases turns
  refine .bind .looks fun isRelaxed => .ite (fun yes => ?_) fun _ => ?_
  · refine .each fun trees start => .bind (traitBound_finds reads .object true trees) ?_
    rintro ⟨isConst, _⟩
    refine .pure fun _ found => ?_
    obtain ⟨maybe, binder, p, rfl, -, asks⟩ := found
    exact asks (start.2.symm.trans yes)
  refine .each fun trees start => .bind (reads.ty true trees) fun first => ?_
  have absent : startsLifetime trees = false := start.1.2.symm.trans (Bool.eq_false_iff.mpr no)
  refine .known ((TypeNode.ty first).Steady → first.normal.ReadsBack true ∧
    Token.isLifetimeFirst first.normal.tokens = false)
    (fun _ taken steady => ⟨taken.back steady, taken.bare steady absent⟩) fun back => ?_
  refine .weaken (fun _ _ => trivial) (Takes.skip .op? fun _ => .ite (fun _ => ?_) fun _ => ?_)
  · refine .bind (.commaList (ty_takes reads true)) ?_
    rintro ⟨rest, trailing⟩ ⟨each, empty⟩
    refine .pure ⟨rfl, fun steady plus => ?_, nofun⟩
    have steady_ (t : Ty) (listed : t ∈ first :: rest) : (TypeNode.ty t).Steady :=
      steady.child (List.mem_map_of_mem listed)
    rw [Ty.normal, typesNormal_eq_map]
    obtain ⟨firstBack, bare⟩ := back (steady_ first List.mem_cons_self)
    refine Ty.tuple_readsBack (List.forall_mem_cons.mpr ⟨firstBack, List.forall_mem_map.mpr
      fun t listed => each t listed (steady_ t (List.mem_cons_of_mem _ listed))⟩) bare ?_
    exact fun nothing => empty (List.map_eq_nil_iff.mp nothing)
  · refine .pure ⟨rfl, fun steady plus => ?_, ?_⟩
    · have inner := back (steady.child List.mem_cons_self)
      exact Ty.paren_readsBack inner.1 inner.2
    · rintro _ b ⟨rfl⟩ - steady
      exact back steady

/-- A type in parentheses reads back in order, alone or with bounds behind it. -/
theorem parenType_takes (plus : Bool) (before : List Tree) :
    Finds (fun _ => True) (parenType g plus) (Ty.Taken plus before) := by
  refine .bind .ahead fun ahead => (Takes.group (insideParens_takes reads)).then_find fun read inside => ?_
  split
  next first =>
    refine .each fun trees _ => .bind (moreBounds_finds reads false _ trees) ?_
    rintro ⟨rest, trailing⟩
    refine .pure fun after found => .of_unsteady (found.2.1 rfl) fun steady => ?_
    have strict := steady.here rfl first rfl
    rw [show first.isRelaxed = true from inside] at strict
    cases strict
  next inner =>
    obtain ⟨closed, back, bound⟩ := inside
    have paren (after : List Tree) : (Ty.paren inner).Taken plus before after := .of_any closed back
    split
    next first turns =>
      refine .bind .looks fun found => .ite (fun goesOn => ?_) fun _ => .pure fun after _ => paren after
      obtain ⟨rfl, yes⟩ := Bool.and_eq_true_iff.mp goesOn
      refine .each fun trees start => .bind (moreBounds_finds reads false _ trees) ?_
      rintro ⟨rest, trailing⟩
      refine .pure fun after others => ?_
      obtain ⟨each, loose, -, more⟩ := others
      obtain rfl : trailing = false := loose rfl
      have some_ : rest ≠ [] := (more (start.2.symm.trans yes)).resolve_right nofun
      have back_ := parenBound_goesOn turns (bound inner first rfl turns) each some_
      exact ⟨nofun, fun steady => (back_ steady).1, fun steady _ => (back_ steady).2⟩
    next => exact .pure fun after _ => paren after
  next t _ => exact .pure fun after _ => .of_any inside.1 inside.2.1

/-! ## Function types -/

/-- A parameter of a function type reads back in order. -/
theorem fnParam_takes (attrs : List Token) (first : Bool) :
    Takes (fnParam g attrs first) fun p => (TypeNode.param p).Steady → p.normal.ReadsBack first := by
  have unsteady (name : Option String) (tokens : List Token)
      (steady : (TypeNode.param (.mk attrs name (.other tokens))).Steady) : False :=
    (steady.child List.mem_cons_self).here
  refine .get fun before => Takes.look fun _ => .ite (fun _ => ?_) fun _ => ?_
  · refine .skip .keyword fun _ => .skip .keyword fun _ => .look fun _ => .ite (fun _ => ?_) fun _ => ?_
    · exact .skip .op fun _ => .skip (ty_takes reads true) fun _ => .skip Finds.written fun tokens =>
        .pure fun steady => (unsteady _ tokens steady).elim
    · exact .skip Finds.written fun tokens => .pure fun steady => (unsteady _ tokens steady).elim
  refine Finds.bind Finds.looks fun named => .ite (fun yes => ?_) fun _ => ?_
  · refine .bind .anyWord fun name => .known _ (fun _ found => found) fun found => ?_
    refine .weaken (fun _ _ => trivial) (Takes.skip .op fun _ => .look fun _ => .ite (fun _ => ?_)
      fun _ => ?_)
    · exact .skip .keyword fun _ => .skip .keyword fun _ => .skip Finds.written fun tokens =>
        .pure fun steady => (unsteady _ tokens steady).elim
    · refine .bind (ty_takes reads true) fun t back => .pure fun steady => ?_
      refine ⟨steady.here, back (steady.child List.mem_cons_self), ?_⟩
      obtain ⟨isName, line, rest, -, ahead⟩ := found
      rintro _ ⟨rfl⟩
      exact ⟨isName, (Bool.and_eq_true_iff.mp (ahead.symm.trans yes)).1⟩
  · refine .weaken (fun _ _ => trivial) (Takes.bind (ty_takes reads true) fun t back =>
      .pure fun steady => ?_)
    exact ⟨steady.here, back (steady.child List.mem_cons_self), nofun⟩

omit reads in
/-- Dots are taken with the name before them. -/
theorem variadic_finds : Finds (fun ahead => startsVariadic ahead = true) variadic fun tokens _ =>
    ∃ name : Option String, (∀ comma : Bool, tokens ++ (if comma then [.op ","] else []) =
      Token.dots name comma) ∧ ∀ n ∈ name, Token.isName n = true ∧ (!keywords.contains n || n == "_") = true := by
  refine .bind .op? fun dots => .ite (fun _ => .pure fun _ _ => ⟨none, fun _ => rfl, nofun⟩) fun no => ?_
  refine .bind .anyWord fun name => .known _ (fun _ found => found) fun found => .weaken
    (fun _ _ => trivial) (Takes.skip .op fun _ => .skip .op fun _ => .pure ⟨some name, fun _ => rfl, ?_⟩)
  obtain ⟨named, line, rest, -, absent⟩ := found
  obtain ⟨starts, none_⟩ := absent (Bool.eq_false_iff.mpr no)
  rw [startsVariadic, none_, Bool.false_or, Bool.and_assoc] at starts
  rintro _ ⟨rfl⟩
  exact ⟨named, (Bool.and_eq_true_iff.mp starts).1⟩

omit reads in
/-- Attributes begin with their sign, if there are any. -/
theorem outerTokens_cases (attrs : List Attribute) : Attribute.outerTokens attrs = [] ∨
    ∃ more, Attribute.outerTokens attrs = .op "#" :: more := by
  rw [Attribute.outerTokens]
  cases attrs.filter (!·.inner) with
  | nil => exact .inl rfl
  | cons first others => exact .inr ⟨_, rfl⟩

/-- Parameters read back in order, by induction on the rounds in which they are read. -/
theorem fnParamsFrom_takes (first : Bool) (rounds : Nat) :
    Takes (fnParamsFrom g first rounds) fun read =>
      ((∀ p ∈ read.1, (TypeNode.param p).Steady) → FnParam.AllReadBack first (paramsNormal read.1)) ∧
        (read.2.2.head? ≠ some (.op "#") → Token.IsVariadic read.2.2) ∧
          (read.1 = [] → read.2.1 = true) ∧ (read.2.1 = false → read.2.2 = []) := by
  induction rounds generalizing first with
  | zero => exact .fail
  | succ rounds ih =>
      refine .look fun _ => .ite (fun _ => .pure ⟨fun _ => trivial, fun _ => .inl rfl, fun _ => rfl,
        nofun⟩) fun _ => ?_
      refine .skip attributes_takes fun attrs => Finds.bind Finds.looks fun dots => .ite (fun yes => ?_)
        fun _ => .weaken (fun _ _ => trivial) ?_
      · refine .bind (.weaken (fun _ found => found.2.symm.trans yes) variadic_finds) fun last =>
          .known _ (fun _ found => found) fun found => .weaken (fun _ _ => trivial) ?_
        obtain ⟨name, same, names⟩ := found
        refine Takes.skip .op? fun comma => .pure ⟨fun _ => trivial, fun unmarked => ?_, fun _ => rfl, nofun⟩
        obtain none_ | ⟨more, marked⟩ := outerTokens_cases attrs
        · exact .inr ⟨name, comma, by rw [none_, List.nil_append, same comma], names⟩
        · exact absurd (by rw [marked]; rfl) unmarked
      · refine Takes.bind (fnParam_takes reads _ first) fun p back => .look fun _ => .ite (fun _ => ?_)
          fun _ => ?_
        · exact .pure ⟨fun steady => ⟨back (steady p List.mem_cons_self), trivial⟩, fun _ => .inl rfl,
            nofun, fun _ => rfl⟩
        · refine .skip .op fun _ => .bind (ih false) ?_
          rintro ⟨rest, trailing, last⟩ ⟨each, variadic, -, after⟩
          refine .pure ⟨fun steady => ?_, variadic, nofun, after⟩
          exact ⟨back (steady p List.mem_cons_self), each fun p listed =>
            steady p (List.mem_cons_of_mem _ listed)⟩

/-- A function type reads back in order. -/
theorem fnPointer_takes {binder : Option Binder} (quantifies : ∀ b ∈ binder, b.OverLifetimes → b.ReadsBack) :
    Takes (fnPointer g binder) fun t => t.trails = false ∧
      ((TypeNode.ty t).Steady → ∀ plus, t.normal.ReadsBack plus) := by
  have abi : Takes abi? fun abi => ∀ a ∈ abi, a.ReadsBack := by
    refine .skip .keyword? fun _ => .ite (fun _ => ?_) fun _ => .pure nofun
    refine Finds.bind Finds.stringLiteral? fun found => .pure fun _ quoted => ?_
    rintro _ ⟨rfl⟩ text among
    obtain ⟨was, head⟩ := quoted text among
    refine ⟨was.isLiteral fun c first digit => ?_, was.isName_eq_false, head⟩
    rw [Option.mem_def.mp first] at head
    have told : ('"'.isDigit || 'r'.isDigit) = false := by decide
    simp only [Option.some_beq_some, Bool.or_eq_true, beq_iff_eq] at head
    rcases head with rfl | rfl <;> cases digit
  refine .skip .keyword? fun isUnsafe => .bind abi fun abi convention => .skip .keyword fun _ => ?_
  refine .bind (.group (Finds.bind Finds.ahead fun trees => (fnParamsFrom_takes reads true _).finds)) ?_
  rintro ⟨params, trailing, last⟩ ⟨each, variadic, empty, after⟩
  refine .bind (output?_takes reads) fun output returned => .pure ⟨rfl, fun steady plus => ?_⟩
  obtain ⟨lifetimes, unmarked⟩ := steady.here
  have params_ := each fun p listed => steady.child (List.mem_append_left _ (List.mem_map_of_mem listed))
  refine Ty.fnPointer_readsBack (fun b among => quantifies b among (lifetimes b among)) convention params_
    (variadic unmarked) ?_ after (returned fun t among => steady.child
      (List.mem_append_right _ (List.mem_map_of_mem (Option.mem_toList.mpr among))))
  rw [paramsNormal_eq_map, List.map_eq_nil_iff]
  exact empty

/-! ## Types that start with a path -/

/-- A path, qualified or not, reads back in order, and what it begins with tells which one it is. -/
theorem qualifiedPath_finds (trees : List Tree) :
    Finds (fun ahead => ahead = trees) (qualifiedPath g false) fun t _ =>
      (∃ p, t = .path p ∧ ((TypeNode.path p).Steady → p.normal.ReadsBack) ∧ p.StartsAt trees ∧
        startsOp "<" trees = false) ∨
      ∃ self interface rest, t = .qualified self interface rest ∧
        ((TypeNode.ty t).Steady → ∀ plus, t.normal.ReadsBack plus) := by
  refine .bind .op? fun angle => .ite (fun _ => .weaken (fun _ _ => trivial) ?_) fun no => ?_
  · refine .bind_as (fun self after => ((TypeNode.ty self).Steady → self.normal.ReadsBack true) ∧
      (self.trails = true → startsAnyWord after = false)) (.each fun trees _ =>
        (reads.ty true trees).mono fun _ _ taken => ⟨taken.back, taken.ends⟩) fun self => ?_
    refine .known _ (fun _ found => found.1) fun back => .bind_as (fun interface _ => ∀ p ∈ interface,
      ((TypeNode.path p).Steady → p.normal.ReadsBack) ∧ self.trails = false) (.bind .keyword? fun found =>
        .ite (fun yes => ?_) fun _ => .pure fun _ _ => nofun) fun interface => ?_
    · refine .known _ (fun _ start => start.1 yes) fun starts => reads.path.then_find fun p pathBack =>
        .pure fun _ _ => ?_
      obtain ⟨before, ⟨-, ends⟩, starts⟩ := starts
      obtain ⟨line, rest, rfl⟩ := startsWord_cases starts
      rintro _ ⟨rfl⟩
      exact ⟨pathBack, Bool.eq_false_iff.mpr fun trails => nomatch ends trails⟩
    refine .known _ (fun _ through => through) fun through => .weaken (fun _ _ => trivial) ?_
    refine Takes.skip .op fun _ => .skip .op fun _ => .bind (segment_takes reads) fun first firstBack =>
      .bind (segments_takes reads _) fun rest each => .pure (.inr ⟨self, interface, _, rfl, ?_⟩)
    intro steady plus
    have names (s : Segment) (listed : s ∈ first :: rest) : (TypeNode.segment s).Steady :=
      steady.child (List.mem_cons_of_mem _ (List.mem_append_right _ (List.mem_map_of_mem listed)))
    rw [Ty.normal, segmentsNormal_eq_map]
    refine Ty.qualified_readsBack (back (steady.child List.mem_cons_self)) ?_
      (List.forall_mem_cons.mpr ⟨firstBack (names first List.mem_cons_self), List.forall_mem_map.mpr
        fun s listed => each s listed (names s (List.mem_cons_of_mem _ listed))⟩)
    cases interface with
    | none => nofun
    | some p =>
        rintro _ ⟨rfl⟩
        obtain ⟨pathBack, closed⟩ := through p rfl
        exact ⟨pathBack (steady.child (List.mem_cons_of_mem _ List.mem_cons_self)),
          (Ty.trails_normal self).trans closed⟩
  · have absent (ahead : List Tree) (start : (angle = true → ∃ before, before = trees ∧
        startsOp "<" before = true) ∧ (angle = false → ahead = trees ∧ startsOp "<" ahead = false)) :
        ahead = trees ∧ startsOp "<" trees = false := by
      obtain ⟨rfl, none_⟩ := start.2 (Bool.eq_false_iff.mpr no)
      exact ⟨rfl, none_⟩
    refine .known _ (fun ahead start => (absent ahead start).2) fun none_ => .weaken
      (fun ahead start => (absent ahead start).1) (.bind (path_finds reads trees) fun p =>
        .pure fun _ found => .inl ⟨p, rfl, found.1, found.2, none_⟩)

/-- A path that quantifies over lifetimes or goes on with other bounds is a bound itself. -/
theorem pathBounds_takes {plus : Bool} {binder : Option Binder} {p : Path} {trees : List Tree}
    {before : List Tree} (quantifies : ∀ b ∈ binder, b.OverLifetimes → b.ReadsBack)
    (front : (TypeNode.path p).Steady → p.normal.IsFront)
    (unled : binder.isSome = true → ∀ more, p.normal.tokens ≠ .op "::" :: more)
    (isBound : binder.isSome = true ∨ plus = true ∧ startsOp "+" trees = true) :
    Finds (fun ahead => ahead = trees) (do
      let (rest, trailing) ←
        (if plus then do moreBounds g true ((← ahead).length + 1) else pure ([], false))
      return Ty.object false (.trait false false binder p :: rest) trailing) (Ty.Taken plus before) := by
  refine .bind_as (fun read after => (∀ b ∈ read.1, (TypeNode.bound b).Steady → b.normal.ReadsBack
    .object) ∧ (plus = false → read.1 = [] ∧ read.2 = false) ∧
      (read.2 = true → startsAnyWord after = false) ∧
        (startsOp "+" trees = true → plus = true → read.1 ≠ [] ∨ read.2 = true)) ?_ ?_
  · refine .ite (fun yes => .bind .ahead fun ahead => .weaken (fun _ start => start.1)
      ((moreBounds_finds reads true _ trees).mono fun read after found => ?_)) fun no => .pure fun _ _ => ?_
    · exact ⟨found.1, fun none_ => absurd (yes.symm.trans none_) nofun, found.2.2.1,
        fun starts _ => found.2.2.2 starts⟩
    · exact ⟨nofun, fun _ => ⟨rfl, rfl⟩, nofun, fun _ yes => absurd yes no⟩
  rintro ⟨rest, trailing⟩
  refine .pure fun after found => ?_
  obtain ⟨each, single, ends, more⟩ := found
  have back (steady : (TypeNode.ty (.object false (.trait false false binder p :: rest) trailing)).Steady) :
      p.normal.IsFront ∧ (Ty.object false (.trait false false binder p :: rest) trailing).normal.ReadsBack
        plus := by
    have first : (TypeNode.bound (.trait false false binder p)).Steady := steady.child List.mem_cons_self
    have front_ := front (first.child List.mem_cons_self)
    have others := Bound.normal_readsBack each fun b listed =>
      steady.child (List.mem_cons_of_mem _ (List.mem_map_of_mem listed))
    have nothing : rest = [] → boundsNormal rest = [] := by
      rintro rfl
      rfl
    refine ⟨front_, ?_⟩
    rw [Ty.normal, boundsNormal, Bound.normal]
    cases binder with
    | none =>
        obtain ⟨rfl, starts⟩ := isBound.resolve_left nofun
        refine Ty.pathBound_readsBack front_ others ((more starts rfl).imp_left fun some_ none_ => some_ ?_)
        rwa [boundsNormal_eq_map, List.map_eq_nil_iff] at none_
    | some b =>
        exact Ty.quantified_readsBack (quantifies b rfl (first.here b rfl)) front_ (unled rfl) others
          fun none_ => (single none_).imp_left nothing
  refine ⟨ends, fun steady => (back steady).2, fun steady _ => ?_⟩
  rw [Ty.normal, boundsNormal, Bound.normal, Ty.tokens_pathBound]
  cases binder with
  | none => exact (back steady).1.bare _
  | some b => rfl

omit reads in
/-- A path does not start with a double colon where a name was ahead. -/
theorem no_colons_of_startsAt {p : Path} {trees : List Tree} (starts : p.StartsAt trees)
    (named : startsName trees = true ∨ startsPathKeyword trees = true) (more : List Token) :
    p.normal.tokens ≠ .op "::" :: more := by
  obtain ⟨segments, rfl, colons⟩ | ⟨name, a, others, line, rest, rfl, -⟩ := starts
  · have word : ∃ line name rest, trees = .ident line name :: rest := by
      obtain free | keyword := named
      · unfold startsName at free
        split at free
        next line name rest => exact ⟨line, name, rest, rfl⟩
        next => cases free
      · obtain ⟨word, -, same⟩ := List.any_eq_true.mp keyword
        obtain ⟨line, rest, rfl⟩ := startsWord_cases same
        exact ⟨line, word, rest, rfl⟩
    obtain ⟨line, name, rest, rfl⟩ := word
    cases colons
  · rw [Path.normal, segmentsNormal, Path.tokens_eq]
    nofun

/-- A type that begins with a path reads back in order, also if bounds follow. -/
theorem pathType_takes {plus : Bool} {binder : Option Binder} {trees before : List Tree}
    (quantifies : ∀ b ∈ binder, b.OverLifetimes → b.ReadsBack)
    (named : binder.isSome = true → startsName trees = true ∨ startsPathKeyword trees = true)
    (starts : startsPath trees = true) :
    Finds (fun ahead => ahead = trees) (pathType g plus binder) (Ty.Taken plus before) := by
  refine .bind (qualifiedPath_finds reads trees) fun t => .known _ (fun _ found => found) fun found =>
    .weaken (fun _ _ => trivial) ?_
  obtain ⟨p, rfl, back, startsAt, noAngle⟩ | ⟨self, interface, rest, rfl, back⟩ := found
  · have front (steady : (TypeNode.path p).Steady) : p.normal.IsFront := by
      refine isFront_of_startsAt (back steady) startsAt ?_
      simpa [startsPath, noAngle, or_assoc] using starts
    refine .bind .looks fun mark => .ite (fun macro_ => ?_) fun _ => .weaken (fun _ _ => trivial) ?_
    · refine .weaken (fun _ _ => trivial) (Takes.op.then_find fun _ _ => .bind .anyGroup fun passed =>
        .pure fun after _ => .of_any rfl fun steady plus => ?_)
      obtain ⟨delimiter, inner, rfl, kept⟩ := steady.here
      exact Ty.macroCall_readsBack (front (steady.child List.mem_cons_self))
        (p.isPlain_normal.trans (Bool.and_eq_true_iff.mp macro_).1) kept
    · refine .bind .looks fun another => .ite (fun isBound => ?_) fun _ => .pure fun after _ => ?_
      · refine .each fun trees start => pathBounds_takes reads quantifies front
          (fun some_ => no_colons_of_startsAt startsAt (named some_)) ?_
        rw [Bool.or_eq_true, Bool.and_eq_true] at isBound
        exact isBound.imp_right fun joined => joined.imp_right start.2.symm.trans
      · exact .of_any rfl fun steady plus => Ty.path_readsBack (front (steady.child List.mem_cons_self))
  · exact .pure fun after _ => .of_any rfl back

/-- A type that begins with a word or with a path reads back in order. -/
theorem namedType_takes {plus : Bool} {place : Cursor} {binder : Option Binder} {trees before : List Tree}
    (quantifies : ∀ b ∈ binder, b.OverLifetimes → b.ReadsBack)
    (named : binder.isSome = true → startsFnPointer trees = true ∨ startsName trees = true ∨
      startsPathKeyword trees = true)
    (starts : startsFnPointer trees = true ∨ startsPath trees = true) :
    Finds (fun ahead => ahead = trees) (namedType g plus place binder) (Ty.Taken plus before) := by
  refine .bind .looks fun isFn => .ite (fun _ => .weaken (fun _ _ => trivial) ?_) fun no => ?_
  · exact Finds.mono (fnPointer_takes reads quantifies) fun t after found => .of_any found.1 found.2
  refine .each fun later start => ?_
  obtain ⟨rfl, isFn_⟩ := start
  have noFn : ¬ startsFnPointer later = true := fun yes => no (isFn_.trans yes)
  refine .bind .looks fun isBuiltin => .ite (fun _ => .weaken (fun _ _ => trivial) ?_) fun _ => ?_
  · have builtin_ : Takes builtin fun _ => True := by
      refine .skip .keyword fun _ => .skip .op fun _ => .skip .name fun _ => .look fun _ =>
        .ite (fun _ => ?_) fun _ => .fail
      exact .skip (Finds.anyGroup.mono fun _ _ _ => trivial) fun _ => .pure trivial
    exact builtin_.then_find fun _ _ => .bind .written fun tokens => .pure fun _ _ =>
      .of_unsteady rfl fun steady => steady.here
  · exact .weaken (fun _ start => start.1) (pathType_takes reads quantifies
      (fun some_ => (named some_).resolve_left noFn) (starts.resolve_left noFn))

/-! ## Types -/

/-- A slice and an array read back in order. -/
theorem insideBrackets_meets : Meets (fun cursor => Tree.AllRead cursor.trees) (do
    let element ← g.ty true
    if ← op? ";" then
      return Ty.array element (← g.expr true)
    else return .slice element) fun t _ => t.trails = false ∧
      ((TypeNode.ty t).Steady → ∀ plus, t.normal.ReadsBack plus) := by
  intro cursor t last all ran
  obtain ⟨element, middle, read, ran⟩ := bind_eq_ok_iff.mp ran
  have back := (ty_takes reads true cursor element middle ⟨all, trivial⟩ read).2
  obtain ⟨isArray, behind, -, ran⟩ := bind_eq_ok_iff.mp ran
  cases isArray with
  | true =>
      rw [if_pos rfl] at ran
      obtain ⟨length, _, -, ran⟩ := bind_eq_ok_iff.mp ran
      cases ran
      exact ⟨rfl, fun steady plus =>
        Ty.array_readsBack (back (steady.child List.mem_cons_self)) steady.here⟩
  | false =>
      cases ran
      exact ⟨rfl, fun steady plus => Ty.slice_readsBack (back (steady.child List.mem_cons_self))⟩

section Signs

/-! What is taken behind the word or the sign that tells the kind of a type. -/

variable (plus : Bool) (place : Cursor) {before : List Tree}

/-- A trait object with its keyword reads back in order. -/
theorem dyn_takes : Finds (fun _ => True) (do
    let star ← op? "*"
    let (read, trailing) ← bounds g .object plus place
    if star then return .other (← written place) else return .object true read trailing)
      (Ty.Taken plus before) := by
  refine Takes.op?.then_find fun star _ => .each fun trees _ => .bind
    (bounds_finds reads .object plus place trees) ?_
  rintro ⟨read, trailing⟩
  exact .ite (fun _ => .bind .written fun tokens => .pure fun _ _ => .of_unsteady rfl
    fun steady => steady.here) fun _ => .pure fun after found => found.1.dyn found.2

/-- A pointer reads back in order. -/
theorem pointer_takes : Finds (fun _ => True) (do
    let isMut ← keyword? "mut"
    if !isMut then keyword "const"
    return .pointer isMut (← g.ty false)) (Ty.Taken plus before) := by
  refine Takes.keyword?.then_find fun isMut _ => ?_
  have target : Finds (fun _ => True) (do return Ty.pointer isMut (← g.ty false))
      (Ty.Taken plus before) := (ty_takes reads false).then_find fun t back => .pure fun _ _ =>
    .of_any rfl fun steady plus => Ty.pointer_readsBack (back (steady.child List.mem_cons_self))
  exact .ite (fun _ => Takes.keyword.then_find fun _ _ => target) fun _ => target

/-- A reference reads back in order. -/
theorem reference_takes : Finds (fun _ => True) (do
    let lifetime ← lifetime?
    let isMut ← keyword? "mut"
    return .reference lifetime isMut (← g.ty false)) (Ty.Taken plus before) := by
  refine .bind .lifetime? fun lifetime => .known _ (fun _ named => named) fun named => ?_
  refine .weaken (fun _ _ => trivial) (Takes.keyword?.then_find fun isMut _ =>
    (ty_takes reads false).then_find fun t back => .pure fun _ _ => .of_any rfl fun steady plus => ?_)
  exact Ty.reference_readsBack named (back (steady.child (List.mem_append_right _ List.mem_cons_self)))

/-- What a type implements reads back in order. -/
theorem implTrait_takes : Finds (fun _ => True) (do
    let (read, trailing) ← bounds g .implTrait plus place
    return .implTrait read trailing) (Ty.Taken plus before) := by
  refine .each fun trees _ => .bind (bounds_finds reads .implTrait plus place trees) ?_
  rintro ⟨read, trailing⟩
  exact .pure fun after found => found.1.implTrait found.2

end Signs

/-- **Steady types that are taken from a text are read back.** -/
theorem ty_takes_step (plus : Bool) (trees : List Tree) :
    Finds (fun ahead => ahead = trees) (Parser.ty g plus) (Ty.Taken plus trees) := by
  refine .get fun place => .bind (binder?_finds reads) fun binder => .known _ (fun _ found => found.1)
    fun quantifies => .ite (fun _ => ?_) fun isNone => ?_
  · refine .bind .looks fun isNamed => .ite (fun yes => .each fun later start => ?_) fun _ => .fail
    have named : (startsFnPointer later = true ∨ startsName later = true) ∨
        startsPathKeyword later = true := by
      have told := start.2.symm.trans yes
      simpa only [Bool.or_eq_true] using told
    refine namedType_takes reads quantifies (fun _ => or_assoc.mp named) ?_
    refine (or_assoc.mp named).imp_right fun name => ?_
    simp only [startsPath, Bool.or_eq_true]
    exact .inl (.inl name)
  refine .weaken (fun ahead found => found.2.2 (Option.not_isSome_iff_eq_none.mp isNone)) ?_
  refine .bind .looks fun isGroup => .ite (fun _ => .weaken (fun _ _ => trivial)
    (parenType_takes reads plus trees)) fun _ => .weaken (fun _ start => start.1) ?_
  refine .bind .looks fun isNamed => .ite (fun yes => .each fun later start => ?_) fun _ =>
    .weaken (fun _ start => start.1) ?_
  · have named := start.2.symm.trans yes
    exact namedType_takes reads (by rintro _ ⟨⟩) (by rintro ⟨⟩) (by simpa only [Bool.or_eq_true] using named)
  refine .bind .keyword? fun isDyn => .ite (fun _ => .weaken (fun _ _ => trivial) ?_) fun no =>
    .weaken (fun _ start => (start.2 (Bool.eq_false_iff.mpr no)).1) ?_
  · exact dyn_takes reads plus place
  refine .bind .looks fun isGroup => .ite (fun _ => ?_) fun _ => .weaken (fun _ start => start.1) ?_
  · exact .mono (.group (insideBrackets_meets reads)) fun t after found => .of_any found.1 found.2
  refine .bind .op? fun isPointer => .ite (fun _ => .weaken (fun _ _ => trivial) ?_) fun no =>
    .weaken (fun _ start => (start.2 (Bool.eq_false_iff.mpr no)).1) ?_
  · exact pointer_takes reads plus
  refine .bind .op? fun isReference => .ite (fun _ => .weaken (fun _ _ => trivial) ?_) fun no =>
    .weaken (fun _ start => (start.2 (Bool.eq_false_iff.mpr no)).1) ?_
  · exact reference_takes reads plus
  refine .bind .op? fun isNever => .ite (fun _ => .pure fun _ _ => .of_any rfl fun _ _ =>
    Ty.never_readsBack) fun no => .weaken (fun _ start => (start.2 (Bool.eq_false_iff.mpr no)).1) ?_
  refine .bind .keyword? fun isImpl => .ite (fun _ => .weaken (fun _ _ => trivial) ?_) fun no =>
    .weaken (fun _ start => (start.2 (Bool.eq_false_iff.mpr no)).1) ?_
  · exact implTrait_takes reads plus place
  refine .bind .keyword? fun isInfer => .ite (fun _ => .pure fun _ _ => .of_any rfl fun _ _ =>
    Ty.infer_readsBack) fun no => .weaken (fun _ start => (start.2 (Bool.eq_false_iff.mpr no)).1) ?_
  refine .bind .looks fun isLifetime => .ite (fun yes => ?_) fun _ => .fail
  refine .known (startsLifetime trees = true) ?_ fun starts => .weaken (fun _ start => start.1)
    (.bind (bounds_finds reads .object plus place trees) ?_)
  · rintro _ ⟨rfl, found⟩
    exact found.symm.trans yes
  · rintro ⟨read, trailing⟩
    exact .pure fun after found => found.1.object found.2 starts

omit reads in
/-- No lifetime stands before a word, with or without attributes. -/
theorem no_lifetime_outer (attrs : List Attribute) (text : String) (rest : List Token) :
    Token.isLifetimeFirst (Attribute.outerTokens attrs ++ .word text :: rest) = false := by
  obtain none_ | ⟨more, marked⟩ := outerTokens_cases attrs
  · rw [none_]
    rfl
  · rw [marked]
    rfl

omit reads in
/-- A lifetime that is bound is plain, unless it has attributes. -/
theorem lifetimeParam_takes (attrs : List Attribute) : Takes (lifetimeParam attrs) fun param =>
    Token.isLifetimeFirst param.tokens = true → param.IsPlain := by
  have bare {rest : List Token}
      (first : Token.isLifetimeFirst (Attribute.outerTokens attrs ++ rest) = true) :
      Attribute.outerTokens attrs = [] := by
    refine (outerTokens_cases attrs).resolve_right ?_
    rintro ⟨more, marked⟩
    rw [marked] at first
    cases first
  refine Finds.bind Finds.lifetime fun name => .known _ (fun _ named => named) fun named => .weaken
    (fun _ _ => trivial) (Takes.skip .op? fun _ => .ite (fun _ => ?_) fun _ => ?_)
  · refine .bind (.sepWhile (Finds.mono Finds.lifetime fun _ _ bound => bound)) ?_
    rintro ⟨bounds, trailing⟩ listed
    exact .pure fun first => ⟨bare first, named, listed.1⟩
  · exact .pure fun first => ⟨bare first, named, nofun⟩

/-- A parameter of a binder that prints as a lifetime is a plain one. -/
theorem boundParam_takes : Takes (boundParam g) fun param =>
    Token.isLifetimeFirst param.tokens.2 = true →
      ∃ p : LifetimeParam, p.IsPlain ∧ param.tokens.2 = p.tokens := by
  refine .skip attributes_takes fun attrs => .look fun _ => .ite (fun _ => ?_) fun _ => ?_
  · exact .bind (lifetimeParam_takes attrs) fun param plain => .pure fun first => ⟨param, plain first, rfl⟩
  refine .skip .keyword? fun _ => .ite (fun _ => .skip .name fun name => ?_) fun _ => .skip .name fun name => ?_
  · have default_ : Takes (do if ← op? "=" then return some (← constArgument g) else return none)
        fun _ => True :=
      .skip .op? fun _ => .ite (fun _ => .skip constArgument_takes fun _ => .pure trivial) fun _ =>
        .pure trivial
    refine .skip .op fun _ => .skip (ty_takes reads true) fun t => .skip default_ fun default =>
      .pure fun first => ?_
    simp only [GenericParam.tokens, List.append_assoc, List.cons_append, no_lifetime_outer] at first
    cases first
  · have bounds_ : Takes (do
        if ← op? ":" then
          looseBounds g fun trees => startsOp "," trees || startsOp ">" trees || startsOp "=" trees
        else return ([], false)) fun _ => True :=
      .skip .op? fun _ => .ite (fun _ => (looseBounds_takes reads).mono fun _ _ => trivial) fun _ =>
        .pure trivial
    have default_ : Takes (do if ← op? "=" then return some (← g.ty true) else return none)
        fun _ => True :=
      .skip .op? fun _ => .ite (fun _ => .skip (ty_takes reads true) fun _ => .pure trivial) fun _ =>
        .pure trivial
    refine .skip bounds_ ?_
    rintro ⟨bounds, trailing⟩
    refine .skip default_ fun default => .pure fun first => ?_
    simp only [GenericParam.tokens, List.append_assoc, List.cons_append, no_lifetime_outer] at first
    cases first

end Takes

/-- **At every depth of the grammar, the types of a text are read back.** -/
theorem upTo_takes (depth : Nat) : (Grammar.upTo depth).TakesTypes := by
  induction depth with
  | zero => exact ⟨fun _ _ => .fail, .fail, .fail⟩
  | succ depth ih =>
      refine ⟨ty_takes_step ih, ?_, boundParam_takes ih⟩
      exact Finds.each fun trees _ => (path_finds ih trees).mono fun _ _ found => found.1

end Parser

end VariantMerge
