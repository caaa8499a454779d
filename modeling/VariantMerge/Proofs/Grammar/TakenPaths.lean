import VariantMerge.Proofs.Grammar.Steady

/-!
# Arguments and paths that are taken from a text

The arguments of a name are read back in the order in which they are written, if they are steady, and so is
a path of such names. What a path starts with is what was ahead (`Path.StartsAt`), which decides whether it
can be the front of a type.
-/

namespace VariantMerge

open VariantMerge.Parser

/-- The path starts with what was ahead: a double colon or its first name. -/
def Path.StartsAt (p : Path) (trees : List Tree) : Prop :=
  (∃ segments, p = .mk true segments ∧ startsOp "::" trees = true) ∨
    ∃ name a others line rest, p = .mk false (.mk name a :: others) ∧ trees = .ident line name :: rest

namespace Parser

/-! ## Arguments -/

theorem soleSegment?_eq_some {t : Ty} {name : String} {a : Arguments}
    (sole : soleSegment? t = some (.mk name a)) :
    t = .path (.mk false [.mk name a]) ∧
      soleSegment? (.path (.mk false [.mk name a.normal])) = some (.mk name a.normal) := by
  unfold soleSegment? at sole
  split at sole <;> cases sole <;> exact ⟨rfl, rfl⟩

theorem steady_sole {name : String} {a : Arguments} (steady : (TypeNode.arguments a).Steady) :
    (TypeNode.ty (.path (.mk false [.mk name a]))).Steady :=
  .of_children trivial (List.forall_mem_singleton.mpr (.of_children trivial
    (List.forall_mem_singleton.mpr (.of_children trivial (List.forall_mem_singleton.mpr steady)))))

/-- Arguments that are read back one by one are read back in the order in which they are written. -/
theorem angle_back {turbofish trailing : Bool} {arguments : List GenericArg}
    (listed : Takes.Listed (fun a => (TypeNode.generic a).Steady → a.normal.ReadsBack)
      (arguments, trailing))
    (steady : (TypeNode.arguments (.angle turbofish arguments trailing)).Steady) :
    (Arguments.angle turbofish arguments trailing).normal.ReadsBack := by
  rw [Arguments.normal, genericsNormal_eq_map]
  refine Arguments.angle_readsBack (fun a among => ?_) (fun nothing => ?_) ?_
  · obtain ⟨b, original, rfl⟩ := List.mem_map.mp (Token.mem_lifetimesBefore.mp among)
    exact listed.1 b original (steady.child (List.mem_map_of_mem original))
  · exact Token.endsWithComma_of_empty listed.2
      (List.map_eq_nil_iff.mp (Token.lifetimesBefore_eq_nil_iff.mp nothing))
  · rw [TypeNode.genericsEach_eq_map, Token.lifetimesBefore_map GenericArg.tokens (·.1),
      Token.lifetimesFirst_ordered, ← Token.lifetimesBefore_map GenericArg.tokens (·.1), List.map_map]
    rfl

section Takes

variable {g : Grammar} (reads : g.TakesTypes)

include reads

theorem genericArg_takes :
    Takes (genericArg g) fun a => (TypeNode.generic a).Steady → a.normal.ReadsBack := by
  refine .look fun _ => .ite (fun _ => ?_) fun _ => .look fun _ => .ite (fun _ => ?_) fun _ => ?_
  · exact Finds.bind Finds.lifetime fun name => .pure fun _ named _ => GenericArg.lifetime_readsBack named
  · exact .skip constArgument_takes fun value => .pure fun steady => GenericArg.const_readsBack steady.here
  refine .bind (ty_takes reads true) fun t back => ?_
  have type_ : (TypeNode.generic (.type t)).Steady → (GenericArg.type t).normal.ReadsBack :=
    fun steady => GenericArg.type_readsBack (back (steady.child List.mem_cons_self))
  split
  next => exact .pure type_
  next name a sole =>
    obtain ⟨rfl, soleNormal⟩ := soleSegment?_eq_some sole
    refine .skip .op? fun _ => .ite (fun _ => ?_) fun _ => ?_
    · refine .look fun _ => .ite (fun _ => ?_) fun _ => ?_
      · refine .skip constArgument_takes fun value => .pure fun steady => ?_
        exact GenericArg.assocConst_readsBack soleNormal (back (steady_sole (steady.child List.mem_cons_self)))
          steady.here
      · refine .bind (ty_takes reads true) fun value valueBack => .pure fun steady => ?_
        exact GenericArg.assocType_readsBack soleNormal (back (steady_sole (steady.child List.mem_cons_self)))
          (valueBack (steady.child (List.mem_cons_of_mem _ List.mem_cons_self)))
    · refine .skip .op? fun _ => .ite (fun _ => ?_) fun _ => .pure type_
      refine .bind (looseBounds_takes reads) ?_
      rintro ⟨bounds, trailing⟩ listed
      refine .pure fun steady => ?_
      rw [GenericArg.normal, boundsNormal_eq_map]
      refine GenericArg.constraint_readsBack soleNormal (back (steady_sole (steady.child List.mem_cons_self)))
        (List.forall_mem_map.mpr fun b among => listed.1 b among (steady.child
          (List.mem_cons_of_mem _ (List.mem_map_of_mem among)))) ?_
      rw [List.map_eq_nil_iff]
      exact listed.2

theorem angleArguments_takes : Takes (angleArguments g) fun a => a.isNone = false ∧
    ((TypeNode.arguments a).Steady → a.normal.ReadsBack) := by
  refine .skip .op? fun turbofish => .skip .op fun _ => .bind (.sepUntil (genericArg_takes reads)) ?_
  rintro ⟨arguments, trailing⟩ listed
  exact .skip .op fun _ => .pure ⟨rfl, angle_back listed⟩

/-! ## Names -/

theorem segment_finds (trees : List Tree) :
    Finds (fun ahead => ahead = trees) (segment g false) fun s _ =>
      ((TypeNode.segment s).Steady → s.normal.ReadsBack) ∧
        ∃ line rest, trees = .ident line s.name :: rest := by
  refine .bind .looks fun found => .ite (fun yes => ?_) fun _ => ?_
  · refine .bind .anyWord fun name => .pure ?_
    rintro _ ⟨named, line, rest, rfl, keyword⟩
    refine ⟨fun _ => ⟨⟨named, .inl ⟨?_, rfl⟩⟩, trivial⟩, line, rest, rfl⟩
    have listed := keyword.symm.trans yes
    simpa only [startsWord, List.any_cons, List.any_nil, List.contains_cons, List.contains_nil]
      using listed
  refine .weaken (fun _ start => start.1) (.bind_as (fun name _ => Segment.IsNamed name false ∧
    ∃ line rest, trees = .ident line name :: rest) (.bind .looks fun isSelf =>
      .ite (fun yes => .mono .anyWord ?_) fun _ => .mono .name ?_) fun name => ?_)
  · rintro name _ ⟨named, line, rest, rfl, self⟩
    exact ⟨⟨named, .inr (.inl (beq_iff_eq.mp (self.symm.trans yes)))⟩, line, rest, rfl⟩
  · rintro name _ ⟨free, named, line, rest, rfl, -⟩
    exact ⟨⟨named, .inr (.inr free)⟩, line, rest, rfl⟩
  refine .known _ (fun _ found => found) fun named => .weaken (fun _ _ => trivial) ?_
  refine Takes.look fun _ => .ite (fun _ => ?_) fun _ => ?_
  · refine .bind (angleArguments_takes reads) fun a back => .pure ⟨fun steady => ?_, named.2⟩
    exact ⟨⟨named.1.named, named.1.allowed.imp_left fun bare => absurd bare.2 (by rintro ⟨⟩)⟩,
      back.2 (steady.child List.mem_cons_self)⟩
  · exact .pure ⟨fun _ => ⟨⟨named.1.named, named.1.allowed.imp_left fun bare => ⟨bare.1, rfl⟩⟩, trivial⟩,
      named.2⟩

theorem segment_takes :
    Takes (segment g false) fun s => (TypeNode.segment s).Steady → s.normal.ReadsBack :=
  Finds.each fun trees _ => (segment_finds reads trees).mono fun _ _ found => found.1

theorem segments_takes (goesOn : List Tree → Bool) : Takes (segments g false goesOn) fun read =>
    ∀ s ∈ read, (TypeNode.segment s).Steady → s.normal.ReadsBack :=
  .many (.skip .op fun _ => segment_takes reads)

theorem path_finds (trees : List Tree) :
    Finds (fun ahead => ahead = trees) (path g false) fun p _ =>
      ((TypeNode.path p).Steady → p.normal.ReadsBack) ∧ p.StartsAt trees := by
  refine .bind .op? fun leading => .bind_as (fun s _ => ((TypeNode.segment s).Steady →
    s.normal.ReadsBack) ∧ ∀ others, (Path.mk leading (s :: others)).StartsAt trees) ?_ fun first => ?_
  · cases leading with
    | true =>
        refine .known _ (fun _ found => found.1 rfl) fun starts => .weaken (fun _ _ => trivial)
          ((segment_takes reads).mono fun s back => ⟨back, fun others => .inl ⟨_, rfl, ?_⟩⟩)
        obtain ⟨_, rfl, starts⟩ := starts
        exact starts
    | false =>
        refine .weaken (fun _ found => (found.2 rfl).1) ((segment_finds reads trees).mono ?_)
        rintro ⟨name, a⟩ _ ⟨back, line, rest, whole⟩
        exact ⟨back, fun others => .inr ⟨name, a, others, line, rest, rfl, whole⟩⟩
  refine .known _ (fun _ found => found) fun found => .weaken (fun _ _ => trivial) ?_
  refine Takes.bind (segments_takes reads _) fun rest each => .pure ⟨fun steady => ?_, found.2 rest⟩
  rw [Path.normal, segmentsNormal_eq_map]
  refine ⟨nofun, List.forall_mem_map.mpr fun s listed => ?_⟩
  have steady_ := steady.child (List.mem_map_of_mem listed)
  rcases List.mem_cons.mp listed with rfl | listed
  · exact found.1 steady_
  · exact each s listed steady_

end Takes

/-- Where a path was ahead of a type, its front is that of a type. -/
theorem isFront_of_startsAt {p : Path} {trees : List Tree} (back : p.normal.ReadsBack)
    (starts : p.StartsAt trees)
    (ahead : startsName trees = true ∨ startsPathKeyword trees = true ∨ startsOp "::" trees = true) :
    p.normal.IsFront := by
  refine ⟨back, ?_⟩
  obtain ⟨segments, rfl, -⟩ | ⟨name, a, others, line, rest, rfl, rfl⟩ := starts
  · rw [Path.normal, Path.tokens]
    rfl
  · have named := (back.each (.mk name a.normal) List.mem_cons_self).1.named
    rw [Path.normal, segmentsNormal, Path.tokens_eq, Segment.normal, Segment.tokens,
      if_neg Bool.false_ne_true, List.nil_append, List.cons_append, Token.startsType, named,
      Bool.true_and, Bool.or_eq_true]
    obtain free | keyword | colons := ahead
    · exact .inl free
    · have listed : name ∈ ["self", "Self", "super", "crate"] := by
        obtain ⟨word, listed, same⟩ := List.any_eq_true.mp keyword
        rwa [beq_iff_eq.mp same]
      have told : ∀ word ∈ ["self", "Self", "super", "crate"], ["self", "Self", "super", "crate", "fn",
        "unsafe", "extern", "dyn", "impl", "_", "for"].contains word = true := by decide
      exact .inr (told name listed)
    · cases colons

end Parser

end VariantMerge
