import Mathlib.Data.List.Perm.Subperm
import VariantMerge.Proofs.Generation.Attribution

/-!
# The traits of a hierarchy

`Hierarchy.Includes` says which traits belong to the hierarchy of an interface: its own, and every
scanned trait that one of them is bounded by. Visiting them depth first finds each exactly once
(`Hierarchy.collect_includes`), also if the bounds are cyclic. The visit of one trait keeps what was
found before and leaves no bound of a new trait unvisited (`Hierarchy.Visited`); that the depth is
never used up follows from the number of names that there are.
-/

namespace VariantMerge

namespace TraitMembers

/-- The members of a trait keep its name and its module. -/
theorem ofTrait_declared {interface : String} {decl : TraitDecl} {own : TraitMembers}
    (made : (ofTrait interface decl).outcome = .ok own) :
    own.name = decl.name ∧ own.module = decl.module := by
  unfold ofTrait at made
  split at made
  · cases made
  · simp only [Pass.outcome_bind, Pass.outcome_tell, Pass.outcome_pure,
      Except.bind_eq_ok_iff, Except.ok.injEq] at made
    obtain ⟨_, -, _, -, rfl⟩ := made
    exact ⟨rfl, rfl⟩

end TraitMembers

namespace Hierarchy

variable {scan : ScanResult} {interface : Interface}

/-- The trait that a name means in the hierarchy of an interface: the interface's own, or else the
first scanned one. -/
def declOf? (scan : ScanResult) (interface : Interface) (name : String) : Option TraitDecl :=
  if name = interface.name then some interface.toTraitDecl else scan.findTrait name

/-- The traits in the hierarchy of an interface. -/
inductive Includes (scan : ScanResult) (interface : Interface) : TraitDecl → Prop
  | own : Includes scan interface interface.toTraitDecl
  | bound {decl parent : TraitDecl} {bound : Bound} {segment : Segment}
      (included : Includes scan interface decl) (listed : bound ∈ decl.item.supertraits)
      (requires : required? bound = some segment)
      (leads : declOf? scan interface segment.name = some parent) :
      Includes scan interface parent

/-- A trait that is found has the name that was looked for. -/
theorem findTrait_name {name : String} {decl : TraitDecl} (found : scan.findTrait name = some decl) :
    decl.name = name := by
  have named := List.find?_some found
  exact beq_iff_eq.mp named

/-- So has one that a bound leads to. -/
theorem declOf?_name {name : String} {decl : TraitDecl}
    (leads : declOf? scan interface name = some decl) : decl.name = name := by
  unfold declOf? at leads
  split at leads
  next own =>
    cases leads
    exact own.symm
  next => exact findTrait_name leads

/-- A trait of the hierarchy is the one that its name means. -/
theorem Includes.declOf?_eq {decl : TraitDecl} (included : Includes scan interface decl) :
    declOf? scan interface decl.name = some decl := by
  cases included with
  | own =>
      unfold declOf?
      exact if_pos rfl
  | bound _ _ _ leads => rwa [declOf?_name leads]

/-! ## Visiting -/

/-- What is found for a bound: the traits that it leads to, if it requires one that was scanned. -/
def follow (scan : ScanResult) (interface : String) (depth : Nat) (found : List TraitMembers)
    (bound : Bound) : Pass (List TraitMembers) :=
  match required? bound with
  | none => return found
  | some segment =>
    match scan.findTrait segment.name with
    | some parent =>
      if segment.arguments.isNone then visit scan interface depth parent found
      else throw (.unsupportedInterface interface (.genericSupertrait segment.name))
    | none => do
      Pass.tell ⟨.debug,
        "Supertrait has no scanned declaration; it contributes no members",
        [("interface", .quoted interface), ("supertrait", .text segment.name)]⟩
      return found

/-- A visit collects a trait that is new, and then follows its bounds. -/
theorem visit_succ_outcome (scan : ScanResult) (interface : String) (depth : Nat)
    (decl : TraitDecl) (found : List TraitMembers) :
    (visit scan interface (depth + 1) decl found).outcome =
      if decl.name ∈ found.map TraitMembers.name then .ok found
      else (TraitMembers.ofTrait interface decl).outcome.bind fun own =>
        decl.item.supertraits.foldlM
          (fun found bound => (follow scan interface depth found bound).outcome)
          (found ++ [own]) := by
  have unfolded : visit scan interface (depth + 1) decl found =
      if found.any (·.name == decl.name) then (pure found : Pass _)
      else TraitMembers.ofTrait interface decl >>= fun own =>
        decl.item.supertraits.foldlM (follow scan interface depth) (found ++ [own]) := rfl
  have seen : found.any (·.name == decl.name) = true ↔
      decl.name ∈ found.map TraitMembers.name := by
    simp only [List.any_eq_true, beq_iff_eq, List.mem_map]
  rw [unfolded]
  by_cases visited : decl.name ∈ found.map TraitMembers.name
  · rw [if_pos (seen.mpr visited), if_pos visited, Pass.outcome_pure]
  · rw [if_neg fun any => visited (seen.mp any), if_neg visited, Pass.outcome_bind]
    simp only [Pass.outcome_foldlM]

/-- A trait that was found is not visited again. -/
theorem visit_outcome_of_mem {about : String} {depth : Nat} {decl : TraitDecl}
    {found : List TraitMembers} (known : decl.name ∈ found.map TraitMembers.name) :
    (visit scan about depth decl found).outcome = .ok found := by
  cases depth with
  | zero => rfl
  | succ depth => rw [visit_succ_outcome, if_pos known]

/-- A bound is followed to the trait that it names, if there is one. -/
theorem follow_eq_ok {about : String} {depth : Nat} {found result : List TraitMembers}
    {bound : Bound} (followed : (follow scan about depth found bound).outcome = .ok result) :
    (result = found ∧
        ∀ segment, required? bound = some segment → scan.findTrait segment.name = none) ∨
      ∃ segment parent, required? bound = some segment ∧
        scan.findTrait segment.name = some parent ∧
        (visit scan about depth parent found).outcome = .ok result := by
  unfold follow at followed
  cases requires : required? bound with
  | none =>
      simp only [requires, Pass.outcome_pure, Except.ok.injEq] at followed
      exact .inl ⟨followed.symm, fun _ other => nomatch other⟩
  | some segment =>
      cases leads : scan.findTrait segment.name with
      | none =>
          simp only [requires, leads, Pass.outcome_bind, Pass.outcome_tell, Pass.outcome_pure]
            at followed
          cases followed
          refine .inl ⟨rfl, fun other same => ?_⟩
          cases same
          exact leads
      | some parent =>
          simp only [requires, leads] at followed
          split at followed
          · exact .inr ⟨segment, parent, rfl, leads, followed⟩
          · cases followed

/-! ## What a visit keeps -/

/-- Traits that were found: each is in the hierarchy, and no two have one name. -/
structure Found (scan : ScanResult) (interface : Interface) (found : List TraitMembers) :
    Prop where
  included : ∀ own ∈ found, ∃ decl, Includes scan interface decl ∧
    (TraitMembers.ofTrait interface.name decl).outcome = .ok own
  distinct : (found.map TraitMembers.name).Nodup

/-- Every bound of the trait of this name leads to a trait that was found. -/
def Settled (scan : ScanResult) (interface : Interface) (found : List TraitMembers)
    (name : String) : Prop :=
  ∀ decl, declOf? scan interface name = some decl → ∀ bound ∈ decl.item.supertraits,
    ∀ segment, required? bound = some segment → ∀ parent,
      declOf? scan interface segment.name = some parent →
        segment.name ∈ found.map TraitMembers.name

/-- What a visit does: it adds traits at the end, and settles those that it adds. -/
structure Visited (scan : ScanResult) (interface : Interface)
    (found result : List TraitMembers) : Prop where
  extends_ : found <+: result
  valid : Found scan interface result
  settled : ∀ name ∈ result.map TraitMembers.name, name ∉ found.map TraitMembers.name →
    Settled scan interface result name

/-- What is settled stays so while more is found. -/
theorem Settled.mono {found result : List TraitMembers} {name : String}
    (settled : Settled scan interface found name) (grows : found <+: result) :
    Settled scan interface result name := by
  intro decl leads bound listed segment requires parent leadsOn
  exact (grows.map TraitMembers.name).subset
    (settled decl leads bound listed segment requires parent leadsOn)

/-- Nothing has to be visited for what was found. -/
theorem Visited.refl {found : List TraitMembers} (valid : Found scan interface found) :
    Visited scan interface found found :=
  ⟨List.prefix_refl found, valid, fun _ inside outside => absurd inside outside⟩

/-- Two visits one after the other are one. -/
theorem Visited.trans {first second third : List TraitMembers}
    (earlier : Visited scan interface first second)
    (later : Visited scan interface second third) : Visited scan interface first third := by
  refine ⟨earlier.extends_.trans later.extends_, later.valid, fun name inside outside => ?_⟩
  by_cases between : name ∈ second.map TraitMembers.name
  · exact (earlier.settled name between outside).mono later.extends_
  · exact later.settled name inside between

/-- Each found trait has one of finitely many names. -/
theorem Found.length_le {found : List TraitMembers} (valid : Found scan interface found) :
    found.length ≤ scan.traits.length + 1 := by
  have names : found.map TraitMembers.name ⊆
      interface.name :: scan.traits.map TraitDecl.name := by
    intro name listed
    obtain ⟨own, member, rfl⟩ := List.mem_map.mp listed
    obtain ⟨decl, included, made⟩ := valid.included own member
    rw [(TraitMembers.ofTrait_declared made).1]
    have leads := included.declOf?_eq
    unfold declOf? at leads
    split at leads
    next own => exact own ▸ List.mem_cons_self
    next => exact List.mem_cons_of_mem _ (List.mem_map_of_mem (List.mem_of_find?_eq_some leads))
  simpa using (List.subperm_of_subset valid.distinct names).length_le

/-- A trait that is new and belongs to the hierarchy may be added. -/
theorem Found.concat {found : List TraitMembers} {own : TraitMembers} {decl : TraitDecl}
    (valid : Found scan interface found) (included : Includes scan interface decl)
    (made : (TraitMembers.ofTrait interface.name decl).outcome = .ok own)
    (fresh : decl.name ∉ found.map TraitMembers.name) :
    Found scan interface (found ++ [own]) := by
  constructor
  · intro other member
    obtain earlier | here := List.mem_append.mp member
    · exact valid.included other earlier
    · rw [List.mem_singleton.mp here]
      exact ⟨decl, included, made⟩
  · rw [List.map_append, List.map_singleton, (TraitMembers.ofTrait_declared made).1]
    rw [← List.concat_eq_append]
    exact valid.distinct.concat fresh

/-- What is known before the bounds of a trait are followed: the interface's own trait was found, and
the depth is enough for all names that are left. -/
structure Ready (scan : ScanResult) (interface : Interface) (depth : Nat)
    (found : List TraitMembers) : Prop where
  valid : Found scan interface found
  own : interface.name ∈ found.map TraitMembers.name
  depth : scan.traits.length + 2 ≤ depth + found.length

/-- There is fuel for the rest of the hierarchy after a visit. -/
theorem Ready.of_visited {depth : Nat} {found result : List TraitMembers}
    (ready : Ready scan interface depth found) (visited : Visited scan interface found result) :
    Ready scan interface depth result := by
  refine ⟨visited.valid, (visited.extends_.map _).subset ready.own, ?_⟩
  have grows := visited.extends_.length_le
  have enough := ready.depth
  omega

/-- A trait more is found one step deeper. -/
theorem Ready.concat {depth : Nat} {found : List TraitMembers} {own : TraitMembers}
    {decl : TraitDecl} (ready : Ready scan interface (depth + 1) found)
    (included : Includes scan interface decl)
    (made : (TraitMembers.ofTrait interface.name decl).outcome = .ok own)
    (fresh : decl.name ∉ found.map TraitMembers.name) :
    Ready scan interface depth (found ++ [own]) := by
  refine ⟨ready.valid.concat included made fresh, ?_, ?_⟩
  · exact ((List.prefix_append found [own]).map _).subset ready.own
  · have enough := ready.depth
    rw [List.length_append, List.length_singleton]
    omega

/-- The interface's own trait is the first that is found. -/
theorem Ready.first {own : TraitMembers}
    (made : (TraitMembers.ofTrait interface.name interface.toTraitDecl).outcome = .ok own) :
    Ready scan interface (scan.traits.length + 1) [own] := by
  have empty : Found scan interface [] := ⟨by simp, by simp⟩
  refine ⟨empty.concat .own made List.not_mem_nil, ?_, by simp⟩
  rw [List.map_singleton, (TraitMembers.ofTrait_declared made).1]
  exact List.mem_singleton_self _

/-- Visits at a depth find the trait that they visit, and all that it leads to. -/
def VisitsWell (scan : ScanResult) (interface : Interface) (depth : Nat) : Prop :=
  ∀ {decl : TraitDecl} {found result : List TraitMembers}, Includes scan interface decl →
    Ready scan interface depth found →
    (visit scan interface.name depth decl found).outcome = .ok result →
    Visited scan interface found result ∧ decl.name ∈ result.map TraitMembers.name

/-- **One bound.** If visits at a depth do what they should, so does following a bound there, and
then the trait that it leads to was found. -/
theorem follow_visited {depth : Nat} (visits : VisitsWell scan interface depth)
    {decl : TraitDecl} (included : Includes scan interface decl) {bound : Bound}
    (listed : bound ∈ decl.item.supertraits) {found result : List TraitMembers}
    (ready : Ready scan interface depth found)
    (followed : (follow scan interface.name depth found bound).outcome = .ok result) :
    Visited scan interface found result ∧
      ∀ segment, required? bound = some segment → ∀ parent,
        declOf? scan interface segment.name = some parent →
          segment.name ∈ result.map TraitMembers.name := by
  obtain ⟨rfl, absent⟩ | ⟨segment, parent, requires, leads, visited⟩ := follow_eq_ok followed
  · refine ⟨.refl ready.valid, fun segment requires parent leads => ?_⟩
    unfold declOf? at leads
    split at leads
    next own => exact own ▸ ready.own
    next =>
      rw [absent segment requires] at leads
      cases leads
  · have named : parent.name = segment.name := findTrait_name leads
    have only : ∀ other, required? bound = some other → other = segment := by
      intro other requires'
      rw [requires] at requires'
      exact (Option.some.inj requires').symm
    by_cases back : segment.name = interface.name
    · -- The bound leads back to the interface, which was found before.
      have unchanged : result = found := by
        rw [visit_outcome_of_mem (by rw [named, back]; exact ready.own)] at visited
        exact (Except.ok.inj visited).symm
      subst unchanged
      refine ⟨.refl ready.valid, fun other requires' _ _ => ?_⟩
      rw [only other requires', back]
      exact ready.own
    · have leads' : declOf? scan interface segment.name = some parent := by
        rw [declOf?, if_neg back, leads]
      obtain ⟨grown, present⟩ := visits (.bound included listed requires leads') ready visited
      refine ⟨grown, fun other requires' _ _ => ?_⟩
      rw [only other requires', ← named]
      exact present

/-- Bounds are followed one after the other, by induction on their list. -/
theorem foldlM_follow_visited {depth : Nat} (visits : VisitsWell scan interface depth)
    {decl : TraitDecl} (included : Includes scan interface decl) {bounds : List Bound}
    (listed : bounds ⊆ decl.item.supertraits) {found result : List TraitMembers}
    (ready : Ready scan interface depth found)
    (followed : bounds.foldlM (fun found bound =>
      (follow scan interface.name depth found bound).outcome) found = .ok result) :
    Visited scan interface found result ∧
      ∀ bound ∈ bounds, ∀ segment, required? bound = some segment → ∀ parent,
        declOf? scan interface segment.name = some parent →
          segment.name ∈ result.map TraitMembers.name := by
  induction bounds generalizing found with
  | nil =>
      cases followed
      exact ⟨.refl ready.valid, fun _ none_ => nomatch none_⟩
  | cons bound rest ih =>
      rw [List.foldlM_cons] at followed
      obtain ⟨between, here, later⟩ := Except.bind_eq_ok_iff.mp followed
      obtain ⟨inBound, outOfBounds⟩ := List.cons_subset.mp listed
      obtain ⟨first, present⟩ := follow_visited visits included inBound ready here
      obtain ⟨others, presents⟩ := ih outOfBounds (ready.of_visited first) later
      refine ⟨first.trans others, fun other member segment requires parent leads => ?_⟩
      obtain rfl | behind := List.mem_cons.mp member
      · exact (others.extends_.map _).subset (present segment requires parent leads)
      · exact presents other behind segment requires parent leads

/-- A trait that was not found before is visited with all of its bounds. -/
theorem visit_fresh {depth : Nat} (visits : VisitsWell scan interface depth)
    {decl : TraitDecl} (included : Includes scan interface decl) {found result : List TraitMembers}
    (fresh : decl.name ∉ found.map TraitMembers.name)
    (ready : ∀ own, (TraitMembers.ofTrait interface.name decl).outcome = .ok own →
      Ready scan interface depth (found ++ [own]))
    (visited : (visit scan interface.name (depth + 1) decl found).outcome = .ok result) :
    Visited scan interface found result ∧ decl.name ∈ result.map TraitMembers.name := by
  rw [visit_succ_outcome, if_neg fresh] at visited
  obtain ⟨own, made, followed⟩ := Except.bind_eq_ok_iff.mp visited
  have name : own.name = decl.name := (TraitMembers.ofTrait_declared made).1
  obtain ⟨grown, presents⟩ :=
    foldlM_follow_visited visits included (List.Subset.refl _) (ready own made) followed
  have start : found <+: found ++ [own] := List.prefix_append found [own]
  refine ⟨⟨start.trans grown.extends_, grown.valid, fun other inside outside => ?_⟩, ?_⟩
  · by_cases here : other = decl.name
    · subst here
      intro decl' leads bound listed
      rw [included.declOf?_eq, Option.some.injEq] at leads
      exact presents bound (leads ▸ listed)
    · refine grown.settled other inside ?_
      simp only [List.map_append, List.map_singleton, List.mem_append, List.mem_singleton, name]
      exact fun cases_ => cases_.elim outside here
  · refine (grown.extends_.map _).subset ?_
    simp [name]

/-- **One visit.** At every depth, a visit finds all that it should. -/
theorem visitsWell (scan : ScanResult) (interface : Interface) (depth : Nat) :
    VisitsWell scan interface depth := by
  intro decl found result included ready visited
  induction depth generalizing decl found result with
  | zero =>
      -- There are not so many names.
      have few := ready.valid.length_le
      have many := ready.depth
      omega
  | succ depth ih =>
      by_cases seen : decl.name ∈ found.map TraitMembers.name
      · rw [visit_succ_outcome, if_pos seen] at visited
        cases visited
        exact ⟨.refl ready.valid, seen⟩
      · exact visit_fresh ih included seen (fun own made => ready.concat included made seen) visited

/-- **A hierarchy is collected as a whole.** What is collected for an interface are the members of
exactly the traits that its hierarchy includes, each of them once. -/
theorem collect_includes {set : MemberSet} (collected : (collect scan interface).outcome = .ok set) :
    (∀ own ∈ set.traits, ∃ decl, Includes scan interface decl ∧
      (TraitMembers.ofTrait interface.name decl).outcome = .ok own) ∧
    (∀ decl, Includes scan interface decl → ∃ own ∈ set.traits,
      (TraitMembers.ofTrait interface.name decl).outcome = .ok own) ∧
    (set.traits.map TraitMembers.name).Nodup := by
  rw [collect, Pass.outcome_bind] at collected
  obtain ⟨traits, visited, made⟩ := Except.bind_eq_ok_iff.mp collected
  cases made
  have fresh : interface.toTraitDecl.name ∉ ([] : List TraitMembers).map TraitMembers.name :=
    List.not_mem_nil
  obtain ⟨grown, own⟩ :=
    visit_fresh (visitsWell scan interface _) .own fresh (fun _ made => .first made) visited
  refine ⟨grown.valid.included, fun decl included => ?_, grown.valid.distinct⟩
  -- Nothing was found before the visit, so every found trait is settled, and what it is bounded by
  -- was found as well.
  have named : decl.name ∈ traits.map TraitMembers.name := by
    induction included with
    | own => exact own
    | bound included listed requires leads ih =>
        have settled := grown.settled _ ih List.not_mem_nil
        rw [declOf?_name leads]
        exact settled _ included.declOf?_eq _ listed _ requires _ leads
  obtain ⟨member, listed, name⟩ := List.mem_map.mp named
  obtain ⟨other, included', made⟩ := grown.valid.included member listed
  have same : other = decl := by
    have leads := included'.declOf?_eq
    rw [← (TraitMembers.ofTrait_declared made).1, name, included.declOf?_eq] at leads
    exact (Option.some.inj leads).symm
  exact ⟨member, listed, same ▸ made⟩

end Hierarchy

end VariantMerge
