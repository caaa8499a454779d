import VariantMerge.Proofs.Hierarchy.DepthFirst
import VariantMerge.Proofs.Hierarchy.Reachable

/-!
# The order in which a hierarchy is collected

The traits of a hierarchy and their bounds are looked at one after the other: a trait leads to its
bounds, and a bound to the trait that it requires. These places are looked at depth first, and the
first one at which something is wrong (`Hierarchy.Place.FailsWith`) is what collecting the hierarchy
fails with; if there is none, the traits on the way are what was collected, each with the members of
its own declaration. `Hierarchy.CollectsAlong` says so of an order, and `Hierarchy.collect_collectsAlong`
that there is one for every interface.

Looking at a place yields traits or fails (`Hierarchy.Place.yields`), whatever was found before. So
collecting is gathering along the order (`Hierarchy.VisitsInOrder`), and the depth of the visits never
runs out.
-/

namespace VariantMerge

namespace TraitMembers

/-- A trait fails because of its generics, or with the first of its entries that does. -/
theorem ofTrait_eq_error_iff {interface : String} {decl : TraitDecl} {failure : Failure} :
    (ofTrait interface decl).outcome = .error failure ↔
      (decl.item.generics.params ≠ [] ∧
        failure = .unsupportedInterface interface (.genericTrait decl.name)) ∨
      (decl.item.generics.params = [] ∧
        (decl.item.entries.foldlM (addEntry interface) []).outcome = .error failure) := by
  unfold ofTrait
  cases decl.item.generics.params with
  | nil =>
      simp only [List.isEmpty_nil, Bool.not_true, Bool.false_eq_true, if_false, Pass.outcome_bind,
        Pass.outcome_tell, Pass.outcome_pure]
      cases (decl.item.entries.foldlM (addEntry interface) []).outcome <;> simp [Except.bind]
  | cons param rest =>
      change Except.error _ = Except.error failure ↔ _
      simp [eq_comm]

end TraitMembers

namespace Hierarchy

variable {scan : ScanResult} {interface : Interface}

/-! ## Where bounds lead -/

/-- The bounds of the trait of this name. -/
def boundsOf (scan : ScanResult) (interface : Interface) (name : String) : List Bound :=
  match declOf? scan interface name with
  | none => []
  | some decl => decl.item.supertraits

/-- The name of the trait that a bound leads to. A relaxed bound leads nowhere, and neither does one
whose trait was not scanned. -/
def target? (scan : ScanResult) (interface : Interface) (bound : Bound) : Option String :=
  (required? bound).bind fun segment =>
    (declOf? scan interface segment.name).map TraitDecl.name

/-- The names of the traits that a trait is bounded by, in the order of its bounds. -/
def leadsTo (scan : ScanResult) (interface : Interface) (name : String) : List String :=
  (boundsOf scan interface name).filterMap (target? scan interface)

/-- What is looked at in a hierarchy: a trait, or one of the bounds of a trait. -/
inductive Place where
  | trait (name : String)
  | bound (name : String) (position : Nat)
  deriving DecidableEq

namespace Place

/-- The trait that the place is or belongs to. -/
def name : Place → String
  | trait name | bound name _ => name

def trait? : Place → Option String
  | trait name => some name
  | bound .. => none

/-- The traits that looking at the place leads to: a trait leads to itself. -/
def targets (scan : ScanResult) (interface : Interface) : Place → List String
  | trait name => [name]
  | bound name position =>
    ((boundsOf scan interface name)[position]?.bind (target? scan interface)).toList

/-- What is looked at after a place: after a trait its bounds, in order, and after a bound the trait
that it leads to. -/
def next (scan : ScanResult) (interface : Interface) : Place → List Place
  | trait name => (boundsOf scan interface name).zipIdx.map fun entry => bound name entry.2
  | bound name position => (targets scan interface (bound name position)).map trait

/-- What may be wrong at a place: a trait has generic parameters or members that cannot be collected,
or a bound gives generic arguments to a scanned trait. -/
inductive FailsWith (scan : ScanResult) (interface : Interface) : Place → Failure → Prop
  | generic {name : String} {decl : TraitDecl} (declared : declOf? scan interface name = some decl)
      (takes : decl.item.generics.params ≠ []) :
      FailsWith scan interface (trait name)
        (.unsupportedInterface interface.name (.genericTrait decl.name))
  | member {name : String} {decl : TraitDecl} {failure : Failure}
      (declared : declOf? scan interface name = some decl)
      (takesNone : decl.item.generics.params = [])
      (fails : (decl.item.entries.foldlM (TraitMembers.addEntry interface.name) []).outcome =
        .error failure) : FailsWith scan interface (trait name) failure
  | arguments {name : String} {position : Nat} {bound : Bound} {segment : Segment}
      {parent : TraitDecl} (stands : (boundsOf scan interface name)[position]? = some bound)
      (requires : required? bound = some segment)
      (scanned : scan.findTrait segment.name = some parent)
      (gives : segment.arguments.isNone = false) :
      FailsWith scan interface (.bound name position)
        (.unsupportedInterface interface.name (.genericSupertrait segment.name))

/-- What looking at a place yields. -/
def yields (scan : ScanResult) (interface : Interface) :
    Place → Except Failure (List TraitMembers)
  | trait name =>
    match declOf? scan interface name with
    | none => .ok []
    | some decl => (TraitMembers.ofTrait interface.name decl).outcome.map fun own => [own]
  | bound name position =>
    match (boundsOf scan interface name)[position]?.bind required? with
    | none => .ok []
    | some segment =>
      if (scan.findTrait segment.name).isSome && !segment.arguments.isNone then
        .error (.unsupportedInterface interface.name (.genericSupertrait segment.name))
      else .ok []

end Place

/-- How a hierarchy is collected along an order of its places. -/
structure CollectsAlong (scan : ScanResult) (interface : Interface) (order : List Place) :
    Prop where
  /-- The places are looked at depth first, from the interface on. -/
  places : DepthFirst.IsOrder (Place.next scan interface) (.trait interface.name) order
  /-- The traits among them are in depth-first order as well. -/
  traits : DepthFirst.IsOrder (leadsTo scan interface) interface.name
    (order.filterMap Place.trait?)
  distinct : (order.filterMap Place.trait?).Nodup
  /-- They are the traits of the hierarchy. -/
  included : ∀ decl, Includes scan interface decl ↔
    declOf? scan interface decl.name = some decl ∧ decl.name ∈ order.filterMap Place.trait?
  /-- What is collected are the members that they declare themselves, in order. -/
  collected : ∀ set, (collect scan interface).outcome = .ok set →
    List.Forall₂ (fun name own => ∃ decl, declOf? scan interface name = some decl ∧
      (TraitMembers.ofTrait interface.name decl).outcome = .ok own)
      (order.filterMap Place.trait?) set.traits
  /-- Collecting fails with what is wrong at the first place where anything is. -/
  fails : ∀ failure, (collect scan interface).outcome = .error failure ↔
    ∃ before place after, order = before ++ place :: after ∧
      (∀ earlier ∈ before, ∀ other, ¬ earlier.FailsWith scan interface other) ∧
      place.FailsWith scan interface failure
  attributed : ∀ failure, (collect scan interface).outcome = .error failure →
    failure.interface? = some interface.name

/-! ## Looking at one place -/

/-- The bounds of a trait are those that it declares. -/
theorem boundsOf_eq {name : String} {decl : TraitDecl}
    (declared : declOf? scan interface name = some decl) :
    boundsOf scan interface name = decl.item.supertraits := by
  rw [boundsOf, declared]

/-- A bound that leads somewhere names a trait that is declared. -/
theorem target?_eq_some {bound : Bound} {name : String}
    (leads : target? scan interface bound = some name) :
    ∃ segment parent, required? bound = some segment ∧
      declOf? scan interface segment.name = some parent ∧ parent.name = name := by
  obtain ⟨segment, requires, leads⟩ := Option.bind_eq_some_iff.mp leads
  obtain ⟨parent, declared, named⟩ := Option.map_eq_some_iff.mp leads
  exact ⟨segment, parent, requires, declared, named⟩

namespace Place

/-- From a trait one gets to its bounds. -/
theorem mem_next_trait {name : String} {place : Place}
    (listed : place ∈ next scan interface (trait name)) :
    ∃ position bound, (boundsOf scan interface name)[position]? = some bound ∧
      place = .bound name position := by
  obtain ⟨⟨bound, position⟩, stands, rfl⟩ := List.mem_map.mp listed
  exact ⟨position, bound, List.mem_zipIdx_iff_getElem?.mp stands, rfl⟩

/-- From a bound one gets to the trait that it names. -/
theorem mem_next_bound {name : String} {position : Nat} {place : Place}
    (listed : place ∈ next scan interface (bound name position)) :
    ∃ stands parent, (boundsOf scan interface name)[position]? = some stands ∧
      target? scan interface stands = some parent ∧ place = .trait parent := by
  obtain ⟨parent, leads, rfl⟩ := List.mem_map.mp listed
  obtain ⟨stands, there, leads⟩ := Option.bind_eq_some_iff.mp (Option.mem_toList.mp leads)
  exact ⟨stands, parent, there, leads, rfl⟩

/-- A place in the hierarchy: its trait is included. -/
def Within (scan : ScanResult) (interface : Interface) (place : Place) : Prop :=
  ∃ decl, Includes scan interface decl ∧ decl.name = place.name

/-- From a place of the hierarchy one gets to places of the hierarchy. -/
theorem Within.next {place : Place} (within : place.Within scan interface) :
    ∀ other ∈ place.next scan interface, other.Within scan interface := by
  obtain ⟨decl, included, named⟩ := within
  intro other listed
  cases place with
  | trait name =>
      obtain ⟨position, bound, -, rfl⟩ := mem_next_trait listed
      exact ⟨decl, included, named⟩
  | bound name position =>
      obtain ⟨stands, parent, there, leads, rfl⟩ := mem_next_bound listed
      obtain ⟨segment, decl', requires, declared, named'⟩ := target?_eq_some leads
      subst named
      rw [boundsOf_eq included.declOf?_eq] at there
      exact ⟨decl', included.bound (List.mem_of_getElem? there) requires declared, named'⟩

/-- A trait fails with its own members. -/
theorem yields_trait_eq_error_iff {name : String} {failure : Failure} :
    (trait name).yields scan interface = .error failure ↔
      (trait name).FailsWith scan interface failure := by
  cases declared : declOf? scan interface name with
  | none =>
      refine ⟨fun fails => ?_, fun fails => ?_⟩
      · simp [yields, declared] at fails
      · cases fails <;> simp_all
  | some decl =>
      simp only [yields, declared, Except.map_eq_error_iff, TraitMembers.ofTrait_eq_error_iff]
      constructor
      · rintro (⟨takes, rfl⟩ | ⟨takesNone, fails⟩)
        · exact .generic declared takes
        · exact .member declared takesNone fails
      · intro fails
        cases fails with
        | generic declared' takes =>
            rw [declared] at declared'
            cases declared'
            exact .inl ⟨takes, rfl⟩
        | member declared' takesNone fails =>
            rw [declared] at declared'
            cases declared'
            exact .inr ⟨takesNone, fails⟩

/-- A bound fails if it cannot be followed. -/
theorem yields_bound_eq_error_iff {name : String} {position : Nat} {failure : Failure} :
    (bound name position).yields scan interface = .error failure ↔
      (bound name position).FailsWith scan interface failure := by
  cases there : (boundsOf scan interface name)[position]?.bind required? with
  | none =>
      refine ⟨fun fails => ?_, fun fails => ?_⟩
      · simp [yields, there] at fails
      · cases fails with
        | arguments stands requires => simp [stands, requires] at there
  | some segment =>
      obtain ⟨bound, stands, requires⟩ := Option.bind_eq_some_iff.mp there
      simp only [yields, there]
      constructor
      · intro fails
        split at fails
        next wrong =>
          cases fails
          obtain ⟨scanned, gives⟩ := Bool.and_eq_true_iff.mp wrong
          obtain ⟨parent, found⟩ := Option.isSome_iff_exists.mp scanned
          exact .arguments stands requires found (by simpa using gives)
        next => cases fails
      · intro fails
        cases fails with
        | arguments stands' requires' scanned gives =>
            rw [stands] at stands'
            cases stands'
            rw [requires] at requires'
            cases requires'
            simp [scanned, gives]

/-- Looking at a place fails with what is wrong there. -/
theorem yields_eq_error_iff {place : Place} {failure : Failure} :
    place.yields scan interface = .error failure ↔ place.FailsWith scan interface failure := by
  cases place with
  | trait name => exact yields_trait_eq_error_iff
  | bound name position => exact yields_bound_eq_error_iff

end Place

/-! ## Gathering along places -/

/-- What looking at places one after the other yields. -/
def gather (scan : ScanResult) (interface : Interface) (places : List Place) :
    Except Failure (List TraitMembers) :=
  (places.mapM (Place.yields scan interface)).map List.flatten

/-- Nothing is gathered from no places. -/
@[simp] theorem gather_nil : gather scan interface [] = .ok [] := rfl

/-- What places yield is gathered in their order. -/
theorem gather_cons (place : Place) (rest : List Place) :
    gather scan interface (place :: rest) = (place.yields scan interface).bind fun first =>
      (gather scan interface rest).map (first ++ ·) := by
  rw [gather, Except.mapM_cons, gather]
  cases place.yields scan interface with
  | error => rfl
  | ok first => cases rest.mapM (Place.yields scan interface) <;> rfl

/-- A place that yields nothing can be left out. -/
theorem gather_cons_of_nothing {place : Place} (rest : List Place)
    (nothing : place.yields scan interface = .ok []) :
    gather scan interface (place :: rest) = gather scan interface rest := by
  rw [gather_cons, nothing]
  cases gather scan interface rest <;> rfl

/-- The first failure is the whole result. -/
theorem gather_cons_of_failure {place : Place} (rest : List Place) {failure : Failure}
    (fails : place.yields scan interface = .error failure) :
    gather scan interface (place :: rest) = .error failure := by
  rw [gather_cons, fails]
  rfl

/-- What two lists of places yield is gathered one after the other. -/
theorem gather_append (places others : List Place) :
    gather scan interface (places ++ others) = (gather scan interface places).bind fun first =>
      (gather scan interface others).map (first ++ ·) := by
  rw [gather, List.mapM_append, gather, gather]
  cases places.mapM (Place.yields scan interface) with
  | error => rfl
  | ok first =>
      cases others.mapM (Place.yields scan interface) with
      | error => rfl
      | ok second => exact congrArg Except.ok List.flatten_append

/-- The traits that were gathered are those that were looked at, with the members of each. -/
theorem gather_eq_ok {places : List Place} {gathered : List TraitMembers}
    (within : ∀ place ∈ places, place.Within scan interface)
    (made : gather scan interface places = .ok gathered) :
    List.Forall₂ (fun name own => ∃ decl, declOf? scan interface name = some decl ∧
      (TraitMembers.ofTrait interface.name decl).outcome = .ok own)
      (places.filterMap Place.trait?) gathered := by
  induction places generalizing gathered with
  | nil =>
      cases made
      exact .nil
  | cons place rest ih =>
      obtain ⟨here, others⟩ := List.forall_mem_cons.mp within
      rw [gather_cons] at made
      obtain ⟨first, looked, made⟩ := Except.bind_eq_ok_iff.mp made
      obtain ⟨later, behind, rfl⟩ := Except.map_eq_ok_iff.mp made
      cases place with
      | trait name =>
          obtain ⟨decl, included, rfl⟩ := here
          have declared : declOf? scan interface decl.name = some decl := included.declOf?_eq
          simp only [Place.yields, declared] at looked
          obtain ⟨own, members, rfl⟩ := Except.map_eq_ok_iff.mp looked
          exact .cons ⟨decl, declared, members⟩ (ih others behind)
      | bound name position =>
          have empty : first = [] := by
            rw [Place.yields] at looked
            split at looked
            · exact (Except.ok.inj looked).symm
            · split at looked
              · cases looked
              · exact (Except.ok.inj looked).symm
          subst empty
          exact ih others behind

/-- The traits that are gathered are those of the places, in their order. -/
theorem gather_names {places : List Place} {gathered : List TraitMembers}
    (within : ∀ place ∈ places, place.Within scan interface)
    (made : gather scan interface places = .ok gathered) :
    gathered.map TraitMembers.name = places.filterMap Place.trait? := by
  rw [eq_comm, ← List.forall₂_eq_eq_eq, List.forall₂_map_right_iff]
  refine (gather_eq_ok within made).imp fun name own => ?_
  rintro ⟨decl, declared, members⟩
  rw [(TraitMembers.ofTrait_declared members).1, declOf?_name declared]

/-! ## Searching the places -/

namespace Place

/-- The names of the traits among some places. -/
theorem mem_filterMap_trait? {places : List Place} {name : String} :
    name ∈ places.filterMap trait? ↔ trait name ∈ places := by
  rw [List.mem_filterMap]
  constructor
  · rintro ⟨place, listed, same⟩
    cases place with
    | trait other => exact Option.some.inj same ▸ listed
    | bound => cases same
  · exact fun listed => ⟨_, listed, rfl⟩

end Place

/-- A bound is seen only after its trait. -/
def Owned (seen : List Place) : Prop :=
  ∀ name position, Place.bound name position ∈ seen → Place.trait name ∈ seen

/-- A bound may be added behind its trait. -/
theorem Owned.concat_bound {seen : List Place} {name : String} {position : Nat}
    (owned : Owned seen) (here : .trait name ∈ seen) :
    Owned (seen ++ [.bound name position]) := by
  intro other at_ listed
  obtain earlier | new := List.mem_append.mp listed
  · exact List.mem_append_left _ (owned other at_ earlier)
  · cases List.mem_singleton.mp new
    exact List.mem_append_left _ here

/-- A trait may be added anywhere. -/
theorem Owned.concat_trait {seen : List Place} {name : String} (owned : Owned seen) :
    Owned (seen ++ [.trait name]) := by
  intro other position listed
  obtain earlier | new := List.mem_append.mp listed
  · exact List.mem_append_left _ (owned other position earlier)
  · cases List.mem_singleton.mp new

open DepthFirst in
/-- A search visits a bound only after its trait. -/
theorem Owned.of_search {seen agenda order : List Place} (owned : Owned seen)
    (planned : ∀ name position, .bound name position ∈ agenda → .trait name ∈ seen)
    (search : Search (Place.next scan interface) seen agenda order) : Owned order := by
  induction search with
  | done => exact owned
  | again _ _ ih =>
      exact ih owned fun name position listed =>
        planned name position (List.mem_cons_of_mem _ listed)
  | @fresh seen agenda order place _ _ ih =>
      refine ih (fun name position listed => ?_) fun name position listed => ?_
      · refine List.mem_append_left _ ?_
        obtain earlier | here := List.mem_append.mp listed
        · exact owned name position earlier
        · exact planned name position (by simp [List.mem_singleton.mp here])
      · obtain new | later := List.mem_append.mp listed
        · cases place with
          | trait other =>
              obtain ⟨_, _, -, same⟩ := Place.mem_next_trait new
              cases same
              simp
          | bound other _ =>
              obtain ⟨_, _, -, -, same⟩ := Place.mem_next_bound new
              cases same
        · exact List.mem_append_left _ (planned name position (List.mem_cons_of_mem _ later))

open DepthFirst in
/-- A bound that is found was seen before or on the agenda, or its trait was not seen before. -/
theorem origin_of_search {seen agenda order : List Place}
    (search : Search (Place.next scan interface) seen agenda order) {name : String}
    {position : Nat} (listed : .bound name position ∈ order) :
    .bound name position ∈ seen ∨ .bound name position ∈ agenda ∨ .trait name ∉ seen := by
  induction search with
  | done => exact .inl listed
  | again _ _ ih =>
      obtain earlier | later | new := ih listed
      · exact .inl earlier
      · exact .inr (.inl (List.mem_cons_of_mem _ later))
      · exact .inr (.inr new)
  | @fresh seen agenda order place unknown _ ih =>
      obtain seen_ | planned | new := ih listed
      · obtain earlier | here := List.mem_append.mp seen_
        · exact .inl earlier
        · exact .inr (.inl (by simp [List.mem_singleton.mp here]))
      · obtain leads | later := List.mem_append.mp planned
        · cases place with
          | trait other =>
              obtain ⟨_, _, -, same⟩ := Place.mem_next_trait leads
              cases same
              exact .inr (.inr unknown)
          | bound other _ =>
              obtain ⟨_, _, -, -, same⟩ := Place.mem_next_bound leads
              cases same
        · exact .inr (.inl (List.mem_cons_of_mem _ later))
      · exact .inr (.inr fun earlier => new (List.mem_append_left _ earlier))

/-! ## Visits -/

/-- The places that were seen go with the traits that were found. -/
structure Matches (scan : ScanResult) (interface : Interface) (seen : List Place)
    (found : List TraitMembers) : Prop where
  names : found.map TraitMembers.name = seen.filterMap Place.trait?
  within : ∀ place ∈ seen, place.Within scan interface
  owned : Owned seen

/-- What has been seen and what has been found grow together. -/
theorem Matches.append {seen added : List Place} {found new : List TraitMembers}
    (before : Matches scan interface seen found)
    (within : ∀ place ∈ added, place.Within scan interface) (owned : Owned (seen ++ added))
    (gathered : gather scan interface added = .ok new) :
    Matches scan interface (seen ++ added) (found ++ new) where
  names := by
    rw [List.map_append, List.filterMap_append, before.names, gather_names within gathered]
  within place listed := (List.mem_append.mp listed).elim (before.within place) (within place)
  owned := owned

/-- A trait has been found if it has been seen. -/
theorem Matches.mem_iff {seen : List Place} {found : List TraitMembers}
    (before : Matches scan interface seen found) {name : String} :
    name ∈ found.map TraitMembers.name ↔ .trait name ∈ seen := by
  rw [before.names, Place.mem_filterMap_trait?]

open DepthFirst in
/-- A search that is gathered keeps what has been seen and found together. -/
theorem Matches.of_search {seen agenda added : List Place} {found new : List TraitMembers}
    (before : Matches scan interface seen found)
    (planned : ∀ place ∈ agenda, place.Within scan interface)
    (owned : ∀ name position, .bound name position ∈ agenda → .trait name ∈ seen)
    (search : Search (Place.next scan interface) seen agenda (seen ++ added))
    (gathered : gather scan interface added = .ok new) :
    Matches scan interface (seen ++ added) (found ++ new) := by
  have within := search.forall_mem before.within planned fun _ => Place.Within.next
  exact before.append (fun place listed => within place (List.mem_append_right _ listed))
    (before.owned.of_search owned search) gathered

/-- Visits at a depth gather along the order in which the places are searched. -/
def VisitsInOrder (scan : ScanResult) (interface : Interface) (depth : Nat) : Prop :=
  ∀ {decl : TraitDecl} {found : List TraitMembers} {seen added : List Place},
    Includes scan interface decl → Ready scan interface depth found → Matches scan interface seen found →
    DepthFirst.Search (Place.next scan interface) seen [.trait decl.name] (seen ++ added) →
    (visit scan interface.name depth decl found).outcome =
      (gather scan interface added).map (found ++ ·)

/-- A search for what was seen finds nothing. -/
theorem eq_nil_of_search {seen agenda added : List Place} (known : agenda ⊆ seen)
    (search : DepthFirst.Search (Place.next scan interface) seen agenda (seen ++ added)) :
    added = [] := by
  generalize same : seen ++ added = order at search
  induction search with
  | done => exact List.append_right_eq_self.mp same
  | again _ _ ih => exact ih (List.cons_subset.mp known).2 same
  | fresh unknown => exact absurd (known List.mem_cons_self) unknown

/-- What following a bound comes to, once the interface's own trait was found: nothing, also if it
leads back there, or what is wrong with it, or the visit of a trait. -/
theorem follow_cases {name : String} {position : Nat} {bound : Bound} {depth : Nat}
    {found : List TraitMembers} (own : interface.name ∈ found.map TraitMembers.name)
    (stands : (boundsOf scan interface name)[position]? = some bound) :
    ((∀ target, target? scan interface bound = some target → target = interface.name) ∧
        Place.yields scan interface (.bound name position) = .ok [] ∧
        (follow scan interface.name depth found bound).outcome = .ok found) ∨
      (∃ failure, Place.yields scan interface (.bound name position) = .error failure ∧
        (follow scan interface.name depth found bound).outcome = .error failure) ∨
      ∃ segment parent, required? bound = some segment ∧
        declOf? scan interface segment.name = some parent ∧
        Place.yields scan interface (.bound name position) = .ok [] ∧
        (follow scan interface.name depth found bound).outcome =
          (visit scan interface.name depth parent found).outcome := by
  cases requires : required? bound with
  | none => exact .inl (by simp [target?, Place.yields, follow, stands, requires])
  | some segment =>
      cases scanned : scan.findTrait segment.name with
      | none =>
          refine .inl ⟨fun target leads => ?_, ?_, ?_⟩
          · rw [target?, requires, Option.bind_some, declOf?, scanned] at leads
            split at leads <;> cases leads
            rfl
          · simp [Place.yields, stands, requires, scanned]
          · simp [follow, requires, scanned, Except.bind]
      | some parent =>
          cases gives : segment.arguments.isNone with
          | false =>
              refine .inr (.inl ⟨.unsupportedInterface interface.name
                (.genericSupertrait segment.name), ?_, ?_⟩)
              · simp [Place.yields, stands, requires, scanned, gives]
              · simp only [follow, requires, scanned, gives]
                rfl
          | true =>
              have nothing : Place.yields scan interface (.bound name position) = .ok [] := by
                simp [Place.yields, stands, requires, scanned, gives]
              have visits : (follow scan interface.name depth found bound).outcome =
                  (visit scan interface.name depth parent found).outcome := by
                simp [follow, requires, scanned, gives]
              by_cases back : segment.name = interface.name
              · refine .inl ⟨fun target leads => ?_, nothing, ?_⟩
                · rw [target?, requires, Option.bind_some, declOf?, if_pos back] at leads
                  exact (Option.some.inj leads).symm
                · rw [visits]
                  exact visit_outcome_of_mem (by rw [findTrait_name scanned, back]; exact own)
              · refine .inr (.inr ⟨segment, parent, rfl, ?_, nothing, visits⟩)
                rw [declOf?, if_neg back, scanned]

open DepthFirst in
/-- **One bound.** If visits at a depth gather in order, so does following a bound there. -/
theorem follow_eq {depth : Nat} (visits : VisitsInOrder scan interface depth) {decl : TraitDecl}
    (included : Includes scan interface decl) {position : Nat} {bound : Bound}
    (stands : decl.item.supertraits[position]? = some bound) {found : List TraitMembers}
    {seen added : List Place} (ready : Ready scan interface depth found)
    (before : Matches scan interface seen found) (here : .trait decl.name ∈ seen)
    (search : Search (Place.next scan interface) (seen ++ [.bound decl.name position])
      (Place.next scan interface (.bound decl.name position))
      (seen ++ [.bound decl.name position] ++ added)) :
    (follow scan interface.name depth found bound).outcome =
      (gather scan interface (.bound decl.name position :: added)).map (found ++ ·) := by
  have there : (boundsOf scan interface decl.name)[position]? = some bound := by
    rw [boundsOf_eq included.declOf?_eq, stands]
  have leads : Place.next scan interface (.bound decl.name position) =
      (target? scan interface bound).toList.map .trait := by
    rw [Place.next, Place.targets, there, Option.bind_some]
  obtain ⟨back, nothing, followed⟩ | ⟨failure, fails, followed⟩ |
    ⟨segment, parent, requires, declared, nothing, followed⟩ := follow_cases ready.own there
  · have known : Place.next scan interface (.bound decl.name position) ⊆
        seen ++ [.bound decl.name position] := by
      intro place listed
      rw [leads] at listed
      obtain ⟨target, same, rfl⟩ := List.mem_map.mp listed
      rw [back target (Option.mem_toList.mp same)]
      exact List.mem_append_left _ (before.mem_iff.mp ready.own)
    rw [followed, eq_nil_of_search known search, gather_cons_of_nothing [] nothing]
    exact congrArg Except.ok (List.append_nil found).symm
  · rw [followed, gather_cons_of_failure added fails]
    rfl
  · have target : target? scan interface bound = some parent.name := by
      rw [target?, requires, Option.bind_some, declared, Option.map_some]
    have within : ∀ place ∈ [Place.bound decl.name position], place.Within scan interface :=
      List.forall_mem_singleton.mpr ⟨decl, included, rfl⟩
    have gathered : gather scan interface [.bound decl.name position] = .ok [] :=
      gather_cons_of_nothing [] nothing
    have between := before.append within (before.owned.concat_bound here) gathered
    rw [List.append_nil] at between
    rw [leads, target] at search
    rw [followed, gather_cons_of_nothing added nothing]
    exact visits (included.bound (List.mem_of_getElem? stands) requires declared) ready between search

open DepthFirst in
/-- Looking at one bound of a trait leads to no other one of the same trait. -/
theorem notMem_of_search {name : String} {position later : Nat} {seen first : List Place}
    (one : Search (Place.next scan interface) seen [.bound name position]
      (seen ++ .bound name position :: first))
    (here : .trait name ∈ seen) (other : later ≠ position) (unseen : .bound name later ∉ seen) :
    .bound name later ∉ seen ++ .bound name position :: first := by
  intro listed
  obtain earlier | planned | new := origin_of_search one listed
  · exact unseen earlier
  · cases List.mem_singleton.mp planned
    exact other rfl
  · exact new here

open DepthFirst in
/-- **The bounds of a trait.** So does following the bounds that are left of a trait. -/
theorem foldlM_follow_eq {depth : Nat} (visits : VisitsInOrder scan interface depth)
    {decl : TraitDecl} (included : Includes scan interface decl) {done rest : List Bound}
    (split : decl.item.supertraits = done ++ rest) {found : List TraitMembers}
    {seen added : List Place} (ready : Ready scan interface depth found)
    (before : Matches scan interface seen found) (here : .trait decl.name ∈ seen)
    (ahead : ∀ position, done.length ≤ position → .bound decl.name position ∉ seen)
    (search : Search (Place.next scan interface) seen
      ((rest.zipIdx done.length).map fun entry => .bound decl.name entry.2) (seen ++ added)) :
    rest.foldlM (fun found bound => (follow scan interface.name depth found bound).outcome) found =
      (gather scan interface added).map (found ++ ·) := by
  induction rest generalizing done found seen added with
  | nil =>
      rw [eq_nil_of_search (List.nil_subset _) search]
      exact congrArg Except.ok (List.append_nil found).symm
  | cons bound rest ih =>
      rw [List.zipIdx_cons, List.map_cons] at search
      dsimp only at search
      generalize order : seen ++ added = result at search
      cases search with
      | again known => exact absurd known (ahead _ (Nat.le_refl _))
      | fresh unknown others =>
          obtain ⟨between, early, late⟩ := others.of_append
          obtain ⟨first, rfl⟩ := early.extends_
          obtain ⟨later, rfl⟩ := late.extends_
          obtain rfl : added = (.bound decl.name done.length :: first) ++ later := by
            simpa using order
          have stands : decl.item.supertraits[done.length]? = some bound := by simp [split]
          have followed := follow_eq visits included stands ready before here early
          rw [List.foldlM_cons, followed, gather_append]
          cases gathered : gather scan interface (.bound decl.name done.length :: first) with
          | error failure => rfl
          | ok new =>
              rw [gathered] at followed
              have grown := (follow_visited (visitsWell scan interface depth) included
                (List.mem_of_getElem? stands) ready followed).1
              have one : Search (Place.next scan interface) seen [.bound decl.name done.length]
                  (seen ++ .bound decl.name done.length :: first) := by
                refine .fresh unknown ?_
                simpa using early
              have between := before.of_search
                (List.forall_mem_singleton.mpr ⟨decl, included, rfl⟩)
                (fun name position listed => by cases List.mem_singleton.mp listed; exact here)
                one gathered
              have split' : decl.item.supertraits = (done ++ [bound]) ++ rest := by simp [split]
              have ahead' (position : Nat) (later : (done ++ [bound]).length ≤ position) :
                  .bound decl.name position ∉ seen ++ .bound decl.name done.length :: first := by
                rw [List.length_append, List.length_singleton] at later
                exact notMem_of_search one here (Nat.ne_of_gt later)
                  (ahead position (Nat.le_of_succ_le later))
              have others := ih split' (ready.of_visited grown) between
                (List.mem_append_left _ here) ahead' (by simpa using late)
              change rest.foldlM _ (found ++ new) = _
              rw [others]
              cases gather scan interface later with
              | error failure => rfl
              | ok last => exact congrArg Except.ok (List.append_assoc found new last)

open DepthFirst in
/-- **A new trait.** So does visiting one that was not found before, a step deeper. -/
theorem visit_fresh_eq {depth : Nat} (visits : VisitsInOrder scan interface depth)
    {decl : TraitDecl} (included : Includes scan interface decl) {found : List TraitMembers}
    {seen added : List Place} (unknown : .trait decl.name ∉ seen)
    (before : Matches scan interface seen found)
    (ready : ∀ own, (TraitMembers.ofTrait interface.name decl).outcome = .ok own →
      Ready scan interface depth (found ++ [own]))
    (search : Search (Place.next scan interface) seen [.trait decl.name] (seen ++ added)) :
    (visit scan interface.name (depth + 1) decl found).outcome =
      (gather scan interface added).map (found ++ ·) := by
  have fresh : decl.name ∉ found.map TraitMembers.name := fun known =>
    unknown (before.mem_iff.mp known)
  generalize order : seen ++ added = result at search
  cases search with
  | again known => exact absurd known unknown
  | fresh _ others =>
      obtain ⟨rest, rfl⟩ := others.extends_
      obtain rfl : added = .trait decl.name :: rest := by simpa using order
      have yields : Place.yields scan interface (.trait decl.name) =
          (TraitMembers.ofTrait interface.name decl).outcome.map fun own => [own] := by
        simp only [Place.yields, included.declOf?_eq]
      rw [visit_succ_outcome, if_neg fresh, gather_cons, yields]
      cases members : (TraitMembers.ofTrait interface.name decl).outcome with
      | error failure => rfl
      | ok own =>
          have gathered : gather scan interface [.trait decl.name] = .ok [own] := by
            rw [gather_cons, yields, members]
            rfl
          have between := before.append (List.forall_mem_singleton.mpr ⟨decl, included, rfl⟩)
            before.owned.concat_trait gathered
          have ahead (position : Nat) (_ : 0 ≤ position) :
              .bound decl.name position ∉ seen ++ [.trait decl.name] := by
            intro listed
            obtain earlier | here := List.mem_append.mp listed
            · exact unknown (before.owned decl.name position earlier)
            · cases List.mem_singleton.mp here
          rw [Place.next, boundsOf_eq included.declOf?_eq, List.append_nil] at others
          have bounds := foldlM_follow_eq visits included (List.nil_append _).symm
            (ready own members) between (List.mem_append_right _ List.mem_cons_self) ahead others
          change decl.item.supertraits.foldlM _ (found ++ [own]) = _
          rw [bounds]
          cases gather scan interface rest with
          | error failure => rfl
          | ok last => exact congrArg Except.ok (List.append_assoc found [own] last)

/-- At every depth, visits gather in order. -/
theorem visitsInOrder (scan : ScanResult) (interface : Interface) (depth : Nat) :
    VisitsInOrder scan interface depth := by
  induction depth with
  | zero =>
      intro decl found seen added included ready before search
      -- There are not so many names.
      have few := ready.valid.length_le
      have many := ready.depth
      omega
  | succ depth ih =>
      intro decl found seen added included ready before search
      by_cases known : .trait decl.name ∈ seen
      · rw [visit_outcome_of_mem (before.mem_iff.mpr known),
          eq_nil_of_search (by simpa using known) search]
        exact congrArg Except.ok (List.append_nil found).symm
      · refine visit_fresh_eq ih included known before (fun own made => ?_) search
        have fresh : decl.name ∉ found.map TraitMembers.name := fun there =>
          known (before.mem_iff.mp there)
        exact ready.concat included made fresh

/-! ## The traits on the way -/

/-- From a trait one gets, over its bounds, to the traits that it leads to. -/
theorem Place.flatMap_targets_next_trait (name : String) :
    (Place.next scan interface (.trait name)).flatMap (Place.targets scan interface) =
      leadsTo scan interface name := by
  rw [Place.next, List.flatMap_map, leadsTo, List.filterMap_eq_flatMap_toList]
  conv_rhs => rw [← List.zipIdx_map_fst 0 (boundsOf scan interface name), List.flatMap_map]
  refine List.flatMap_congr fun entry listed => ?_
  have stands : (boundsOf scan interface name)[entry.2]? = some entry.1 :=
    List.mem_zipIdx_iff_getElem?.mp listed
  rw [Place.targets, stands, Option.bind_some]

/-- From a bound one gets to its own target. -/
theorem Place.flatMap_targets_next_bound (name : String) (position : Nat) :
    (Place.next scan interface (.bound name position)).flatMap (Place.targets scan interface) =
      Place.targets scan interface (.bound name position) := by
  rw [Place.next, List.flatMap_map]
  exact List.flatMap_singleton' _

/-- Each bound that was seen has led to its trait, or that trait is first on the agenda. -/
def Led (scan : ScanResult) (interface : Interface) (seen agenda : List Place) : Prop :=
  ∀ name position, .bound name position ∈ seen →
    ∀ target ∈ Place.targets scan interface (.bound name position),
      .trait target ∈ seen ∨ agenda.head? = some (.trait target)

namespace Led

variable {seen agenda : List Place} {name other target : String} {position at_ : Nat}

/-- At the beginning nothing has been seen. -/
theorem nil (scan : ScanResult) (interface : Interface) (agenda : List Place) :
    Led scan interface [] agenda :=
  fun _ _ absent => absurd absent List.not_mem_nil

/-- A target that is not yet seen is the trait that comes next. -/
theorem of_trait (led : Led scan interface seen (.trait name :: agenda))
    (listed : .bound other at_ ∈ seen)
    (leads : target ∈ Place.targets scan interface (.bound other at_)) :
    .trait target ∈ seen ∨ target = name := by
  obtain earlier | first := led other at_ listed target leads
  · exact .inl earlier
  · cases Option.some.inj first
    exact .inr rfl

/-- With a bound first on the agenda, all that were seen have led to their traits. -/
theorem of_bound (led : Led scan interface seen (.bound name position :: agenda))
    (listed : .bound other at_ ∈ seen)
    (leads : target ∈ Place.targets scan interface (.bound other at_)) : .trait target ∈ seen := by
  obtain earlier | first := led other at_ listed target leads
  · exact earlier
  · cases first

/-- After a trait is visited, all targets that were promised are seen. -/
theorem visit_trait (led : Led scan interface seen (.trait name :: agenda)) (later : List Place) :
    Led scan interface (seen ++ [.trait name]) later := by
  refine fun other at_ listed target leads => .inl ?_
  obtain earlier | new := List.mem_append.mp listed
  · obtain there | rfl := led.of_trait earlier leads
    · exact List.mem_append_left _ there
    · exact List.mem_append_right _ List.mem_cons_self
  · cases List.mem_singleton.mp new

/-- A bound that is looked at puts its trait first on the agenda. -/
theorem visit_bound (led : Led scan interface seen (.bound name position :: agenda)) :
    Led scan interface (seen ++ [.bound name position])
      (Place.next scan interface (.bound name position) ++ agenda) := by
  intro other at_ listed target leads
  obtain earlier | new := List.mem_append.mp listed
  · exact .inl (List.mem_append_left _ (led.of_bound earlier leads))
  · cases List.mem_singleton.mp new
    have only : Place.targets scan interface (.bound name position) = [target] := by
      rw [Place.targets, Option.mem_toList] at leads
      rw [Place.targets, leads]
      rfl
    rw [Place.next, only]
    exact .inr rfl

end Led

open DepthFirst in
/-- A search of the places is one of the traits among them. -/
theorem search_traits {seen agenda order : List Place}
    (search : Search (Place.next scan interface) seen agenda order)
    (led : Led scan interface seen agenda) :
    Search (leadsTo scan interface) (seen.filterMap Place.trait?)
      (agenda.flatMap (Place.targets scan interface)) (order.filterMap Place.trait?) := by
  induction search with
  | done => exact .done
  | @again seen agenda order place known _ ih =>
      cases place with
      | trait name =>
          refine .again (Place.mem_filterMap_trait?.mpr known) (ih ?_)
          refine fun other position listed target leads => .inl ?_
          obtain earlier | rfl := led.of_trait listed leads
          · exact earlier
          · exact known
      | bound name position =>
          have all : Place.targets scan interface (.bound name position) ⊆
              seen.filterMap Place.trait? :=
            fun target leads => Place.mem_filterMap_trait?.mpr (led.of_bound known leads)
          exact (ih fun _ _ listed _ leads => .inl (led.of_bound listed leads)).skip all
  | @fresh seen agenda order place unknown _ ih =>
      cases place with
      | trait name =>
          refine .fresh (fun known => unknown (Place.mem_filterMap_trait?.mp known)) ?_
          rw [List.flatMap_append, List.filterMap_append, Place.flatMap_targets_next_trait] at ih
          exact ih (led.visit_trait _)
      | bound name position =>
          rw [List.flatMap_append, List.filterMap_append, Place.flatMap_targets_next_bound] at ih
          exact List.append_nil (seen.filterMap Place.trait?) ▸ ih led.visit_bound

/-! ## The whole hierarchy -/

/-- The traits in a hierarchy with all their bounds. -/
def allPlaces (scan : ScanResult) (interface : Interface) : List Place :=
  (interface.name :: scan.traits.map TraitDecl.name).flatMap fun name =>
    .trait name :: Place.next scan interface (.trait name)

/-- What is declared has a name among the scanned ones. -/
theorem mem_names_of_declOf? {name : String} {decl : TraitDecl}
    (declared : declOf? scan interface name = some decl) :
    name ∈ interface.name :: scan.traits.map TraitDecl.name := by
  unfold declOf? at declared
  split at declared
  next own => exact own ▸ List.mem_cons_self
  next =>
    rw [← findTrait_name declared]
    exact List.mem_cons_of_mem _ (List.mem_map_of_mem (List.mem_of_find?_eq_some declared))

/-- There are no ways out of all places. -/
theorem allPlaces_closed (scan : ScanResult) (interface : Interface) :
    ∀ place ∈ allPlaces scan interface, place.next scan interface ⊆ allPlaces scan interface := by
  intro place listed other leads
  obtain ⟨name, known, inside⟩ := List.mem_flatMap.mp listed
  have bounds {place : Place} (new : place ∈ Place.next scan interface (.trait name)) :
      place ∈ allPlaces scan interface :=
    List.mem_flatMap.mpr ⟨name, known, List.mem_cons_of_mem _ new⟩
  cases place with
  | trait =>
      obtain same | new := List.mem_cons.mp inside
      · cases same
        exact bounds leads
      · obtain ⟨_, _, -, same⟩ := Place.mem_next_trait new
        cases same
  | bound =>
      obtain ⟨_, parent, -, target, rfl⟩ := Place.mem_next_bound leads
      obtain ⟨segment, decl, -, declared, rfl⟩ := target?_eq_some target
      refine List.mem_flatMap.mpr ⟨decl.name, ?_, List.mem_cons_self⟩
      rw [declOf?_name declared]
      exact mem_names_of_declOf? declared

/-- What is collected is what is gathered along the order in which the places are searched. -/
theorem collect_outcome {order : List Place}
    (search : DepthFirst.Search (Place.next scan interface) [] [.trait interface.name] order) :
    (collect scan interface).outcome = (gather scan interface order).map MemberSet.mk := by
  have empty : Matches scan interface [] [] :=
    ⟨rfl, fun _ absent => absurd absent List.not_mem_nil, fun _ _ absent =>
      absurd absent List.not_mem_nil⟩
  rw [collect, Pass.outcome_bind, visit_fresh_eq (visitsInOrder scan interface _) .own
    List.not_mem_nil empty (fun _ made => .first made) search]
  cases gather scan interface order <;> rfl

/-- A name can be reached from the interface exactly if it is that of a trait of its hierarchy. -/
theorem reaches_iff {name : String} :
    Relation.ReflTransGen (fun earlier later => later ∈ leadsTo scan interface earlier)
        interface.name name ↔
      ∃ decl, Includes scan interface decl ∧ decl.name = name := by
  constructor
  · intro reached
    induction reached with
    | refl => exact ⟨_, .own, rfl⟩
    | tail _ leads ih =>
        obtain ⟨decl, included, rfl⟩ := ih
        rw [leadsTo, boundsOf_eq included.declOf?_eq] at leads
        obtain ⟨bound, listed, target⟩ := List.mem_filterMap.mp leads
        obtain ⟨segment, parent, requires, declared, named⟩ := target?_eq_some target
        exact ⟨parent, included.bound listed requires declared, named⟩
  · rintro ⟨decl, included, rfl⟩
    induction included with
    | own => exact .refl
    | @bound decl parent bound segment included listed requires declared ih =>
        refine ih.tail (List.mem_filterMap.mpr ⟨bound, ?_, ?_⟩)
        · rwa [boundsOf_eq included.declOf?_eq]
        · rw [target?, requires, Option.bind_some, declared, Option.map_some]

/-- **A hierarchy is collected depth first.** Collecting always comes to an end, and there is an order
along which it has been done. -/
theorem collect_collectsAlong (scan : ScanResult) (interface : Interface) :
    ∃ order, CollectsAlong scan interface order := by
  have inside : [Place.trait interface.name] ⊆ allPlaces scan interface := by
    simp [allPlaces]
  obtain ⟨order, search⟩ := DepthFirst.exists_search (allPlaces_closed scan interface) [] _ inside
  have within : ∀ place ∈ order, place.Within scan interface :=
    search.forall_mem (fun _ absent => absurd absent List.not_mem_nil)
      (List.forall_mem_singleton.mpr ⟨_, .own, rfl⟩) fun _ => Place.Within.next
  have traits : DepthFirst.IsOrder (leadsTo scan interface) interface.name
      (order.filterMap Place.trait?) :=
    (search_traits search (.nil scan interface _)).isOrder
  refine ⟨order, search.isOrder, traits, traits.nodup, fun decl => ?_, fun set made => ?_,
    fun failure => ?_, collect_failsNaming scan interface⟩
  · rw [traits.mem_iff, reaches_iff]
    constructor
    · exact fun included => ⟨included.declOf?_eq, decl, included, rfl⟩
    · rintro ⟨declared, other, included, named⟩
      have same := included.declOf?_eq
      rw [named, declared] at same
      exact Option.some.inj same ▸ included
  · rw [collect_outcome search] at made
    obtain ⟨gathered, all, rfl⟩ := Except.map_eq_ok_iff.mp made
    exact gather_eq_ok within all
  · rw [collect_outcome search, Except.map_eq_error_iff, gather, Except.map_eq_error_iff,
      Except.mapM_eq_error_iff]
    refine exists_congr fun earlier => exists_congr fun place => exists_congr fun later =>
      and_congr_right fun _ => and_congr ?_ Place.yields_eq_error_iff
    refine forall₂_congr fun other _ => ?_
    simp only [← Place.yields_eq_error_iff]
    cases other.yields scan interface <;> simp

/-- A trait without members that is bounded by others. -/
def boundedTrait (name : String) (parents : List String) : TraitDecl where
  module := .root
  item :=
    { Generation.shapeTrait with
      name := name
      supertraits := parents.map fun parent => .trait false false none (.mk false [.mk parent .none])
      entries := [] }

/-- What two traits are bounded by is collected after the first of them, and only once, also if it
leads back to the interface. -/
example :
    let child := boundedTrait "IChild" ["IFirst", "ISecond", "Copy"]
    let scan : ScanResult :=
      ⟨[], [child, boundedTrait "IFirst" ["IBase"], boundedTrait "ISecond" ["IBase"],
        boundedTrait "IBase" ["IChild"]], [], []⟩
    (collect scan ⟨child, .absent⟩).outcome.toOption.map (·.traits.map TraitMembers.name) =
      some ["IChild", "IFirst", "IBase", "ISecond"] := by
  decide

end Hierarchy

end VariantMerge
