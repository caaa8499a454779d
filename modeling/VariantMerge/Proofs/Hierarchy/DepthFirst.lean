import Mathlib.Data.Finset.Card
import Mathlib.Data.List.Induction
import Mathlib.Logic.Relation

/-!
# Depth-first order

Nodes lead to others, in an order of their own. The depth-first order from a root is the one in which
each next node is the first unseen one that the node seen last leads to, or else the node seen before
it, and so on (`DepthFirst.IsOrder`). There is just one (`DepthFirst.IsOrder.unique`); it has every
node that can be reached once (`DepthFirst.IsOrder.nodup`, `DepthFirst.IsOrder.mem_iff`). A search that
keeps an agenda of nodes finds it (`DepthFirst.Search.isOrder`), and comes to an end whenever there
are finitely many nodes, also if they lead back to each other (`DepthFirst.exists_search`).
-/

namespace VariantMerge

namespace DepthFirst

variable {α : Type*} {next : α → List α} {root : α}

/-! ## Searching -/

/-- A search with an agenda: nodes that were seen are crossed out, and others are put behind those
seen, while what they lead to comes first on the agenda. -/
inductive Search (next : α → List α) : List α → List α → List α → Prop
  | done {seen : List α} : Search next seen [] seen
  | again {seen agenda order : List α} {node : α} (known : node ∈ seen)
      (others : Search next seen agenda order) : Search next seen (node :: agenda) order
  | fresh {seen agenda order : List α} {node : α} (unknown : node ∉ seen)
      (others : Search next (seen ++ [node]) (next node ++ agenda) order) :
      Search next seen (node :: agenda) order

namespace Search

variable {seen agenda order : List α}

theorem extends_ (search : Search next seen agenda order) : seen <+: order := by
  induction search with
  | done => exact List.prefix_refl _
  | again _ _ ih => exact ih
  | fresh _ _ ih => exact (List.prefix_append _ _).trans ih

/-- Nodes that were seen make no difference on the agenda. -/
theorem skip {known : List α} (search : Search next seen agenda order) (inside : known ⊆ seen) :
    Search next seen (known ++ agenda) order := by
  induction known with
  | nil => exact search
  | cons node rest ih =>
      obtain ⟨here, others⟩ := List.cons_subset.mp inside
      exact .again here (ih others)

/-- What is in front on the agenda is searched first. -/
theorem of_append {first second : List α} (search : Search next seen (first ++ second) order) :
    ∃ between, Search next seen first between ∧ Search next between second order := by
  generalize same : first ++ second = agenda at search
  induction search generalizing first with
  | done =>
      obtain ⟨rfl, rfl⟩ := List.append_eq_nil_iff.mp same
      exact ⟨_, .done, .done⟩
  | @again seen agenda order node known others ih =>
      cases first with
      | nil =>
          rw [List.nil_append] at same
          subst same
          exact ⟨_, .done, .again known others⟩
      | cons head tail =>
          obtain ⟨rfl, rest⟩ := List.cons.inj same
          obtain ⟨between, early, late⟩ := ih rest
          exact ⟨between, .again known early, late⟩
  | @fresh seen agenda order node unknown others ih =>
      cases first with
      | nil =>
          rw [List.nil_append] at same
          subst same
          exact ⟨_, .done, .fresh unknown others⟩
      | cons head tail =>
          obtain ⟨rfl, rfl⟩ := List.cons.inj same
          obtain ⟨between, early, late⟩ := ih (List.append_assoc _ tail second)
          exact ⟨between, .fresh unknown early, late⟩

/-- What holds of all nodes seen and on the agenda, and of all that such a node leads to, holds of
all nodes found. -/
theorem forall_mem (search : Search next seen agenda order) {holds : α → Prop}
    (before : ∀ node ∈ seen, holds node) (planned : ∀ node ∈ agenda, holds node)
    (leads : ∀ node, holds node → ∀ other ∈ next node, holds other) :
    ∀ node ∈ order, holds node := by
  induction search with
  | done => exact before
  | again _ _ ih => exact ih before fun node listed => planned node (List.mem_cons_of_mem _ listed)
  | @fresh seen agenda order node _ _ ih =>
      have here : holds node := planned node List.mem_cons_self
      refine ih (fun other listed => ?_) fun other listed => ?_
      · obtain earlier | new := List.mem_append.mp listed
        · exact before other earlier
        · exact List.mem_singleton.mp new ▸ here
      · obtain new | later := List.mem_append.mp listed
        · exact leads node here other new
        · exact planned other (List.mem_cons_of_mem _ later)

end Search

/-! ## The order -/

variable [DecidableEq α]

/-- The node that comes up next: the first unseen one that a seen node leads to. The node that was
seen last is asked first. -/
def upcoming (next : α → List α) (seen : List α) : Option α :=
  (seen.reverse.flatMap next).find? (· ∉ seen)

/-- The depth-first order from a root: every beginning of it goes on with the node that comes up, and
it ends when none does. -/
structure IsOrder (next : α → List α) (root : α) (order : List α) : Prop where
  starts : order.head? = some root
  goesOn : ∀ seen later, seen ≠ [] → seen ++ later = order → upcoming next seen = later.head?

theorem upcoming_eq_some {seen : List α} {node : α} (comes : upcoming next seen = some node) :
    node ∉ seen ∧ ∃ earlier ∈ seen, node ∈ next earlier := by
  have unseen : node ∉ seen := by simpa using List.find?_some comes
  obtain ⟨earlier, listed, leads⟩ := List.mem_flatMap.mp (List.mem_of_find?_eq_some comes)
  exact ⟨unseen, earlier, List.mem_reverse.mp listed, leads⟩

namespace IsOrder

variable {order : List α}

theorem root_mem (isOrder : IsOrder next root order) : root ∈ order :=
  List.mem_of_head? isOrder.starts

/-- What holds of the root and, with a beginning, of the node that comes up holds of every
beginning. -/
theorem prefix_induction (isOrder : IsOrder next root order) (holds : List α → Prop)
    (start : holds [root])
    (step : ∀ seen node, holds seen → upcoming next seen = some node → holds (seen ++ [node])) :
    holds order := by
  suffices every : ∀ seen later, seen ≠ [] → seen ++ later = order → holds seen by
    refine every order [] (fun empty => ?_) (List.append_nil order)
    exact absurd (empty ▸ isOrder.root_mem) List.not_mem_nil
  intro seen
  induction seen using List.reverseRecOn with
  | nil => exact fun _ nonempty => absurd rfl nonempty
  | append_singleton seen node ih =>
      intro later _ same
      cases seen with
      | nil =>
          have first := isOrder.starts
          rw [← same] at first
          cases Option.some.inj first
          exact start
      | cons head tail =>
          rw [List.append_assoc] at same
          have comes := isOrder.goesOn _ _ (List.cons_ne_nil head tail) same
          exact step _ node (ih _ (List.cons_ne_nil head tail) same) comes

/-- No node occurs twice. -/
theorem nodup (isOrder : IsOrder next root order) : order.Nodup := by
  refine isOrder.prefix_induction List.Nodup (List.nodup_singleton root) fun seen node distinct comes => ?_
  rw [← List.concat_eq_append]
  exact distinct.concat (upcoming_eq_some comes).1

/-- All that a node leads to is in the order as well. -/
theorem next_subset (isOrder : IsOrder next root order) {node : α} (listed : node ∈ order) :
    next node ⊆ order := by
  intro other leads
  have ended : upcoming next order = none :=
    isOrder.goesOn order [] (List.ne_nil_of_mem listed) (List.append_nil order)
  have asked : other ∈ order.reverse.flatMap next :=
    List.mem_flatMap.mpr ⟨node, List.mem_reverse.mpr listed, leads⟩
  simpa using List.find?_eq_none.mp ended other asked

/-- The nodes of the order are those that can be reached from the root. -/
theorem mem_iff (isOrder : IsOrder next root order) {node : α} :
    node ∈ order ↔ Relation.ReflTransGen (fun earlier later => later ∈ next earlier) root node := by
  constructor
  · refine isOrder.prefix_induction (fun seen => ∀ node ∈ seen, Relation.ReflTransGen
      (fun earlier later => later ∈ next earlier) root node) ?_ ?_ node
    · intro node here
      rw [List.mem_singleton.mp here]
    · intro seen node reached comes other listed
      obtain earlier | here := List.mem_append.mp listed
      · exact reached other earlier
      · obtain ⟨-, from_, inside, leads⟩ := upcoming_eq_some comes
        rw [List.mem_singleton.mp here]
        exact (reached from_ inside).tail leads
  · intro reached
    induction reached with
    | refl => exact isOrder.root_mem
    | tail _ leads ih => exact isOrder.next_subset ih leads

/-- There is one order only. -/
theorem unique {other : List α} (isOrder : IsOrder next root order)
    (isOther : IsOrder next root other) : order = other := by
  -- Each is a beginning of the other one.
  have starts {first second : List α} (isFirst : IsOrder next root first)
      (isSecond : IsOrder next root second) : first <+: second := by
    refine (isFirst.prefix_induction (fun seen => seen ≠ [] ∧ seen <+: second)
      ⟨List.cons_ne_nil _ _, ?_⟩ ?_).2
    · obtain ⟨rest, rfl⟩ := List.head?_eq_some_iff.mp isSecond.starts
      exact ⟨rest, rfl⟩
    · rintro seen node ⟨nonempty, later, same⟩ comes
      rw [isSecond.goesOn seen later nonempty same] at comes
      obtain ⟨rest, rfl⟩ := List.head?_eq_some_iff.mp comes
      exact ⟨by simp, rest, by rw [List.append_assoc]; exact same⟩
  exact (starts isOrder isOther).eq_of_length_le (starts isOther isOrder).length_le

end IsOrder

/-! ## What a search finds -/

namespace Search

variable {seen agenda order : List α}

/-- **The invariant of the search.** If asking the seen nodes yields what is first on the agenda,
every longer beginning of what the search finds goes on with the node that comes up. -/
theorem goesOn (search : Search next seen agenda order)
    (agrees : ∀ later, seen ⊆ later →
      (seen.reverse.flatMap next).find? (· ∉ later) = agenda.find? (· ∉ later))
    {before after : List α} (begins : seen <+: before) (same : before ++ after = order) :
    upcoming next before = after.head? := by
  induction search generalizing before with
  | @done seen =>
      obtain ⟨rest, rfl⟩ := begins
      obtain ⟨rfl, rfl⟩ : rest = [] ∧ after = [] := by simpa using same
      rw [List.append_nil, upcoming, agrees seen (List.Subset.refl seen)]
      rfl
  | @again seen agenda order node known _ ih =>
      refine ih (fun later contains => ?_) begins same
      rw [agrees later contains, List.find?_cons_of_neg (by simpa using contains known)]
  | @fresh seen agenda order node unknown others ih =>
      obtain ⟨rest, rfl⟩ := begins
      cases rest with
      | nil =>
          obtain ⟨more, rfl⟩ := others.extends_
          obtain rfl : after = node :: more := by simpa using same
          rw [List.append_nil, upcoming, agrees seen (List.Subset.refl seen),
            List.find?_cons_of_pos (by simpa using unknown)]
          rfl
      | cons head tail =>
          obtain ⟨more, found⟩ := others.extends_
          have first : head = node := by
            rw [← found] at same
            simp only [List.append_assoc, List.append_cancel_left_eq, List.cons_append,
              List.nil_append, List.cons.injEq] at same
            exact same.1
          subst first
          refine ih (fun later contains => ?_) ⟨tail, by simp⟩ same
          -- The node was seen, so only what it leads to comes before the rest of the agenda.
          obtain ⟨earlier, here⟩ := List.append_subset.mp contains
          rw [List.reverse_append, List.flatMap_append, List.find?_append, List.find?_append,
            agrees later earlier, List.find?_cons_of_neg (by simpa using here)]
          simp

/-- **A search from a root finds the depth-first order.** -/
theorem isOrder (search : Search next [] [root] order) : IsOrder next root order := by
  cases search with
  | again known => exact absurd known List.not_mem_nil
  | fresh _ others =>
      rw [List.nil_append, List.append_nil] at others
      obtain ⟨more, found⟩ := others.extends_
      refine ⟨found ▸ rfl, fun before after nonempty same => ?_⟩
      refine others.goesOn (fun later contains => by simp) ?_ same
      cases before with
      | nil => exact absurd rfl nonempty
      | cons head tail =>
          rw [← found] at same
          obtain ⟨rfl, -⟩ := List.cons.inj same
          exact ⟨tail, rfl⟩

end Search

/-- Among finitely many nodes every search comes to an end: each node that was not seen is put behind
those seen only once. -/
theorem exists_search {nodes : List α} (closed : ∀ node ∈ nodes, next node ⊆ nodes)
    (seen agenda : List α) (inside : agenda ⊆ nodes) : ∃ order, Search next seen agenda order := by
  match agenda with
  | [] => exact ⟨seen, .done⟩
  | node :: rest =>
      obtain ⟨here, others⟩ := List.cons_subset.mp inside
      by_cases known : node ∈ seen
      · obtain ⟨order, search⟩ := exists_search closed seen rest others
        exact ⟨order, .again known search⟩
      · have fewer : (nodes.toFinset \ (seen ++ [node]).toFinset).card <
            (nodes.toFinset \ seen.toFinset).card := by
          refine Finset.card_lt_card (Finset.ssubset_iff_of_subset ?_ |>.mpr ⟨node, ?_, ?_⟩)
          · intro other
            simp only [Finset.mem_sdiff, List.mem_toFinset, List.mem_append, not_or]
            exact fun ⟨listed, unseen, _⟩ => ⟨listed, unseen⟩
          · simp [here, known]
          · simp
        have leads : next node ++ rest ⊆ nodes := List.append_subset.mpr ⟨closed node here, others⟩
        obtain ⟨order, search⟩ := exists_search closed (seen ++ [node]) (next node ++ rest) leads
        exact ⟨order, .fresh known search⟩
termination_by ((nodes.toFinset \ seen.toFinset).card, agenda.length)
decreasing_by
  · exact .right _ (Nat.lt_succ_self _)
  · exact .left _ _ fewer

end DepthFirst

end VariantMerge
