import Mathlib.Data.List.Infix
import VariantMerge.ModulePath

/-!
# The files of modules

The file of a module is named by the segments of its path with `__` between them. The names of two
modules' files can be the same, since segments may contain `__` as well. They cannot if no segment
does, and if no run of underscores belongs to two segments (`ModulePath.fileStem_injective`).
-/

namespace VariantMerge

namespace ModulePath

/-- What is put between the segments. -/
def separator : List Char := ['_', '_']

/-- Segments that can be read back from the stem of a file. -/
structure Readable (names : List String) : Prop where
  nonempty : ∀ name ∈ names, name ≠ ""
  notRoot : "crate" ∉ names
  single : ∀ name ∈ names, ¬ separator <:+: name.toList
  oneSided : (∀ name ∈ names, name.toList.head? ≠ some '_') ∨
    ∀ name ∈ names, name.toList.getLast? ≠ some '_'

instance (names : List String) : Decidable (Readable names) :=
  decidable_of_iff ((∀ name ∈ names, name ≠ "") ∧ "crate" ∉ names ∧
      (∀ name ∈ names, ¬ separator <:+: name.toList) ∧
      ((∀ name ∈ names, name.toList.head? ≠ some '_') ∨
        ∀ name ∈ names, name.toList.getLast? ≠ some '_'))
    ⟨fun ⟨nonempty, notRoot, single, oneSided⟩ => ⟨nonempty, notRoot, single, oneSided⟩,
      fun ⟨nonempty, notRoot, single, oneSided⟩ => ⟨nonempty, notRoot, single, oneSided⟩⟩

theorem Readable.subset {names fewer : List String} (readable : Readable names)
    (subset : fewer ⊆ names) : Readable fewer where
  nonempty name member := readable.nonempty name (subset member)
  notRoot member := readable.notRoot (subset member)
  single name member := readable.single name (subset member)
  oneSided := readable.oneSided.imp (fun front name member => front name (subset member))
    fun back name member => back name (subset member)

/-- A segment does not go on before a separator: its longer reading would contain one, or end with
an underscore where the next one starts with an underscore. -/
theorem eq_nil_of_separator {segment more rest others : List Char}
    (same : separator ++ rest = more ++ (separator ++ others))
    (single : ¬ separator <:+: segment ++ more)
    (oneSided : rest.head? ≠ some '_' ∨ (segment ++ more).getLast? ≠ some '_') : more = [] := by
  match more with
  | [] => rfl
  | [c] =>
    obtain ⟨rfl, tail⟩ := List.cons.inj same
    obtain ⟨-, tail⟩ := List.cons.inj tail
    obtain front | back := oneSided
    · have start : rest = '_' :: others := tail
      exact absurd (congrArg List.head? start) front
    · exact absurd List.getLast?_concat back
  | c :: d :: more =>
    obtain ⟨rfl, tail⟩ := List.cons.inj same
    obtain ⟨rfl, -⟩ := List.cons.inj tail
    exact absurd ⟨segment, more, by simp [separator]⟩ single

/-- Two texts that start with segments before a separator have the same segment and rest. -/
theorem separator_cancel {segment other rest others : List Char}
    (same : segment ++ (separator ++ rest) = other ++ (separator ++ others))
    (single : ¬ separator <:+: segment) (single' : ¬ separator <:+: other)
    (oneSided : (rest.head? ≠ some '_' ∧ others.head? ≠ some '_') ∨
      (segment.getLast? ≠ some '_' ∧ other.getLast? ≠ some '_')) :
    segment = other ∧ rest = others := by
  have segments : segment = other := by
    -- One segment goes on where the other one ends, but only by nothing.
    obtain ⟨more, rfl, tail⟩ | ⟨more, rfl, tail⟩ := List.append_eq_append_iff.mp same
    · rw [eq_nil_of_separator tail single' (oneSided.imp And.left And.right), List.append_nil]
    · rw [eq_nil_of_separator tail single (oneSided.imp And.right And.left), List.append_nil]
  refine ⟨segments, ?_⟩
  rw [segments, List.append_cancel_left_eq, List.append_cancel_left_eq] at same
  exact same

def joined (segments : List String) : List Char :=
  separator.intercalate (segments.map String.toList)

theorem joined_cons_cons (first second : String) (rest : List String) :
    joined (first :: second :: rest) =
      first.toList ++ (separator ++ joined (second :: rest)) := by
  simp only [joined, List.map_cons, List.intercalate_cons_cons, List.append_assoc]

theorem joined_singleton (segment : String) : joined [segment] = segment.toList := by
  simp [joined]

theorem head?_joined {first : String} (nonempty : first ≠ "") (rest : List String) :
    (joined (first :: rest)).head? = first.toList.head? := by
  cases rest with
  | nil => rw [joined_singleton]
  | cons second rest =>
      obtain ⟨c, cs, same⟩ := List.exists_cons_of_ne_nil
        (fun empty => nonempty (String.toList_eq_nil_iff.mp empty))
      rw [joined_cons_cons, same]
      rfl

theorem joined_singleton_ne {segment first second : String} {rest : List String}
    (single : ¬ separator <:+: segment.toList) :
    joined [segment] ≠ joined (first :: second :: rest) := by
  rw [joined_singleton, joined_cons_cons]
  intro same
  exact single ⟨first.toList, joined (second :: rest), by rw [same, List.append_assoc]⟩

theorem joined_injective {segments others : List String} (readable : Readable (segments ++ others))
    (nonempty : segments ≠ []) (nonempty' : others ≠ []) (same : joined segments = joined others) :
    segments = others := by
  induction segments generalizing others with
  | nil => exact absurd rfl nonempty
  | cons first rest ih =>
      obtain ⟨other, others, rfl⟩ := List.exists_cons_of_ne_nil nonempty'
      have left : first ∈ first :: rest ++ other :: others := by simp
      have right : other ∈ first :: rest ++ other :: others := by simp
      have single := readable.single first left
      have single' := readable.single other right
      cases rest with
      | nil =>
          cases others with
          | nil =>
              rw [joined_singleton, joined_singleton] at same
              rw [String.toList_injective same]
          | cons => exact absurd same (joined_singleton_ne single)
      | cons second rest =>
          cases others with
          | nil => exact absurd same.symm (joined_singleton_ne single')
          | cons second' others =>
              rw [joined_cons_cons, joined_cons_cons] at same
              have inner : second ∈ first :: second :: rest ++ other :: second' :: others := by simp
              have inner' : second' ∈ first :: second :: rest ++ other :: second' :: others := by
                simp
              have oneSided := readable.oneSided.imp
                (fun front => And.intro (front second inner) (front second' inner'))
                fun back => And.intro (back first left) (back other right)
              rw [← head?_joined (readable.nonempty _ inner) rest,
                ← head?_joined (readable.nonempty _ inner') others] at oneSided
              obtain ⟨here, further⟩ := separator_cancel same single single' oneSided
              have fewer : second :: rest ++ second' :: others ⊆
                  first :: second :: rest ++ other :: second' :: others := by
                intro name member
                obtain early | late := List.mem_append.mp member
                · exact List.mem_append_left _ (List.mem_cons_of_mem _ early)
                · exact List.mem_append_right _ (List.mem_cons_of_mem _ late)
              have behind := ih (readable.subset fewer) (List.cons_ne_nil _ _)
                (List.cons_ne_nil _ _) further
              rw [String.toList_injective here, behind]

theorem fileStem_toList {module : ModulePath} (nonempty : module.segments ≠ []) :
    module.fileStem.toList = joined module.segments := by
  have inside : ¬ module.isRoot = true := fun empty => nonempty (List.isEmpty_iff.mp empty)
  rw [fileStem, if_neg inside, String.toList_intercalate]
  rfl

/-- No other module has the file of the root. -/
theorem fileStem_ne_crate {module : ModulePath} (readable : Readable module.segments)
    (nonempty : module.segments ≠ []) : module.fileStem ≠ "crate" := by
  intro same
  have chars := congrArg String.toList same
  rw [fileStem_toList nonempty] at chars
  match segments : module.segments with
  | [] => exact nonempty segments
  | [segment] =>
    rw [segments, joined_singleton] at chars
    refine readable.notRoot ?_
    rw [segments, ← String.toList_injective chars]
    exact List.mem_singleton_self _
  | first :: second :: rest =>
    rw [segments, joined_cons_cons] at chars
    have inside : '_' ∈ "crate".toList := by
      rw [← chars]
      simp [separator]
    exact absurd inside (by decide)

/-- **Files of different modules.** Two modules have different files if the segments of their paths
can be read back. -/
theorem fileStem_injective {module other : ModulePath}
    (readable : Readable (module.segments ++ other.segments))
    (same : module.fileStem = other.fileStem) : module = other := by
  have left := readable.subset (List.subset_append_left _ _)
  have right := readable.subset (List.subset_append_right module.segments other.segments)
  by_cases root : module.segments = []
  · have stem : module.fileStem = "crate" := by simp [fileStem, isRoot, root]
    by_contra different
    refine fileStem_ne_crate right (fun empty => different ?_) (same ▸ stem)
    exact congrArg ModulePath.mk (root.trans empty.symm)
  · by_cases root' : other.segments = []
    · have stem : other.fileStem = "crate" := by simp [fileStem, isRoot, root']
      exact absurd (same.trans stem) (fileStem_ne_crate left root)
    · have chars := congrArg String.toList same
      rw [fileStem_toList root, fileStem_toList root'] at chars
      exact congrArg ModulePath.mk (joined_injective readable root root' chars)

end ModulePath

end VariantMerge
