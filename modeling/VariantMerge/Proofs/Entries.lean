import Mathlib.Data.List.Induction
import Mathlib.Data.List.Nodup
import VariantMerge.Layout
import VariantMerge.Proofs.Except

/-!
# Entries under distinct names

Lists of named values whose names are distinct: looking a name up finds its only entry, and
`SlotLayout.assign` never meets a name a second time. Lists whose every value has an image are
turned into the images.
-/

namespace VariantMerge

variable {α : Type*}

theorem lookup_mem {entries : List (String × α)} {name : String} {value : α}
    (found : entries.lookup name = some value) : (name, value) ∈ entries := by
  obtain ⟨before, after, rfl, -⟩ := List.lookup_eq_some_iff.mp found
  exact List.mem_append_right _ List.mem_cons_self

theorem lookup_isSome_iff_mem {entries : List (String × α)} {name : String} :
    (entries.lookup name).isSome ↔ name ∈ entries.map Prod.fst := by
  rw [List.lookup_isSome_iff, List.mem_map]
  constructor
  · rintro ⟨entry, member, same⟩
    exact ⟨entry, member, (beq_iff_eq.mp same).symm⟩
  · rintro ⟨entry, member, rfl⟩
    exact ⟨entry, member, beq_self_eq_true _⟩

/-- Among entries with distinct names, a name has no other value than the one that it is found
with. -/
theorem lookup_eq_some_iff_mem {entries : List (String × α)}
    (distinct : (entries.map Prod.fst).Nodup) {name : String} {value : α} :
    entries.lookup name = some value ↔ (name, value) ∈ entries := by
  refine ⟨lookup_mem, fun member => ?_⟩
  have present : (entries.lookup name).isSome :=
    lookup_isSome_iff_mem.mpr (List.mem_map_of_mem member)
  obtain ⟨other, found⟩ := Option.isSome_iff_exists.mp present
  have same := List.inj_on_of_nodup_map distinct (lookup_mem found) member rfl
  rw [found, (Prod.mk.inj same).2]

theorem lookup_eq_none_of_notMem {entries : List (String × α)} {name : String}
    (absent : name ∉ entries.map Prod.fst) : entries.lookup name = none :=
  Option.not_isSome_iff_eq_none.mp (lookup_isSome_iff_mem.not.mpr absent)

/-- Among values with distinct names, a value is found by its name. -/
theorem find?_eq_some_of_mem {values : List α} {named : α → String}
    (distinct : (values.map named).Nodup) {value : α} (member : value ∈ values) :
    values.find? (fun other => named other == named value) = some value := by
  have present : (values.find? fun other => named other == named value).isSome :=
    List.find?_isSome.mpr ⟨value, member, beq_self_eq_true _⟩
  obtain ⟨other, found⟩ := Option.isSome_iff_exists.mp present
  have same := List.find?_some found
  rw [beq_iff_eq] at same
  rw [found, List.inj_on_of_nodup_map distinct (List.mem_of_find?_eq_some found) member same]

/-! ## Images of all values -/

/-- A list whose every value has an image. -/
theorem mapM_eq_some_filterMap {β : Type*} {f : α → Option β} {values : List α}
    (total : ∀ value ∈ values, (f value).isSome) :
    values.mapM f = some (values.filterMap f) := by
  induction values with
  | nil => rfl
  | cons value rest ih =>
      obtain ⟨image, turned⟩ := Option.isSome_iff_exists.mp (total value List.mem_cons_self)
      rw [List.mapM_cons, ih fun other member => total other (List.mem_cons_of_mem _ member),
        turned, List.filterMap_cons_some turned]
      rfl

theorem mapM_eq_some_map {β : Type*} {f : α → Option β} {g : α → β} {values : List α}
    (same : ∀ value ∈ values, f value = some (g value)) : values.mapM f = some (values.map g) := by
  rw [mapM_eq_some_filterMap fun value member => by rw [same value member, Option.isSome_some],
    List.filterMap_congr same, List.filterMap_eq_map']

/-- A list is turned into the images of its values. -/
theorem mapM_eq_some_iff {β : Type*} {f : α → Option β} {values : List α} {images : List β} :
    values.mapM f = some images ↔
      List.Forall₂ (fun value image => f value = some image) values images := by
  induction values generalizing images with
  | nil =>
      rw [List.forall₂_nil_left_iff]
      exact ⟨fun same => (Option.some.inj same).symm, fun same => congrArg some same.symm⟩
  | cons value rest ih =>
      simp only [List.mapM_cons, List.forall₂_cons_left_iff, Option.bind_eq_bind,
        Option.bind_eq_some_iff, ih, Option.pure_def, Option.some.injEq]
      constructor
      · rintro ⟨image, turned, later, others, rfl⟩
        exact ⟨image, later, turned, others, rfl⟩
      · rintro ⟨image, later, turned, others, rfl⟩
        exact ⟨image, turned, later, others, rfl⟩

theorem mapM_eq_none_iff {β : Type*} {f : α → Option β} {values : List α} :
    values.mapM f = none ↔ ∃ value ∈ values, f value = none := by
  constructor
  · intro stopped
    by_contra every
    have total : ∀ value ∈ values, (f value).isSome := fun value member =>
      Option.isSome_iff_ne_none.mpr fun none_ => every ⟨value, member, none_⟩
    rw [mapM_eq_some_filterMap total] at stopped
    cases stopped
  · rintro ⟨value, member, none_⟩
    rw [Option.eq_none_iff_forall_ne_some]
    intro images turned
    obtain ⟨image, -, here⟩ := exists_of_forall₂ (mapM_eq_some_iff.mp turned) member
    rw [none_] at here
    cases here

theorem map_filterMap_of_forall {β γ : Type*} {f : α → Option β} {g : β → γ} {h : α → γ}
    {values : List α} (same : ∀ value ∈ values, (f value).map g = some (h value)) :
    (values.filterMap f).map g = values.map h := by
  rw [List.map_filterMap, List.filterMap_congr same, List.filterMap_eq_map']

/-! ## Assignment -/

namespace SlotLayout

theorem assign_of_notMem {entries : List (String × α)} {name : String} (value : α)
    (absent : name ∉ entries.map Prod.fst) :
    assign entries name value = entries ++ [(name, value)] := by
  have unnamed : entries.any (·.1 == name) = false := by
    rw [List.any_eq_false]
    intro entry member same
    exact absent (beq_iff_eq.mp same ▸ List.mem_map_of_mem member)
  simp [assign, unnamed]

/-- Assignment adds no entry but the one that is assigned. -/
theorem mem_assign {entries : List (String × α)} {name : String} {value : α}
    {entry : String × α} (member : entry ∈ assign entries name value) :
    entry ∈ entries ∨ entry = (name, value) := by
  unfold assign at member
  split at member
  · obtain ⟨earlier, listed, rfl⟩ := List.mem_map.mp member
    split
    · exact .inr rfl
    · exact .inl listed
  · exact (List.mem_append.mp member).imp_right List.mem_singleton.mp

/-- A name that is assigned is there afterwards, and no other name is lost. -/
theorem mem_assign_names {entries : List (String × α)} {name other : String} {value : α}
    (known : other ∈ entries.map Prod.fst ∨ other = name) :
    other ∈ (assign entries name value).map Prod.fst := by
  by_cases there : name ∈ entries.map Prod.fst
  · -- An entry that is there is replaced in its place, so the names stay.
    have present : entries.any (·.1 == name) = true := by
      obtain ⟨entry, member, rfl⟩ := List.mem_map.mp there
      exact List.any_eq_true.mpr ⟨entry, member, beq_self_eq_true _⟩
    have listed : other ∈ entries.map Prod.fst := known.elim id fun same => same ▸ there
    obtain ⟨entry, member, rfl⟩ := List.mem_map.mp listed
    rw [assign, if_pos present, List.map_map]
    refine List.mem_map.mpr ⟨entry, member, ?_⟩
    by_cases same : entry.1 = name <;> simp [same]
  · rw [assign_of_notMem value there, List.map_append, List.mem_append]
    exact known.imp_right fun same => List.mem_singleton.mpr same

/-- What is assigned one after the other comes from the entries, and no name is lost. -/
theorem foldl_assign_mem (placed : List (String × α)) :
    (∀ entry ∈ placed.foldl (fun entries (name, value) => assign entries name value) [],
      entry ∈ placed) ∧
    ∀ name ∈ placed.map Prod.fst, name ∈
      (placed.foldl (fun entries (name, value) => assign entries name value) []).map
        Prod.fst := by
  induction placed using List.reverseRecOn with
  | nil => simp
  | append_singleton placed entry ih =>
      rw [List.foldl_append, List.foldl_cons, List.foldl_nil]
      constructor
      · intro other member
        obtain earlier | rfl := mem_assign member
        · exact List.mem_append_left _ (ih.1 other earlier)
        · exact List.mem_append_right _ (List.mem_singleton_self _)
      · intro name member
        rw [List.map_append, List.mem_append] at member
        exact mem_assign_names (member.imp (ih.2 name) List.mem_singleton.mp)

/-- Entries with distinct names are assigned one after the other. -/
theorem foldl_assign {placed : List (String × α)} (distinct : (placed.map Prod.fst).Nodup) :
    placed.foldl (fun entries (name, value) => assign entries name value) [] = placed := by
  induction placed using List.reverseRecOn with
  | nil => rfl
  | append_singleton placed entry ih =>
      rw [List.map_append, List.nodup_append] at distinct
      obtain ⟨earlier, -, disjoint⟩ := distinct
      rw [List.foldl_append, ih earlier, List.foldl_cons, List.foldl_nil]
      apply assign_of_notMem
      intro member
      exact disjoint _ member _ (List.mem_singleton_self entry.1) rfl

end SlotLayout

end VariantMerge
