import Mathlib.Data.List.Nodup
import VariantMerge.Emit.Declaration

/-!
# Derives of a merged type

What the settings derive is added to a merged struct one entry after the other, unless it is there
already. The derives that make a type serialisable come after all of them, and whether the settings
name one of these is not looked at. So an entry occurs twice exactly if they do
(`MergedType.derives_nodup_iff`).
-/

namespace VariantMerge

namespace MergedType

theorem mem_serialDerives_iff {config : Config} {name : String} :
    name ∈ serialDerives config ↔
      config.serializable = true ∧ (name = "::serde::Serialize" ∨ name = "::serde::Deserialize") := by
  rw [serialDerives]
  split <;> simp [*]

theorem serialDerives_nodup (config : Config) : (serialDerives config).Nodup := by
  rw [serialDerives]
  split <;> decide

/-! ## Entries without repetition -/

/-- A name behind the others, unless it is one of them. -/
def addDerive (names : List String) (name : String) : List String :=
  if names.contains name then names else names ++ [name]

theorem addDerive_nodup {names : List String} (distinct : names.Nodup) (name : String) :
    (addDerive names name).Nodup := by
  rw [addDerive]
  split
  · exact distinct
  next absent =>
    have fresh : name ∉ names := by simpa using absent
    exact List.nodup_append_comm.mp (List.nodup_cons.mpr ⟨fresh, distinct⟩)

theorem mem_addDerive_iff {names : List String} {name other : String} :
    other ∈ addDerive names name ↔ other ∈ names ∨ other = name := by
  rw [addDerive]
  split
  next present =>
    have listed : name ∈ names := by simpa using present
    exact ⟨.inl, fun either => either.elim id fun same => same ▸ listed⟩
  next => simp

/-- Adding keeps what is in front. -/
theorem head?_addDerive {names : List String} {first : String} (head : names.head? = some first)
    (name : String) : (addDerive names name).head? = some first := by
  rw [addDerive]
  split
  · exact head
  · rw [List.head?_append, head]
    rfl

/-- Adding all names of a list one after the other: nothing is repeated, nothing is lost and
nothing comes in front. -/
theorem foldl_addDerive (added : List String) {names : List String} {first : String}
    (distinct : names.Nodup) (head : names.head? = some first) :
    (added.foldl addDerive names).Nodup ∧
      (added.foldl addDerive names).head? = some first ∧
      ∀ other, other ∈ added.foldl addDerive names ↔ other ∈ names ∨ other ∈ added := by
  induction added generalizing names with
  | nil => exact ⟨distinct, head, by simp⟩
  | cons name added ih =>
      obtain ⟨nodup, front, members⟩ := ih (addDerive_nodup distinct name) (head?_addDerive head name)
      refine ⟨nodup, front, fun other => ?_⟩
      rw [List.foldl_cons, members, mem_addDerive_iff, List.mem_cons, or_assoc]

theorem plainDerives_eq (config : Config) :
    plainDerives config = config.derives.foldl addDerive ["Default"] :=
  rfl

/-! ## The lists of a merged type -/

/-- **Derives of a merged type.** The merged struct derives `Default` first, and exactly what the
settings say besides it, with the derives for serialisation if they are asked for. An entry is
repeated exactly if the settings also name one of those. The discriminant never has one twice. -/
theorem derives_nodup_iff (merged : MergedType) (config : Config) :
    (merged.mergedStruct config).derives.head? = some "Default" ∧
      (∀ name, name ∈ (merged.mergedStruct config).derives ↔
        name = "Default" ∨ name ∈ config.derives ∨
          (config.serializable = true ∧
            (name = "::serde::Serialize" ∨ name = "::serde::Deserialize"))) ∧
      ((merged.mergedStruct config).derives.Nodup ↔
        (config.serializable = true →
          "::serde::Serialize" ∉ config.derives ∧ "::serde::Deserialize" ∉ config.derives)) ∧
      (merged.discriminant config).derives.Nodup := by
  obtain ⟨nodup, front, members⟩ :=
    foldl_addDerive config.derives (List.nodup_singleton "Default") rfl
  rw [← plainDerives_eq] at nodup front members
  have parts : (merged.mergedStruct config).derives = plainDerives config ++ serialDerives config :=
    rfl
  refine ⟨?_, fun name => ?_, ?_, ?_⟩
  · rw [parts, List.head?_append, front]
    rfl
  · rw [parts, List.mem_append, members, List.mem_singleton, mem_serialDerives_iff, or_assoc]
  · rw [parts, List.nodup_append', and_iff_right nodup, and_iff_right (serialDerives_nodup config)]
    constructor
    · intro apart serializable
      have unnamed {name : String}
          (serial : name = "::serde::Serialize" ∨ name = "::serde::Deserialize") :
          name ∉ config.derives := fun named =>
        apart ((members name).mpr (.inr named)) (mem_serialDerives_iff.mpr ⟨serializable, serial⟩)
      exact ⟨unnamed (.inl rfl), unnamed (.inr rfl)⟩
    · intro unnamed name plain serial
      obtain ⟨serializable, either⟩ := mem_serialDerives_iff.mp serial
      obtain ⟨noWriter, noReader⟩ := unnamed serializable
      obtain first | named := (members name).mp plain
      · obtain rfl := List.mem_singleton.mp first
        exact absurd either (by decide)
      · obtain rfl | rfl := either
        · exact noWriter named
        · exact noReader named
  · have others : ∀ name ∈ ["Clone", "Copy", "Debug", "PartialEq", "Eq", "Hash"],
        name ∉ serialDerives config := by
      intro name listed serial
      obtain ⟨-, rfl | rfl⟩ := mem_serialDerives_iff.mp serial
      · exact absurd listed (by decide)
      · exact absurd listed (by decide)
    exact List.nodup_append'.mpr ⟨by decide, serialDerives_nodup config, others⟩

/-- Settings may name what serialisation adds. -/
theorem derives_repeated :
    ∃ config, Config.check config = .ok config ∧
      ∀ merged : MergedType, (merged.mergedStruct config).derives =
        ["Default", "Clone", "::serde::Serialize", "::serde::Serialize", "::serde::Deserialize"] :=
  ⟨{ Config.default with derives := ["Clone", "::serde::Serialize"], serializable := true },
    by decide +kernel, fun _ => rfl⟩

end MergedType

end VariantMerge
