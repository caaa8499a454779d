import Mathlib
import VariantMerge.Text.Case

/-!
# The words of a fragment

An identifier fragment is made of word characters (`Text.all_identFragment`) and starts like the
first word of the text that it is made from (`Text.head?_identFragment`). Snake case only adds
underscores and changes the case of letters, so names of different letters stay apart
(`Text.letters_eq_of_snakeCase`), and so do names in camel case (`Text.snakeCase_injOn`).
-/

namespace VariantMerge

namespace Text

/-! ## Runs -/

theorem runs_cons_of_neg {keep : Char → Bool} {c : Char} (drop : keep c = false)
    (rest : List Char) : runs keep (c :: rest) = runs keep rest := by
  simp [runs, drop]

/-- A character that is kept starts a run. -/
theorem exists_runs_cons {keep : Char → Bool} {c : Char} (kept : keep c = true)
    (rest : List Char) : ∃ run more, runs keep (c :: rest) = (c :: run) :: more := by
  rw [runs, kept, if_pos rfl]
  split
  · exact ⟨_, _, rfl⟩
  · exact ⟨_, _, rfl⟩

/-- The runs are those of the characters from the first one that is kept. -/
theorem runs_cases (keep : Char → Bool) (cs : List Char) :
    (runs keep cs = [] ∧ cs.find? keep = none) ∨
      ∃ c run more, runs keep cs = (c :: run) :: more ∧ cs.find? keep = some c := by
  induction cs with
  | nil => exact .inl ⟨rfl, rfl⟩
  | cons c rest ih =>
      cases kept : keep c with
      | false =>
          rw [runs_cons_of_neg kept, List.find?_cons_of_neg (by simp [kept])]
          exact ih
      | true =>
          obtain ⟨run, more, runs⟩ := exists_runs_cons kept rest
          exact .inr ⟨c, run, more, runs, List.find?_cons_of_pos kept⟩

theorem keep_of_mem_runs {keep : Char → Bool} {cs : List Char} :
    ∀ run ∈ runs keep cs, ∀ c ∈ run, keep c = true := by
  induction cs with
  | nil => exact fun _ listed => absurd listed List.not_mem_nil
  | cons c rest ih =>
      cases kept : keep c with
      | false =>
          rw [runs_cons_of_neg kept]
          exact ih
      | true =>
          rw [runs, kept, if_pos rfl]
          split
          next run more _ all =>
            rw [all] at ih
            obtain ⟨first, later⟩ := List.forall_mem_cons.mp ih
            exact List.forall_mem_cons.mpr ⟨List.forall_mem_cons.mpr ⟨kept, first⟩, later⟩
          next => exact List.forall_mem_cons.mpr ⟨List.forall_mem_singleton.mpr kept, ih⟩

/-! ## Snake case -/

theorem isAlpha_of_isUpper {c : Char} (upper : c.isUpper = true) : c.isAlpha = true := by
  rw [Char.isAlpha, upper, Bool.true_or]

theorem isWordChar_toLower {c : Char} (upper : c.isUpper = true) :
    isWordChar c.toLower = true := by
  simp [isWordChar, Char.isAlphanum, Char.isAlpha_toLower_eq_isAlpha, isAlpha_of_isUpper upper]

theorem toLower_eq_underscore_iff {c : Char} : c.toLower = '_' ↔ c = '_' := by
  constructor
  · intro lower
    by_cases upper : c.isUpper = true
    · have letter := isAlpha_of_isUpper upper
      rw [← Char.isAlpha_toLower_eq_isAlpha, lower] at letter
      cases letter
    · rwa [Char.toLower_eq_of_not_isUpper upper] at lower
  · rintro rfl
    rfl

/-- What holds of an underscore and of letters in lower case holds in snake case if it did before. -/
theorem all_snakeFrom {p : Char → Prop} (sign : p '_')
    (lowers : ∀ c : Char, c.isUpper = true → p c.toLower) {cs : List Char} (all : ∀ c ∈ cs, p c)
    (before : Option Char) : ∀ c ∈ snakeFrom before cs, p c := by
  induction cs generalizing before with
  | nil => exact fun _ listed => absurd listed List.not_mem_nil
  | cons c rest ih =>
      obtain ⟨first, later⟩ := List.forall_mem_cons.mp all
      have tail := ih later (some c)
      rw [snakeFrom]
      split
      next upper =>
        have lower : ∀ d ∈ c.toLower :: snakeFrom (some c) rest, p d :=
          List.forall_mem_cons.mpr ⟨lowers c upper, tail⟩
        split
        · exact List.forall_mem_cons.mpr ⟨sign, lower⟩
        · exact lower
      next => exact List.forall_mem_cons.mpr ⟨first, tail⟩

/-- At the start of a name, no underscore is added. -/
theorem snakeFrom_none_cons (c : Char) (rest : List Char) :
    snakeFrom none (c :: rest) = c.toLower :: snakeFrom (some c) rest := by
  rw [snakeFrom]
  split
  · rfl
  next lower => rw [Char.toLower_eq_of_not_isUpper lower]

/-! ## Names that snake case keeps apart -/

/-- The letters of a name without regard to case and underscores. -/
def letters (cs : List Char) : List Char :=
  (cs.filter (· != '_')).map Char.toLower

theorem letters_cons (c : Char) (cs : List Char) :
    letters (c :: cs) = if c = '_' then letters cs else c.toLower :: letters cs := by
  by_cases underscore : c = '_' <;> simp [letters, underscore]

/-- Snake case keeps the letters. -/
theorem letters_snakeFrom (before : Option Char) (cs : List Char) :
    letters (snakeFrom before cs) = letters cs := by
  induction cs generalizing before with
  | nil => rfl
  | cons c rest ih =>
      have behind := ih (some c)
      rw [snakeFrom]
      split
      next upper =>
        have named : c ≠ '_' := by
          rintro rfl
          cases upper
        have lower : c.toLower ≠ '_' := toLower_eq_underscore_iff.not.mpr named
        have front : letters (c.toLower :: snakeFrom (some c) rest) = letters (c :: rest) := by
          rw [letters_cons, letters_cons, if_neg lower, if_neg named, behind,
            Char.toLower_toLower_eq_toLower]
        split
        · exact front
        · exact front
      next => rw [letters_cons, letters_cons, behind]

/-- No underscores, and upper-case letters at the starts of words only. -/
def isCamelFrom (before : Option Char) : List Char → Bool
  | [] => true
  | c :: rest => c != '_' && (!c.isUpper || startsWord before rest.head?) && isCamelFrom (some c) rest

/-- Words that each start with an upper-case letter, which have no other ones. -/
def isCamel : List Char → Bool
  | [] => false
  | c :: rest => c.isUpper && isCamelFrom (some c) rest

theorem snakeFrom_of_isCamelFrom {before : Option Char} {c : Char} {rest : List Char}
    (camel : isCamelFrom before (c :: rest) = true) :
    snakeFrom before (c :: rest) =
        (if c.isUpper then ['_', c.toLower] else [c]) ++ snakeFrom (some c) rest ∧
      c ≠ '_' ∧ isCamelFrom (some c) rest = true := by
  simp only [isCamelFrom, Bool.and_eq_true, bne_iff_ne, Bool.or_eq_true, Bool.not_eq_true'] at camel
  obtain ⟨⟨named, starts⟩, later⟩ := camel
  refine ⟨?_, named, later⟩
  rw [snakeFrom]
  rcases starts with lower | starts
  · rw [lower]
    rfl
  · rw [starts]
    split <;> rfl

theorem toLower_injOn {c d : Char} (upper : c.isUpper = true) (also : d.isUpper = true)
    (same : c.toLower = d.toLower) : c = d := by
  rw [← Char.toUpper_eq_of_not_isLower (Char.not_isLower_of_isUpper upper),
    ← Char.toUpper_eq_of_not_isLower (Char.not_isLower_of_isUpper also),
    ← Char.toUpper_toLower_eq_toUpper, same, Char.toUpper_toLower_eq_toUpper]

/-- The words of a camel-case text can be told from the snake case. -/
theorem snakeFrom_injOn {before : Option Char} {cs ds : List Char}
    (camel : isCamelFrom before cs = true) (also : isCamelFrom before ds = true)
    (same : snakeFrom before cs = snakeFrom before ds) : cs = ds := by
  induction cs generalizing before ds with
  | nil =>
      cases ds with
      | nil => rfl
      | cons d ds =>
          rw [(snakeFrom_of_isCamelFrom also).1, snakeFrom] at same
          split at same <;> cases same
  | cons c cs ih =>
      obtain ⟨here, named, later⟩ := snakeFrom_of_isCamelFrom camel
      cases ds with
      | nil =>
          rw [here, snakeFrom] at same
          split at same <;> cases same
      | cons d ds =>
          obtain ⟨there, alsoNamed, alsoLater⟩ := snakeFrom_of_isCamelFrom also
          rw [here, there] at same
          -- An underscore comes first exactly if a word starts here, in both texts.
          by_cases upper : c.isUpper = true <;> by_cases alsoUpper : d.isUpper = true
          · rw [if_pos upper, if_pos alsoUpper] at same
            obtain ⟨first, behind⟩ := List.cons.inj (List.cons.inj same).2
            obtain rfl := toLower_injOn upper alsoUpper first
            rw [ih later alsoLater behind]
          · rw [if_pos upper, if_neg alsoUpper] at same
            exact absurd (List.cons.inj same).1.symm alsoNamed
          · rw [if_neg upper, if_pos alsoUpper] at same
            exact absurd (List.cons.inj same).1 named
          · rw [if_neg upper, if_neg alsoUpper] at same
            obtain ⟨rfl, behind⟩ := List.cons.inj same
            rw [ih later alsoLater behind]

/-- **Snake case tells camel-case names apart.** -/
theorem snakeCase_injOn {first second : String} (camel : isCamel first.toList = true)
    (also : isCamel second.toList = true) (same : snakeCase first = snakeCase second) :
    first = second := by
  have spelled : snakeFrom none first.toList = snakeFrom none second.toList :=
    String.ofList_injective same
  rw [← String.toList_inj]
  cases firsts : first.toList with
  | nil =>
      rw [firsts] at camel
      cases camel
  | cons c cs =>
      cases seconds : second.toList with
      | nil =>
          rw [seconds] at also
          cases also
      | cons d ds =>
          rw [firsts, isCamel, Bool.and_eq_true] at camel
          rw [seconds, isCamel, Bool.and_eq_true] at also
          rw [firsts, seconds, snakeFrom_none_cons, snakeFrom_none_cons] at spelled
          obtain ⟨first_, behind⟩ := List.cons.inj spelled
          obtain rfl := toLower_injOn camel.1 also.1 first_
          rw [snakeFrom_injOn camel.2 also.2 behind]

theorem letters_eq_of_snakeCase {first second : String}
    (same : snakeCase first = snakeCase second) :
    letters first.toList = letters second.toList := by
  rw [← letters_snakeFrom none first.toList, ← letters_snakeFrom none second.toList]
  exact congrArg letters (String.ofList_injective same)

/-! ## Fragments -/

theorem identFragment_of_runs {text : String} {first : List Char} {rest : List (List Char)}
    (words : runs isWordChar text.toList = first :: rest) :
    (identFragment text).toList =
      List.intercalate ['_'] ((first :: rest).map (snakeFrom none)) := by
  rw [identFragment, words]
  change (String.intercalate "_" _).toList = _
  rw [String.toList_intercalate, List.map_map]
  refine congrArg (List.intercalate ['_']) (List.map_congr_left fun word _ => ?_)
  simp [snakeCase]

/-- Words that are joined by underscores are made of what the words and underscores are made of. -/
theorem all_intercalate {p : Char → Prop} (sign : p '_') {words : List (List Char)}
    (all : ∀ word ∈ words, ∀ c ∈ word, p c) : ∀ c ∈ List.intercalate ['_'] words, p c := by
  induction words with
  | nil => exact fun _ listed => absurd listed List.not_mem_nil
  | cons first rest ih =>
      obtain ⟨here, later⟩ := List.forall_mem_cons.mp all
      cases rest with
      | nil => simpa using here
      | cons second rest =>
          rw [List.intercalate_cons_cons]
          have between : ∀ c ∈ ['_'], p c := List.forall_mem_singleton.mpr sign
          exact List.forall_mem_append.mpr ⟨List.forall_mem_append.mpr ⟨here, between⟩, ih later⟩

/-- **A fragment is made of word characters.** -/
theorem all_identFragment (text : String) :
    ∀ c ∈ (identFragment text).toList, isWordChar c = true := by
  cases words : runs isWordChar text.toList with
  | nil =>
      rw [identFragment, words]
      simp [isWordChar, Char.isAlphanum, Char.isAlpha, Char.isLower]
  | cons first rest =>
      rw [identFragment_of_runs words]
      refine all_intercalate (p := fun c => isWordChar c = true) rfl ?_
      refine List.forall_mem_map.mpr fun word listed => ?_
      exact all_snakeFrom (p := fun c => isWordChar c = true) rfl
        (fun _ upper => isWordChar_toLower upper) (keep_of_mem_runs word (words ▸ listed)) none

/-- **A fragment starts like its text.** The first word character of the text comes first, in lower
case. -/
theorem head?_identFragment (text : String) :
    (identFragment text).toList.head? =
      some (((text.toList.find? isWordChar).map Char.toLower).getD 's') := by
  obtain ⟨none_, absent⟩ | ⟨c, run, more, words, found⟩ := runs_cases isWordChar text.toList
  · rw [identFragment, none_, absent]
    rfl
  · rw [identFragment_of_runs words, found, List.map_cons, snakeFrom_none_cons]
    cases more with
    | nil => simp
    | cons second rest => simp

end Text

end VariantMerge
