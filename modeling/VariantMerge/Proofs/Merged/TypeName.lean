import VariantMerge.Merged
import VariantMerge.Proofs.Config.Validity
import VariantMerge.Proofs.Token.Locality

/-!
# The name of a merged type

A merged type is called like its interface without the configured prefix, if that starts with an ASCII
letter (`MergedType.nameFor_eq_ok_iff`). What is left of the name of an item is then a word again
(`Lexer.name_suffix`), since the front of it goes with the prefix only. So an interface is refused,
under its own name, exactly if the prefix is missing or no ASCII letter follows it
(`MergedType.nameFor_itemName`); a name that starts with an underscore or with another letter is
refused although a type could have it (`MergedType.nameFor_underscore`).
-/

namespace VariantMerge

/-- A name that an item can be declared with: a word, which may be raw, other than a keyword. -/
structure IsItemName (name : String) : Prop where
  word : Lexer.name name.toList = some []
  unreserved : name ∉ Parser.keywords

instance (name : String) : Decidable (IsItemName name) :=
  decidable_of_iff (Lexer.name name.toList = some [] ∧ name ∉ Parser.keywords)
    ⟨fun both => ⟨both.1, both.2⟩, fun item => ⟨item.word, item.unreserved⟩⟩

/-- The first character is an ASCII letter. -/
def StartsWithLetter (name : String) : Prop :=
  name.toList.head?.any Char.isAlpha = true

instance (name : String) : Decidable (StartsWithLetter name) :=
  inferInstanceAs (Decidable (_ = true))

/-! ## Words -/

namespace Text

theorem isIdentStart_of_isAlpha {c : Char} (letter : c.isAlpha = true) : isIdentStart c = true := by
  rw [isIdentStart, letter]
  rfl

end Text

namespace Lexer

/-- A letter and what a word goes on with is a word. No literal starts so. -/
theorem name_plain {c : Char} {rest : List Char} (letter : Text.isIdentStart c = true)
    (goesOn : ∀ d ∈ c :: rest, Text.isIdentContinue d = true) : name (c :: rest) = some [] := by
  have signs : ∀ start ∈ literalStarts,
      start.toList.any (!Text.isIdentContinue ·) = true := by decide
  have apart {start : List Char} (sign : start.any (!Text.isIdentContinue ·) = true) :
      start.isPrefixOf (c :: rest) = false := by
    obtain ⟨d, listed, other⟩ := List.any_eq_true.mp sign
    rw [Bool.eq_false_iff]
    intro starts
    have inside := (List.isPrefixOf_iff_prefix.mp starts).subset listed
    simp [goesOn d inside] at other
  rw [name, if_neg, Literal.rawableWord_eq, if_neg]
  · exact Literal.word_eq_some_iff.mpr ⟨c, rest, by simp, letter, (List.forall_mem_cons.mp goesOn).2,
      fun d first => absurd first (Option.not_mem_none d)⟩
  · rw [apart (by decide)]
    exact Bool.false_ne_true
  · intro starts
    obtain ⟨start, listed, starts⟩ := List.any_eq_true.mp starts
    rw [apart (signs start listed)] at starts
    cases starts

/-- A word is raw or goes on to its end. -/
theorem name_cases {cs : List Char} (read : name cs = some []) :
    (∃ rest, cs = 'r' :: '#' :: rest) ∨ ∀ d ∈ cs, Text.isIdentContinue d = true := by
  obtain ⟨rest, whole, -⟩ | plain := Literal.rawableWord_cases (rawableWord_of_name read)
  · exact .inl ⟨rest, whole⟩
  · obtain ⟨c, rest, rfl, letter, goesOn, -⟩ := Literal.word_eq_some_iff.mp plain
    rw [List.append_nil]
    exact .inr (List.forall_mem_cons.mpr ⟨Text.isIdentContinue_of_isIdentStart letter, goesOn⟩)

/-- Behind characters of names, a word that starts with an ASCII letter is a word again. -/
theorem name_suffix {front rest : List Char} (read : name (front ++ rest) = some [])
    (plain : ∀ c ∈ front, Text.isWordChar c = true) (letter : rest.head?.any Char.isAlpha = true) :
    name rest = some [] := by
  cases rest with
  | nil => cases letter
  | cons c rest =>
      rcases name_cases read with ⟨raw, whole⟩ | goesOn
      · -- The number sign of a raw word is in neither part, unless all of it is left.
        rcases front with _ | ⟨first, _ | ⟨sign, front⟩⟩
        · exact read
        · cases whole
          cases letter
        · cases whole
          exact absurd (plain '#' (by simp)) (by decide)
      · exact name_plain (Text.isIdentStart_of_isAlpha letter)
          fun d listed => goesOn d (List.mem_append_right _ listed)

end Lexer

/-! ## Prefixes -/

theorem IsFragment.isWordChar {name : String} (allowed : name = "" ∨ IsFragment name) :
    ∀ c ∈ name.toList, Text.isWordChar c = true := by
  rcases allowed with rfl | fragment
  · exact fun _ listed => absurd listed List.not_mem_nil
  · exact fragment.chars

namespace MergedType

theorem stripBeginning?_eq_some_iff {expected cs rest : List Char} :
    stripBeginning? expected cs = some rest ↔ cs = expected ++ rest := by
  fun_induction stripBeginning? expected cs with
  | case1 cs => simp
  | case2 => simp
  | case3 c expected d cs same ih => simpa [(beq_iff_eq.mp same).symm] using ih
  | case4 c expected d cs other =>
      have other : ¬ d = c := fun same => other (beq_iff_eq.mpr same.symm)
      simp [other]

/-- The name is what follows the prefix, if that starts with an ASCII letter. -/
theorem nameFor_eq_ok_iff {interface expected name : String} :
    nameFor interface expected = .ok name ↔
      interface = expected ++ name ∧ StartsWithLetter name := by
  have cut {rest : List Char} : stripBeginning? expected.toList interface.toList = some rest ↔
      interface = expected ++ String.ofList rest := by
    rw [stripBeginning?_eq_some_iff, ← String.toList_inj, String.toList_append,
      String.toList_ofList]
  unfold nameFor
  cases stripped : stripBeginning? expected.toList interface.toList with
  | none =>
      refine ⟨nofun, fun ⟨whole, _⟩ => ?_⟩
      have found : stripBeginning? expected.toList interface.toList = some name.toList := by
        rw [cut, whole, String.ofList_toList]
      rw [stripped] at found
      cases found
  | some rest =>
      have whole := cut.mp stripped
      have only : interface = expected ++ name ↔ String.ofList rest = name := by
        rw [whole, String.append_right_inj]
      rw [only, StartsWithLetter]
      dsimp only
      by_cases letter : rest.head?.any Char.isAlpha = true
      · rw [if_pos letter, Except.ok.injEq]
        refine ⟨fun same => ⟨same, ?_⟩, And.left⟩
        rw [← same, String.toList_ofList]
        exact letter
      · rw [if_neg letter]
        refine ⟨nofun, ?_⟩
        rintro ⟨rfl, starts⟩
        rw [String.toList_ofList] at starts
        exact absurd starts letter

/-- A name is refused for the interface that it was to be made from. -/
theorem nameFor_eq_error {interface expected : String} {failure : Failure}
    (refused : nameFor interface expected = .error failure) :
    ∃ reason, failure = .invalidName interface reason := by
  unfold nameFor at refused
  split at refused
  next => exact ⟨_, (Except.error.inj refused).symm⟩
  next =>
    split at refused
    next => cases refused
    next => exact ⟨_, (Except.error.inj refused).symm⟩

/-- **Names of merged types.** For an interface that can be declared and a prefix that is accepted, a
name that a type can have is the merged type's exactly if it follows the prefix and starts with an
ASCII letter. Every name that is given is such a word behind the prefix. Where no ASCII letter
follows the prefix, the interface is refused as one without a valid name. -/
theorem nameFor_itemName {config accepted : Config} {interface : String}
    (checked : Config.check config = .ok accepted) (item : IsItemName interface) :
    (∀ name, IsItemName name → (nameFor interface config.interfacePrefix = .ok name ↔
        interface = config.interfacePrefix ++ name ∧ StartsWithLetter name)) ∧
      (∀ name, nameFor interface config.interfacePrefix = .ok name →
        interface = config.interfacePrefix ++ name ∧ StartsWithLetter name ∧
          Lexer.name name.toList = some []) ∧
      ((∀ name, interface = config.interfacePrefix ++ name → ¬ StartsWithLetter name) →
        ∃ reason, nameFor interface config.interfacePrefix =
          .error (.invalidName interface reason)) := by
  have shaped := (config.check_eq_ok_iff.1.mp ⟨accepted, checked⟩).interfacePrefix
  refine ⟨fun name _ => nameFor_eq_ok_iff, ?_, ?_⟩
  · intro name named
    obtain ⟨whole, letter⟩ := nameFor_eq_ok_iff.mp named
    refine ⟨whole, letter, Lexer.name_suffix ?_ (IsFragment.isWordChar shaped) letter⟩
    rw [← String.toList_append, ← whole]
    exact item.word
  · intro none_
    cases result : nameFor interface config.interfacePrefix with
    | ok name =>
        obtain ⟨whole, letter⟩ := nameFor_eq_ok_iff.mp result
        exact absurd letter (none_ name whole)
    | error failure =>
        obtain ⟨reason, rfl⟩ := nameFor_eq_error result
        exact ⟨reason, rfl⟩

theorem nameFor_itemName_shape :
    nameFor "IShape" "I" = .ok "Shape" ∧
      ∃ reason, nameFor "Shape" "I" = .error (.invalidName "Shape" reason) := by
  have checked : Config.check .default = .ok .default := by decide +kernel
  have prefixed : IsItemName "IShape" := by decide +kernel
  have bare : IsItemName "Shape" := by decide +kernel
  refine ⟨((nameFor_itemName checked prefixed).1 "Shape" bare).mpr (by decide +kernel), ?_⟩
  apply (nameFor_itemName checked bare).2.2
  intro name whole
  have starts := congrArg (fun text => text.toList.head?) whole
  simp [Config.default] at starts

/-- Names that a type can have are refused: one that starts with an underscore, and one that starts
with a letter outside ASCII. -/
theorem nameFor_underscore :
    IsItemName "I_Thing" ∧ IsItemName "_Thing" ∧
      nameFor "I_Thing" "I" = .error (.invalidName "I_Thing" (.unusableName "_Thing")) ∧
    IsItemName "IÉtat" ∧ IsItemName "État" ∧
      nameFor "IÉtat" "I" = .error (.invalidName "IÉtat" (.unusableName "État")) := by
  decide +kernel

end MergedType

end VariantMerge
