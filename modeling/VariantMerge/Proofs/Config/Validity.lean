import VariantMerge.Grammar.Basic
import VariantMerge.Proofs.Text.Identifier

/-!
# Configurations that are accepted

A configuration is accepted exactly if its names are fragments of identifiers and its derives are
fragments with double colons between them, in any number in front, and its indentation is some text
(`Config.check_eq_ok_iff`). Every configuration that generated code can contain is accepted. The converse
fails for names only: keywords and the bare underscore are fragments, and a path starts with one double
colon at most (`Config.check_reserved`).
-/

namespace VariantMerge

namespace Text

/-! ## Pieces between double colons -/

/-- A double colon. -/
def colons : List Char := [':', ':']

theorem colonPieces_ne_nil (cs : List Char) : colonPieces cs ≠ [] := by
  fun_cases colonPieces cs <;> exact List.cons_ne_nil _ _

/-- The pieces of a text with double colons between them are the text. -/
theorem intercalate_colonPieces (cs : List Char) : colons.intercalate (colonPieces cs) = cs := by
  fun_induction colonPieces cs with
  | case1 => rfl
  | case2 rest ih =>
      obtain ⟨piece, more, pieces⟩ := List.exists_cons_of_ne_nil (colonPieces_ne_nil rest)
      rw [pieces] at ih ⊢
      rw [List.intercalate_cons_cons, ih]
      rfl
  | case3 c rest _ none_ ih =>
      rw [none_] at ih
      rw [← ih]
      rfl
  | case4 c rest _ piece more pieces ih =>
      rw [pieces] at ih
      rw [← ih]
      cases more with
      | nil => simp
      | cons next more => simp only [List.intercalate_cons_cons, List.cons_append]

/-- A colon that no other one follows is part of a piece, and so is any other character. -/
theorem colonPieces_cons {c : Char} {piece rest : List Char} {more : List (List Char)}
    (apart : c = ':' → rest.head? ≠ some ':') (pieces : colonPieces rest = piece :: more) :
    colonPieces (c :: rest) = (c :: piece) :: more := by
  rw [colonPieces, pieces]
  rintro behind rfl rfl
  exact apart rfl rfl

/-- Pieces without a colon are found again. -/
theorem colonPieces_intercalate {pieces : List (List Char)} (some_ : pieces ≠ [])
    (plain : ∀ piece ∈ pieces, ':' ∉ piece) : colonPieces (colons.intercalate pieces) = pieces := by
  -- A piece is found in front of what the cut goes on with.
  have found {piece rest : List Char} {more : List (List Char)} (plain : ':' ∉ piece)
      (pieces : colonPieces rest = [] :: more) : colonPieces (piece ++ rest) = piece :: more := by
    induction piece with
    | nil => exact pieces
    | cons c piece ih =>
        have other := List.ne_of_not_mem_cons plain
        have behind := ih (List.not_mem_of_not_mem_cons plain)
        exact colonPieces_cons (fun same => absurd same.symm other) behind
  induction pieces with
  | nil => exact absurd rfl some_
  | cons piece more ih =>
      obtain ⟨here, others⟩ := List.forall_mem_cons.mp plain
      cases more with
      | nil =>
          have last : colonPieces (piece ++ []) = [piece] := found here rfl
          simpa using last
      | cons next more =>
          rw [List.intercalate_cons_cons, List.append_assoc]
          apply found here
          have behind := ih (List.cons_ne_nil _ _) others
          rw [colons, List.cons_append, List.cons_append, List.nil_append, colonPieces]
          exact congrArg _ behind

/-- So many double colons. -/
def colonRun (count : Nat) : List Char :=
  (List.replicate count colons).flatten

theorem exists_colonRun (cs : List Char) : ∃ count, cs = colonRun count ++ Config.dropColons cs := by
  fun_induction Config.dropColons cs with
  | case1 rest ih =>
      obtain ⟨count, same⟩ := ih
      refine ⟨count + 1, ?_⟩
      rw [colonRun, List.replicate_succ, List.flatten_cons, List.append_assoc, ← colonRun, ← same]
      rfl
  | case2 cs => exact ⟨0, rfl⟩

theorem dropColons_colonRun (count : Nat) {cs : List Char} (other : cs.head? ≠ some ':') :
    Config.dropColons (colonRun count ++ cs) = cs := by
  induction count with
  | zero =>
      rw [colonRun, List.replicate_zero, List.flatten_nil, List.nil_append]
      cases cs with
      | nil => rfl
      | cons c rest =>
          rw [Config.dropColons]
          intro behind same
          cases same
          exact absurd rfl other
  | succ count ih =>
      rw [colonRun, List.replicate_succ, List.flatten_cons, List.append_assoc, ← colonRun]
      exact ih

end Text

/-! ## Paths -/

/-- The text consists of these segments with double colons between them, and of so many in front. -/
structure IsPathOf (text : String) (leading : Nat) (segments : List String) : Prop where
  nonempty : segments ≠ []
  fragments : ∀ segment ∈ segments, IsFragment segment
  text : text = String.join (List.replicate leading "::") ++ "::".intercalate segments

theorem IsFragment.notMem_colon {name : String} (fragment : IsFragment name) : ':' ∉ name.toList :=
  fun listed => absurd (fragment.chars ':' listed) (by decide)

namespace IsPathOf

variable {text : String} {leading : Nat} {segments : List String}

theorem toList (path : IsPathOf text leading segments) : text.toList =
    Text.colonRun leading ++ Text.colons.intercalate (segments.map String.toList) := by
  rw [path.text, String.toList_append, String.toList_join, String.toList_intercalate,
    List.flatMap_replicate]
  rfl

/-- The front of the segments is no colon. -/
theorem head?_ne (path : IsPathOf text leading segments) :
    (Text.colons.intercalate (segments.map String.toList)).head? ≠ some ':' := by
  obtain ⟨first, rest, rfl⟩ := List.exists_cons_of_ne_nil path.nonempty
  have fragment := path.fragments first List.mem_cons_self
  obtain ⟨c, cs, chars⟩ := List.exists_cons_of_ne_nil
    (fun empty => fragment.nonempty (String.toList_eq_nil_iff.mp empty))
  have other := fragment.notMem_colon
  rw [chars] at other
  have front : (Text.colons.intercalate ((first :: rest).map String.toList)).head? = some c := by
    cases rest with
    | nil => simp [chars]
    | cons next rest => simp [List.intercalate_cons_cons, chars]
  rw [front]
  rintro ⟨rfl⟩
  exact other List.mem_cons_self

/-- The segments are the pieces behind the double colons in front. -/
theorem colonPieces_eq (path : IsPathOf text leading segments) :
    Text.colonPieces (Config.dropColons text.toList) = segments.map String.toList := by
  rw [path.toList, Text.dropColons_colonRun leading path.head?_ne]
  apply Text.colonPieces_intercalate (by simpa using path.nonempty)
  exact List.forall_mem_map.mpr fun segment listed => (path.fragments segment listed).notMem_colon

/-- A text is a path in one way only. -/
theorem unique (path : IsPathOf text leading segments) {count : Nat} {others : List String}
    (other : IsPathOf text count others) : leading = count ∧ segments = others := by
  have pieces : segments.map String.toList = others.map String.toList := by
    rw [← path.colonPieces_eq, other.colonPieces_eq]
  have same : segments = others := List.map_injective_iff.mpr
    (fun _ _ => String.toList_injective) pieces
  refine ⟨?_, same⟩
  have front := path.toList.symm.trans other.toList
  rw [same, List.append_cancel_right_eq] at front
  have lengths := congrArg List.length front
  simp only [Text.colonRun, List.length_flatten, List.map_replicate,
    List.sum_replicate_nat] at lengths
  simpa [Text.colons] using lengths

end IsPathOf

/-- **What is checked of a derive.** -/
theorem Config.isPath_iff {text : String} :
    isPath text = true ↔ ∃ leading segments, IsPathOf text leading segments := by
  constructor
  · intro checked
    obtain ⟨leading, front⟩ := Text.exists_colonRun text.toList
    refine ⟨leading, (Text.colonPieces (dropColons text.toList)).map String.ofList, ?_, ?_, ?_⟩
    · simpa using Text.colonPieces_ne_nil _
    · intro segment listed
      obtain ⟨piece, inside, rfl⟩ := List.mem_map.mp listed
      rw [isFragment_iff, String.toList_ofList]
      exact List.all_eq_true.mp checked piece inside
    · have pieces : ((Text.colonPieces (dropColons text.toList)).map String.ofList).map
          String.toList = Text.colonPieces (dropColons text.toList) := by simp
      apply String.toList_injective
      rw [String.toList_append, String.toList_join, String.toList_intercalate, pieces,
        List.flatMap_replicate]
      refine front.trans (congrArg (Text.colonRun leading ++ ·) ?_)
      exact (Text.intercalate_colonPieces _).symm
  · rintro ⟨leading, segments, path⟩
    rw [isPath, path.colonPieces_eq, List.all_map, List.all_eq_true]
    intro segment listed
    exact isFragment_iff.mp (path.fragments segment listed)

/-! ## Configurations -/

/-- A name that can be declared in generated code. -/
structure IsLegalName (name : String) : Prop where
  fragment : IsFragment name
  unreserved : name ∉ Parser.keywords

/-- What can be a segment of a path. -/
def IsPathSegment (segment : String) : Prop :=
  segment ∉ Parser.keywords ∨ segment ∈ ["crate", "self", "super"]

instance (segment : String) : Decidable (IsPathSegment segment) :=
  inferInstanceAs (Decidable (_ ∨ _))

/-- A path that generated code can contain. -/
def IsLegalPath (text : String) : Prop :=
  ∃ leading segments, IsPathOf text leading segments ∧ leading ≤ 1 ∧
    ∀ segment ∈ segments, IsPathSegment segment

namespace Config

/-- What a configuration is checked for. -/
structure IsShaped (config : Config) : Prop where
  marker : IsFragment config.marker
  typeIdField : IsFragment config.typeIdField
  typeIdSuffix : IsFragment config.typeIdSuffix
  interfacePrefix : config.interfacePrefix = "" ∨ IsFragment config.interfacePrefix
  derives : ∀ text ∈ config.derives, ∃ leading segments, IsPathOf text leading segments
  indent : config.indent ≠ .spaces 0

/-- A configuration whose settings generated code can contain. -/
structure IsUsable (config : Config) : Prop where
  marker : IsLegalName config.marker
  typeIdField : IsLegalName config.typeIdField
  typeIdSuffix : IsFragment config.typeIdSuffix
  interfacePrefix : config.interfacePrefix = "" ∨ IsFragment config.interfacePrefix
  derives : ∀ text ∈ config.derives, IsLegalPath text
  indent : config.indent ≠ .spaces 0

/-- What is not checked: names that are not keywords, and paths of which this holds as well and that
start with one double colon at most. -/
structure IsUnreserved (config : Config) : Prop where
  marker : config.marker ∉ Parser.keywords
  typeIdField : config.typeIdField ∉ Parser.keywords
  derives : ∀ text ∈ config.derives, ∀ leading segments, IsPathOf text leading segments →
    leading ≤ 1 ∧ ∀ segment ∈ segments, IsPathSegment segment

theorem check_eq_ok {config accepted : Config} (checked : check config = .ok accepted) :
    config.problem? = none ∧ accepted = config := by
  unfold check at checked
  split at checked
  next => cases checked
  next none_ => exact ⟨none_, (Except.ok.inj checked).symm⟩

/-- What makes a check fail is the first setting that is not as it should be. -/
theorem problem?_eq_none_iff {config : Config} : config.problem? = none ↔ config.IsShaped := by
  have derives : config.derives.find? (!isPath ·) = none ↔
      ∀ text ∈ config.derives, ∃ leading segments, IsPathOf text leading segments := by
    simp [List.find?_eq_none, isPath_iff]
  have names : config.interfacePrefix = "" ∨ IsFragment config.interfacePrefix ↔
      (!config.interfacePrefix.isEmpty && !isIdentifier config.interfacePrefix.toList) = false := by
    rw [isFragment_iff, Bool.and_eq_false_iff, Bool.not_eq_false', Bool.not_eq_false',
      String.isEmpty_iff]
  constructor
  · intro passed
    unfold problem? at passed
    split at passed
    next => cases passed
    next marker =>
      split at passed
      next => cases passed
      next typeIdField =>
        split at passed
        next => cases passed
        next typeIdSuffix =>
          split at passed
          next => cases passed
          next interfacePrefix =>
            split at passed
            next => cases passed
            next none_ =>
              split at passed
              next => cases passed
              next indent =>
                exact ⟨isFragment_iff.mpr (by simpa using marker),
                  isFragment_iff.mpr (by simpa using typeIdField),
                  isFragment_iff.mpr (by simpa using typeIdSuffix),
                  names.mpr (Bool.eq_false_of_not_eq_true interfacePrefix), derives.mp none_, indent⟩
  · intro shaped
    rw [problem?, isFragment_iff.mp shaped.marker, isFragment_iff.mp shaped.typeIdField,
      isFragment_iff.mp shaped.typeIdSuffix, names.mp shaped.interfacePrefix,
      derives.mpr shaped.derives, if_neg shaped.indent]
    rfl

/-- **Configurations that are accepted.** A check succeeds exactly if the names are fragments of
identifiers, the derives are such fragments with double colons between and in front of them, and the
indentation is some text. Usable are exactly those of these configurations whose names and segments
are not reserved, and whose derives start with one double colon at most. -/
theorem check_eq_ok_iff (config : Config) :
    ((∃ accepted, check config = .ok accepted) ↔ config.IsShaped) ∧
      (config.IsUsable ↔ (∃ accepted, check config = .ok accepted) ∧ config.IsUnreserved) := by
  have passes : (∃ accepted, check config = .ok accepted) ↔ config.IsShaped := by
    rw [← problem?_eq_none_iff]
    constructor
    · rintro ⟨accepted, checked⟩
      exact (check_eq_ok checked).1
    · intro passed
      exact ⟨config, by rw [check, passed]⟩
  refine ⟨passes, ?_⟩
  rw [passes]
  constructor
  · intro usable
    refine ⟨⟨usable.marker.fragment, usable.typeIdField.fragment, usable.typeIdSuffix,
      usable.interfacePrefix, ?_, usable.indent⟩, usable.marker.unreserved,
      usable.typeIdField.unreserved, ?_⟩
    · intro text listed
      obtain ⟨leading, segments, path, -⟩ := usable.derives text listed
      exact ⟨leading, segments, path⟩
    · intro text listed leading segments path
      obtain ⟨count, others, legal, few, free⟩ := usable.derives text listed
      -- A text can be cut into a path in one way, so it is the one that is legal.
      obtain ⟨rfl, rfl⟩ := path.unique legal
      exact ⟨few, free⟩
  · rintro ⟨shaped, unreserved⟩
    refine ⟨⟨shaped.marker, unreserved.marker⟩, ⟨shaped.typeIdField, unreserved.typeIdField⟩,
      shaped.typeIdSuffix, shaped.interfacePrefix, ?_, shaped.indent⟩
    intro text listed
    obtain ⟨leading, segments, path⟩ := shaped.derives text listed
    exact ⟨leading, segments, path, unreserved.derives text listed leading segments path⟩

/-- A keyword as a field, the bare underscore as a marker, and a derive with two double colons in
front: all are accepted, and none is usable. -/
theorem check_reserved :
    (check { default with typeIdField := "type" } = .ok { default with typeIdField := "type" } ∧
        ¬ IsUsable { default with typeIdField := "type" }) ∧
      (check { default with marker := "_" } = .ok { default with marker := "_" } ∧
        ¬ IsUsable { default with marker := "_" }) ∧
      (check { default with derives := ["::::Clone"] } = .ok { default with derives := ["::::Clone"] } ∧
        ¬ IsUsable { default with derives := ["::::Clone"] }) := by
  have twice : IsPathOf "::::Clone" 2 ["Clone"] :=
    ⟨List.cons_ne_nil _ _, List.forall_mem_singleton.mpr (by decide), by decide +kernel⟩
  refine ⟨⟨by decide +kernel, fun usable => ?_⟩, ⟨by decide +kernel, fun usable => ?_⟩,
    ⟨by decide +kernel, fun usable => ?_⟩⟩
  · exact usable.typeIdField.unreserved (by decide)
  · exact usable.marker.unreserved (by decide)
  · obtain ⟨leading, segments, path, few, -⟩ := usable.derives "::::Clone" List.mem_cons_self
    obtain ⟨rfl, -⟩ := path.unique twice
    exact absurd few (by decide)

end Config

end VariantMerge
