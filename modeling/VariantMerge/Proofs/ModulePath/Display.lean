import VariantMerge.ModulePath
import VariantMerge.Proofs.Config.Validity
import VariantMerge.Proofs.Text.Blank
import VariantMerge.Proofs.Token.Spelling

/-!
# Module paths as texts

A module path is shown with `crate` in front and read with any number of these left out, so the text of
a path is read as the path again if its segments are found again: they are not empty, have no colon and
no blanks around them, and the first of them is not `crate` (`ModulePath.IsReadable`). Paths of names are
like that, and so is every path that has been read from a text whose pieces have no colon
(`ModulePath.isReadable_parse`).
-/

namespace VariantMerge

namespace ModulePath

/-! ## Segments that can be read back -/

/-- A segment that is found again where it stands between double colons. -/
structure IsSegment (name : String) : Prop where
  nonempty : name ≠ ""
  noColon : ':' ∉ name.toList
  trimmed : Text.IsTrimmed name.toList

/-- A path that is found again in its text: its first segment does not mean the root. -/
structure IsReadable (path : ModulePath) : Prop where
  segments : ∀ segment ∈ path.segments, IsSegment segment
  first : path.segments.head? ≠ some "crate"

/-- Words of source texts can be read back. -/
theorem isSegment_of_isName {name : String} (named : Token.isName name = true) : IsSegment name := by
  have chars := Token.isIdentContinue_of_isName named
  have visible : ∀ c ∈ name.toList, Text.isBlank c = false := by
    intro c listed
    rw [Bool.eq_false_iff]
    intro blank
    rcases chars c listed with rfl | goesOn
    · exact absurd blank (by decide)
    · rw [Text.isIdentContinue_of_isBlank blank] at goesOn
      cases goesOn
  refine ⟨?_, fun listed => ?_, fun c first => visible c (List.mem_of_mem_head? first),
    fun c last => visible c (List.mem_of_getLast? last)⟩
  · rintro rfl
    exact absurd named (by decide)
  · exact absurd (chars ':' listed) (by decide)

/-- Segments with double colons between them are read as these segments, without those in front that
mean the root. -/
theorem parse_intercalate {names : List String} (segments : ∀ name ∈ names, IsSegment name) :
    parse ("::".intercalate names) = ⟨names.dropWhile (· == "crate")⟩ := by
  by_cases none_ : names = []
  · subst none_
    decide
  have pieces : Text.colonPieces ("::".intercalate names).toList = names.map String.toList := by
    rw [String.toList_intercalate]
    apply Text.colonPieces_intercalate (by simpa using none_)
    exact List.forall_mem_map.mpr fun name listed => (segments name listed).noColon
  have trimmed : (names.map String.toList).map (fun piece => String.ofList (Text.trim piece)) =
      names := by
    rw [List.map_map]
    conv_rhs => rw [← List.map_id names]
    refine List.map_congr_left fun name listed => ?_
    rw [Function.comp_apply, (segments name listed).trimmed.trim_eq, String.ofList_toList, id]
  have filled : names.filter (fun name => !name.isEmpty) = names :=
    List.filter_eq_self.mpr fun name listed => by simpa using (segments name listed).nonempty
  rw [parse, pieces, trimmed]
  simp only [filled]

/-- The text of a path is its segments behind `crate`, with double colons between them. -/
theorem display_eq (path : ModulePath) : path.display = "::".intercalate ("crate" :: path.segments) := by
  have joined (first : String) (rest : List String) :
      String.join (first :: rest.map ("::" ++ ·)) = "::".intercalate (first :: rest) := by
    induction rest generalizing first with
    | nil => simp
    | cons second rest ih =>
        rw [String.intercalate_cons_cons, ← ih second]
        simp [String.join_cons, String.append_assoc]
  exact joined "crate" path.segments

namespace IsReadable

variable {path : ModulePath}

theorem dropWhile_segments (readable : path.IsReadable) :
    path.segments.dropWhile (· == "crate") = path.segments := by
  cases segments : path.segments with
  | nil => rfl
  | cons first rest =>
      have other := readable.first
      rw [segments] at other
      exact List.dropWhile_cons_of_neg (by simpa using other)

/-- The segments alone are read as the path. -/
theorem parse_segments (readable : path.IsReadable) : parse ("::".intercalate path.segments) = path := by
  rw [parse_intercalate readable.segments, readable.dropWhile_segments]

/-- The text of the path is read as the path. -/
theorem parse_display (readable : path.IsReadable) : parse path.display = path := by
  have segments : ∀ segment ∈ "crate" :: path.segments, IsSegment segment :=
    List.forall_mem_cons.mpr ⟨isSegment_of_isName (by decide), readable.segments⟩
  rw [display_eq, parse_intercalate segments, List.dropWhile_cons_of_pos rfl,
    readable.dropWhile_segments]

end IsReadable

/-- The names that a text holds between double colons, without blanks around them. -/
def namesIn (text : String) : List String :=
  ((Text.colonPieces text.toList).map fun piece => String.ofList (Text.trim piece)).filter
    fun name => !name.isEmpty

theorem segments_parse (text : String) :
    (parse text).segments = (namesIn text).dropWhile (· == "crate") := rfl

theorem isSegment_of_mem_namesIn {text : String}
    (plain : ∀ piece ∈ Text.colonPieces text.toList, ':' ∉ piece) :
    ∀ name ∈ namesIn text, IsSegment name := by
  intro name listed
  obtain ⟨kept, nonempty⟩ := List.mem_filter.mp listed
  obtain ⟨piece, inside, rfl⟩ := List.mem_map.mp kept
  refine ⟨by simpa using nonempty, ?_, ?_⟩
  · rw [String.toList_ofList]
    exact fun colon => plain piece inside ((Text.trim_infix piece).subset colon)
  · rw [String.toList_ofList]
    exact Text.isTrimmed_trim piece

/-- **What has been read can be read back**, if no piece of the text has a colon. -/
theorem isReadable_parse {text : String} (plain : ∀ piece ∈ Text.colonPieces text.toList, ':' ∉ piece) :
    (parse text).IsReadable := by
  refine ⟨fun segment listed => ?_, fun first => ?_⟩
  · rw [segments_parse] at listed
    exact isSegment_of_mem_namesIn plain segment ((List.dropWhile_suffix _).subset listed)
  · have other := List.head?_dropWhile_not (· == "crate") (namesIn text)
    rw [← segments_parse, first] at other
    exact absurd other (by decide)

/-- **Paths are read back.** A path whose segments are names, the first of which is not `crate`, is what
its text and its segments alone are read as. What has been read from a text whose pieces between
double colons have no colon is read again from its own text, whatever blanks, empty pieces and `crate`
the text has. -/
theorem parse_readsBack :
    (∀ path : ModulePath, (∀ segment ∈ path.segments, Token.isName segment = true) →
      path.segments.head? ≠ some "crate" →
        parse path.display = path ∧ parse ("::".intercalate path.segments) = path) ∧
    ∀ text : String, (∀ piece ∈ Text.colonPieces text.toList, ':' ∉ piece) →
      parse (parse text).display = parse text := by
  refine ⟨fun path names first => ?_, fun text plain => (isReadable_parse plain).parse_display⟩
  have readable : path.IsReadable :=
    ⟨fun segment listed => isSegment_of_isName (names segment listed), first⟩
  exact ⟨readable.parse_display, readable.parse_segments⟩

/-- A path with a raw name, and a text with blanks, empty pieces and `crate` twice. -/
theorem parse_readsBack_states :
    (parse (display ⟨["states", "r#move"]⟩) = ⟨["states", "r#move"]⟩ ∧
      parse "states::r#move" = ⟨["states", "r#move"]⟩) ∧
    (parse " crate:: ::crate:: states ::crate" = ⟨["states", "crate"]⟩ ∧
      parse (parse " crate:: ::crate:: states ::crate").display = ⟨["states", "crate"]⟩) := by
  obtain ⟨names, texts⟩ := parse_readsBack
  have read : parse " crate:: ::crate:: states ::crate" = ⟨["states", "crate"]⟩ := by decide +kernel
  refine ⟨?_, read, (texts _ (by decide +kernel)).trans read⟩
  exact names ⟨["states", "r#move"]⟩ (by decide) (by decide)

end ModulePath

end VariantMerge
