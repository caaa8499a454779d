import Mathlib.Data.List.Induction
import VariantMerge.Proofs.Writer.Runs

/-!
# Scopes of a writer

Whatever a writer is asked for, each brace that it writes closes a scope that it has opened before, and
is aligned with the line that opened it. The opening line is found in the course of the steps: it is
the last one after which the scope has been open all the time (`SourceWriter.exists_opening`), so that
all lines in between stand deeper (`SourceWriter.exists_aligned`).
-/

namespace VariantMerge

namespace SourceWriter

variable {w start : SourceWriter}

/-! ## Open scopes -/

@[simp] theorem text_scopes (w : SourceWriter) (content : String) :
    (w.put (.text content)).scopes = w.scopes :=
  w.line_scopes content

@[simp] theorem gap_scopes (w : SourceWriter) : (w.put .gap).scopes = w.scopes :=
  w.blank_scopes

@[simp] theorem opening_scopes (w : SourceWriter) (header : String) :
    (w.put (.opening header)).scopes = header :: w.scopes := rfl

@[simp] theorem closing_scopes (w : SourceWriter) (suffix : String) :
    (w.put (.closing suffix)).scopes = w.scopes.tail := by
  rw [put]
  split
  next none_ => rw [none_, List.tail_nil]
  next => exact w.close_scopes suffix

theorem putAll_concat (w : SourceWriter) (marks : List Mark) (mark : Mark) :
    w.putAll (marks ++ [mark]) = (w.putAll marks).put mark :=
  putAll_append w marks [mark]

/-- The scopes stay open, with the same ones around them, in the course of steps. -/
def KeepsOpen (w : SourceWriter) (scopes : List String) (marks : List Mark) : Prop :=
  ∀ early, early <+: marks → scopes <:+ (w.putAll early).scopes

theorem KeepsOpen.concat {scopes : List String} {marks : List Mark} {mark : Mark}
    (keeps : w.KeepsOpen scopes marks) (still : scopes <:+ (w.putAll (marks ++ [mark])).scopes) :
    w.KeepsOpen scopes (marks ++ [mark]) := by
  intro early reached
  obtain rfl | earlier := List.prefix_concat_iff.mp reached
  · exact still
  · exact keeps early earlier

/-- **A scope that is open has been opened**, and has been open since. -/
theorem exists_opening (fresh : start.scopes = []) {header : String} {outer : List String}
    {marks : List Mark} (opened : header :: outer <:+ (start.putAll marks).scopes) :
    ∃ before inner, marks = before ++ .opening header :: inner ∧
      (start.putAll before).scopes = outer ∧
        ((start.putAll before).put (.opening header)).KeepsOpen (header :: outer) inner := by
  induction marks using List.reverseRecOn with
  | nil =>
      have none_ : header :: outer <:+ [] := fresh ▸ opened
      exact absurd (List.suffix_nil.mp none_) (List.cons_ne_nil _ _)
  | append_singleton marks mark ih =>
      -- If the scope was open already, it has been so since it was opened earlier.
      have since (already : header :: outer <:+ (start.putAll marks).scopes) :
          ∃ before inner, marks ++ [mark] = before ++ .opening header :: inner ∧
            (start.putAll before).scopes = outer ∧
              ((start.putAll before).put (.opening header)).KeepsOpen (header :: outer) inner := by
        obtain ⟨before, inner, rfl, around, keeps⟩ := ih already
        refine ⟨before, inner ++ [mark], by simp, around, keeps.concat ?_⟩
        rw [List.append_assoc, List.cons_append, putAll_append] at opened
        exact opened
      rw [putAll_concat] at opened
      cases mark with
      | text content => exact since (by simpa using opened)
      | gap => exact since (by simpa using opened)
      | closing suffix =>
          rw [closing_scopes] at opened
          exact since (opened.trans (List.tail_suffix _))
      | opening other =>
          rw [opening_scopes] at opened
          obtain same | already := List.suffix_cons_iff.mp opened
          · obtain ⟨rfl, rfl⟩ := List.cons.inj same
            refine ⟨marks, [], rfl, rfl, fun early reached => ?_⟩
            rw [List.prefix_nil.mp reached]
            exact List.suffix_refl _
          · exact since already

/-! ## Lines and their scopes -/

/-- A line stands in the scopes that are open both before and after it. -/
theorem depth_of_mem_entries {mark : Mark} {entry : Entry} (listed : entry ∈ mark.entries w) :
    entry.depth = min w.depth (w.put mark).depth := by
  cases mark with
  | text content =>
      obtain rfl := List.mem_singleton.mp listed
      rw [depth, depth, text_scopes, Nat.min_self]
  | gap =>
      rw [Mark.entries] at listed
      split at listed
      · obtain rfl := List.mem_singleton.mp listed
        rw [depth, depth, gap_scopes, Nat.min_self]
      · cases listed
  | opening header =>
      obtain rfl := List.mem_singleton.mp listed
      exact (Nat.min_eq_left (Nat.le_succ _)).symm
  | closing suffix =>
      rw [Mark.entries] at listed
      split at listed
      · cases listed
      · obtain rfl := List.mem_singleton.mp listed
        rw [depth, depth, closing_scopes, List.length_tail]
        exact (Nat.min_eq_right (Nat.sub_le _ _)).symm

/-- What is written while scopes stay open stands in them. -/
theorem KeepsOpen.le_depth {scopes : List String} {marks : List Mark}
    (keeps : w.KeepsOpen scopes marks) : ∀ entry ∈ w.entries marks, scopes.length ≤ entry.depth := by
  induction marks generalizing w with
  | nil => exact fun _ listed => absurd listed List.not_mem_nil
  | cons mark rest ih =>
      have before : scopes.length ≤ w.depth := (keeps [] (List.nil_prefix)).length_le
      have behind : scopes.length ≤ (w.put mark).depth :=
        (keeps [mark] (List.prefix_append [mark] rest)).length_le
      refine List.forall_mem_append.mpr ⟨fun entry listed => ?_, ih fun early reached => ?_⟩
      · rw [depth_of_mem_entries listed]
        exact Nat.le_min.mpr ⟨before, behind⟩
      · exact keeps (mark :: early) (List.cons_prefix_cons.mpr ⟨rfl, reached⟩)

/-- The steps from the opening line of a scope to its closing brace, and what is written between the
two: they are at one depth, the lines between them are deeper, and afterwards the scopes are open that
were before. -/
structure Aligned (start : SourceWriter) (before : List Mark) (header : String) (inner : List Mark)
    (suffix : String) (within : List Entry) : Prop where
  entries : start.entries (before ++ .opening header :: inner ++ [.closing suffix]) =
    start.entries before ++ ⟨(start.putAll before).depth, openingText header⟩ :: within ++
      [⟨(start.putAll before).depth, "\x7d" ++ suffix⟩]
  deeper : ∀ entry ∈ within, (start.putAll before).depth < entry.depth
  scopes : (start.putAll (before ++ .opening header :: inner ++ [.closing suffix])).scopes =
    (start.putAll before).scopes

/-- **Braces are aligned.** Where a scope is open, the next brace is aligned with the line that opened
the innermost one. -/
theorem exists_aligned (fresh : start.scopes = []) {marks : List Mark}
    (inside : (start.putAll marks).depth ≠ 0) (suffix : String) :
    ∃ before header inner, marks = before ++ .opening header :: inner ∧
      ∃ within, start.Aligned before header inner suffix within := by
  obtain ⟨header, outer, scopes⟩ :=
    List.exists_cons_of_ne_nil fun none_ => inside (congrArg List.length none_)
  have opened : header :: outer <:+ (start.putAll marks).scopes := scopes ▸ List.suffix_refl _
  obtain ⟨before, inner, rfl, around, keeps⟩ := exists_opening fresh opened
  have outside : (start.putAll before).depth = outer.length := congrArg List.length around
  have closed : (start.putAll (before ++ .opening header :: inner)).depth - 1 = outer.length :=
    congrArg (fun scopes => scopes.length - 1) scopes
  refine ⟨before, header, inner, rfl,
    ((start.putAll before).put (.opening header)).entries inner, ?_, fun entry listed => ?_, ?_⟩
  · have brace : Mark.entries (start.putAll (before ++ .opening header :: inner)) (.closing suffix) =
        [⟨outer.length, "\x7d" ++ suffix⟩] := by
      rw [Mark.entries, if_neg inside, closed]
    have first : Mark.entries (start.putAll before) (.opening header) =
        [⟨outer.length, openingText header⟩] := by
      rw [Mark.entries, outside]
    rw [entries_append, entries_append, SourceWriter.entries, SourceWriter.entries, brace, first,
      outside]
    rfl
  · rw [outside]
    exact keeps.le_depth entry listed
  · rw [putAll_concat, closing_scopes, scopes, around, List.tail_cons]

/-! ## Runs -/

/-- Whether a request ends a scope that it has not begun. -/
def Request.isClosing : Request → Bool
  | endScope _ | endModule => true
  | _ => false

/-- Only a request to close a scope is refused, and only where none is open. -/
theorem Request.answer_eq_error_iff {request : Request} {failure : Failure} :
    request.answer w = .error failure ↔
      request.isClosing = true ∧ w.depth = 0 ∧ failure = .internal .unopenedScope := by
  have closes (suffix : String) : w.endScopeWith suffix = .error failure ↔
      w.depth = 0 ∧ failure = .internal .unopenedScope := by
    by_cases top : w.depth = 0
    · rw [endScopeWith_of_depth_eq_zero top, Except.error.injEq]
      exact ⟨fun same => ⟨top, same.symm⟩, fun same => same.2.symm⟩
    · rw [endScopeWith_of_depth_ne_zero top]
      exact ⟨nofun, fun same => absurd same.1 top⟩
  cases request with
  | endScope suffix => exact (closes suffix).trans ⟨fun both => ⟨rfl, both⟩, And.right⟩
  | endModule => exact (closes "").trans ⟨fun both => ⟨rfl, both⟩, And.right⟩
  | _ => exact ⟨nofun, nofun⟩

theorem new_eq_ok_iff {indent : Indent} :
    new indent = .ok start ↔ ∃ unit, indent.unit? = some unit ∧ start = ⟨unit, [], []⟩ := by
  unfold new
  split
  next unit built => simp [built, eq_comm]
  next none_ => simp [none_]

/-- **What a writer does.** Whatever it is asked for in texts without line feeds, its depth is the number
of scopes that have been opened and not been closed. Only to close a scope where none is open is
refused, and that changes nothing. Each line of the text is an entry, indented by its depth; each brace
is aligned with the line that opened its scope. The text can be had exactly if no scope is open, and
otherwise the innermost one is named. -/
theorem run_scopes {indent : Indent} (made : new indent = .ok start) {requests : List Request}
    (oneLine : ∀ request ∈ requests, ∀ text ∈ request.texts, IsOneLine text) :
    (start.run requests).depth + start.closed requests = opened requests ∧
    (∀ (request : Request) (failure : Failure),
      request.answer (start.run requests) = .error failure ↔
        request.isClosing = true ∧ (start.run requests).depth = 0 ∧
          failure = .internal .unopenedScope) ∧
    (∀ (request : Request) (more : List Request), request.isClosing = true →
      (start.run requests).depth = 0 →
        start.run (requests ++ request :: more) = start.run (requests ++ more)) ∧
    (start.run requests).text.toList.splitOn '\n' =
      (start.entries (marks requests)).map (fun entry => (entry.written start.unit).toList) ++ [[]] ∧
    (∀ early suffix late, marks requests = early ++ .closing suffix :: late →
      (start.putAll early).depth ≠ 0 →
        ∃ before header inner, early = before ++ .opening header :: inner ∧
          ∃ within, start.Aligned before header inner suffix within) ∧
    ((start.run requests).depth = 0 →
      (start.run requests).finish = .ok (start.run requests).text) ∧
    (∀ header outer, (start.run requests).scopes = header :: outer →
      (start.run requests).finish =
        .error (.internal (.openScopes (start.run requests).depth header))) := by
  obtain ⟨unit, built, rfl⟩ := new_eq_ok_iff.mp made
  refine ⟨?_, fun _ _ => Request.answer_eq_error_iff, fun request more closing top => ?_,
    splitOn_run (Indent.isIndent built) oneLine, fun early suffix late _ inside => ?_,
    fun top => ?_, fun header outer scopes => ?_⟩
  · exact (depth_run _ requests).trans (Nat.zero_add _)
  · exact run_skip (Request.answer_eq_error_iff.mpr ⟨closing, top, rfl⟩)
  · exact exists_aligned rfl inside suffix
  · exact finish_eq_ok (List.length_eq_zero_iff.mp top)
  · rw [finish, scopes]

/-- A closing brace too many, a module, an enumeration in it, and an implementation that is left open. -/
def nestedRequests : List Request :=
  [.endScope ";", .beginModule "pub" "shapes", .enumeration "" "Kind" ["A"], .beginScope "impl A",
    .line "x();"]

theorem run_scopes_nested :
    new .tabs = .ok ⟨"\t", [], []⟩ ∧
      (∀ request ∈ nestedRequests, ∀ text ∈ request.texts, IsOneLine text) ∧
        (run ⟨"\t", [], []⟩ nestedRequests).depth + 1 = 3 ∧
          (run ⟨"\t", [], []⟩ nestedRequests).text.toList.splitOn '\n' =
            ["pub mod shapes \x7b", "\tenum Kind \x7b", "\t\tA,", "\t\x7d", "\timpl A \x7b",
              "\t\tx();", ""].map String.toList ∧
            (run ⟨"\t", [], []⟩ nestedRequests).finish =
              .error (.internal (.openScopes 2 "impl A")) := by
  have made : new .tabs = .ok ⟨"\t", [], []⟩ := rfl
  have oneLine : ∀ request ∈ nestedRequests, ∀ text ∈ request.texts, IsOneLine text := by decide
  obtain ⟨depth, -, -, lines, -, -, unfinished⟩ := run_scopes made oneLine
  refine ⟨made, oneLine, depth, lines.trans ?_, unfinished "impl A" ["pub mod shapes"] ?_⟩
  · decide +kernel
  · decide +kernel

end SourceWriter

end VariantMerge
