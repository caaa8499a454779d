import Mathlib.Tactic.Common
import VariantMerge.Proofs.Emit.Code
import VariantMerge.Proofs.Text.Lines

/-!
# Emitted code leaves no scope open

A writer has the same open scopes after a piece of code as before it (`Code.write_scopes`). So the
scope that a piece of code closes is always its own, and emitting it cannot fail
(`Code.emitAll_eq_ok`); and code that stands by itself has a text whenever its indentation can be
built (`Code.text_eq_ok`).
-/

namespace VariantMerge

namespace SourceWriter

/-- A line opens and closes no scope. -/
@[simp] theorem line_scopes (w : SourceWriter) (text : String) :
    (w.line text).scopes = w.scopes := by
  unfold line
  split <;> rfl

/-- An empty line opens and closes no scope. -/
@[simp] theorem blank_scopes (w : SourceWriter) : w.blank.scopes = w.scopes := by
  unfold blank
  split
  · exact w.line_scopes ""
  · rfl

/-- The scope that begins is the innermost one. -/
@[simp] theorem beginScope_scopes (w : SourceWriter) (header : String) :
    (w.beginScope header).scopes = header :: w.scopes := rfl

/-- The innermost scope is closed. -/
@[simp] theorem close_scopes (w : SourceWriter) (suffix : String) :
    (w.close suffix).scopes = w.scopes.tail :=
  line_scopes _ _

/-- The text is made of the lines, each with its line feed. -/
theorem toList_text (w : SourceWriter) : w.text.toList = Text.feeds w.lines := by
  simp [text, Text.feeds, String.toList_join, List.flatMap_map]

/-- A writer without open scopes can be finished. -/
theorem finish_eq_ok {w : SourceWriter} (closed : w.scopes = []) : w.finish = .ok w.text := by
  unfold finish
  rw [closed]

end SourceWriter

namespace Code

mutual

/-- A piece of code closes what it opens. -/
theorem write_scopes (w : SourceWriter) : (code : Code) → (code.write w).scopes = w.scopes
  | .line text => by rw [write, SourceWriter.line_scopes]
  | .blank => by rw [write, SourceWriter.blank_scopes]
  | .scope header body => by
    rw [write, SourceWriter.close_scopes, writeAll_scopes, SourceWriter.beginScope_scopes,
      List.tail_cons]

/-- Pieces of code close what they open. -/
theorem writeAll_scopes (w : SourceWriter) :
    (codes : List Code) → (writeAll w codes).scopes = w.scopes
  | [] => by rw [writeAll]
  | code :: rest => by rw [writeAll, writeAll_scopes, write_scopes]

end

mutual

/-- The scope that a piece of code closes was opened by it. -/
theorem emit_eq_ok (w : SourceWriter) : (code : Code) → code.emit w = .ok (code.write w)
  | .line _ => rfl
  | .blank => rfl
  | .scope header body => by
    have inside : (writeAll (w.beginScope header) body).scopes = header :: w.scopes := by
      rw [writeAll_scopes, SourceWriter.beginScope_scopes]
    rw [emit, emitAll_eq_ok (w.beginScope header) body]
    change (writeAll (w.beginScope header) body).endScope = _
    rw [SourceWriter.endScope, SourceWriter.endScopeWith, inside, write]

/-- **Emitting code never fails**, whatever scopes are open. -/
theorem emitAll_eq_ok (w : SourceWriter) :
    (codes : List Code) → emitAll w codes = .ok (writeAll w codes)
  | [] => rfl
  | code :: rest => by
    rw [emitAll, emit_eq_ok w code]
    exact emitAll_eq_ok (code.write w) rest

end

/-- Code that stands by itself has a text if its indentation can be built. -/
theorem text_eq_ok {indent : Indent} {unit : String} (built : indent.unit? = some unit)
    (codes : List Code) : text indent codes = .ok (writeAll ⟨unit, [], []⟩ codes).text := by
  have new : SourceWriter.new indent = .ok ⟨unit, [], []⟩ := by
    rw [SourceWriter.new, built]
  have emitted := emitAll_eq_ok ⟨unit, [], []⟩ codes
  rw [text, new]
  change (emitAll ⟨unit, [], []⟩ codes).bind _ = _
  rw [emitted]
  exact SourceWriter.finish_eq_ok (writeAll_scopes _ codes)

end Code

end VariantMerge
