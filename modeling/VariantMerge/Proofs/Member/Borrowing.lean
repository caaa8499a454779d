import VariantMerge.Proofs.Grammar.Declarations
import VariantMerge.Proofs.Hierarchy.Methods

/-!
# Results that borrow nothing

A method returns to its caller what it was given by an instance that is gone by then, so its result
must not borrow from it. The check looks at the tokens of the result. `ScanResult.output_borrowsNothing`
says that it is enough: whatever was read from source text and is accepted has a result in whose type
all references and lifetimes, however deep, are `'static`.
-/

namespace VariantMerge

theorem Signature.AcceptedAs.result_borrowsNothing {signature : Signature} {method : Method}
    (accepted : signature.AcceptedAs method) (legible : signature.ReturnsLegible) :
    ∀ ty ∈ signature.output, ty.BorrowsNothing := by
  intro ty written
  refine Ty.borrowsNothing (legible ty written) ?_
  obtain ⟨unit, -⟩ | ⟨_, same, -, -, -, free⟩ := Method.outputOf_eq_ok_iff.mp accepted.output
  · obtain ⟨trailing, rfl⟩ := Ty.isUnit_iff.mp (unit ty written)
    rfl
  · cases written.symm.trans same
    exact free

theorem Signature.AcceptedAs.mem_output {signature : Signature} {method : Method}
    (accepted : signature.AcceptedAs method) : ∀ ty ∈ method.output, ty ∈ signature.output := by
  intro ty returned
  obtain ⟨-, absent⟩ | ⟨_, written, same, -⟩ := Method.outputOf_eq_ok_iff.mp accepted.output
  · cases returned.symm.trans absent
  · cases returned.symm.trans same
    exact written

/-- The result that the entry is accepted with, if it is a function. -/
def TraitEntry.resultText? : TraitEntry → Option (Option String)
  | .method _ signature _ =>
    (Method.ofSignature signature).toOption.map fun method => method.output.map Ty.text
  | _ => none

namespace ScanResult

/-- **Results borrow nothing.** Let the units be read from texts. Whenever a function of a scanned
trait is accepted as a method, all references in its result type are written with `'static`, and there
is no other lifetime in it, at whatever depth: among the parts of the type, and in those of its tokens
that belong to no part. The same holds of the result that the method is emitted with. -/
theorem output_borrowsNothing {marker : String} {units : List SourceUnit}
    (read : ∀ unit ∈ units, unit.IsRead) {decl : TraitDecl}
    (scanned : decl ∈ (ofUnits marker units).traits) {attributes : List Attribute}
    {signature : Signature} {body : Option (List Token)}
    (declared : .method attributes signature body ∈ decl.item.entries) {method : Method}
    (accepted : Method.ofSignature signature = .ok method) :
    (∀ ty ∈ signature.output, ty.BorrowsNothing) ∧ ∀ ty ∈ method.output, ty.BorrowsNothing := by
  have inTrait : signature.IsRead := (isRead_of_mem_traits read scanned).entries _ declared
  have accepted := Method.ofSignature_eq_ok_iff.mp accepted
  have free := accepted.result_borrowsNothing inTrait.output
  exact ⟨free, fun ty returned => free ty (accepted.mem_output ty returned)⟩

/-- A trait with a function that returns `'static` references in a list of pairs. -/
def tableText : String :=
  "pub trait ITable \x7b
    fn rows(&self) -> Vec<(&'static str, fn(&'static u8) -> Box<dyn Row + 'static>)>;
\x7d"

/-- The result of the table. -/
theorem output_borrowsNothing_table : ∃ unit decl attributes signature body method ty,
    SourceUnit.parse "lib" .root tableText = .ok unit ∧
      decl ∈ (ofUnits Config.default.marker [unit]).traits ∧
      .method attributes signature body ∈ decl.item.entries ∧
      Method.ofSignature signature = .ok method ∧ method.output = some ty ∧
      ty.text = "Vec<(&'static str, fn(&'static u8) -> Box<dyn Row + 'static>)>" ∧
      ty.BorrowsNothing := by
  have seen : (SourceUnit.parse "lib" .root tableText).toOption.map (fun unit =>
      (ofUnits Config.default.marker [unit]).traits.map fun decl =>
        decl.item.entries.map TraitEntry.resultText?) =
      some [[some (some "Vec<(&'static str, fn(&'static u8) -> Box<dyn Row + 'static>)>")]] := by
    decide +kernel
  obtain ⟨unit, parsed, seen⟩ := Except.exists_of_toOption_map seen
  obtain ⟨decl, alone, seen⟩ := List.map_eq_singleton_iff.mp seen
  obtain ⟨entry, only, seen⟩ := List.map_eq_singleton_iff.mp seen
  have scanned : decl ∈ (ofUnits Config.default.marker [unit]).traits := by simp [alone]
  cases entry with
  | method attributes signature body =>
      obtain ⟨method, accepted, returned⟩ := Except.exists_of_toOption_map seen
      obtain ⟨ty, returns, text⟩ := Option.map_eq_some_iff.mp returned
      have declared : .method attributes signature body ∈ decl.item.entries := by simp [only]
      obtain ⟨-, free⟩ := output_borrowsNothing (List.forall_mem_singleton.mpr (.file parsed)) scanned
        declared accepted
      exact ⟨unit, decl, attributes, signature, body, method, ty, parsed, scanned, declared, accepted,
        returns, text, free ty returns⟩
  | _ => cases seen

end ScanResult

end VariantMerge
