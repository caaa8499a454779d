import VariantMerge.Syntax.Type
import VariantMerge.Proofs.Token.Spelling

/-!
# Legible tokens side by side

Legible tokens stay legible when they are put together, unless the one in front ends where the one behind
starts with a dot, a number sign, a slash or a star. The operators that types are written with do none of
this, so what is between the parts of a type never matters.
-/

namespace VariantMerge

namespace Token

variable {token next : Token} {front back : List Token}

/-- Whether a token is no operator that ends in a slash. -/
def isCalm : Token → Bool
  | op text => text.toList.getLast? != some '/'
  | _ => true

/-- Whether nothing in front of a token goes on with it. -/
def isMild : Token → Bool
  | op text => !text.toList.head?.any ['.', '#', '/', '*'].contains
  | _ => true

/-- Whether no word or number in front of a token goes on with it. -/
def isPlain : Token → Bool
  | op text => !text.toList.head?.any ['.', '#'].contains
  | _ => true

theorem isApart_of_mild (mild : next.isMild = true) : token.isApart next = true := by
  cases next with
  | op text =>
      cases head : text.toList.head? with
      | none => cases token <;> simp [isApart, head]
      | some c =>
          have other : c ≠ '.' ∧ c ≠ '#' ∧ c ≠ '/' ∧ c ≠ '*' := by simpa [isMild, head] using mild
          cases token <;> simp [isApart, head, other]
  | _ => cases token <;> rfl

theorem isApart_of_calm (calm : token.isCalm = true) (plain : next.isPlain = true) :
    token.isApart next = true := by
  cases next with
  | op text =>
      cases token with
      | op before => simp_all [isApart, isCalm]
      | _ =>
          cases head : text.toList.head? with
          | none => simp [isApart, head]
          | some c =>
              have other : c ≠ '.' ∧ c ≠ '#' := by simpa [isPlain, head] using plain
              simp [isApart, head, other]
  | _ => cases token <;> rfl

namespace Legible

theorem nil : Legible [] := trivial

theorem single (here : token.IsLegible) : Legible [token] :=
  ⟨here, nofun, trivial⟩

/-- A token in front of others. -/
theorem cons (here : token.IsLegible) (calm : token.isCalm = true)
    (plain : ∀ next ∈ back.head?, next.isPlain = true) (legible : Legible back) :
    Legible (token :: back) :=
  ⟨here, fun next first => isApart_of_calm calm (plain next first), legible⟩

/-- An operator in front of others. -/
theorem cons_op (text : String) (here : isOperator text = true) (calm : (op text).isCalm = true)
    (legible : Legible back) : Legible (.op text :: back) := by
  refine ⟨here, fun next _ => ?_, legible⟩
  cases next with
  | op next => simp_all [isApart, isCalm]
  | _ => rfl

theorem append (first : Legible front) (second : Legible back)
    (mild : ∀ next ∈ back.head?, next.isMild = true) : Legible (front ++ back) := by
  induction front with
  | nil => exact second
  | cons token front ih =>
      refine ⟨first.1, fun next here => ?_, ih first.2.2⟩
      cases front with
      | nil => exact isApart_of_mild (mild next here)
      | cons other rest => exact first.2.1 next here

theorem append_calm (first : Legible front) (second : Legible back)
    (calm : ∀ token ∈ front, token.isCalm = true)
    (plain : ∀ next ∈ back.head?, next.isPlain = true) : Legible (front ++ back) := by
  induction front with
  | nil => exact second
  | cons token front ih =>
      refine ⟨first.1, fun next here => ?_, ih first.2.2 fun token listed =>
        calm token (List.mem_cons_of_mem _ listed)⟩
      cases front with
      | nil => exact isApart_of_calm (calm token List.mem_cons_self) (plain next here)
      | cons other rest => exact first.2.1 next here

/-- The operators of types. -/
theorem of_sign {text : String} (listed : text ∈ ["<", ">", "::", ":", "&", "*", ";", ",", "!", "->",
    "+", "=", "?", "...", "-"]) : isOperator text = true ∧ (op text).isCalm = true := by
  have told : ["<", ">", "::", ":", "&", "*", ";", ",", "!", "->", "+", "=", "?", "...", "-"].all
      (fun text => isOperator text && (op text).isCalm) = true := by decide
  exact Bool.and_eq_true_iff.mp (List.all_eq_true.mp told text listed)

theorem separated {separator : String} (sign : separator ∈ [",", "::", "+"]) (trailing : Bool)
    {parts : List (List Token)} (each : ∀ part ∈ parts, Legible part) :
    Legible (Token.separated separator trailing parts) := by
  have mild : ∀ separator ∈ [",", "::", "+"], (op separator).isMild = true := by decide
  have signs : [",", "::", "+"] ⊆ ["<", ">", "::", ":", "&", "*", ";", ",", "!", "->", "+", "=",
      "?", "...", "-"] := by decide
  obtain ⟨operator, calm⟩ := of_sign (signs sign)
  have first : ∀ rest, ∀ next ∈ (Token.op separator :: rest).head?, next.isMild = true := by
    rintro rest next ⟨rfl⟩
    exact mild separator sign
  induction parts with
  | nil => exact nil
  | cons part parts ih =>
      have here := each part List.mem_cons_self
      have others := ih fun part listed => each part (List.mem_cons_of_mem _ listed)
      cases parts with
      | nil =>
          rw [Token.separated]
          split
          · exact append here (cons_op _ operator calm nil) (first [])
          · exact here
      | cons next rest => exact append here (cons_op _ operator calm others) (first _)

/-- Whatever comes after the last comma. -/
theorem separated_append {parts : List (List Token)} (each : ∀ part ∈ parts, Legible part)
    (last : Legible back) : Legible (Token.separated "," true parts ++ back) := by
  induction parts with
  | nil => exact last
  | cons part parts ih =>
      have others := ih fun part listed => each part (List.mem_cons_of_mem _ listed)
      have whole : Token.separated "," true (part :: parts) ++ back =
          part ++ .op "," :: (Token.separated "," true parts ++ back) := by
        cases parts <;> simp [Token.separated]
      rw [whole]
      refine append (each part List.mem_cons_self) (cons_op _ (by decide) (by decide) others) ?_
      rintro next ⟨rfl⟩
      decide

end Legible

end Token

end VariantMerge
