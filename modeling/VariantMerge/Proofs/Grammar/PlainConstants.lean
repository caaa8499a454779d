import VariantMerge.Grammar.Item
import VariantMerge.Proofs.Grammar.TypeRuns

/-!
# Plain constants

The plain constants (`Token.IsPlainConstant`) are calculations: literals, names, calls and parentheses,
with signs in front, operators of arithmetic between them, and conversions to a type with a name. Nothing
in them is written without a blank that the next token could go on with, so they are legible
(`Token.IsPlainPart.legible`).
-/

namespace VariantMerge

open VariantMerge.Parser

/-- A path of names, which may start at a keyword. -/
structure Path.IsNames (p : Path) : Prop where
  some_ : p.segments ≠ []
  plain : p.isPlain = true
  named : ∀ s ∈ p.segments, Token.isName s.name = true ∧
    (keywords.contains s.name = false ∨ s.name ∈ ["self", "Self", "super", "crate"])

namespace Path.IsNames

variable {p : Path}

/-- The names are read back, and a type can start with them. -/
theorem isFront (names : p.IsNames) : p.IsFront := by
  refine ⟨⟨names.some_, fun s listed => ?_⟩, ?_⟩
  · have bare := List.all_eq_true.mp names.plain s listed
    obtain ⟨named, allowed⟩ := names.named s listed
    obtain ⟨name, arguments⟩ := s
    cases arguments with
    | none =>
        refine ⟨⟨named, ?_⟩, trivial⟩
        rcases allowed with free | listed
        · exact .inr (.inr free)
        · simp only [Segment.name, List.mem_cons, List.not_mem_nil, or_false] at listed
          rcases listed with rfl | rfl | rfl | rfl
          · exact .inl ⟨by decide, rfl⟩
          · exact .inr (.inl rfl)
          · exact .inl ⟨by decide, rfl⟩
          · exact .inl ⟨by decide, rfl⟩
    | angle turbofish each trailing => cases bare
    | paren inputs trailing output => cases bare
  · obtain ⟨leading, segments⟩ := p
    obtain ⟨⟨name, arguments⟩, others, whole⟩ := List.exists_cons_of_ne_nil names.some_
    obtain rfl : segments = .mk name arguments :: others := whole
    obtain ⟨named, allowed⟩ := names.named (.mk name arguments) List.mem_cons_self
    rw [tokens_eq]
    cases leading with
    | true => rfl
    | false =>
        have told : ∀ text ∈ ["self", "Self", "super", "crate"], ["self", "Self", "super", "crate",
          "fn", "unsafe", "extern", "dyn", "impl", "_", "for"].contains text = true := by decide
        rw [if_neg Bool.false_ne_true, List.nil_append, Segment.tokens, List.cons_append,
          Token.startsType, Bool.and_eq_true, Bool.or_eq_true, Bool.not_eq_true']
        exact ⟨named, allowed.imp id (told name)⟩

theorem fits (names : p.IsNames) : ∀ s ∈ p.segments, s.arguments.fitsExpr = true := by
  intro s listed
  have bare := List.all_eq_true.mp names.plain s listed
  obtain ⟨name, arguments⟩ := s
  cases arguments with
  | none => rfl
  | angle turbofish each trailing => cases bare
  | paren inputs trailing output => cases bare

end Path.IsNames

namespace Token

theorem of_mem_separated {separator : String} {trailing : Bool} {parts : List (List Token)} {token : Token}
    (among : token ∈ separated separator trailing parts) :
    token = .op separator ∨ ∃ part ∈ parts, token ∈ part := by
  cases parts with
  | nil => cases among
  | cons part parts =>
      simp only [separated_eq_flatMap, List.mem_append, List.mem_flatMap, List.mem_cons] at among
      rcases among with among | ⟨part, listed, rfl | among⟩ | among
      · exact .inr ⟨part, List.mem_cons_self, among⟩
      · exact .inl rfl
      · exact .inr ⟨part, List.mem_cons_of_mem _ listed, among⟩
      · cases trailing with
        | true => exact .inl (List.mem_singleton.mp among)
        | false => cases among

/-- The operators of arithmetic. -/
def arithmeticOps : List String := ["+", "-", "*", "/", "%", "^", "&", "|", "<<", ">>"]

/-- The kinds of phrases in plain constants: the core of an operand, an operand with its signs, what goes
on from an operand or a conversion, and the whole. -/
inductive ConstPart where
  | core
  | operand
  | tail (converted : Bool)
  | whole

/-- A plain constant, or a phrase of one. -/
inductive IsPlainPart : ConstPart → List Token → Prop where
  | literal {text : String} : Lexer.IsLiteral text.toList → IsPlainPart .core [.word text]
  | truth {text : String} : text ∈ ["true", "false"] → IsPlainPart .core [.word text]
  | path {p : Path} : p.IsNames → IsPlainPart .core p.tokens
  | call {p : Path} {parts : List (List Token)} {trailing : Bool} : p.IsNames →
      (∀ part ∈ parts, IsPlainPart .whole part) →
        IsPlainPart .core (p.tokens ++ [.group .paren (separated "," trailing parts)])
  | paren {parts : List (List Token)} {trailing : Bool} : (∀ part ∈ parts, IsPlainPart .whole part) →
      IsPlainPart .core [.group .paren (separated "," trailing parts)]
  | signed {signs : List String} {core : List Token} : (∀ sign ∈ signs, sign ∈ ["-", "!"]) →
      IsPlainPart .core core → IsPlainPart .operand (signs.map .op ++ core)
  | last {converted : Bool} : IsPlainPart (.tail converted) []
  | operator {converted : Bool} {text : String} {operand tail : List Token} : text ∈ arithmeticOps →
      (converted = true → text ≠ "<<") → IsPlainPart .operand operand →
        IsPlainPart (.tail false) tail → IsPlainPart (.tail converted) (.op text :: (operand ++ tail))
  | conversion {converted : Bool} {name : String} {tail : List Token} :
      isName name = true → keywords.contains name = false →
      IsPlainPart (.tail true) tail →
        IsPlainPart (.tail converted) (.word "as" :: .word name :: tail)
  | row {operand tail : List Token} : IsPlainPart .operand operand → IsPlainPart (.tail false) tail →
      IsPlainPart .whole (operand ++ tail)

/-- A plain constant. -/
def IsPlainConstant (value : List Token) : Prop :=
  IsPlainPart .whole value

/-! ## What plain constants start with and end in -/

/-- The front of an operand after its signs. -/
def isCoreHead : Token → Bool
  | .word _ => true
  | .group delimiter _ => delimiter == .paren
  | .op text => text == "::"
  | _ => false

/-- The front of an operand. -/
def isOperandHead : Token → Bool
  | .op text => ["::", "-", "!"].contains text
  | token => token.isCoreHead

theorem isOperandHead_of_core {token : Token} (head : token.isCoreHead = true) :
    token.isOperandHead = true := by
  cases token with
  | op text =>
      obtain rfl : text = "::" := beq_iff_eq.mp head
      rfl
  | _ => exact head

/-- What may follow an operand of a plain constant. -/
def EndsOperand (rest : List Token) : Prop :=
  ∀ next ∈ rest.head?, next = .word "as" ∨ ∃ text ∈ "," :: arithmeticOps, next = .op text

theorem isCoreHead_path {p : Path} (names : p.IsNames) (more : List Token) :
    ∃ next rest, p.tokens ++ more = next :: rest ∧ next.isCoreHead = true := by
  obtain ⟨rest, whole⟩ | ⟨name, rest, whole, -⟩ := names.isFront.cases <;> rw [whole] <;>
    exact ⟨_, _, rfl, rfl⟩

namespace IsPlainPart

variable {tokens : List Token}

theorem head {kind : ConstPart} (plain : IsPlainPart kind tokens) :
    match kind with
    | .core => ∃ next rest, tokens = next :: rest ∧ next.isCoreHead = true
    | .tail _ => EndsOperand tokens
    | _ => ∃ next rest, tokens = next :: rest ∧ next.isOperandHead = true := by
  induction plain with
  | literal => exact ⟨_, _, rfl, rfl⟩
  | truth => exact ⟨_, _, rfl, rfl⟩
  | path names =>
      have here := isCoreHead_path names []
      rwa [List.append_nil] at here
  | call names => exact isCoreHead_path names _
  | paren => exact ⟨_, _, rfl, rfl⟩
  | @signed signs core signs_ core_ ih =>
      cases signs with
      | nil =>
          obtain ⟨next, rest, whole, head⟩ := ih
          exact ⟨next, rest, whole, isOperandHead_of_core head⟩
      | cons sign signs =>
          have told : ∀ sign ∈ ["-", "!"], isOperandHead (.op sign) = true := by decide
          exact ⟨_, _, rfl, told sign (signs_ sign List.mem_cons_self)⟩
  | last => rintro next ⟨⟩
  | operator listed =>
      rintro next ⟨rfl⟩
      exact .inr ⟨_, List.mem_cons_of_mem _ listed, rfl⟩
  | conversion =>
      rintro next ⟨rfl⟩
      exact .inl rfl
  | row operand tail ihOperand ihTail =>
      obtain ⟨next, rest, rfl, head⟩ := ihOperand
      exact ⟨next, _, rfl, head⟩

/-- A core is an operand without signs. -/
theorem unsigned (plain : IsPlainPart .core tokens) : IsPlainPart .operand tokens :=
  @signed [] tokens (List.forall_mem_nil _) plain

theorem ends {converted : Bool} (plain : IsPlainPart (.tail converted) tokens) : EndsOperand tokens :=
  plain.head

theorem starts (plain : IsPlainPart .operand tokens) :
    ∃ next rest, tokens = next :: rest ∧ next.isOperandHead = true :=
  plain.head

/-- Nothing in an operand goes on with the operator behind it. -/
theorem calm {kind : ConstPart} (plain : IsPlainPart kind tokens)
    (isOperand : kind = .core ∨ kind = .operand) : ∀ token ∈ tokens, token.isCalm = true := by
  have path {p : Path} (names : p.IsNames) : ∀ token ∈ p.tokens, token.isCalm = true := by
    intro token among
    obtain ⟨leading, segments⟩ := p
    rw [Path.tokens, TypeNode.segmentsEach_eq_map, List.mem_append] at among
    rcases among with colons | among
    · cases leading with
      | true =>
          obtain rfl := List.mem_singleton.mp colons
          rfl
      | false => cases colons
    · obtain rfl | ⟨part, written, inside⟩ := of_mem_separated among
      · rfl
      · obtain ⟨⟨name, arguments⟩, listed, rfl⟩ := List.mem_map.mp written
        have bare := List.all_eq_true.mp names.plain _ listed
        cases arguments with
        | none =>
            obtain rfl := List.mem_singleton.mp inside
            rfl
        | angle turbofish each trailing => cases bare
        | paren inputs trailing output => cases bare
  induction plain with
  | literal => exact List.forall_mem_singleton.mpr rfl
  | truth => exact List.forall_mem_singleton.mpr rfl
  | path names => exact path names
  | call names parts =>
      exact List.forall_mem_append.mpr ⟨path names, List.forall_mem_singleton.mpr rfl⟩
  | paren => exact List.forall_mem_singleton.mpr rfl
  | @signed signs core signs_ core_ ih =>
      have told : ∀ sign ∈ ["-", "!"], (Token.op sign).isCalm = true := by decide
      exact List.forall_mem_append.mpr ⟨List.forall_mem_map.mpr fun sign listed =>
        told sign (signs_ sign listed), ih (.inl rfl)⟩
  | last => cases isOperand <;> contradiction
  | operator => cases isOperand <;> contradiction
  | conversion => cases isOperand <;> contradiction
  | row => cases isOperand <;> contradiction

end IsPlainPart

theorem EndsOperand.isPlain {tokens : List Token} (ends : EndsOperand tokens) :
    ∀ next ∈ tokens.head?, next.isPlain = true := by
  have told : ∀ text ∈ "," :: arithmeticOps, (op text).isPlain = true := by decide
  intro next first
  obtain rfl | ⟨text, listed, rfl⟩ := ends next first
  · rfl
  · exact told text listed

/-- **Plain constants are legible.** -/
theorem IsPlainPart.legible {kind : ConstPart} {tokens : List Token}
    (plain : IsPlainPart kind tokens) : Legible tokens := by
  have inside {parts : List (List Token)} (trailing : Bool)
      (each : ∀ part ∈ parts, Legible part) : Legible (separated "," trailing parts) :=
    .separated (by decide) trailing each
  induction plain with
  | literal isLiteral => exact .single (.inr isLiteral)
  | truth listed =>
      have told : ∀ text ∈ ["true", "false"], isName text = true := by decide
      exact .single (.inl (told _ listed))
  | path names => exact names.isFront.back.legible
  | @call p parts trailing names parts_ ih =>
      refine names.isFront.back.legible.append (.single (inside trailing ih)) ?_
      rintro next ⟨rfl⟩
      rfl
  | @paren parts trailing parts_ ih => exact .single (inside trailing ih)
  | @signed signs core signs_ core_ ih =>
      clear inside
      induction signs with
      | nil => exact ih
      | cons sign signs ihSigns =>
          have told : ∀ sign ∈ ["-", "!"], isOperator sign = true ∧ (op sign).isCalm = true := by decide
          obtain ⟨operator, calm⟩ := told sign (signs_ sign List.mem_cons_self)
          exact .cons_op _ operator calm (ihSigns fun sign listed =>
            signs_ sign (List.mem_cons_of_mem _ listed))
  | last => exact .nil
  | @operator converted text operand tail listed notShift operand_ tail_ ihOperand ihTail =>
      have told : ∀ text ∈ arithmeticOps, isOperator text = true := by decide
      have apart : ∀ text ∈ arithmeticOps, ∀ next ∈ ["::", "-", "!"],
          (op text).isApart (op next) = true := by decide
      refine ⟨told text listed, fun next first => ?_, ihOperand.append_calm ihTail
        (operand_.calm (.inr rfl)) tail_.ends.isPlain⟩
      obtain ⟨head, rest, rfl, kind⟩ := operand_.starts
      cases first
      cases next with
      | op sign => exact apart text listed sign (List.contains_iff_mem.mp kind)
      | openOp sign => cases kind
      | _ => rfl
  | @conversion converted name tail named free tail_ ih =>
      exact .cons (.inl (by decide)) rfl (by rintro next ⟨rfl⟩; rfl)
        (.cons (.inl named) rfl tail_.ends.isPlain ih)
  | row operand_ tail_ ihOperand ihTail =>
      exact ihOperand.append_calm ihTail (operand_.calm (.inr rfl)) tail_.ends.isPlain

end Token

end VariantMerge
