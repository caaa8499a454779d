import Mathlib.Data.List.Chain
import VariantMerge.Token.Lexer
import VariantMerge.Variant

/-!
# Types as sequences of lexemes

A type's text is a sequence of lexemes with blanks between some of them: words, lifetimes, operators
and delimiters. Its key is the same sequence without the blanks (`Ty.key_toList`). So a key is read
back by longest match, and what that cannot tell apart is where one word ends and the next one
begins. For types with legible lexemes this is all that a key forgets (`Ty.key_eq_iff`): two of them
have one key exactly when their lexemes are the same after words have been glued to the word or
lifetime before them.
-/

namespace VariantMerge

/-- A token as it stands in a text, where a group is its two delimiters and what they enclose. -/
inductive Lexeme where
  | word (text : String)
  | lifetime (name : String)
  | op (text : String)
  | opened (delimiter : Delimiter)
  | closed (delimiter : Delimiter)
  deriving DecidableEq, Repr

namespace Token

mutual

/-- The lexemes that a token is written with. -/
def lexemes : Token → List Lexeme
  | word text => [.word text]
  | lifetime name => [.lifetime name]
  | op text | openOp text => [.op text]
  | group delimiter inner => .opened delimiter :: (lexemesAll inner ++ [.closed delimiter])

/-- The lexemes of tokens one after the other. -/
def lexemesAll : List Token → List Lexeme
  | [] => []
  | token :: rest => token.lexemes ++ lexemesAll rest

end

end Token

/-- The lexemes of a type. -/
def Ty.lexemes (ty : Ty) : List Lexeme :=
  Token.lexemesAll (Token.fuseAll ty.tokens)

namespace Lexeme

/-- The characters of a lexeme. -/
def chars : Lexeme → List Char
  | word text => text.toList
  | lifetime name => '\'' :: name.toList
  | op text => text.toList
  | opened delimiter => [delimiter.opening]
  | closed delimiter => [delimiter.closing]

/-- The characters of lexemes that are written without blanks. -/
def spell (lexemes : List Lexeme) : List Char :=
  lexemes.flatMap chars

/-! ## Texts and keys -/

/-- What the next lexeme finds before it. -/
def after : Lexeme → Before
  | word _ => .word
  | lifetime _ => .lifetime
  | op text => (Token.op text).after
  | opened _ => .opened
  | closed _ => .closed

/-- One lexeme with the blanks that it needs after `before`. -/
def write (before : Before) : Lexeme → String
  | word text => (if before.partsWords then " " else "") ++ text
  | lifetime name => (if before.partsWords then " " else "") ++ "'" ++ name
  | op text => Token.writeOp before text
  | opened delimiter =>
    (if delimiter == .brace && before.partsBraces then " " else "") ++ delimiter.opening.toString
  | closed delimiter => delimiter.closing.toString

/-- Lexemes one after the other. -/
def writeEach (before : Before) : List Lexeme → String
  | [] => ""
  | lexeme :: rest => lexeme.write before ++ writeEach lexeme.after rest

/-- What is found before that which comes after tokens. -/
def afterAll (before : Before) : List Token → Before
  | [] => before
  | token :: rest => afterAll token.after rest

mutual

/-- A token is written as its lexemes are. -/
theorem writeEach_lexemes (before : Before) (rest : List Lexeme) : ∀ token : Token,
    writeEach before (token.lexemes ++ rest) = token.write before ++ writeEach token.after rest
  | .word _ => rfl
  | .lifetime _ => rfl
  | .op _ => rfl
  | .openOp _ => rfl
  | .group delimiter inner => by
      have inside := writeEach_lexemesAll .opened (.closed delimiter :: rest) inner
      rw [Token.lexemes, List.cons_append, List.append_assoc, List.singleton_append, writeEach,
        after, inside, writeEach]
      simp only [write, Token.write, ← String.append_assoc]
      rfl

/-- Tokens are written as their lexemes are. -/
theorem writeEach_lexemesAll (before : Before) (rest : List Lexeme) : ∀ tokens : List Token,
    writeEach before (Token.lexemesAll tokens ++ rest) =
      Token.writeAll before tokens ++ writeEach (afterAll before tokens) rest
  | [] => by rw [Token.lexemesAll, Token.writeAll, List.nil_append, String.empty_append, afterAll]
  | token :: tokens => by
      rw [Token.lexemesAll, List.append_assoc, writeEach_lexemes before _ token,
        writeEach_lexemesAll token.after rest tokens, Token.writeAll, afterAll,
        String.append_assoc]

end

end Lexeme

/-- A type's text is its lexemes with blanks. -/
theorem Ty.text_eq (ty : Ty) : ty.text = Lexeme.writeEach .start ty.lexemes := by
  have written := Lexeme.writeEach_lexemesAll .start [] (Token.fuseAll ty.tokens)
  rw [List.append_nil, Lexeme.writeEach, String.append_empty] at written
  exact written.symm

namespace Text

/-- The characters that are not blank. -/
def inked (cs : List Char) : List Char :=
  cs.filter fun c => !isBlank c

/-- What is not blank is so in each part. -/
theorem inked_append (first second : List Char) : inked (first ++ second) =
    inked first ++ inked second :=
  List.filter_append ..

end Text

namespace Lexeme

/-- A blank that is written or not is not seen. -/
theorem inked_blank (when : Bool) : Text.inked (if when then " " else "").toList = [] := by
  cases when <;> rfl

/-- Only blanks are written around an operator. -/
theorem inked_writeOp (before : Before) (text : String) :
    Text.inked (Token.writeOp before text).toList = Text.inked text.toList := by
  have blank : Text.inked " ".toList = [] := rfl
  have written : Token.writeOp before text =
      if Token.trailingOps.contains text then text ++ " "
      else if Token.spacedOps.contains text then
        (if !before.isClear then " " else "") ++ text ++ " "
      else (if text == "#" && before.partsBraces then " " else "") ++ text := rfl
  rw [written]
  split
  · rw [String.toList_append, Text.inked_append, blank, List.append_nil]
  · split
    · rw [String.toList_append, String.toList_append, Text.inked_append, Text.inked_append,
        inked_blank, blank, List.nil_append, List.append_nil]
    · rw [String.toList_append, Text.inked_append, inked_blank, List.nil_append]

/-- Nothing but blanks is written around a lexeme. -/
theorem inked_write (before : Before) (lexeme : Lexeme) :
    Text.inked (lexeme.write before).toList = Text.inked lexeme.chars := by
  cases lexeme with
  | word text => rw [write, String.toList_append, Text.inked_append, inked_blank, List.nil_append,
      chars]
  | lifetime name =>
      rw [write, String.toList_append, String.toList_append, Text.inked_append, Text.inked_append,
        inked_blank, List.nil_append]
      rfl
  | op text => exact inked_writeOp before text
  | opened delimiter =>
      rw [write, String.toList_append, Text.inked_append, inked_blank, List.nil_append]
      cases delimiter <;> rfl
  | closed delimiter =>
      rw [write]
      cases delimiter <;> rfl

/-- Only blanks are written between lexemes. -/
theorem inked_writeEach (before : Before) (lexemes : List Lexeme) :
    Text.inked (writeEach before lexemes).toList = Text.inked (spell lexemes) := by
  induction lexemes generalizing before with
  | nil => rfl
  | cons lexeme rest ih =>
      rw [writeEach, String.toList_append, Text.inked_append, inked_write, ih,
        ← Text.inked_append]
      rfl

end Lexeme

/-- A type's key is its lexemes without blanks. -/
theorem Ty.key_toList (ty : Ty) : ty.key.toList = Text.inked (Lexeme.spell ty.lexemes) := by
  rw [← Lexeme.inked_writeEach .start, ← ty.text_eq, key, String.toList_ofList]
  rfl

namespace Lexeme

/-! ## Legible lexemes -/

/-- The operators that types and the lengths of arrays are written with. -/
def typeOps : List String :=
  ["<", ">", "::", ":", "&", "*", ";", ",", "!", "->", "+", "=", "?", "...", "-", "/", "%", "|",
    "^"]

/-- The characters of words: not blank, no delimiter, and no punctuation but the mark of a raw
name. -/
def isPlain (c : Char) : Bool :=
  !Text.isBlank c && (c == '#' || !Lexer.punctuation.contains c) &&
    (Delimiter.ofOpening? c).isNone && (Delimiter.ofClosing? c).isNone

/-- A lexeme by whose characters its kind can be told. -/
def IsLegible : Lexeme → Prop
  | word text | lifetime text => text ≠ "" ∧ ∀ c ∈ text.toList, isPlain c
  | op text => text ∈ typeOps
  | opened _ | closed _ => True

instance : DecidablePred IsLegible
  | word text | lifetime text =>
    decidable_of_iff (text ≠ "" ∧ text.toList.all isPlain) (and_congr_right' List.all_eq_true)
  | op text => inferInstanceAs (Decidable (text ∈ typeOps))
  | opened _ | closed _ => inferInstanceAs (Decidable True)

/-- Whether a longer lexeme may start like this one and go on with the character. -/
def goesOn : Lexeme → Char → Bool
  | word _, c | lifetime _, c => isPlain c
  | op text, c => typeOps.any fun longer => (text.toList ++ [c]).isPrefixOf longer.toList
  | opened _, _ | closed _, _ => false

/-- Whether one lexeme directly after another one is still read as a lexeme of its own. -/
def Parts (lexeme next : Lexeme) : Prop :=
  ∀ c ∈ next.chars.head?, lexeme.goesOn c = false

instance : DecidableRel Parts := fun lexeme next =>
  decidable_of_iff (next.chars.head?.all (!lexeme.goesOn ·)) (by
    simp [Parts, Option.all_eq_true])

/-- The kinds of lexemes, as told from a first character. -/
inductive Kind where
  | word
  | lifetime
  | op
  | opened
  | closed
  deriving DecidableEq, Repr

def kind : Lexeme → Kind
  | word _ => .word
  | lifetime _ => .lifetime
  | op _ => .op
  | opened _ => .opened
  | closed _ => .closed

/-- The kind of the lexemes that start with a character. -/
def kindOf (c : Char) : Kind :=
  if isPlain c then .word
  else if c == '\'' then .lifetime
  else if (Delimiter.ofOpening? c).isSome then .opened
  else if (Delimiter.ofClosing? c).isSome then .closed
  else .op

namespace IsLegible

variable {lexeme : Lexeme}

/-- A legible lexeme has characters. -/
theorem chars_ne_nil (legible : lexeme.IsLegible) : lexeme.chars ≠ [] := by
  cases lexeme with
  | word text => exact fun empty => legible.1 (String.toList_eq_nil_iff.mp empty)
  | op text =>
      have nonempty : ∀ text ∈ typeOps, text.toList ≠ [] := by decide
      exact nonempty text legible
  | _ => exact List.cons_ne_nil _ _

/-- No lexeme has blanks inside. -/
theorem inked_chars (legible : lexeme.IsLegible) : Text.inked lexeme.chars = lexeme.chars := by
  have plain {text : String} (all : ∀ c ∈ text.toList, isPlain c) :
      Text.inked text.toList = text.toList := by
    refine List.filter_eq_self.mpr fun c member => ?_
    have kept := all c member
    simp only [isPlain, Bool.and_eq_true] at kept
    exact kept.1.1.1
  cases lexeme with
  | word text => exact plain legible.2
  | lifetime name =>
      change '\'' :: Text.inked name.toList = '\'' :: name.toList
      rw [plain legible.2]
  | op text =>
      have visible : ∀ text ∈ typeOps, Text.inked text.toList = text.toList := by decide
      exact visible text legible
  | opened delimiter | closed delimiter => cases delimiter <;> rfl

/-- The first character tells the kind. -/
theorem kindOf_head (legible : lexeme.IsLegible) {c : Char} (first : c ∈ lexeme.chars.head?) :
    kindOf c = lexeme.kind := by
  cases lexeme with
  | word text => rw [kindOf, if_pos (legible.2 c (List.mem_of_mem_head? first)), kind]
  | lifetime name =>
      obtain rfl := Option.some.inj first
      rfl
  | op text =>
      have told : ∀ text ∈ typeOps, text.toList.head?.map kindOf = some .op := by decide
      have here := told text legible
      rw [show text.toList.head? = some c from first] at here
      exact Option.some.inj here
  | opened delimiter | closed delimiter =>
      obtain rfl := Option.some.inj first
      cases delimiter <;> rfl

end IsLegible

/-- Lexemes of one kind differ in their characters. -/
theorem eq_of_chars_eq {lexeme other : Lexeme} (kinds : lexeme.kind = other.kind)
    (same : lexeme.chars = other.chars) : lexeme = other := by
  cases lexeme <;> cases other <;> cases kinds
  case word.word => exact congrArg word (String.toList_injective same)
  case lifetime.lifetime =>
    exact congrArg lifetime (String.toList_injective (List.cons.inj same).2)
  case op.op => exact congrArg op (String.toList_injective same)
  case opened.opened first second =>
    have opening : first.opening = second.opening := (List.cons.inj same).1
    revert opening
    cases first <;> cases second <;> decide
  case closed.closed first second =>
    have closing : first.closing = second.closing := (List.cons.inj same).1
    revert closing
    cases first <;> cases second <;> decide

/-- A lexeme goes on with the character that a longer one of its kind has next. -/
theorem goesOn_of_longer {lexeme longer : Lexeme} (kinds : lexeme.kind = longer.kind)
    (legible : longer.IsLegible) {c : Char} {more : List Char}
    (extended : longer.chars = lexeme.chars ++ c :: more) : lexeme.goesOn c = true := by
  cases lexeme <;> cases longer <;> cases kinds
  case word.word text longer =>
    have inside : c ∈ longer.toList := by
      rw [show longer.toList = text.toList ++ c :: more from extended]
      exact List.mem_append_right _ List.mem_cons_self
    exact legible.2 c inside
  case lifetime.lifetime name longer =>
    have inside : c ∈ longer.toList := by
      rw [(List.cons.inj extended).2]
      exact List.mem_append_right _ List.mem_cons_self
    exact legible.2 c inside
  case op.op text longer =>
    refine List.any_eq_true.mpr ⟨longer, legible, List.isPrefixOf_iff_prefix.mpr ⟨more, ?_⟩⟩
    rw [List.append_assoc]
    exact extended.symm
  case opened.opened => cases (List.cons.inj extended).2
  case closed.closed => cases (List.cons.inj extended).2

/-- If the characters of one lexeme start with those of another one, the two are of one kind. -/
theorem IsLegible.kind_eq {lexeme longer : Lexeme} (legible : lexeme.IsLegible)
    (legible' : longer.IsLegible) {more : List Char}
    (extended : longer.chars = lexeme.chars ++ more) : lexeme.kind = longer.kind := by
  obtain ⟨first, rest, start⟩ := List.exists_cons_of_ne_nil legible.chars_ne_nil
  rw [← legible.kindOf_head (c := first) (by rw [start]; rfl),
    legible'.kindOf_head (by rw [extended, start]; rfl)]

/-- **Longest match.** Of two lexemes with which the same characters start, none is longer than the
other one if each is parted from what comes after it. -/
theorem eq_of_spell_eq {lexeme other : Lexeme} {rest others : List Lexeme}
    (legible : ∀ each ∈ lexeme :: rest, each.IsLegible) (legible' : other.IsLegible)
    (parted : ∀ next ∈ rest.head?, lexeme.Parts next)
    (same : spell (lexeme :: rest) = spell (other :: others))
    {more : List Char} (extended : other.chars = lexeme.chars ++ more) : lexeme = other := by
  have own := legible lexeme List.mem_cons_self
  have kinds := own.kind_eq legible' extended
  cases more with
  | nil => exact eq_of_chars_eq kinds (by rw [extended, List.append_nil])
  | cons c more =>
      -- the next lexeme starts with the character that the shorter one goes on with
      exfalso
      simp only [spell, List.flatMap_cons, extended, List.append_assoc,
        List.append_cancel_left_eq, List.cons_append] at same
      cases rest with
      | nil => cases same
      | cons next rest =>
          obtain ⟨first, tail, start⟩ :=
            List.exists_cons_of_ne_nil (legible next (by simp)).chars_ne_nil
          rw [List.flatMap_cons, start, List.cons_append] at same
          obtain rfl := (List.cons.inj same).1
          have apart := parted next rfl first (by rw [start]; rfl)
          rw [goesOn_of_longer kinds legible' extended] at apart
          cases apart

/-- **Legible lexemes are read back.** Lexemes that part from each other are told by their
characters. -/
theorem spell_injective {lexemes others : List Lexeme}
    (legible : ∀ lexeme ∈ lexemes, lexeme.IsLegible)
    (legible' : ∀ lexeme ∈ others, lexeme.IsLegible)
    (parted : lexemes.IsChain Parts) (parted' : others.IsChain Parts)
    (same : spell lexemes = spell others) : lexemes = others := by
  induction lexemes generalizing others with
  | nil =>
      cases others with
      | nil => rfl
      | cons other others =>
          have empty := (List.append_eq_nil_iff.mp same.symm).1
          exact absurd empty (legible' other List.mem_cons_self).chars_ne_nil
  | cons lexeme rest ih =>
      cases others with
      | nil =>
          have empty := (List.append_eq_nil_iff.mp same).1
          exact absurd empty (legible lexeme List.mem_cons_self).chars_ne_nil
      | cons other others =>
          have split : lexeme.chars ++ spell rest = other.chars ++ spell others := same
          have here : lexeme = other := by
            obtain ⟨more, extended, -⟩ | ⟨more, extended, -⟩ := List.append_eq_append_iff.mp split
            · exact eq_of_spell_eq legible (legible' other List.mem_cons_self)
                (List.isChain_cons.mp parted).1 same extended
            · exact (eq_of_spell_eq legible' (legible lexeme List.mem_cons_self)
                (List.isChain_cons.mp parted').1 same.symm extended).symm
          subst here
          have later : spell rest = spell others := List.append_cancel_left same
          rw [ih (fun each member => legible each (List.mem_cons_of_mem _ member))
            (fun each member => legible' each (List.mem_cons_of_mem _ member))
            parted.tail parted'.tail later]

/-! ## Glued words -/

/-- Puts a lexeme in front of others. A word goes on with the word after it, and so does a
lifetime. -/
def glueOnto : Lexeme → List Lexeme → List Lexeme
  | word text, word more :: rest => word (text ++ more) :: rest
  | lifetime name, word more :: rest => lifetime (name ++ more) :: rest
  | lexeme, rest => lexeme :: rest

/-- The lexemes with every word glued to the word or lifetime before it. -/
def glue (lexemes : List Lexeme) : List Lexeme :=
  lexemes.foldr glueOnto []

/-- Lexemes that can be told by their characters once the words are glued. -/
structure Legible (lexemes : List Lexeme) : Prop where
  each : ∀ lexeme ∈ lexemes, lexeme.IsLegible
  opsPart : lexemes.IsChain fun lexeme next => lexeme.kind = .op → lexeme.Parts next

instance (lexemes : List Lexeme) : Decidable (Legible lexemes) :=
  decidable_of_iff ((∀ lexeme ∈ lexemes, lexeme.IsLegible) ∧
      lexemes.IsChain fun lexeme next => lexeme.kind = .op → lexeme.Parts next)
    ⟨fun ⟨each, opsPart⟩ => ⟨each, opsPart⟩, fun ⟨each, opsPart⟩ => ⟨each, opsPart⟩⟩

/-- What a lexeme is glued to starts with its characters. -/
theorem glueOnto_eq_cons (lexeme : Lexeme) (rest : List Lexeme) :
    ∃ head tail, glueOnto lexeme rest = head :: tail ∧
      ∃ more, head.chars = lexeme.chars ++ more := by
  fun_cases glueOnto lexeme rest with
  | case1 text more rest =>
      exact ⟨_, _, rfl, more.toList, String.toList_append ..⟩
  | case2 name more rest =>
      exact ⟨_, _, rfl, more.toList, congrArg (List.cons _) (String.toList_append ..)⟩
  | case3 lexeme rest => exact ⟨_, _, rfl, [], (List.append_nil _).symm⟩

/-- Gluing keeps what is spelled. -/
theorem spell_glueOnto (lexeme : Lexeme) (rest : List Lexeme) :
    spell (glueOnto lexeme rest) = lexeme.chars ++ spell rest := by
  fun_cases glueOnto lexeme rest with
  | case1 text more rest =>
      simp only [spell, List.flatMap_cons, chars, String.toList_append, List.append_assoc]
  | case2 name more rest =>
      simp only [spell, List.flatMap_cons, chars, String.toList_append, List.append_assoc,
        List.cons_append]
  | case3 lexeme rest => rfl

/-- Gluing changes no character. -/
theorem spell_glue (lexemes : List Lexeme) : spell (glue lexemes) = spell lexemes := by
  induction lexemes with
  | nil => rfl
  | cons lexeme rest ih =>
      rw [glue, List.foldr_cons, spell_glueOnto]
      exact congrArg (lexeme.chars ++ ·) ih

/-- Gluing keeps lexemes legible. -/
theorem isLegible_glueOnto {lexeme : Lexeme} {rest : List Lexeme} (legible : lexeme.IsLegible)
    (others : ∀ next ∈ rest, next.IsLegible) :
    ∀ each ∈ glueOnto lexeme rest, each.IsLegible := by
  have glued {first second : String} (here : first ≠ "" ∧ ∀ c ∈ first.toList, isPlain c)
      (later : second ≠ "" ∧ ∀ c ∈ second.toList, isPlain c) :
      first ++ second ≠ "" ∧ ∀ c ∈ (first ++ second).toList, isPlain c := by
    refine ⟨fun empty => here.1 (String.append_eq_empty_iff.mp empty).1, fun c member => ?_⟩
    rw [String.toList_append] at member
    exact (List.mem_append.mp member).elim (here.2 c) (later.2 c)
  revert legible others
  fun_cases glueOnto lexeme rest with
  | case1 text more rest =>
      intro legible others
      obtain ⟨next, later⟩ := List.forall_mem_cons.mp others
      exact List.forall_mem_cons.mpr ⟨glued legible next, later⟩
  | case2 name more rest =>
      intro legible others
      obtain ⟨next, later⟩ := List.forall_mem_cons.mp others
      exact List.forall_mem_cons.mpr ⟨glued legible next, later⟩
  | case3 lexeme rest =>
      intro legible others
      exact List.forall_mem_cons.mpr ⟨legible, others⟩

/-- Only words start with a character of words. -/
theorem IsLegible.isPlain_head {lexeme : Lexeme} (legible : lexeme.IsLegible)
    (noWord : ∀ text, lexeme ≠ word text) : ∀ c ∈ lexeme.chars.head?, isPlain c = false := by
  intro c first
  by_contra plain
  rw [Bool.not_eq_false] at plain
  have kind : kindOf c = .word := if_pos plain
  rw [legible.kindOf_head first] at kind
  cases lexeme with
  | word text => exact noWord text rfl
  | _ => cases kind

/-- Glued lexemes are parted from each other, if the operators are. -/
theorem isChain_glueOnto {lexeme : Lexeme} {rest : List Lexeme}
    (others : ∀ next ∈ rest, next.IsLegible) (parted : rest.IsChain Parts)
    (opParts : lexeme.kind = .op → ∀ next ∈ rest.head?, lexeme.Parts next) :
    (glueOnto lexeme rest).IsChain Parts := by
  revert others parted opParts
  fun_cases glueOnto lexeme rest with
  | case1 text more rest =>
      intro _ parted _
      obtain ⟨next, later⟩ := List.isChain_cons.mp parted
      exact List.isChain_cons.mpr ⟨next, later⟩
  | case2 name more rest =>
      intro _ parted _
      obtain ⟨next, later⟩ := List.isChain_cons.mp parted
      exact List.isChain_cons.mpr ⟨next, later⟩
  | case3 lexeme rest noWord noLifetime =>
      intro others parted opParts
      refine List.isChain_cons.mpr ⟨fun next first => ?_, parted⟩
      have legible := others next (List.mem_of_mem_head? first)
      obtain ⟨tail, rfl⟩ := List.head?_eq_some_iff.mp first
      cases lexeme with
      | word text =>
          exact legible.isPlain_head fun more same => noWord text more tail rfl (same ▸ rfl)
      | lifetime name =>
          exact legible.isPlain_head fun more same => noLifetime name more tail rfl (same ▸ rfl)
      | op text => exact opParts rfl next first
      | opened delimiter | closed delimiter => exact fun c _ => rfl

/-- Without their first one, legible lexemes are legible still. -/
theorem Legible.tail {lexeme : Lexeme} {rest : List Lexeme} (legible : Legible (lexeme :: rest)) :
    Legible rest :=
  ⟨fun each member => legible.each each (List.mem_cons_of_mem _ member), legible.opsPart.tail⟩

/-- Glued lexemes are legible. -/
theorem Legible.isLegible_glue {lexemes : List Lexeme} (legible : Legible lexemes) :
    ∀ lexeme ∈ glue lexemes, lexeme.IsLegible := by
  induction lexemes with
  | nil => exact fun _ member => absurd member List.not_mem_nil
  | cons lexeme rest ih =>
      exact isLegible_glueOnto (legible.each lexeme List.mem_cons_self) (ih legible.tail)

/-- Glued lexemes are parted from each other. -/
theorem Legible.isChain_glue {lexemes : List Lexeme} (legible : Legible lexemes) :
    (glue lexemes).IsChain Parts := by
  induction lexemes with
  | nil => exact List.isChain_nil
  | cons lexeme rest ih =>
      refine isChain_glueOnto legible.tail.isLegible_glue (ih legible.tail) ?_
      intro isOp head first
      cases rest with
      | nil => cases first
      | cons next rest =>
          -- what the next lexeme is glued to starts with the same character
          obtain ⟨glued, others, same, more, extended⟩ := glueOnto_eq_cons next (glue rest)
          change head ∈ (glueOnto next (glue rest)).head? at first
          rw [same] at first
          obtain rfl := Option.some.inj first
          obtain ⟨start, tail, chars⟩ := List.exists_cons_of_ne_nil
            (legible.tail.each next List.mem_cons_self).chars_ne_nil
          have parts := (List.isChain_cons.mp legible.opsPart).1 next rfl isOp
          intro c begins
          rw [extended, chars, List.cons_append] at begins
          exact parts c (chars ▸ begins)

/-- Legible lexemes have no blanks in them. -/
theorem Legible.inked_spell {lexemes : List Lexeme} (legible : Legible lexemes) :
    Text.inked (spell lexemes) = spell lexemes := by
  induction lexemes with
  | nil => rfl
  | cons lexeme rest ih =>
      have here := (legible.each lexeme List.mem_cons_self).inked_chars
      rw [spell, List.flatMap_cons, Text.inked_append, here]
      exact congrArg (lexeme.chars ++ ·) (ih legible.tail)

end Lexeme

namespace Ty

open Lexeme (Legible glue)

variable {first second : Ty}

/-- **What a key forgets.** Two types with legible lexemes have one key exactly when their lexemes
are the same after words have been glued to what is before them. -/
theorem key_eq_iff (legible : Legible first.lexemes) (legible' : Legible second.lexemes) :
    first.key = second.key ↔ glue first.lexemes = glue second.lexemes := by
  rw [← String.toList_inj, key_toList, key_toList, legible.inked_spell, legible'.inked_spell,
    ← Lexeme.spell_glue first.lexemes, ← Lexeme.spell_glue second.lexemes]
  exact ⟨Lexeme.spell_injective legible.isLegible_glue legible'.isLegible_glue
    legible.isChain_glue legible'.isChain_glue, congrArg Lexeme.spell⟩

/-- Types in which no word can be glued to what is before it are told by their keys. -/
theorem lexemes_eq_of_key_eq (legible : Legible first.lexemes) (legible' : Legible second.lexemes)
    (unglued : glue first.lexemes = first.lexemes)
    (unglued' : glue second.lexemes = second.lexemes) (same : first.key = second.key) :
    first.lexemes = second.lexemes := by
  rw [← unglued, ← unglued']
  exact (key_eq_iff legible legible').mp same

end Ty

end VariantMerge
