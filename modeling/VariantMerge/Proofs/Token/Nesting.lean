import VariantMerge.Member

/-!
# Tokens at every depth

`Token.EndsIn` says that some tokens are the end of others, or of what a group among them holds, at
whatever depth; so `Token.Holds` says that a token occurs anywhere. A search that looks at every token
with what follows it finds exactly what occurs (`Token.search_iff`). Of the two searches in
signatures, one finds the name of the implementing type (`Token.anyMentionsSelf_iff`), and the other
all lifetimes and references but `'static` ones (`Token.anyBorrows_eq_false_iff`).
-/

namespace VariantMerge

namespace Token

/-- The piece is what the tokens end in, or what the inside of a group among them ends in. -/
inductive EndsIn (piece : List Token) : List Token → Prop
  | here (before : List Token) : EndsIn piece (before ++ piece)
  | inside {delimiter : Delimiter} {inner tokens : List Token}
      (listed : .group delimiter inner ∈ tokens) (ends : EndsIn piece inner) : EndsIn piece tokens

/-- The token occurs among the tokens or inside of a group, at whatever depth. -/
def Holds (tokens : List Token) (token : Token) : Prop :=
  ∃ rest, EndsIn (token :: rest) tokens

variable {token first : Token} {rest others tokens : List Token}

theorem not_endsIn_nil : ¬ EndsIn (token :: rest) [] := by
  intro ends
  generalize empty : ([] : List Token) = tokens at ends
  cases ends with
  | here before => exact List.cons_ne_nil _ _ (List.append_eq_nil_iff.mp empty.symm).2
  | inside listed _ => exact List.not_mem_nil (empty ▸ listed)

theorem endsIn_cons_iff :
    EndsIn (token :: rest) (first :: others) ↔
      (token = first ∧ rest = others) ∨
        (∃ delimiter inner, first = .group delimiter inner ∧ EndsIn (token :: rest) inner) ∨
        EndsIn (token :: rest) others := by
  constructor
  · intro ends
    generalize all : first :: others = tokens at ends
    cases ends with
    | here before =>
        cases before with
        | nil =>
            obtain ⟨rfl, rfl⟩ := List.cons.inj all
            exact .inl ⟨rfl, rfl⟩
        | cons _ before =>
            obtain ⟨-, rfl⟩ := List.cons.inj all
            exact .inr (.inr (.here before))
    | inside listed ends =>
        subst all
        obtain here | there := List.mem_cons.mp listed
        · exact .inr (.inl ⟨_, _, here.symm, ends⟩)
        · exact .inr (.inr (.inside there ends))
  · rintro (⟨rfl, rfl⟩ | ⟨delimiter, inner, rfl, ends⟩ | ends)
    · exact .here []
    · exact .inside List.mem_cons_self ends
    · cases ends with
      | here before => exact .here (first :: before)
      | inside listed ends => exact .inside (List.mem_cons_of_mem _ listed) ends

/-- **A search.** What looks at a token with all that follows it, at the inside of a group, and then
at the rest finds exactly what occurs. -/
theorem search_iff (any : List Token → Bool) (found : Token → List Token → Prop)
    (none_ : any [] = false)
    (each : ∀ first others, any (first :: others) = true ↔
      found first others ∨ (∃ delimiter inner, first = .group delimiter inner ∧ any inner = true) ∨
        any others = true)
    (tokens : List Token) : any tokens = true ↔
      ∃ token rest, EndsIn (token :: rest) tokens ∧ found token rest := by
  -- Both the rest and the inside of a group are smaller than the whole.
  induction bound : sizeOf tokens using Nat.strongRecOn generalizing tokens with
  | ind size ih =>
      subst bound
      cases tokens with
      | nil => simp [none_, not_endsIn_nil]
      | cons first others =>
          have later := ih (sizeOf others) (by simp only [List.cons.sizeOf_spec]; omega) others rfl
          have within : ∀ delimiter inner, first = .group delimiter inner → (any inner = true ↔
              ∃ token rest, EndsIn (token :: rest) inner ∧ found token rest) := by
            rintro delimiter inner rfl
            refine ih (sizeOf inner) ?_ inner rfl
            simp only [List.cons.sizeOf_spec, group.sizeOf_spec]
            omega
          simp only [each, endsIn_cons_iff, later]
          grind

/-! ## The name of the implementing type -/

/-- The implementing type is named somewhere, as a word or as a lifetime. -/
def NamesSelf (tokens : List Token) : Prop :=
  Holds tokens (.word "Self") ∨ Holds tokens (.lifetime "Self")

theorem anyMentionsSelf_iff : anyMentionsSelf tokens = true ↔ NamesSelf tokens := by
  have searched := search_iff anyMentionsSelf
    (fun token _ => token = .word "Self" ∨ token = .lifetime "Self") rfl
    (fun first others => by cases first <;> simp [anyMentionsSelf, mentionsSelf, and_assoc]) tokens
  rw [searched, NamesSelf, Holds, Holds]
  constructor
  · rintro ⟨_, rest, ends, rfl | rfl⟩
    · exact .inl ⟨rest, ends⟩
    · exact .inr ⟨rest, ends⟩
  · rintro (⟨rest, ends⟩ | ⟨rest, ends⟩)
    · exact ⟨_, rest, ends, .inl rfl⟩
    · exact ⟨_, rest, ends, .inr rfl⟩

/-! ## References and lifetimes -/

/-- The sign of a reference in an operator is its last character, and `'static` follows. -/
def IsStaticSign (text : String) (rest : List Token) : Prop :=
  '&' ∈ text.toList → ∃ before following, text.toList = before ++ ['&'] ∧ '&' ∉ before ∧
    rest = .lifetime "static" :: following

theorem startsStatic_iff :
    startsStatic tokens = true ↔ ∃ following, tokens = .lifetime "static" :: following := by
  cases tokens with
  | nil => simp [startsStatic]
  | cons first others => cases first <;> simp [startsStatic]

theorem opBorrows_eq_false_iff {text : String} :
    opBorrows text rest = false ↔ IsStaticSign text rest := by
  unfold opBorrows IsStaticSign
  obtain empty | ⟨before, last, spelled⟩ := text.toList.eq_nil_or_concat
  · simp [empty]
  · have reversed : text.toList.reverse = last :: before.reverse := by simp [spelled]
    rw [reversed, spelled, List.concat_eq_append]
    simp only [Bool.or_eq_false_iff, Bool.and_eq_false_iff, Bool.not_eq_eq_eq_not, Bool.not_false,
      startsStatic_iff, List.contains_eq_mem, List.mem_reverse, decide_eq_false_iff_not,
      beq_eq_false_iff_ne, List.mem_append, List.mem_singleton]
    constructor
    · rintro ⟨free, last_ne | ⟨following, rfl⟩⟩ (among | rfl)
      · exact absurd among free
      · exact absurd rfl last_ne
      · exact absurd among free
      · exact ⟨before, following, rfl, free, rfl⟩
    · intro static
      grind [List.append_inj']

/-- Nothing borrows exactly if all lifetimes are `'static`, and it follows every sign of a
reference. -/
theorem anyBorrows_eq_false_iff :
    anyBorrows tokens = false ↔
      (∀ name, Holds tokens (.lifetime name) → name = "static") ∧
        ∀ text rest, EndsIn (.op text :: rest) tokens ∨ EndsIn (.openOp text :: rest) tokens →
          IsStaticSign text rest := by
  have searched := search_iff anyBorrows
    (fun token rest =>
      (∃ name, token = .lifetime name ∧ name ≠ "static") ∨
        ∃ text, (token = .op text ∨ token = .openOp text) ∧ ¬ IsStaticSign text rest) rfl
    (fun first others => by
      cases first <;> simp [anyBorrows, borrows, ← opBorrows_eq_false_iff, and_assoc]) tokens
  rw [← Bool.not_eq_true, searched]
  constructor
  · intro free
    refine ⟨fun name ⟨rest, ends⟩ => ?_, fun text rest ends => ?_⟩
    · exact Classical.byContradiction fun other => free ⟨_, rest, ends, .inl ⟨name, rfl, other⟩⟩
    · refine Classical.byContradiction fun other => ?_
      obtain ends | ends := ends
      · exact free ⟨_, rest, ends, .inr ⟨text, .inl rfl, other⟩⟩
      · exact free ⟨_, rest, ends, .inr ⟨text, .inr rfl, other⟩⟩
  · rintro ⟨lifetimes, signs⟩ ⟨_, rest, ends, ⟨name, rfl, other⟩ | ⟨text, rfl | rfl, other⟩⟩
    · exact other (lifetimes name ⟨rest, ends⟩)
    · exact other (signs text rest (.inl ends))
    · exact other (signs text rest (.inr ends))

end Token

end VariantMerge
