import VariantMerge.Member

/-!
# Tokens that do not borrow

Whether a sign of a reference borrows depends on what follows it, so a piece of tokens that do not
borrow may borrow on its own: its last sign may belong to a `'static` after it. It does not if
something else comes after the piece (`Token.anyBorrows_append`), as after each part of a list.
-/

namespace VariantMerge

namespace Token

variable {token : Token} {before tokens rest : List Token}

/-! ## What comes first -/

/-- No tokens are no static lifetime. -/
@[simp] theorem startsStatic_nil : startsStatic [] = false := rfl

/-- A lifetime is the static one by its name. -/
@[simp] theorem startsStatic_lifetime {name : String} :
    startsStatic (.lifetime name :: rest) = (name == "static") := rfl

/-- A word is no lifetime. -/
@[simp] theorem startsStatic_word {text : String} : startsStatic (.word text :: rest) = false := rfl

/-- An operator is no lifetime. -/
@[simp] theorem startsStatic_op {text : String} : startsStatic (.op text :: rest) = false := rfl

/-- Nor is one that is joined to what follows. -/
@[simp] theorem startsStatic_openOp {text : String} :
    startsStatic (.openOp text :: rest) = false := rfl

/-- A group is no lifetime. -/
@[simp] theorem startsStatic_group {delimiter : Delimiter} {inner : List Token} :
    startsStatic (.group delimiter inner :: rest) = false := rfl

/-- Tokens in front decide, unless there are none. -/
theorem startsStatic_append (other : startsStatic rest = false) :
    startsStatic (tokens ++ rest) = startsStatic tokens := by
  cases tokens with
  | nil => exact other
  | cons first others => cases first <;> rfl

/-! ## What borrows -/

/-- No tokens borrow nothing. -/
@[simp] theorem anyBorrows_nil : anyBorrows [] = false := rfl

/-- A word borrows nothing. -/
@[simp] theorem anyBorrows_word {text : String} :
    anyBorrows (.word text :: rest) = anyBorrows rest := rfl

/-- Any lifetime but the static one borrows. -/
@[simp] theorem anyBorrows_lifetime {name : String} :
    anyBorrows (.lifetime name :: rest) = (name != "static" || anyBorrows rest) := rfl

/-- A group borrows if what is inside does. -/
@[simp] theorem anyBorrows_group {delimiter : Delimiter} {inner : List Token} :
    anyBorrows (.group delimiter inner :: rest) = (anyBorrows inner || anyBorrows rest) := rfl

/-- Whether a token borrows depends on what follows it. -/
theorem anyBorrows_cons : anyBorrows (token :: rest) = (token.borrows rest || anyBorrows rest) :=
  rfl

/-- A sign of a reference borrows unless `'static` follows it. -/
theorem borrows_sign : (op "&").borrows rest = !startsStatic rest := rfl

/-- Only what follows a token directly counts. -/
theorem borrows_append (other : startsStatic rest = false) :
    token.borrows (tokens ++ rest) = token.borrows tokens := by
  cases token <;> simp only [borrows, opBorrows, startsStatic_append other]

/-- A piece can be looked at on its own if no `'static` follows it. -/
theorem anyBorrows_append (other : startsStatic rest = false) :
    anyBorrows (tokens ++ rest) = (anyBorrows tokens || anyBorrows rest) := by
  induction tokens with
  | nil => rfl
  | cons first others ih =>
      rw [List.cons_append, anyBorrows_cons, anyBorrows_cons, borrows_append other, ih,
        Bool.or_assoc]

/-- The front of tokens that do not borrow does not, unless a static lifetime follows it. -/
theorem anyBorrows_of_append_left (free : anyBorrows (tokens ++ rest) = false)
    (other : startsStatic rest = false) : anyBorrows tokens = false := by
  rw [anyBorrows_append other] at free
  exact (Bool.or_eq_false_iff.mp free).1

/-- The end of tokens that do not borrow does not. -/
theorem anyBorrows_of_append_right (free : anyBorrows (before ++ rest) = false) :
    anyBorrows rest = false := by
  induction before with
  | nil => exact free
  | cons first others ih => exact ih (Bool.or_eq_false_iff.mp free).2

/-- Without their first one, tokens that do not borrow still do not. -/
theorem anyBorrows_of_cons (free : anyBorrows (token :: rest) = false) : anyBorrows rest = false :=
  (Bool.or_eq_false_iff.mp free).2

/-! ## Lists of parts -/

/-- Separated parts begin as the first of them does, if it is not empty. -/
theorem startsStatic_separated {separator : String} {trailing : Bool} {part : List Token}
    {parts : List (List Token)} :
    startsStatic (separated separator trailing (part :: parts)) = startsStatic part := by
  cases parts with
  | nil =>
      cases trailing with
      | false => rfl
      | true => exact startsStatic_append rfl
  | cons next parts => exact startsStatic_append rfl

/-- Each part of a list can be looked at on its own if something else comes after the last one. -/
theorem anyBorrows_of_separated {separator : String} {trailing : Bool} {parts : List (List Token)}
    (free : anyBorrows (separated separator trailing parts ++ rest) = false)
    (ends : trailing = true ∨ startsStatic rest = false) :
    ∀ part ∈ parts, anyBorrows part = false := by
  induction parts with
  | nil => exact fun _ absent => absurd absent List.not_mem_nil
  | cons part parts ih =>
      cases parts with
      | nil =>
          rw [List.forall_mem_singleton]
          cases trailing with
          | true =>
              rw [separated, if_pos rfl, List.append_assoc] at free
              exact anyBorrows_of_append_left free rfl
          | false => exact anyBorrows_of_append_left free (ends.resolve_left Bool.false_ne_true)
      | cons next parts =>
          rw [separated, List.append_assoc, List.cons_append] at free
          have others := anyBorrows_of_cons (anyBorrows_of_append_right free)
          exact List.forall_mem_cons.mpr ⟨anyBorrows_of_append_left free rfl, ih others⟩

/-- Lifetimes that are moved to the front change nothing. -/
theorem anyBorrows_of_lifetimesFirst {trailing : Bool} {parts : List (Bool × List Token)}
    (free : anyBorrows (lifetimesFirst trailing parts ++ rest) = false)
    (ends : startsStatic rest = false) : ∀ part ∈ parts, anyBorrows part.2 = false := by
  have split : ∀ part ∈ parts, part.2 ∈ (parts.filter (·.1)).map (·.2) ∨
      part.2 ∈ (parts.filter (!·.1)).map (·.2) := by
    intro part listed
    cases lifetime : part.1 with
    | true => exact .inl (List.mem_map_of_mem (List.mem_filter.mpr ⟨listed, lifetime⟩))
    | false => exact .inr (List.mem_map_of_mem (List.mem_filter.mpr ⟨listed, by simp [lifetime]⟩))
  have each (last : Bool)
      (free : anyBorrows (separated "," true ((parts.filter (·.1)).map (·.2)) ++
        (separated "," last ((parts.filter (!·.1)).map (·.2)) ++ rest)) = false) :
      ∀ part ∈ parts, anyBorrows part.2 = false := by
    intro part listed
    obtain early | late := split part listed
    · exact anyBorrows_of_separated free (.inl rfl) _ early
    · exact anyBorrows_of_separated (anyBorrows_of_append_right free) (.inr ends) _ late
  unfold lifetimesFirst at free
  dsimp only at free
  split at free
  next none_ =>
    intro part listed
    obtain early | late := split part listed
    · exact anyBorrows_of_separated free (.inr ends) _ early
    · rw [none_] at late
      exact absurd late List.not_mem_nil
  next => exact each true (by rwa [List.append_assoc] at free)
  next => exact each trailing (by rwa [List.append_assoc] at free)

end Token

end VariantMerge
