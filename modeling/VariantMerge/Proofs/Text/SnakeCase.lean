import VariantMerge.Proofs.Text.Case

/-!
# Snake case

A name in snake case is the name in lower case with an underscore in front of each letter that starts a
word (`Text.snakeFrom_eq`). Nothing else is added, and nothing is lost, so that what is in snake case
already stays as it is (`Text.snakeFrom_of_lower`).
-/

namespace VariantMerge

namespace Text

/-! ## Where words start -/

/-- Whether a word starts at a position: at an upper-case letter behind a lower-case letter or a digit,
and at one behind an upper-case letter and before a lower-case letter. -/
def isBoundary (cs : List Char) (position : Nat) : Bool :=
  cs[position]?.any Char.isUpper && position != 0 &&
    cs[position - 1]?.any fun before => before.isLower || before.isDigit ||
      (before.isUpper && cs[position + 1]?.any Char.isLower)

/-- What stands for a character: the character in lower case, behind an underscore where a word
starts. -/
def snakeAt (cs : List Char) (c : Char) (position : Nat) : List Char :=
  if isBoundary cs position then ['_', c.toLower] else [c.toLower]

theorem isBoundary_append (front : List Char) (c : Char) (rest : List Char) :
    isBoundary (front ++ c :: rest) front.length =
      (c.isUpper && startsWord front.getLast? rest.head?) := by
  have here : (front ++ c :: rest)[front.length]? = some c := by simp
  have next : (front ++ c :: rest)[front.length + 1]? = rest.head? := by
    rw [List.getElem?_append_right (by omega), Nat.add_sub_cancel_left, List.getElem?_cons_succ,
      List.head?_eq_getElem?]
  obtain rfl | ⟨earlier, before, rfl⟩ := List.eq_nil_or_concat' front
  · simp [isBoundary, startsWord]
  · have behind : (earlier ++ [before] ++ c :: rest)[(earlier ++ [before]).length - 1]? =
        some before := by simp
    rw [isBoundary, here, next, behind, List.getLast?_concat, startsWord, Option.any_some,
      Option.any_some]
    simp

/-- **Underscores and lower case.** Snake case puts an underscore in front of each character at which a
word starts, and every character in lower case. -/
theorem snakeFrom_eq (front rest : List Char) :
    snakeFrom front.getLast? rest =
      (rest.zipIdx front.length).flatMap fun (c, position) => snakeAt (front ++ rest) c position := by
  induction rest generalizing front with
  | nil => rfl
  | cons c rest ih =>
      -- What has been read grows by the character, so its length stays the position of the next one.
      have later := ih (front ++ [c])
      rw [List.getLast?_concat, List.length_append, List.length_singleton, List.append_assoc] at later
      rw [List.zipIdx_cons, List.flatMap_cons, snakeFrom, later]
      change _ = snakeAt (front ++ c :: rest) c front.length ++ _
      rw [snakeAt, isBoundary_append]
      cases upper : c.isUpper with
      | false =>
          rw [Char.toLower_eq_of_not_isUpper (by simp [upper])]
          rfl
      | true => cases startsWord front.getLast? rest.head? <;> rfl

/-- No word starts at the first character, and none at an underscore or behind one. -/
theorem isBoundary_apart {cs : List Char} {position : Nat} (starts : isBoundary cs position = true) :
    position ≠ 0 ∧ cs[position - 1]? ≠ some '_' ∧ cs[position]? ≠ some '_' := by
  rw [isBoundary, Bool.and_eq_true, Bool.and_eq_true] at starts
  obtain ⟨⟨upper, later⟩, behind⟩ := starts
  refine ⟨by simpa using later, fun sign => ?_, fun sign => ?_⟩
  · rw [sign] at behind
    simp [Char.isLower, Char.isDigit, Char.isUpper] at behind
  · rw [sign] at upper
    simp [Char.isUpper] at upper

/-! ## No doubled underscores -/

/-- Snake case with a look at the end of what has been written, so that no underscore is put behind
another one. -/
def snakeBehind (written : List Char) (before : Option Char) : List Char → List Char
  | [] => written
  | c :: rest =>
    if c.isUpper then
      if startsWord before rest.head? && written.getLast? != some '_' then
        snakeBehind (written ++ ['_', c.toLower]) (some c) rest
      else snakeBehind (written ++ [c.toLower]) (some c) rest
    else snakeBehind (written ++ [c]) (some c) rest

/-- A word never starts behind an underscore, so that the look is not needed. -/
theorem snakeBehind_eq {written : List Char} {before : Option Char}
    (last : written.getLast? = before.map Char.toLower) (cs : List Char) :
    snakeBehind written before cs = written ++ snakeFrom before cs := by
  induction cs generalizing written before with
  | nil => exact (List.append_nil written).symm
  | cons c rest ih =>
      have looked : (startsWord before rest.head? && written.getLast? != some '_') =
          startsWord before rest.head? := by
        cases before with
        | none => rfl
        | some b =>
            -- Only an underscore is written as one, and no word starts behind it.
            by_cases sign : b = '_'
            · subst sign
              rfl
            · rw [last, Option.map_some, Bool.and_eq_left_iff_imp]
              simpa using fun _ => toLower_eq_underscore_iff.not.mpr sign
      rw [snakeBehind, snakeFrom, looked]
      split
      next =>
        split
        · rw [ih (by simp), List.append_assoc]
          rfl
        · rw [ih (by simp), List.append_assoc]
          rfl
      next lower =>
        rw [ih (by simp [Char.toLower_eq_of_not_isUpper lower]), List.append_assoc]
        rfl

/-! ## Names in snake case -/

/-- Snake case has no upper-case letters. -/
theorem isUpper_snakeFrom (before : Option Char) (cs : List Char) :
    ∀ c ∈ snakeFrom before cs, c.isUpper = false := by
  induction cs generalizing before with
  | nil => exact fun _ listed => absurd listed List.not_mem_nil
  | cons c rest ih =>
      have later := ih (some c)
      rw [snakeFrom]
      split
      next =>
        have lower : ∀ d ∈ c.toLower :: snakeFrom (some c) rest, d.isUpper = false :=
          List.forall_mem_cons.mpr ⟨Char.isUpper_toLower_eq_false c, later⟩
        split
        · exact List.forall_mem_cons.mpr ⟨rfl, lower⟩
        · exact lower
      next lower => exact List.forall_mem_cons.mpr ⟨by simpa using lower, later⟩

/-- What has no upper-case letters is in snake case. -/
theorem snakeFrom_of_lower {cs : List Char} (lower : ∀ c ∈ cs, c.isUpper = false)
    (before : Option Char) : snakeFrom before cs = cs := by
  induction cs generalizing before with
  | nil => rfl
  | cons c rest ih =>
      obtain ⟨here, later⟩ := List.forall_mem_cons.mp lower
      rw [snakeFrom, if_neg (by simp [here]), ih later]

theorem snakeCase_of_lower {name : String} (lower : ∀ c ∈ name.toList, c.isUpper = false) :
    snakeCase name = name := by
  rw [snakeCase, snakeFrom_of_lower lower, String.ofList_toList]

/-- Deleting the underscores of a name in snake case leaves its letters. -/
theorem filter_snakeFrom (before : Option Char) (cs : List Char) :
    (snakeFrom before cs).filter (· != '_') = letters cs := by
  rw [← letters_snakeFrom before cs, letters, List.map_congr_left (g := id), List.map_id]
  intro c listed
  have lower := isUpper_snakeFrom before cs c (List.mem_of_mem_filter listed)
  exact Char.toLower_eq_of_not_isUpper (by simp [lower])

/-! ## Fragments -/

theorem isUpper_identFragment (text : String) :
    ∀ c ∈ (identFragment text).toList, c.isUpper = false := by
  cases words : runs isWordChar text.toList with
  | nil =>
      rw [identFragment, words]
      simp [Char.isUpper]
  | cons first rest =>
      rw [identFragment_of_runs words]
      refine all_intercalate (p := fun c => c.isUpper = false) rfl ?_
      exact List.forall_mem_map.mpr fun word _ => isUpper_snakeFrom none word

/-- Characters that are all kept are one run. -/
theorem runs_of_all {keep : Char → Bool} {c : Char} {rest : List Char}
    (all : ∀ d ∈ c :: rest, keep d = true) : runs keep (c :: rest) = [c :: rest] := by
  induction rest generalizing c with
  | nil =>
      have kept := all c List.mem_cons_self
      simp [runs, kept]
  | cons next rest ih =>
      obtain ⟨here, later⟩ := List.forall_mem_cons.mp all
      have follows : (next :: rest).head?.any keep = true := later next List.mem_cons_self
      rw [runs, if_pos here, follows, ih later]

/-- One word is its own text. -/
theorem identFragment_of_all {text : String} (nonempty : text ≠ "")
    (all : ∀ c ∈ text.toList, isWordChar c = true) : identFragment text = snakeCase text := by
  obtain ⟨c, rest, chars⟩ := List.exists_cons_of_ne_nil
    (fun empty => nonempty (String.toList_eq_nil_iff.mp empty))
  rw [chars] at all
  rw [identFragment, chars, runs_of_all all, ← chars]
  simp

theorem identFragment_ne_empty (text : String) : identFragment text ≠ "" := by
  intro empty
  have first := head?_identFragment text
  rw [empty] at first
  cases first

/-- A word character that is not an upper-case letter. -/
theorem isLower_of_isWordChar {c : Char} (word : isWordChar c = true) (lower : c.isUpper = false) :
    c.isLower = true ∨ c.isDigit = true ∨ c = '_' := by
  simpa [isWordChar, Char.isAlphanum, Char.isAlpha, lower, or_assoc] using word

/-- **Snake case and fragments.** A name in snake case has no upper-case letters and, but for
underscores, the letters of the name in lower case. Underscores are added in front of the characters at
which words start and nowhere else, so never at the front or beside another underscore, and it makes no
difference to look whether there is one already. Fragments are never empty and are made of lower-case
letters, digits and underscores. What is in snake case, and what is a fragment, stays as it is. -/
theorem snakeCase_identFragment (name text : String) :
    ((∀ c ∈ (snakeCase name).toList, c.isUpper = false) ∧
      (snakeCase name).toList.filter (· != '_') =
        (name.toList.map Char.toLower).filter (· != '_') ∧
      (snakeCase name).toList =
        name.toList.zipIdx.flatMap (fun (c, position) => snakeAt name.toList c position) ∧
      (∀ position, isBoundary name.toList position = true → position ≠ 0 ∧
        name.toList[position - 1]? ≠ some '_' ∧ name.toList[position]? ≠ some '_') ∧
      (snakeCase name).toList = snakeBehind [] none name.toList ∧
      snakeCase (snakeCase name) = snakeCase name) ∧
    identFragment text ≠ "" ∧
      (∀ c ∈ (identFragment text).toList, c.isLower = true ∨ c.isDigit = true ∨ c = '_') ∧
      identFragment (identFragment text) = identFragment text := by
  have snake : (snakeCase name).toList = snakeFrom none name.toList := String.toList_ofList
  have lower : ∀ c ∈ (snakeCase name).toList, c.isUpper = false :=
    snake ▸ isUpper_snakeFrom none name.toList
  refine ⟨⟨lower, ?_, ?_, fun position => isBoundary_apart, ?_, snakeCase_of_lower lower⟩,
    identFragment_ne_empty text, fun c listed => ?_, ?_⟩
  · rw [snake, filter_snakeFrom, letters, List.filter_map]
    refine congrArg (List.map Char.toLower) (List.filter_congr fun c _ => ?_)
    rw [Function.comp_apply, Bool.eq_iff_iff, bne_iff_ne, bne_iff_ne]
    exact toLower_eq_underscore_iff.not.symm
  · rw [snake]
    exact snakeFrom_eq [] name.toList
  · have behind : snakeBehind [] none name.toList = [] ++ snakeFrom none name.toList :=
      snakeBehind_eq rfl name.toList
    rw [snake, behind, List.nil_append]
  · exact isLower_of_isWordChar (all_identFragment text c listed)
      (isUpper_identFragment text c listed)
  · rw [identFragment_of_all (identFragment_ne_empty text) (all_identFragment text),
      snakeCase_of_lower (isUpper_identFragment text)]

/-- Two words of which the first is all capitals, and the words of a type. -/
theorem snakeCase_identFragment_server :
    ('s' ∈ (snakeCase "HTTPServer").toList ∧ 's'.isUpper = false) ∧
      (isBoundary "HTTPServer".toList 4 = true ∧ "HTTPServer".toList[3]? ≠ some '_') ∧
        (snakeCase (snakeCase "HTTPServer") = snakeCase "HTTPServer") ∧
          ('y' ∈ (identFragment "Option<Entity>").toList ∧
            ('y'.isLower = true ∨ 'y'.isDigit = true ∨ 'y' = '_')) := by
  obtain ⟨⟨lower, -, -, apart, -, again⟩, -, chars, -⟩ :=
    snakeCase_identFragment "HTTPServer" "Option<Entity>"
  have letter : 's' ∈ (snakeCase "HTTPServer").toList := by decide +kernel
  have starts : isBoundary "HTTPServer".toList 4 = true := by decide +kernel
  have inside : 'y' ∈ (identFragment "Option<Entity>").toList := by decide +kernel
  exact ⟨⟨letter, lower 's' letter⟩, ⟨starts, (apart 4 starts).2.1⟩, again,
    ⟨inside, chars 'y' inside⟩⟩

end Text

end VariantMerge
