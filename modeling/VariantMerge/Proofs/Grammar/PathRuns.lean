import VariantMerge.Grammar.Item
import VariantMerge.Proofs.Grammar.TypeStarts
import VariantMerge.Proofs.Syntax.Types
import VariantMerge.Proofs.Token.Legible

/-!
# Paths that are read back

A path is read back if the grammar reads this path from its tokens, whatever follows that does not go on
with it. The same is said of a type (`Ty.ReadsBack`), whose tokens have to be legible as well. A path is
read back name by name (`Path.runs`), each with the arguments between its angle brackets.
-/

namespace VariantMerge

open VariantMerge.Parser

namespace Token

/-- Separated parts begin with the first one. -/
theorem separated_cons (separator : String) (trailing : Bool) (part : List Token)
    (parts : List (List Token)) : ∃ rest, separated separator trailing (part :: parts) = part ++ rest := by
  cases parts <;> cases trailing <;> simp [separated]

/-- Each part but the first has a separator before it. -/
theorem separated_eq_flatMap (separator : String) (trailing : Bool) (part : List Token)
    (parts : List (List Token)) : separated separator trailing (part :: parts) =
      part ++ (parts.flatMap (fun part => .op separator :: part) ++
        if trailing then [.op separator] else []) := by
  induction parts generalizing part with
  | nil => cases trailing <;> simp [separated]
  | cons next rest ih => simp [separated, ih next]

/-- What begins like a type does so in front of anything. -/
theorem startsType_append {front : List Token} (starts : startsType front = true)
    (back : List Token) : startsType (front ++ back) = true := by
  fun_induction startsType front with
  | case1 => exact starts
  | case2 => rfl
  | case3 rest ih => exact ih starts
  | case4 text rest other =>
      rw [List.cons_append, startsType]
      · exact starts
      · exact other
  | case5 => exact starts
  | case6 => cases starts

/-- A type begins with one of these signs, if with any. -/
theorem startsType_op {text : String} {rest : List Token}
    (starts : startsType (.op text :: rest) = true) : text ∈ ["<", "::", "*", "&", "!"] := by
  by_cases angle : text = "<"
  · exact angle ▸ List.mem_cons_self
  · rw [startsType] at starts
    · exact List.mem_cons_of_mem _ (List.contains_iff_mem.mp starts)
    · exact angle

/-- Nothing in front of a type goes on with it. -/
theorem isPlain_of_startsType {tokens : List Token} (starts : startsType tokens = true) :
    ∀ next ∈ tokens.head?, next.isPlain = true := by
  intro next first
  obtain ⟨rest, rfl⟩ := List.head?_eq_some_iff.mp first
  cases next with
  | op text =>
      have plain : ∀ text ∈ ["<", "::", "*", "&", "!"], (op text).isPlain = true := by decide
      exact plain text (startsType_op starts)
  | _ => rfl

/-- Each token weighs something. -/
theorem weight_pos (token : Token) : 0 < token.weight := by
  cases token <;> simp [weight]

/-- So does each list of tokens that is not empty. -/
theorem weights_pos {tokens : List Token} (some_ : tokens ≠ []) : 0 < weights tokens := by
  obtain ⟨token, rest, rfl⟩ := List.exists_cons_of_ne_nil some_
  exact Nat.add_pos_left token.weight_pos _

/-- A part weighs no more than the whole. -/
theorem weights_le_separated {separator : String} {trailing : Bool} {part : List Token}
    {parts : List (List Token)} (listed : part ∈ parts) :
    weights part ≤ weights (separated separator trailing parts) := by
  induction parts with
  | nil => cases listed
  | cons first parts ih =>
      cases parts with
      | nil =>
          obtain rfl := List.mem_singleton.mp listed
          cases trailing <;> simp [separated, weights_append]
      | cons next rest =>
          simp only [separated, weights_append, weights]
          rcases List.mem_cons.mp listed with rfl | listed
          · omega
          · have := ih listed
            omega

end Token

/-! ## Names -/

/-- A name that can stand in a path: a keyword of paths without arguments, or any name that is none. -/
structure Segment.IsNamed (name : String) (bare : Bool) : Prop where
  named : Token.isName name = true
  allowed : (["super", "self", "crate", "try"].contains name = true ∧ bare = true) ∨
    name = "Self" ∨ keywords.contains name = false

/-- Arguments between angle brackets that are read back. -/
def Arguments.ReadsBack : Arguments → Prop
  | .none => True
  | .angle turbofish arguments trailing =>
    Token.Legible (Arguments.angle turbofish arguments trailing).tokens ∧
    (turbofish = false → ∀ rest, Shows (startsOpNot "<" ["<=", "<<="])
      ((Arguments.angle turbofish arguments trailing).tokens ++ rest) true) ∧
    ∀ depth rest, Token.weights (Arguments.angle turbofish arguments trailing).tokens ≤ depth →
      (angleArguments (Grammar.upTo depth)).Runs
        ((Arguments.angle turbofish arguments trailing).tokens ++ rest) rest
        (.angle turbofish arguments trailing)
  | .paren .. => False

/-- A name of a path with its arguments that is read back. -/
def Segment.ReadsBack : Segment → Prop
  | .mk name arguments => Segment.IsNamed name arguments.isNone ∧ arguments.ReadsBack

/-- Whether the arguments can stand in an expression. -/
def Arguments.fitsExpr : Arguments → Bool
  | .angle turbofish _ _ => turbofish
  | _ => true

/-- A path that is read back, name by name. -/
structure Path.ReadsBack (path : Path) : Prop where
  some_ : path.segments ≠ []
  each : ∀ segment ∈ path.segments, segment.ReadsBack

/-- What follows goes on with no path, in the style of expressions or of types. -/
structure Token.EndsPath (exprStyle : Bool) (rest : List Token) : Prop where
  angle : exprStyle = false → Shows (startsOp "<") rest false
  colons : Shows (startsOp "::") rest false

/-- What ends a type ends its path. -/
theorem Token.EndsType.endsPath {plus trails : Bool} {rest : List Token}
    (ends : Token.EndsType plus trails rest) : Token.EndsPath false rest :=
  ⟨fun _ => ends.op "<" (by decide), ends.op "::" (by decide)⟩

/-- No argument begins behind the colons of another segment. -/
theorem Token.EndsPath.another {rest : List Token} {name : String} :
    Shows (fun trees => startsOp "::" trees && startsOp "<" (trees.drop 2))
      (.op "::" :: .word name :: rest) false := by
  intro line
  rw [Bool.and_eq_false_iff]
  exact .inr (startsOp_other_token (by decide) rfl line)

namespace Segment

variable {depth : Nat} {rest : List Token} {exprStyle : Bool}

/-- What follows goes on with no name of a path. -/
structure Ends (exprStyle : Bool) (rest : List Token) : Prop where
  angle : exprStyle = false → Shows (startsOpNot "<" ["<=", "<<="]) rest false
  turbofish : Shows (fun trees => startsOp "::" trees && startsOp "<" (trees.drop 2)) rest false

/-- What ends a path ends its last segment. -/
theorem Ends.of_path (ends : Token.EndsPath exprStyle rest) : Ends exprStyle rest where
  angle := fun style line => by rw [startsOpNot, ends.angle style line, Bool.false_and]
  turbofish := fun line => Bool.and_eq_false_iff.mpr (.inl (ends.colons line))

/-- Another segment ends the one before it. -/
theorem Ends.another {name : String} : Ends exprStyle (.op "::" :: .word name :: rest) where
  angle := fun _ _ => rfl
  turbofish := Token.EndsPath.another

variable {name : String} {arguments : Arguments}

/-- Whether a name is one of the keywords that take no arguments shows in its first tree. -/
theorem shows_keyword (named : Token.isName name = true) (rest : List Token) :
    Shows (fun trees => ["super", "self", "crate", "try"].any (startsWord · trees))
      (.word name :: rest) (["super", "self", "crate", "try"].contains name) := by
  intro line
  dsimp only
  rw [Token.trees_name named]
  simp only [startsWord, List.any_cons, List.any_nil, List.contains_cons, List.contains_nil]

/-- What names a segment with arguments is none of the path keywords. -/
theorem not_keyword_of_free (free : name = "Self" ∨ keywords.contains name = false) :
    ["super", "self", "crate", "try"].contains name = false := by
  rcases free with rfl | free
  · decide
  · have told : ["super", "self", "crate", "try"].all keywords.contains = true := by decide
    refine Bool.eq_false_iff.mpr fun listed => ?_
    have here := List.all_eq_true.mp told name (List.contains_iff_mem.mp listed)
    rw [free] at here
    cases here

/-- The name of a type itself and names that are no keywords are read alike. -/
theorem free_runs (named : Token.isName name = true)
    (free : name = "Self" ∨ keywords.contains name = false) :
    Runs (do if ← looks (startsWord "Self") then anyWord else Parser.name) (.word name :: rest) rest
      name := by
  by_cases self : name = "Self"
  · refine .look_true (fun line => ?_) (.anyWord named)
    rw [Token.trees_name named, self]
    rfl
  · refine .look_false (fun line => ?_) (.name named (free.resolve_left self))
    rw [Token.trees_name named]
    exact beq_eq_false_iff_ne.mpr self

/-- The arguments of a name are read if it has any. -/
theorem arguments_runs (back : arguments.ReadsBack) (fits : exprStyle = true → arguments.fitsExpr = true)
    (light : Token.weights arguments.tokens ≤ depth) (ends : Ends exprStyle rest) :
    Runs (do
        if ← looks fun trees =>
            (!exprStyle && startsOpNot "<" ["<=", "<<="] trees) ||
              (startsOp "::" trees && startsOp "<" (trees.drop 2)) then
          return Segment.mk name (← angleArguments (Grammar.upTo depth))
        else return .mk name .none)
      (arguments.tokens ++ rest) rest (.mk name arguments) := by
  cases arguments with
  | none =>
      refine .look_false (fun line => ?_) .pure
      have colons := ends.turbofish line
      rw [Arguments.tokens, List.nil_append]
      cases exprStyle with
      | true => exact colons
      | false =>
          rw [ends.angle rfl line]
          exact colons
  | angle turbofish each trailing =>
      obtain ⟨-, opens, reads⟩ := back
      refine .look_true (fun line => ?_) (.bind (reads depth rest light) .pure)
      cases turbofish with
      | false =>
          cases exprStyle with
          | true => cases fits rfl
          | false => rw [opens rfl rest line]; rfl
      | true =>
          rw [Bool.or_eq_true]
          exact .inr rfl
  | paren inputs trailing output => exact back.elim

/-- **A segment.** It is read back with its arguments, in types and in expressions. -/
theorem runs {s : Segment} (back : s.ReadsBack)
    (fits : exprStyle = true → s.arguments.fitsExpr = true)
    (light : Token.weights s.tokens ≤ depth + 1) (ends : Ends exprStyle rest) :
    (segment (Grammar.upTo depth) exprStyle).Runs (s.tokens ++ rest) rest s := by
  obtain ⟨name, arguments⟩ := s
  obtain ⟨⟨named, allowed⟩, given⟩ := back
  simp only [Segment.tokens, Token.weights, Token.weight] at light
  rw [Segment.tokens, List.cons_append]
  rcases allowed with ⟨keyword, bare⟩ | free
  · have seen := shows_keyword named (arguments.tokens ++ rest)
    rw [keyword] at seen
    cases arguments with
    | none => exact .look_true seen (.bind (.anyWord named) .pure)
    | angle turbofish each trailing => cases bare
    | paren inputs trailing output => cases bare
  · have seen := shows_keyword named (arguments.tokens ++ rest)
    rw [not_keyword_of_free free] at seen
    exact .look_false seen (.bind (free_runs named free) (arguments_runs given fits (by omega) ends))

end Segment

namespace Path

variable {depth : Nat} {rest : List Token} {p : Path} {exprStyle : Bool}

/-- The names after the first one. -/
theorem segments_runs {others : List Segment} {goesOn : List Tree → Bool}
    (each : ∀ s ∈ others, s.ReadsBack)
    (fits : exprStyle = true → ∀ s ∈ others, s.arguments.fitsExpr = true)
    (light : ∀ s ∈ others, Token.weights s.tokens ≤ depth + 1)
    (goes : ∀ name more, Shows goesOn (.op "::" :: .word name :: more) true)
    (stops : Shows goesOn rest false) (ends : Segment.Ends exprStyle rest) :
    (Parser.segments (Grammar.upTo depth) exprStyle goesOn).Runs
      (others.flatMap (fun s => .op "::" :: s.tokens) ++ rest) rest others := by
  refine .many (by decide) ?_ ?_ stops
  · intro s listed more after
    refine .take_op (by decide) (Segment.runs (each s listed) (fun style => fits style s listed)
      (light s listed) ?_)
    rcases after with rfl | ⟨⟨name, arguments⟩, -, others, rfl⟩
    · exact ends
    · exact .another
  · intro s listed more
    obtain ⟨name, arguments⟩ := s
    rw [Segment.tokens]
    exact goes name _

/-- Each segment but the first has colons before it. -/
theorem separated_segments (first : Segment) (others : List Segment) :
    Token.separated "::" false (segmentsEach (first :: others)) =
      first.tokens ++ others.flatMap fun s => .op "::" :: s.tokens := by
  rw [TypeNode.segmentsEach_eq_map, List.map_cons, Token.separated_eq_flatMap, List.flatMap_map,
    if_neg Bool.false_ne_true, List.append_nil]

/-- A path prints its segments behind leading colons. -/
theorem tokens_eq (leading : Bool) (first : Segment) (others : List Segment) :
    (Path.mk leading (first :: others)).tokens = (if leading then [.op "::"] else []) ++
      (first.tokens ++ others.flatMap fun s => .op "::" :: s.tokens) := by
  rw [Path.tokens, separated_segments]

/-- **The names of a path are read back**, from the first one on. -/
theorem names_runs {first : Segment} {others : List Segment} {goesOn : List Tree → Bool}
    {f : Segment → List Segment → Parser β} {output : List Token} {b : β}
    (each : ∀ s ∈ first :: others, s.ReadsBack)
    (fits : exprStyle = true → ∀ s ∈ first :: others, s.arguments.fitsExpr = true)
    (light : ∀ s ∈ first :: others, Token.weights s.tokens ≤ depth + 1)
    (goes : ∀ name more, Shows goesOn (.op "::" :: .word name :: more) true)
    (stops : Shows goesOn rest false) (ends : Token.EndsPath exprStyle rest)
    (next : (f first others).Runs rest output b) :
    Runs (do
        let head ← segment (Grammar.upTo depth) exprStyle
        let more ← Parser.segments (Grammar.upTo depth) exprStyle goesOn
        f head more)
      (first.tokens ++ (others.flatMap (fun s => .op "::" :: s.tokens) ++ rest)) output b := by
  have behind : Segment.Ends exprStyle (others.flatMap (fun s => .op "::" :: s.tokens) ++ rest) := by
    cases others with
    | nil => exact .of_path ends
    | cons second others =>
        obtain ⟨name, arguments⟩ := second
        exact .another
  have head := Segment.runs (each first List.mem_cons_self)
    (fun style => fits style first List.mem_cons_self) (light first List.mem_cons_self) behind
  have more := segments_runs (fun s listed => each s (List.mem_cons_of_mem _ listed))
    (fun style s listed => fits style s (List.mem_cons_of_mem _ listed))
    (fun s listed => light s (List.mem_cons_of_mem _ listed)) goes stops (.of_path ends)
  exact .bind head (.bind more next)

/-- Each name weighs less than the path. -/
theorem weights_segment {leading : Bool} {segments : List Segment} {s : Segment}
    (listed : s ∈ segments) :
    Token.weights s.tokens ≤ Token.weights (Path.mk leading segments).tokens := by
  rw [Path.tokens, TypeNode.segmentsEach_eq_map, Token.weights_append]
  exact (Token.weights_le_separated (List.mem_map_of_mem listed)).trans (Nat.le_add_left _ _)

/-- **Paths are read back.** -/
theorem runs (back : p.ReadsBack)
    (fits : exprStyle = true → ∀ s ∈ p.segments, s.arguments.fitsExpr = true)
    (light : Token.weights p.tokens ≤ depth + 1) (ends : Token.EndsPath exprStyle rest) :
    (Parser.path (Grammar.upTo depth) exprStyle).Runs (p.tokens ++ rest) rest p := by
  obtain ⟨leading, segments⟩ := p
  obtain ⟨first, others, whole⟩ := List.exists_cons_of_ne_nil back.some_
  obtain rfl : segments = first :: others := whole
  have each (s : Segment) (listed : s ∈ first :: others) := back.each s listed
  have lighter (s : Segment) (listed : s ∈ first :: others) :
      Token.weights s.tokens ≤ depth + 1 := (weights_segment listed).trans light
  rw [tokens_eq, List.append_assoc, List.append_assoc]
  refine .through leading (first.tokens ++
    (others.flatMap (fun s => .op "::" :: s.tokens) ++ rest)) ?_
      (names_runs each fits lighter ?_ ?_ ends .pure)
  · cases leading with
    | true => exact .op?_taken (by decide)
    | false =>
        obtain ⟨name, arguments⟩ := first
        exact .op?_absent (startsOp_other_token (by decide) rfl)
  · intro name more line
    have group : startsGroup .paren (Token.trees line (.word name :: more)) = false := by
      rw [Token.trees, Token.treesOnto]
      split <;> rfl
    exact congrArg (!·) group
  · exact fun line => Bool.and_eq_false_iff.mpr (.inl (ends.colons line))

/-- A path inside another phrase. -/
theorem runs_inner (back : p.ReadsBack) (light : Token.weights p.tokens ≤ depth)
    (ends : Token.EndsPath false rest) :
    ((Grammar.upTo depth).path false).Runs (p.tokens ++ rest) rest p := by
  cases depth with
  | zero =>
      exfalso
      obtain ⟨leading, segments⟩ := p
      obtain ⟨first, others, whole⟩ := List.exists_cons_of_ne_nil back.some_
      obtain rfl : segments = first :: others := whole
      obtain ⟨name, arguments⟩ := first
      rw [tokens_eq, Token.weights_append, Token.weights_append] at light
      simp [Segment.tokens, Token.weights, Token.weight] at light
  | succ depth => exact runs back nofun light ends

end Path

/-! ## Types -/

/-- Whether a plus sign comes last. -/
def Ty.trails : Ty → Bool
  | .object _ _ trailing | .implTrait _ trailing => trailing
  | _ => false

/-- Whether the type would be a single bound without a keyword: one in parentheses would be read as a type
in parentheses, and a lifetime is no type. -/
def Ty.isLone : Ty → Bool
  | .object false [.trait true _ _ _] false => true
  | .object false [.lifetime _] false => true
  | _ => false

/-- Whether a word can be the name of a parameter. -/
def Token.namesParam (name : String) : Bool :=
  !keywords.contains name || name == "_" || name == "self"

/-- Whether tokens start with the name of a parameter and a colon. -/
def Token.startsNamed : List Token → Bool
  | .word name :: .op text :: _ => namesParam name && text.toList.head? == some ':' && text != "::"
  | _ => false

/-- A keyword is not the name of a parameter. -/
theorem Token.startsNamed_keyword {name : String} (keyword : namesParam name = false)
    (rest : List Token) : startsNamed (.word name :: rest) = false := by
  cases rest with
  | nil => rfl
  | cons next rest =>
      cases next with
      | op text => simp [startsNamed, keyword]
      | _ => rfl

/-- Whether tokens start with a lifetime. -/
def Token.isLifetimeFirst : List Token → Bool
  | .lifetime _ :: _ => true
  | _ => false

/-- A type that is read back, with bounds joined by plus signs at its end or not. -/
structure Ty.ReadsBack (plus : Bool) (t : Ty) : Prop where
  starts : Token.startsType t.tokens = true
  unnamed : Token.startsNamed t.tokens = false
  /-- It starts with a lifetime only where several bounds may stand. -/
  bare : plus = false → Token.isLifetimeFirst t.tokens = false
  closed : plus = false → t.trails = false
  joined : t.isLone = false
  legible : Token.Legible t.tokens
  runs : ∀ depth rest, Token.weights t.tokens ≤ depth + 1 → Token.EndsType plus t.trails rest →
    (Parser.ty (Grammar.upTo depth) plus).Runs (t.tokens ++ rest) rest t

namespace Ty

variable {plus : Bool} {t : Ty} {depth : Nat} {rest : List Token}

/-- A type that reads back is where a type begins. -/
theorem ReadsBack.typeStart (back : t.ReadsBack plus) (rest : List Token) :
    Token.TypeStart (t.tokens ++ rest) :=
  Token.typeStart (Token.startsType_append back.starts rest)

/-- A type inside another phrase. -/
theorem ReadsBack.inner (back : t.ReadsBack plus) (light : Token.weights t.tokens ≤ depth)
    (ends : Token.EndsType plus t.trails rest) :
    ((Grammar.upTo depth).ty plus).Runs (t.tokens ++ rest) rest t := by
  cases depth with
  | zero =>
      have some_ : t.tokens ≠ [] := by
        intro nothing
        have starts := back.starts
        rw [nothing] at starts
        cases starts
      exact absurd (Token.weights_pos some_) (Nat.not_lt.mpr light)
  | succ depth => exact back.runs depth rest light ends

end Ty

/-- What the first of some parts does not start with, all of them together do not start with. -/
theorem Token.shows_separated {condition : List Tree → Bool} {separator : String} {trailing : Bool}
    {parts : List (List Token)} {rest : List Token} {found : Bool}
    (each : ∀ part ∈ parts, ∀ more, Shows condition (part ++ more) found)
    (none : parts = [] → Shows condition rest found) :
    Shows condition (separated separator trailing parts ++ rest) found := by
  cases parts with
  | nil => exact none rfl
  | cons part parts =>
      obtain ⟨more, whole⟩ := separated_cons separator trailing part parts
      rw [whole, List.append_assoc]
      exact each part List.mem_cons_self _

end VariantMerge
