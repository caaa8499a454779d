import Mathlib.Logic.Relation
import VariantMerge.Proofs.Token.Borrowing
import VariantMerge.Proofs.Token.Nesting

/-!
# The parts of a type

A type is a tree of several kinds of nodes: types, paths and their segments, arguments, bounds and
lifetimes. `TypeNode.children` lists what a node is made of, and `TypeNode.Contains` says that one
node is a part of another, at whatever depth.

Whether a type borrows is decided on its tokens. If those of a node do not borrow, those of its
children do not (`TypeNode.children_free`), so neither do those of any part (`TypeNode.Contains.free`):
all references and lifetimes in the type are `'static`. This takes types whose tokens show what they
are (`TypeNode.IsLegible`): in `&'static T`, the lifetime is that of the reference.
-/

namespace VariantMerge

/-- A node of the tree of a type. -/
inductive TypeNode where
  | ty (ty : Ty)
  | param (param : FnParam)
  | path (path : Path)
  | segment (segment : Segment)
  | arguments (arguments : Arguments)
  | generic (argument : GenericArg)
  | bound (bound : Bound)
  | lifetime (name : String)

namespace TypeNode

/-- The tokens that a node is written with. -/
def tokens : TypeNode → List Token
  | ty t => t.tokens
  | param p => p.tokens
  | path p => p.tokens
  | segment s => s.tokens
  | arguments a => a.tokens
  | generic a => a.tokens.2
  | bound b => b.tokens
  | lifetime name => [.lifetime name]

/-- The nodes that a node is made of. What is only kept as tokens has none. -/
def children : TypeNode → List TypeNode
  | ty (.path p) => [path p]
  | ty (.qualified self interface rest) =>
    ty self :: interface.toList.map path ++ rest.map segment
  | ty (.reference l _ target) => l.toList.map lifetime ++ [ty target]
  | ty (.pointer _ target) => [ty target]
  | ty (.slice element) => [ty element]
  | ty (.array element _) => [ty element]
  | ty (.tuple elements _) => elements.map ty
  | ty (.paren inner) => [ty inner]
  | ty .never => []
  | ty .infer => []
  | ty (.fnPointer _ _ _ params _ _ output) => params.map param ++ output.toList.map ty
  | ty (.object _ bounds _) => bounds.map bound
  | ty (.implTrait bounds _) => bounds.map bound
  | ty (.macroCall p _) => [path p]
  | ty (.other _) => []
  | param (.mk _ _ t) => [ty t]
  | path (.mk _ segments) => segments.map segment
  | segment (.mk _ a) => [arguments a]
  | arguments .none => []
  | arguments (.angle _ each _) => each.map generic
  | arguments (.paren inputs _ output) => inputs.map ty ++ output.toList.map ty
  | generic (.lifetime name) => [lifetime name]
  | generic (.type t) => [ty t]
  | generic (.const _) => []
  | generic (.assocType _ a t) => [arguments a, ty t]
  | generic (.assocConst _ a _) => [arguments a]
  | generic (.constraint _ a bounds _) => arguments a :: bounds.map bound
  | bound (.trait _ _ _ p) => [path p]
  | bound (.lifetime name) => [lifetime name]
  | bound (.capture _ _) => []
  | bound (.other _) => []
  | lifetime _ => []

/-- The one node is the other or a part of it, at whatever depth. -/
def Contains : TypeNode → TypeNode → Prop :=
  Relation.ReflTransGen fun outer inner => inner ∈ outer.children

/-- The tokens of the node show what it is: those of a reference without a lifetime do not go on with
`'static`, and a parameter for any number of arguments comes after a comma. -/
def IsLegible : TypeNode → Prop
  | ty (.reference .none false target) => Token.startsStatic target.tokens = false
  | ty (.fnPointer _ _ _ _ trailing variadic _) => trailing = true ∨ variadic = []
  | _ => True

/-- The node and all parts of it are legible. -/
def Legible (node : TypeNode) : Prop :=
  ∀ inner, node.Contains inner → inner.IsLegible

namespace Legible

variable {node part : TypeNode}

/-- What is legible by itself and has legible parts is legible. -/
theorem of_children (here : node.IsLegible) (below : ∀ child ∈ node.children, child.Legible) :
    node.Legible := by
  intro inner part
  obtain rfl | ⟨child, listed, part⟩ := Relation.ReflTransGen.cases_head part
  · exact here
  · exact below child listed inner part

/-- What has no parts is legible if it is so by itself. -/
theorem of_leaf (here : node.IsLegible) (leaf : node.children = []) : node.Legible :=
  of_children here fun _ listed => absurd (leaf ▸ listed) List.not_mem_nil

/-- What is legible has legible parts. -/
theorem child (legible : node.Legible) (listed : part ∈ node.children) : part.Legible :=
  fun inner below => legible inner (.head listed below)

end Legible

/-- A legible result type is a legible part. -/
theorem legible_output {output : Option Ty} (returned : ∀ t ∈ output, (ty t).Legible) :
    ∀ child ∈ output.toList.map ty, child.Legible :=
  List.forall_mem_map.mpr fun t listed => returned t (Option.mem_toList.mp listed)

/-! ## The tokens of lists of nodes -/

/-- Each type prints by itself. -/
theorem typesEach_eq_map (types : List Ty) : typesEach types = types.map Ty.tokens := by
  induction types with
  | nil => rfl
  | cons first rest ih => rw [typesEach, ih, List.map_cons]

/-- Each parameter prints by itself. -/
theorem paramsEach_eq_map (params : List FnParam) :
    paramsEach params = params.map FnParam.tokens := by
  induction params with
  | nil => rfl
  | cons first rest ih => rw [paramsEach, ih, List.map_cons]

/-- Each segment prints by itself. -/
theorem segmentsEach_eq_map (segments : List Segment) :
    segmentsEach segments = segments.map Segment.tokens := by
  induction segments with
  | nil => rfl
  | cons first rest ih => rw [segmentsEach, ih, List.map_cons]

/-- Each argument prints by itself. -/
theorem genericsEach_eq_map (arguments : List GenericArg) :
    genericsEach arguments = arguments.map GenericArg.tokens := by
  induction arguments with
  | nil => rfl
  | cons first rest ih => rw [genericsEach, ih, List.map_cons]

/-- Each bound prints by itself. -/
theorem boundsEach_eq_map (bounds : List Bound) : boundsEach bounds = bounds.map Bound.tokens := by
  induction bounds with
  | nil => rfl
  | cons first rest ih => rw [boundsEach, ih, List.map_cons]

/-! ## What does not borrow -/

/-- Written on its own, the node does not borrow. -/
def Free (node : TypeNode) : Prop :=
  Token.anyBorrows node.tokens = false

/-- What is behind the type in a qualified path does not begin with the static lifetime. -/
theorem startsStatic_interfaceTokens (interface : Option Path) {rest : List Token} {text : String} :
    Token.startsStatic (interfaceTokens interface ++ .op text :: rest) = false := by
  cases interface <;> rfl

/-- What has no parts borrows in none of them. -/
theorem not_mem_nil_free : ∀ child ∈ ([] : List TypeNode), child.Free :=
  fun _ absent => absurd absent List.not_mem_nil

/-- The nodes of a list with separators. -/
theorem free_of_separated {α : Type} {node : α → TypeNode} {values : List α} {separator : String}
    {trailing : Bool} {rest : List Token}
    (free : Token.anyBorrows (Token.separated separator trailing
      (values.map fun value => (node value).tokens) ++ rest) = false)
    (ends : trailing = true ∨ Token.startsStatic rest = false) :
    ∀ child ∈ values.map node, child.Free := by
  rw [List.forall_mem_map]
  intro value listed
  exact Token.anyBorrows_of_separated free ends _ (List.mem_map_of_mem listed)

/-- The nodes of a list that ends its group. -/
theorem free_of_separated_end {α : Type} {node : α → TypeNode} {values : List α}
    {separator : String} {trailing : Bool} (free : Token.anyBorrows (Token.separated separator trailing
      (values.map fun value => (node value).tokens)) = false) :
    ∀ child ∈ values.map node, child.Free := by
  rw [← List.append_nil (Token.separated _ _ _)] at free
  exact free_of_separated free (.inr rfl)

/-- A result type whose tokens do not borrow does not borrow. -/
theorem free_of_outputTokens {output : Option Ty}
    (free : Token.anyBorrows (outputTokens output) = false) :
    ∀ child ∈ output.toList.map ty, child.Free := by
  cases output with
  | none => exact not_mem_nil_free
  | some t => exact List.forall_mem_singleton.mpr (Token.anyBorrows_of_cons free)

/-- A trait whose tokens do not borrow does not borrow. -/
theorem free_of_interfaceTokens {interface : Option Path}
    (free : Token.anyBorrows (interfaceTokens interface) = false) :
    ∀ child ∈ interface.toList.map path, child.Free := by
  cases interface with
  | none => exact not_mem_nil_free
  | some p => exact List.forall_mem_singleton.mpr (Token.anyBorrows_of_cons free)

/-- The segments of a path that does not borrow do not borrow. -/
theorem path_children_free {p : Path} (free : (path p).Free) :
    ∀ child ∈ (path p).children, child.Free := by
  obtain ⟨leading, segments⟩ := p
  change Token.anyBorrows (Path.mk leading segments).tokens = false at free
  rw [Path.tokens, segmentsEach_eq_map] at free
  exact free_of_separated_end (Token.anyBorrows_of_append_right free)

/-- The arguments of a segment that does not borrow do not borrow. -/
theorem segment_children_free {s : Segment} (free : (segment s).Free) :
    ∀ child ∈ (segment s).children, child.Free := by
  obtain ⟨name, a⟩ := s
  exact List.forall_mem_singleton.mpr (Token.anyBorrows_of_cons free)

/-- The parts of arguments that do not borrow do not borrow. -/
theorem arguments_children_free {a : Arguments} (free : (arguments a).Free) :
    ∀ child ∈ (arguments a).children, child.Free := by
  change Token.anyBorrows a.tokens = false at free
  cases a with
  | none => exact not_mem_nil_free
  | angle turbofish each trailing =>
      rw [Arguments.tokens, genericsEach_eq_map, List.append_assoc, List.cons_append] at free
      have inside := Token.anyBorrows_of_lifetimesFirst
        (Token.anyBorrows_of_cons (Token.anyBorrows_of_append_right free)) rfl
      refine List.forall_mem_map.mpr fun argument listed => ?_
      exact inside _ (List.mem_map_of_mem listed)
  | paren inputs trailing output =>
      rw [Arguments.tokens, Token.anyBorrows_group, typesEach_eq_map, Bool.or_eq_false_iff] at free
      exact List.forall_mem_append.mpr ⟨free_of_separated_end free.1, free_of_outputTokens free.2⟩

/-- The parts of an argument that does not borrow do not borrow. -/
theorem generic_children_free {a : GenericArg} (free : (generic a).Free) :
    ∀ child ∈ (generic a).children, child.Free := by
  change Token.anyBorrows a.tokens.2 = false at free
  cases a with
  | lifetime name => exact List.forall_mem_singleton.mpr free
  | type t => exact List.forall_mem_singleton.mpr free
  | const value => exact not_mem_nil_free
  | assocType name a t =>
      have free := Token.anyBorrows_of_cons free
      refine List.forall_mem_cons.mpr ⟨Token.anyBorrows_of_append_left free rfl, ?_⟩
      refine List.forall_mem_singleton.mpr ?_
      exact Token.anyBorrows_of_cons (Token.anyBorrows_of_append_right free)
  | assocConst name a value =>
      have free := Token.anyBorrows_of_cons free
      exact List.forall_mem_singleton.mpr (Token.anyBorrows_of_append_left free rfl)
  | constraint name a bounds trailing =>
      rw [GenericArg.tokens, boundsEach_eq_map, List.cons_append] at free
      have free := Token.anyBorrows_of_cons free
      refine List.forall_mem_cons.mpr ⟨Token.anyBorrows_of_append_left free rfl, ?_⟩
      exact free_of_separated_end (Token.anyBorrows_of_cons (Token.anyBorrows_of_append_right free))

/-- The parts of a bound that does not borrow do not borrow. -/
theorem bound_children_free {b : Bound} (free : (bound b).Free) :
    ∀ child ∈ (bound b).children, child.Free := by
  change Token.anyBorrows b.tokens = false at free
  cases b with
  | trait parens maybe binder p =>
      refine List.forall_mem_singleton.mpr ?_
      cases parens with
      | true =>
          rw [Bound.tokens, if_pos rfl, Token.anyBorrows_group, Bool.or_eq_false_iff] at free
          exact Token.anyBorrows_of_append_right free.1
      | false => exact Token.anyBorrows_of_append_right free
  | lifetime name => exact List.forall_mem_singleton.mpr free
  | capture params trailing => exact not_mem_nil_free
  | other tokens => exact not_mem_nil_free

/-- The parts of a qualified path that does not borrow do not borrow. -/
theorem qualified_children_free {self : Ty} {interface : Option Path} {rest : List Segment}
    (free : (ty (.qualified self interface rest)).Free) :
    ∀ child ∈ (ty (.qualified self interface rest)).children, child.Free := by
  change Token.anyBorrows (Ty.qualified self interface rest).tokens = false at free
  simp only [Ty.tokens, List.append_assoc, List.cons_append, List.nil_append,
    segmentsEach_eq_map] at free
  have free := Token.anyBorrows_of_cons free
  have after := Token.anyBorrows_of_append_right free
  have segments := Token.anyBorrows_of_cons
    (Token.anyBorrows_of_cons (Token.anyBorrows_of_append_right after))
  refine List.forall_mem_cons.mpr
    ⟨Token.anyBorrows_of_append_left free (startsStatic_interfaceTokens interface), ?_⟩
  exact List.forall_mem_append.mpr
    ⟨free_of_interfaceTokens (Token.anyBorrows_of_append_left after rfl),
      free_of_separated_end segments⟩

/-- The target of a reference that does not borrow does not borrow. -/
theorem reference_children_free {lifetime : Option String} {isMut : Bool} {target : Ty}
    (free : (ty (.reference lifetime isMut target)).Free) :
    ∀ child ∈ (ty (.reference lifetime isMut target)).children, child.Free := by
  change Token.anyBorrows (Ty.reference lifetime isMut target).tokens = false at free
  rw [Ty.tokens, List.append_assoc, List.cons_append] at free
  have free := Token.anyBorrows_of_cons free
  refine List.forall_mem_append.mpr ⟨?_, List.forall_mem_singleton.mpr
    (Token.anyBorrows_of_append_right (Token.anyBorrows_of_append_right free))⟩
  cases lifetime with
  | none => exact not_mem_nil_free
  | some name =>
      rw [Token.lifetime?, List.singleton_append, Token.anyBorrows_lifetime] at free
      refine List.forall_mem_singleton.mpr ?_
      exact Bool.or_eq_false_iff.mpr ⟨(Bool.or_eq_false_iff.mp free).1, rfl⟩

/-- The parts of a function type that does not borrow do not borrow. -/
theorem fnPointer_children_free {binder : Option Binder} {isUnsafe : Bool} {abi : Option Abi}
    {params : List FnParam} {trailing : Bool} {variadic : List Token} {output : Option Ty}
    (ends : trailing = true ∨ variadic = [])
    (free : (ty (.fnPointer binder isUnsafe abi params trailing variadic output)).Free) :
    ∀ child ∈ (ty (.fnPointer binder isUnsafe abi params trailing variadic output)).children,
      child.Free := by
  change Token.anyBorrows (Ty.fnPointer binder isUnsafe abi params trailing variadic output).tokens =
    false at free
  simp only [Ty.tokens, List.append_assoc, List.cons_append, List.nil_append,
    paramsEach_eq_map] at free
  have free := Token.anyBorrows_of_append_right
    (Token.anyBorrows_of_append_right (Token.anyBorrows_of_append_right free))
  rw [Token.anyBorrows_word, Token.anyBorrows_group, Bool.or_eq_false_iff] at free
  have closed : trailing = true ∨ Token.startsStatic variadic = false := by
    obtain comma | rfl := ends
    · exact .inl comma
    · exact .inr rfl
  exact List.forall_mem_append.mpr
    ⟨free_of_separated free.1 closed, free_of_outputTokens free.2⟩

/-- **Parts do not borrow.** If the tokens of a legible type do not borrow, neither do those of its
parts. -/
theorem ty_children_free {t : Ty} (legible : (ty t).IsLegible) (free : (ty t).Free) :
    ∀ child ∈ (ty t).children, child.Free := by
  change Token.anyBorrows t.tokens = false at free
  cases t with
  | path p => exact List.forall_mem_singleton.mpr free
  | qualified self interface rest => exact qualified_children_free free
  | reference lifetime isMut target => exact reference_children_free free
  | pointer isMut target =>
      refine List.forall_mem_singleton.mpr ?_
      exact Token.anyBorrows_of_cons (Token.anyBorrows_of_cons free)
  | slice element =>
      rw [Ty.tokens, Token.anyBorrows_group, Bool.or_eq_false_iff] at free
      exact List.forall_mem_singleton.mpr free.1
  | array element length =>
      rw [Ty.tokens, Token.anyBorrows_group, Bool.or_eq_false_iff] at free
      exact List.forall_mem_singleton.mpr (Token.anyBorrows_of_append_left free.1 rfl)
  | tuple elements trailing =>
      rw [Ty.tokens, Token.anyBorrows_group, typesEach_eq_map, Bool.or_eq_false_iff] at free
      exact free_of_separated_end free.1
  | paren inner =>
      rw [Ty.tokens, Token.anyBorrows_group, Bool.or_eq_false_iff] at free
      exact List.forall_mem_singleton.mpr free.1
  | never => exact not_mem_nil_free
  | infer => exact not_mem_nil_free
  | fnPointer binder isUnsafe abi params trailing variadic output =>
      exact fnPointer_children_free legible free
  | object hasDyn bounds trailing =>
      rw [Ty.tokens, boundsEach_eq_map] at free
      exact free_of_separated_end (Token.anyBorrows_of_append_right free)
  | implTrait bounds trailing =>
      rw [Ty.tokens, boundsEach_eq_map] at free
      exact free_of_separated_end (Token.anyBorrows_of_cons free)
  | macroCall p arguments =>
      exact List.forall_mem_singleton.mpr (Token.anyBorrows_of_append_left free rfl)
  | other tokens => exact not_mem_nil_free

/-- **One step.** Written on their own, the children of a node do not borrow if the node does not. -/
theorem children_free {node : TypeNode} (legible : node.IsLegible) (free : node.Free) :
    ∀ child ∈ node.children, child.Free := by
  cases node with
  | ty t => exact ty_children_free legible free
  | param p =>
      obtain ⟨attributes, name, t⟩ := p
      change Token.anyBorrows (FnParam.mk attributes name t).tokens = false at free
      refine List.forall_mem_singleton.mpr ?_
      cases name with
      | none => exact Token.anyBorrows_of_append_right free
      | some name =>
          exact Token.anyBorrows_of_cons
            (Token.anyBorrows_of_cons (Token.anyBorrows_of_append_right free))
  | path p => exact path_children_free free
  | segment s => exact segment_children_free free
  | arguments a => exact arguments_children_free free
  | generic a => exact generic_children_free free
  | bound b => exact bound_children_free free
  | lifetime name => exact not_mem_nil_free

/-- **All parts.** Written on its own, no part of a node borrows if the node does not. -/
theorem Contains.free {outer inner : TypeNode} (part : outer.Contains inner)
    (legible : outer.Legible) (free : outer.Free) : inner.Free := by
  induction part with
  | refl => exact free
  | tail above listed ih => exact children_free (legible _ above) ih _ listed

end TypeNode

/-! ## Types that do not borrow -/

/-- All references and lifetimes in a type are `'static`: the nodes of its tree, and what its tokens
hold, of which some belong to no node. -/
structure Ty.BorrowsNothing (ty : Ty) : Prop where
  references : ∀ lifetime isMut target,
    (TypeNode.ty ty).Contains (.ty (.reference lifetime isMut target)) → lifetime = some "static"
  lifetimes : ∀ name, (TypeNode.ty ty).Contains (.lifetime name) → name = "static"
  lifetimeTokens : ∀ name, Token.Holds ty.tokens (.lifetime name) → name = "static"
  signs : ∀ text rest,
    Token.EndsIn (.op text :: rest) ty.tokens ∨ Token.EndsIn (.openOp text :: rest) ty.tokens →
      Token.IsStaticSign text rest

/-- A type whose tokens do not borrow does not. -/
theorem Ty.borrowsNothing {ty : Ty} (legible : (TypeNode.ty ty).Legible)
    (free : Token.anyBorrows ty.tokens = false) : ty.BorrowsNothing where
  references := by
    intro lifetime isMut target part
    have inside : Token.anyBorrows (Ty.reference lifetime isMut target).tokens = false :=
      part.free legible free
    rw [Ty.tokens, List.append_assoc, List.cons_append, Token.anyBorrows_cons,
      Token.borrows_sign, Bool.or_eq_false_iff, Bool.not_eq_eq_eq_not, Bool.not_false] at inside
    have static := inside.1
    cases lifetime with
    | some name => exact congrArg some (beq_iff_eq.mp static)
    | none =>
        -- What follows the sign is then `mut` or the type, and neither is a lifetime.
        cases isMut with
        | true => cases static
        | false =>
            have other : Token.startsStatic target.tokens = false := legible _ part
            cases other.symm.trans static
  lifetimes := by
    intro name part
    have inside : Token.anyBorrows [.lifetime name] = false := part.free legible free
    simpa using inside
  lifetimeTokens := (Token.anyBorrows_eq_false_iff.mp free).1
  signs := (Token.anyBorrows_eq_false_iff.mp free).2

end VariantMerge
