import VariantMerge.Proofs.Syntax.Types

/-!
# Types as they are written

A type is written with lifetimes before all other arguments (`Token.lifetimesFirst`). `Ty.normal` is the
type with its arguments in that order: it has the same tokens (`Ty.normal_tokens`), and these are its
arguments with commas between them, one after the other.
-/

namespace VariantMerge

namespace Token

variable {α : Type}

/-- The lifetimes before all others. -/
def lifetimesBefore (isLifetime : α → Bool) (items : List α) : List α :=
  items.filter isLifetime ++ items.filter (!isLifetime ·)

/-- Whether a separator comes last when the lifetimes stand before all others: it was there, or it
parted the last of the others from a lifetime. -/
def endsWithComma (isLifetime : α → Bool) (items : List α) (trailing : Bool) : Bool :=
  trailing || (items.any (!isLifetime ·) && items.getLast?.any isLifetime)

/-- Sorting lifetimes to the front goes through a map that keeps them apart. -/
theorem lifetimesBefore_map {β : Type} (f : α → β) (isLifetime : β → Bool) (items : List α) :
    (lifetimesBefore (fun item => isLifetime (f item)) items).map f =
      lifetimesBefore isLifetime (items.map f) := by
  simp only [lifetimesBefore, List.map_append, List.filter_map]
  rfl

/-- A map does not change whether a list ends with a comma. -/
theorem endsWithComma_map {β : Type} (f : α → β) (isLifetime : β → Bool) (items : List α)
    (trailing : Bool) : endsWithComma isLifetime (items.map f) trailing =
      endsWithComma (fun item => isLifetime (f item)) items trailing := by
  simp only [endsWithComma, List.any_map, List.getLast?_map, Option.any_map]
  rfl

/-- Sorting a sorted list changes nothing. -/
theorem lifetimesBefore_twice (isLifetime : α → Bool) (items : List α) :
    lifetimesBefore isLifetime (lifetimesBefore isLifetime items) = lifetimesBefore isLifetime items := by
  have none : List.filter (fun _ => false) items = [] := List.filter_eq_nil_iff.mpr fun _ _ => nofun
  simp [lifetimesBefore, List.filter_append, List.filter_filter, none]

/-- Sorting keeps all items. -/
@[simp]
theorem mem_lifetimesBefore {isLifetime : α → Bool} {items : List α} {item : α} :
    item ∈ lifetimesBefore isLifetime items ↔ item ∈ items := by
  cases kind : isLifetime item <;> simp [lifetimesBefore, kind]

/-- Sorting keeps a list from being empty. -/
theorem lifetimesBefore_eq_nil_iff {isLifetime : α → Bool} {items : List α} :
    lifetimesBefore isLifetime items = [] ↔ items = [] := by
  simp only [List.eq_nil_iff_forall_not_mem, mem_lifetimesBefore]

/-- An empty list that is not followed by anything has its comma. -/
theorem endsWithComma_of_empty {isLifetime : α → Bool} {items : List α} {trailing : Bool}
    (empty : items = [] → trailing = true) (nothing : items = []) :
    endsWithComma isLifetime items trailing = true := by
  rw [endsWithComma, empty nothing, Bool.true_or]

/-- In their new order, no lifetime comes last but for lifetimes alone. -/
theorem endsWithComma_twice (isLifetime : α → Bool) (items : List α) (trailing : Bool) :
    endsWithComma isLifetime (lifetimesBefore isLifetime items) trailing = trailing := by
  rw [endsWithComma, lifetimesBefore]
  cases others : items.filter (!isLifetime ·) with
  | nil => simp
  | cons first rest =>
      have all : ∀ item ∈ first :: rest, isLifetime item = false := fun item listed => by
        rw [← others] at listed
        simpa using (List.mem_filter.mp listed).2
      have last : (first :: rest).getLast? = some ((first :: rest).getLast nofun) :=
        List.getLast?_eq_some_getLast _
      rw [List.getLast?_append, last, Option.some_or, Option.any_some,
        all _ (List.getLast_mem _), Bool.and_false, Bool.or_false]

/-- Two lists become one if the first of them ends with a separator. -/
theorem separated_append (separator : String) (trailing : Bool) {front back : List (List Token)}
    (some_ : back ≠ []) : separated separator true front ++ separated separator trailing back =
      separated separator trailing (front ++ back) := by
  induction front with
  | nil => rfl
  | cons part front ih =>
      cases front with
      | nil =>
          obtain ⟨next, rest, rfl⟩ := List.exists_cons_of_ne_nil some_
          simp [separated]
      | cons next rest =>
          rw [separated, List.append_assoc, List.cons_append, ih]
          rfl

/-- Parts with the lifetimes in front are these in their new order. -/
theorem lifetimesFirst_eq (trailing : Bool) (parts : List (Bool × List Token)) :
    lifetimesFirst trailing parts =
      separated "," (endsWithComma (·.1) parts trailing) ((lifetimesBefore (·.1) parts).map (·.2)) := by
  rw [lifetimesFirst.eq_def, lifetimesBefore, List.map_append]
  have others : parts.any (!·.1) = !(parts.filter (!·.1)).isEmpty := by
    rw [Bool.eq_iff_iff, List.any_eq_true]
    simp [List.filter_eq_nil_iff]
  cases kept : parts.filter (!·.1) with
  | nil =>
      rw [endsWithComma, others, kept]
      simp
  | cons part rest =>
      rw [endsWithComma, others, kept]
      cases last : parts.getLast? with
      | none =>
          rw [List.getLast?_eq_none_iff.mp last] at kept
          cases kept
      | some part =>
          obtain ⟨isLifetime, tokens⟩ := part
          cases isLifetime <;> simp [separated_append]

/-- Parts in their new order stay in it. -/
theorem lifetimesFirst_ordered (trailing : Bool) (parts : List (Bool × List Token)) :
    lifetimesFirst trailing (lifetimesBefore (·.1) parts) =
      separated "," trailing ((lifetimesBefore (·.1) parts).map (·.2)) := by
  rw [lifetimesFirst_eq, lifetimesBefore_twice, endsWithComma_twice]

end Token

mutual

/-- The type with its arguments in the order in which they are written. -/
def Ty.normal : Ty → Ty
  | .path path => .path path.normal
  | .qualified self interface rest =>
    .qualified self.normal (interfaceNormal interface) (segmentsNormal rest)
  | .reference lifetime isMut target => .reference lifetime isMut target.normal
  | .pointer isMut target => .pointer isMut target.normal
  | .slice element => .slice element.normal
  | .array element length => .array element.normal length
  | .tuple elements trailing => .tuple (typesNormal elements) trailing
  | .paren inner => .paren inner.normal
  | .never => .never
  | .infer => .infer
  | .fnPointer binder isUnsafe abi params trailing variadic output =>
    .fnPointer binder isUnsafe abi (paramsNormal params) trailing variadic (outputNormal output)
  | .object hasDyn bounds trailing => .object hasDyn (boundsNormal bounds) trailing
  | .implTrait bounds trailing => .implTrait (boundsNormal bounds) trailing
  | .macroCall path arguments => .macroCall path.normal arguments
  | .other tokens => .other tokens

def interfaceNormal : Option Path → Option Path
  | .none => .none
  | .some path => .some path.normal

def outputNormal : Option Ty → Option Ty
  | .none => .none
  | .some ty => .some ty.normal

def typesNormal : List Ty → List Ty
  | [] => []
  | ty :: rest => ty.normal :: typesNormal rest

def FnParam.normal : FnParam → FnParam
  | .mk attributes name ty => .mk attributes name ty.normal

def paramsNormal : List FnParam → List FnParam
  | [] => []
  | param :: rest => param.normal :: paramsNormal rest

def Path.normal : Path → Path
  | .mk leading segments => .mk leading (segmentsNormal segments)

def Segment.normal : Segment → Segment
  | .mk name arguments => .mk name arguments.normal

def segmentsNormal : List Segment → List Segment
  | [] => []
  | segment :: rest => segment.normal :: segmentsNormal rest

/-- Lifetimes come before all other arguments. -/
def Arguments.normal : Arguments → Arguments
  | .none => .none
  | .angle turbofish arguments trailing =>
    .angle turbofish (Token.lifetimesBefore (·.tokens.1) (genericsNormal arguments))
      (Token.endsWithComma (·.tokens.1) arguments trailing)
  | .paren inputs trailing output => .paren (typesNormal inputs) trailing (outputNormal output)

def GenericArg.normal : GenericArg → GenericArg
  | .lifetime name => .lifetime name
  | .type ty => .type ty.normal
  | .const value => .const value
  | .assocType name arguments ty => .assocType name arguments.normal ty.normal
  | .assocConst name arguments value => .assocConst name arguments.normal value
  | .constraint name arguments bounds trailing =>
    .constraint name arguments.normal (boundsNormal bounds) trailing

def genericsNormal : List GenericArg → List GenericArg
  | [] => []
  | argument :: rest => argument.normal :: genericsNormal rest

/-- Lifetimes come before all other parameters that are captured. -/
def Bound.normal : Bound → Bound
  | .trait parens maybe binder path => .trait parens maybe binder path.normal
  | .lifetime name => .lifetime name
  | .capture params trailing =>
    .capture (Token.lifetimesBefore (·.1) params) (Token.endsWithComma (·.1) params trailing)
  | .other tokens => .other tokens

def boundsNormal : List Bound → List Bound
  | [] => []
  | bound :: rest => bound.normal :: boundsNormal rest

end
/-! ## Lists of nodes -/

/-- Each type of a list is put in order by itself. -/
theorem typesNormal_eq_map (types : List Ty) : typesNormal types = types.map Ty.normal := by
  induction types with
  | nil => rfl
  | cons first rest ih => rw [typesNormal, ih, List.map_cons]

/-- Each parameter is put in order by itself. -/
theorem paramsNormal_eq_map (params : List FnParam) :
    paramsNormal params = params.map FnParam.normal := by
  induction params with
  | nil => rfl
  | cons first rest ih => rw [paramsNormal, ih, List.map_cons]

/-- Each segment is put in order by itself. -/
theorem segmentsNormal_eq_map (segments : List Segment) :
    segmentsNormal segments = segments.map Segment.normal := by
  induction segments with
  | nil => rfl
  | cons first rest ih => rw [segmentsNormal, ih, List.map_cons]

/-- Each argument is put in order by itself. -/
theorem genericsNormal_eq_map (arguments : List GenericArg) :
    genericsNormal arguments = arguments.map GenericArg.normal := by
  induction arguments with
  | nil => rfl
  | cons first rest ih => rw [genericsNormal, ih, List.map_cons]

/-- Each bound is put in order by itself. -/
theorem boundsNormal_eq_map (bounds : List Bound) : boundsNormal bounds = bounds.map Bound.normal := by
  induction bounds with
  | nil => rfl
  | cons first rest ih => rw [boundsNormal, ih, List.map_cons]

/-! ## The tokens stay -/

mutual

/-- **The order of arguments does not change the tokens.** -/
theorem Ty.normal_tokens : ∀ ty : Ty, ty.normal.tokens = ty.tokens
  | .path path => by rw [Ty.normal, Ty.tokens, Ty.tokens, path.normal_tokens]
  | .qualified self interface rest => by
      rw [Ty.normal, Ty.tokens, Ty.tokens, self.normal_tokens, interfaceNormal_tokens interface,
        segmentsNormal_tokens rest]
  | .reference lifetime isMut target => by
      rw [Ty.normal, Ty.tokens, Ty.tokens, target.normal_tokens]
  | .pointer isMut target => by rw [Ty.normal, Ty.tokens, Ty.tokens, target.normal_tokens]
  | .slice element => by rw [Ty.normal, Ty.tokens, Ty.tokens, element.normal_tokens]
  | .array element length => by rw [Ty.normal, Ty.tokens, Ty.tokens, element.normal_tokens]
  | .tuple elements trailing => by
      rw [Ty.normal, Ty.tokens, Ty.tokens, typesNormal_tokens elements]
  | .paren inner => by rw [Ty.normal, Ty.tokens, Ty.tokens, inner.normal_tokens]
  | .never => rfl
  | .infer => rfl
  | .fnPointer binder isUnsafe abi params trailing variadic output => by
      rw [Ty.normal, Ty.tokens, Ty.tokens, paramsNormal_tokens params, outputNormal_tokens output]
  | .object hasDyn bounds trailing => by
      rw [Ty.normal, Ty.tokens, Ty.tokens, boundsNormal_tokens bounds]
  | .implTrait bounds trailing => by
      rw [Ty.normal, Ty.tokens, Ty.tokens, boundsNormal_tokens bounds]
  | .macroCall path arguments => by rw [Ty.normal, Ty.tokens, Ty.tokens, path.normal_tokens]
  | .other tokens => rfl

/-- The trait of a qualified path prints as before. -/
theorem interfaceNormal_tokens :
    ∀ interface : Option Path, interfaceTokens (interfaceNormal interface) = interfaceTokens interface
  | .none => rfl
  | .some path => by rw [interfaceNormal, interfaceTokens, interfaceTokens, path.normal_tokens]

/-- A result type prints as before. -/
theorem outputNormal_tokens :
    ∀ output : Option Ty, outputTokens (outputNormal output) = outputTokens output
  | .none => rfl
  | .some ty => by rw [outputNormal, outputTokens, outputTokens, ty.normal_tokens]

/-- Types of a list print as before. -/
theorem typesNormal_tokens : ∀ types : List Ty, typesEach (typesNormal types) = typesEach types
  | [] => rfl
  | ty :: rest => by
      rw [typesNormal, typesEach, typesEach, ty.normal_tokens, typesNormal_tokens rest]

/-- A parameter prints as before. -/
theorem FnParam.normal_tokens : ∀ param : FnParam, param.normal.tokens = param.tokens
  | .mk attributes .none ty => by
      rw [FnParam.normal, FnParam.tokens, FnParam.tokens, ty.normal_tokens]
  | .mk attributes (.some name) ty => by
      rw [FnParam.normal, FnParam.tokens, FnParam.tokens, ty.normal_tokens]

/-- Parameters print as before. -/
theorem paramsNormal_tokens :
    ∀ params : List FnParam, paramsEach (paramsNormal params) = paramsEach params
  | [] => rfl
  | param :: rest => by
      rw [paramsNormal, paramsEach, paramsEach, param.normal_tokens, paramsNormal_tokens rest]

/-- A path prints as before. -/
theorem Path.normal_tokens : ∀ path : Path, path.normal.tokens = path.tokens
  | .mk leading segments => by
      rw [Path.normal, Path.tokens, Path.tokens, segmentsNormal_tokens segments]

/-- A segment prints as before. -/
theorem Segment.normal_tokens : ∀ segment : Segment, segment.normal.tokens = segment.tokens
  | .mk name arguments => by
      rw [Segment.normal, Segment.tokens, Segment.tokens, arguments.normal_tokens]

/-- Segments print as before. -/
theorem segmentsNormal_tokens :
    ∀ segments : List Segment, segmentsEach (segmentsNormal segments) = segmentsEach segments
  | [] => rfl
  | segment :: rest => by
      rw [segmentsNormal, segmentsEach, segmentsEach, segment.normal_tokens,
        segmentsNormal_tokens rest]

/-- Arguments print as before, since lifetimes are printed first anyway. -/
theorem Arguments.normal_tokens : ∀ arguments : Arguments, arguments.normal.tokens = arguments.tokens
  | .none => rfl
  | .angle turbofish arguments trailing => by
      have each := genericsNormal_tokens arguments
      rw [TypeNode.genericsEach_eq_map, TypeNode.genericsEach_eq_map] at each
      rw [Arguments.normal, Arguments.tokens, Arguments.tokens, Token.lifetimesFirst_eq,
        Token.lifetimesFirst_eq, TypeNode.genericsEach_eq_map, TypeNode.genericsEach_eq_map,
        Token.lifetimesBefore_map GenericArg.tokens (·.1), each, Token.lifetimesBefore_twice,
        Token.endsWithComma_twice, Token.endsWithComma_map]
  | .paren inputs trailing output => by
      rw [Arguments.normal, Arguments.tokens, Arguments.tokens, typesNormal_tokens inputs,
        outputNormal_tokens output]

/-- An argument prints as before. -/
theorem GenericArg.normal_tokens :
    ∀ argument : GenericArg, argument.normal.tokens = argument.tokens
  | .lifetime name => rfl
  | .type ty => by rw [GenericArg.normal, GenericArg.tokens, GenericArg.tokens, ty.normal_tokens]
  | .const value => rfl
  | .assocType name arguments ty => by
      rw [GenericArg.normal, GenericArg.tokens, GenericArg.tokens, arguments.normal_tokens,
        ty.normal_tokens]
  | .assocConst name arguments value => by
      rw [GenericArg.normal, GenericArg.tokens, GenericArg.tokens, arguments.normal_tokens]
  | .constraint name arguments bounds trailing => by
      rw [GenericArg.normal, GenericArg.tokens, GenericArg.tokens, arguments.normal_tokens,
        boundsNormal_tokens bounds]

/-- Arguments of a list print as before. -/
theorem genericsNormal_tokens : ∀ arguments : List GenericArg,
    genericsEach (genericsNormal arguments) = genericsEach arguments
  | [] => rfl
  | argument :: rest => by
      rw [genericsNormal, genericsEach, genericsEach, argument.normal_tokens,
        genericsNormal_tokens rest]

/-- A bound prints as before. -/
theorem Bound.normal_tokens : ∀ bound : Bound, bound.normal.tokens = bound.tokens
  | .trait parens maybe binder path => by
      rw [Bound.normal, Bound.tokens, Bound.tokens, path.normal_tokens]
  | .lifetime name => rfl
  | .capture params trailing => by
      rw [Bound.normal, Bound.tokens, Bound.tokens, Token.lifetimesFirst_eq,
        Token.lifetimesFirst_eq, Token.lifetimesBefore_twice, Token.endsWithComma_twice]
  | .other tokens => rfl

/-- Bounds of a list print as before. -/
theorem boundsNormal_tokens :
    ∀ bounds : List Bound, boundsEach (boundsNormal bounds) = boundsEach bounds
  | [] => rfl
  | bound :: rest => by
      rw [boundsNormal, boundsEach, boundsEach, bound.normal_tokens, boundsNormal_tokens rest]

end

end VariantMerge
