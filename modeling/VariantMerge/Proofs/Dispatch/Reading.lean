import VariantMerge.Proofs.Emit.Reading
import VariantMerge.Proofs.Emit.Trees

/-!
# Reading emitted dispatch

The lines of an arm are read as the steps that they stand for, and the body of a method as a `match` with
its arms (`DispatchMethod.ofCode?`). Names are told from what stands around them by their characters, so
whatever is emitted for names is read as what was meant (`DispatchMethod.ofCode?_code`): no step is lost,
added or taken for another one.
-/

namespace VariantMerge

open LineReader

/-! ## Readers -/

namespace Call

/-- Reads the generic arguments of a call, which may be missing. -/
def readGenerics : LineReader (List String) := do
  if ← perhaps "::<" then
    let first ← word
    let others ← namesAfterCommas
    exactly ">"
    return first :: others
  else return []

/-- Reads the sign in front of the instance. -/
def readReceiver : LineReader ReceiverKind := do
  if ← perhaps "&" then
    if ← perhaps "mut " then return .exclusive else return .shared
  else return .value

/-- Reads a call on the instance as a safe method is called. -/
def readPlain : LineReader Call := do
  exactly "<"
  let variant ← named " as "
  let interface ← named ">::"
  let method ← word
  let generics ← readGenerics
  exactly "("
  let receiver ← readReceiver
  exactly Dispatch.instanceName
  let arguments ← namesAfterCommas
  exactly ")"
  return { variant, interface, method, generics, receiver, arguments, isUnsafe := false }

/-- Reads a call on the instance. -/
def read : LineReader Call := do
  if ← perhaps "unsafe \x7b " then
    let call ← readPlain
    exactly " \x7d"
    return { call with isUnsafe := true }
  else readPlain

end Call

namespace ArmStep

/-- Reads the beginning of a binding, and whether what it binds is mutable. -/
def readBinding : LineReader Bool := do
  exactly "let "
  perhaps "mut "

/-- Reads the receiver that a routine is called with, and whether it refers to a copy. -/
def readSelf : LineReader Bool := do
  if ← perhaps "(&self)" then return true
  else
    exactly "(self)"
    return false

/-- Reads a binding of the instance. -/
def readRebuild : LineReader ArmStep := do
  let isMut ← readBinding
  exactly Dispatch.instanceName
  exactly " = "
  let variant ← named "::"
  let routine ← word
  let fromCopy ← readSelf
  exactly ";"
  return .rebuild variant routine isMut fromCopy

/-- Reads a binding of the result. -/
def readBindResult : LineReader ArmStep := do
  let _ ← readBinding
  exactly Dispatch.resultName
  exactly " = "
  let call ← Call.read
  exactly ";"
  return .bindResult call

/-- Reads a call of a routine on the instance. -/
def readWriteBack : LineReader ArmStep := do
  exactly Dispatch.instanceName
  exactly "."
  let routine ← named "(self);"
  return .writeBack routine

/-- Reads a result that has been bound. -/
def readYieldResult : LineReader ArmStep := do
  exactly Dispatch.resultName
  return .yieldResult

/-- Reads a call as a statement or as the value of the arm. -/
def readCall : LineReader ArmStep := do
  let call ← Call.read
  if ← perhaps ";" then return .perform call else return .yieldCall call

/-- The step that a line stands for. -/
def read? (line : String) : Option ArmStep :=
  (readRebuild <|> readBindResult <|> readWriteBack <|> readYieldResult <|> readCall).run? line

/-- The step that a piece of code stands for, which is one line. -/
def ofCode? : Code → Option ArmStep
  | .line text => read? text
  | _ => none

end ArmStep

/-- The arm for a variant with its steps. -/
def Arm.ofCode? (typeIdName : String) : Code → Option Arm
  | .scope header body => do
    let variant ← (do
      exactly (Dispatch.someVariant ++ "(" ++ typeIdName ++ "::")
      named ") =>").run? header
    let steps ← body.mapM ArmStep.ofCode?
    return ⟨variant, steps⟩
  | _ => none

namespace Fallback

/-- Reads a line that resets a parameter. -/
def readReset : LineReader String := do
  exactly "*"
  named (" = " ++ Dispatch.defaultValue ++ ";")

/-- The parameters that lines reset, and whether a default value is yielded after that. -/
def readLines? : List Code → Option (List String × Bool)
  | [] => some ([], false)
  | .line text :: rest =>
    if text = Dispatch.defaultValue then
      if rest.isEmpty then some ([], true) else none
    else do
      let name ← readReset.run? text
      let (others, yieldsDefault) ← readLines? rest
      return (name :: others, yieldsDefault)
  | _ => none

/-- The arm for no variant. -/
def ofCode? : Code → Option Fallback
  | .line text =>
    if text = Dispatch.noVariant ++ " => \x7b\x7d" then some ⟨[], false⟩ else none
  | .scope header body =>
    if header = Dispatch.noVariant ++ " =>" then
      (readLines? body).map fun (resets, yieldsDefault) => ⟨resets, yieldsDefault⟩
    else none
  | .blank => none

end Fallback

/-- A method whose body is a `match` on a field: the field, and the method with its arms. -/
def DispatchMethod.ofCode? (typeIdName : String) : Code → Option (String × DispatchMethod)
  | .scope head [.scope selector arms] => do
    let field ← (do
      exactly "match self."
      remaining).run? selector
    let fallback ← arms.getLast?.bind Fallback.ofCode?
    let arms ← arms.dropLast.mapM (Arm.ofCode? typeIdName)
    return (field, ⟨head, arms, fallback⟩)
  | _ => none

/-! ## Named code -/

/-- All names in the call are made of characters of names. -/
structure Call.IsNamed (call : Call) : Prop where
  variant : Text.isNameText call.variant = true
  interface : Text.isNameText call.interface = true
  method : Text.isNameText call.method = true
  generics : ∀ name ∈ call.generics, Text.isNameText name = true
  arguments : ∀ name ∈ call.arguments, Text.isNameText name = true

/-- All names in the step are made of characters of names. -/
def ArmStep.IsNamed : ArmStep → Prop
  | .rebuild variant routine _ _ =>
    Text.isNameText variant = true ∧ Text.isNameText routine = true
  | .bindResult call | .perform call | .yieldCall call => call.IsNamed
  | .writeBack routine => Text.isNameText routine = true
  | .yieldResult => True

/-- All names in the arm are made of characters of names. -/
structure Arm.IsNamed (arm : Arm) : Prop where
  variant : Text.isNameText arm.variant = true
  steps : ∀ step ∈ arm.steps, step.IsNamed

/-- All names in the method's arms are made of characters of names. -/
structure DispatchMethod.IsNamed (method : DispatchMethod) : Prop where
  arms : ∀ arm ∈ method.arms, arm.IsNamed
  resets : ∀ name ∈ method.fallback.resets, Text.isNameText name = true

/-! ## Calls -/

namespace Call

/-- The generic arguments are read up to the parenthesis after them. -/
theorem readGenerics_append {generics : List String}
    (plain : ∀ name ∈ generics, Text.isNameText name = true) (rest : List Char) :
    readGenerics ((genericsText generics).toList ++ ("(".toList ++ rest)) =
      some (generics, "(".toList ++ rest) := by
  cases generics with
  | nil => exact bind_eq (perhaps_clash (by decide) rest)
  | cons first others =>
      obtain ⟨here, plain⟩ := List.forall_mem_cons.mp plain
      have closing : Stops ">" := by decide
      have stops := stops_afterCommas closing others ("(".toList ++ rest)
      simp only [genericsText, List.isEmpty_cons, Bool.false_eq_true, if_false,
        String.toList_append, intercalate_eq, List.append_assoc]
      simp only [readGenerics, bind_run, perhaps_append, Option.bind_some, if_true,
        word_append here stops, namesAfterCommas_append plain closing (by decide), exactly_append,
        pure_run]

/-- What stands in front of the instance tells the receiver. -/
theorem readReceiver_append (receiver : ReceiverKind) (rest : List Char) :
    readReceiver ((receiverText receiver).toList ++ rest) =
      some (receiver, Dispatch.instanceName.toList ++ rest) := by
  have clash : Clash "mut " Dispatch.instanceName := by decide
  have unmarked : Clash "&" Dispatch.instanceName := by decide
  cases receiver with
  | shared =>
      simp only [receiverText, String.toList_append, List.append_assoc, readReceiver, bind_run,
        perhaps_append, Option.bind_some, if_true, perhaps_clash clash, Bool.false_eq_true, if_false,
        pure_run]
  | exclusive =>
      have both : "&mut " = "&" ++ "mut " := rfl
      simp only [receiverText, both, String.toList_append, List.append_assoc, readReceiver, bind_run,
        perhaps_append, Option.bind_some, if_true, pure_run]
  | value =>
      simp only [receiverText, readReceiver, bind_run, perhaps_clash unmarked, Option.bind_some,
        Bool.false_eq_true, if_false, pure_run]

/-- A call outside an unsafe block is read part by part. -/
theorem readPlain_append {call : Call} (names : call.IsNamed) (rest : List Char) :
    readPlain (call.plainText.toList ++ rest) = some ({ call with isUnsafe := false }, rest) := by
  have closing : Stops ")" := by decide
  -- The method's name ends at the parenthesis, or at the colons of its generic arguments.
  have behindMethod (later : List Char) :
      ∀ c ∈ ((genericsText call.generics).toList ++ ("(".toList ++ later)).head?,
        Text.isNameChar c = false := by
    intro c first
    unfold genericsText at first
    split at first
    · obtain rfl : '(' = c := Option.some.inj first
      decide
    · simp only [String.toList_append, List.append_assoc] at first
      obtain rfl : ':' = c := Option.some.inj first
      decide
  simp only [plainText, String.toList_append, intercalate_eq, List.append_assoc]
  simp only [readPlain, bind_run, exactly_append, Option.bind_some,
    named_append names.variant (show Stops " as " by decide),
    named_append names.interface (show Stops ">::" by decide),
    word_append names.method (behindMethod _), readGenerics_append names.generics,
    readReceiver_append, namesAfterCommas_append names.arguments closing (by decide), pure_run]

/-- **A call is read as it was written.** -/
theorem read_append {call : Call} (names : call.IsNamed) (rest : List Char) :
    read (call.text.toList ++ rest) = some (call, rest) := by
  unfold text
  cases isUnsafe : call.isUnsafe with
  | true =>
      simp only [if_true, String.toList_append, List.append_assoc]
      simp only [read, bind_run, perhaps_append, Option.bind_some, if_true,
        readPlain_append names, exactly_append, pure_run, ← isUnsafe]
  | false =>
      have safe : Clash "unsafe \x7b " "<" := by decide
      have plain := readPlain_append names rest
      rw [← isUnsafe] at plain
      simp only [Bool.false_eq_true, if_false]
      simp only [plainText, String.toList_append, List.append_assoc] at plain ⊢
      simp only [read, bind_run, perhaps_clash safe, Option.bind_some, Bool.false_eq_true,
        if_false, plain]

/-- What a call starts with: no other step does. -/
theorem text_starts (call : Call) : ∃ start ∈ ["<", "unsafe \x7b "], ∃ rest,
    call.text.toList = start.toList ++ rest := by
  unfold text
  split
  · exact ⟨"unsafe \x7b ", by simp, _, by simp only [String.toList_append, List.append_assoc]; rfl⟩
  · exact ⟨"<", by simp, _, by simp only [plainText, String.toList_append, List.append_assoc]; rfl⟩

end Call

/-! ## Steps -/

namespace ArmStep

/-- A binding is read with its mark, if the name does not look like one. -/
theorem readBinding_append (isMut : Bool) {name : String} (unmarked : Clash "mut " name)
    (rest : List Char) :
    readBinding ((if isMut then "let mut " else "let ").toList ++ (name.toList ++ rest)) =
      some (isMut, name.toList ++ rest) := by
  have both : "let mut " = "let " ++ "mut " := rfl
  cases isMut with
  | true =>
      simp only [if_true, both, String.toList_append, List.append_assoc, readBinding, bind_run,
        exactly_append, Option.bind_some, perhaps_append]
  | false =>
      simp only [Bool.false_eq_true, if_false, readBinding, bind_run, exactly_append,
        Option.bind_some, perhaps_clash unmarked]

/-- The merged value is passed by itself, or a copy of it by reference. -/
theorem readSelf_append (fromCopy : Bool) (rest : List Char) :
    readSelf ((if fromCopy then "(&self)" else "(self)").toList ++ rest) =
      some (fromCopy, rest) := by
  have own : Clash "(&self)" "(self)" := by decide
  cases fromCopy with
  | true => simp only [if_true, readSelf, bind_run, perhaps_append, Option.bind_some, pure_run]
  | false =>
      simp only [Bool.false_eq_true, if_false, readSelf, bind_run, perhaps_clash own,
        Option.bind_some, exactly_append, pure_run]

/-- The binding of the instance is read. -/
theorem readRebuild_text {variant routine : String} {isMut fromCopy : Bool}
    (names : IsNamed (.rebuild variant routine isMut fromCopy)) :
    readRebuild (text (.rebuild variant routine isMut fromCopy)).toList =
      some (.rebuild variant routine isMut fromCopy, []) := by
  have stops (rest : List Char) : ∀ c ∈
      ((if fromCopy = true then "(&self)" else "(self)").toList ++ rest).head?,
        Text.isNameChar c = false := by
    intro c first
    cases fromCopy <;>
    · obtain rfl : '(' = c := Option.some.inj first
      decide
  have unmarked : Clash "mut " Dispatch.instanceName := by decide
  rw [← List.append_nil (text _).toList]
  simp only [text, SourceWriter.bindingText, String.toList_append, List.append_assoc]
  simp only [readRebuild, bind_run, readBinding_append isMut unmarked,
    exactly_append, Option.bind_some, named_append names.1 (show Stops "::" by decide),
    word_append names.2 (stops _), readSelf_append, pure_run]

/-- The binding of the result is read. -/
theorem readBindResult_text {call : Call} (names : call.IsNamed) :
    readBindResult (text (.bindResult call)).toList = some (.bindResult call, []) := by
  have unmarked : Clash "mut " Dispatch.resultName := by decide
  rw [← List.append_nil (text _).toList]
  simp only [text, SourceWriter.bindingText, String.toList_append, List.append_assoc]
  simp only [readBindResult, bind_run, readBinding_append false unmarked,
    exactly_append, Option.bind_some, Call.read_append names, pure_run]

/-- The call that writes the instance back is read. -/
theorem readWriteBack_text {routine : String} (plain : Text.isNameText routine = true) :
    readWriteBack (text (.writeBack routine)).toList = some (.writeBack routine, []) := by
  rw [← List.append_nil (text _).toList]
  simp only [text, String.toList_append, List.append_assoc]
  simp only [readWriteBack, bind_run, exactly_append, Option.bind_some,
    named_append plain (show Stops "(self);" by decide), pure_run]

/-- A call as a statement is read by its semicolon. -/
theorem readCall_perform {call : Call} (names : call.IsNamed) :
    readCall (text (.perform call)).toList = some (.perform call, []) := by
  rw [← List.append_nil (text _).toList]
  simp only [text, String.toList_append, List.append_assoc]
  simp only [readCall, bind_run, Call.read_append names, Option.bind_some, perhaps_append, if_true,
    pure_run]

/-- A call without a semicolon is the value of the arm. -/
theorem readCall_yieldCall {call : Call} (names : call.IsNamed) :
    readCall (text (.yieldCall call)).toList = some (.yieldCall call, []) := by
  have none_ : perhaps ";" [] = some (false, []) := rfl
  rw [text, ← List.append_nil call.text.toList]
  simp only [readCall, bind_run, Call.read_append names, Option.bind_some, none_,
    Bool.false_eq_true, if_false, pure_run]

/-- A line that starts with another text is no binding. -/
theorem readBinding_clash {start : String} (clash : Clash "let " start) (rest : List Char) :
    readRebuild (start.toList ++ rest) = none ∧ readBindResult (start.toList ++ rest) = none := by
  have refused : readBinding (start.toList ++ rest) = none := bind_eq_none (exactly_clash clash rest)
  exact ⟨bind_eq_none refused, bind_eq_none refused⟩

/-- A binding of the result is none of the instance. -/
theorem readRebuild_bindResult (call : Call) :
    readRebuild (text (.bindResult call)).toList = none := by
  have unmarked : Clash "mut " Dispatch.resultName := by decide
  have other : Clash Dispatch.instanceName Dispatch.resultName := by decide
  simp only [text, SourceWriter.bindingText, String.toList_append, List.append_assoc]
  exact (bind_eq (readBinding_append false unmarked _)).trans
    (bind_eq_none (exactly_clash other _))

/-- A line that starts with a call is read as one. -/
theorem read_of_call {start : String} (starts : start ∈ ["<", "unsafe \x7b "]) (rest : List Char) :
    (readRebuild <|> readBindResult <|> readWriteBack <|> readYieldResult <|> readCall)
      (start.toList ++ rest) = readCall (start.toList ++ rest) := by
  have clashes : ∀ start ∈ ["<", "unsafe \x7b "], Clash "let " start ∧
      Clash Dispatch.instanceName start ∧ Clash Dispatch.resultName start := by decide
  obtain ⟨binding, instance_, result⟩ := clashes start starts
  obtain ⟨first, second⟩ := readBinding_clash binding rest
  have third : readWriteBack (start.toList ++ rest) = none :=
    bind_eq_none (exactly_clash instance_ rest)
  have fourth : readYieldResult (start.toList ++ rest) = none :=
    bind_eq_none (exactly_clash result rest)
  rw [orElse_eq first, orElse_eq second, orElse_eq third, orElse_eq fourth]

/-- **A step is read as it was written.** -/
theorem read?_text {step : ArmStep} (names : step.IsNamed) : read? step.text = some step := by
  refine run?_eq_some ?_
  cases step with
  | rebuild variant routine isMut fromCopy => exact orElse_eq_some (readRebuild_text names)
  | bindResult call =>
      rw [orElse_eq (readRebuild_bindResult call)]
      exact orElse_eq_some (readBindResult_text names)
  | writeBack routine =>
      have binding : Clash "let " Dispatch.instanceName := by decide
      obtain ⟨first, second⟩ := readBinding_clash binding ("." ++ routine ++ "(self);").toList
      have whole : (text (.writeBack routine)).toList =
          Dispatch.instanceName.toList ++ ("." ++ routine ++ "(self);").toList := by
        simp only [text, String.toList_append, List.append_assoc]
      have read := readWriteBack_text names
      rw [whole] at read ⊢
      rw [orElse_eq first, orElse_eq second]
      exact orElse_eq_some read
  | yieldResult => decide
  | perform call =>
      obtain ⟨start, starts, rest, whole⟩ := call.text_starts
      have read := readCall_perform names
      have line : (text (.perform call)).toList = start.toList ++ (rest ++ ";".toList) := by
        rw [text, String.toList_append, whole, List.append_assoc]
      rw [line] at read ⊢
      exact (read_of_call starts _).trans read
  | yieldCall call =>
      obtain ⟨start, starts, rest, whole⟩ := call.text_starts
      have read := readCall_yieldCall names
      rw [text, whole] at read ⊢
      exact (read_of_call starts _).trans read

end ArmStep

/-! ## Arms and methods -/

/-- **An arm is read as it was written.** -/
theorem Arm.ofCode?_code {arm : Arm} (names : arm.IsNamed) (typeIdName : String) :
    Arm.ofCode? typeIdName (arm.code typeIdName) = some arm := by
  have closing : Stops ") =>" := by decide
  have head : (exactly (Dispatch.someVariant ++ "(" ++ typeIdName ++ "::") >>= fun _ =>
      named ") =>").run? (headText typeIdName arm.variant) = some arm.variant := by
    refine run?_eq_some ?_
    have whole : (headText typeIdName arm.variant).toList =
        (Dispatch.someVariant ++ "(" ++ typeIdName ++ "::").toList ++
          (arm.variant.toList ++ (") =>".toList ++ [])) := by
      simp only [headText, String.toList_append, List.append_assoc, List.append_nil]
    rw [whole]
    exact (bind_eq (exactly_append _ _)).trans (named_append names.variant closing [])
  have steps : (arm.steps.map fun step => Code.line step.text).mapM ArmStep.ofCode? =
      some arm.steps := mapM_map_eq_some fun step mem => ArmStep.read?_text (names.steps step mem)
  rw [code, ofCode?, head]
  simp only [Option.bind_eq_bind, Option.bind_some, steps, pure]

namespace Fallback

/-- An assignment of a default is read. -/
theorem readReset_text {name : String} (plain : Text.isNameText name = true) :
    readReset.run? (resetText name) = some name := by
  have stops : Stops (" = " ++ Dispatch.defaultValue ++ ";") := by decide
  have whole : (resetText name).toList =
      "*".toList ++ (name.toList ++ ((" = " ++ Dispatch.defaultValue ++ ";").toList ++ [])) := by
    simp only [resetText, String.toList_append, List.append_assoc, List.append_nil]
  refine run?_eq_some ?_
  rw [whole]
  exact (bind_eq (exactly_append "*" _)).trans (named_append plain stops [])

/-- A reset is no default value. -/
theorem resetText_ne (name : String) : resetText name ≠ Dispatch.defaultValue := by
  intro same
  have first := congrArg (fun text : String => text.toList.head?) same
  simp only [resetText, String.toList_append, List.append_assoc] at first
  exact absurd (Option.some.inj first) (by decide)

/-- The resets are read up to the default that is yielded, if one is. -/
theorem readLines?_code {resets : List String}
    (plain : ∀ name ∈ resets, Text.isNameText name = true) (yieldsDefault : Bool) :
    readLines? ((resets.map fun name => .line (resetText name)) ++
      if yieldsDefault then [.line Dispatch.defaultValue] else []) =
        some (resets, yieldsDefault) := by
  induction resets with
  | nil => cases yieldsDefault <;> decide
  | cons name rest ih =>
      obtain ⟨here, others⟩ := List.forall_mem_cons.mp plain
      rw [List.map_cons, List.cons_append, readLines?, if_neg (resetText_ne name),
        readReset_text here, ih others]
      rfl

/-- **The arm for no variant is read as it was written.** -/
theorem ofCode?_code {fallback : Fallback}
    (plain : ∀ name ∈ fallback.resets, Text.isNameText name = true) :
    ofCode? fallback.code = some fallback := by
  unfold code
  split
  next idle =>
    obtain ⟨noResets, noDefault⟩ := Bool.and_eq_true_iff.mp idle
    rw [ofCode?, if_pos rfl, ← List.isEmpty_iff.mp noResets,
      ← (Bool.not_eq_true' _).mp noDefault]
  next => rw [ofCode?, if_pos rfl, readLines?_code plain, Option.map_some]

end Fallback

/-- **A method is read as it was written**: the field that it branches on, and each arm with its
steps. -/
theorem DispatchMethod.ofCode?_code {method : DispatchMethod} (names : method.IsNamed)
    (typeIdField typeIdName : String) :
    ofCode? typeIdName (method.code typeIdField typeIdName) = some (typeIdField, method) := by
  have field : (exactly "match self." >>= fun _ => remaining).run? ("match self." ++ typeIdField) =
      some typeIdField := by
    refine run?_eq_some ?_
    rw [String.toList_append, bind_eq (exactly_append "match self." _), remaining,
      String.ofList_toList]
  have arms : (method.arms.map fun arm => arm.code typeIdName).mapM (Arm.ofCode? typeIdName) =
      some method.arms :=
    mapM_map_eq_some fun arm mem => Arm.ofCode?_code (names.arms arm mem) typeIdName
  have fallback := Fallback.ofCode?_code names.resets
  rw [code, ofCode?, field]
  simp only [List.getLast?_concat, Option.bind_some, fallback, List.dropLast_concat, arms,
    Option.bind_eq_bind, pure]

end VariantMerge
