import VariantMerge.Proofs.Agents.Laws
import VariantMerge.Proofs.Dispatch.Equivalence

/-!
# The merged type that is generated for agents

What a population relies on (`Laws`) follows from the code that is emitted for the states
(`GeneratedType.laws`). A value of the generated struct is a record of its fields. Its conversions run the
routines that are read from the emitted code, and its methods are the emitted ones, which call the states'
own methods on a state that is rebuilt from the slots. Each of the two states is a struct with a clock and
one more field (`StateStruct`), so that what is emitted for it is followed once for both: the conversions
in `Implements.write_eq`, `Implements.fresh_eq` and `Implements.read_eq`, and the methods in
`Implements.call?_kept` and `Implements.call?_exclusive`.
-/

namespace VariantMerge

namespace Agents

open Generation

/-- What fields, arguments and results hold. -/
inductive Value where
  | unit
  | number (number : Float32)
  | text (text : String)
  | context (context : Context)
  /-- A merged value that may follow, as the record that it is. -/
  | next (next? : Option (String → Option (Cell Value)))

/-- The number in a field. -/
def numberAt (x : Record Value) (name : String) : Float32 :=
  match x name with
  | some (.number content) => content
  | _ => 0

/-! ## States as structs -/

/-- The field of every state that says how long it has lasted. -/
def clock : String := "elapsed"

/-- A state as a struct with a clock and one more field. -/
structure StateStruct (τ : Type) where
  tag : StateTag
  /-- The name of the field beside the clock. -/
  other : String
  fields : τ → Float32 × Float32
  make : Float32 × Float32 → τ
  make_fields : ∀ state, make (fields state) = state
  different : other ≠ clock

namespace StateStruct

variable {σ τ : Type} (struct : StateStruct τ)

/-- The names of the fields. -/
def names : List String := [clock, struct.other]

/-- The fields of a state. -/
def record (state : τ) : Record Value :=
  .ofGiven [(clock, .number (struct.fields state).1), (struct.other, .number (struct.fields state).2)]

/-- The state with these fields. -/
def ofRecord (x : Record Value) : τ :=
  struct.make (numberAt x clock, numberAt x struct.other)

/-- The fields after the state was changed: no field comes or goes. -/
def changed (x : Record Value) (state : τ) : Record Value :=
  fun name => (x name).map fun held => (struct.record state name).getD held

/-- A method of the state called by its name. A merged value that follows is given as a record. -/
def run (own : Behaviour σ τ) (contents : σ → MergedValue Value) (method : String)
    (x : Record Value) (arguments : List Value) : CallOutcome Value :=
  match method, arguments with
  | "elapsed", arguments => ⟨x, arguments, .number (own.elapsed (struct.ofRecord x))⟩
  | "name", arguments => ⟨x, arguments, .text (own.name (struct.ofRecord x))⟩
  | "set_elapsed", [.number time] =>
    ⟨struct.changed x (own.setElapsed (struct.ofRecord x) time), [.number time], .unit⟩
  | "update", [.context context, .number dt] =>
    let after := own.update (struct.ofRecord x) context dt
    ⟨struct.changed x after.self, [.context after.context, .number dt],
      .next (after.next?.map contents)⟩
  | _, arguments => ⟨x, arguments, .unit⟩

/-- The struct has the fields that it declares. -/
theorem hasFields_record (state : τ) : (struct.record state).HasFields struct.names :=
  Record.hasFields_ofGiven _

/-- A state is known by its fields. -/
theorem ofRecord_record (state : τ) : struct.ofRecord (struct.record state) = state := by
  have other : struct.record state struct.other = some (.number (struct.fields state).2) := by
    rw [record, Record.ofGiven, List.lookup_cons, beq_eq_false_iff_ne.mpr struct.different]
    exact List.lookup_cons_self
  rw [ofRecord, numberAt, numberAt, other]
  exact struct.make_fields state

/-- A changed state has the fields of the new one. -/
theorem changed_eq {x : Record Value} (fields : x.HasFields struct.names) (state : τ) :
    struct.changed x state = struct.record state := by
  funext name
  have same : (x name).isSome ↔ (struct.record state name).isSome :=
    (fields name).trans (struct.hasFields_record state name).symm
  rw [changed]
  cases held : x name with
  | none =>
      rw [held] at same
      exact (Option.not_isSome_iff_eq_none.mp fun present => nomatch same.mpr present).symm
  | some value =>
      obtain ⟨given, found⟩ := Option.isSome_iff_exists.mp (same.mp (held ▸ rfl))
      rw [found]
      rfl

variable (own : Behaviour σ τ) (contents : σ → MergedValue Value)

/-- A method keeps the fields that there are. -/
theorem isSome_run (method : String) (x : Record Value) (arguments : List Value) (name : String) :
    ((struct.run own contents method x arguments).fields name).isSome = (x name).isSome := by
  unfold run
  split <;> first | rfl | exact Option.isSome_map

/-- A method keeps the number of its arguments. -/
theorem length_run (method : String) (x : Record Value) (arguments : List Value) :
    (struct.run own contents method x arguments).arguments.length = arguments.length := by
  unfold run
  split <;> rfl

end StateStruct

def Idle.struct : StateStruct Idle where
  tag := .idle
  other := "delay"
  fields idle := (idle.elapsed, idle.delay)
  make fields := ⟨fields.1, fields.2⟩
  make_fields _ := rfl
  different := by decide

def Moving.struct : StateStruct Moving where
  tag := .moving
  other := "speed"
  fields moving := (moving.elapsed, moving.speed)
  make fields := ⟨fields.1, fields.2⟩
  make_fields _ := rfl
  different := by decide

/-- What the methods of the states' trait are called with. -/
def methodOutlines : List MethodOutline :=
  [⟨"elapsed", .shared, [], true⟩, ⟨"set_elapsed", .exclusive, ["value"], false⟩,
    ⟨"name", .shared, [], true⟩, ⟨"update", .exclusive, ["ctx", "dt"], true⟩]

/-- The names in the type that is generated for the states. -/
def statesOutline : Outline where
  variants := [(StateTag.idle.label, Idle.struct.names), (StateTag.moving.label, Moving.struct.names)]
  slots := ["f32_0", "f32_1"]
  methods := [("IState", methodOutlines)]

/-! ## The generated type -/

/-- A merged type with what holds of those that are generated for the states. -/
structure GeneratedType where
  config : Config
  merged : MergedType
  named : merged.IsNamed
  invariant : merged.layout.Invariant merged.variants
  outlined : outline merged = statesOutline
  untagged : config.typeIdField ∉ statesOutline.slots

namespace GeneratedType

variable (type : GeneratedType)

/-- The record has the fields of the generated struct. -/
abbrev Valid (m : MergedValue Value) : Prop :=
  m.IsOf type.merged type.config

/-- A value of the generated struct. -/
structure State where
  contents : MergedValue Value
  valid : type.Valid contents

/-- No slot is named like the discriminant. -/
theorem typeIdField_notMem : type.config.typeIdField ∉ type.merged.layout.slots.map Slot.name := by
  have slots : type.merged.layout.slots.map Slot.name = statesOutline.slots :=
    congrArg Outline.slots type.outlined
  rw [slots]
  exact type.untagged

/-- The default value, in which every slot holds the default number. -/
def blank : type.State :=
  ⟨type.merged.defaultValue type.config fun _ => .number 0,
    MergedType.defaultValue_isOf type.invariant.indexed type.typeIdField_notMem _⟩

open Classical in
/-- What code leaves in a variable of the generated struct. For code that would be rejected, this is the
default. -/
noncomputable def hold (left : Option (MergedValue Value)) : type.State :=
  match left with
  | some m => if valid : type.Valid m then ⟨m, valid⟩ else type.blank
  | none => type.blank

/-- What has the fields of the struct is held as it is. -/
theorem hold_some {m : MergedValue Value} (valid : type.Valid m) :
    type.hold (some m) = ⟨m, valid⟩ :=
  dif_pos valid

/-- What is held of a value of the struct is that value. -/
theorem hold_contents (m : type.State) : type.hold (some m.contents) = m :=
  type.hold_some m.valid

/-! ## What is read from the emitted code -/

/-- The discriminant. -/
def tag (m : type.State) : Option StateTag :=
  match m.contents type.config.typeIdField with
  | some (.tag (some variant)) => [StateTag.idle, .moving].find? (·.label == variant)
  | _ => none

/-- The routines of a state that are read from the code of its conversions, with its fields. -/
def routines? (label : String) : Option (Conversion × List String) :=
  type.merged.conversionOf? type.config label

/-- The conversions of a state, which run its routines. -/
noncomputable def conversions {τ : Type} (struct : StateStruct τ) : Conversions type.State τ where
  read m := struct.ofRecord (((type.routines? struct.tag.label).bind fun (routines, declared) =>
    routines.runFromMerged declared m.contents).getD fun _ => none)
  fresh state := type.hold ((type.routines? struct.tag.label).bind fun (routines, _) =>
    routines.runToMerged type.blank.contents (struct.record state))
  write state m := type.hold ((type.routines? struct.tag.label).bind fun (routines, _) =>
    routines.runWriteInto (struct.record state) m.contents)

noncomputable instance : Merges type.State where
  tag := type.tag
  idle := type.conversions Idle.struct
  moving := type.conversions Moving.struct

/-- The states' own methods. -/
noncomputable def methods : VariantMethods Value where
  run target :=
    if target.variant = StateTag.idle.label then
      Idle.struct.run (Idle.behaviour type.State) State.contents target.method
    else Moving.struct.run (Moving.behaviour type.State) State.contents target.method
  keepsFields target x arguments name := by
    split
    · exact Idle.struct.isSome_run _ _ _ _ _ _
    · exact Moving.struct.isSome_run _ _ _ _ _ _
  keepsArguments target x arguments := by
    split
    · exact Idle.struct.length_run _ _ _ _ _
    · exact Moving.struct.length_run _ _ _ _ _

/-- The method of this name, with the code that is emitted for it. -/
def emitted? (name : String) : Option (Method × Code) :=
  type.merged.members.traits.findSome? fun declared =>
    ((declared.members.flatMap Member.methods).find? (·.name == name)).map fun method =>
      (method, (method.dispatch type.merged.conversionNames declared.name
        (type.merged.variants.map Variant.name)).code type.config.typeIdField
          type.merged.typeIdName)

/-- The emitted method of this name called on a merged value. -/
noncomputable def call? (name : String) (m : type.State) (arguments : List Value) :
    Option (DispatchOutcome Value) :=
  (type.emitted? name).bind fun (method, code) =>
    type.merged.runMethod type.config type.methods code method.receiver
      (method.params.map Param.name) m.contents arguments

/-- The number that a call gives. -/
def numberOf : Option (DispatchOutcome Value) → Float32
  | some ⟨_, _, some (.number number)⟩ => number
  | _ => 0

/-- The text that a call gives. -/
def textOf : Option (DispatchOutcome Value) → String
  | some ⟨_, _, some (.text text)⟩ => text
  | _ => ""

/-- The update that a call makes of a value with this context. -/
noncomputable def updateOf (m : type.State) (context : Context) :
    Option (DispatchOutcome Value) → Update type.State type.State
  | some ⟨left, [.context after, _], some (.next next?)⟩ =>
    ⟨type.hold (some left), after, next?.map fun next => type.hold (some next)⟩
  | _ => ⟨m, context, none⟩

noncomputable instance : Dispatches type.State where
  behaviour := {
    elapsed := fun m => numberOf (type.call? "elapsed" m [])
    setElapsed := fun m time =>
      type.hold ((type.call? "set_elapsed" m [.number time]).map DispatchOutcome.merged)
    name := fun m => textOf (type.call? "name" m [])
    update := fun m context dt =>
      type.updateOf m context (type.call? "update" m [.context context, .number dt]) }

/-- The code of a method is part of what is emitted for its trait. -/
theorem mem_of_emitted? {name : String} {method : Method} {code : Code}
    (found : type.emitted? name = some (method, code)) :
    ∃ trait_ functions, Code.scope ("impl " ++ trait_ ++ " for " ++ type.merged.name) functions ∈
      type.merged.dispatchCode type.config ∧ code ∈ functions := by
  obtain ⟨declared, inHierarchy, here⟩ := List.exists_of_findSome?_eq_some found
  obtain ⟨method, provided, same⟩ := Option.map_eq_some_iff.mp here
  obtain ⟨member, listed, accessor⟩ := List.mem_flatMap.mp (List.mem_of_find?_eq_some provided)
  obtain ⟨functions, block, emitted⟩ :=
    Generates.exists_dispatch type.config inHierarchy listed accessor
  exact ⟨declared.name, functions, block, (Prod.mk.inj same).2 ▸ emitted⟩

/-- The code that is emitted for a method of the trait. -/
theorem exists_emitted {entry : MethodOutline} (listed : entry ∈ methodOutlines) :
    ∃ declared ∈ type.merged.members.traits, ∃ method ∈ declared.members.flatMap Member.methods,
      type.emitted? entry.name = some (method,
        (method.dispatch type.merged.conversionNames declared.name
          (type.merged.variants.map Variant.name)).code type.config.typeIdField
            type.merged.typeIdName) ∧
      MethodOutline.of method = entry := by
  obtain ⟨declared, traits, methods⟩ := exists_methods type.outlined rfl
  have names : (declared.members.flatMap Member.methods).map Method.name =
      methodOutlines.map MethodOutline.name := by
    rw [← methods, List.map_map]
    rfl
  have distinct : ((declared.members.flatMap Member.methods).map Method.name).Nodup := by
    rw [names]
    decide
  obtain ⟨method, member, rfl⟩ := List.mem_map.mp (methods ▸ listed)
  refine ⟨declared, traits ▸ List.mem_singleton_self declared, method, member, ?_, rfl⟩
  change type.emitted? method.name = _
  rw [emitted?, traits, List.findSome?_singleton, find?_eq_some_of_mem distinct member,
    Option.map_some]

/-- The parameters of a method can be told from each other and from the rebuilt state. -/
theorem params_distinct {entry : MethodOutline} (listed : entry ∈ methodOutlines) :
    entry.params.Nodup ∧ Dispatch.instanceName ∉ entry.params :=
  (show ∀ entry ∈ methodOutlines, entry.params.Nodup ∧ Dispatch.instanceName ∉ entry.params by
    decide) entry listed

/-- A value that carries a state's tag has the name of its variant in the discriminant. -/
theorem typeId_of_tag {m : type.State} {tag : StateTag} (tagged : type.tag m = some tag) :
    m.contents type.config.typeIdField = some (.tag (some tag.label)) := by
  unfold GeneratedType.tag at tagged
  split at tagged
  · rename_i variant present
    have same := List.find?_some tagged
    rw [beq_iff_eq] at same
    rw [present, same]
  · cases tagged

/-- A value with the name of a state's variant in the discriminant carries the state's tag. -/
theorem tag_of_typeId {m : type.State} {tag : StateTag}
    (present : m.contents type.config.typeIdField = some (.tag (some tag.label))) :
    type.tag m = some tag := by
  rw [GeneratedType.tag, present]
  cases tag <;> rfl

/-- The struct of one of the two states, with its methods. -/
structure Implements {τ : Type} (struct : StateStruct τ) (own : Behaviour type.State τ) : Prop where
  listed : (struct.tag.label, struct.names) ∈ statesOutline.variants
  run : ∀ target : CallTarget, target.variant = struct.tag.label →
    type.methods.run target = struct.run own State.contents target.method

/-- The value holds a state with these fields. -/
structure Shows {τ : Type} (struct : StateStruct τ) (m : type.State) (x : Record Value) : Prop where
  typeId : m.contents type.config.typeIdField = some (.tag (some struct.tag.label))
  fields : x.HasFields struct.names
  stored : m.contents.Stores type.merged struct.tag.label x

variable {type} {τ : Type} {struct : StateStruct τ} {own : Behaviour type.State τ}

/-- A state's struct is a variant, which is read and written by its routines. -/
theorem Implements.exists_variant (implements : type.Implements struct own) :
    ∃ variant, Convertible type.config type.merged variant ∧ variant.name = struct.tag.label ∧
      variant.fields.map VariantField.name = struct.names := by
  have distinct : struct.names.Nodup := by
    simp [StateStruct.names, struct.different.symm]
  obtain ⟨variant, member, label, names⟩ :=
    Generation.exists_variant type.outlined implements.listed
  exact ⟨variant, ⟨type.invariant, member, names ▸ distinct, type.typeIdField_notMem⟩, label, names⟩

/-- The routines of a state's variant are read from their code. -/
theorem routines?_eq {variant : Variant}
    (convertible : Convertible type.config type.merged variant)
    (label : variant.name = struct.tag.label)
    (names : variant.fields.map VariantField.name = struct.names) :
    type.routines? struct.tag.label =
      some (type.merged.conversion type.config variant, struct.names) := by
  rw [routines?, ← label, convertible.conversionOf?_eq type.named, names]

/-! ## Conversions -/

/-- The value after the discriminant and the slots of a state were written. -/
noncomputable def store (type : GeneratedType) (struct : StateStruct τ) (x : Record Value)
    (m : type.State) : type.State :=
  type.hold (some (Record.override m.contents
    ((type.config.typeIdField, .tag (some struct.tag.label)) ::
      type.merged.layout.stored struct.tag.label x)))

/-- A state that is written is held, and all else stays. -/
theorem Implements.shows_store (implements : type.Implements struct own) {x : Record Value}
    (fields : x.HasFields struct.names) (m : type.State) :
    type.Shows struct (type.store struct x m) x ∧
      (type.store struct x m).contents = Record.override m.contents
        ((type.config.typeIdField, .tag (some struct.tag.label)) ::
          type.merged.layout.stored struct.tag.label x) := by
  obtain ⟨variant, convertible, label, names⟩ := implements.exists_variant
  have given : x.HasFields (variant.fields.map VariantField.name) := names ▸ fields
  have valid := convertible.override_isOf given m.valid
  have tagged := convertible.override_tag (m := m.contents) given
  have stored := convertible.override_stores (m := m.contents) given
  rw [MergedType.assigned, label] at valid tagged stored
  rw [store, type.hold_some valid]
  exact ⟨⟨tagged, fields, stored⟩, rfl⟩

/-- A state is read from the slots that hold it. -/
theorem Implements.read_eq (implements : type.Implements struct own) {m : type.State}
    {x : Record Value} (shown : type.Shows struct m x) :
    (type.conversions struct).read m = struct.ofRecord x := by
  obtain ⟨variant, convertible, label, names⟩ := implements.exists_variant
  have read := convertible.runFromMerged_eq (names ▸ shown.fields) (label ▸ shown.stored)
  rw [names] at read
  change struct.ofRecord (((type.routines? _).bind _).getD _) = _
  rw [routines?_eq convertible label names, Option.bind_some]
  change struct.ofRecord (((type.merged.conversion type.config variant).runFromMerged _ _).getD _) = _
  rw [read]
  rfl

/-- A state is written over a value. -/
theorem Implements.write_eq (implements : type.Implements struct own) (state : τ)
    (m : type.State) :
    (type.conversions struct).write state m = type.store struct (struct.record state) m := by
  obtain ⟨variant, convertible, label, names⟩ := implements.exists_variant
  have wrote := convertible.runWriteInto_eq (names ▸ struct.hasFields_record state) m.valid
  rw [MergedType.assigned, label] at wrote
  change type.hold ((type.routines? _).bind _) = _
  rw [routines?_eq convertible label names, Option.bind_some]
  exact congrArg type.hold wrote

/-- A fresh value is the default one with a state written over it. -/
theorem Implements.fresh_eq (implements : type.Implements struct own) (state : τ) :
    (type.conversions struct).fresh state =
      type.store struct (struct.record state) type.blank := by
  obtain ⟨variant, convertible, label, names⟩ := implements.exists_variant
  have made := convertible.runToMerged_eq (names ▸ struct.hasFields_record state) type.blank.valid
  rw [MergedType.assigned, label] at made
  change type.hold ((type.routines? _).bind _) = _
  rw [routines?_eq convertible label names, Option.bind_some]
  exact congrArg type.hold made

/-- A value with the fields of a state holds the state. -/
theorem Implements.holds (implements : type.Implements struct own) {m : type.State} {state : τ}
    (shown : type.Shows struct m (struct.record state)) :
    (type.conversions struct).Holds struct.tag state m where
  tag := type.tag_of_typeId shown.typeId
  read := (implements.read_eq shown).trans (struct.ofRecord_record state)

/-- A value that holds a state has its fields. -/
theorem Implements.exists_shows (implements : type.Implements struct own) {m : type.State}
    {state : τ} (holds : (type.conversions struct).Holds struct.tag state m) :
    ∃ x, type.Shows struct m x ∧ struct.ofRecord x = state := by
  obtain ⟨variant, convertible, label, names⟩ := implements.exists_variant
  obtain ⟨x, fields, stored⟩ := convertible.exists_stored m.valid
  have shown : type.Shows struct m x :=
    ⟨type.typeId_of_tag holds.tag, names ▸ fields, label ▸ stored⟩
  exact ⟨x, shown, (implements.read_eq shown).symm.trans holds.read⟩

/-! ## Methods -/

/-- A call that an arm makes is one of the state's own method. -/
theorem Implements.run_callOn (implements : type.Implements struct own) (method : Method)
    (interface : String) (x : Record Value) (arguments : List Value) :
    type.methods.run (method.callOn interface struct.tag.label).target x arguments =
      struct.run own State.contents method.name x arguments := by
  rw [implements.run _ rfl]
  rfl

/-- **A method that cannot change a state.** The value stays, and the result is that of the state's own
method. -/
theorem Implements.call?_kept (implements : type.Implements struct own) {m : type.State}
    {x : Record Value} (shown : type.Shows struct m x) (entry : MethodOutline)
    (listed : entry ∈ methodOutlines) (kept : entry.receiver ≠ .exclusive)
    (arguments : List Value) (arity : arguments.length = entry.params.length) :
    let outcome := struct.run own State.contents entry.name x arguments
    type.call? entry.name m arguments =
      some ⟨m.contents, outcome.arguments, some outcome.result⟩ := by
  intro outcome
  obtain ⟨variant, convertible, label, names⟩ := implements.exists_variant
  obtain ⟨distinct, free⟩ := params_distinct listed
  obtain ⟨declared, inHierarchy, method, provided, found, rfl⟩ := type.exists_emitted listed
  obtain ⟨frame, ran, passed, same⟩ := convertible.runSteps_kept type.methods declared.name
    type.named (names ▸ shown.fields) (label ▸ shown.stored) distinct free arity kept
  have direct : type.methods.run (method.callOn declared.name variant.name).target x arguments =
      outcome :=
    label ▸ implements.run_callOn method declared.name x arguments
  rw [call?, found, Option.bind_some]
  refine (Generates.run_dispatch convertible type.named inHierarchy provided
    (label ▸ shown.typeId) ran).trans ?_
  rw [passed, same, direct]

/-- **A method that can change a state.** The state is written back as its own method left it. -/
theorem Implements.call?_exclusive (implements : type.Implements struct own) {m : type.State}
    {x : Record Value} (shown : type.Shows struct m x) (entry : MethodOutline)
    (listed : entry ∈ methodOutlines) (exclusive : entry.receiver = .exclusive)
    (arguments : List Value) (arity : arguments.length = entry.params.length) :
    let outcome := struct.run own State.contents entry.name x arguments
    type.call? entry.name m arguments =
      some ⟨(type.store struct outcome.fields m).contents, outcome.arguments,
        if entry.returnsValue then some outcome.result else none⟩ := by
  intro outcome
  obtain ⟨variant, convertible, label, names⟩ := implements.exists_variant
  obtain ⟨distinct, free⟩ := params_distinct listed
  obtain ⟨declared, inHierarchy, method, provided, found, rfl⟩ := type.exists_emitted listed
  obtain ⟨frame, ran, passed, written⟩ := convertible.runSteps_exclusive type.methods declared.name
    type.named (names ▸ shown.fields) (label ▸ shown.stored) m.valid distinct free arity exclusive
  have direct : type.methods.run (method.callOn declared.name variant.name).target x arguments =
      outcome :=
    label ▸ implements.run_callOn method declared.name x arguments
  have left : outcome.fields.HasFields struct.names :=
    direct ▸ Convertible.hasFields_run type.methods _ arguments shown.fields
  rw [call?, found, Option.bind_some]
  refine (Generates.run_dispatch convertible type.named inHierarchy provided
    (label ▸ shown.typeId) ran).trans ?_
  rw [passed, written, direct, (implements.shows_store left m).2, MergedType.assigned, label]
  rfl

/-! ## Laws -/

/-- What is emitted for a state keeps what is promised for it. -/
theorem Implements.laws (implements : type.Implements struct own) :
    VariantLaws struct.tag (type.conversions struct) own where
  fresh state := by
    rw [implements.fresh_eq]
    exact implements.holds (implements.shows_store (struct.hasFields_record state) _).1
  write state m := by
    rw [implements.write_eq]
    exact implements.holds (implements.shows_store (struct.hasFields_record state) m).1
  elapsed := by
    intro state m holds
    obtain ⟨x, shown, rfl⟩ := implements.exists_shows holds
    exact congrArg numberOf
      (implements.call?_kept shown ⟨"elapsed", .shared, [], true⟩ (by decide) nofun [] rfl)
  name := by
    intro state m holds
    obtain ⟨x, shown, rfl⟩ := implements.exists_shows holds
    exact congrArg textOf
      (implements.call?_kept shown ⟨"name", .shared, [], true⟩ (by decide) nofun [] rfl)
  setElapsed := by
    intro state m holds time
    obtain ⟨x, shown, rfl⟩ := implements.exists_shows holds
    have called := implements.call?_exclusive shown ⟨"set_elapsed", .exclusive, ["value"], false⟩
      (by decide) rfl [.number time] rfl
    change type.hold ((type.call? "set_elapsed" m [.number time]).map _) = _
    rw [called, Option.map_some, hold_contents, implements.write_eq,
      ← struct.changed_eq shown.fields]
    rfl
  update := by
    intro state m holds context dt
    obtain ⟨x, shown, rfl⟩ := implements.exists_shows holds
    have called := implements.call?_exclusive shown ⟨"update", .exclusive, ["ctx", "dt"], true⟩
      (by decide) rfl [.context context, .number dt] rfl
    let after := own.update (struct.ofRecord x) context dt
    -- The state that follows is passed as a record, which is valid, so it is held as it was.
    have held (next? : Option type.State) :
        (next?.map State.contents).map (fun next => type.hold (some next)) = next? := by
      simp [Option.map_map, Function.comp_def, hold_contents]
    calc type.updateOf m context (type.call? "update" m [.context context, .number dt])
        = ⟨type.hold (some (type.store struct (struct.changed x after.self) m).contents),
            after.context,
            (after.next?.map State.contents).map fun next => type.hold (some next)⟩ :=
          congrArg (type.updateOf m context) called
      _ = after.map (fun state => (type.conversions struct).write state m) := by
          rw [hold_contents, held, struct.changed_eq shown.fields, ← implements.write_eq]
          rfl

/-- **Generated code keeps what is promised.** -/
theorem laws (type : GeneratedType) : Laws type.State where
  idle :=
    have implements : type.Implements Idle.struct (Idle.behaviour type.State) :=
      ⟨by decide, fun _ named => if_pos named⟩
    implements.laws
  moving :=
    have implements : type.Implements Moving.struct (Moving.behaviour type.State) :=
      ⟨by decide, fun _ named => if_neg (named ▸ by decide)⟩
    implements.laws

/-- What is generated for units that were read, if it has the names of the states. -/
def ofGenerates {config : Config} {units : List SourceUnit} {interface : Interface}
    {merged : MergedType} {sources : List GeneratedSource} (read : ∀ unit ∈ units, unit.IsRead)
    (scanned : interface ∈ (ScanResult.ofUnits config.marker units).interfaces)
    (generated : Generates config (ScanResult.ofUnits config.marker units) interface merged sources)
    (outlined : outline merged = statesOutline)
    (untagged : config.typeIdField ∉ statesOutline.slots) : GeneratedType :=
  ⟨config, merged, generated.isNamed read scanned,
    SlotLayout.ofVariants_invariant generated.layout, outlined, untagged⟩

end GeneratedType

/-! ## The states' trait -/

/-- The trait of the states and the two structs, without the bodies of their methods. -/
def statesText : String :=
  "#[polymorphic_struct]
pub trait IState \x7b
    #[property]
    fn elapsed(&self) -> f32;
    #[property]
    fn set_elapsed(&mut self, value: f32);
    fn name(&self) -> &'static str;
    fn update(&mut self, ctx: &mut StateContext, dt: f32) -> Option<State>;
\x7d
pub struct Idle \x7b pub elapsed: f32, pub delay: f32 \x7d
pub struct Moving \x7b pub elapsed: f32, pub speed: f32 \x7d
impl IState for Idle \x7b\x7d
impl IState for Moving \x7b\x7d"

set_option maxRecDepth 8000 in
/-- The states are read, and generate. -/
theorem states_read : ∃ units interface merged sources,
    (∀ unit ∈ units, SourceUnit.IsRead unit) ∧
      interface ∈ (ScanResult.ofUnits Config.default.marker units).interfaces ∧
      Generates .default (ScanResult.ofUnits Config.default.marker units) interface merged
        sources ∧ outline merged = statesOutline := by
  refine exists_generates_of_read statesText String.toList_ofList ?_
  decide +kernel

/-- The type that is generated for the states. -/
theorem exists_generatedType : ∃ units interface sources, ∃ type : GeneratedType,
    (∀ unit ∈ units, SourceUnit.IsRead unit) ∧
      Generates type.config (ScanResult.ofUnits type.config.marker units) interface type.merged
        sources := by
  obtain ⟨units, interface, merged, sources, read, scanned, generated, outlined⟩ := states_read
  exact ⟨units, interface, sources, .ofGenerates read scanned generated outlined (by decide), read,
    generated⟩

end Agents

end VariantMerge
