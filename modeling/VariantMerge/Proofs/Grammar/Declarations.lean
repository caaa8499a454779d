import VariantMerge.Proofs.Grammar.Types
import VariantMerge.Proofs.Scan.Declared

/-!
# The declarations that are read

Of the declarations in a text, more is known than the grammar's types say. The result of a function is
legible, and all names are made of characters of names: those of traits and structs, of functions with
their generic parameters and the bindings that take their arguments, and of fields. This is followed from
patterns and signatures through the members of traits and the fields of structs to whole texts, and holds at
whatever depth the phrases contain each other (`Grammar.reads_upTo`).
-/

namespace VariantMerge

/-! ## What is read -/

/-- The name that the pattern binds, if it is one, is made of characters of names. -/
def Pattern.IsNamed (pattern : Pattern) : Prop :=
  ∀ name ∈ pattern.name?, Text.isNameText name = true

/-- The types and constants are called by names. -/
def Generics.IsNamed (generics : Generics) : Prop :=
  ∀ param ∈ generics.params, ∀ name ∈ param.argument?, Text.isNameText name = true

def FnInput.IsNamed : FnInput → Prop
  | .receiver _ => True
  | .typed _ pattern _ => pattern.IsNamed

/-- The result type, if there is one, is legible. -/
def Signature.ReturnsLegible (signature : Signature) : Prop :=
  ∀ ty ∈ signature.output, (TypeNode.ty ty).Legible

/-- What is known of all names in a signature. -/
structure Signature.IsNamed (signature : Signature) : Prop where
  name : Text.isNameText signature.name = true
  generics : signature.generics.IsNamed
  inputs : ∀ input ∈ signature.inputs, input.IsNamed

/-- What is known of a signature that was read. -/
structure Signature.IsRead (signature : Signature) : Prop where
  output : signature.ReturnsLegible
  named : signature.IsNamed

def TraitEntry.IsRead : TraitEntry → Prop
  | .method _ signature _ => signature.IsRead
  | _ => True

/-- What is known of a trait that was read. -/
structure TraitItem.IsRead (item : TraitItem) : Prop where
  name : Text.isNameText item.name = true
  entries : ∀ entry ∈ item.entries, entry.IsRead

/-- The fields that have names are called by them. -/
def FieldList.IsNamed : FieldList → Prop
  | .named fields _ => ∀ field ∈ fields, ∀ name ∈ field.name, Text.isNameText name = true
  | _ => True

/-- What is known of a struct that was read. -/
structure StructItem.IsRead (item : StructItem) : Prop where
  name : Text.isNameText item.name = true
  fields : item.fields.IsNamed

/-- What is known of an item that was read: the trait or struct that it is, or all traits and structs in
the module, are as they are read. -/
structure Item.IsRead (item : Item) : Prop where
  trait : ∀ path inner, DeclaredAt [item] path (.trait inner) → inner.IsRead
  struct : ∀ path inner, DeclaredAt [item] path (.struct inner) → inner.IsRead

namespace Item.IsRead

/-- What is known of items is known of all that is declared in them. -/
theorem of_declaredAt {items : List Item} {path : List String} {inner : Item}
    (each : ∀ item ∈ items, item.IsRead) (declared : DeclaredAt items path inner) :
    (∀ item, inner = .trait item → item.IsRead) ∧
      ∀ item, inner = .struct item → item.IsRead := by
  obtain ⟨outer, listed, path, declared⟩ : ∃ outer ∈ items, ∃ path,
      DeclaredAt [outer] path inner := by
    cases declared with
    | here listed => exact ⟨_, listed, [], .here List.mem_cons_self⟩
    | inside listed below => exact ⟨_, listed, _, .inside List.mem_cons_self below⟩
  refine ⟨fun item same => ?_, fun item same => ?_⟩
  · subst same
    exact (each outer listed).trait path item declared
  · subst same
    exact (each outer listed).struct path item declared

/-- A trait that was read is an item that was read. -/
theorem ofTrait {item : TraitItem} (read : item.IsRead) : Item.IsRead (.trait item) := by
  constructor
  · intro path inner declared
    cases declared with
    | here listed =>
        cases List.mem_singleton.mp listed
        exact read
    | inside listed _ => cases List.mem_singleton.mp listed
  · intro path inner declared
    cases declared with
    | here listed => cases List.mem_singleton.mp listed
    | inside listed _ => cases List.mem_singleton.mp listed

/-- A struct that was read is an item that was read. -/
theorem ofStruct {item : StructItem} (read : item.IsRead) : Item.IsRead (.struct item) := by
  constructor
  · intro path inner declared
    cases declared with
    | here listed => cases List.mem_singleton.mp listed
    | inside listed _ => cases List.mem_singleton.mp listed
  · intro path inner declared
    cases declared with
    | here listed =>
        cases List.mem_singleton.mp listed
        exact read
    | inside listed _ => cases List.mem_singleton.mp listed

/-- A module was read if the items in its body were. -/
theorem module {head : ModuleHead} {content : Option (List Item)}
    (each : ∀ items ∈ content, ∀ item ∈ items, item.IsRead) :
    Item.IsRead (.module head content) := by
  have inside {path : List String} {inner : Item}
      (declared : DeclaredAt [.module head content] path inner) :
      inner = .module head content ∨ ∃ items ∈ content, ∃ path, DeclaredAt items path inner := by
    cases declared with
    | here listed => exact .inl (List.mem_singleton.mp listed)
    | inside listed below =>
        cases List.mem_singleton.mp listed
        exact .inr ⟨_, rfl, _, below⟩
  constructor
  · intro path inner declared
    obtain contrary | ⟨items, present, path, below⟩ := inside declared
    · cases contrary
    · exact (of_declaredAt (each items present) below).1 inner rfl
  · intro path inner declared
    obtain contrary | ⟨items, present, path, below⟩ := inside declared
    · cases contrary
    · exact (of_declaredAt (each items present) below).2 inner rfl

/-- Nothing is declared in any other item. -/
theorem of_leaf {item : Item} (noTrait : ∀ inner, .trait inner ≠ item)
    (noStruct : ∀ inner, .struct inner ≠ item)
    (noModule : ∀ head items, .module head (some items) ≠ item) : item.IsRead := by
  constructor
  · intro path inner declared
    cases declared with
    | here listed => exact absurd (List.mem_singleton.mp listed) (noTrait inner)
    | inside listed _ => exact absurd (List.mem_singleton.mp listed) (noModule _ _)
  · intro path inner declared
    cases declared with
    | here listed => exact absurd (List.mem_singleton.mp listed) (noStruct inner)
    | inside listed _ => exact absurd (List.mem_singleton.mp listed) (noModule _ _)

/-- Nothing is asked of an item that is passed on as it was written. -/
theorem other (tokens : List Token) : Item.IsRead (.other tokens) :=
  of_leaf (by simp) (by simp) (by simp)

end Item.IsRead

/-- Types inside are read as legible ones, and patterns and items as was said. -/
structure Grammar.Reads (g : Grammar) : Prop extends g.ReadsTypes where
  pattern : g.pattern.Yields Pattern.IsNamed
  item : g.item.Yields Item.IsRead

namespace Parser

variable {g : Grammar}

/-! ## Names and patterns -/

/-- A word of the input is made of characters of names. -/
theorem anyWord_yields : anyWord.Yields fun name => Text.isNameText name = true := by
  refine .bind_any fun trees => ?_
  split
  · exact .ite (fun plain => .bind_any fun _ => .pure plain) fun _ => .fail
  · exact .fail

/-- A name of the input is made of characters of names. -/
theorem name_yields : name.Yields fun name => Text.isNameText name = true :=
  .bind_any fun _ => .ite (fun _ => anyWord_yields) fun _ => .fail

/-- A range names nothing. -/
theorem patternRange_yields (lower : List Token) : (patternRange g lower).Yields Pattern.IsNamed := by
  have each {isClosed : Bool} : (do
      let dots := Token.op (if isClosed then "..=" else "..")
      if ← looks endsPatternRange then
        if isClosed then fail
        return if lower.isEmpty then .other [dots] else .openRange (lower ++ [dots])
      else
        let upper ← patternBound g
        return if lower.isEmpty then .openRange (dots :: upper)
          else .other (lower ++ dots :: upper) : Parser Pattern).Yields Pattern.IsNamed := by
    have unnamed {condition : Bool} {tokens others : List Token} : Pattern.IsNamed
        (if condition then .other tokens else .openRange others) := by
      cases condition <;> nofun
    have unnamed' {condition : Bool} {tokens others : List Token} : Pattern.IsNamed
        (if condition then .openRange tokens else .other others) := by
      cases condition <;> nofun
    refine .bind_any fun _ => .ite (fun _ => ?_) fun _ => .bind_any fun _ => .pure unnamed'
    exact .ite (fun _ => .fail_bind) fun _ => .pure unnamed
  exact .bind_any fun isClosed => .ite (fun _ => .bind_any fun _ => each) fun _ => each

/-- A pattern that begins with a literal names nothing. -/
theorem patternFrom_yields (lower : List Token) : (patternFrom g lower).Yields Pattern.IsNamed :=
  .bind_any fun _ => .ite (fun _ => patternRange_yields lower) fun _ => .pure nofun

/-- A pattern that begins with a path names nothing. -/
theorem pathPattern_yields : (pathPattern g).Yields Pattern.IsNamed := by
  refine .bind_any fun path => .bind_any fun isMacro => .ite (fun _ => ?_) fun _ => ?_
  · exact .bind_any fun _ => .bind_any fun _ => .pure nofun
  refine .bind_any fun _ => .ite (fun _ => .bind_any fun _ => .pure nofun) fun _ => ?_
  refine .bind_any fun _ => .ite (fun _ => .bind_any fun _ => .pure nofun) fun _ => ?_
  exact patternFrom_yields _

/-- A pattern that binds a name binds a word of the input. -/
theorem namePattern_yields : (namePattern g).Yields Pattern.IsNamed := by
  have named {name : String} {tokens : List Token} (plain : Text.isNameText name = true) :
      Pattern.IsNamed (.binding name tokens) := by
    intro bound same
    cases same
    exact plain
  refine .bind_any fun byRef => .bind_any fun isMut => ?_
  refine .bind_as (fun name => Text.isNameText name = true) ?_ fun name plain => ?_
  · exact .bind_any fun _ => .ite (fun _ => anyWord_yields) fun _ => name_yields
  · refine .bind_any fun _ => .ite (fun _ => ?_) fun _ => .pure (named plain)
    exact .bind_any fun _ => .pure (named plain)

/-- **Patterns are named.** A pattern that is a name is made of characters of names. -/
theorem pattern_yields : (pattern g).Yields Pattern.IsNamed := by
  refine .bind_any fun before => .ite (fun _ => pathPattern_yields) fun _ => ?_
  refine .bind_any fun _ => .ite (fun _ => .pure nofun) fun _ => ?_
  refine .bind_any fun _ => .ite (fun _ => ?_) fun _ => ?_
  · exact .bind_any fun _ => .bind_any fun _ => .pure nofun
  refine .ite (fun _ => .bind_any fun _ => patternFrom_yields _) fun _ => ?_
  refine .ite (fun _ => namePattern_yields) fun _ => ?_
  refine .bind_any fun _ => .ite (fun _ => ?_) fun _ => ?_
  · exact .bind_any fun _ => .bind_any fun _ => .pure nofun
  refine .ite (fun _ => .bind_any fun _ => .pure nofun) fun _ => ?_
  refine .ite (fun _ => .bind_any fun _ => .pure nofun) fun _ => ?_
  exact .ite (fun _ => patternRange_yields _) fun _ => .fail

/-! ## Signatures and traits -/

/-- What is passed on of a generic parameter is a word of the input. -/
theorem genericParam_yields (attrs : List Attribute) : (genericParam g attrs).Yields
    fun param => ∀ name ∈ param.argument?, Text.isNameText name = true := by
  have named {name : String} (plain : Text.isNameText name = true) :
      ∀ passed ∈ some name, Text.isNameText passed = true := by
    intro passed same
    exact Option.mem_some_iff.mp same ▸ plain
  refine .bind_any fun _ => .ite (fun _ => .bind_any fun _ => .pure nofun) fun _ => ?_
  refine .bind_any fun _ => .ite (fun _ => ?_) fun _ => ?_
  · refine .bind name_yields fun name plain => .bind_any fun _ => .bind_any fun ty => ?_
    exact .bind_any fun _ => .pure (named plain)
  · refine .bind name_yields fun name plain => .bind_any fun read => ?_
    exact .bind_any fun _ => .pure (named plain)

/-- What is passed on of generic parameters are words of the input. -/
theorem generics_yields : (generics g).Yields Generics.IsNamed := by
  have declared : (declaredParam g).Yields
      fun param => ∀ name ∈ param.argument?, Text.isNameText name = true := by
    have unnamed : ∀ name ∈ some "_", Text.isNameText name = true := by decide
    refine .bind_any fun attrs => .bind_any fun _ => ?_
    exact .ite (fun _ => .pure unnamed) fun _ => genericParam_yields attrs
  refine .bind_any fun _ => .ite (fun _ => ?_) fun _ => .pure nofun
  exact .bind (.sepUntil declared) fun read each => .bind_any fun _ => .pure each

/-- A parameter with a type is called by the pattern before it. -/
theorem typedInput_yields (reads : g.Reads) (attrs : List Attribute) : (typedInput g attrs).Yields
    fun read => ∀ input, read = .inl input → input.IsNamed := by
  refine .bind_any fun _ => .ite (fun _ => .bind_any fun ty => .pure ?_) fun _ => ?_
  · rintro _ ⟨⟩
    exact nofun
  · refine .bind reads.pattern fun pattern named => .bind_any fun _ => .bind_any fun _ => ?_
    refine .ite (fun _ => .pure nofun) fun _ => .bind_any fun ty => .pure ?_
    rintro _ ⟨⟩
    exact named

/-- A parameter is a receiver, or is called by its pattern. -/
theorem input_yields (reads : g.Reads) (attrs : List Attribute) (first : Bool) :
    (input g attrs first).Yields fun read => ∀ input, read = .inl input → input.IsNamed := by
  refine .bind_any fun _ => .ite (fun _ => .pure nofun) fun _ => .bind_any fun _ => ?_
  refine .ite (fun _ => .bind_any fun receiver => .pure ?_) fun _ => typedInput_yields reads attrs
  rintro _ ⟨⟩
  exact trivial

/-- All parameters are named, by induction on the rounds in which they are read. -/
theorem inputsFrom_yields (reads : g.Reads) (first : Bool) (rounds : Nat) :
    (inputsFrom g first rounds).Yields fun read => ∀ input ∈ read.inputs, input.IsNamed := by
  induction rounds generalizing first with
  | zero => exact .fail
  | succ rounds ih =>
      refine .bind_any fun _ => .ite (fun _ => .pure nofun) fun _ => .bind_any fun attrs => ?_
      refine .bind (input_yields reads attrs first) fun read named => ?_
      split
      · exact .bind_any fun _ => .pure nofun
      next input =>
        have here : input.IsNamed := named input rfl
        refine .bind_any fun _ => .ite (fun _ => .pure (List.forall_mem_singleton.mpr here)) fun _ => ?_
        refine .bind_any fun _ => .bind (ih false) fun rest others => ?_
        exact .pure (List.forall_mem_cons.mpr ⟨here, others⟩)

/-- All parameters are named. -/
theorem inputs_yields (reads : g.Reads) :
    (inputs g).Yields fun read => ∀ input ∈ read.inputs, input.IsNamed :=
  .bind_any fun _ => inputsFrom_yields reads true _

/-- A signature gets its name, its generics and its parameters from words of the input. -/
theorem signatureWith_yields (reads : g.Reads) (mayBeSafe : Bool) :
    (signatureWith mayBeSafe g).Yields fun read => read.1.IsRead := by
  refine .bind_any fun isConst => .bind_any fun isAsync => .bind_any fun isSafe => ?_
  refine .bind_any fun isUnsafe => .bind_any fun abi => .bind_any fun _ => ?_
  refine .bind name_yields fun name plain => .bind generics_yields fun params passed => ?_
  refine .bind (.group (inputs_yields reads)) fun read inputs => ?_
  refine .bind (output?_yields reads.toReadsTypes true) fun output returned => ?_
  exact .bind_any fun conditions => .pure ⟨returned, plain, passed, inputs⟩

/-- So does a signature that cannot be safe. -/
theorem signature_yields (reads : g.Reads) : (signature g).Yields Signature.IsRead :=
  .bind (signatureWith_yields reads false) fun _ read => .pure read

/-- A method of a trait has a signature that was read. -/
theorem traitMethod_yields (reads : g.Reads) (attrs : List Attribute) :
    (traitMethod g attrs).Yields TraitEntry.IsRead := by
  refine .bind (signature_yields reads) fun head read => ?_
  refine .bind_any fun _ => .ite (fun _ => .pure read) fun _ => ?_
  exact .bind_any fun _ => .pure read

/-- An entry of a trait is a method with such a signature, or something else. -/
theorem traitEntry_yields (reads : g.Reads) : (traitEntry g).Yields TraitEntry.IsRead := by
  refine .bind_any fun before => .bind_any fun attrs => .bind_any fun visible => ?_
  refine .bind_any fun isDefault => .bind_any fun trees => ?_
  refine .bind_as TraitEntry.IsRead ?_ fun entry read => ?_
  · refine .ite (fun _ => traitMethod_yields reads attrs) fun _ => .ite (fun _ => ?_) fun _ => ?_
    · refine .bind_any fun read => .ite (fun _ => ?_) fun _ => .pure trivial
      exact .bind_any fun tokens => .pure trivial
    · refine .ite (fun _ => .bind_any fun read => .pure trivial) fun _ => ?_
      exact .bind_any fun tokens => .pure trivial
  · split
    · exact .pure read
    · exact .bind_any fun tokens => .pure trivial

/-- What is read between braces is what the body yields. -/
theorem body_yields {α : Type} {inside : Parser α} {post : α → Prop} (each : inside.Yields post) :
    (body g inside).Yields fun read => post read.2 :=
  .group (.bind_any fun _ => .bind each fun _ holds => .pure holds)

/-- A trait is called by a word, and its entries were read. -/
theorem traitItem_yields (reads : g.Reads) (attrs : List Attribute) (visible : Visibility) :
    (traitItem g attrs visible).Yields TraitItem.IsRead := by
  refine .bind_any fun isUnsafe => .bind_any fun isAuto => .bind_any fun _ => ?_
  refine .bind name_yields fun name plain => ?_
  refine .bind_any fun params => .bind_any fun supertraits => .bind_any fun conditions => ?_
  exact .bind (body_yields (.many (traitEntry_yields reads))) fun _ each => .pure ⟨plain, each⟩

/-! ## Structs -/

/-- A field is called by a word, at every depth of unnamed structs. -/
theorem namedFieldFrom_yields (depth : Nat) : (namedFieldFrom g depth).Yields
    fun field => ∀ name ∈ field.name, Text.isNameText name = true := by
  have named {name : String} (plain : Text.isNameText name = true) :
      ∀ called ∈ some name, Text.isNameText called = true := by
    intro called same
    exact Option.mem_some_iff.mp same ▸ plain
  cases depth with
  | zero => exact .fail
  | succ depth =>
      refine .bind_any fun attrs => .bind_any fun visible => .bind_any fun isUnnamed => ?_
      refine .bind_as (fun name => Text.isNameText name = true) ?_ fun name plain => ?_
      · exact .ite (fun _ => anyWord_yields) fun _ => name_yields
      · refine .bind_any fun _ => .bind_any fun before => .bind_any fun _ => .ite (fun _ => ?_) fun _ => ?_
        · exact .bind_any fun _ => .bind_any fun _ => .bind_any fun _ => .pure (named plain)
        · exact .bind_any fun ty => .pure (named plain)

/-- All named fields of a struct are called by words. -/
theorem structBody_yields : (structBody g).Yields fun read => read.2.IsNamed := by
  have fields : (namedFields g).Yields FieldList.IsNamed :=
    .bind (.group (.commaList (.bind_any fun _ => namedFieldFrom_yields _)))
      fun _ each => .pure each
  have tuple : (tupleFields g).Yields FieldList.IsNamed := .bind_any fun _ => .pure trivial
  refine .bind_any fun early => .bind_any fun _ => .ite (fun _ => ?_) fun _ => ?_
  · exact .bind tuple fun _ named => .bind_any fun _ => .bind_any fun _ => .pure named
  · refine .bind_any fun _ => .ite (fun _ => ?_) fun _ => .bind_any fun _ => .pure trivial
    exact .bind fields fun _ named => .pure named

/-- A struct is called by a word, and so are its fields. -/
theorem structItem_yields (attrs : List Attribute) (visible : Visibility) :
    (structItem g attrs visible).Yields StructItem.IsRead := by
  refine .bind_any fun _ => .bind name_yields fun name plain => .bind_any fun params => ?_
  exact .bind structBody_yields fun _ named => .pure ⟨plain, named⟩

/-! ## Items -/

/-- All items in the body of a module were read. -/
theorem moduleItem_yields (reads : g.Reads) (attrs : List Attribute) (visible : Visibility) :
    (moduleItem g attrs visible).Yields
      fun read => ∀ items ∈ read.2, ∀ item ∈ items, item.IsRead := by
  refine .bind_any fun isUnsafe => .bind_any fun _ => .bind_any fun name => .bind_any fun _ => ?_
  refine .ite (fun _ => .pure (by simp)) fun _ => ?_
  exact .bind (body_yields (.many reads.item)) fun _ each => .pure (by simpa using each)

/-- An implementation declares nothing that is scanned by its name. -/
theorem implItem_yields (before : Cursor) (attrs : List Attribute) (visible : Visibility) :
    (implItem g before attrs visible).Yields Item.IsRead := by
  refine .bind_any fun isDefault => .bind_any fun isUnsafe => .bind_any fun _ => ?_
  refine .bind_any fun params => .bind_any fun isConst => .when₂ fun _ => ?_
  refine .bind_any fun atSign => .bind_any fun isNegative => .when fun _ => ?_
  refine .bind_any fun first => .bind_any fun isFor => ?_
  refine .ite (fun _ => .bind_any fun _ => .fail_bind) fun _ => ?_
  refine .bind_any fun selfTy => .bind_any fun conditions => .bind_any fun members => ?_
  dsimp only
  split
  · exact .pure (.of_leaf (by simp) (by simp) (by simp))
  · exact .pure (.of_leaf (by simp) (by simp) (by simp))
  · exact .bind_any fun tokens => .pure (.other tokens)

/-- **Items are read.** What they declare is called by words of the input, if this holds of the
items inside them. -/
theorem item_yields (reads : g.Reads) : (item g).Yields Item.IsRead := by
  have other {α : Type} {read : Parser α} {make : α → List Token} :
      (read >>= fun a => pure (Item.other (make a))).Yields Item.IsRead :=
    .bind_any fun a => .pure (.other (make a))
  refine .bind_any fun before => .bind_any fun attrs => .bind_any fun atVisible => ?_
  refine .bind_any fun visible => .bind_any fun trees => .ite (fun _ => other) fun _ => ?_
  refine .ite (fun _ => .ite (fun _ => other) fun _ => .ite (fun _ => other) fun _ => ?_) fun _ => ?_
  · exact .bind_any fun _ => .bind_any fun _ => .fail
  refine .ite (fun _ => .bind_any fun read => ?_) fun _ => ?_
  · split
    · exact .pure (.of_leaf (by simp) (by simp) (by simp))
    · exact other
  have trait_ : (traitItem g attrs visible >>= fun inner => pure (Item.trait inner)).Yields
      Item.IsRead :=
    .bind (traitItem_yields reads attrs visible) fun _ read => .pure (.ofTrait read)
  have module_ : (moduleItem g attrs visible >>= fun read =>
      pure (Item.module read.1 read.2)).Yields Item.IsRead :=
    .bind (moduleItem_yields reads attrs visible) fun _ each => .pure (.module each)
  refine .ite (fun _ => .bind_any fun read => ?_) fun _ => ?_
  · exact .ite (fun _ => .pure (.other _)) fun _ => other
  refine .ite (fun _ => .bind_any fun read => ?_) fun _ => ?_
  · exact .ite (fun _ => other) fun _ => .pure (.other _)
  refine .ite (fun _ => .ite (fun _ => trait_) fun _ => ?_) fun _ => ?_
  · refine .ite (fun _ => implItem_yields before attrs visible) fun _ => ?_
    refine .ite (fun _ => other) fun _ => ?_
    exact .ite (fun _ => module_) fun _ => .bind_any fun _ => .fail
  refine .ite (fun _ => module_) fun _ => ?_
  refine .ite (fun _ => .bind_any fun read => ?_) fun _ => ?_
  · exact .ite (fun _ => other) fun _ => .pure (.other _)
  refine .ite (fun _ => ?_) fun _ => ?_
  · exact .bind (structItem_yields attrs visible) fun _ read => .pure (.ofStruct read)
  refine .ite (fun _ => other) fun _ => .ite (fun _ => other) fun _ => ?_
  refine .ite (fun _ => .bind_any fun tokens => ?_) fun _ => ?_
  · split
    · exact .pure (.other _)
    · exact trait_
  refine .ite (fun _ => trait_) fun _ => ?_
  refine .ite (fun _ => implItem_yields before attrs visible) fun _ => ?_
  refine .ite (fun _ => other) fun _ => ?_
  split
  · exact other
  · exact .fail

end Parser

namespace Grammar

/-- By induction on the depth, all items are read. -/
theorem reads_upTo (depth : Nat) : (upTo depth).Reads := by
  induction depth with
  | zero =>
      exact {
        ty := fun _ => .fail
        path := fun _ => .fail
        starts := .fail
        pattern := .fail
        item := .fail }
  | succ depth ih =>
      exact {
        ty := Parser.ty_yields ih.toReadsTypes
        path := Parser.path_yields ih.toReadsTypes
        starts := Parser.ty_starts ih.toReadsTypes
        pattern := Parser.pattern_yields
        item := Parser.item_yields ih }

end Grammar

/-! ## Texts -/

namespace Source

variable {α : Type} {phrase : Grammar → Parser α} {post : α → Prop}

/-- What holds at every depth holds of a text that is parsed. -/
theorem parseChars_yields (yields : ∀ depth, (phrase (Grammar.upTo depth)).Yields post)
    {chars : List Char} {a : α} (parsed : parseChars phrase chars = .ok a) : post a := by
  obtain ⟨trees, -, parsed⟩ := Except.bind_eq_ok_iff.mp parsed
  exact (yields _).run (Except.mapError_eq_ok_iff.mp parsed)

/-- All items of a file were read. -/
theorem parseFile_isRead {text : String} {items : List Item}
    (parsed : parseFile text = .ok items) : ∀ item ∈ items, item.IsRead := by
  have each (depth : Nat) : (Parser.items (Grammar.upTo depth)).Yields
      fun read => ∀ item ∈ read.2, item.IsRead :=
    .bind_any fun inner => .bind (.many (Parser.item_yields (Grammar.reads_upTo depth)))
      fun items each => .pure each
  obtain ⟨result, read, same⟩ := Except.bind_eq_ok_iff.mp parsed
  cases same
  exact parseChars_yields each read

/-- All items of a module that is expanded were read. -/
theorem moduleItem_isRead {text : String} {head : ModuleHead} {items : List Item}
    (parsed : parse moduleItem text = .ok (head, some items)) : ∀ item ∈ items, item.IsRead := by
  have each (depth : Nat) : (moduleItem (Grammar.upTo depth)).Yields
      fun read => ∀ items ∈ read.2, ∀ item ∈ items, item.IsRead :=
    .bind_any fun attrs => .bind_any fun visible =>
      Parser.moduleItem_yields (Grammar.reads_upTo depth) attrs visible
  exact parseChars_yields each parsed items rfl

end Source

/-- The declarations of the unit were read from a text: that of a file, or of a module. -/
inductive SourceUnit.IsRead : SourceUnit → Prop
  | file {name : String} {module : ModulePath} {text : String} {unit : SourceUnit}
      (parsed : SourceUnit.parse name module text = .ok unit) : IsRead unit
  | module {name : String} {module : ModulePath} {text : String} {head : ModuleHead}
      {items : List Item} (parsed : Source.parse Source.moduleItem text = .ok (head, some items)) :
      IsRead ⟨name, module, items⟩

/-- All items of a unit that was read were read. -/
theorem SourceUnit.IsRead.items_isRead {unit : SourceUnit} (read : unit.IsRead) :
    ∀ item ∈ unit.items, item.IsRead := by
  cases read with
  | @file name module text _ parsed =>
      unfold SourceUnit.parse at parsed
      split at parsed
      next items read =>
        cases parsed
        exact Source.parseFile_isRead read
      next => cases parsed
  | module parsed => exact Source.moduleItem_isRead parsed

namespace ScanResult

variable {marker : String} {units : List SourceUnit} (read : ∀ unit ∈ units, unit.IsRead)

include read

/-- What is found in units that were read is declared in items that were read. -/
theorem exists_declaredAt {module : ModulePath} {item : Item}
    (found : Discovery.found module item ∈ Discovery.ofUnits units) :
    ∃ items path, (∀ item ∈ items, item.IsRead) ∧ Item.DeclaredAt items path item := by
  obtain ⟨unit, listed, found⟩ := List.mem_flatMap.mp found
  obtain contrary | inside := List.mem_cons.mp found
  · cases contrary
  · obtain ⟨path, -, declared⟩ := Discovery.declaredAt_of_found_ofItems unit.items inside
    exact ⟨unit.items, path, (read unit listed).items_isRead, declared⟩

/-- **Scanned traits** are as they are read. -/
theorem isRead_of_mem_traits {decl : TraitDecl} (scanned : decl ∈ (ofUnits marker units).traits) :
    decl.item.IsRead := by
  obtain ⟨items, path, each, declared⟩ := exists_declaredAt read (found_of_mem_traits scanned)
  exact (Item.IsRead.of_declaredAt each declared).1 decl.item rfl

/-- **Scanned structs** are as they are read. -/
theorem isRead_of_mem_structs {decl : StructDecl}
    (scanned : decl ∈ (ofUnits marker units).structs) : decl.item.IsRead := by
  obtain ⟨items, path, each, declared⟩ := exists_declaredAt read (found_of_mem_structs scanned)
  exact (Item.IsRead.of_declaredAt each declared).2 decl.item rfl

end ScanResult

end VariantMerge
