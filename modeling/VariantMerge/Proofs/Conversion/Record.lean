import Mathlib.Logic.Function.Basic
import VariantMerge.Proofs.Entries

/-!
# Struct values

A struct value is known by its fields. It is made by a literal, which gives every declared field
once, or gives some fields and takes the others from a second value; and it is changed by
assignments to fields. Each of these fails where the code that it stands for would be rejected.
Given values with distinct names that are all fields, assignments one after the other and a literal
over another value come to the same: `Record.override`.
-/

namespace VariantMerge

/-- The values of a struct's fields by their names. -/
abbrev Record (α : Type*) := String → Option α

namespace Record

variable {α : Type*}

/-- The struct has exactly these fields. -/
def HasFields (record : Record α) (names : List String) : Prop :=
  ∀ name, (record name).isSome ↔ name ∈ names

/-- The struct with the given fields. -/
def ofGiven (given : List (String × α)) : Record α :=
  fun name => given.lookup name

/-- A struct literal, which has to give each declared field once. -/
def literal? (declared : List String) (given : List (String × α)) : Option (Record α) :=
  if (given.map Prod.fst).Nodup ∧ (given.map Prod.fst).Perm declared then some (ofGiven given)
  else none

/-- An assignment to a field, which has to be there. -/
def assign? (record : Record α) (name : String) (value : α) : Option (Record α) :=
  if (record name).isSome then some (Function.update record name (some value)) else none

/-- Assignments one after the other. -/
def assignAll? (record : Record α) : List (String × α) → Option (Record α)
  | [] => some record
  | (name, value) :: rest => (record.assign? name value).bind fun next => next.assignAll? rest

/-- A struct literal that gives some fields, each of them once, and takes the others from `base`. -/
def literalOver? (base : Record α) (given : List (String × α)) : Option (Record α) :=
  if (given.map Prod.fst).Nodup then base.assignAll? given else none

/-- The record with the given values, and its own where none is given. -/
def override (record : Record α) (given : List (String × α)) : Record α :=
  fun name => (given.lookup name).or (record name)

variable {record : Record α} {given : List (String × α)} {name : String} {value : α}

/-- A record has the fields that it was given. -/
theorem hasFields_ofGiven (given : List (String × α)) :
    (ofGiven given).HasFields (given.map Prod.fst) :=
  fun _ => lookup_isSome_iff_mem

/-- Each given field has its value, if no name is given twice. -/
theorem ofGiven_of_mem (distinct : (given.map Prod.fst).Nodup)
    (member : (name, value) ∈ given) : ofGiven given name = some value :=
  (lookup_eq_some_iff_mem distinct).mpr member

/-- A field that is overridden has its new value. -/
theorem override_of_mem (distinct : (given.map Prod.fst).Nodup)
    (member : (name, value) ∈ given) : record.override given name = some value := by
  rw [override, (lookup_eq_some_iff_mem distinct).mpr member, Option.some_or]

/-- Any other field keeps its value. -/
theorem override_of_notMem (absent : name ∉ given.map Prod.fst) :
    record.override given name = record name := by
  rw [override, lookup_eq_none_of_notMem absent, Option.none_or]

/-- Giving values to fields leaves the fields that there are. -/
theorem HasFields.override {names : List String} (fields : record.HasFields names)
    (present : ∀ name ∈ given.map Prod.fst, name ∈ names) :
    (record.override given).HasFields names := by
  intro name
  by_cases listed : name ∈ given.map Prod.fst
  · have found := lookup_isSome_iff_mem.mpr listed
    simp only [Record.override, Option.isSome_or, found, Bool.true_or, true_iff]
    exact present name listed
  · rw [override_of_notMem listed]
    exact fields name

/-- The first assignment of many to distinct fields. -/
theorem override_cons (absent : name ∉ given.map Prod.fst) :
    override (Function.update record name (some value)) given =
      record.override ((name, value) :: given) := by
  funext other
  by_cases same : other = name
  · subst same
    rw [override_of_notMem absent, Function.update_self, override, List.lookup_cons_self,
      Option.some_or]
  · rw [override, override, Function.update_of_ne same, List.lookup_cons,
      beq_eq_false_iff_ne.mpr same]

/-- **Assignments one after the other.** If they are to distinct fields, each of them stays. -/
theorem assignAll?_eq (distinct : (given.map Prod.fst).Nodup)
    (present : ∀ name ∈ given.map Prod.fst, (record name).isSome) :
    record.assignAll? given = some (record.override given) := by
  induction given generalizing record with
  | nil => rfl
  | cons entry rest ih =>
      obtain ⟨name, value⟩ := entry
      rw [List.map_cons, List.nodup_cons] at distinct
      have assigned : record.assign? name value =
          some (Function.update record name (some value)) :=
        if_pos (present name List.mem_cons_self)
      have later : ∀ other ∈ rest.map Prod.fst,
          (Function.update record name (some value) other).isSome := by
        intro other member
        have different : other ≠ name := by
          rintro rfl
          exact distinct.1 member
        rw [Function.update_of_ne different]
        exact present other (List.mem_cons_of_mem _ member)
      rw [assignAll?, assigned, Option.bind_some, ih distinct.2 later, override_cons distinct.1]

/-- A literal with a base overrides it, if no field is given twice and all are there. -/
theorem literalOver?_eq (distinct : (given.map Prod.fst).Nodup)
    (present : ∀ name ∈ given.map Prod.fst, (record name).isSome) :
    record.literalOver? given = some (record.override given) := by
  rw [literalOver?, if_pos distinct, assignAll?_eq distinct present]

/-- A literal that gives each field of a record its value makes the record. -/
theorem literal?_eq {declared : List String} (fields : record.HasFields declared)
    (distinct : declared.Nodup) (names : given.map Prod.fst = declared)
    (values : ∀ entry ∈ given, record entry.1 = some entry.2) :
    literal? declared given = some record := by
  subst names
  rw [literal?, if_pos ⟨distinct, List.Perm.refl _⟩, Option.some.injEq]
  funext name
  by_cases listed : name ∈ given.map Prod.fst
  · obtain ⟨entry, member, rfl⟩ := List.mem_map.mp listed
    rw [values entry member]
    exact ofGiven_of_mem distinct member
  · have missing : record name = none :=
      Option.not_isSome_iff_eq_none.mp ((fields name).not.mpr listed)
    rw [ofGiven, lookup_eq_none_of_notMem listed, missing]

end Record

end VariantMerge
