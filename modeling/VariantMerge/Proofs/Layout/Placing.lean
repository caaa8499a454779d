import Mathlib.Data.List.Forall2
import Mathlib.Data.List.Nodup
import Mathlib.Data.List.Range
import VariantMerge.Layout

/-!
# Placing one field, and the fields of one variant

Everything that placing a field can do is said once, by `SlotLayout.Placing.Step`: the field goes
to one slot that its variant has not taken and that stores its type, earlier slots keep their
position and type, and a new slot is added only if every slot of the type is taken.
`SlotLayout.Placing.place_step` shows that placing takes such a step. A run over the fields of a
variant is a sequence of steps, `SlotLayout.Placing.Run`, and `SlotLayout.placeAll_invariant` is
what it leaves: the fields in distinct slots of their types, and all other slots as they were.
-/

namespace VariantMerge

/-- What never changes about a slot: where it stands and what it stores. -/
def Slot.core (slot : Slot) : Nat × Ty := (slot.index, slot.ty)

/-- The slot with one more user if it is the one at `index`. -/
def Slot.usedBy (index : Nat) (user : String × String) (slot : Slot) : Slot :=
  if slot.index = index then { slot with users := slot.users ++ [user] } else slot

/-- A new user does not change what the slot is. -/
@[simp] theorem Slot.usedBy_core (index : Nat) (user : String × String) (slot : Slot) :
    (slot.usedBy index user).core = slot.core := by
  unfold Slot.usedBy Slot.core
  split <;> rfl

/-- A user is added to the slot with its index. -/
@[simp] theorem Slot.usedBy_users (index : Nat) (user : String × String) (slot : Slot) :
    (slot.usedBy index user).users =
      slot.users ++ if slot.index = index then [user] else [] := by
  unfold Slot.usedBy
  split <;> simp

namespace SlotLayout

/-- Each slot carries the position at which it stands. -/
def Indexed (slots : List Slot) : Prop :=
  slots.map Slot.index = List.range slots.length

/-- The key of the type that the slot at a position stores. -/
def keyAt (slots : List Slot) (index : Nat) : Option String :=
  slots[index]?.map fun slot => slot.ty.key

/-- The users of the slot at a position. -/
def usersAt (slots : List Slot) (index : Nat) : List (String × String) :=
  (slots[index]?.map Slot.users).getD []

/-- Slots are only added at the end, and keep their position and type. -/
def Grows (before after : List Slot) : Prop :=
  before.map Slot.core <+: after.map Slot.core

/-- A slot stands at its index. -/
theorem Indexed.index_eq {slots : List Slot} (indexed : Indexed slots) {position : Nat}
    {slot : Slot} (found : slots[position]? = some slot) : slot.index = position := by
  have inside : position < slots.length := (List.getElem?_eq_some_iff.mp found).1
  have mapped : (slots.map Slot.index)[position]? = some slot.index := by
    rw [List.getElem?_map, found, Option.map_some]
  rw [indexed, List.getElem?_range inside] at mapped
  exact (Option.some.inj mapped).symm

/-- A slot stands where its index says. -/
theorem Indexed.getElem? {slots : List Slot} (indexed : Indexed slots) {slot : Slot}
    (member : slot ∈ slots) : slots[slot.index]? = some slot := by
  obtain ⟨position, found⟩ := List.mem_iff_getElem?.mp member
  rwa [indexed.index_eq found]

/-- No two slots have one index. -/
theorem Indexed.index_nodup {slots : List Slot} (indexed : Indexed slots) :
    (slots.map Slot.index).Nodup := by
  rw [indexed]
  exact List.nodup_range

/-- Slots with the same cores have the same positions. -/
theorem Indexed.of_core_eq {before after : List Slot} (indexed : Indexed before)
    (same : after.map Slot.core = before.map Slot.core) : Indexed after := by
  have lengths : after.length = before.length := by
    simpa only [List.length_map] using congrArg List.length same
  have indices := congrArg (List.map Prod.fst) same
  simp only [List.map_map] at indices
  unfold Indexed
  rw [lengths, ← indexed]
  exact indices

/-- A new slot gets the next index. -/
theorem Indexed.concat {slots : List Slot} (indexed : Indexed slots) (ty : Ty)
    (users : List (String × String)) : Indexed (slots ++ [⟨slots.length, ty, users⟩]) := by
  unfold Indexed at indexed ⊢
  rw [List.map_append, indexed, List.length_append, List.length_singleton, List.range_succ]
  rfl

/-- Slots have grown from themselves. -/
theorem Grows.refl (slots : List Slot) : Grows slots slots :=
  List.prefix_refl _

/-- Growing twice is growing. -/
theorem Grows.trans {first second third : List Slot} (early : Grows first second)
    (late : Grows second third) : Grows first third :=
  List.IsPrefix.trans early late

/-- A slot that is there keeps its key. -/
theorem Grows.keyAt {before after : List Slot} (grows : Grows before after) {index : Nat}
    {key : String} (found : keyAt before index = some key) : keyAt after index = some key := by
  have cores (slots : List Slot) :
      SlotLayout.keyAt slots index = (slots.map Slot.core)[index]?.map fun core => core.2.key := by
    rw [List.getElem?_map, Option.map_map]
    rfl
  rw [cores] at found ⊢
  obtain ⟨core, present, rfl⟩ := Option.map_eq_some_iff.mp found
  obtain ⟨inside, rfl⟩ := List.getElem?_eq_some_iff.mp present
  rw [List.prefix_iff_getElem?.mp grows index inside, Option.map_some]

/-! ## One field -/

namespace Placing

/-- Whether the variant may still take the slot for a field of this type. -/
theorem fits_iff {slot : Slot} {taken : List Nat} {key : String} :
    slot.fits taken key = true ↔ slot.index ∉ taken ∧ slot.ty.key = key := by
  simp [Slot.fits]

/-- What placing a field of a variant does, where `index` is the slot that it is given. -/
structure Step (variant : String) (field : VariantField) (before after : Placing)
    (index : Nat) : Prop where
  placed : after.placed = before.placed ++ [(field.name, index)]
  free : index ∉ before.taken
  indexed : Indexed after.slots
  key : keyAt after.slots index = some field.ty.key
  grows : Grows before.slots after.slots
  users : ∀ position, usersAt after.slots position =
    usersAt before.slots position ++ if position = index then [(variant, field.name)] else []
  /-- A slot is added only when the slots of the type are all taken. -/
  reusesOrAdds :
    (keyAt before.slots index = some field.ty.key ∧
        after.slots.map Slot.core = before.slots.map Slot.core) ∨
      (index = before.slots.length ∧
        (∀ slot ∈ before.slots, slot.ty.key = field.ty.key → slot.index ∈ before.taken) ∧
        after.slots.map Slot.core =
          before.slots.map Slot.core ++ [(before.slots.length, field.ty)])

/-- A slot that is used once more is so at its own position only. -/
theorem usersAt_usedBy {slots : List Slot} (indexed : Indexed slots) {slot : Slot}
    (member : slot ∈ slots) (user : String × String) (position : Nat) :
    usersAt (slots.map (Slot.usedBy slot.index user)) position =
      usersAt slots position ++ if position = slot.index then [user] else [] := by
  unfold usersAt
  rw [List.getElem?_map]
  cases present : slots[position]? with
  | none =>
      have other : position ≠ slot.index := by
        rintro rfl
        rw [indexed.getElem? member] at present
        cases present
      simp [other]
  | some kept => simp [indexed.index_eq present]

/-- A new slot has its first user. -/
theorem usersAt_concat (slots : List Slot) (ty : Ty) (user : String × String) (position : Nat) :
    usersAt (slots ++ [⟨slots.length, ty, [user]⟩]) position =
      usersAt slots position ++ if position = slots.length then [user] else [] := by
  unfold usersAt
  obtain before | rfl | beyond := Nat.lt_trichotomy position slots.length
  · have other : position ≠ slots.length := Nat.ne_of_lt before
    simp [List.getElem?_append_left before, other]
  · simp
  · have other : position ≠ slots.length := Nat.ne_of_gt beyond
    have outside (slot : Slot) : (slots ++ [slot])[position]? = none := by
      apply List.getElem?_eq_none
      rw [List.length_append]
      exact beyond
    simp [outside, List.getElem?_eq_none (Nat.le_of_lt beyond), other]

variable {variant : String} {field : VariantField} {placing : Placing}

/-- A field goes to a slot that fits. -/
theorem reuse_step (indexed : Indexed placing.slots) {slot : Slot}
    (search : placing.slots.find? (·.fits placing.taken field.ty.key) = some slot) :
    Step variant field placing (placing.place variant field) slot.index := by
  have placed : placing.place variant field = ⟨
      placing.slots.map (Slot.usedBy slot.index (variant, field.name)),
      placing.placed ++ [(field.name, slot.index)]⟩ := by
    rw [place, search]
    rfl
  have fits : slot.fits placing.taken field.ty.key = true := by
    simpa using List.find?_some search
  obtain ⟨free, key⟩ := fits_iff.mp fits
  have member := List.mem_of_find?_eq_some search
  have same : (placing.slots.map (Slot.usedBy slot.index (variant, field.name))).map
      Slot.core = placing.slots.map Slot.core := by
    simp only [List.map_map, Function.comp_def, Slot.usedBy_core]
  have stored : keyAt placing.slots slot.index = some field.ty.key := by
    rw [keyAt, indexed.getElem? member, Option.map_some, key]
  have grows : Grows placing.slots
      (placing.slots.map (Slot.usedBy slot.index (variant, field.name))) :=
    ⟨[], by rw [List.append_nil, same]⟩
  rw [placed]
  exact ⟨rfl, free, indexed.of_core_eq same, grows.keyAt stored, grows,
    usersAt_usedBy indexed member (variant, field.name), .inl ⟨stored, same⟩⟩

/-- A field that fits in no slot gets a new one. -/
theorem add_step (indexed : Indexed placing.slots) (inside : ∀ index ∈ placing.taken,
      index < placing.slots.length)
    (search : placing.slots.find? (·.fits placing.taken field.ty.key) = none) :
    Step variant field placing (placing.place variant field) placing.slots.length := by
  have placed : placing.place variant field = ⟨
      placing.slots ++ [⟨placing.slots.length, field.ty, [(variant, field.name)]⟩],
      placing.placed ++ [(field.name, placing.slots.length)]⟩ := by
    rw [place, search]
  have taken : ∀ slot ∈ placing.slots, slot.ty.key = field.ty.key →
      slot.index ∈ placing.taken := by
    intro slot member key
    by_contra free
    exact List.find?_eq_none.mp search slot member (fits_iff.mpr ⟨free, key⟩)
  have cores : (placing.slots ++
      [Slot.mk placing.slots.length field.ty [(variant, field.name)]]).map Slot.core =
        placing.slots.map Slot.core ++ [(placing.slots.length, field.ty)] := by
    rw [List.map_append]
    rfl
  rw [placed]
  refine ⟨rfl, fun member => Nat.lt_irrefl _ (inside _ member), indexed.concat _ _, ?_,
    ⟨_, cores.symm⟩, usersAt_concat placing.slots field.ty (variant, field.name),
    .inr ⟨rfl, taken, cores⟩⟩
  simp [keyAt]

/-- The field goes to the first slot that fits, or to a new one. -/
theorem place_step (variant : String) (field : VariantField) {placing : Placing}
    (indexed : Indexed placing.slots) (inside : ∀ index ∈ placing.taken,
      index < placing.slots.length) :
    ∃ index, Step variant field placing (placing.place variant field) index := by
  cases search : placing.slots.find? (·.fits placing.taken field.ty.key) with
  | some slot => exact ⟨slot.index, reuse_step indexed search⟩
  | none => exact ⟨placing.slots.length, add_step indexed inside search⟩

end Placing

/-! ## All fields of one variant -/

/-- A position with a key is one of the slots'. -/
theorem keyAt_lt {slots : List Slot} {index : Nat} {key : String}
    (found : keyAt slots index = some key) : index < slots.length := by
  obtain ⟨slot, present, -⟩ := Option.map_eq_some_iff.mp found
  exact (List.getElem?_eq_some_iff.mp present).1

/-- Where the fields of a variant went: each under its own name, to a slot that stores its type,
no two of them to the same slot. -/
structure Placed (slots : List Slot) (fields : List VariantField)
    (placed : List (String × Nat)) : Prop where
  entries : placed.map (fun entry => (entry.1, keyAt slots entry.2)) =
    fields.map fun field => (field.name, some field.ty.key)
  distinct : (placed.map Prod.snd).Nodup

namespace Placed

variable {slots : List Slot} {fields : List VariantField} {placed : List (String × Nat)}

/-- The fields are placed in their order. -/
theorem names (valid : Placed slots fields placed) :
    placed.map Prod.fst = fields.map VariantField.name := by
  simpa only [List.map_map, Function.comp_def] using
    congrArg (List.map Prod.fst) valid.entries

/-- What is placed is a field, in a slot of its key. -/
theorem exists_field (valid : Placed slots fields placed) {entry : String × Nat}
    (member : entry ∈ placed) :
    ∃ field ∈ fields, field.name = entry.1 ∧ keyAt slots entry.2 = some field.ty.key := by
  have listed := List.mem_map_of_mem (f := fun entry : String × Nat =>
    (entry.1, keyAt slots entry.2)) member
  rw [valid.entries] at listed
  obtain ⟨field, declared, same⟩ := List.mem_map.mp listed
  exact ⟨field, declared, congrArg Prod.fst same, (congrArg Prod.snd same).symm⟩

/-- Each field is placed in a slot of its key. -/
theorem exists_entry (valid : Placed slots fields placed) {field : VariantField}
    (member : field ∈ fields) :
    ∃ index, (field.name, index) ∈ placed ∧ keyAt slots index = some field.ty.key := by
  have listed := List.mem_map_of_mem (f := fun field : VariantField =>
    (field.name, some field.ty.key)) member
  rw [← valid.entries] at listed
  obtain ⟨⟨name, index⟩, present, same⟩ := List.mem_map.mp listed
  obtain ⟨rfl, key⟩ := Prod.mk.inj same
  exact ⟨index, present, key⟩

/-- Fields are placed in slots that there are. -/
theorem lt_length (valid : Placed slots fields placed) :
    ∀ index ∈ placed.map Prod.snd, index < slots.length := by
  intro index member
  obtain ⟨entry, present, rfl⟩ := List.mem_map.mp member
  obtain ⟨field, -, -, key⟩ := valid.exists_field present
  exact keyAt_lt key

/-- More slots take nothing from a variant. -/
theorem grow {more : List Slot} (valid : Placed slots fields placed) (grows : Grows slots more) :
    Placed more fields placed := by
  refine ⟨?_, valid.distinct⟩
  rw [← valid.entries]
  apply List.map_congr_left
  intro entry member
  obtain ⟨field, -, -, key⟩ := valid.exists_field member
  rw [key, grows.keyAt key]

end Placed

namespace Placing

/-- What placing fields of a variant has done so far to the slots `before`. -/
structure Invariant (before : List Slot) (variant : String) (fields : List VariantField)
    (placing : Placing) : Prop where
  indexed : Indexed placing.slots
  grows : Grows before placing.slots
  placed : Placed placing.slots fields placing.placed
  users : ∀ position user, user ∈ usersAt placing.slots position ↔
    user ∈ usersAt before position ∨ user.1 = variant ∧ (user.2, position) ∈ placing.placed
  /-- Every slot that was added is used. -/
  used : ∀ position < placing.slots.length,
    position < before.length ∨ position ∈ placing.taken

/-- **One field.** Placing it keeps what holds of the fields before it. -/
theorem Step.invariant {before : List Slot} {variant : String} {fields : List VariantField}
    {field : VariantField} {placing after : Placing} {index : Nat}
    (step : Step variant field placing after index)
    (valid : Invariant before variant fields placing) :
    Invariant before variant (fields ++ [field]) after where
  indexed := step.indexed
  grows := valid.grows.trans step.grows
  placed := by
    refine ⟨?_, ?_⟩
    · rw [step.placed, List.map_append, List.map_append, (valid.placed.grow step.grows).entries,
        List.map_singleton, List.map_singleton, step.key]
    · rw [step.placed, List.map_append, List.map_singleton, List.nodup_append]
      refine ⟨valid.placed.distinct, List.nodup_singleton _, ?_⟩
      intro earlier member new same equal
      rw [equal, List.mem_singleton.mp same] at member
      exact step.free member
  users := by
    intro position user
    rw [step.users, List.mem_append, valid.users, step.placed, List.mem_append, or_assoc]
    refine or_congr_right ?_
    by_cases here : position = index
    · subst here
      simp only [↓reduceIte, List.mem_singleton, Prod.ext_iff, and_true]
      tauto
    · simp [here]
  used := by
    intro position inside
    rw [taken, step.placed, List.map_append, List.mem_append]
    by_cases old : position < placing.slots.length
    · exact (valid.used position old).imp_right .inl
    · obtain ⟨-, cores⟩ | ⟨added, -, cores⟩ := step.reusesOrAdds
      · have lengths := congrArg List.length cores
        simp only [List.length_map] at lengths
        exact (old (lengths ▸ inside)).elim
      · have lengths := congrArg List.length cores
        simp only [List.length_map, List.length_append, List.length_singleton] at lengths
        have here : position = index := by omega
        exact .inr (.inr (List.mem_singleton.mpr here))

/-- Fields of a variant that are placed one after the other, starting from some slots. -/
inductive Run (slots : List Slot) (variant : String) : List VariantField → Placing → Prop
  | start : Run slots variant [] ⟨slots, []⟩
  | step {fields : List VariantField} {field : VariantField} {placing after : Placing}
      {index : Nat} (run : Run slots variant fields placing)
      (step : Step variant field placing after index) : Run slots variant (fields ++ [field]) after

/-- **All fields.** By induction, what holds after each field holds after the last one. -/
theorem Run.invariant {slots : List Slot} {variant : String} {fields : List VariantField}
    {placing : Placing} (run : Run slots variant fields placing) (indexed : Indexed slots) :
    Invariant slots variant fields placing := by
  induction run with
  | start =>
      exact ⟨indexed, Grows.refl slots, ⟨rfl, List.nodup_nil⟩, by simp,
        fun _ inside => .inl inside⟩
  | step _ step ih => exact step.invariant ih

end Placing

/-- The slots after all fields of a variant have been placed, with where they went. -/
def placeAll (slots : List Slot) (variant : Variant) : Placing :=
  variant.fields.foldl (Placing.place variant.name) ⟨slots, []⟩

/-- All fields are placed one by one. -/
theorem placeAll_run {slots : List Slot} (indexed : Indexed slots) (variant : Variant) :
    Placing.Run slots variant.name variant.fields (placeAll slots variant) := by
  unfold placeAll
  induction variant.fields using List.reverseRecOn with
  | nil => exact .start
  | append_singleton fields field ih =>
      have valid := ih.invariant indexed
      rw [List.foldl_append, List.foldl_cons, List.foldl_nil]
      obtain ⟨index, step⟩ := Placing.place_step variant.name field valid.indexed
        valid.placed.lt_length
      exact ih.step step

/-- **Placing a variant.** Its fields go to distinct slots of their types, and to nothing else. -/
theorem placeAll_invariant {slots : List Slot} (indexed : Indexed slots) (variant : Variant) :
    Placing.Invariant slots variant.name variant.fields (placeAll slots variant) :=
  (placeAll_run indexed variant).invariant indexed

end SlotLayout

end VariantMerge
