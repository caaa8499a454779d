import VariantMerge.Proofs.Grammar.TypeText
import VariantMerge.Proofs.Import.Flattening

/-!
# Import trees in source texts

The names in an import tree that is read from a text are words that can stand where they stand
(`Source.isReadable_of_parse`). In the other direction, a tree with a single branch of such words is read
back from its tokens (`Import.useTreeFrom_runs`).
-/

namespace VariantMerge

open VariantMerge.Parser

/-- A word that is no keyword, or one of those that can stand in its place. -/
def IsNameOr (allowed : List String) (name : String) : Prop :=
  Token.isName name = true ∧ (name ∉ keywords ∨ name ∈ allowed)

instance (allowed : List String) : DecidablePred (IsNameOr allowed) :=
  fun _ => inferInstanceAs (Decidable (_ ∧ _))

/-- More keywords may be allowed. -/
theorem IsNameOr.mono {allowed more : List String} {name : String} (named : IsNameOr allowed name)
    (subset : allowed ⊆ more) : IsNameOr more name :=
  named.imp_right (Or.imp_right fun listed => subset listed)

/-- A word that can stand in the path of an import. -/
abbrev IsSegment : String → Prop := IsNameOr ["self", "super", "crate", "try"]

/-- A word that an import can rename something to. -/
abbrev IsNewName : String → Prop := IsNameOr ["_"]

/-- A word that a module can be declared by. -/
abbrev IsModuleName : String → Prop := IsNameOr ["try"]

/-- The root is a segment. -/
theorem isSegment_crate : IsSegment "crate" := by decide

/-- The name of a module is a segment. -/
theorem IsModuleName.isSegment {name : String} (named : IsModuleName name) : IsSegment name :=
  named.mono (by decide)

/-- No module is called by the keyword for itself. -/
theorem IsModuleName.ne_self {name : String} (named : IsModuleName name) : name ≠ "self" := by
  rintro rfl
  exact absurd named (by decide)

namespace ImportedName

/-- The names in it can be read. -/
def IsReadable : ImportedName → Prop
  | name outer => IsSegment outer
  | glob => True
  | renamed outer newName => IsSegment outer ∧ IsNewName newName

instance : DecidablePred IsReadable
  | name _ => inferInstanceAs (Decidable (IsSegment _))
  | glob => inferInstanceAs (Decidable True)
  | renamed _ _ => inferInstanceAs (Decidable (_ ∧ _))

/-- The leaf of an import tree. -/
def leafTree : ImportedName → UseTree
  | name outer => .name outer
  | glob => .glob
  | renamed outer newName => .rename outer newName

/-- A leaf is at the end of the path above it. -/
theorem leaves_leafTree (imported : ImportedName) (above : List String) :
    imported.leafTree.leaves above = [(above, imported)] := by
  cases imported <;> rfl

end ImportedName

/-- A branch whose names can be read. -/
structure IsReadableBranch (leaf : List String × ImportedName) : Prop where
  path : ∀ name ∈ leaf.1, IsSegment name
  imported : leaf.2.IsReadable

instance : DecidablePred IsReadableBranch := fun leaf =>
  decidable_of_iff ((∀ name ∈ leaf.1, IsSegment name) ∧ leaf.2.IsReadable)
    ⟨fun both => ⟨both.1, both.2⟩, fun readable => ⟨readable.path, readable.imported⟩⟩

namespace UseTree

/-- All names in the tree can be read. -/
def IsReadable (tree : UseTree) : Prop :=
  ∀ leaf ∈ tree.branches, IsReadableBranch leaf

instance : DecidablePred IsReadable :=
  fun tree => inferInstanceAs (Decidable (∀ leaf ∈ tree.branches, _))

/-- A path is readable if its names are. -/
theorem isReadable_path {first : String} {rest : UseTree} (segment : IsSegment first)
    (readable : rest.IsReadable) : (UseTree.path first rest).IsReadable := by
  refine List.forall_mem_map.mpr fun leaf listed => ?_
  obtain ⟨path, imported⟩ := readable leaf listed
  exact ⟨List.forall_mem_cons.mpr ⟨segment, path⟩, imported⟩

/-- A leaf is readable if its names are. -/
theorem isReadable_leafTree (imported : ImportedName) (readable : imported.IsReadable) :
    imported.leafTree.IsReadable := by
  have single : imported.leafTree.branches = [([], imported)] := by cases imported <;> rfl
  rw [IsReadable, single]
  exact List.forall_mem_singleton.mpr ⟨List.forall_mem_nil _, readable⟩

/-- A group is readable if all branches in it are. -/
theorem isReadable_group {items : List UseTree} {trailing : Bool}
    (each : ∀ tree ∈ items, tree.IsReadable) : (UseTree.group items trailing).IsReadable := by
  intro leaf listed
  rw [branches, branchesOfAll_eq_flatMap] at listed
  obtain ⟨tree, among, inside⟩ := List.mem_flatMap.mp listed
  exact each tree among leaf inside

end UseTree

/-! ## Import trees taken from a text -/

namespace Parser

/-- A word that is taken because of what it looks like. -/
theorem takes_word {β : Type} (post : String → Prop) {condition : List Tree → Bool} {found : Bool}
    {next : String → Parser β} {after : β → Prop} (starts : found = true)
    (told : ∀ line name rest, condition (.ident line name :: rest) = true →
      Token.isName name = true → post name)
    (others : ∀ name, post name → Takes (next name) after) :
    Finds (fun trees => True ∧ found = condition trees) (anyWord >>= next) fun b _ => after b := by
  refine Finds.bind_as (fun name _ => post name) (Finds.anyWord.mono ?_) fun name =>
    Finds.known (post name) (fun _ holds => holds) fun holds => (others name holds).finds
  rintro name _ ⟨named, line, rest, -, same⟩
  exact told line name rest (same.symm.trans starts) named

/-- A tree that is found, if there is one, can be read. -/
theorem readable_some {tree : UseTree} (readable : tree.IsReadable) :
    ∀ other ∈ some tree, other.IsReadable := by
  rintro _ ⟨rfl⟩
  exact readable

/-- Nothing is readable if there is nothing. -/
theorem readable_none : ∀ tree ∈ (none : Option UseTree), tree.IsReadable :=
  fun _ listed => absurd listed (Option.not_mem_none _)

/-- A leaf that was read is readable. -/
theorem readable_leaf (imported : ImportedName) (readable : imported.IsReadable) :
    ∀ other ∈ some imported.leafTree, other.IsReadable :=
  readable_some (UseTree.isReadable_leafTree imported readable)

/-- Below a name there is another tree, its new name or nothing. -/
theorem behindName_takes {rounds : Nat} {name : String} (segment : IsSegment name)
    (below : Takes (useTreeFrom false rounds) fun found => ∀ tree ∈ found, tree.IsReadable) :
    Takes (do
      if ← op? "::" then
        match ← useTreeFrom false rounds with
        | some rest => return some (UseTree.path name rest)
        | none => return none
      else if ← keyword? "as" then
        if ← looks fun trees => startsName trees || startsWord "_" trees then
          return some (UseTree.rename name (← anyWord))
        else fail
      else return some (UseTree.name name)) fun found => ∀ tree ∈ found, tree.IsReadable := by
  refine .skip .op? fun _ => .ite (fun _ => ?_) fun _ => .skip .keyword? fun _ =>
    .ite (fun _ => ?_) fun _ => .pure (readable_leaf (.name name) segment)
  · refine .bind below fun below readable => ?_
    cases below with
    | none => exact .pure readable_none
    | some rest => exact .pure (readable_some (UseTree.isReadable_path segment (readable rest rfl)))
  · refine Finds.bind Finds.looks fun found => .ite (fun starts => ?_) fun _ => .fail
    refine takes_word IsNewName starts (fun line name rest holds named => ⟨named, ?_⟩)
      fun newName new => .pure (readable_leaf (.renamed name newName) ⟨segment, new⟩)
    rw [startsName, Bool.or_eq_true, Bool.not_eq_true'] at holds
    exact holds.imp (by simp) fun same => List.mem_singleton.mpr (beq_iff_eq.mp same)

/-- A tree in a group may start anew at the root, and is then none that a group can show. -/
theorem groupMember_takes {rounds : Nat} (atRoot : Bool)
    (each : ∀ atRoot, Takes (useTreeFrom atRoot rounds) fun found => ∀ tree ∈ found, tree.IsReadable) :
    Takes (do
        let fresh ← (do if atRoot then op? "::" else return false)
        let tree ← useTreeFrom (atRoot && !fresh) rounds
        return if fresh then none else tree)
      fun found => ∀ tree ∈ found, tree.IsReadable := by
  have anew : Takes (do if atRoot then op? "::" else return false) fun _ => True :=
    .ite (fun _ => .op?) fun _ => .pure trivial
  refine .skip anew fun fresh => .bind (each _) fun found readable => .pure ?_
  split
  · exact readable_none
  · exact readable

/-- All names in an import tree that is taken from a text can be read. -/
theorem useTreeFrom_takes (atRoot : Bool) (rounds : Nat) :
    Takes (useTreeFrom atRoot rounds) fun found => ∀ tree ∈ found, tree.IsReadable := by
  induction rounds generalizing atRoot with
  | zero => exact .fail
  | succ rounds ih =>
      refine Finds.bind Finds.looks fun found => .ite (fun starts => ?_) fun _ => ?_
      · refine takes_word IsSegment starts (fun line name rest holds named => ⟨named, ?_⟩)
          fun name segment => behindName_takes segment (ih false)
        rw [startsName, Bool.or_eq_true, Bool.not_eq_true', List.any_eq_true] at holds
        refine holds.imp (by simp) ?_
        rintro ⟨word, listed, same⟩
        exact beq_iff_eq.mp same ▸ listed
      · refine Takes.finds (.skip .op? fun _ => .ite (fun _ => .pure (readable_leaf .glob trivial))
          fun _ => .look fun _ => .ite (fun _ => ?_) fun _ => .fail)
        refine .group (.bind (.commaList (groupMember_takes atRoot ih)) fun read listed => .pure ?_)
        split
        · refine readable_some (UseTree.isReadable_group fun tree among => ?_)
          obtain ⟨found, there, same⟩ := List.mem_filterMap.mp among
          exact listed.1 found there tree same
        · exact readable_none

/-- All names in an import can be read, whatever stands before it. -/
theorem useItem?_takes (atRoot : Bool) (attrs : List Attribute) (visible : Visibility) :
    Takes (useItem? atRoot attrs visible) fun found => ∀ item ∈ found, item.tree.IsReadable := by
  refine .skip .keyword fun _ => .skip .op? fun leading => Finds.bind Finds.ahead fun trees => ?_
  refine Takes.finds (.bind (useTreeFrom_takes _ _) fun found readable => .skip .op fun _ => .pure ?_)
  intro item listed
  obtain ⟨tree, there, rfl⟩ := Option.map_eq_some_iff.mp listed
  exact readable tree there

/-- A visibility says nothing about what follows it. -/
theorem visibility_takes : Takes visibility fun _ => True := by
  have inside {pre : List Tree → Prop} {inner : List Tree} {closeLine : Nat} :
      Finds pre (within inner closeLine plainPath) fun _ trees => pre trees := by
    intro cursor a last start ran
    unfold within at ran
    split at ran
    next => cases ran
    next =>
      cases ran
      exact start
  have past {group : Tree} {rest : List Tree} :
      Finds (fun trees => True ∧ group :: rest = trees) (moveTo rest) fun _ _ => True := by
    rintro cursor a last ⟨all, -, same⟩ ran
    cases ran
    rw [← same] at all
    exact ⟨all.2, trivial⟩
  refine .skip .keyword? fun _ => .ite (fun _ => ?_) fun _ => .pure trivial
  refine Finds.bind Finds.ahead fun trees => ?_
  split
  · split
    · exact .ite (fun _ => .bind past fun _ => .pure fun _ _ => trivial) fun _ =>
        .pure fun _ _ => trivial
    · exact .bind inside fun _ => .bind past fun _ => .pure fun _ _ => trivial
    · exact .pure fun _ _ => trivial
  · exact .pure fun _ _ => trivial

end Parser

/-- **All names in an import that is read from a text can be read.** -/
theorem Source.isReadable_of_parse {source : String} {item : UseItem}
    (read : Source.parse Source.useItem source = .ok item) : item.tree.IsReadable := by
  obtain ⟨trees, last, all, ran⟩ := Source.exists_run read
  have takes (g : Grammar) : Takes (Source.useItem g) fun item => item.tree.IsReadable := by
    refine .skip attributes_takes fun attrs => .skip visibility_takes fun visible =>
      .bind (useItem?_takes false attrs visible) fun found readable => ?_
    cases found with
    | some item => exact .pure (readable item rfl)
    | none => exact .fail
  exact (takes _ _ _ _ ⟨all, trivial⟩ ran).2

/-! ## Trees with a single branch -/

namespace Import

variable {path : List String} {imported : ImportedName} {rest : List Token}

/-- An import tree with a single branch. -/
def branchTree (path : List String) (imported : ImportedName) : UseTree :=
  path.foldr .path imported.leafTree

/-- What is seen ahead of a name. -/
theorem shows_startsSegment {name : String} (segment : IsSegment name) : Shows (fun trees =>
    startsName trees || ["self", "super", "crate", "try"].any (startsWord · trees))
      (.word name :: rest) true := by
  refine shows_word segment.1 fun line trees => ?_
  rw [startsName, Bool.or_eq_true, Bool.not_eq_true', List.any_eq_true]
  exact segment.2.imp (by simp) fun listed => ⟨name, listed, beq_self_eq_true name⟩

/-- A tree with a single branch is read back, if there are as many rounds as names. -/
theorem useTreeFrom_runs (names : ∀ name ∈ path, IsSegment name) (readable : imported.IsReadable)
    {rounds : Nat} (enough : path.length < rounds) :
    (useTreeFrom false rounds).Runs ((branchTree path imported).tokens ++ .op ";" :: rest)
      (.op ";" :: rest) (some (branchTree path imported)) := by
  obtain ⟨rounds, rfl⟩ := Nat.exists_eq_succ_of_ne_zero (Nat.ne_of_gt (Nat.zero_lt_of_lt enough))
  have noPath : Shows (startsOp "::") (.op ";" :: rest) false :=
    startsOp_other (by decide) (by decide) (by decide)
  have noAlias : Shows (startsWord "as") (.op ";" :: rest) false := Token.startsWord_op (by decide)
  induction path generalizing rounds with
  | nil =>
      cases imported with
      | name outer =>
          exact .look_true (shows_startsSegment readable) (.through outer (.op ";" :: rest)
            (.anyWord readable.1) (.skip_op? noPath (.skip_keyword? noAlias .pure)))
      | glob =>
          refine .look_false (fun line => ?_) (.take_op? (by decide) .pure)
          rw [branchTree]
          rfl
      | renamed outer newName =>
          have anew : Shows (fun trees => startsName trees || startsWord "_" trees)
              (.word newName :: .op ";" :: rest) true := by
            refine shows_word readable.2.1 fun line trees => ?_
            rw [startsName, Bool.or_eq_true, Bool.not_eq_true']
            exact readable.2.2.imp (by simp) fun listed => beq_iff_eq.mpr (List.mem_singleton.mp listed)
          exact .look_true (shows_startsSegment readable.1) (.through outer
            (.word "as" :: .word newName :: .op ";" :: rest) (.anyWord readable.1.1)
            (.skip_op? (startsOp_other_token (by decide) rfl) (.take_keyword? (by decide)
              (.look_true anew (.through newName (.op ";" :: rest) (.anyWord readable.2.1) .pure)))))
  | cons first path ih =>
      have segment := (List.forall_mem_cons.mp names).1
      obtain ⟨rounds, rfl⟩ := Nat.exists_eq_succ_of_ne_zero (Nat.ne_of_gt
        (Nat.zero_lt_of_lt (Nat.lt_of_succ_lt_succ enough)))
      have below := ih (List.forall_mem_of_forall_mem_cons names) rounds
        (Nat.lt_of_succ_lt_succ enough)
      exact .look_true (shows_startsSegment segment) (.through first
        (.op "::" :: ((branchTree path imported).tokens ++ .op ";" :: rest)) (.anyWord segment.1)
        (.take_op? (by decide) (.through _ (.op ";" :: rest) below .pure)))

/-- There are as many trees as names in the path. -/
theorem length_le_sizes (names : ∀ name ∈ path, IsSegment name) (line : Nat) :
    path.length ≤ Tree.sizes (Token.trees line ((branchTree path imported).tokens ++ rest)) := by
  refine le_trans ?_ (Token.length_le_sizes _)
  induction path generalizing line with
  | nil => exact Nat.zero_le _
  | cons first path ih =>
      have named := (List.forall_mem_cons.mp names).1.1
      have whole : (branchTree (first :: path) imported).tokens ++ rest =
        .word first :: .op "::" :: ((branchTree path imported).tokens ++ rest) := rfl
      have others := ih (List.forall_mem_of_forall_mem_cons names)
        (line + first.toList.count '\n')
      rw [whole, Token.trees_name named, Token.trees_op, List.length_cons, List.length_cons,
        Token.length_opTrees]
      omega

end Import

end VariantMerge
