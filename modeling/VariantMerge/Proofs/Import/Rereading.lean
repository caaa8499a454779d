import VariantMerge.Proofs.Import.Reading

/-!
# Imports read back from their lines

The line of an import is source text again. If the names in the import can be read, the line is read as
an item whose tree has a single branch (`Import.parse_line`). This item stands for the import that the
line was written for, in every module that has no child of the name that the path starts with. So nothing
is lost when an item is flattened (`Import.ofUse_rereads`). The names in an item that was read can be read
again; those of the declaring module may be keywords if they come from the names of files, and then no
line with them can be read (`Import.ofUse_keyword_module`).
-/

namespace VariantMerge

open VariantMerge.Parser

namespace Import

variable {anchored : Import} {path : List String} {imported : ImportedName} {rest : List Token}

/-- The import as an item of its own. -/
def asItem (anchored : Import) : UseItem :=
  ⟨[], .inherited, anchored.leading, branchTree anchored.path anchored.imported⟩

/-- An import that depends on nothing and whose names can be read. -/
structure IsReadable (anchored : Import) : Prop where
  unconditional : anchored.conditions = ""
  path : ∀ name ∈ anchored.path, IsSegment name
  imported : anchored.imported.IsReadable

/-! ## The text of a line -/

/-- Names joined by separators are the last one behind the others with theirs. -/
theorem toList_intercalate_concat (separator last : String) (path : List String) :
    (String.intercalate separator (path ++ [last])).toList =
      path.flatMap (fun name => name.toList ++ separator.toList) ++ last.toList := by
  induction path with
  | nil => simp
  | cons first rest ih =>
      cases rest with
      | nil => simp
      | cons second rest =>
          rw [List.cons_append, List.cons_append, String.intercalate_cons_cons,
            String.toList_append, String.toList_append, ← List.cons_append, ih]
          simp only [List.flatMap_cons, List.append_assoc]

/-- The characters of a path that ends with a name and a semicolon. -/
def branchChars (path : List String) (imported : ImportedName) : List Char :=
  path.flatMap (fun name => name.toList ++ "::".toList) ++ (imported.text.toList ++ ";".toList)

/-- An import without conditions is written as its branch, behind the keyword. -/
theorem toList_line (unconditional : anchored.conditions = "") :
    anchored.line.toList = "use".toList ++ ' ' ::
      ((if anchored.leading then "::".toList else []) ++
        branchChars anchored.path anchored.imported) := by
  rw [line, unconditional]
  simp only [String.toList_append, toList_intercalate_concat, segments, branchChars]
  split <;> simp

/-- A sign that parts words parts them in front of anything. -/
theorem parts_of_head {c : Char} (apart : Text.partsWords c = true) {chars : List Char} :
    Text.Parts (c :: chars) := by
  rintro d ⟨rfl⟩
  exact apart

/-- A path is read name by name, and no operator starts with it that it does not start with. -/
theorem readAs_branch (names : ∀ name ∈ path, IsSegment name) (readable : imported.IsReadable) :
    Token.ReadAs (branchChars path imported) ((branchTree path imported).tokens ++ [.op ";"]) ∧
      Lexer.startsPunct (branchChars path imported) =
        Token.startsPunct ((branchTree path imported).tokens ++ [.op ";"]) := by
  have ends : Token.ReadAs (";".toList ++ []) [.op ";"] :=
    .op (by decide) (by decide) (by decide) .nil
  induction path with
  | nil =>
      cases imported with
      | name outer =>
          exact ⟨.word readable.1 (parts_of_head (by decide)) ends,
            Token.startsPunct_word readable.1 _⟩
      | glob => exact ⟨.op (by decide) (by decide) (by decide) ends, by decide⟩
      | renamed outer newName =>
          have spelled : branchChars [] (.renamed outer newName) = outer.toList ++ ' ' ::
              ("as".toList ++ ' ' :: (newName.toList ++ (";".toList ++ []))) := by
            simp [branchChars, ImportedName.text]
          have behind : Token.ReadAs (' ' :: ("as".toList ++ ' ' :: (newName.toList ++
              (";".toList ++ [])))) [.word "as", .word newName, .op ";"] :=
            .blank (.word (by decide) (parts_of_head (by decide))
              (.blank (.word readable.2.1 (parts_of_head (by decide)) ends)))
          rw [spelled]
          exact ⟨.word readable.1.1 (parts_of_head (by decide)) behind,
            Token.startsPunct_word readable.1.1 _⟩
  | cons first path ih =>
      obtain ⟨reads, touches⟩ := ih (List.forall_mem_of_forall_mem_cons names)
      have named := (List.forall_mem_cons.mp names).1.1
      have step : branchChars (first :: path) imported =
          first.toList ++ ("::".toList ++ branchChars path imported) := by
        simp only [branchChars, List.flatMap_cons, List.append_assoc]
      rw [step]
      exact ⟨.word named (parts_of_head (by decide)) (.op (by decide) (by decide) touches reads),
        Token.startsPunct_word named _⟩

/-- The line of a readable import is read as the tokens of its item. -/
theorem readAs_line (readable : anchored.IsReadable) :
    Token.ReadAs anchored.line.toList anchored.asItem.tokens := by
  obtain ⟨reads, touches⟩ := readAs_branch readable.path readable.imported
  rw [toList_line readable.unconditional]
  refine .word (by decide) (parts_of_head (by decide)) (.blank ?_)
  change Token.ReadAs _ ((if anchored.leading then [.op "::"] else []) ++
    (branchTree anchored.path anchored.imported).tokens ++ [.op ";"])
  rw [List.append_assoc]
  cases anchored.leading with
  | true => exact .op (by decide) (by decide) touches reads
  | false => exact reads

/-! ## Reading a line -/

/-- The item of a readable import is read from its tokens. -/
theorem useItem?_runs_asItem (readable : anchored.IsReadable) :
    (useItem? false [] .inherited).Runs anchored.asItem.tokens [] (some anchored.asItem) := by
  obtain ⟨conditions, leading, path, imported⟩ := anchored
  have behind : Runs (do
      let tree ← useTreeFrom (false && !leading) (Tree.sizes (← ahead) + 1)
      op ";"
      return tree.map fun tree => (⟨[], .inherited, leading, tree⟩ : UseItem))
      ((branchTree path imported).tokens ++ [.op ";"]) []
      (some ⟨[], .inherited, leading, branchTree path imported⟩) :=
    .measured fun line => .through (some (branchTree path imported)) [.op ";"]
      (useTreeFrom_runs readable.path readable.imported
        (Nat.lt_succ_of_le (length_le_sizes readable.path line)))
      (.take_op (by decide) .pure)
  cases leading with
  | true => exact .take_keyword (by decide) (.take_op? (by decide) behind)
  | false =>
      refine .take_keyword (by decide) (.skip_op? ?_ behind)
      cases path with
      | cons first path => exact startsOp_other_token (by decide) rfl
      | nil =>
          cases imported with
          | glob => exact startsOp_other (by decide) (by decide) (by decide)
          | _ => exact startsOp_other_token (by decide) rfl

/-- The item is read also where attributes may stand before it. -/
theorem useItem_runs_asItem (readable : anchored.IsReadable) (g : Grammar) :
    (Source.useItem g).Runs anchored.asItem.tokens [] anchored.asItem := by
  refine .through [] anchored.asItem.tokens (.attributes_absent ?_) (.through .inherited
    anchored.asItem.tokens (.skip_keyword? ?_ .pure)
    (.through (some anchored.asItem) [] (useItem?_runs_asItem readable) .pure))
  · exact startsOp_other_token (by decide) rfl
  · exact shows_word (by decide) fun _ _ => rfl

/-- **The line of an import is read as an item with one branch.** -/
theorem parse_line (readable : anchored.IsReadable) :
    Source.parse Source.useItem anchored.line = .ok anchored.asItem := by
  refine Runs.parseChars ((readAs_line readable).ofChars ?_) (useItem_runs_asItem readable _)
  rw [toList_line readable.unconditional]
  change some 'u' ≠ _
  decide

/-! ## Imports for the lines of imports -/

/-- A branch has one leaf, at the end of its path. -/
theorem leaves_branchTree (path : List String) (imported : ImportedName) (above : List String) :
    (branchTree path imported).leaves above = [(above ++ path, imported)] := by
  induction path generalizing above with
  | nil => rw [branchTree, List.foldr_nil, imported.leaves_leafTree, List.append_nil]
  | cons first path ih =>
      change (branchTree path imported).leaves (above ++ [first]) = _
      rw [ih, List.append_assoc, List.singleton_append]

/-- An import whose path starts outside of a module is the only one that it stands for there. -/
theorem ofUse_asItem {module : ModulePath} {children : List String}
    (unconditional : anchored.conditions = "") (other : ¬ anchored.imported.IsSelf)
    (outside : anchored.leading = false →
      ∀ first ∈ anchored.path.head?, ¬ IsRelative first ∧ first ∉ children) :
    ofUse anchored.asItem module children = [anchored] := by
  obtain ⟨conditions, leading, path, imported⟩ := anchored
  obtain rfl : conditions = "" := unconditional
  have single : ofLeaf? "" leading (anchoredPath module children leading path) imported =
      some ⟨"", leading, path, imported⟩ := by
    rw [anchoredPath_of_outside outside, ofLeaf?_of_not_isSelf other]
  change List.filterMap _ ((branchTree path imported).leaves []) = _
  rw [leaves_branchTree, List.nil_append]
  exact List.filterMap_cons_some single

/-- Reading the line of an import and flattening what was read gives the import again, wherever its path
does not start with a child module. -/
def Rereads (anchored : Import) : Prop :=
  ∃ again, Source.parse Source.useItem anchored.line = .ok again ∧
    ∀ host others,
      (anchored.leading = false → ∀ first ∈ anchored.path.head?, first ∉ others) →
        ofUse again host others = [anchored]

/-- **Rereading.** A readable import is read back as itself from any module, unless it imports a
module by itself or begins with a relative name. -/
theorem IsReadable.rereads (readable : anchored.IsReadable) (other : ¬ anchored.imported.IsSelf)
    (absolute : anchored.leading = false → ∀ first ∈ anchored.path.head?, ¬ IsRelative first) :
    anchored.Rereads :=
  ⟨anchored.asItem, parse_line readable, fun _ _ free =>
    ofUse_asItem readable.unconditional other fun relative first listed =>
      ⟨absolute relative first listed, free relative first listed⟩⟩

end Import

/-! ## Names in anchored paths -/

/-- The names in an anchored path. A `self` in front of the path is not one of them. -/
theorem ModulePath.mem_anchor {module : ModulePath} {children path : List String} {name : String}
    (listed : name ∈ module.anchor children path) :
    name = "crate" ∨ name ∈ module.segments ∨ name ∈ path.tail ∨
      (name ≠ "self" ∧ name ∈ path.head?) := by
  have copied {first : String} {rest : List String} (other : first ≠ "self")
      (among : name ∈ first :: rest) : name ∈ rest ∨ (name ≠ "self" ∧ name ∈ some first) := by
    obtain rfl | below := List.mem_cons.mp among
    · exact .inr ⟨other, rfl⟩
    · exact .inl below
  cases path with
  | nil => exact absurd listed List.not_mem_nil
  | cons first rest =>
      by_cases relative : IsRelative first
      · obtain rfl | rfl := relative
        · rw [anchor_self, List.cons_append, List.mem_cons, List.mem_append] at listed
          exact listed.imp_right fun inside => inside.imp_right .inl
        · rw [anchor_super] at listed
          split at listed
          next base up =>
            rw [List.cons_append, List.mem_cons, List.mem_append] at listed
            refine listed.imp_right fun inside => inside.imp ?_ fun behind => ?_
            · exact fun inside => (ancestor?_leads_above up).subset inside
            · exact copied (by decide) ((List.dropWhile_suffix _).subset behind)
          next => exact .inr (.inr (copied (by decide) listed))
      · have other : first ≠ "self" := fun same => relative (.inl same)
        rw [anchor_of_not_isRelative relative] at listed
        split at listed
        · rw [List.cons_append, List.mem_cons, List.mem_append] at listed
          exact listed.imp_right fun inside => inside.imp_right (copied other)
        · exact .inr (.inr (copied other listed))

namespace Import

variable {module : ModulePath} {children : List String} {leading : Bool}
  {leaf : List String × ImportedName} {anchored : Import}

/-- `self` is at most the first name of the path of a branch, and not even that behind a double colon. -/
def SelfFirst (leading : Bool) (leaf : List String × ImportedName) : Prop :=
  "self" ∉ if leading then leaf.1 else leaf.1.tail

instance (leading : Bool) : DecidablePred (SelfFirst leading) :=
  fun _ => inferInstanceAs (Decidable (_ ∉ _))

/-- Anchoring adds only names of modules. -/
theorem isSegment_of_mem_anchoredPath (above : ∀ segment ∈ module.segments, IsModuleName segment)
    (names : ∀ name ∈ leaf.1, IsSegment name) :
    ∀ name ∈ anchoredPath module children leading leaf.1, IsSegment name := by
  cases leading with
  | true => exact names
  | false =>
      intro name listed
      obtain rfl | inside | below | ⟨-, first⟩ := ModulePath.mem_anchor listed
      · exact isSegment_crate
      · exact (above name inside).isSegment
      · exact names name (List.mem_of_mem_tail below)
      · exact names name (List.mem_of_mem_head? first)

/-- Anchoring takes away the path to the module itself. -/
theorem self_notMem_anchoredPath (above : ∀ segment ∈ module.segments, IsModuleName segment)
    (selfFirst : SelfFirst leading leaf) :
    "self" ∉ anchoredPath module children leading leaf.1 := by
  cases leading with
  | true => exact selfFirst
  | false =>
      intro listed
      obtain root | inside | below | ⟨other, -⟩ := ModulePath.mem_anchor listed
      · exact absurd root (by decide)
      · exact (above "self" inside).ne_self rfl
      · exact selfFirst below
      · exact other rfl

/-- A leaf that is folded takes the name that it is given. -/
theorem eq_self_of_isSelf_called {name : String} {imported : ImportedName}
    (self : (imported.called name).IsSelf) : name = "self" := by
  cases imported with
  | glob => cases self
  | _ => exact List.singleton_inj.mp self

namespace Keeps

variable (keeps : Keeps module children leading leaf anchored)
  (above : ∀ segment ∈ module.segments, IsModuleName segment)

include keeps above

/-- What is imported by a readable branch can be read. -/
theorem isReadable (readable : IsReadableBranch leaf) : anchored.IsReadable := by
  have names : ∀ name ∈ anchoredPath module children leading leaf.1, IsSegment name :=
    isSegment_of_mem_anchoredPath above readable.path
  by_cases self : leaf.2.IsSelf
  · obtain ⟨name, path, imported⟩ := keeps.folded self
    rw [path] at names
    obtain ⟨before, last⟩ := List.forall_mem_append.mp names
    have segment := List.forall_mem_singleton.mp last
    have rest := readable.imported
    refine ⟨keeps.unconditional, before, ?_⟩
    rw [imported]
    cases kind : leaf.2 with
    | name outer => exact segment
    | glob => trivial
    | renamed outer newName =>
        rw [kind] at rest
        exact ⟨segment, rest.2⟩
  · obtain ⟨path, imported⟩ := keeps.kept self
    exact ⟨keeps.unconditional, path ▸ names, imported ▸ readable.imported⟩

/-- A leaf `self` is folded, and into a name that is not `self`. -/
theorem not_isSelf (selfFirst : SelfFirst leading leaf) : ¬ anchored.imported.IsSelf := by
  by_cases self : leaf.2.IsSelf
  · obtain ⟨name, path, imported⟩ := keeps.folded self
    have absent : "self" ∉ anchoredPath module children leading leaf.1 :=
      self_notMem_anchoredPath above selfFirst
    rw [path] at absent
    rw [imported]
    intro again
    obtain rfl := eq_self_of_isSelf_called again
    exact absent (List.mem_append_right _ (List.mem_singleton_self _))
  · rw [(keeps.kept self).2]
    exact self

end Keeps

/-- **Flattened imports lose nothing and are stable.** An item without attributes stands for one import
for each leaf of its tree, in order, but for a leaf `self` at the root. Each import keeps the name, glob or
alias of its leaf and has the anchored path. If its path does not start with `self` or `super`, its line is
read as an item that stands for this one import, in every module without a child of the first name. -/
theorem ofUse_rereads (item : UseItem) (module : ModulePath) (children : List String)
    (bare : item.attributes = []) :
    List.Forall₂ (Keeps module children item.leading)
      (item.tree.branches.filter fun leaf => !decide (leaf.1 = [] ∧ leaf.2.IsSelf))
      (ofUse item module children) ∧
    ((∀ segment ∈ module.segments, IsModuleName segment) → item.tree.IsReadable →
      (∀ leaf ∈ item.tree.branches, SelfFirst item.leading leaf) →
      ∀ anchored ∈ ofUse item module children,
        (anchored.leading = false → ∀ first ∈ anchored.path.head?, ¬ IsRelative first) →
          anchored.Rereads) := by
  have keeps := ofUse_keeps item module children bare
  refine ⟨keeps, fun above readable selfFirst anchored listed absolute => ?_⟩
  obtain ⟨leaf, among, here⟩ := exists_of_forall₂ keeps.flip listed
  have branch : leaf ∈ item.tree.branches := List.mem_of_mem_filter among
  exact (here.isReadable above (readable leaf branch)).rereads
    (here.not_isSelf above (selfFirst leaf branch)) absolute

/-- Imports that are nested, renamed and taken whole, of modules around the declaring one. -/
def mixedUse : UseItem :=
  ⟨[], .everywhere, false,
    .group [.path "self" (.group [.rename "self" "here", .path "super" .glob] false),
      .path "idle" (.group [.name "self", .name "Idle"] true), .name "self",
      .path "super" (.name "Clock"), .path "glam" (.rename "Vec3" "_")] false⟩

/-- Imports of every kind, of which only the first does not read back. -/
theorem ofUse_rereads_mixedUse :
    mixedUse.attributes = [] ∧ (ofUse mixedUse statesModule ["idle"]).map line =
      ["use crate::states as here;", "use crate::states::super::*;", "use crate::states::idle;",
        "use crate::states::idle::Idle;", "use crate::Clock;", "use glam::Vec3 as _;"] ∧
      ∀ anchored ∈ ofUse mixedUse statesModule ["idle"], anchored.Rereads := by
  refine ⟨rfl, by decide +kernel, fun anchored listed => ?_⟩
  have absolute : ∀ anchored ∈ ofUse mixedUse statesModule ["idle"],
      ∀ first ∈ anchored.path.head?, ¬ IsRelative first := by decide
  exact (ofUse_rereads mixedUse statesModule ["idle"] rfl).2 (by decide) (by decide) (by decide)
    anchored listed fun _ => absolute anchored listed

def keywordModule : ModulePath := ⟨["type"]⟩

def localUse : UseItem :=
  ⟨[], .inherited, false, .path "self" (.path "state" (.name "Idle"))⟩

/-- A module that is declared as a raw name has a keyword in its path if its file tells the path. The
line of an import from it cannot be read. -/
theorem ofUse_keyword_module :
    localUse.attributes = [] ∧ localUse.tree.IsReadable ∧
      (∀ leaf ∈ localUse.tree.branches, SelfFirst localUse.leading leaf) ∧
      (ofUse localUse keywordModule []).map line = ["use crate::type::state::Idle;"] ∧
      ∀ anchored ∈ ofUse localUse keywordModule [], ¬ anchored.Rereads := by
  have lines : (ofUse localUse keywordModule []).map line = ["use crate::type::state::Idle;"] := by
    decide +kernel
  have unread : (Source.parse Source.useItem "use crate::type::state::Idle;").toOption.isNone =
      true := by decide +kernel
  refine ⟨rfl, by decide, by decide, lines, ?_⟩
  rintro anchored listed ⟨again, read, -⟩
  have same : anchored.line = "use crate::type::state::Idle;" :=
    List.mem_singleton.mp (lines ▸ List.mem_map_of_mem listed)
  rw [same] at read
  rw [read] at unread
  cases unread

end Import

end VariantMerge
