import VariantMerge.Proofs.Import.Meaning
import VariantMerge.Proofs.Scan.Resolution

/-!
# Chains of imports

What a name means in a module that declares no struct of that name is up to the module's first import
of the name. If that is from a module of the program, the search goes on there under the name before
renaming, and so on (`ScanResult.Chain`). A chain that comes to a struct within eight imports leads to
it. One that goes round in circles, that is longer or that leaves the program is given up, and then
only a struct whose name nothing else has is found (`ScanResult.resolveStruct_chain`). Imports of
everything are not looked at in either case.
-/

namespace VariantMerge

/-- The import brings something in under a name, which had that name or another one before. -/
inductive ImportedName.Binds : ImportedName → String → String → Prop
  | name {outer : String} : Binds (.name outer) outer outer
  | renamed {outer newName : String} : Binds (.renamed outer newName) newName outer

/-- An import leads a name to another one exactly if it binds it. -/
theorem ImportedName.outerName?_eq_some_iff {imported : ImportedName} {wanted outer : String} :
    imported.outerName? wanted = some outer ↔ imported.Binds wanted outer := by
  constructor
  · intro read
    cases imported with
    | glob => cases read
    | name given =>
        obtain ⟨same, rest⟩ := Option.ite_none_right_eq_some.mp read
        cases beq_iff_eq.mp same
        cases rest
        exact .name
    | renamed before given =>
        obtain ⟨same, rest⟩ := Option.ite_none_right_eq_some.mp read
        cases beq_iff_eq.mp same
        cases rest
        exact .renamed
  · intro binds
    cases binds with
    | name => exact if_pos (beq_self_eq_true wanted)
    | renamed => exact if_pos (beq_self_eq_true wanted)

/-- The first of the imports that brings something in under a name, with the name it had before. -/
def BindsFirst (imports : List Import) (name : String) (anchored : Import) (outer : String) : Prop :=
  ∃ before after, imports = before ++ anchored :: after ∧ anchored.imported.Binds name outer ∧
    ∀ earlier ∈ before, ∀ other, ¬ earlier.imported.Binds name other

/-- The first import that binds a name decides. -/
theorem findSome?_binds {imports : List Import} {name outer : String} {anchored : Import}
    (first : BindsFirst imports name anchored outer) (result : Import → String → γ) :
    (imports.findSome? fun anchored => (anchored.imported.outerName? name).map (result anchored)) =
      some (result anchored outer) := by
  obtain ⟨before, after, rfl, binds, unbound⟩ := first
  refine List.findSome?_eq_some_iff.mpr ⟨before, anchored, after, rfl, ?_, fun earlier listed => ?_⟩
  · rw [ImportedName.outerName?_eq_some_iff.mpr binds, Option.map_some]
  · rw [Option.map_eq_none_iff, Option.eq_none_iff_forall_ne_some]
    exact fun other read => unbound earlier listed other (ImportedName.outerName?_eq_some_iff.mp read)

/-- The struct has this name and is in this module. -/
def StructDecl.IsAt (decl : StructDecl) (here : ModulePath × String) : Prop :=
  decl.module = here.1 ∧ decl.name = here.2

namespace ScanResult

variable {scan : ScanResult} {here there start last : ModulePath × String} {index count hops : Nat}

/-! ## Chains -/

/-- A struct of this name is declared in this module. -/
def Declares (scan : ScanResult) (here : ModulePath × String) : Prop :=
  ∃ decl ∈ scan.structs, decl.IsAt here

/-- Of the structs of this name in this module, the first. -/
def DeclaresFirst (scan : ScanResult) (here : ModulePath × String) (index : Nat) : Prop :=
  (∃ decl, scan.structs[index]? = some decl ∧ decl.IsAt here) ∧
    ∀ other decl, scan.structs[other]? = some decl → decl.IsAt here → index ≤ other

/-- The first import of a name that no struct of the module has, if it is from a module of the
program, leads there. -/
inductive Follows (scan : ScanResult) : ModulePath × String → ModulePath × String → Prop
  | step {module source : ModulePath} {name outer : String} {anchored : Import} :
      ¬ scan.Declares (module, name) → BindsFirst (scan.importsIn module) name anchored outer →
      anchored.IsFrom source → Follows scan (module, name) (source, outer)

/-- The first import of a name that no struct of the module has is from elsewhere. -/
inductive Leaves (scan : ScanResult) : ModulePath × String → Prop
  | step {module : ModulePath} {name outer : String} {anchored : Import} :
      ¬ scan.Declares (module, name) → BindsFirst (scan.importsIn module) name anchored outer →
      (∀ source, ¬ anchored.IsFrom source) → Leaves scan (module, name)

/-- So many imports lead from one name to the other. -/
inductive Chain (scan : ScanResult) : Nat → ModulePath × String → ModulePath × String → Prop
  | nil {here : ModulePath × String} : Chain scan 0 here here
  | cons {count : Nat} {here there last : ModulePath × String} :
      scan.Follows here there → Chain scan count there last → Chain scan (count + 1) here last

/-- The chain comes to some name twice. -/
def IsCyclic (scan : ScanResult) (start : ModulePath × String) : Prop :=
  ∃ last earlier later, earlier < later ∧ scan.Chain earlier start last ∧ scan.Chain later start last

/-- The only struct of a name. -/
def IsOnly (scan : ScanResult) (name : String) (index : Nat) : Prop :=
  ∀ other, (∃ decl, scan.structs[other]? = some decl ∧ decl.name = name) ↔ other = index

/-! ## One step -/

/-- A struct is found by its module and its name. -/
theorem isAt_iff {decl : StructDecl} :
    (decl.module == here.1 && decl.name == here.2) = true ↔ decl.IsAt here := by
  rw [Bool.and_eq_true, beq_iff_eq, beq_iff_eq, StructDecl.IsAt]

/-- The first struct at a place is the one that is found. -/
theorem declaresFirst_iff : scan.DeclaresFirst here index ↔
    (scan.structs.findIdx? fun decl => decl.module == here.1 && decl.name == here.2) = some index := by
  rw [List.findIdx?_eq_some_iff_getElem]
  constructor
  · rintro ⟨⟨decl, found, at_⟩, least⟩
    obtain ⟨inside, rfl⟩ := List.getElem?_eq_some_iff.mp found
    refine ⟨inside, isAt_iff.mpr at_, fun other before here_ => ?_⟩
    exact Nat.not_le_of_lt before (least other _ (List.getElem?_eq_getElem _) (isAt_iff.mp here_))
  · rintro ⟨inside, at_, least⟩
    refine ⟨⟨_, List.getElem?_eq_getElem inside, isAt_iff.mp at_⟩, fun other decl found here_ => ?_⟩
    obtain ⟨within, rfl⟩ := List.getElem?_eq_some_iff.mp found
    exact Nat.le_of_not_lt fun before => least other before (isAt_iff.mpr here_)

/-- A place without a struct is one where none is found. -/
theorem not_declares_iff : ¬ scan.Declares here ↔
    (scan.structs.findIdx? fun decl => decl.module == here.1 && decl.name == here.2) = none := by
  rw [List.findIdx?_eq_none_iff]
  constructor
  · intro undeclared decl listed
    exact Bool.eq_false_iff.mpr fun at_ => undeclared ⟨decl, listed, isAt_iff.mp at_⟩
  · rintro nowhere ⟨decl, listed, at_⟩
    exact Bool.eq_false_iff.mp (nowhere decl listed) (isAt_iff.mpr at_)

/-- An import leads to its source module, and the name there. -/
theorem absolute?_import (anchored : Import) (outer : String) :
    absolute? anchored.leading (anchored.path ++ [outer]) = anchored.sourceModule?.map (·, outer) := by
  unfold absolute? Import.sourceModule?
  cases anchored.leading with
  | true => rfl
  | false =>
      cases anchored.path with
      | nil =>
          by_cases root : outer = "crate"
          · subst root
            rfl
          · simp [root]
      | cons first rest =>
          by_cases root : first = "crate"
          · subst root
            simp
          · simp [root]

/-- Without hops, only a struct that is declared here is found. -/
theorem resolveName_of_not_declares (undeclared : ¬ scan.Declares here) :
    scan.resolveName 0 here.1 here.2 = none := by
  unfold resolveName
  rw [not_declares_iff.mp undeclared]

/-- The first import of a name that is not declared decides. -/
theorem resolveName_of_bindsFirst {outer : String} {anchored : Import}
    (undeclared : ¬ scan.Declares here)
    (first : BindsFirst (scan.importsIn here.1) here.2 anchored outer) (hops : Nat) :
    scan.resolveName (hops + 1) here.1 here.2 =
      anchored.sourceModule?.bind fun source => scan.resolveName hops source outer := by
  rw [resolveName_succ, not_declares_iff.mp undeclared, Option.none_or, follow,
    findSome?_binds first fun anchored outer => absolute? anchored.leading (anchored.path ++ [outer])]
  change (absolute? _ _).bind _ = _
  rw [absolute?_import, Option.bind_map]
  rfl

/-- A struct that is declared here is found with any number of hops. -/
theorem DeclaresFirst.resolveName (first : scan.DeclaresFirst here index) (hops : Nat) :
    scan.resolveName hops here.1 here.2 = some index := by
  unfold ScanResult.resolveName
  rw [declaresFirst_iff.mp first]

/-- An import is followed only where no struct is declared. -/
theorem Follows.undeclared (follows : scan.Follows here there) : ¬ scan.Declares here := by
  cases follows with
  | step undeclared => exact undeclared

/-- Following an import takes one hop. -/
theorem Follows.resolveName (follows : scan.Follows here there) (hops : Nat) :
    scan.resolveName (hops + 1) here.1 here.2 = scan.resolveName hops there.1 there.2 := by
  cases follows with
  | step undeclared first from_ =>
      rw [resolveName_of_bindsFirst undeclared first, Import.sourceModule?_eq_some_iff.mpr from_,
        Option.bind_some]

/-- An import that leads out of the scanned modules ends the search. -/
theorem Leaves.resolveName (leaves : scan.Leaves here) (hops : Nat) :
    scan.resolveName hops here.1 here.2 = none := by
  cases leaves with
  | step undeclared first elsewhere =>
      cases hops with
      | zero => exact resolveName_of_not_declares undeclared
      | succ hops =>
          have none_ : _ = none := Option.eq_none_iff_forall_ne_some.mpr fun source read =>
            elsewhere source (Import.sourceModule?_eq_some_iff.mp read)
          rw [resolveName_of_bindsFirst undeclared first, none_, Option.bind_none]

/-- There is only one step from a name. -/
theorem Follows.unique (follows : scan.Follows here there) (again : scan.Follows here last) :
    there = last := by
  have binding {imports : List Import} {name : String} {anchored other : Import} {outer another : String}
      (first : BindsFirst imports name anchored outer) (second : BindsFirst imports name other another) :
      (anchored, outer) = (other, another) :=
    Option.some.inj ((findSome?_binds first Prod.mk).symm.trans (findSome?_binds second Prod.mk))
  cases follows with
  | step undeclared first from_ =>
      cases again with
      | step _ second alsoFrom =>
          cases binding first second
          have same := (Import.sourceModule?_eq_some_iff.mpr from_).symm.trans
            (Import.sourceModule?_eq_some_iff.mpr alsoFrom)
          cases same
          rfl

/-! ## Whole chains -/

namespace Chain

/-- Two chains one after the other are a chain. -/
theorem append {more : Nat} (chain : scan.Chain count here there) (later : scan.Chain more there last) :
    scan.Chain (more + count) here last := by
  induction chain with
  | nil => exact later
  | cons follows _ ih => exact .cons follows (ih later)

/-- A chain goes on where a shorter one from the same name ended. -/
theorem rest {more : Nat} (chain : scan.Chain count here there)
    (longer : scan.Chain (more + count) here last) : scan.Chain more there last := by
  induction chain with
  | nil => exact longer
  | cons follows _ ih =>
      cases longer with
      | cons again longer =>
          cases follows.unique again
          exact ih longer

/-- A chain has a beginning of every length. -/
theorem front {more : Nat} (chain : scan.Chain (count + more) here last) :
    ∃ middle, scan.Chain count here middle := by
  induction count generalizing here with
  | zero => exact ⟨here, .nil⟩
  | succ count ih =>
      rw [Nat.add_right_comm] at chain
      cases chain with
      | cons follows later =>
          obtain ⟨middle, first⟩ := ih later
          exact ⟨middle, .cons follows first⟩

/-- What a chain comes to is what its start means, as long as there are hops left. -/
theorem resolveName (chain : scan.Chain count here last) (hops : Nat) :
    scan.resolveName (hops + count) here.1 here.2 = scan.resolveName hops last.1 last.2 := by
  induction chain with
  | nil => rfl
  | cons follows _ ih => exact (follows.resolveName _).trans ih

/-- A chain that takes more imports than there are hops is given up. -/
theorem resolveName_eq_none (chain : scan.Chain (hops + 1) here last) :
    scan.resolveName hops here.1 here.2 = none := by
  induction hops generalizing here with
  | zero =>
      cases chain with
      | cons follows => exact resolveName_of_not_declares follows.undeclared
  | succ hops ih =>
      cases chain with
      | cons follows later => rw [follows.resolveName, ih later]

end Chain

/-- A chain that comes to a name twice goes on for ever. -/
theorem IsCyclic.endless (cyclic : scan.IsCyclic start) (count : Nat) :
    ∃ last, scan.Chain count start last := by
  obtain ⟨last, earlier, later, before, chain, longer⟩ := cyclic
  obtain ⟨more, rfl⟩ := Nat.exists_eq_add_of_lt before
  have round : scan.Chain (more + 1) last last := by
    refine chain.rest ?_
    rw [Nat.add_comm]
    exact longer
  have rounds (times : Nat) : scan.Chain (times * (more + 1)) last last := by
    induction times with
    | zero =>
        rw [Nat.zero_mul]
        exact .nil
    | succ times ih =>
        rw [Nat.succ_mul, Nat.add_comm]
        exact ih.append round
  have long := chain.append (rounds count)
  have reaches : count ≤ count * (more + 1) + earlier :=
    Nat.le_trans (Nat.le_mul_of_pos_right count (Nat.succ_pos more)) (Nat.le_add_right _ _)
  obtain ⟨rest, same⟩ := Nat.exists_eq_add_of_le reaches
  rw [same] at long
  exact long.front

/-! ## The only struct of a name -/

/-- A name alone finds a struct if no other has it. -/
theorem onlyStruct_eq_some_iff {name : String} :
    scan.onlyStruct name = some index ↔ scan.IsOnly name index := by
  have member {decl : StructDecl} {other : Nat} :
      (decl, other) ∈ scan.structs.zipIdx.filter (·.1.name == name) ↔
        scan.structs[other]? = some decl ∧ decl.name = name := by
    rw [List.mem_filter, List.mem_zipIdx_iff_getElem?, beq_iff_eq]
  have distinct : ((scan.structs.zipIdx.filter (·.1.name == name)).map Prod.snd).Nodup := by
    refine List.Nodup.sublist (List.filter_sublist.map _) ?_
    rw [List.zipIdx_map_snd]
    exact List.nodup_range'
  unfold onlyStruct IsOnly
  simp only [← member]
  generalize scan.structs.zipIdx.filter (·.1.name == name) = found at distinct
  cases found with
  | nil => simp
  | cons first rest =>
      cases rest with
      | nil =>
          obtain ⟨decl, only⟩ := first
          simp only [List.mem_singleton, Prod.mk.injEq, exists_eq_left, Option.some.injEq]
          constructor
          · rintro rfl other
            exact Iff.rfl
          · exact fun only => (only _).mp rfl
      | cons second rest =>
          constructor
          · intro contrary
            cases contrary
          · intro only
            have same : first.2 = second.2 :=
              ((only first.2).mp ⟨first.1, List.mem_cons_self⟩).trans
                ((only second.2).mp ⟨second.1, List.mem_cons_of_mem _ List.mem_cons_self⟩).symm
            rw [List.map_cons, List.map_cons, same] at distinct
            exact absurd List.mem_cons_self (List.nodup_cons.mp distinct).1

/-- **Where chains of imports lead.** A chain that comes to a struct within eight imports means the
first struct of its last name in its last module, whatever else has the first name. One that goes
round in circles, takes more imports or leaves the program means the only struct of its first name, if
there is exactly one. -/
theorem resolveStruct_chain (scan : ScanResult) (start : ModulePath × String) :
    (∀ count last index, count ≤ 8 → scan.Chain count start last → scan.DeclaresFirst last index →
        scan.resolveStruct start.1 [start.2] = some index) ∧
      ((scan.IsCyclic start ∨ (∃ count last, 8 < count ∧ scan.Chain count start last) ∨
          ∃ count last, scan.Chain count start last ∧ scan.Leaves last) →
        ∀ index, scan.resolveStruct start.1 [start.2] = some index ↔ scan.IsOnly start.2 index) := by
  have followed : scan.resolveStruct start.1 [start.2] =
      (scan.resolveName 8 start.1 start.2).or (scan.onlyStruct start.2) := rfl
  rw [followed]
  constructor
  · intro count last index few chain first
    obtain ⟨hops, same⟩ := Nat.exists_eq_add_of_le' few
    rw [same, chain.resolveName, first.resolveName, Option.some_or]
  · intro lost index
    have long {count : Nat} {last : ModulePath × String} (many : 8 < count)
        (chain : scan.Chain count start last) : scan.resolveName 8 start.1 start.2 = none := by
      obtain ⟨more, rfl⟩ := Nat.exists_eq_add_of_le (Nat.succ_le_of_lt many)
      obtain ⟨middle, front⟩ := chain.front
      exact front.resolveName_eq_none
    have given : scan.resolveName 8 start.1 start.2 = none := by
      obtain cyclic | ⟨count, last, many, chain⟩ | ⟨count, last, chain, leaves⟩ := lost
      · obtain ⟨last, chain⟩ := cyclic.endless 9
        exact long (by decide) chain
      · exact long many chain
      · by_cases few : count ≤ 8
        · obtain ⟨hops, same⟩ := Nat.exists_eq_add_of_le' few
          rw [same, chain.resolveName, leaves.resolveName]
        · exact long (Nat.lt_of_not_le few) chain
    rw [given, Option.none_or, onlyStruct_eq_some_iff]

/-- A circle that is imported as a disc, and two modules that import a ring from each other. There is
another disc, and a ring elsewhere. -/
def roundShapes : ScanResult :=
  let use (tree : UseTree) : Item := .use ⟨[], .inherited, false, tree⟩
  let unit (name : String) : Item := .struct ⟨[], .inherited, name, .none, .unit⟩
  ofUnits "interface"
    [⟨"lib", .root,
        [.module ⟨[], .inherited, false, "api"⟩ none, .module ⟨[], .inherited, false, "old"⟩ none,
          use (.path "old" .glob), use (.path "api" (.name "Disc"))]⟩,
      ⟨"api", ⟨["api"]⟩, [use (.path "super" (.path "round" (.rename "Circle" "Disc")))]⟩,
      ⟨"old", ⟨["old"]⟩, [unit "Disc", unit "Ring"]⟩,
      ⟨"round", ⟨["round"]⟩, [unit "Circle"]⟩,
      ⟨"left", ⟨["left"]⟩, [use (.path "super" (.path "right" (.name "Ring")))]⟩,
      ⟨"right", ⟨["right"]⟩, [use (.path "crate" (.path "left" (.name "Ring")))]⟩]

/-- A struct over two imports, and a name on a circle that only one struct has. -/
theorem resolveStruct_chain_roundShapes :
    roundShapes.Chain 2 (.root, "Disc") (⟨["round"]⟩, "Circle") ∧
      roundShapes.DeclaresFirst (⟨["round"]⟩, "Circle") 2 ∧
      roundShapes.resolveStruct .root ["Disc"] = some 2 ∧
      roundShapes.IsCyclic (⟨["left"]⟩, "Ring") ∧ roundShapes.IsOnly "Ring" 1 ∧
      roundShapes.resolveStruct ⟨["left"]⟩ ["Ring"] = some 1 := by
  have disc : roundShapes.Follows (.root, "Disc") (⟨["api"]⟩, "Disc") := by
    refine .step (not_declares_iff.mpr rfl)
      ⟨[⟨"", false, ["crate", "old"], .glob⟩], [], rfl, .name, fun earlier listed other binds => ?_⟩
      ⟨rfl, rfl⟩
    cases List.mem_singleton.mp listed
    cases binds
  have circle : roundShapes.Follows (⟨["api"]⟩, "Disc") (⟨["round"]⟩, "Circle") :=
    .step (not_declares_iff.mpr rfl) ⟨[], [], rfl, .renamed, by rintro _ ⟨⟩⟩ ⟨rfl, rfl⟩
  have right : roundShapes.Follows (⟨["left"]⟩, "Ring") (⟨["right"]⟩, "Ring") :=
    .step (not_declares_iff.mpr rfl) ⟨[], [], rfl, .name, by rintro _ ⟨⟩⟩ ⟨rfl, rfl⟩
  have left : roundShapes.Follows (⟨["right"]⟩, "Ring") (⟨["left"]⟩, "Ring") :=
    .step (not_declares_iff.mpr rfl) ⟨[], [], rfl, .name, by rintro _ ⟨⟩⟩ ⟨rfl, rfl⟩
  have chain : roundShapes.Chain 2 (.root, "Disc") (⟨["round"]⟩, "Circle") :=
    .cons disc (.cons circle .nil)
  have declared : roundShapes.DeclaresFirst (⟨["round"]⟩, "Circle") 2 := declaresFirst_iff.mpr rfl
  have cyclic : roundShapes.IsCyclic (⟨["left"]⟩, "Ring") :=
    ⟨_, 0, 2, Nat.two_pos, .nil, .cons right (.cons left .nil)⟩
  have only : roundShapes.IsOnly "Ring" 1 := onlyStruct_eq_some_iff.mp rfl
  refine ⟨chain, declared, ?_, cyclic, only, ?_⟩
  · exact (resolveStruct_chain roundShapes (.root, "Disc")).1 2 _ 2 (by decide) chain declared
  · exact ((resolveStruct_chain roundShapes (⟨["left"]⟩, "Ring")).2 (.inl cyclic) 1).mpr only

end ScanResult

end VariantMerge
