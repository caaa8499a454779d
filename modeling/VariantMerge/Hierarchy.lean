import VariantMerge.Member
import VariantMerge.Scan

/-!
# The hierarchy of an interface

An interface has the members of its own trait and those of every scanned trait that it is bounded
by, directly or through others. The traits are visited depth first, in the order in which the
bounds are written, each of them once.
-/

namespace VariantMerge

/-- A computation that may fail; the events on the way are kept in either case. -/
abbrev Pass := ExceptT Failure Logged

namespace Pass

def tell (event : Event) : Pass Unit :=
  ExceptT.lift (Logged.tell event)

/-- A computation without events. -/
def ofExcept (result : Except Failure α) : Pass α :=
  ExceptT.mk (pure result)

end Pass

/-- The members that one trait of a hierarchy declares. -/
structure TraitMembers where
  name : String
  module : ModulePath
  members : List Member

/-- The members of an interface, by the trait that declares them. -/
structure MemberSet where
  traits : List TraitMembers

namespace MemberSet

def members (set : MemberSet) : List Member :=
  set.traits.flatMap TraitMembers.members

end MemberSet

namespace TraitMembers

/-- Adds what one entry of a trait declares to the members before it. Associated types and
constants cannot be dispatched; anything else that is no method is passed by with a warning. -/
def addEntry (interface : String) (members : List Member) (entry : TraitEntry) :
    Pass (List Member) :=
  match entry with
  | .method attributes signature _ =>
    Pass.ofExcept (Member.addMethod interface members attributes signature)
  | .assocType name _ => throw (.unsupportedInterface interface (.associatedType name))
  | .assocConst name _ => throw (.unsupportedInterface interface (.associatedConst name))
  | .other tokens => do
    Pass.tell ⟨.warn, "Ignoring trait item the generator does not understand",
      [("interface", .quoted interface), ("item", .text (Token.render tokens))]⟩
    return members

/-- The members of one trait. -/
def ofTrait (interface : String) (decl : TraitDecl) : Pass TraitMembers := do
  if !decl.item.generics.params.isEmpty then
    throw (.unsupportedInterface interface (.genericTrait decl.name))
  let members ← decl.item.entries.foldlM (addEntry interface) []
  Pass.tell ⟨.debug, "Collected trait members",
    [("interface", .quoted interface), ("trait_name", .text decl.name),
      ("member_count", .count members.length)]⟩
  return ⟨decl.name, decl.module, members⟩

end TraitMembers

namespace Hierarchy

/-- The last segment of the trait that a bound requires. A relaxed bound requires none. -/
def required? : Bound → Option Segment
  | .trait _ false _ path => path.segments.getLast?
  | _ => none

/-- Visits a trait that is not among the `found` ones, and then all that it is bounded by. Each
visit adds a trait of a new name, so the number of scanned traits bounds the depth. -/
def visit (scan : ScanResult) (interface : String) : Nat → TraitDecl → List TraitMembers →
    Pass (List TraitMembers)
  | 0, _, found => return found
  | depth + 1, decl, found =>
    if found.any (·.name == decl.name) then return found
    else do
      let own ← TraitMembers.ofTrait interface decl
      decl.item.supertraits.foldlM (fun found bound =>
        match required? bound with
        | none => return found
        | some segment =>
          match scan.findTrait segment.name with
          | some parent =>
            if segment.arguments.isNone then visit scan interface depth parent found
            else throw (.unsupportedInterface interface (.genericSupertrait segment.name))
          | none => do
            Pass.tell ⟨.debug,
              "Supertrait has no scanned declaration; it contributes no members",
              [("interface", .quoted interface), ("supertrait", .text segment.name)]⟩
            return found) (found ++ [own])

/-- The members of an interface with those of its whole hierarchy. -/
def collect (scan : ScanResult) (interface : Interface) : Pass MemberSet := do
  return ⟨← visit scan interface.name (scan.traits.length + 2) interface.toTraitDecl []⟩

end Hierarchy

end VariantMerge
