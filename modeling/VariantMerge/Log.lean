import VariantMerge.Text.Quoted

/-!
# Events of a pass

A pass tells what it does by events. They are values that come with its result, in the order in
which they happened, so that telling them changes nothing else.
-/

namespace VariantMerge

/-- How important an event is. -/
inductive Level where
  | error
  | warn
  | info
  | debug
  | trace
  deriving DecidableEq, Repr, Inhabited

namespace Level

/-- The less important an event is, the higher its rank. -/
def rank : Level → Nat
  | error => 0
  | warn => 1
  | info => 2
  | debug => 3
  | trace => 4

def label : Level → String
  | error => "ERROR"
  | warn => "WARN"
  | info => "INFO"
  | debug => "DEBUG"
  | trace => "TRACE"

end Level

/-- The value of an event's field: a text as it is, a text in quotes, or a count. -/
inductive FieldValue where
  | text (text : String)
  | quoted (text : String)
  | count (n : Nat)
  deriving DecidableEq, Repr, Inhabited

namespace FieldValue

def display : FieldValue → String
  | text t => t
  | quoted t => Text.quoted t
  | count n => toString n

end FieldValue

/-- Something that happened during a pass. -/
structure Event where
  level : Level
  message : String
  fields : List (String × FieldValue)
  deriving DecidableEq, Repr, Inhabited

namespace Event

/-- The event on one line: its level, its message and its fields. -/
def display (event : Event) : String :=
  String.intercalate " " (event.level.label :: event.message ::
    event.fields.map fun (name, value) => name ++ "=" ++ value.display)

/-- The events that are at least as important as the given level. -/
def atLevel (level : Level) (events : List Event) : List Event :=
  events.filter fun event => event.level.rank ≤ level.rank

end Event

/-- A result with the events on the way to it. -/
structure Logged (α : Type u) where
  value : α
  events : List Event
  deriving Repr

namespace Logged

instance : Monad Logged where
  pure a := ⟨a, []⟩
  bind x f := ⟨(f x.value).value, x.events ++ (f x.value).events⟩

/-- One event. -/
def tell (event : Event) : Logged Unit := ⟨(), [event]⟩

end Logged

end VariantMerge
