/-!
# TOML tables

A TOML document is a table. Its tables are defined by headers, by keys with dots, or in braces, and
each of them only once. While a document is read, a table remembers how it came to be, because that
decides what may still be added to it.
-/

namespace VariantMerge

namespace Toml

/-- A value. Numbers with a fraction and dates are told from all others, but not kept. -/
inductive Value where
  | text (text : String)
  | integer (n : Int)
  | flag (b : Bool)
  | scalar
  | array (items : List Value)
  | table (entries : List (String × Value))
  deriving Repr, Inhabited

/-- How a table came to be: as the parent of one with a header, by dots in a key, or by a header
of its own. -/
inductive TableOrigin where
  | implied
  | dotted
  | headed
  deriving DecidableEq, Repr

/-- An entry of a document that is being read: a value, which is closed, a table, or a list of
tables that share a header. -/
inductive Node where
  | value (value : Value)
  | table (origin : TableOrigin) (entries : List (String × Node))
  | tables (items : List (List (String × Node)))
  deriving Inhabited

/-- The entries of a table, in the order in which they were made. -/
abbrev Entries := List (String × Node)

namespace Entries

/-- The entry of this name. -/
def find? (entries : Entries) (key : String) : Option Node :=
  (List.find? (·.1 == key) entries).map (·.2)

/-- Sets the entry of this name. -/
def put (entries : Entries) (key : String) (node : Node) : Entries :=
  if entries.any (·.1 == key) then
    entries.map fun entry => if entry.1 == key then (key, node) else entry
  else entries ++ [(key, node)]

/-- Changes the table at the end of a path. Tables that are missing on the way are made, and of a
list of tables the last one counts. A key with dots does not lead through a table that has a header
of its own, and nothing leads into a value. -/
def change (origin : TableOrigin) (f : Entries → Option Entries) :
    List String → Entries → Option Entries
  | [], entries => f entries
  | key :: path, entries =>
    match entries.find? key with
    | none => (change origin f path []).map fun inner => entries.put key (.table origin inner)
    | some (.table made inner) =>
      if origin = .dotted ∧ made = .headed then none
      else (change origin f path inner).map fun inner => entries.put key (.table made inner)
    | some (.tables items) =>
      match items.getLast? with
      | some last =>
        (change origin f path last).map fun last =>
          entries.put key (.tables (items.dropLast ++ [last]))
      | none => none
    | some (.value _) => none

/-- Adds an entry that is not there yet. -/
def addNew (key : String) (node : Node) (entries : Entries) : Option Entries :=
  if (entries.find? key).isSome then none else some (entries ++ [(key, node)])

/-- Whether the table at the end of a path may receive a value by a key with dots: it is the table
that the path starts from, or made by such keys, or missing. -/
def receives : List String → Entries → Bool
  | [], _ => true
  | key :: path, entries =>
    match entries.find? key with
    | some (.table origin inner) => if path.isEmpty then origin = .dotted else receives path inner
    | some (.tables items) =>
      match items.getLast? with
      | some last => !path.isEmpty && receives path last
      | none => false
    | some (.value _) => false
    | none => true

/-- Adds a value under a key with dots. -/
def addValue (entries : Entries) (path : List String) (key : String) (value : Value) :
    Option Entries :=
  if receives path entries then change .dotted (addNew key (.value value)) path entries else none

/-- Adds values with their keys. -/
def addValues (entries : Entries) (values : List (List String × String × Value)) :
    Option Entries :=
  values.foldlM (fun entries (path, key, value) => entries.addValue path key value) entries

/-- Adds a table with a header. One that is implied already receives the values as well. -/
def addTable (key : String) (values : List (List String × String × Value)) (entries : Entries) :
    Option Entries :=
  match entries.find? key with
  | none => (addValues [] values).map fun inner => entries.put key (.table .headed inner)
  | some (.table .implied inner) =>
    (addValues inner values).map fun inner => entries.put key (.table .headed inner)
  | some _ => none

/-- Adds one more table to the list that shares a header. -/
def addElement (key : String) (values : List (List String × String × Value)) (entries : Entries) :
    Option Entries :=
  match entries.find? key with
  | none => (addValues [] values).map fun inner => entries.put key (.tables [inner])
  | some (.tables items) =>
    (addValues [] values).map fun inner => entries.put key (.tables (items ++ [inner]))
  | some _ => none

end Entries

mutual

/-- The value of an entry once the document is complete. -/
def Node.toValue : Node → Value
  | .value value => value
  | .table _ entries => .table (entriesToValues entries)
  | .tables items => .array (tablesToValues items)

def entriesToValues : List (String × Node) → List (String × Value)
  | [] => []
  | (key, node) :: rest => (key, node.toValue) :: entriesToValues rest

def tablesToValues : List (List (String × Node)) → List Value
  | [] => []
  | entries :: rest => .table (entriesToValues entries) :: tablesToValues rest

end

end Toml

end VariantMerge
