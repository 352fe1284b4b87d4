/-!
# Tables of a TOML document

A document is a table of keys, and a value may again be a table, or a list of tables that grows by
one with every header of its name. A table remembers how it came about, since that decides whether a
later line may still add to it:

* one opened by a header, or written out on one line, is complete when it is left;
* one that only lies on the way to a header may still be opened itself;
* one that dotted keys made can be added to by dotted keys only.

Numbers and dates are not kept, as no setting is one.
-/

namespace Crosswalk.Toml

/-- How a table came about. -/
inductive Origin
  /-- It was opened by a header of its own. -/
  | header
  /-- It lies on the way to a table that a header opened. -/
  | implied
  /-- It was made by dotted keys. -/
  | dotted
  /-- It was written out on one line. -/
  | inline
deriving DecidableEq

inductive Node
  | boolean (b : Bool)
  | text (s : String)
  /-- A number or a date. -/
  | other
  | array (items : List Node)
  | table (origin : Origin) (entries : List (String × Node))
  /-- Tables opened by headers in double brackets. -/
  | tables (items : List (List (String × Node)))

abbrev Entries := List (String × Node)

namespace Entries

/-- The entries with a new value for a key that is among them. -/
def replace (entries : Entries) (key : String) (node : Node) : Entries :=
  entries.map fun (k, old) => (k, if k = key then node else old)

/-- Changes the table at the end of a path, and makes the tables on the path that are not there.
Tables on the path are entered only if their origin allows it; of a list of tables the last one is
entered. -/
def descend (made : Origin) (allowed : Origin → Bool)
    (change : Origin → Entries → Option Entries) :
    List String → Origin → Entries → Option Entries
  | [], origin, entries => change origin entries
  | key :: path, _, entries =>
    match entries.lookup key with
    | none => do
      let inner ← descend made allowed change path made []
      return entries ++ [(key, .table made inner)]
    | some (.table origin inner) => do
      guard (allowed origin)
      let inner ← descend made allowed change path origin inner
      return entries.replace key (.table origin inner)
    | some (.tables items) => do
      let inner ← descend made allowed change path .header (← items.getLast?)
      return entries.replace key (.tables (items.dropLast ++ [inner]))
    | some _ => none

/-- Adds a key at the end of dotted keys, which is empty for a plain key. -/
def assign (path : List String) (key : String) (node : Node) : Origin → Entries → Option Entries :=
  descend .dotted (fun origin => origin = .implied ∨ origin = .dotted)
    (fun origin entries => do
      guard ((path = [] ∨ origin = .dotted) ∧ entries.lookup key = none)
      return entries ++ [(key, node)])
    path

/-- Goes to the table at the end of a path of headers. -/
def atHeader (change : Origin → Entries → Option Entries) (path : List String) (root : Entries) :
    Option Entries :=
  descend .implied (· ≠ .inline) change path .header root

/-- Opens the table of a header. It must be new, or have been on the way to others only. -/
def openTable (path : List String) (key : String) : Entries → Option Entries :=
  atHeader (fun _ entries =>
    match entries.lookup key with
    | none => some (entries ++ [(key, .table .header [])])
    | some (.table .implied inner) => some (entries.replace key (.table .header inner))
    | some _ => none) path

/-- Opens another table of a list of tables. -/
def openItem (path : List String) (key : String) : Entries → Option Entries :=
  atHeader (fun _ entries =>
    match entries.lookup key with
    | none => some (entries ++ [(key, .tables [[]])])
    | some (.tables items) => some (entries.replace key (.tables (items ++ [[]])))
    | some _ => none) path

end Entries

end Crosswalk.Toml
