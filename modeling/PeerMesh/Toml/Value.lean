/-! TOML values, and how tables grow while a document is read. A table that a header has defined, or
that stands as a value, is never defined again; one that only stood on the path to another may
still get its own header; one that dotted keys have made grows by dotted keys alone. -/

namespace PeerMesh

/-- How a table came about. -/
inductive TableForm where
  /-- Written as a value. -/
  | inline
  /-- Defined by a header. -/
  | header
  /-- Named on the path of a header. -/
  | implicit
  /-- Named on the path of a dotted key. -/
  | dotted
  deriving DecidableEq, Repr

inductive Toml where
  | string (value : String)
  | integer (value : Int)
  | float
  | boolean (value : Bool)
  | datetime
  | array (items : List Toml)
  | table (form : TableForm) (entries : List (String × Toml))
  /-- An array of tables: the latest, which headers refer to, and those before it, last first. -/
  | tables (latest : List (String × Toml)) (earlier : List (List (String × Toml)))

namespace Toml

abbrev Entries := List (String × Toml)

/-- The items of an array, whose tables headers may have written. -/
def items? : Toml → Option (List Toml)
  | .array items => some items
  | .tables latest earlier => some ((latest :: earlier).reverse.map (.table .header))
  | _ => none

def lookup (key : String) (entries : Entries) : Option Toml :=
  (entries.find? fun e => e.1 == key).map (·.2)

def assign (key : String) (value : Toml) : Entries → Entries
  | [] => [(key, value)]
  | (k, v) :: rest => if k = key then (k, value) :: rest else (k, v) :: assign key value rest

/-- Changes the table at the end of a header's path, making those that are missing on the way. -/
def atHeader (change : Entries → Option Entries) : List String → Entries → Option Entries
  | [], entries => change entries
  | key :: path, entries =>
    match lookup key entries with
    | none => (atHeader change path []).map fun inner => assign key (.table .implicit inner) entries
    | some (.table .inline _) => none
    | some (.table form inner) =>
      (atHeader change path inner).map fun inner => assign key (.table form inner) entries
    | some (.tables latest earlier) =>
      (atHeader change path latest).map fun latest => assign key (.tables latest earlier) entries
    | some _ => none

/-- Stores a value at the end of a dotted key's path. `form` is the form of the table at hand. -/
def atDotted (value : Toml) (key : String) : List String → TableForm → Bool → Entries →
    Option Entries
  | [], form, isTop, entries =>
    if (form == .dotted) == isTop then none
    else match lookup key entries with
      | some _ => none
      | none => some (assign key value entries)
  | name :: path, _, _, entries =>
    match lookup name entries with
    | none =>
      (atDotted value key path .dotted false []).map fun inner =>
        assign name (.table .dotted inner) entries
    | some (.table .implicit inner) =>
      (atDotted value key path .implicit false inner).map fun inner =>
        assign name (.table .implicit inner) entries
    | some (.table .dotted inner) =>
      (atDotted value key path .dotted false inner).map fun inner =>
        assign name (.table .dotted inner) entries
    | some (.tables latest earlier) =>
      (atDotted value key path .header false latest).map fun latest =>
        assign name (.tables latest earlier) entries
    | some _ => none

/-- Stores a value under a key, given as its parts, in a table that is being written. -/
def store (form : TableForm) (key : List String) (value : Toml) (entries : Entries) :
    Option Entries :=
  match key.reverse with
  | [] => none
  | last :: path => atDotted value last path.reverse form path.isEmpty entries

/-- A document while it is read: what is complete, and the table that the last header began. -/
structure Draft where
  root : Entries
  path : List String
  isArray : Bool
  current : Entries

namespace Draft

def start : Draft := ⟨[], [], false, []⟩

/-- The root with the current table in its place. -/
def finish (d : Draft) : Option Entries :=
  match d.path.reverse with
  | [] => some d.current
  | key :: above =>
    let place (entries : Entries) : Option Entries :=
      if d.isArray then
        match lookup key entries with
        | none => some (assign key (.tables d.current []) entries)
        | some (.tables latest earlier) =>
          some (assign key (.tables d.current (latest :: earlier)) entries)
        | some _ => none
      else some (assign key (.table .header d.current) entries)
    atHeader place above.reverse d.root

/-- The entries of a table that may get a header: one that is new, or only stood on a path. -/
def claimed? (key : String) (entries : Entries) : Option Entries :=
  match lookup key entries with
  | none => some []
  | some (.table .implicit inner) => some inner
  | some _ => none

def tableAt? : List String → Entries → Option Entries
  | [], entries => some entries
  | key :: path, entries =>
    match lookup key entries with
    | none => some []
    | some (.table .inline _) => none
    | some (.table _ inner) => tableAt? path inner
    | some (.tables latest _) => tableAt? path latest
    | some _ => none

def openTable (d : Draft) (path : List String) : Option Draft := do
  let root ← d.finish
  let key ← path.getLast?
  let parent ← tableAt? path.dropLast root
  let current ← claimed? key parent
  some ⟨root, path, false, current⟩

def openElement (d : Draft) (path : List String) : Option Draft := do
  let root ← d.finish
  let key ← path.getLast?
  let parent ← tableAt? path.dropLast root
  match lookup key parent with
  | none => some ⟨root, path, true, []⟩
  | some (.tables _ _) => some ⟨root, path, true, []⟩
  | some _ => none

def store (d : Draft) (key : List String) (value : Toml) : Option Draft :=
  (Toml.store .header key value d.current).map fun current => { d with current := current }

end Draft
end Toml
end PeerMesh
