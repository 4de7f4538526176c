/-! Documents of keys and values as in TOML 1.0, and the rules by which lines build tables: a key is set
    once, a table is opened by at most one header, and neither may reopen what the other made. -/

namespace Switchboard

/-- How a table came to be. -/
inductive TableOrigin where
  /-- By its own header. -/
  | header
  /-- By the header of a table inside it. -/
  | implied
  /-- By a dotted key. -/
  | dotted
  /-- In braces; it is complete. -/
  | inline
  deriving DecidableEq

inductive Toml where
  | string (s : String)
  | integer (n : Int)
  | bool (b : Bool)
  | real
  | moment
  | array (items : List Toml)
  | table (origin : TableOrigin) (entries : List (String × Toml))
  /-- The tables that the headers in double brackets make. -/
  | tables (items : List (List (String × Toml)))
  deriving Inhabited

namespace Toml

/-- The entries of a table, in the order in which they were made. -/
abbrev Entries := List (String × Toml)

/-- Puts an entry in place of the one with its key, or after all others. -/
def put (key : String) (value : Toml) : Entries → Entries
  | [] => [(key, value)]
  | e :: rest => if e.1 = key then (key, value) :: rest else e :: put key value rest

def setNew (key : String) (value : Toml) (entries : Entries) : Option Entries :=
  if (entries.lookup key).isSome then none else some (entries ++ [(key, value)])

/-- Sets a dotted key inside a table that was made by `origin`. -/
def setDotted (value : Toml) : List String → Entries → Option Entries
  | [], _ => none
  | [key], entries => setNew key value entries
  | key :: rest@(_ :: more), entries =>
    match entries.lookup key with
    | none => do
      let inside ← setDotted value rest []
      some (entries ++ [(key, .table .dotted inside)])
    | some (.table .dotted inside) => do
      let inside ← setDotted value rest inside
      some (put key (.table .dotted inside) entries)
    | some (.table .implied inside) =>
      if more.isEmpty then none
      else do
        let inside ← setDotted value rest inside
        some (put key (.table .implied inside) entries)
    | some _ => none

/-- Changes the table that a header's path leads to; tables on the way are made if need be, and a list
    of tables stands for its last. -/
def along (change : Entries → Option Entries) : List String → Entries → Option Entries
  | [], entries => change entries
  | key :: rest, entries =>
    match entries.lookup key with
    | none => do
      let inside ← along change rest []
      some (entries ++ [(key, .table .implied inside)])
    | some (.table .inline _) => none
    | some (.table origin inside) => do
      let inside ← along change rest inside
      some (put key (.table origin inside) entries)
    | some (.tables items) =>
      match items.reverse with
      | [] => none
      | last :: earlier => do
        let last ← along change rest last
        some (put key (.tables (last :: earlier).reverse) entries)
    | some _ => none

def openTable (key : String) (entries : Entries) : Option Entries :=
  match entries.lookup key with
  | none => some (entries ++ [(key, .table .header [])])
  | some (.table .implied inside) =>
    some ((entries.filter fun e => e.1 != key) ++ [(key, .table .header inside)])
  | some _ => none

/-- Adds a table to the list of tables with a key. -/
def addTable (key : String) (entries : Entries) : Option Entries :=
  match entries.lookup key with
  | none => some (entries ++ [(key, .tables [[]])])
  | some (.tables items) => some (put key (.tables (items ++ [[]])) entries)
  | some _ => none

inductive Line where
  | entry (path : List String) (value : Toml)
  | header (path : List String)
  | listHeader (path : List String)

/-- The document so far, and the table that entries go to. -/
structure Draft where
  entries : Entries := []
  current : List String := []

def Draft.add (d : Draft) : Line → Option Draft
  | .entry path value => (along (setDotted value path) d.current d.entries).map fun entries => { d with entries }
  | .header path =>
    match path.getLast? with
    | none => none
    | some key => (along (openTable key) path.dropLast d.entries).map fun entries => { entries, current := path }
  | .listHeader path =>
    match path.getLast? with
    | none => none
    | some key => (along (addTable key) path.dropLast d.entries).map fun entries => { entries, current := path }

def ofLines (lines : List Line) : Option Entries := (lines.foldlM Draft.add {}).map (·.entries)

end Toml
end Switchboard
