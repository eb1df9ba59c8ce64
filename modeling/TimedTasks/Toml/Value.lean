/-!
# Values and tables

A `Table` is a list of keys with their values.  How a table came to be decides what may
still be added to it (`Origin`):

* a table that a dotted key has made takes more dotted keys, and no header of its own;
* a table that was only passed through by a header may still get a header of its own;
* a table that has got its header takes keys under this header only, apart from tables
  below it;
* a table between braces is complete.

An array of tables, made by headers in double brackets, is a `series`; a path that leads
through it means its last table.
-/

namespace TimedTasks.Toml

/-- How a table came to be. -/
inductive Origin where
  /-- Written between braces. -/
  | braces
  /-- By a header of its own. -/
  | header
  /-- By a header of a table below it. -/
  | passage
  /-- By a dotted key. -/
  | dots
  deriving DecidableEq, Repr

/-- A value. -/
inductive Value where
  | text (text : String)
  | integer (value : Int)
  | real (written : String)
  | truth (value : Bool)
  | time (written : String)
  | array (items : List Value)
  | table (origin : Origin) (entries : List (String × Value))
  /-- An array of tables: the last one, and those before it with the latest first. -/
  | series (last : List (String × Value)) (before : List (List (String × Value)))
  deriving Repr

/-- Keys with their values, each key once. -/
abbrev Table := List (String × Value)

namespace Table

def find? (table : Table) (key : String) : Option Value := table.lookup key

/-- Give a key that is there already another value. -/
def replace (table : Table) (key : String) (value : Value) : Table :=
  table.map fun entry => if entry.1 = key then (key, value) else entry

def extend (table : Table) (key : String) (value : Value) : Table := table ++ [(key, value)]

/-! ### Keys -/

/-- Whether a dotted key may lead into a table, and whether it may end there. -/
def takesDots (origin : Origin) (ends : Bool) : Bool :=
  match origin with
  | .dots => true
  | .passage => !ends
  | .header | .braces => false

/-- Give the dotted key that consists of `key` and `more` its value; `none` if the key
has one already or may not lead where it leads. -/
def insert (value : Value) : String → List String → Table → Option Table
  | key, [], table => if (table.find? key).isSome then none else some (table.extend key value)
  | key, next :: more, table =>
    match table.find? key with
    | none => (insert value next more []).map fun inner => table.extend key (.table .dots inner)
    | some (.table origin inner) =>
      if takesDots origin more.isEmpty then
        (insert value next more inner).map fun inner => table.replace key (.table origin inner)
      else none
    | some (.series last before) =>
      if more.isEmpty then none
      else (insert value next more last).map fun last => table.replace key (.series last before)
    | some _ => none

/-! ### Headers -/

/-- Change the table at the end of a path of headers.  Tables on the way that are not
there yet are made. -/
def change (edit : Table → Option Table) : List String → Table → Option Table
  | [], table => edit table
  | key :: path, table =>
    match table.find? key with
    | none => (change edit path []).map fun inner => table.extend key (.table .passage inner)
    | some (.table .braces _) => none
    | some (.table origin inner) =>
      (change edit path inner).map fun inner => table.replace key (.table origin inner)
    | some (.series last before) =>
      (change edit path last).map fun last => table.replace key (.series last before)
    | some _ => none

/-- Open the table of a header; `none` if there is something of this name already, other
than a table that was only passed through. -/
def openTable (key : String) (table : Table) : Option Table :=
  match table.find? key with
  | none => some (table.extend key (.table .header []))
  | some (.table .passage inner) => some (table.replace key (.table .header inner))
  | some _ => none

def openSeries (key : String) (table : Table) : Option Table :=
  match table.find? key with
  | none => some (table.extend key (.series [] []))
  | some (.series last before) => some (table.replace key (.series [] (last :: before)))
  | some _ => none

end Table

end TimedTasks.Toml
