import TimedTasks.Toml.Statement

/-!
# Documents

A document is the table that the statements of a text build up, one after the other.
A byte order mark at the front of a text is passed over.
-/

namespace TimedTasks.Toml

/-- A table that grows, and the path of the table to which keys belong now. -/
structure Draft where
  root : Table := []
  current : List String := []

namespace Draft

def openHeader (draft : Draft) (opening : String → Table → Option Table) (path : Path) :
    Option Draft :=
  let parts := path.1 :: path.2
  (Table.change (opening (path.2.getLast?.getD path.1)) parts.dropLast draft.root).map fun root =>
    { root, current := parts }

/-- Do what a statement says; `none` if it contradicts those before it. -/
def apply (draft : Draft) : Statement → Option Draft
  | .table path => draft.openHeader Table.openTable path
  | .series path => draft.openHeader Table.openSeries path
  | .entry (key, more) value =>
    (Table.change (Table.insert value key more) draft.current draft.root).map fun root =>
      { draft with root }

end Draft

/-- A text without the byte order mark at its front. -/
def skipMark : List Char → List Char
  | '\uFEFF' :: text => text
  | text => text

/-- The table that a TOML text describes, if it is one. -/
def readDocument (text : String) : Option Table :=
  match readStatements (skipMark text.toList) with
  | none => none
  | some statements => (statements.foldlM Draft.apply {}).map Draft.root

end TimedTasks.Toml
