import TimedTasks.Toml.Time
import TimedTasks.Toml.Value

/-!
# Statements

A TOML text is a list of statements, each on a line of its own: a header, a header in
double brackets, or a key with its value.  Only arrays, and texts between three marks,
go on over several lines.

Arrays and tables between braces are nested less than `depthLimit` deep, and a dotted
key has less than that many parts.
-/

namespace TimedTasks.Toml

/-- The depth that nesting does not reach, and the number of parts that no key has. -/
def depthLimit : Nat := 80

/-- A dotted key: its first part and the others. -/
abbrev Path := String × List String

/-! ### Keys -/

/-- A character of a key that is written without marks. -/
def isBare (c : Char) : Bool := c.isAlphanum || c == '_' || c == '-'

def readPart : Reader String := fun text =>
  let read (marks : Marks) : Option (String × List Char) :=
    (afterWord? [marks.char] text).bind (readShort marks)
  let bare : Option (String × List Char) :=
    match text.takeWhile isBare with
    | [] => none
    | word => some (String.ofList word, text.dropWhile isBare)
  ((read .double).or (read .single)).or bare

/-- At most `fuel` parts of a key with dots between them. -/
def readPartsWithin : Nat → Reader Path
  | 0, _ => none
  | fuel + 1, text =>
    match readPart (skipSpaces text) with
    | none => none
    | some (part, rest) =>
      match skipSpaces rest with
      | '.' :: rest =>
        match readPartsWithin fuel rest with
        | some ((next, more), rest) => some ((part, next :: more), rest)
        | none => none
      | rest => some ((part, []), rest)

def readPath : Reader Path := readPartsWithin (depthLimit - 1)

/-! ### Values -/

/-- The rest of an array whose items are read by `item`; at most `fuel` items are read. -/
def readItemsWithin (item : Reader Value) : Nat → Reader (List Value)
  | 0, _ => none
  | fuel + 1, text =>
    match skipGap text with
    | ']' :: rest => some ([], rest)
    | text =>
      match item text with
      | none => none
      | some (value, rest) =>
        match skipGap rest with
        | ']' :: rest => some ([value], rest)
        | ',' :: rest =>
          match readItemsWithin item fuel rest with
          | some (items, rest) => some (value :: items, rest)
          | none => none
        | _ => none

def readArray (item : Reader Value) : Reader Value
  | '[' :: rest =>
    match readItemsWithin item (rest.length + 1) rest with
    | some (items, rest) => some (.array items, rest)
    | none => none
  | _ => none

def readEntry (item : Reader Value) : Reader (Path × Value) := fun text =>
  match readPath text with
  | some (path, '=' :: rest) =>
    match item (skipSpaces rest) with
    | some (value, rest) => some ((path, value), rest)
    | none => none
  | _ => none

/-- The rest of a table between braces, one entry at least; at most `fuel` entries are
read. -/
def readEntriesWithin (item : Reader Value) : Nat → Table → Reader Table
  | 0, _, _ => none
  | fuel + 1, table, text =>
    match readEntry item text with
    | none => none
    | some (((key, more), value), rest) =>
      match table.insert value key more with
      | none => none
      | some table =>
        match skipSpaces rest with
        | '}' :: rest => some (table, rest)
        | ',' :: rest => readEntriesWithin item fuel table rest
        | _ => none

def readBraces (item : Reader Value) : Reader Value
  | '{' :: rest =>
    match skipSpaces rest with
    | '}' :: rest => some (.table .braces [], rest)
    | rest =>
      match readEntriesWithin item (rest.length + 1) [] rest with
      | some (table, rest) => some (.table .braces table, rest)
      | none => none
  | _ => none

def readTruth : Reader Bool := fun text =>
  ((afterWord? ['t', 'r', 'u', 'e'] text).map (true, ·)).or
    ((afterWord? ['f', 'a', 'l', 's', 'e'] text).map (false, ·))

/-- A value that is neither an array nor a table.  A number is tried as a time first and
as a whole number last, since the others begin with one. -/
def readScalar : Reader Value := fun text =>
  let text? := (readText text).map fun (value, rest) => (Value.text value, rest)
  let truth? := (readTruth text).map fun (value, rest) => (Value.truth value, rest)
  let time? := (readTime text).map fun (written, rest) => (Value.time written, rest)
  let real? := (readReal text).map fun (written, rest) => (Value.real written, rest)
  let integer? := (readInteger text).map fun (value, rest) => (Value.integer value, rest)
  (((text?.or truth?).or time?).or real?).or integer?

/-- A value in which arrays and tables are nested at most so deep. -/
def readValue : Nat → Reader Value
  | 0, text => readScalar text
  | depth + 1, text =>
    match text with
    | '[' :: _ => readArray (readValue depth) text
    | '{' :: _ => readBraces (readValue depth) text
    | _ => readScalar text

/-! ### Lines -/

/-- What a line says. -/
inductive Statement where
  /-- The keys that follow belong to the table at this path. -/
  | table (path : Path)
  /-- The keys that follow belong to a new table of the series at this path. -/
  | series (path : Path)
  | entry (path : Path) (value : Value)

def readHeader (opening closing : List Char) : Reader Path := fun text =>
  match (afterWord? opening text).bind readPath with
  | some (path, rest) => (afterWord? closing rest).map (path, ·)
  | none => none

/-- A statement, without what follows it on its line. -/
def readStatement : Reader Statement := fun text =>
  match text with
  | '[' :: '[' :: _ =>
    (readHeader ['[', '['] [']', ']'] text).map fun (path, rest) => (.series path, rest)
  | '[' :: _ => (readHeader ['['] [']'] text).map fun (path, rest) => (.table path, rest)
  | _ =>
    (readEntry (readValue (depthLimit - 1)) text).map fun ((path, value), rest) =>
      (.entry path value, rest)

/-- The statements of at most `fuel` lines. -/
def readLinesWithin : Nat → List Char → Option (List Statement)
  | 0, text => if text = [] then some [] else none
  | fuel + 1, text =>
    match text with
    | [] => some []
    | _ =>
      match afterLine? text with
      | some rest => readLinesWithin fuel rest
      | none =>
        match readStatement (skipSpaces text) with
        | none => none
        | some (statement, rest) =>
          match afterLine? rest with
          | none => none
          | some rest => (readLinesWithin fuel rest).map (statement :: ·)

/-- The statements of a text.  Every line but the last takes a character at least for
its line break. -/
def readStatements (text : List Char) : Option (List Statement) :=
  readLinesWithin (text.length + 1) text

end TimedTasks.Toml
