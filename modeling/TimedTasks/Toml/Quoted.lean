import TimedTasks.Toml.Layout

/-!
# Quoted texts

A text stands between two quotation marks or two apostrophes (`Marks`), and may not
break a line; between three of them on each side it may.  Only between quotation marks
does a backslash begin an escape.

In a text of several lines the line break right after the opening marks is left out,
every other line break counts as a line feed, and up to two more marks may stand before
the closing three.  A backslash at the end of a line takes away the line break and
everything blank that follows it.
-/

namespace TimedTasks.Toml

/-- What a quoted text stands between. -/
inductive Marks where
  | double
  | single
  deriving DecidableEq, Repr

def Marks.char : Marks → Char
  | double => '\x22'
  | single => '\x27'

def backslash : Char := '\x5c'

/-! ### Escapes -/

def hexValue? (c : Char) : Option Nat :=
  if '0' ≤ c ∧ c ≤ '9' then some (c.toNat - '0'.toNat)
  else if 'a' ≤ c ∧ c ≤ 'f' then some (c.toNat - 'a'.toNat + 10)
  else if 'A' ≤ c ∧ c ≤ 'F' then some (c.toNat - 'A'.toNat + 10)
  else none

/-- The number written by the next `count` hexadecimal digits behind those of `value`. -/
def readHex : Nat → Nat → Reader Nat
  | 0, value, text => some (value, text)
  | _ + 1, _, [] => none
  | count + 1, value, c :: text =>
    match hexValue? c with
    | some digit => readHex count (16 * value + digit) text
    | none => none

/-- The character of a code; surrogates are no characters. -/
def charOf? (code : Nat) : Option Char :=
  if code < 0xD800 ∨ (0xDFFF < code ∧ code < 0x110000) then some (Char.ofNat code) else none

/-- A character written by `count` hexadecimal digits. -/
def readCode (count : Nat) : Reader Char := fun text =>
  match readHex count 0 text with
  | some (code, rest) => (charOf? code).map (·, rest)
  | none => none

/-- The character that an escape stands for; the backslash has been read. -/
def readEscape : Reader Char
  | 'b' :: rest => some ('\x08', rest)
  | 'f' :: rest => some ('\x0c', rest)
  | 'n' :: rest => some ('\n', rest)
  | 'r' :: rest => some ('\r', rest)
  | 't' :: rest => some ('\t', rest)
  | 'u' :: rest => readCode 4 rest
  | 'U' :: rest => readCode 8 rest
  | c :: rest => if c = backslash ∨ c = Marks.double.char then some (c, rest) else none
  | [] => none

/-! ### Texts in one line -/

/-- The rest of a text in one line, behind the characters `done`, of which the last comes
first; at most `fuel` of its characters are read. -/
def readShortWithin (marks : Marks) : Nat → List Char → Reader String
  | 0, _, _ => none
  | _ + 1, _, [] => none
  | fuel + 1, done, c :: rest =>
    if c = marks.char then some (String.ofList done.reverse, rest)
    else if marks = .double ∧ c = backslash then
      match readEscape rest with
      | some (escaped, rest) => readShortWithin marks fuel (escaped :: done) rest
      | none => none
    else if isPrintable c then readShortWithin marks fuel (c :: done) rest
    else none

/-- A text in one line; the opening mark has been read. -/
def readShort (marks : Marks) : Reader String := fun text =>
  readShortWithin marks text.length [] text

/-! ### Texts in several lines -/

/-- The rest of a text in several lines, behind the characters `done`, of which the last
comes first; at most `fuel` pieces of it are read. -/
def readLongWithin (marks : Marks) : Nat → List Char → Reader String
  | 0, _, _ => none
  | _ + 1, _, [] => none
  | fuel + 1, done, c :: rest =>
    if c = marks.char then
      let count := 1 + (rest.takeWhile (· == marks.char)).length
      let rest := rest.dropWhile (· == marks.char)
      if count < 3 then readLongWithin marks fuel (List.replicate count c ++ done) rest
      else if count ≤ 5 then
        some (String.ofList (List.replicate (count - 3) c ++ done).reverse, rest)
      else none
    else if marks = .double ∧ c = backslash then
      match afterBreak? (skipSpaces rest) with
      | some rest => readLongWithin marks fuel done (skipBreaks rest)
      | none =>
        match readEscape rest with
        | some (escaped, rest) => readLongWithin marks fuel (escaped :: done) rest
        | none => none
    else if isPrintable c then readLongWithin marks fuel (c :: done) rest
    else
      match afterBreak? (c :: rest) with
      | some rest => readLongWithin marks fuel ('\n' :: done) rest
      | none => none

/-- A text in several lines; the opening marks have been read. -/
def readLong (marks : Marks) : Reader String := fun text =>
  let text := (afterBreak? text).getD text
  readLongWithin marks text.length [] text

def readQuoted (marks : Marks) : Reader String := fun text =>
  match afterWord? (List.replicate 3 marks.char) text with
  | some rest => readLong marks rest
  | none =>
    match afterWord? [marks.char] text with
    | some rest => readShort marks rest
    | none => none

def readText : Reader String := fun text =>
  (readQuoted .double text).or (readQuoted .single text)

end TimedTasks.Toml
