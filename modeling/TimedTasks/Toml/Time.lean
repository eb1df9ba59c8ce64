import TimedTasks.Toml.Numeral

/-!
# Dates and times

A date has a year of four digits, a month and a day that the month has in that year.  A
time has hours, minutes, seconds up to a leap second, and perhaps a fraction.  Both may
stand alone; a date may be followed by `T` or a blank and a time, and that by `Z` or an
offset.  They are kept as they are written.
-/

namespace TimedTasks.Toml

/-- Exactly `count` decimal digits behind those of `value`. -/
def readFixed : Nat → Nat → Reader Nat
  | 0, value, text => some (value, text)
  | _ + 1, _, [] => none
  | count + 1, value, c :: text =>
    if c.isDigit then readFixed count (10 * value + (c.toNat - '0'.toNat)) text else none

def readPair (least most : Nat) : Reader Nat := fun text =>
  match readFixed 2 0 text with
  | some (value, rest) => if least ≤ value ∧ value ≤ most then some (value, rest) else none
  | none => none

def isLeap (year : Nat) : Bool := year % 4 == 0 && (year % 100 != 0 || year % 400 == 0)

def daysIn (year month : Nat) : Nat :=
  if month = 2 then if isLeap year then 29 else 28
  else if month = 4 ∨ month = 6 ∨ month = 9 ∨ month = 11 then 30
  else 31

def afterDate? (text : List Char) : Option (List Char) := do
  let (year, rest) ← readFixed 4 0 text
  let rest ← afterWord? ['-'] rest
  let (month, rest) ← readPair 1 12 rest
  let rest ← afterWord? ['-'] rest
  let (_, rest) ← readPair 1 (daysIn year month) rest
  some rest

/-- The text after the fraction of a second, if there is one. -/
def skipSecondFraction (text : List Char) : List Char :=
  match text with
  | '.' :: c :: rest => if c.isDigit then rest.dropWhile Char.isDigit else text
  | _ => text

def afterTime? (text : List Char) : Option (List Char) := do
  let (_, rest) ← readPair 0 23 text
  let rest ← afterWord? [':'] rest
  let (_, rest) ← readPair 0 59 rest
  let rest ← afterWord? [':'] rest
  let (_, rest) ← readPair 0 60 rest
  some (skipSecondFraction rest)

def afterOffset? (text : List Char) : Option (List Char) :=
  match text with
  | [] => none
  | c :: rest =>
    if c = 'Z' ∨ c = 'z' then some rest
    else if c = '+' ∨ c = '-' then do
      let (_, rest) ← readPair 0 23 rest
      let rest ← afterWord? [':'] rest
      let (_, rest) ← readPair 0 59 rest
      some rest
    else none

/-- The text after a time of day that follows a date, if there is one. -/
def skipTimeOfDay (text : List Char) : List Char :=
  match text with
  | [] => text
  | c :: rest =>
    if c = 'T' ∨ c = 't' ∨ c = ' ' then
      match afterTime? rest with
      | some rest => (afterOffset? rest).getD rest
      | none => text
    else text

/-- A date, a time, or both, as it is written. -/
def readTime : Reader String := fun text =>
  (((afterDate? text).map skipTimeOfDay).or (afterTime? text)).map fun rest =>
    (readUpTo text rest, rest)

end TimedTasks.Toml
