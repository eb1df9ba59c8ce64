import TimedTasks.Toml.Quoted

/-!
# Numbers

A whole number is written with an optional sign and without leading zeros, or with
`0x`, `0o` or `0b` and the digits of that base; it has to fit into 64 bits with a sign.
A real number has a fraction, an exponent or both, or is `inf` or `nan`.  Single
underscores may stand between digits.

Real numbers are kept as they are written.  One that is so large that the nearest
double is infinite is refused, unless it is negative.
-/

namespace TimedTasks.Toml

/-! ### Digits -/

/-- The digits that follow a digit, each with at most one underscore before it. -/
def moreDigits (isDigit : Char → Bool) : List Char → List Char × List Char
  | '_' :: c :: rest =>
    if isDigit c then
      let (digits, rest) := moreDigits isDigit rest
      (c :: digits, rest)
    else ([], '_' :: c :: rest)
  | c :: rest =>
    if isDigit c then
      let (digits, rest) := moreDigits isDigit rest
      (c :: digits, rest)
    else ([], c :: rest)
  | [] => ([], [])

def readDigits (isDigit : Char → Bool) : Reader (List Char)
  | c :: rest =>
    if isDigit c then
      let (digits, rest) := moreDigits isDigit rest
      some (c :: digits, rest)
    else none
  | [] => none

/-- The digits of a whole number: a zero, or digits of which the first is no zero. -/
def readWhole : Reader (List Char)
  | '0' :: rest => some (['0'], rest)
  | text => readDigits Char.isDigit text

def valueOf (base : Nat) (digits : List Char) : Nat :=
  digits.foldl (fun value c => base * value + (hexValue? c).getD 0) 0

/-- Whether a minus sign stands in front, and the text after the sign. -/
def readSign : List Char → Bool × List Char
  | '-' :: rest => (true, rest)
  | '+' :: rest => (false, rest)
  | text => (false, text)

/-! ### Whole numbers -/

/-- Whole numbers lie between the negative of this and one less than it. -/
def integerBound : Nat := 9223372036854775808

def bounded? (value : Nat) : Option Int := if value < integerBound then some value else none

/-- The digits of a base behind its mark. -/
def readBased (mark : List Char) (base : Nat) : Reader Int := fun text =>
  match afterWord? mark text with
  | none => none
  | some rest =>
    match readDigits (fun c => (hexValue? c).any (· < base)) rest with
    | some (digits, rest) => (bounded? (valueOf base digits)).map (·, rest)
    | none => none

def readDecimal : Reader Int := fun text =>
  let (negative, rest) := readSign text
  match readWhole rest with
  | none => none
  | some (digits, rest) =>
    let value := valueOf 10 digits
    if negative then if value ≤ integerBound then some (-value, rest) else none
    else (bounded? value).map (·, rest)

def readInteger : Reader Int := fun text =>
  match text with
  | '0' :: 'x' :: _ => readBased ['0', 'x'] 16 text
  | '0' :: 'o' :: _ => readBased ['0', 'o'] 8 text
  | '0' :: 'b' :: _ => readBased ['0', 'b'] 2 text
  | _ => readDecimal text

/-! ### Real numbers -/

/-- Positive numbers from here on are nearer to an infinite double than to any other: it
lies half way between the largest double and the next power of two. -/
def doubleLimit : Nat := Nat.pow 2 1024 - Nat.pow 2 970

/-- Whether `mantissa * 10 ^ exponent` reaches `doubleLimit`, where the mantissa has
`places` digits.  Powers of ten that settle the question by their size alone are not
computed. -/
def reachesLimit (mantissa places : Nat) (exponent : Int) : Bool :=
  if mantissa = 0 then false
  else
    match exponent with
    | .ofNat up => decide (400 < up) || decide (doubleLimit ≤ mantissa * Nat.pow 10 up)
    | .negSucc down =>
      decide (down < places) && decide (doubleLimit * Nat.pow 10 (down + 1) ≤ mantissa)

/-- The digits of a fraction behind its point. -/
def readFraction : Reader (List Char)
  | '.' :: rest => readDigits Char.isDigit rest
  | _ => none

/-- An exponent behind its letter. -/
def readExponent : Reader Int
  | c :: rest =>
    if c = 'e' ∨ c = 'E' then
      let (negative, rest) := readSign rest
      match readDigits Char.isDigit rest with
      | some (digits, rest) =>
        let value := valueOf 10 digits
        some (if negative then -value else value, rest)
      | none => none
    else none
  | [] => none

/-- The fraction and the exponent of a real number, of which one may be missing. -/
def readTail : Reader (List Char × Int) := fun text =>
  match readFraction text with
  | some (fraction, rest) =>
    match readExponent rest with
    | some (exponent, rest) => some ((fraction, exponent), rest)
    | none => some ((fraction, 0), rest)
  | none =>
    match readExponent text with
    | some (exponent, rest) => some (([], exponent), rest)
    | none => none

/-- A finite real number; only the rest of the text is of interest. -/
def afterFinite? (text : List Char) : Option (List Char) :=
  let (negative, rest) := readSign text
  match readWhole rest with
  | none => none
  | some (whole, rest) =>
    match readTail rest with
    | none => none
    | some ((fraction, exponent), rest) =>
      let digits := whole ++ fraction
      if !negative && reachesLimit (valueOf 10 digits) digits.length (exponent - fraction.length)
      then none else some rest

/-- An infinite number, or none at all. -/
def afterSpecial? (text : List Char) : Option (List Char) :=
  let (_, rest) := readSign text
  (afterWord? ['i', 'n', 'f'] rest).or (afterWord? ['n', 'a', 'n'] rest)

/-- What has been read when `rest` is left of `text`. -/
def readUpTo (text rest : List Char) : String :=
  String.ofList (text.take (text.length - rest.length))

def readReal : Reader String := fun text =>
  ((afterFinite? text).or (afterSpecial? text)).map fun rest => (readUpTo text rest, rest)

end TimedTasks.Toml
