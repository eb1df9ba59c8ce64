/-!
# Spaces, comments and line breaks

What may stand between the parts of a TOML text.  A space is a blank or a tab; a line
breaks at a line feed, or at a carriage return with a line feed behind it; a comment
starts at `#` and goes on as long as its characters are printable.

A `Reader` reads something off the front of a text and gives back the rest.
-/

namespace TimedTasks.Toml

/-- Reads off the front of a text, and gives back the rest. -/
abbrev Reader (β : Type) := List Char → Option (β × List Char)

/-- A blank or a tab. -/
def isSpace (c : Char) : Bool := c == ' ' || c == '\t'

/-- A tab, a printable ASCII character, or any character outside ASCII. -/
def isPrintable (c : Char) : Bool := c == '\t' || (' ' ≤ c && c ≤ '~') || '\x7f' < c

/-- The text after the spaces at its front. -/
def skipSpaces (text : List Char) : List Char := text.dropWhile isSpace

/-- The text after the line break at its front, if there is one. -/
def afterBreak? : List Char → Option (List Char)
  | '\n' :: rest => some rest
  | '\r' :: '\n' :: rest => some rest
  | _ => none

/-- The text after the comment at its front, if there is one. -/
def skipComment : List Char → List Char
  | '#' :: rest => rest.dropWhile isPrintable
  | text => text

/-- The text of the following lines, if nothing but spaces and a comment is left on this
one. -/
def afterLine? (text : List Char) : Option (List Char) :=
  match skipComment (skipSpaces text) with
  | [] => some []
  | rest => afterBreak? rest

def skipBreaks : List Char → List Char
  | ' ' :: rest => skipBreaks rest
  | '\t' :: rest => skipBreaks rest
  | '\n' :: rest => skipBreaks rest
  | '\r' :: '\n' :: rest => skipBreaks rest
  | text => text

/-- The text after spaces, comments and line breaks; at most `fuel` lines are left. -/
def skipGapWithin : Nat → List Char → List Char
  | 0, text => text
  | fuel + 1, text =>
    let text := skipComment (skipSpaces text)
    match afterBreak? text with
    | some rest => skipGapWithin fuel rest
    | none => text

/-- The text after spaces, comments and line breaks.  There are no more lines than
characters. -/
def skipGap (text : List Char) : List Char := skipGapWithin text.length text

def afterWord? : List Char → List Char → Option (List Char)
  | [], text => some text
  | c :: word, d :: text => if c = d then afterWord? word text else none
  | _ :: _, [] => none

end TimedTasks.Toml
