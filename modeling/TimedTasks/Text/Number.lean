/-!
# Whole numbers in words of 64 bits

`readNumber` accepts an optional plus sign followed by one or more ASCII digits
whose value is below `2 ^ 64`, and nothing else: no blanks, no minus sign, no
separators, no digits of another script.
-/

namespace TimedTasks.Text

/-- The value of a list of decimal digits, the most significant one first. -/
def digitsValue (digits : List Char) : Nat :=
  digits.foldl (fun value c => 10 * value + (c.toNat - '0'.toNat)) 0

/-- Numbers are kept in words of this many values, `2 ^ 64`. -/
def wordSize : Nat := 18446744073709551616

def unsigned : List Char → List Char
  | '+' :: digits => digits
  | digits => digits

/-- The number that a text spells, if it spells one that fits into a word. -/
def readNumber (text : String) : Option Nat :=
  let digits := unsigned text.toList
  if digits ≠ [] ∧ digits.all Char.isDigit ∧ digitsValue digits < wordSize then
    some (digitsValue digits)
  else none

end TimedTasks.Text
