/-!
# Blank characters

The characters with the Unicode property `White_Space`, twenty-five in all, and
stripping them from the ends of a text.
-/

namespace TimedTasks.Text

/-- Whether a character has the Unicode property `White_Space`. -/
def isBlank (c : Char) : Bool :=
  let n := c.toNat
  (0x09 ≤ n && n ≤ 0x0D) || n == 0x20 || n == 0x85 || n == 0xA0 || n == 0x1680 ||
    (0x2000 ≤ n && n ≤ 0x200A) || n == 0x2028 || n == 0x2029 || n == 0x202F ||
    n == 0x205F || n == 0x3000

/-- A text without the blank characters at its two ends. -/
def stripChars (text : List Char) : List Char :=
  ((text.dropWhile isBlank).reverse.dropWhile isBlank).reverse

/-- A text without the blank characters at its two ends. -/
def strip (text : String) : String := String.ofList (stripChars text.toList)

/-- A text with its ASCII capitals made small; no other letter is changed. -/
def lowerAscii (text : String) : String := String.ofList (text.toList.map Char.toLower)

end TimedTasks.Text
