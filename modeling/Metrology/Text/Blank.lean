/-!
The classes of characters that the grammar of quantities tells apart: blanks, separators of factors,
and the ASCII letters, digits and underscore that make up words.
-/

namespace Metrology.Text

/-- White space: the controls that move or separate, and the spaces of every script. -/
def isBlank (c : Char) : Bool :=
  let n := c.toNat
  (9 ≤ n && n ≤ 13) || (28 ≤ n && n ≤ 32) || n == 0x85 || n == 0xA0 || n == 0x1680 ||
    (0x2000 ≤ n && n ≤ 0x200A) || n == 0x2028 || n == 0x2029 || n == 0x202F || n == 0x205F ||
    n == 0x3000

/-- What may stand between two factors of a unit expression. -/
def isSeparator (c : Char) : Bool := isBlank c || c == '*'

/-- ASCII digits; the digits of other scripts do not count. -/
def isDigit (c : Char) : Bool := '0' ≤ c && c ≤ '9'

/-- ASCII letters. -/
def isLetter (c : Char) : Bool := ('a' ≤ c && c ≤ 'z') || ('A' ≤ c && c ≤ 'Z')

/-- The characters between which no unit name may end. -/
def isWord (c : Char) : Bool := isLetter c || isDigit c || c == '_'

/-- The text without the blanks at its ends. -/
def trim (s : List Char) : List Char :=
  ((s.dropWhile isBlank).reverse.dropWhile isBlank).reverse

/-- Whether the word occurs in the text. -/
def occurs (word : List Char) : List Char → Bool
  | [] => word.isEmpty
  | c :: s => word.isPrefixOf (c :: s) || occurs word s

end Metrology.Text
