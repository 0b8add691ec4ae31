/-!
# Blank characters

`isBlank` is the Unicode property White_Space.  Trimming works on the characters of a
text, so that what is left is stated by `dropWhile`.
-/

namespace Fleet.Text

def isBlank (c : Char) : Bool :=
  let n := c.toNat
  (9 ≤ n && n ≤ 13) || n == 0x20 || n == 0x85 || n == 0xA0 || n == 0x1680 ||
    (0x2000 ≤ n && n ≤ 0x200A) || n == 0x2028 || n == 0x2029 || n == 0x202F ||
    n == 0x205F || n == 0x3000

def trimLeft (cs : List Char) : List Char := cs.dropWhile isBlank

def trimRight (cs : List Char) : List Char := (cs.reverse.dropWhile isBlank).reverse

/-- The text without the blanks at its two ends. -/
def trim (cs : List Char) : List Char := trimRight (trimLeft cs)

/-- Nothing but blanks, or nothing at all. -/
def isBlankText (s : String) : Bool := s.toList.all isBlank

end Fleet.Text
