/-!
White space, as the Unicode standard lists it together with the four information separators, and the
removal of white space at the ends of a text.
-/

namespace FormatServer.Text

def blankCodes : List Nat :=
  [0x9, 0xA, 0xB, 0xC, 0xD, 0x1C, 0x1D, 0x1E, 0x1F, 0x20, 0x85, 0xA0, 0x1680,
   0x2000, 0x2001, 0x2002, 0x2003, 0x2004, 0x2005, 0x2006, 0x2007, 0x2008, 0x2009, 0x200A,
   0x2028, 0x2029, 0x202F, 0x205F, 0x3000]

/-- White space of any script. -/
def isBlank (c : Char) : Bool := blankCodes.contains c.toNat

/-- White space but the information separators, which are no blanks around a number. -/
def isNumberBlank (c : Char) : Bool := isBlank c && !(0x1C ≤ c.toNat && c.toNat ≤ 0x1F)

/-- The text without the characters of a class that it ends with. -/
def dropEndWhile (p : Char → Bool) (cs : List Char) : List Char := (cs.reverse.dropWhile p).reverse

/-- The text without the characters of a class at both ends. -/
def trim (p : Char → Bool) (cs : List Char) : List Char := dropEndWhile p (cs.dropWhile p)

/-- The text without the white space it ends with. -/
def stripEnd (cs : List Char) : List Char := dropEndWhile isBlank cs

/-- The text without the white space at both ends. -/
def strip (cs : List Char) : List Char := trim isBlank cs

end FormatServer.Text
