/-! # White space -/

namespace Detection.Text

/-- Code points of white space beyond ASCII, one for each. -/
def wideBlanks : List Nat :=
  [0x85, 0xA0, 0x1680, 0x2000, 0x2001, 0x2002, 0x2003, 0x2004, 0x2005, 0x2006, 0x2007, 0x2008,
    0x2009, 0x200A, 0x2028, 0x2029, 0x202F, 0x205F, 0x3000]

/-- Unicode white space, with the four ASCII separators U+001C to U+001F. -/
def isBlank (c : Char) : Bool :=
  let n := c.toNat
  (0x09 ≤ n && n ≤ 0x0D) || (0x1C ≤ n && n ≤ 0x20) || wideBlanks.contains n

def isControl (c : Char) : Bool := c.toNat < 0x20 || c.toNat = 0x7F

end Detection.Text
