/-! Blank characters. The set is that of the Unicode white-space characters together with the four
information separators; trimming, skipping blanks and the blank runs of the search patterns all
use it. -/
namespace ScriptSense
namespace Text

def blankRanges : List (Nat × Nat) :=
  [(9, 0xd), (0x1c, 0x20), (0x85, 0x85), (0xa0, 0xa0), (0x1680, 0x1680), (0x2000, 0x200a),
    (0x2028, 0x2029), (0x202f, 0x202f), (0x205f, 0x205f), (0x3000, 0x3000)]

def isBlank (c : Char) : Bool := blankRanges.any fun r => r.1 ≤ c.toNat && c.toNat ≤ r.2

def trim (t : List Char) : List Char :=
  ((t.dropWhile isBlank).reverse.dropWhile isBlank).reverse

/-- The blanks that may stand around a number; the information separators are none of them. -/
def isSpacing (c : Char) : Bool := isBlank c && !(0x1c ≤ c.toNat && c.toNat ≤ 0x1f)

def trimSpacing (t : List Char) : List Char :=
  ((t.dropWhile isSpacing).reverse.dropWhile isSpacing).reverse

/-- A text is blank when nothing is left of it after trimming. -/
def isBlankText (t : List Char) : Bool := t.all isBlank

end Text
end ScriptSense
