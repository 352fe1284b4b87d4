import Crosswalk.Text.Range

/-!
# Blank characters

The white space of all scripts, and how a text is freed of it at both ends.
-/

namespace Crosswalk.Text

/-- The code points of white space, as ranges in ascending order. -/
def blanks : List (Nat × Nat) :=
  [(0x09, 0x0D), (0x20, 0x20), (0x85, 0x85), (0xA0, 0xA0), (0x1680, 0x1680), (0x2000, 0x200A),
   (0x2028, 0x2029), (0x202F, 0x202F), (0x205F, 0x205F), (0x3000, 0x3000)]

def isBlank (c : Char) : Bool := inRanges blanks c

/-- The text without the blank characters at its ends. -/
def trim (text : String) : String :=
  .ofList ((text.toList.dropWhile isBlank).reverse.dropWhile isBlank).reverse

end Crosswalk.Text
