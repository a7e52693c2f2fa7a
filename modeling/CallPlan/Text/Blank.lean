import CallPlan.Text.CodeTable

/-!
# Blank characters

The characters that separate words in any script: the ASCII controls and
separators, the next-line control, and every Unicode space.
-/

namespace CallPlan.Text

def blankRanges : CodeTable := [
   (9, 13), (28, 32), (133, 133), (160, 160), (5760, 5760), (8192, 8202),
   (8232, 8233), (8239, 8239), (8287, 8287), (12288, 12288)]

/-- A blank character separates words. -/
def isBlank (c : Char) : Bool :=
  blankRanges.covers c

/-- What is left when blanks are taken off both ends. -/
def trimmed (cs : List Char) : List Char :=
  ((cs.dropWhile isBlank).reverse.dropWhile isBlank).reverse

end CallPlan.Text
