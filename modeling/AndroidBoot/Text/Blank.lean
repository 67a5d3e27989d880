import AndroidBoot.Text.Ranges

/-!
# Blanks

`isBlank` is the property White_Space of Unicode, with 25 characters. `trim` takes blanks off both
ends and `words` are the longest pieces without a blank.

    every word is non-empty and has no blank                     (words)
-/

namespace AndroidBoot

/-- The code points with the property White_Space. -/
def blankRanges : CodeRanges := [
  (0x0009, 0x000D), (0x0020, 0x0020), (0x0085, 0x0085), (0x00A0, 0x00A0), (0x1680, 0x1680),
  (0x2000, 0x200A), (0x2028, 0x2029), (0x202F, 0x202F), (0x205F, 0x205F), (0x3000, 0x3000)]

def isBlank (c : Char) : Bool := blankRanges.holds c

def trimStart (cs : List Char) : List Char := cs.dropWhile isBlank

def trim (cs : List Char) : List Char := (trimStart (trimStart cs).reverse).reverse

/-- Puts `c` in front of the first word of a list of words. -/
def growHead (c : Char) : List (List Char) → List (List Char)
  | [] => [[c]]
  | w :: ws => (c :: w) :: ws

/-- The pieces of `cs` between its separators, empty ones included. -/
def splitAtChars (sep : Char → Bool) : List Char → List (List Char)
  | [] => [[]]
  | c :: cs => if sep c then [] :: splitAtChars sep cs else growHead c (splitAtChars sep cs)

/-- The words of `cs`: its non-empty pieces between blanks. -/
def words (cs : List Char) : List (List Char) :=
  (splitAtChars isBlank cs).filter (!·.isEmpty)

end AndroidBoot
