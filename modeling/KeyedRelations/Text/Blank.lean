/-!
# Blanks and words

A blank is a character that separates words: the white space of Unicode together with the four
information separators `0x1c` to `0x1f`. `words` cuts a text at its blanks.
-/

namespace KeyedRelations.Text

/-- The ranges of blank code points. -/
def blankRanges : List (Nat × Nat) :=
  [(0x0009, 0x000d), (0x001c, 0x0020), (0x0085, 0x0085), (0x00a0, 0x00a0), (0x1680, 0x1680),
   (0x2000, 0x200a), (0x2028, 0x2029), (0x202f, 0x202f), (0x205f, 0x205f), (0x3000, 0x3000)]

def isBlank (c : Char) : Bool :=
  blankRanges.any fun (first, last) => first ≤ c.toNat && c.toNat ≤ last

/-- The longest runs of characters that are not blank, in order. -/
def wordsOf : List Char → List (List Char)
  | [] => []
  | c :: cs =>
    if isBlank c then wordsOf cs
    else
      match cs with
      | [] => [[c]]
      | d :: _ => if isBlank d then [c] :: wordsOf cs else (wordsOf cs).modifyHead (c :: ·)

/-- The words of a text. -/
def words (s : String) : List String := (wordsOf s.toList).map String.ofList

end KeyedRelations.Text
