/-!
# Fixed-width text

Padding to a width and grouping the digits of a count.
-/

namespace KeyedRelations.Text

/-- Blanks before a text up to a width; a longer text is left as it is. -/
def alignRight (width : Nat) (s : String) : String :=
  String.ofList (List.replicate (width - s.length) ' ') ++ s

/-- Blanks after a text up to a width. -/
def alignLeft (width : Nat) (s : String) : String :=
  s ++ String.ofList (List.replicate (width - s.length) ' ')

def repeated (n : Nat) (c : Char) : String := String.ofList (List.replicate n c)

/-- Digits from the right in groups of three, written from the left with commas between. -/
def groupDigits : List Char → List Char
  | a :: b :: c :: d :: rest => a :: b :: c :: ',' :: groupDigits (d :: rest)
  | short => short

/-- A count with a comma at every thousand. -/
def grouped (n : Nat) : String :=
  String.ofList (groupDigits (Nat.toDigits 10 n).reverse).reverse

/-- A number with zeros before it up to a width. -/
def zeroPadded (width n : Nat) : String :=
  let digits := Nat.toDigits 10 n
  String.ofList (List.replicate (width - digits.length) '0' ++ digits)

/-- A number with zeros before its digits up to a width, in which its sign counts. -/
def signedPadded (width : Nat) (n : Int) : String :=
  if n < 0 then "-" ++ zeroPadded (width - 1) n.natAbs else zeroPadded width n.natAbs

/-- The texts in brackets, of more than three only the first two and the last. -/
def abridged : List String → String
  | a :: b :: c :: d :: rest =>
    "[" ++ a ++ ", " ++ b ++ ", … " ++ (c :: d :: rest).getLast (by simp) ++ "]"
  | items => "[" ++ ", ".intercalate items ++ "]"

/-- The texts between marks. -/
def splitAt (isMark : Char → Bool) : List Char → List (List Char)
  | [] => [[]]
  | c :: cs => if isMark c then [] :: splitAt isMark cs else (splitAt isMark cs).modifyHead (c :: ·)

end KeyedRelations.Text
