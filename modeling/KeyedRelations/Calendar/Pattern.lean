import KeyedRelations.Calendar.Civil
import KeyedRelations.Number.Power
import KeyedRelations.Text.Uppercase

/-!
# Times by pattern

A pattern is a text with directives. A directive is a percent sign, flags, a width, a variant, and
a letter that says what is written, in this order and all but the sign and the letter optional.
What is no directive, and a directive that is not known or not finished, stands for itself.

The characters of a pattern are read one by one; `Directive` is what is known of a directive whose
letter has not been read yet.
-/

namespace KeyedRelations

/-- What fills a field up to its width. -/
inductive Padding where
  /-- What is usual for the letter of the directive. -/
  | usual
  | blanks
  | zeros
  /-- Nothing before the digits of a number; other fields are filled with blanks. -/
  | none
  deriving DecidableEq

/-- The two variants of a directive: by era, and in other digits. Neither changes what is written,
but not every directive has them. -/
inductive Variant where
  | era | digits
  deriving DecidableEq

/-- A directive without its letter. -/
structure Directive where
  padding : Padding
  /-- Capital letters are asked for. -/
  upper : Bool
  /-- The other case is asked for. -/
  swap : Bool
  /-- The least width, if one is given. -/
  width? : Option Nat
  variant? : Option Variant
  /-- The characters of the directive in reverse. -/
  spelling : List Char

/-- What a directive stands for, by the way in which flags act on it. -/
inductive Directive.Content where
  /-- A number with zeros before it up to so many digits. -/
  | number (digits : Nat) (n : Int)
  /-- A number with blanks before it up to so many digits. -/
  | aligned (digits : Nat) (n : Int)
  /-- A name, which either flag of case turns into capitals. -/
  | name (s : String)
  /-- A short word in capitals, whose other case is small letters. -/
  | capitals (s : String)
  /-- A text that only the flag for capitals changes. -/
  | phrase (s : String)
  /-- A text that no flag changes. -/
  | fixed (s : String)
  /-- The distance to UTC, a sign and four digits, each of which is a field. -/
  | offset

namespace Directive

/-- A directive of which only the percent sign has been read. -/
def start : Directive := ⟨.usual, false, false, none, none, ['%']⟩

variable (d : Directive)

def width : Nat := d.width?.getD 0

/-- A text that is filled up to the width of the directive. -/
def fill (s : String) : String :=
  Text.repeated (d.width - s.length) (if d.padding = .zeros then '0' else ' ') ++ s

/-- A number that has at least so many digits unless its padding says otherwise. -/
def number (digits : Nat) (n : Int) : String :=
  let size := max digits d.width
  match d.padding with
  | .none => d.fill (toString n)
  | .blanks => Text.alignRight size (toString n)
  | .usual | .zeros => Text.signedPadded size n

def recase (upper : Bool) (s : String) : String := if upper then s.map Text.capital else s

/-- What is written under the flags and the width of the directive. -/
def write : Content → String
  | .number digits n => d.number digits n
  | .aligned digits n =>
    let padding := if d.padding = .usual then .blanks else d.padding
    { d with padding }.number digits n
  | .name s => d.fill (recase (d.upper || d.swap) s)
  | .capitals s => d.fill (if d.swap then s.toLower else s)
  | .phrase s => d.fill (recase d.upper s)
  | .fixed s => d.fill s
  | .offset => d.fill "+" ++ d.number 4 0

/-- What an unknown directive stands for: itself, from its last percent sign on. -/
def writeUnknown (letter? : Option Char) : String :=
  let spelling := if letter? = some '%' then ['%'] else d.spelling.reverse ++ letter?.toList
  d.fill (recase d.upper (String.ofList spelling))

/-- The directive with one more character, if that is not its letter. A width is only counted up to
a limit. -/
def extend? (limit : Nat) (c : Char) : Option Directive :=
  let d' := { d with spelling := c :: d.spelling }
  if d.variant?.isSome then none
  else if c = 'E' then some { d' with variant? := some .era }
  else if c = 'O' then some { d' with variant? := some .digits }
  else
    match d.width? with
    | some width =>
      if c.isDigit then some { d' with width? := some (min limit (10 * width + (c.toNat - 48))) }
      else none
    | none =>
      match c with
      | '_' => some { d' with padding := .blanks }
      | '-' => some { d' with padding := .none }
      | '0' => some { d' with padding := .zeros }
      | '^' => some { d' with upper := true }
      | '#' => some { d' with swap := true }
      | c => if c.isDigit then some { d' with width? := some (c.toNat - 48) } else none

/-- Whether a letter can follow the variant of the directive. -/
def admits (letter : Char) : Bool :=
  match d.variant? with
  | none => true
  | some .era => !"aAbhBDdeFHIkljMmSUVgGWw%".toList.contains letter
  | some .digits => !"aAcxDFXY%".toList.contains letter

end Directive

namespace CivilTime

variable (t : CivilTime)

def shortName (name : String) : String := String.ofList (name.toList.take 3)

/-- Morning or afternoon. -/
def halfDay : String := if t.hour < 12 then "AM" else "PM"

/-- The date with the month first and the last two digits of the year. -/
def shortDate : String :=
  padded 2 t.month ++ "/" ++ padded 2 t.day ++ "/" ++ padded 2 (t.year % 100)

/-- The year that the week belongs to, in 32 bits. -/
def weekYear : Int := Int.bmod t.week.1 0x100000000

/-- What a letter stands for, if it is one of a directive. -/
def content? : Char → Option Directive.Content
  | 'Y' => some (.number 1 t.year)
  | 'C' => some (.number 1 (t.year / 100))
  | 'y' => some (.number 2 (t.year % 100))
  | 'm' => some (.number 2 t.month)
  | 'd' => some (.number 2 t.day)
  | 'e' => some (.aligned 2 t.day)
  | 'H' => some (.number 2 t.hour)
  | 'k' => some (.aligned 2 t.hour)
  | 'I' => some (.number 2 t.clockHour)
  | 'l' => some (.aligned 2 t.clockHour)
  | 'M' => some (.number 2 t.minute)
  | 'S' => some (.number 2 t.second)
  | 's' => some (.fixed (toString t.seconds))
  | 'j' => some (.number 3 (t.dayOfYear + 1))
  | 'a' => some (.name (shortName t.weekdayName))
  | 'A' => some (.name t.weekdayName)
  | 'b' | 'h' => some (.name (shortName t.monthName))
  | 'B' => some (.name t.monthName)
  | 'p' => some (.capitals t.halfDay)
  | 'P' => some (.fixed t.halfDay.toLower)
  | 'u' => some (.number 1 (if t.weekday = 0 then 7 else t.weekday))
  | 'w' => some (.number 1 t.weekday)
  | 'U' => some (.number 2 (((t.dayOfYear + 7 - t.weekday) / 7 : Nat) : Int))
  | 'W' => some (.number 2 (((t.dayOfYear + 7 - (t.weekday + 6) % 7) / 7 : Nat) : Int))
  | 'V' => some (.number 2 t.week.2)
  | 'G' => some (.number 1 t.weekYear)
  | 'g' => some (.number 2 (t.weekYear % 100))
  | 'D' | 'x' => some (.phrase t.shortDate)
  | 'F' => some (.phrase (t.date 1))
  | 'T' | 'X' => some (.phrase t.clock)
  | 'R' => some (.phrase (padded 2 t.hour ++ ":" ++ padded 2 t.minute))
  | 'r' =>
    some (.phrase (padded 2 t.clockHour ++ ":" ++ padded 2 t.minute ++ ":" ++ padded 2 t.second
      ++ " " ++ t.halfDay))
  | 'c' =>
    some (.phrase (shortName t.weekdayName ++ " " ++ shortName t.monthName ++ " "
      ++ Text.alignRight 2 (toString t.day) ++ " " ++ t.clock ++ " " ++ toString t.year))
  | 'Z' => some (.capitals "GMT")
  | 'z' => some .offset
  | 'n' => some (.fixed "\n")
  | 't' => some (.fixed "\t")
  | '%' => some (.fixed "%")
  | _ => none

/-- What a directive writes with its letter. -/
def write (d : Directive) (letter : Char) : String :=
  match if d.admits letter then t.content? letter else none with
  | some content => d.write content
  | none =>
    -- the short name of a month takes its case before its variant is looked at
    let upper := d.upper || (d.swap && (letter == 'b' || letter == 'h'))
    { d with upper }.writeUnknown (some letter)

/-- The pieces of a pattern, the first of which may complete a directive. -/
def pieces (limit : Nat) : Option Directive → List Char → List String
  | none, [] => []
  | some d, [] => [d.writeUnknown none]
  | none, c :: rest =>
    if c = '%' then pieces limit (some .start) rest
    else String.singleton c :: pieces limit none rest
  | some d, c :: rest =>
    match d.extend? limit c with
    | some d => pieces limit (some d) rest
    | none => t.write d c :: pieces limit none rest

/-- The room for a time: 256 places for every character of the pattern, rounded up to a power of two,
and never less than 1024. -/
def room (length : Nat) : Nat :=
  256 * twoTo (max 2 (if length ≤ 1 then 0 else Nat.log2 (length - 1) + 1))

/-- The time by a pattern. A text that fills its room, and so one with a field as wide as the room,
is not written at all. -/
def format (pattern : String) : String :=
  let room := room pattern.length
  let text := String.join (t.pieces room none pattern.toList)
  if text.length < room then text else ""

end CivilTime

end KeyedRelations
