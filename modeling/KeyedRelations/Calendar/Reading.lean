import KeyedRelations.Calendar.Instant
import KeyedRelations.Number.Reading
import KeyedRelations.Text.Blank

/-!
# Reading dates and times

A layout is a list of pieces, each of which takes what it wants from the beginning of a text; a text
has the layout if nothing is left of it. Blanks before a number are passed over. The layouts of dates
come in two families, those with the day first and those with the year first, and texts of one column
are read by the layouts of one family.
-/

namespace KeyedRelations

/-- A piece of a layout. -/
inductive TimePiece where
  /-- A year of at most four digits, or of any number of digits behind a sign. -/
  | year
  | month | day | hour | minute | second
  | mark (c : Char)
  | blanks
  /-- So many digits behind the point. -/
  | fraction (digits : Nat)
  /-- Nothing, or a point and digits, of which nine count. -/
  | optionalFraction
  /-- The letter of UTC, or the distance to it. -/
  | offset
  deriving DecidableEq

/-- What a text says of a moment. -/
structure WrittenTime where
  year : Int
  month : Nat
  day : Nat
  hour : Nat
  minute : Nat
  /-- The sixtieth second is one that was put in. -/
  second : Nat
  nanos : Nat
  /-- The seconds by which the time is ahead of UTC. -/
  offset : Int

namespace WrittenTime

/-- The beginning of 1970. -/
def initial : WrittenTime := ⟨1970, 1, 1, 0, 0, 0, 0, 0⟩

variable (t : WrittenTime)

/-- The day since the beginning of 1970, if there is such a date in reach. -/
def date? : Option Int :=
  if t.day ≤ CivilTime.monthLength t.year t.month ∧ -262143 ≤ t.year ∧ t.year ≤ 262142 then
    some (CivilTime.dayOf t.year t.month t.day)
  else none

/-- The nanoseconds since midnight. -/
def clock : Nat := ((60 * t.hour + t.minute) * 60 + t.second) * 1000000000 + t.nanos

/-- The moment in UTC. -/
def instant? : Option Instant :=
  t.date?.map fun day => ⟨(86400 * day - t.offset) * 1000000 + t.clock / 1000⟩

end WrittenTime

namespace TimePiece

/-- Blanks of Unicode, which the information separators are not. -/
def isSpace (c : Char) : Bool := Text.isBlank c && !(0x1c ≤ c.toNat && c.toNat ≤ 0x1f)

/-- One or more digits, at most so many, and what is behind them. -/
def digits? (most : Nat) (cs : List Char) : Option (Nat × List Char) := do
  let digits := (cs.take most).takeWhile Char.isDigit
  return (← Text.natural? digits, cs.drop digits.length)

/-- A number of at most two digits between two bounds. -/
def number? (least most : Nat) (cs : List Char) : Option (Nat × List Char) := do
  let (n, rest) ← digits? 2 (cs.dropWhile isSpace)
  if least ≤ n ∧ n ≤ most then some (n, rest) else none

def year? (cs : List Char) : Option (Int × List Char) := do
  match cs.dropWhile isSpace with
  | '-' :: cs => let (n, rest) ← digits? cs.length cs; some (-(n : Int), rest)
  | '+' :: cs => let (n, rest) ← digits? cs.length cs; some ((n : Int), rest)
  | cs => let (n, rest) ← digits? 4 cs; some ((n : Int), rest)

/-- Digits behind a point as nanoseconds. -/
def nanos (digits : List Char) : Nat :=
  let counted := digits.take 9
  (Text.natural? counted).getD 0 * tenTo (9 - counted.length)

/-- The two digits of a distance to UTC and what is behind them. -/
def pair? : List Char → Option (Nat × List Char)
  | a :: b :: rest => do return (← Text.natural? [a, b], rest)
  | _ => none

/-- The distance to UTC in seconds: hours, and minutes if there are any. -/
def distance? (cs : List Char) : Option (Nat × List Char) := do
  let (hours, rest) ← pair? cs
  let rest := rest.dropWhile fun c => c == ':' || isSpace c
  if 23 < hours then none
  match rest with
  | [] => return (3600 * hours, [])
  | rest =>
    let (minutes, rest) ← pair? rest
    if 59 < minutes then none else return (3600 * hours + 60 * minutes, rest)

/-- Takes a piece from the beginning of a text. -/
def read (t : WrittenTime) (cs : List Char) : TimePiece → Option (WrittenTime × List Char)
  | .year => (year? cs).map fun (n, rest) => ({ t with year := n }, rest)
  | .month => (number? 1 12 cs).map fun (n, rest) => ({ t with month := n }, rest)
  | .day => (number? 1 31 cs).map fun (n, rest) => ({ t with day := n }, rest)
  | .hour => (number? 0 23 cs).map fun (n, rest) => ({ t with hour := n }, rest)
  | .minute => (number? 0 59 cs).map fun (n, rest) => ({ t with minute := n }, rest)
  | .second => (number? 0 60 cs).map fun (n, rest) => ({ t with second := n }, rest)
  | .mark c =>
    match cs with
    | d :: rest => if c = d then some (t, rest) else none
    | [] => none
  | .blanks => some (t, cs.dropWhile isSpace)
  | .fraction count =>
    let digits := (cs.take count).takeWhile Char.isDigit
    if digits.length < count then none else some ({ t with nanos := nanos digits }, cs.drop count)
  | .optionalFraction =>
    match cs with
    | '.' :: rest =>
      let digits := rest.takeWhile Char.isDigit
      if digits.isEmpty then none
      else some ({ t with nanos := nanos digits }, rest.drop digits.length)
    | cs => some (t, cs)
  | .offset =>
    match cs.dropWhile isSpace with
    | 'Z' :: rest | 'z' :: rest => some (t, rest)
    | '+' :: rest => (distance? rest).map fun (n, rest) => ({ t with offset := n }, rest)
    | '-' :: rest => (distance? rest).map fun (n, rest) => ({ t with offset := -(n : Int) }, rest)
    | _ => none

end TimePiece

/-- How a date or a time is written. -/
abbrev TimeLayout := List TimePiece

namespace TimeLayout

/-- What a text of the layout says. -/
def readFrom (t : WrittenTime) (cs : List Char) : TimeLayout → Option WrittenTime
  | [] => if cs.isEmpty then some t else none
  | piece :: pieces =>
    match piece.read t cs with
    | some (t, rest) => readFrom t rest pieces
    | none => none

def read (layout : TimeLayout) (s : String) : Option WrittenTime :=
  readFrom .initial s.toList layout

/-- Layouts of dates. -/
def dates (dayFirst : Bool) : List TimeLayout :=
  let order : TimeLayout := if dayFirst then [.day, .month, .year] else [.year, .month, .day]
  ['/', '-'].map fun c => order.intersperse (.mark c)

/-- Layouts of times of day that stand behind a date, by what stands between. -/
def clocks (between : TimePiece) : List TimeLayout :=
  let colons : TimeLayout := [.hour, .mark ':', .minute, .mark ':', .second]
  let plain : TimeLayout := [.hour, .minute, .second]
  let whole : List TimeLayout := [colons, plain, [.hour, .mark ':', .minute], [.hour, .minute]]
  let fractions := [colons, plain].flatMap fun clock =>
    [9, 6, 3].map fun count => clock ++ [.mark '.', .fraction count]
  (whole ++ fractions).map (between :: ·)

/-- Layouts with a date and a time of day, and with what is behind it. -/
def dated (dayFirst : Bool) (rest : TimeLayout) : List TimeLayout :=
  [TimePiece.mark 'T', .blanks].flatMap fun between =>
    (clocks between).flatMap fun clock =>
      (dates dayFirst).map fun date => date ++ clock ++ rest

/-- The date with the year first and dashes, and the time of day with colons and a fraction. -/
def international (between : TimePiece) (rest : TimeLayout) : TimeLayout :=
  [.year, .mark '-', .month, .mark '-', .day, between, .hour, .mark ':', .minute, .mark ':',
    .second, .optionalFraction] ++ rest

/-- Layouts of moments without a distance to UTC. -/
def moments (dayFirst : Bool) : List TimeLayout :=
  dated dayFirst [] ++ dates dayFirst
    ++ if dayFirst then [] else [international (.mark 'T') []]

/-- Layouts of moments with a distance to UTC. -/
def zonedMoments : List TimeLayout :=
  dated false [.offset] ++ [international (.mark 'T') [.offset], international .blanks [.offset]]

/-- Layouts of times of day. -/
def timesOfDay : List TimeLayout :=
  [[.hour, .mark ':', .minute, .mark ':', .second, .optionalFraction], [.hour, .mark ':', .minute]]

end TimeLayout

/-- Layouts by which the texts of one column are read. The layout that fitted last is tried first, and
the others only for texts that are strict. -/
structure TimeFamily where
  layouts : List TimeLayout
  isStrict : String → Bool
  /-- Whether the texts have a distance to UTC. -/
  isZoned : Bool

namespace TimeFamily

/-- Whether a text of a moment has no superfluous blanks or signs, a year of four digits, and no more
digits than count. -/
def isStrictMoment (dayFirst isZoned : Bool) (s : String) : Bool :=
  let isBetween (c : Char) : Bool := c == 'T' || c == ' '
  let date := s.toList.takeWhile (!isBetween ·)
  let behind := (s.toList.drop date.length).drop 1
  let clock := behind.takeWhile fun c => c.isDigit || c == ':' || c == '.'
  let rest := behind.drop clock.length
  let isNumber (least most : Nat) (cs : List Char) : Bool :=
    cs.all Char.isDigit && least ≤ cs.length && cs.length ≤ most
  let isDate :=
    match Text.splitAt (['-', '/', '.'].contains ·) date with
    | [a, b, c] =>
      isNumber 1 2 b
        && if dayFirst then isNumber 1 2 a && isNumber 4 c.length c
          else isNumber 4 a.length a && isNumber 1 2 c
    | _ => false
  let fraction := (clock.dropWhile (· != '.')).drop 1
  let isRest :=
    if isZoned then
      match rest.filter (· != ':') with
      | ['Z'] => true
      | sign :: digits => (sign == '+' || sign == '-') && isNumber 4 4 digits
      | [] => false
    else rest.isEmpty
  let isPaired := (Text.splitAt (· == ':') (clock.takeWhile (· != '.'))).all (·.length % 2 == 0)
  isDate && fraction.length ≤ 9 && isRest && (!isZoned || isPaired)

/-- The families of dates. -/
def ofDates : List TimeFamily :=
  [true, false].map fun dayFirst => ⟨TimeLayout.dates dayFirst, fun _ => true, false⟩

/-- The families of moments. -/
def ofMoments : List TimeFamily :=
  [true, false].map (fun dayFirst =>
      ⟨TimeLayout.moments dayFirst, isStrictMoment dayFirst false, false⟩)
    ++ [⟨TimeLayout.zonedMoments, isStrictMoment false true, true⟩]

variable {α : Type} (family : TimeFamily)

/-- What texts say, where `f` makes something of it; `latest` is the layout that fitted last. -/
def readAll (f : WrittenTime → Option α) (latest : TimeLayout) :
    List (Option String) → List (Option α)
  | [] => []
  | none :: rest => none :: readAll f latest rest
  | some s :: rest =>
    let read (layout : TimeLayout) : Option α := layout.read s >>= f
    match read latest with
    | some a => some a :: readAll f latest rest
    | none =>
      match if family.isStrict s then family.layouts.find? (read · |>.isSome) else none with
      | some layout => read layout :: readAll f layout rest
      | none => none :: readAll f latest rest

/-- The first family that has a layout for one of the texts. -/
def first? (families : List TimeFamily) (f : WrittenTime → Option α)
    (texts : List (Option String)) : Option TimeFamily :=
  texts.findSome? fun text => do
    let s ← text
    families.find? fun family => family.layouts.any fun layout => (layout.read s >>= f).isSome

end TimeFamily

end KeyedRelations
