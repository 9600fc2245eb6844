import KeyedRelations.Text.Printable

/-!
# Quoted texts and byte strings

A quoted text stands between apostrophes, or between quotation marks if it holds an apostrophe and
no quotation mark. The mark in use and the backslash are escaped; characters that are not printable
are written by their code.
-/

namespace KeyedRelations.Text

def apostrophe : Char := '\x27'

def quotationMark : Char := '\x22'

def backslash : Char := '\x5c'

/-- The quotation mark where it spares escapes, else the apostrophe. -/
def quoteMark (cs : List Char) : Char :=
  if cs.contains apostrophe && !cs.contains quotationMark then quotationMark else apostrophe

/-- `n` in `width` hexadecimal digits. -/
def hexDigits (width n : Nat) : List Char :=
  let digits := Nat.toDigits 16 n
  List.replicate (width - digits.length) '0' ++ digits

/-- An escape for a character by its code, in the shortest of the three forms. -/
def codeEscape (n : Nat) : List Char :=
  if n < 0x100 then backslash :: 'x' :: hexDigits 2 n
  else if n < 0x10000 then backslash :: 'u' :: hexDigits 4 n
  else backslash :: 'U' :: hexDigits 8 n

/-- One character between marks; `shown` tells whether it may stand for itself. -/
def quoteChar (mark : Char) (shown : Char → Bool) (c : Char) : List Char :=
  if c = mark || c = backslash then [backslash, c]
  else if c = '\n' then [backslash, 'n']
  else if c = '\r' then [backslash, 'r']
  else if c = '\t' then [backslash, 't']
  else if shown c then [c]
  else codeEscape c.toNat

def quoteChars (shown : Char → Bool) (cs : List Char) : List Char :=
  let mark := quoteMark cs
  mark :: cs.flatMap (quoteChar mark shown) ++ [mark]

/-- A text between marks. -/
def quoted (s : String) : String := String.ofList (quoteChars isPrintable s.toList)

/-- A byte string between marks, with a `b` before it; a byte that is not printable ASCII is
written by its code. -/
def quotedBytes (bytes : List UInt8) : String :=
  let shown (c : Char) : Bool := 0x20 ≤ c.toNat && c.toNat < 0x7f
  String.ofList ('b' :: quoteChars shown (bytes.map fun b => Char.ofNat b.toNat))

end KeyedRelations.Text
