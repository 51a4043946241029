import Backpressure.Text.Printable

/-!
# Quoted texts

`quote` writes a text between quotes as messages show it: between apostrophes, or between double quotes when it holds
an apostrophe and no double quote. A backslash, the chosen quote, tab, line feed and carriage return are written with
a backslash; a character that is not printable is written by its code point in two, four or eight hexadecimal digits.
-/

namespace Backpressure.Text

def apostrophe : Char := Char.ofNat 0x27

def doubleQuote : Char := Char.ofNat 0x22

def backslash : Char := Char.ofNat 0x5C

/-- A number in hexadecimal, with leading zeros up to `width` digits. -/
def hex (width n : Nat) : List Char :=
  let digits := Nat.toDigits 16 n
  List.replicate (width - digits.length) '0' ++ digits

/-- The written form of one character between the quotes `q`. -/
def quoteChar (q c : Char) : List Char :=
  if c = q ∨ c = backslash then [backslash, c]
  else if c.toNat = 0x9 then [backslash, 't']
  else if c.toNat = 0xA then [backslash, 'n']
  else if c.toNat = 0xD then [backslash, 'r']
  else if isPrintable c then [c]
  else if c.toNat < 0x100 then [backslash, 'x'] ++ hex 2 c.toNat
  else if c.toNat < 0x10000 then [backslash, 'u'] ++ hex 4 c.toNat
  else [backslash, 'U'] ++ hex 8 c.toNat

/-- The quote that a text is written between. -/
def quoteMark (s : List Char) : Char :=
  if s.contains apostrophe ∧ ¬ s.contains doubleQuote then doubleQuote else apostrophe

def quoteChars (s : List Char) : List Char :=
  let q := quoteMark s
  q :: (s.flatMap (quoteChar q) ++ [q])

def quote (s : String) : String := String.ofList (quoteChars s.toList)

end Backpressure.Text
