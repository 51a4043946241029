import Backpressure.Text.Utf8

/-!
# Percent-encoded texts

* `Percent.encode` : every byte written as `%` and two hexadecimal digits, save those of letters, digits and `-._~`;
* `Percent.encodeForm` : the same with a plus sign for a space, as in the fields of a form;
* `Percent.decode` : reads a `%` with two hexadecimal digits as a byte and all else as it stands; a plus sign is a
  plus sign.
-/

namespace Backpressure.Text.Percent

def sign : Char := '%'

/-- Whether a character is written as it is. -/
def isPlain (c : Char) : Bool := c.isAlphanum || ['-', '.', '_', '~'].contains c

def hexDigit (n : Nat) : Char := if n < 10 then Char.ofNat (48 + n) else Char.ofNat (55 + n)

def hexValue? (c : Char) : Option Nat :=
  if '0' ≤ c ∧ c ≤ '9' then some (c.toNat - 48)
  else if 'A' ≤ c ∧ c ≤ 'F' then some (c.toNat - 55)
  else if 'a' ≤ c ∧ c ≤ 'f' then some (c.toNat - 87)
  else none

def encodeByte (b : UInt8) : List Char := [sign, hexDigit (b.toNat / 16), hexDigit (b.toNat % 16)]

def encodeChar (c : Char) : List Char :=
  if isPlain c then [c] else (String.utf8EncodeChar c).flatMap encodeByte

def encode (s : List Char) : List Char := s.flatMap encodeChar

/-- The written form of a text in a field of a form. -/
def encodeForm (s : List Char) : List Char := s.flatMap fun c => if c = ' ' then ['+'] else encodeChar c

def toBytes : List Char → List UInt8
  | [] => []
  | c :: cs =>
    if c = sign then
      match cs with
      | a :: b :: rest =>
        match hexValue? a, hexValue? b with
        | some x, some y => UInt8.ofNat (16 * x + y) :: toBytes rest
        | _, _ => String.utf8EncodeChar c ++ toBytes (a :: b :: rest)
      | rest => String.utf8EncodeChar c ++ toBytes rest
    else String.utf8EncodeChar c ++ toBytes cs

def decode (s : List Char) : List Char := Utf8.decode (toBytes s)

end Backpressure.Text.Percent
