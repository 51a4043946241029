/-!
# Texts as bytes

* `Utf8.encode` : the UTF-8 bytes of a text;
* `Utf8.decode` : the text of any bytes. Where they are not UTF-8, the longest start of a character that cannot be
  completed becomes one U+FFFD, and so does a byte that starts no character.
-/

namespace Backpressure.Text.Utf8

def encode (s : List Char) : List UInt8 := s.flatMap String.utf8EncodeChar

/-- The character that stands for what cannot be read. -/
def replacement : Char := Char.ofNat 0xFFFD

/-- A character of which not all bytes have been read. -/
structure Partial where
  /-- The number of bytes that are missing. -/
  missing : Nat
  /-- The least and the greatest value of the next byte. -/
  low : Nat
  high : Nat
  /-- The bits read so far. -/
  bits : Nat

/-- Reads the first byte of a character: what is finished with it and what remains unfinished. -/
def start (b : Nat) : List Char × Option Partial :=
  if b < 0x80 then ([Char.ofNat b], none)
  else if b < 0xC2 then ([replacement], none)
  else if b < 0xE0 then ([], some ⟨1, 0x80, 0xBF, b - 0xC0⟩)
  else if b < 0xF0 then
    ([], some ⟨2, if b = 0xE0 then 0xA0 else 0x80, if b = 0xED then 0x9F else 0xBF, b - 0xE0⟩)
  else if b < 0xF5 then
    ([], some ⟨3, if b = 0xF0 then 0x90 else 0x80, if b = 0xF4 then 0x8F else 0xBF, b - 0xF0⟩)
  else ([replacement], none)

/-- Reads a byte. -/
def feed (pending : Option Partial) (b : Nat) : List Char × Option Partial :=
  match pending with
  | none => start b
  | some p =>
    if p.low ≤ b ∧ b ≤ p.high then
      let bits := p.bits * 64 + (b - 0x80)
      if p.missing ≤ 1 then ([Char.ofNat bits], none) else ([], some ⟨p.missing - 1, 0x80, 0xBF, bits⟩)
    else
      let (cs, next) := start b
      (replacement :: cs, next)

/-- The text of bytes that follow an unfinished character. -/
def decodeFrom : Option Partial → List UInt8 → List Char
  | none, [] => []
  | some _, [] => [replacement]
  | pending, b :: bs =>
    let (cs, next) := feed pending b.toNat
    cs ++ decodeFrom next bs

def decode (bytes : List UInt8) : List Char := decodeFrom none bytes

end Backpressure.Text.Utf8
