import Backpressure.Error
import Backpressure.Number.Decimal
import Backpressure.Text.CharClass

/-!
# Reading numerals

* `readInteger` : a sign and decimal digits of any script, an underscore allowed between two digits, blanks allowed
  around; at most 4300 digits;
* `readReal` : the same with a fraction and an exponent, or `inf`, `infinity`, `nan` in any case, rounded once to the
  nearest double.
-/

namespace Backpressure.Text
open Number

/-- The number of digits up to which an integer numeral is read. -/
def maxIntegerDigits : Nat := 4300

/-- The leading digits of a text and what follows them. `between` says that an underscore may come next, if a digit
follows it. -/
def takeDigits (between : Bool) : List Char → List Nat × List Char
  | [] => ([], [])
  | c :: cs =>
    match decimalDigit? c with
    | some d =>
      let (ds, rest) := takeDigits true cs
      (d :: ds, rest)
    | none =>
      if between && c == '_' && cs.head?.any isDecimalDigit then takeDigits false cs else ([], c :: cs)

def digitsValue (ds : List Nat) : Nat := ds.foldl (fun n d => 10 * n + d) 0

/-- Whether a text starts with a minus sign, and what follows its sign. -/
def takeSign : List Char → Bool × List Char
  | '-' :: cs => (true, cs)
  | '+' :: cs => (false, cs)
  | cs => (false, cs)

def readInteger (s : String) : Except Error Int :=
  let (negative, cs) := takeSign (stripWhile isNumeralBlank s.toList)
  let (ds, rest) := takeDigits false cs
  if ds.isEmpty || !rest.isEmpty then .error (.invalidInteger s)
  else if maxIntegerDigits < ds.length then .error (.tooManyDigits ds.length)
  else
    let n : Int := (digitsValue ds : Nat)
    .ok (if negative then -n else n)

/-! ## Decimal numerals -/

/-- The double nearest to `m * 10 ^ e`, without computing powers of ten that are certain to overflow or vanish. -/
def realOfDigits (ds : List Nat) (e : Int) : Float :=
  let m := digitsValue ds
  let places := (ds.dropWhile (· == 0)).length + e
  if m = 0 ∨ places < -400 then 0
  else if 400 < places then Binary64.infinity
  else Binary64.nearest (Decimal.scaled m e)

/-- The digits after a point, if there is one, and what follows. -/
def takeFraction : List Char → List Nat × List Char
  | '.' :: cs => takeDigits false cs
  | cs => ([], cs)

/-- The exponent that a text starts with, 0 if it starts with none, and what follows. -/
def takeExponent (cs : List Char) : Int × List Char :=
  match cs with
  | c :: rest =>
    if c = 'e' ∨ c = 'E' then
      let (negative, rest) := takeSign rest
      let (ds, rest) := takeDigits false rest
      if ds.isEmpty then (0, cs)
      else
        let n : Int := (digitsValue ds : Nat)
        (if negative then -n else n, rest)
    else (0, cs)
  | [] => (0, [])

/-- Reads an unsigned decimal numeral. -/
def unsignedReal? (cs : List Char) : Option Float :=
  let name := String.ofList (cs.map Char.toLower)
  if name = "inf" ∨ name = "infinity" then some Binary64.infinity
  else if name = "nan" then some Binary64.nan
  else
    let (whole, rest) := takeDigits false cs
    let (fraction, rest) := takeFraction rest
    let (e, rest) := takeExponent rest
    if (whole.isEmpty && fraction.isEmpty) || !rest.isEmpty then none
    else some (realOfDigits (whole ++ fraction) (e - (fraction.length : Nat)))

def readReal (s : String) : Except Error Float :=
  let (negative, cs) := takeSign (stripWhile isNumeralBlank s.toList)
  match unsignedReal? cs with
  | some x => .ok (if negative then -x else x)
  | none => .error (.invalidReal s)

end Backpressure.Text
