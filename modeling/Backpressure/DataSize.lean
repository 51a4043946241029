import Backpressure.Reading
import Backpressure.Text.Quoted

/-!
# Data sizes

A limit on a queue is given as a number, as a text such as `1 GB`, `2.5 mb` or `512`, or not at all.

* `Limit` : a configured limit, `Limit.toInt` its number;
* `DataSize.split?` : the amount and the unit of a text such as `2.5 mb`;
* `DataSize.parse` : the limit that a value stands for. A blank text stands for none, digits alone for a number of
  bytes, and an amount with a unit for the amount times a power of 1024, computed in binary64 and cut to an integer.
-/

namespace Backpressure
open Text

/-- A configured limit. A flag counts as 1 or 0. -/
inductive Limit where
  | amount (n : Int)
  | flag (b : Bool)
  deriving DecidableEq, Repr

def Limit.toInt : Limit → Int
  | .amount n => n
  | .flag b => if b then 1 else 0

namespace DataSize

/-- The letters of the units, in the order of their powers of 1024. -/
def unitLetters : List Char := ['K', 'M', 'G', 'T', 'P']

/-- The Kelvin sign, which a unit may be spelled with but which names no unit. -/
def kelvinSign : Char := Char.ofNat 0x212A

def isUnit : List Char → Bool
  | [b] => b.toUpper == 'B'
  | [p, b] => (unitLetters.contains p.toUpper || p == kelvinSign) && b.toUpper == 'B'
  | _ => false

def unitBytes : List Char → Except Error Nat
  | [p, b] =>
    match unitLetters.idxOf? p.toUpper with
    | some k => .ok (Nat.pow 1024 (k + 1))
    | none => .error (.unknownUnit (String.ofList [p, b.toUpper]))
  | _ => .ok 1

/-- A point and digits at the start of a text, and what follows. -/
def splitFraction (cs : List Char) : List Char × List Char :=
  match cs with
  | '.' :: rest =>
    let ds := rest.takeWhile isDecimalDigit
    if ds.isEmpty then ([], cs) else ('.' :: ds, rest.dropWhile isDecimalDigit)
  | _ => ([], cs)

/-- The amount and the unit of a text: digits, a point and digits or neither, blanks or none, and the unit. -/
def split? (cs : List Char) : Option (List Char × List Char) :=
  let whole := cs.takeWhile isDecimalDigit
  let (fraction, rest) := splitFraction (cs.dropWhile isDecimalDigit)
  let unit := rest.dropWhile isBlank
  if !whole.isEmpty && isUnit unit then some (whole ++ fraction, unit) else none

/-- The bytes of an amount of a unit. -/
def bytesOf (amount unit : List Char) : Except Error Int := do
  let x ← readReal (String.ofList amount)
  let bytes ← unitBytes unit
  truncateToInt (x * Number.Arithmetic.ofInt (bytes : Int))

def parseText (s : String) : Except Error (Option Limit) :=
  let cs := strip s.toList
  if cs.isEmpty then .ok none
  else if cs.all isDigit then (readInteger (String.ofList cs)).map fun n => some (.amount n)
  else
    match split? cs with
    | some (amount, unit) => (bytesOf amount unit).map fun n => some (.amount n)
    | none => .error (.invalidSize (quote s))

/-- The limit that a value stands for. A number with a fraction stands for none. -/
def parse : Reading → Except Error (Option Limit)
  | .missing => .ok none
  | .flag b => .ok (some (.flag b))
  | .whole n => .ok (some (.amount n))
  | .text s => parseText s
  | .real x => .error (.invalidSize (Reading.real x).toText)

/-- Whether an error says that a text is not written as a data size is. -/
def isMalformed : Error → Bool
  | .invalidSize _ | .invalidInteger _ | .tooManyDigits _ => true
  | _ => false

end DataSize

end Backpressure
