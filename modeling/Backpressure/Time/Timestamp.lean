import Backpressure.Error
import Backpressure.Number.Arithmetic
import Backpressure.Time.Calendar

/-!
# Timestamps and instants

* `Offset` : how far the clocks of a time zone are ahead of UTC, with the zone where they are set forward and back;
* `Timestamp` : a date and time as written, with or without an offset from UTC; one without means UTC;
* `Instant` : a point of time, in microseconds of UTC since the first day of year 1;
* `Timestamp.toInstant` : the instant, an error outside the years 1 to 9999;
* `Timestamp.isBefore` : the order of two timestamps of one kind, an error between the two kinds. Two timestamps of one
  zone are ordered by what its clocks show, all others by the time of UTC;
* `Instant.later`, `Instant.earlier` : the instant some minutes away;
* `Timestamp.parse?`, `Timestamp.iso`, `Instant.iso` : their text, as in `2024-01-01T12:02:00.500000+00:00`.
-/

namespace Backpressure.Time

def microsPerMinute : Int := 60 * 1000000

def microsPerDay : Int := 24 * 60 * microsPerMinute

def endOfTime : Int := (daysBeforeYear 10000 : Nat) * microsPerDay

/-- Whether a count of microseconds lies within the years 1 to 9999. -/
def inRange (micros : Int) : Bool := 0 ≤ micros && micros < endOfTime

/-- A point of time, in microseconds of UTC. -/
structure Instant where
  micros : Int
  deriving DecidableEq, Repr

/-- How far clocks are ahead of UTC, in microseconds. A zone is named where its clocks do not keep one offset. -/
structure Offset where
  micros : Int
  zone : Option String
  deriving DecidableEq, Repr

/-- The fixed offset of a number of minutes. -/
def Offset.ofMinutes (minutes : Int) : Offset := ⟨minutes * microsPerMinute, none⟩

/-- The offset of UTC. -/
instance : Zero Offset := ⟨⟨0, none⟩⟩

/-- A date and time as written, in microseconds since the first day of year 1, and its offset. -/
structure Timestamp where
  wall : Int
  offset : Option Offset
  deriving DecidableEq, Repr

/-! ## Spans of minutes -/

/-- The microseconds of a span of minutes, which spans at most 999999999 days either way. -/
def spanOfMinutes (minutes : Int) : Except Error Int :=
  let days := minutes / (24 * 60)
  if days < -2147483648 ∨ 2147483648 ≤ days then .error .spanTooLong
  else if days < -999999999 ∨ 999999999 < days then .error (.spanOutOfRange days)
  else .ok (minutes * microsPerMinute)

namespace Instant

/-- The instant of a count of microseconds within the years 1 to 9999. -/
def ofMicros (micros : Int) : Except Error Instant :=
  if inRange micros then .ok ⟨micros⟩ else .error .dateOutOfRange

def later (t : Instant) (minutes : Int) : Except Error Instant := do
  ofMicros (t.micros + (← spanOfMinutes minutes))

def earlier (t : Instant) (minutes : Int) : Except Error Instant := do
  ofMicros (t.micros - (← spanOfMinutes minutes))

/-- The timestamp of an instant, at offset zero. -/
def toTimestamp (t : Instant) : Timestamp := ⟨t.micros, some 0⟩

/-- The milliseconds from `origin` to `t`, from the nearest number of seconds. -/
def millisTo {K : Type} [Number.Arithmetic K] (origin t : Instant) : K :=
  (Number.Arithmetic.ratio (t.micros - origin.micros) 1000000 : K) * Number.Arithmetic.ofInt 1000

end Instant

namespace Timestamp

/-- The microseconds of UTC that a timestamp stands for, whether or not they lie within the years 1 to 9999. -/
def utcMicros (t : Timestamp) : Int := t.wall - (t.offset.getD 0).micros

def toInstant (t : Timestamp) : Except Error Instant := Instant.ofMicros t.utcMicros

/-- Whether two timestamps are told by the clocks of one zone, at whatever offsets. -/
def sharesZone (s t : Timestamp) : Bool :=
  match s.offset.bind Offset.zone, t.offset.bind Offset.zone with
  | some a, some b => a == b
  | _, _ => false

/-- Whether `s` is before `t`, if both have an offset or neither has one. The clocks of a zone that they share decide
even where they have been set back in between. -/
def precedes (s t : Timestamp) : Bool :=
  if s.sharesZone t then s.wall < t.wall else s.utcMicros < t.utcMicros

/-- Whether `s` is before `t`; the two are comparable when both have an offset or neither has one. -/
def isBefore (s t : Timestamp) : Except Error Bool :=
  if s.offset.isSome = t.offset.isSome then .ok (s.precedes t) else .error .mixedOffsets

def withoutOffset (t : Timestamp) : Timestamp := ⟨t.wall, none⟩

end Timestamp

/-! ## Text -/

/-- A number with leading zeros up to `width` digits. -/
def padded (width n : Nat) : List Char :=
  let ds := Nat.toDigits 10 n
  List.replicate (width - ds.length) '0' ++ ds

/-- A fraction of a second, nothing where it is zero. -/
def fractionChars (micros : Nat) : List Char := if micros = 0 then [] else '.' :: padded 6 micros

/-- The text of a date and time. -/
def wallChars (wall : Int) : List Char :=
  let date := Date.ofDay (wall / microsPerDay).toNat
  let rest := (wall % microsPerDay).toNat
  let micros := rest % 1000000
  let seconds := rest / 1000000
  padded 4 date.year ++ '-' :: padded 2 date.month ++ '-' :: padded 2 date.day ++ 'T' :: padded 2 (seconds / 3600) ++
    ':' :: padded 2 (seconds / 60 % 60) ++ ':' :: padded 2 (seconds % 60) ++ fractionChars micros

/-- The text of an offset, its seconds only where they are not zero. -/
def offsetChars (o : Offset) : List Char :=
  let micros := o.micros.natAbs % 1000000
  let seconds := o.micros.natAbs / 1000000
  (if o.micros < 0 then '-' else '+') :: padded 2 (seconds / 3600) ++ ':' :: padded 2 (seconds / 60 % 60) ++
    (if seconds % 60 = 0 ∧ micros = 0 then [] else ':' :: padded 2 (seconds % 60) ++ fractionChars micros)

/-- The text of a timestamp, with its offset if it has one. -/
def Timestamp.iso (t : Timestamp) : String :=
  String.ofList (wallChars t.wall ++ match t.offset with
    | none => []
    | some offset => offsetChars offset)

/-- The text of an instant, its offset written `+00:00`. -/
def Instant.iso (t : Instant) : String := t.toTimestamp.iso

/-- The text of an instant, its offset written `Z`. -/
def Instant.isoZulu (t : Instant) : String := String.ofList (wallChars t.micros ++ ['Z'])

/-- A number of exactly `width` digits at the start of a text, and what follows. -/
def takeNumber (width : Nat) (cs : List Char) : Option (Nat × List Char) :=
  let ds := cs.take width
  if ds.length = width ∧ ds.all Char.isDigit then
    some (ds.foldl (fun n d => 10 * n + (d.toNat - 48)) 0, cs.drop width)
  else none

/-- What follows the character `c` at the start of a text. -/
def takeChar (c : Char) : List Char → Option (List Char)
  | d :: ds => if d = c then some ds else none
  | [] => none

/-- A fraction of a second in microseconds, zero if there is none, and what follows. -/
def takeMicros (cs : List Char) : Option (Nat × List Char) :=
  match cs with
  | '.' :: rest => takeNumber 6 rest
  | _ => some (0, cs)

/-- The seconds of an offset in microseconds, zero if there are none, and what follows. -/
def takeSeconds (cs : List Char) : Option (Nat × List Char) :=
  match cs with
  | ':' :: rest => do
    let (seconds, rest) ← takeNumber 2 rest
    let (micros, rest) ← takeMicros rest
    return (seconds * 1000000 + micros, rest)
  | _ => some (0, cs)

def parseOffset? (cs : List Char) : Option (Option Offset) :=
  match cs with
  | [] => some none
  | ['Z'] => some (some 0)
  | c :: rest =>
    if c = '+' ∨ c = '-' then do
      let (hours, rest) ← takeNumber 2 rest
      let rest ← takeChar ':' rest
      let (minutes, rest) ← takeNumber 2 rest
      let (seconds, rest) ← takeSeconds rest
      let total : Int := (60 * hours + minutes : Nat) * microsPerMinute + seconds
      if rest.isEmpty then some (some ⟨if c = '-' then -total else total, none⟩) else none
    else none

def Timestamp.parse? (s : String) : Option Timestamp := do
  let (year, cs) ← takeNumber 4 s.toList
  let (month, cs) ← takeNumber 2 (← takeChar '-' cs)
  let (day, cs) ← takeNumber 2 (← takeChar '-' cs)
  let (hour, cs) ← takeNumber 2 (← takeChar 'T' cs)
  let (minute, cs) ← takeNumber 2 (← takeChar ':' cs)
  let (second, cs) ← takeNumber 2 (← takeChar ':' cs)
  let (micros, cs) ← takeMicros cs
  let offset ← parseOffset? cs
  let date : Date := ⟨year, month, day⟩
  if date.isValid ∧ hour < 24 ∧ minute < 60 ∧ second < 60 then
    some ⟨(date.toDay : Nat) * microsPerDay + ((hour * 60 + minute) * 60 + second : Nat) * 1000000 + micros, offset⟩
  else none

end Backpressure.Time
