import Backpressure.Text.Numeral

/-!
# Options of the runner

* `Options` : what the runner can be told on its command line;
* `Options.Key` : what an option is about. A long name may be cut short where that leaves one option only;
* `Options.read` : reads a command line over the given options. A value follows its option as the next word or after an
  equals sign; a word that starts with a dash is a value only if it is a negative number or holds a space.
-/

namespace Backpressure
open Text

/-- What the runner can be told. -/
structure Options where
  sleepSeconds : Float
  workers : Int
  horizonMinutes : Int
  lookbackMinutes : Int
  once : Bool

namespace Options

/-- Why the options cannot be used: help was asked for, or they were misused. -/
inductive Refusal where
  | help
  | misuse
  deriving DecidableEq, Repr

/-- The exit status of the program. -/
def Refusal.status : Refusal → Nat
  | help => 0
  | misuse => 2

/-- What an option is about. -/
inductive Key where
  | help
  | sleepSeconds
  | workers
  | horizonMinutes
  | lookbackMinutes
  | once
  deriving DecidableEq, Repr

/-- The letter of the one short name, which asks for help. -/
def shortLetter : Char := 'h'

/-- The long names of the options. -/
def longNames : List (String × Key) :=
  [("--help", .help), ("--sleep-seconds", .sleepSeconds), ("--workers", .workers),
    ("--horizon-minutes", .horizonMinutes), ("--lookback-minutes", .lookbackMinutes), ("--once", .once)]

def Key.takesValue : Key → Bool
  | help | once => false
  | _ => true

/-! ## Words -/

/-- A word of the command line. -/
inductive Word where
  | value (s : String)
  /-- Two dashes; only values follow. -/
  | separator
  /-- An option by its long name. -/
  | long (key : Key) (argument : Option String)
  /-- A request for help by its short name, with what follows the name in the word. -/
  | short (tail : List Char)
  /-- Looks like an option and is none. -/
  | unknown
  deriving DecidableEq, Repr

/-- Whether a word is a negative decimal numeral. A line break after it counts for nothing. -/
def isNegativeNumber (cs : List Char) : Bool :=
  match cs with
  | '-' :: rest =>
    let rest := if rest.getLast? == some '\n' then rest.dropLast else rest
    let (whole, fraction) := (rest.takeWhile isDecimalDigit, rest.dropWhile isDecimalDigit)
    match fraction with
    | [] => !whole.isEmpty
    | '.' :: digits => !digits.isEmpty && digits.all isDecimalDigit
    | _ => false
  | _ => false

/-- A text up to an equals sign, and what follows the sign. -/
def splitArgument (cs : List Char) : List Char × Option String :=
  (cs.takeWhile (· != '='),
    match cs.dropWhile (· != '=') with
    | [] => none
    | _ :: rest => some (String.ofList rest))

/-- A word that starts with a dash and names no option. -/
def unnamed (cs : List Char) : Word :=
  if isNegativeNumber cs || cs.contains ' ' then .value (String.ofList cs) else .unknown

/-- The option that a word names by the start of a long name. -/
def abbreviated (cs : List Char) : Except Refusal Word :=
  let (name, argument) := splitArgument cs
  match longNames.filter fun n => name.isPrefixOf n.1.toList with
  | [] => .ok (unnamed cs)
  | [(_, key)] => .ok (.long key argument)
  | _ => .error .misuse

/-- What a word is, if it is not two dashes. -/
def classify (s : String) : Except Refusal Word :=
  let cs := s.toList
  let (name, argument) := splitArgument cs
  match cs with
  | '-' :: '-' :: _ =>
    match longNames.lookup (String.ofList name) with
    | some key => .ok (.long key argument)
    | none => abbreviated cs
  | '-' :: c :: rest => .ok (if c == shortLetter then .short rest else unnamed cs)
  | _ => .ok (.value s)

def words : List String → Except Refusal (List Word)
  | [] => .ok []
  | s :: rest =>
    if s = "--" then .ok (.separator :: rest.map .value)
    else do return (← classify s) :: (← words rest)

/-! ## Reading -/

def withValue (o : Options) (key : Key) (value : String) : Except Refusal Options :=
  let integer (put : Int → Options) : Except Refusal Options :=
    match readInteger value with
    | .ok n => .ok (put n)
    | .error _ => .error .misuse
  match key with
  | .sleepSeconds =>
    match readReal value with
    | .ok x => .ok { o with sleepSeconds := x }
    | .error _ => .error .misuse
  | .workers => integer fun n => { o with workers := n }
  | .horizonMinutes => integer fun n => { o with horizonMinutes := n }
  | .lookbackMinutes => integer fun n => { o with lookbackMinutes := n }
  | .help | .once => .error .misuse

/-- The options with an option without a value taken in. -/
def withFlag (o : Options) (key : Key) : Except Refusal Options :=
  match key with
  | .help => .error .help
  | .once => .ok { o with once := true }
  | _ => .error .misuse

/-- What a request for help by its short name comes to. Letters that follow it are taken for short names as well; it may
carry no value, so that neither a dash nor an equals sign may follow it or its repetitions. -/
def refusalOfShort (tail : List Char) : Refusal :=
  match tail.dropWhile (· == shortLetter) with
  | c :: _ => if c == '-' || c == '=' then .misuse else .help
  | [] => .help

/-- Reads words. `stray` says that one before them belongs to no option. -/
def readWords (o : Options) (stray : Bool) : List Word → Except Refusal Options
  | [] => if stray then .error .misuse else .ok o
  | .value _ :: rest | .separator :: rest | .unknown :: rest => readWords o true rest
  | .short tail :: _ => .error (refusalOfShort tail)
  | .long key argument :: rest =>
    match key.takesValue, argument, rest with
    | true, some value, rest => do readWords (← o.withValue key value) stray rest
    | true, none, .value value :: rest => do readWords (← o.withValue key value) stray rest
    | true, none, _ => .error .misuse
    | false, some _, _ => .error .misuse
    | false, none, rest => do readWords (← o.withFlag key) stray rest

/-- What the program accepts. -/
def usage : String :=
  "usage: backpressure [--sleep-seconds SECONDS] [--workers N] [--horizon-minutes MINUTES]" ++
    " [--lookback-minutes MINUTES] [--once]"

/-- Reads a command line over the given options. -/
def read (o : Options) (arguments : List String) : Except Refusal Options := do
  readWords o false (← words arguments)

end Options

end Backpressure
