import Backpressure.Settings.Environment
import Backpressure.Text.Quoted

/-!
# Files of environment variables

A file sets variables in lines `NAME=value`. A line may start with `export`, a value may stand between quotes, and a
number sign starts a comment at the start of a line or after a blank.

* `VariableFile.ofLine?` : the variable that a line sets;
* `Environment.withFile` : an environment with what a file sets in addition.
-/

namespace Backpressure
open Text

namespace VariableFile

/-- A quoted text after its opening quote `q`, and what follows its closing quote. A quote after a backslash does not
close it, unless no other one does. -/
def takeQuoted (q : Char) : List Char → Option (List Char × List Char)
  | [] => none
  | c :: cs =>
    if c = q then some ([], cs)
    else if c = backslash then
      match cs with
      | d :: ds =>
        if d = q then
          match takeQuoted q ds with
          | some (body, rest) => some (c :: d :: body, rest)
          | none => some ([c], ds)
        else (takeQuoted q (d :: ds)).map fun r => (c :: r.1, r.2)
      | [] => none
    else (takeQuoted q cs).map fun r => (c :: r.1, r.2)

/-- The character that a letter after a backslash stands for between double quotes. -/
def escaped? (c : Char) : Option Char :=
  [(backslash, 0x5C), (apostrophe, 0x27), (doubleQuote, 0x22), ('a', 7), ('b', 8), ('f', 12), ('n', 10), ('r', 13),
    ('t', 9), ('v', 11)].lookup c |>.map Char.ofNat

/-- The character that a letter after a backslash stands for between apostrophes. -/
def plainlyEscaped? (c : Char) : Option Char :=
  if c = backslash ∨ c = apostrophe then some c else none

/-- A text with its escapes resolved. -/
def unescape (escape : Char → Option Char) : List Char → List Char
  | [] => []
  | c :: cs =>
    if c = backslash then
      match cs with
      | d :: ds =>
        match escape d with
        | some e => e :: unescape escape ds
        | none => c :: unescape escape (d :: ds)
      | [] => [c]
    else c :: unescape escape cs

/-- A text up to a comment, which starts with a number sign after a blank. -/
def beforeComment (afterBlank : Bool) : List Char → List Char
  | [] => []
  | c :: cs => if afterBlank && c == '#' then [] else c :: beforeComment (isBlank c) cs

/-- Whether nothing but a comment follows. -/
def isLineEnd (cs : List Char) : Bool :=
  match cs.dropWhile isBlank with
  | [] => true
  | c :: _ => c == '#'

/-- The value after an equals sign and blanks. -/
def value? (cs : List Char) : Option (List Char) :=
  let quoted (rest : List Char) (q : Char) (escape : Char → Option Char) : Option (List Char) := do
    let (body, rest) ← takeQuoted q rest
    if isLineEnd rest then some (unescape escape body) else none
  match cs with
  | [] => some []
  | c :: rest =>
    if c = apostrophe then quoted rest c plainlyEscaped?
    else if c = doubleQuote then quoted rest c escaped?
    else some ((beforeComment false cs).reverse.dropWhile isBlank).reverse

/-- What follows the word `export` and blanks at the start of a text, or the text. -/
def skipExport (cs : List Char) : List Char :=
  let word := "export".toList
  let rest := cs.drop word.length
  if word.isPrefixOf cs && rest.head?.any isBlank then rest.dropWhile isBlank else cs

/-- The name that a text starts with, and what follows. -/
def takeName (cs : List Char) : Option (List Char × List Char) :=
  match cs with
  | [] => none
  | c :: rest =>
    if c = apostrophe then
      let name := rest.takeWhile (· != c)
      match rest.dropWhile (· != c) with
      | _ :: after => if name.isEmpty then none else some (name, after)
      | [] => none
    else
      let inName (d : Char) : Bool := d != '=' && d != '#' && !isBlank d
      let name := cs.takeWhile inName
      if name.isEmpty then none else some (name, cs.dropWhile inName)

/-- The variable that a line of a file names, with its value if it gives one. Comments, empty lines and lines that
cannot be read name none. -/
def ofLine? (line : List Char) : Option (String × Option String) := do
  let (name, rest) ← takeName (skipExport (line.dropWhile isBlank))
  match rest.dropWhile isBlank with
  | '=' :: value => some (String.ofList name, some (String.ofList (← value? (value.dropWhile isBlank))))
  | other => if isLineEnd other then some (String.ofList name, none) else none

def lines (s : List Char) : List (List Char) :=
  s.splitOnP fun c => c == '\n' || c == '\r'

end VariableFile

open VariableFile in
/-- The variables with those that a file sets in addition; the last line about a name counts. -/
def Environment.withFile (e : Environment) (file : String) : Environment :=
  let assignments := ((lines file.toList).filterMap ofLine?).reverse
  let added := assignments.filterMap fun a =>
    match e.get? a.1, assignments.lookup a.1 with
    | none, some (some value) => some (a.1, value)
    | _, _ => none
  ⟨e.bindings ++ added⟩

end Backpressure
