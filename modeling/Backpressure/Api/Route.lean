import Backpressure.Text.Percent

/-!
# Routes of the HTTP interface

* `Route` : what a path names, `Route.method` the one method it answers to;
* `Route.ofPath?` : the route of a path. A connection id is one segment that is not empty; a line break after a fixed
  last segment counts for nothing;
* `Route.pathOf` : the path of a target, which ends at a question mark or a number sign and is percent-decoded.
-/

namespace Backpressure
open Text

/-- What a path names. -/
inductive Route where
  | health
  | stats
  | connection (id : String)
  | backpressure (id : String)
  | nextInterval (id : String)
  | cache (id : String)
  deriving DecidableEq, Repr

namespace Route

def method : Route → String
  | cache _ => "DELETE"
  | _ => "GET"

/-- The segments of a path, between the slashes. -/
def segments (path : List Char) : List (List Char) := path.splitOnP (· == '/')

/-- Whether a last segment is a fixed one. -/
def isLast (name : String) (segment : List Char) : Bool :=
  segment == name.toList || segment == name.toList ++ ['\n']

def ofPath? (path : List Char) : Option Route :=
  match segments path with
  | [[], first] => if isLast "health" first then some health else none
  | [[], first, second] => if first == "analytics".toList && isLast "stats" second then some stats else none
  | [[], first, second, id] =>
    if first == "analytics".toList && second == "connections".toList && !id.isEmpty then
      some (connection (String.ofList id))
    else none
  | [[], first, second, id, last] =>
    if first == "analytics".toList && second == "connections".toList && !id.isEmpty then
      if isLast "backpressure" last then some (backpressure (String.ofList id))
      else if isLast "next-interval" last then some (nextInterval (String.ofList id))
      else if isLast "cache" last then some (cache (String.ofList id))
      else none
    else none
  | _ => none

def pathOf (target : List Char) : List Char := Percent.decode (target.takeWhile fun c => c != '?' && c != '#')

/-- A path without the slashes at its end. -/
def withoutSlashes (path : List Char) : List Char := (path.reverse.dropWhile (· == '/')).reverse

/-- The path that a path which names nothing is redirected to: the one without the slashes at its end, if that names
something. -/
def redirection? (path : List Char) : Option (List Char) :=
  let shorter := withoutSlashes path
  if path.getLast? == some '/' && (ofPath? shorter).isSome then some shorter else none

/-- The most redirections that are followed. -/
def maxRedirections : Nat := 20

/-- The route of a target after at most `n` redirections. -/
def follow? : Nat → List Char → Option Route
  | n, target =>
    let path := pathOf target
    match ofPath? path, redirection? path, n with
    | some route, _, _ => some route
    | none, some shorter, n + 1 => follow? n shorter
    | none, _, _ => none

def ofTarget? (target : String) : Option Route := follow? maxRedirections target.toList

end Route

end Backpressure
