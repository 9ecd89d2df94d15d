import Switchboard.Boundary
import Switchboard.Headers
import Switchboard.Http.Url

/-!
# HTTP requests

A request is read from bytes that hold it in full: a line with the verb and the target, header
lines, and for `POST` a body as long as announced. Where the head and the body end is settled by
`Boundary`, so reading and splitting cannot disagree about it.
-/

namespace Switchboard.Http

/-- The verbs that are understood. -/
inductive Verb
  | get
  | post
  deriving DecidableEq, Repr

/-- The word for a verb. -/
def Verb.label : Verb → String
  | .get => "GET"
  | .post => "POST"

/-- The verb that a word means. -/
def Verb.of? (word : String) : Option Verb :=
  if word = "GET" then some .get else if word = "POST" then some .post else none

/-- A request. -/
structure Request where
  verb : Verb
  /-- The target up to the first question mark. -/
  path : String
  /-- The target behind the first question mark. -/
  query : String
  headers : Headers
  body : Bytes
  deriving DecidableEq

namespace Request

/-! ## Reading -/

/-- The headers with those of a line; a line without a colon is passed over. -/
def addHeader (headers : Headers) (line : List Char) : Headers :=
  match Text.splitFirst ':' line with
  | some (name, value) =>
    headers.insert (String.ofList (Text.trim name)) (String.ofList (Text.trim value))
  | none => headers

/-- The request in the bytes, if they begin with a complete one that is well-formed. -/
def ofBytes? (buf : Bytes) : Option Request := do
  let found ← Boundary.of? buf
  let head ← Boundary.headEnd buf
  let text ← Utf8.decode? (buf.take head)
  let first :: lines := Text.lines text | none
  let (word, rest) ← Text.nextWord first
  let verb ← Verb.of? (String.ofList word)
  let (target, _) ← Text.nextWord rest
  let (path, query) := (Text.splitFirst '?' target).getD (target, [])
  return {
    verb
    path := String.ofList path
    query := String.ofList query
    headers := lines.foldl addHeader ∅
    body := match verb with
      | .post => (buf.take found.length).drop head
      | .get => [] }

/-! ## What a request says -/

/-- The name of the method that is called: the path without the slash in front. -/
def methodName (r : Request) : String :=
  match r.path.toList with
  | '/' :: name => String.ofList name
  | _ => r.path

/-- The text in which the arguments stand. -/
def argumentText (r : Request) : String :=
  match r.verb with
  | .get => r.query
  | .post => Utf8.toStringLossy r.body

/-- The arguments, if their escapes are well-formed. -/
def args? (r : Request) : Option (Dict String String) := Url.readArguments r.argumentText

/-- The cookies as one line. -/
def cookie (r : Request) : String := r.headers.getD "cookie"

/-- The page from which the request was made. -/
def referrer (r : Request) : String := r.headers.getD "referer"

/-- The program that made the request. -/
def userAgent (r : Request) : String := r.headers.getD "user-agent"

/-- Whether the connection is to stay open afterwards. -/
def keepAlive (r : Request) : Bool :=
  match r.headers.get? "connection" with
  | some value => Text.hasStretch "keep-alive".toList (Text.lower value).toList
  | none => false

/-- How many characters of a body a summary shows. -/
def summaryLimit : Nat := 300

/-- One line about the request. -/
def summary (r : Request) : String :=
  match r.verb with
  | .get => if r.query.isEmpty then "GET " ++ r.path else "GET " ++ r.path ++ "?" ++ r.query
  | .post =>
    let text := r.argumentText.toList
    "POST " ++ r.path ++ " " ++ String.ofList (text.take summaryLimit) ++
      (if summaryLimit < text.length then "..." else "")

end Request

end Switchboard.Http
