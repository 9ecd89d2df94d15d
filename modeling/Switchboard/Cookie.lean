import Switchboard.Http.Url

/-!
# Cookies

A cookie that is set is one line: the name and the value with percent escapes, then its
attributes. The cookies that come back are one line of pairs. Names and values are escaped when
they are written, so neither can begin an attribute or another cookie.
-/

namespace Switchboard.Cookie

/-- The attributes of a cookie that is set. -/
structure Attributes where
  /-- How many seconds the cookie is kept. -/
  maxAge : Option Nat := none
  path : Option String := none
  domain : Option String := none
  secure : Bool := false
  httpOnly : Bool := false
  deriving DecidableEq, Repr

/-- An attribute with a value; an empty value is left out. -/
def clause (label : String) (value : Option String) : String :=
  match value.filter (!·.isEmpty) with
  | some value => "; " ++ label ++ "=" ++ value
  | none => ""

/-- A name and a value as a pair. -/
def pair (name value : String) : String := Url.encode name ++ "=" ++ Url.encode value

/-- The line that sets a cookie. -/
def write (name value : String) (attributes : Attributes) : String :=
  pair name value ++
  clause "Max-Age" (attributes.maxAge.map Text.decimal) ++
  clause "path" attributes.path ++
  clause "domain" attributes.domain ++
  (if attributes.secure then "; secure" else "") ++
  (if attributes.httpOnly then "; HttpOnly" else "")

/-- The line of cookies that a client would send. -/
def header (cookies : Dict String String) : String :=
  "; ".intercalate (cookies.toList.map fun (name, value) => pair name value)

/-- A text without its percent escapes, or the text itself if they are malformed. -/
def unescape (cs : List Char) : String :=
  (Url.decode (String.ofList cs)).getD (String.ofList cs)

/-- One cookie of a line. What has no equals sign or no name is none. -/
def readPair (cs : List Char) : Option (String × String) := do
  let (name, value) ← Text.splitFirst '=' (Text.trim cs)
  let name := Text.trim name
  if name.isEmpty then none else some (unescape name, unescape (Text.trim value))

/-- The cookies of a line; of two cookies with one name the later one counts. -/
def read (line : String) : Dict String String :=
  Dict.ofList ((Text.pieces ';' line.toList).filterMap readPair)

end Switchboard.Cookie
