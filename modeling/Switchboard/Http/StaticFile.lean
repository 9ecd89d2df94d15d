import Switchboard.Http.Url

/-!
# Files under the web root

A path that names no method may name a file. The path is decoded first and then looked at twice.
Cut at slashes of either kind it must have no step upwards, wherever the files are kept. Cut into
components, by the rules for paths, it must consist of names, which go behind the root one by one;
an escape cannot hide anything from either.
-/

namespace Switchboard.Http.StaticFile

/-! ## Paths -/

/-- What a path consists of. -/
inductive Component
  /-- The slash in front of a path from the top. -/
  | top
  /-- The dot in front of a path from where one is. -/
  | here
  /-- A step upwards. -/
  | up
  | name (segment : List Char)
  deriving DecidableEq, Repr

/-- What the text between two slashes is; nothing at all and a dot are no component. -/
def component? (segment : List Char) : Option Component :=
  if segment = [] ∨ segment = ['.'] then none
  else if segment = ['.', '.'] then some .up
  else some (.name segment)

/-- The component in front of the first name, if there is one: a slash, or a dot that is alone. -/
def front (path : List Char) : List Component :=
  if path.head? = some '/' then [.top]
  else if (Text.pieces '/' path).head? = some ['.'] then [.here]
  else []

/-- The components of a path. -/
def components (path : List Char) : List Component :=
  front path ++ (Text.pieces '/' path).filterMap component?

/-- A path with a name behind it. -/
def push (path name : List Char) : List Char :=
  if path = [] ∨ path.getLast? = some '/' then path ++ name else path ++ '/' :: name

/-! ## Resolving -/

/-- The slashes of either kind. -/
def isSlash (c : Char) : Bool := c == '/' || c == '\\'

/-- Whether some segment between slashes of either kind is a step upwards. -/
def climbs (path : List Char) : Bool := (path.splitOnP isSlash).contains ['.', '.']

/-- Goes one component further from a path, and notes whether there has been a name. -/
def advance : List Char × Bool → Component → Option (List Char × Bool)
  | (path, _), .name segment => some (push path segment, true)
  | state, .here => some state
  | _, .top => none
  | _, .up => none

/-- The file that a decoded path means under a root. A path from the top, one with a step upwards or
a zero byte, and one that names nothing mean none. -/
def resolve? (root decoded : List Char) : Option (List Char) := do
  if decoded.contains '\x00' || climbs decoded then none
  else
    let (file, named) ← (components decoded).foldlM advance (root, false)
    if named then some file else none

/-- The file that a path means under a root. -/
def path? (root path : String) : Option String := do
  let decoded ← Url.decode path
  return String.ofList (← resolve? root.toList decoded.toList)

/-! ## Content types -/

/-- The endings of file names with the types of such files. -/
def contentTypes : List (String × String) :=
  [("jpg", "image/jpeg"), ("jpeg", "image/jpeg"), ("gif", "image/gif"), ("png", "image/png"),
    ("tif", "image/tiff"), ("tiff", "image/tiff"), ("html", "text/html"), ("htm", "text/html"),
    ("xml", "text/xml"), ("js", "application/javascript"), ("json", "application/json"),
    ("css", "text/css"), ("ico", "image/vnd.microsoft.icon"), ("svg", "image/svg+xml")]

/-- The type of a file, by what stands behind the last dot of its name. -/
def contentType (name : String) : String :=
  (do contentTypes.lookup (Text.lower (String.ofList (← Text.afterLast '.' name.toList))) :
    Option String).getD "text/plain"

end Switchboard.Http.StaticFile
