import Switchboard.Text.Pieces

/-!
# Text inside markup

A text is put into a page with the four characters escaped that could end a text or an attribute
value or begin an escape. The ampersand comes first, so that the ampersands of the other escapes
are not escaped again.
-/

namespace Switchboard.Http

/-- A text as it is written inside markup, character by character. -/
def escapeChars (cs : List Char) : List Char :=
  Text.replaceChar '"' "&quot;".toList <| Text.replaceChar '>' "&gt;".toList <|
    Text.replaceChar '<' "&lt;".toList <| Text.replaceChar '&' "&amp;".toList cs

/-- A text as it is written inside markup. -/
def escape (s : String) : String := String.ofList (escapeChars s.toList)

end Switchboard.Http
