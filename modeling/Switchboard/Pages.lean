import Switchboard.Connections
import Switchboard.Http.Markup
import Switchboard.Outline
import Switchboard.Tracker

/-!
# Pages about the server

A server shows its methods with forms to call them, what it has done and is doing, and how it is
set up.
-/

namespace Switchboard.Page

/-! ## Methods -/

/-- The row of a method, with a form that holds its sample input. -/
def formRow (mock : String) (number : Nat) (name : String) (h : Handler) : String :=
  let result := "result" ++ Text.decimal number
  "<tr id=\"" ++ name ++ "\"><form action=\"" ++ name ++ "\" method=\"post\" target=\"" ++ result ++
  "\">\n<td><b>" ++ name ++ "</b></td>\n<td><textarea name=\"q\" rows=12 cols=55>\n" ++
  Http.escape h.sampleJson ++ "</textarea><br>\n<input type=\"hidden\" name=\"d\" value=\"1\">\n" ++
  "<input type=\"hidden\" name=\"mock\" value=\"" ++ mock ++ "\">\n</td>\n" ++
  "<td><input type=\"submit\" value=\"Submit\"></td>\n<td>Result:<br><iframe name=\"" ++ result ++
  "\" width=390 height=180></iframe></td>\n</form></tr>\n"

/-- The links at the top. -/
def formHead : String :=
  "<html><head><title>RPC Server</title></head>\n<body>\n" ++
  "<a href=\"/_usage\">Usage report</a> | <a href=\"/_status\">Process status</a> | " ++
  "<a href=\"/_param\">Parameters</a> | <a href=\"/_validate\">Validate</a> | " ++
  "<a href=\"/_threads\">Threads</a><p>\n"

/-- All methods with forms to call them. -/
def rootForm (r : Registry) (mock : String) : String :=
  let names := r.names
  let plural := if names.length = 1 then "" else "s"
  let link := fun name => "<a href=\"#" ++ name ++ "\">" ++ name ++ "</a> &nbsp;\n"
  let row := fun ((name, index) : String × Nat) =>
    match r.get? name with
    | some h => formRow (Http.escape mock) (index + 1) name h
    | none => ""
  formHead ++ "This server supports the following " ++ Text.decimal names.length ++ " operation" ++
  plural ++ ":<p>\n" ++ String.join (names.map link) ++ "<p>\n<table>\n" ++
  String.join (names.zipIdx.map row) ++ "</table>\n</body></html>\n"

/-- A page that leads on to another. -/
def redirect (target : String) : String :=
  let url := Http.escape target
  "<html>\n<head>\n<meta http-equiv=\"Refresh\" content=\"0;url=" ++ url ++
  "\">\n</head>\n<body>\n<a href=\"" ++ url ++ "\">Loading...</a><p>\n</body>\n</html>\n"

/-! ## Usage -/

/-- The natural number next to a fraction. Of two that are as near it is the even one. -/
def nearest (n d : Nat) : Nat :=
  if 2 * (n % d) < d ∨ 2 * (n % d) = d ∧ n / d % 2 = 0 then n / d else n / d + 1

/-- The parts of a second in which floating-point numbers are counted here. They are small enough for
every number of nanoseconds. -/
def parts : Nat := 2 ^ 96

/-- The floating-point number next to a fraction of parts: it has 53 binary places. -/
def double (n d : Nat) : Nat :=
  let unit := 2 ^ (Nat.log2 (n / d) - 52)
  nearest n (d * unit) * unit

/-- A number of nanoseconds as a floating-point number of seconds. What is left of whole seconds is
divided before it is added, and every step rounds. -/
def inSeconds (ns : Nat) : Nat :=
  let billion := 1000000000
  double (double (ns / billion * parts) 1 + double (ns % billion * parts) billion) 1

/-- A number of nanoseconds in seconds, with three places. -/
def seconds (ns : Nat) : String :=
  let ms := nearest (inSeconds ns * 1000) parts
  Text.decimal (ms / 1000) ++ "." ++ Text.padded 3 (ms % 1000) ++ "s"

-- the floating-point number next to 0.0045 is smaller, and 0.0625 is halfway
example : [4500000, 5500000, 62500000, 187500000].map seconds =
    ["0.004s", "0.005s", "0.062s", "0.188s"] := by decide +kernel

/-- A row of cells. -/
def centeredRow (cells : List String) : String :=
  "<tr align=center>" ++ String.join (cells.map fun c => "<td>" ++ c ++ "</td>") ++ "</tr>\n"

/-- The row about a method that has been called. -/
def statRow : String × Stat → String
  | (name, s) =>
    centeredRow [name, Text.decimal s.count, seconds s.min, seconds s.max, seconds s.average]

/-- The row about a call that has not ended. -/
def pendingRow (now : Nat) : Nat × PendingCall → String
  | (id, call) =>
    "<tr align=center><td>" ++ Text.decimal id ++ "</td><td>" ++ seconds (now - call.started) ++
    "</td><td>" ++ call.name ++ "</td><td>" ++ call.protocol.label ++
    "</td><td align=left><pre>" ++ Http.escape call.input ++ "</pre></td></tr>\n"

/-- The row about an open connection. -/
def connectionRow (now : Nat) : Nat × OpenConnection → String
  | (id, c) =>
    centeredRow [Text.decimal id, c.peer.toText, seconds (now - c.since), Text.decimal c.requests]

/-- A table, unless it has no rows. -/
def table (head : String) (rows : List String) : String :=
  if rows.isEmpty then "" else head ++ String.join rows ++ "</table>\n"

/-- What the server has done and is doing. -/
def usage (now : Nat) (t : Tracker) (c : Connections) : String :=
  "<html><head><title>Usage Report</title></head>\n<body>\n" ++
  "Server started: " ++ seconds (now - t.started) ++ " ago<p>\n" ++
  "Total number of calls: " ++ Text.decimal t.total ++ "<p>\n" ++
  "<table border=1><tr align=center><td><i>method</i></td><td><i>calls</i></td>" ++
  "<td><i>min. time</i></td><td><i>max. time</i></td><td><i>avg. time</i></td></tr>\n" ++
  String.join (t.snapshot.map statRow) ++ "</table><p>\n" ++
  "Number of pending calls: " ++ Text.decimal t.pendingCount ++ "<p>\n" ++
  table ("<table border=1>\n<tr><td><i>seq. #</i></td><td><i>time elapsed</i></td>" ++
      "<td><i>method</i></td><td><i>protocol</i></td><td><i>input</i></td></tr>\n")
    (t.pending.toList.map (pendingRow now)) ++
  "<p>Open connections: " ++ Text.decimal c.count ++ "<p>\n" ++
  table ("<table border=1>\n<tr><td><i>id</i></td><td><i>peer</i></td><td><i>age</i></td>" ++
      "<td><i>requests</i></td></tr>\n")
    (c.toList.map (connectionRow now)) ++
  "</body></html>\n"

/-! ## Settings -/

/-- How the server is set up. -/
def parameters (network : NetworkSettings) (server : ServerSettings) : String :=
  network.outline.render 0 ++ "\n\n" ++ server.outline.render 0 ++ "\n"

end Switchboard.Page
