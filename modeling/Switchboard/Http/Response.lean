import Switchboard.Text.Numeral
import Switchboard.Text.Utf8

/-!
# HTTP responses

A response announces the length of its body and whether the connection stays open, so that a
client knows where it ends without waiting for the connection to close.
-/

namespace Switchboard.Http

/-! ## Status codes -/

/-- The status codes that have a reason, with it. -/
def reasons : List (Nat × String) :=
  [(100, "Continue"), (101, "Switching Protocols"), (102, "Processing"),
    (103, "Early Hints"), (200, "OK"), (201, "Created"), (202, "Accepted"),
    (203, "Non Authoritative Information"),
    (204, "No Content"), (205, "Reset Content"), (206, "Partial Content"), (207, "Multi-Status"),
    (208, "Already Reported"), (226, "IM Used"), (300, "Multiple Choices"),
    (301, "Moved Permanently"), (302, "Found"), (303, "See Other"), (304, "Not Modified"),
    (305, "Use Proxy"), (307, "Temporary Redirect"), (308, "Permanent Redirect"),
    (400, "Bad Request"), (401, "Unauthorized"), (402, "Payment Required"), (403, "Forbidden"),
    (404, "Not Found"), (405, "Method Not Allowed"), (406, "Not Acceptable"),
    (407, "Proxy Authentication Required"), (408, "Request Timeout"), (409, "Conflict"),
    (410, "Gone"), (411, "Length Required"), (412, "Precondition Failed"),
    (413, "Payload Too Large"), (414, "URI Too Long"), (415, "Unsupported Media Type"),
    (416, "Range Not Satisfiable"), (417, "Expectation Failed"), (418, "I'm a teapot"),
    (421, "Misdirected Request"), (422, "Unprocessable Entity"), (423, "Locked"),
    (424, "Failed Dependency"), (425, "Too Early"), (426, "Upgrade Required"),
    (428, "Precondition Required"), (429, "Too Many Requests"),
    (431, "Request Header Fields Too Large"), (451, "Unavailable For Legal Reasons"),
    (500, "Internal Server Error"), (501, "Not Implemented"), (502, "Bad Gateway"),
    (503, "Service Unavailable"), (504, "Gateway Timeout"), (505, "HTTP Version Not Supported"),
    (506, "Variant Also Negotiates"), (507, "Insufficient Storage"), (508, "Loop Detected"),
    (510, "Not Extended"), (511, "Network Authentication Required")]

/-- The reason of a status code. -/
def reason (status : Nat) : String := (reasons.lookup status).getD "Unknown"

/-! ## Responses -/

/-- A response. -/
structure Response where
  status : Nat
  contentType : String
  body : Bytes
  /-- Complete cookie lines. -/
  cookies : List String
  /-- For how many seconds the response may be kept. -/
  maxAge : Nat
  keepAlive : Bool
  deriving DecidableEq

namespace Response

/-- A response with a body of a given type, in UTF-8. -/
def ok (body : Bytes) (contentType : String) : Response :=
  ⟨200, contentType ++ "; charset=utf-8", body, [], 0, false⟩

/-- A response with a fixed page. -/
def page (status : Nat) (text : String) : Response :=
  ⟨status, "text/html", Utf8.ofString text, [], 0, false⟩

/-- There is nothing under the path. -/
def notFound : Response :=
  page 404 ("<html><head><title>404 Not Found</title></head>\n<body><h1>Not Found</h1>\n" ++
    "The requested URL was not found on this server.<p><hr></body>\n</html>\n")

/-- The server takes no more connections. -/
def busy : Response :=
  page 503 ("<html><head><title>Server Busy</title></head>\n<body><h1>Server Busy</h1>\n" ++
    "The server is busy at this moment.  Please try again later.<p><hr></body>\n</html>\n")

/-- The server failed. -/
def serverError : Response :=
  page 500 ("<html><head><title>Internal Server Error</title></head>\n" ++
    "<body><h1>Internal Server Error</h1>\n" ++
    "The server has encountered an error.  Please try again later.<p><hr></body>\n</html>\n")

/-! ## Writing -/

/-- A line with its end. -/
def line (text : String) : String := text ++ "\r\n"

/-- The lines that only a successful response has. -/
def successLines (r : Response) : String :=
  if r.status = 200 then
    line ("Cache-Control: private, max-age=" ++ Text.decimal r.maxAge) ++
      String.join (r.cookies.map fun c => line ("Set-Cookie: " ++ c))
  else ""

/-- The lines in front of the body, with the blank line that ends them. -/
def head (r : Response) : String :=
  line ("HTTP/1.1 " ++ Text.decimal r.status ++ " " ++ reason r.status) ++
  line ("Content-Type: " ++ r.contentType) ++
  r.successLines ++
  line ("Connection: " ++ if r.keepAlive then "keep-alive" else "close") ++
  line ("Content-Length: " ++ Text.decimal r.body.length) ++
  line ""

/-- The response as it is sent. -/
def toBytes (r : Response) : Bytes := Utf8.ofString r.head ++ r.body

end Response

end Switchboard.Http
