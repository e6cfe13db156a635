/-
# DbInventory.Api.Http -- requests, replies and what carries them

Every request is a post. A network is a clock and a function that answers requests; both step
a state of the network's own, so nothing is assumed about how answers depend on each other. A
request whose headers or address cannot be written is never sent.

The body of a reply is taken as UTF-8. The character set that a reply may name in a header and
the byte order marks of UTF-16 are left out.
-/

import DbInventory.Text.Base64
import DbInventory.Text.Utf8
import DbInventory.Url.Parser

namespace DbInventory

/-- A post: its address, its headers in order and its body. -/
structure HttpRequest where
  url : Url
  headers : List (String × String)
  body : List UInt8
  deriving DecidableEq

/-- The first header of a name. -/
def HttpRequest.header? (r : HttpRequest) (name : String) : Option String :=
  r.headers.lookup name

structure HttpReply where
  status : Nat
  body : List UInt8
  deriving DecidableEq

namespace HttpReply

def isSuccess (r : HttpReply) : Bool := 200 ≤ r.status && r.status < 300

/-- The body as text: UTF-8, whatever the reply says of itself, and without its mark. -/
def text (r : HttpReply) : String := Text.decodeMarkedUtf8 r.body

end HttpReply

/-- The standard phrase of a status. -/
def reasonPhrase? (status : Nat) : Option String :=
  [(100, "Continue"), (101, "Switching Protocols"), (102, "Processing"), (200, "OK"),
    (201, "Created"), (202, "Accepted"), (203, "Non Authoritative Information"),
    (204, "No Content"), (205, "Reset Content"), (206, "Partial Content"),
    (207, "Multi-Status"), (208, "Already Reported"), (226, "IM Used"),
    (300, "Multiple Choices"), (301, "Moved Permanently"), (302, "Found"), (303, "See Other"),
    (304, "Not Modified"), (305, "Use Proxy"), (307, "Temporary Redirect"),
    (308, "Permanent Redirect"), (400, "Bad Request"), (401, "Unauthorized"),
    (402, "Payment Required"), (403, "Forbidden"), (404, "Not Found"),
    (405, "Method Not Allowed"), (406, "Not Acceptable"),
    (407, "Proxy Authentication Required"), (408, "Request Timeout"), (409, "Conflict"),
    (410, "Gone"), (411, "Length Required"), (412, "Precondition Failed"),
    (413, "Payload Too Large"), (414, "URI Too Long"), (415, "Unsupported Media Type"),
    (416, "Range Not Satisfiable"), (417, "Expectation Failed"), (418, "I'm a teapot"),
    (421, "Misdirected Request"), (422, "Unprocessable Entity"), (423, "Locked"),
    (424, "Failed Dependency"), (425, "Too Early"), (426, "Upgrade Required"),
    (428, "Precondition Required"), (429, "Too Many Requests"),
    (431, "Request Header Fields Too Large"), (451, "Unavailable For Legal Reasons"),
    (500, "Internal Server Error"), (501, "Not Implemented"), (502, "Bad Gateway"),
    (503, "Service Unavailable"), (504, "Gateway Timeout"),
    (505, "HTTP Version Not Supported"), (506, "Variant Also Negotiates"),
    (507, "Insufficient Storage"), (508, "Loop Detected"), (510, "Not Extended"),
    (511, "Network Authentication Required")].lookup status

/-! ## What cannot be sent -/

/-- A header holds no controls but tabs. -/
def isHeaderChar (c : Char) : Bool := c == '\t' || (' ' ≤ c && c ≠ '\x7f')

def isHeaderText (s : String) : Bool := s.toList.all isHeaderChar

/-- The characters that an address may have and a host may not. -/
def isHostChar (c : Char) : Bool := !(['"', '\x60', '\x7b', '\x7d'].contains c)

/-- The longest address in bytes. -/
def maxAddress : Nat := 65534

/-- Only web addresses can be sent to. -/
def Url.isSendable (u : Url) : Bool :=
  (u.scheme = "http" || u.scheme = "https") &&
    (match u.host with
      | some host => host.text.toList.all isHostChar
      | none => false) &&
    u.text.utf8ByteSize ≤ maxAddress

/-! ## Networks -/

/-- How sending fails: the request does not get through, or the reply is cut short. -/
inductive SendFault where
  | notSent
  | cutShort
  deriving DecidableEq

/-- A clock, in seconds since the start of 1970, and something that answers requests. -/
structure Network (τ : Type) where
  now : τ → Int64 × τ
  send : HttpRequest → τ → Except SendFault HttpReply × τ

/-- What went wrong between a request and its reply. -/
inductive NetworkFault where
  | badHeader
  | badAddress (url : Url)
  | notSent (url : Url)
  | cutShort (url : Url)
  deriving DecidableEq

def NetworkFault.message : NetworkFault → String
  | .badHeader => "builder error"
  | .badAddress url => "builder error for url (" ++ url.text ++ ")"
  | .notSent url => "error sending request for url (" ++ url.text ++ ")"
  | .cutShort url => "error decoding response body for url (" ++ url.text ++ ")"

/-! ## Sending -/

/-- User and password of an address; there are none if the user is no text. -/
def Url.userAndPassword? (u : Url) : Option (String × Option String) :=
  let decoded (s : String) : Option String :=
    let bytes := Text.percentDecode s.toList
    let text := Text.decodeUtf8 bytes
    if Text.utf8 text = bytes then some text else none
  (decoded u.username).bind fun username =>
    let password := u.password.bind decoded
    if username = "" ∧ password = none then none else some (username, password)

/-- User and password of an address are sent as a header of their own. -/
def Url.userHeaders (u : Url) : List (String × String) :=
  match u.userAndPassword? with
  | some (username, password) =>
    let digits := Text.base64 (Text.utf8 (username ++ ":" ++ password.getD ""))
    [("Authorization", "Basic " ++ String.ofList digits)]
  | none => []

/-- The address that a request goes to, without the user and the password that are sent as a
header. -/
def Url.sendAddress (u : Url) : Url :=
  if u.userAndPassword?.isSome then u.withoutUser else u

/-- Sends a request. -/
def Network.post (net : Network τ) (r : HttpRequest) (s : τ) :
    Except NetworkFault HttpReply × τ :=
  if r.headers.any fun h => !isHeaderText h.2 then (.error .badHeader, s)
  else if !r.url.isSendable then (.error (.badAddress r.url), s)
  else
    match net.send r s with
    | (.ok reply, s) => (.ok reply, s)
    | (.error .notSent, s) => (.error (.notSent r.url), s)
    | (.error .cutShort, s) => (.error (.cutShort r.url), s)

end DbInventory
