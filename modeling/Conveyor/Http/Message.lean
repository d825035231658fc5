import Conveyor.Error

/-!
Messages of the Hypertext Transfer Protocol as far as the cluster's interface uses them: a method,
an address of path and query, and perhaps a JSON body; a reply is a status and a text.
-/

namespace Conveyor.Http

inductive Method where
  | get
  | post
  | put
  | patch
  | delete
  deriving DecidableEq, Repr

def Method.name : Method → String
  | get => "GET"
  | post => "POST"
  | put => "PUT"
  | patch => "PATCH"
  | delete => "DELETE"

/-! ### Addresses -/

/-- Characters that a path may have. Outside of ASCII all are allowed. -/
def isPathChar (c : Char) : Bool :=
  '!' ≤ c && !(['#', '<', '>', '?', '\x60', '\x7f'].contains c)

/-- Characters that a query may have. Outside of ASCII all are allowed. -/
def isQueryChar (c : Char) : Bool :=
  '!' ≤ c && !(['"', '#', '<', '>', '\x7f'].contains c)

/-- The longest address, in bytes. -/
def longestAddress : Nat := 65534

/-- The path and query of an address that starts with a slash; what follows a `#` does not count. -/
def address (s : String) : Except AddressFault String :=
  if longestAddress < s.utf8ByteSize then .error .tooLong
  else
    let (path, rest) := s.toList.span isPathChar
    match rest with
    | [] => .ok (String.ofList path)
    | '#' :: _ => .ok (String.ofList path)
    | '?' :: query =>
      let (query, rest) := query.span isQueryChar
      match rest with
      | [] => .ok (String.ofList (path ++ '?' :: query))
      | '#' :: _ => .ok (String.ofList (path ++ '?' :: query))
      | _ => .error .invalidCharacter
    | _ => .error .invalidCharacter

/-- The path of an address. -/
def pathOf (address : String) : String := String.ofList (address.toList.takeWhile (· ≠ '?'))

/-! ### Requests and replies -/

structure Message where
  method : Method
  address : String
  contentType : Option String := none
  body : Option Json := none
  deriving DecidableEq

structure Reply where
  status : Nat
  text : String
  deriving DecidableEq, Repr

/-- The phrase that goes with a status. -/
def reasonPhrase? : Nat → Option String
  | 400 => some "Bad Request"
  | 401 => some "Unauthorized"
  | 402 => some "Payment Required"
  | 403 => some "Forbidden"
  | 404 => some "Not Found"
  | 405 => some "Method Not Allowed"
  | 406 => some "Not Acceptable"
  | 407 => some "Proxy Authentication Required"
  | 408 => some "Request Timeout"
  | 409 => some "Conflict"
  | 410 => some "Gone"
  | 411 => some "Length Required"
  | 412 => some "Precondition Failed"
  | 413 => some "Payload Too Large"
  | 414 => some "URI Too Long"
  | 415 => some "Unsupported Media Type"
  | 416 => some "Range Not Satisfiable"
  | 417 => some "Expectation Failed"
  | 418 => some "I'm a teapot"
  | 421 => some "Misdirected Request"
  | 422 => some "Unprocessable Entity"
  | 423 => some "Locked"
  | 424 => some "Failed Dependency"
  | 425 => some "Too Early"
  | 426 => some "Upgrade Required"
  | 428 => some "Precondition Required"
  | 429 => some "Too Many Requests"
  | 431 => some "Request Header Fields Too Large"
  | 451 => some "Unavailable For Legal Reasons"
  | 500 => some "Internal Server Error"
  | 501 => some "Not Implemented"
  | 502 => some "Bad Gateway"
  | 503 => some "Service Unavailable"
  | 504 => some "Gateway Timeout"
  | 505 => some "HTTP Version Not Supported"
  | 506 => some "Variant Also Negotiates"
  | 507 => some "Insufficient Storage"
  | 508 => some "Loop Detected"
  | 510 => some "Not Extended"
  | 511 => some "Network Authentication Required"
  | _ => none

/-- A failure status with its phrase. -/
def statusText (status : Nat) : String :=
  toString status ++ " " ++ (reasonPhrase? status).getD "<unknown status code>"

end Conveyor.Http
