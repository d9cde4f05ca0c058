import Matchmaking.Record.Attempts
import Matchmaking.Notification.Target
/-! Push notifications: the message posted to the gateway, and what its reply means. Anything but
a status of success is a rejection that quotes the reply. -/
namespace Matchmaking

/-- A notification on its way to a device. -/
structure Push where
  receiver : UserId
  kind : NoticeKind
  notice : Notice
  deriving DecidableEq, Repr

inductive PushError
  /-- The gateway cannot be reached. -/
  | unreachable
  | rejected (status : Nat) (reply : String)
  deriving DecidableEq, Repr

namespace Push

def toJson (p : Push) : Json :=
  Json.ofFields [("userId", .ofNat p.receiver), ("kind", .text p.kind.name),
    ("name", .text p.notice.name), ("photo", .text p.notice.photo)]

/-- The standard reason phrases. -/
def reasons : List (Nat × String) :=
  [(100, "Continue"), (101, "Switching Protocols"), (102, "Processing"), (200, "OK"),
   (201, "Created"), (202, "Accepted"), (203, "Non Authoritative Information"),
   (204, "No Content"), (205, "Reset Content"), (206, "Partial Content"), (207, "Multi-Status"),
   (208, "Already Reported"), (226, "IM Used"), (300, "Multiple Choices"),
   (301, "Moved Permanently"), (302, "Found"), (303, "See Other"), (304, "Not Modified"),
   (305, "Use Proxy"), (307, "Temporary Redirect"), (308, "Permanent Redirect"),
   (400, "Bad Request"), (401, "Unauthorized"), (402, "Payment Required"), (403, "Forbidden"),
   (404, "Not Found"), (405, "Method Not Allowed"), (406, "Not Acceptable"),
   (407, "Proxy Authentication Required"), (408, "Request Timeout"), (409, "Conflict"),
   (410, "Gone"), (411, "Length Required"), (412, "Precondition Failed"),
   (413, "Payload Too Large"), (414, "URI Too Long"), (415, "Unsupported Media Type"),
   (416, "Range Not Satisfiable"), (417, "Expectation Failed"), (418, "I'm a teapot"),
   (421, "Misdirected Request"), (422, "Unprocessable Entity"), (423, "Locked"),
   (424, "Failed Dependency"), (425, "Too Early"), (426, "Upgrade Required"),
   (428, "Precondition Required"), (429, "Too Many Requests"),
   (431, "Request Header Fields Too Large"), (451, "Unavailable For Legal Reasons"),
   (500, "Internal Server Error"), (501, "Not Implemented"), (502, "Bad Gateway"),
   (503, "Service Unavailable"), (504, "Gateway Timeout"), (505, "HTTP Version Not Supported"),
   (506, "Variant Also Negotiates"), (507, "Insufficient Storage"), (508, "Loop Detected"),
   (510, "Not Extended"), (511, "Network Authentication Required")]

def reason (status : Nat) : String := (reasons.lookup status).getD "<unknown status code>"

def isSuccess (status : Nat) : Bool := 200 ≤ status && status < 300

/-- A reply of this status has no body. -/
def isBodiless (status : Nat) : Bool := status < 200 || status == 204 || status == 304

/-- The text of a reply, without a mark of byte order. -/
def replyText (status : Nat) (reply : String) : String :=
  if isBodiless status then ""
  else
    match reply.toList with
    | '\ufeff' :: rest => String.ofList rest
    | _ => reply

/-- What a reply of the gateway means, none standing for a refused connection. -/
def outcome : Option (Nat × String) → Except PushError Unit
  | none => .error .unreachable
  | some (status, reply) =>
    if isSuccess status then .ok () else .error (.rejected status (replyText status reply))

end Push

namespace PushError

def name : PushError → String
  | unreachable => "RequestError"
  | rejected _ _ => "Rejected"

/-- What is known of a failure; of a connection that fails nothing is. -/
def message? : PushError → Option String
  | unreachable => none
  | rejected status reply =>
    some ("notification service rejected the request: " ++ toString status ++ " " ++
      Push.reason status ++ ": " ++ reply)

end PushError
end Matchmaking
