import Matchmaking.Access.Bearer
import Matchmaking.Text.Utf8
/-! What the routes are served through. The framework decides by the headers whether it can answer
in a coding that the request accepts, decodes bodies, and words the faults it finds; all of that is
a parameter. Which coding a body is in is told by its first `Content-Encoding` header. -/
namespace Matchmaking
namespace Http

/-- A coding of bodies. -/
inductive Coding
  | brotli
  | gzip
  | deflate
  | zstd
  deriving DecidableEq, Repr

namespace Coding

def name : Coding → String
  | brotli => "br"
  | gzip => "gzip"
  | deflate => "deflate"
  | zstd => "zstd"

def all : List Coding := [brotli, gzip, deflate, zstd]

/-- The coding of a name in any case of letters, with blanks around it. -/
def ofName? (s : List Char) : Option Coding :=
  all.find? fun c => c.name.toList == (Text.trim s).map Char.toLower

def header : String := "content-encoding"

/-- The coding that headers announce. A name that is no coding announces none. -/
def announced? (headers : List Access.Header) : Option Coding := do
  let value ← Access.header? header headers
  if value.toList.all Access.isPlain then ofName? value.toList else none

end Coding

/-- Why no swipe is found in a body. -/
inductive BodyFault
  /-- The body is not announced as JSON. -/
  | mediaType
  /-- That many bytes are announced, which are too many. -/
  | announcedLength (length : Nat)
  /-- The bytes are not of the coding that they are announced in. -/
  | undecodable (coding : Coding)
  /-- The decoded bytes are too many. -/
  | overlong
  /-- The decoded bytes are no swipe. -/
  | unreadable (bytes : List UInt8)

/-- The header of the codings that a request accepts for its answer. -/
def acceptHeader : String := "accept-encoding"

structure Framework where
  /-- There is a coding that a request with these headers accepts for its answer. -/
  accepts : List Access.Header → Bool
  accepts_of_absent : ∀ headers, Access.header? acceptHeader headers = none → accepts headers
  decode? : Coding → List UInt8 → Option (List UInt8)
  faultText : BodyFault → String
  /-- The text of the parameters of a check that has failed. -/
  parametersText : List (String × Nat) → String

/-- The bytes that a body stands for. -/
def Framework.decoded (framework : Framework) (headers : List Access.Header) (body : List UInt8) :
    Except BodyFault (List UInt8) :=
  match Coding.announced? headers with
  | none => .ok body
  | some coding => (framework.decode? coding body).elim (.error (.undecodable coding)) .ok

/-- A framework that takes bodies in no coding and says nothing. -/
def Framework.plain : Framework where
  accepts _ := true
  accepts_of_absent _ _ := rfl
  decode? _ _ := none
  faultText _ := ""
  parametersText _ := ""

end Http
end Matchmaking
