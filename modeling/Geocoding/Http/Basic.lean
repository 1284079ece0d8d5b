import Geocoding.Http.Form
import Geocoding.Program
import Geocoding.Text.Charset

/-!
# Requests and responses

What goes to a web service and what comes back. The host is left out: a request says the path and query
that are sent to it. A request that gets no response fails.
-/

namespace Geocoding.Http

/-- Cut off a fragment. -/
def withoutFragment (url : List Char) : List Char :=
  url.takeWhile (· != '#')

/-- The path and query that are asked for when pairs are added to the query of a URL (without its host). -/
def target (url : String) (pairs : List (String × String)) : String :=
  let s := withoutFragment url.toList
  let path := s.takeWhile (· != '?')
  let query := (s.dropWhile (· != '?')).drop 1
  let separator := if query.isEmpty then [] else ['&']
  String.ofList ((if path.isEmpty then ['/'] else path) ++ '?' :: (query ++ separator ++ Form.encode pairs))

/-- A part of a posted form. -/
structure Part where
  name : String
  fileName : Option String := none
  mediaType : Option String := none
  value : String

/-- The header lines of a part. -/
def Part.headers (p : Part) : List String :=
  let file := match p.fileName with
    | some f => "; filename=\"" ++ f ++ "\""
    | none => ""
  ("Content-Disposition: form-data; name=\"" ++ p.name ++ "\"" ++ file) ::
    (match p.mediaType with
      | some t => ["Content-Type: " ++ t]
      | none => [])

/-- A request. -/
inductive Request where
  | get (url : String) (pairs : List (String × String))
  | post (url : String) (parts : List Part)

/-- A response. Any text can be what its body is decoded to; unless another is told, it is what the charsets that are
known here make of the body. `complete` is false if the body ended before its announced length. -/
structure Response where
  status : Nat := 200
  contentType : String := "text/plain"
  body : Bytes := []
  text : String := Text.decodeBody contentType body
  complete : Bool := true

/-- Asking web services. -/
abbrev web : Interface where
  Call := Request
  Answer := fun _ => Response

/-- Send a request. -/
def send (r : Request) : Program web (Except Error Response) :=
  Program.ask web r

/-- The body as text, if it is complete. -/
def Response.text? (r : Response) : Option String :=
  if r.complete then some r.text else none

/-- The body as it is quoted in a message: as text, and cut to 500 characters; nothing if it is not complete. -/
def Response.excerpt (r : Response) : String :=
  match r.text? with
  | some text => String.ofList (text.toList.take 500)
  | none => ""

/-- Wait for a permit of a limiter that has one; a fired token comes first. -/
def permitted {I : Interface} : Program I (Except Error Unit) :=
  .look fun fired => .done (if fired then .error .cancelled else .ok ())

/-- A request that waits for a permit is sent unless the token has fired. -/
theorem permitted_bind_send {α : Type} (r : Request) (g : Except Error Response → Except Error α) :
    (permitted.bind fun
      | .error e => .done (.error e)
      | .ok () => (send r).bind fun reply => .done (g reply)) =
    .look fun fired => if fired then .done (.error .cancelled) else .call r fun reply => .done (g reply) := by
  refine congrArg Program.look (funext fun fired => ?_)
  cases fired <;> rfl

end Geocoding.Http
