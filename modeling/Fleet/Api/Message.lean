import Fleet.Access
import Fleet.Json.Reader
import Fleet.Text.Blank

/-!
# Requests and responses

The acting identity of a request and the JSON in its body, and the envelope that every
response of a handler comes in.
-/

namespace Fleet.Api

inductive Method where
  | get
  | head
  | post
  | put
  | delete
  | other
  deriving DecidableEq, Repr

def Method.ofString : String → Method
  | "GET" => get
  | "HEAD" => head
  | "POST" => post
  | "PUT" => put
  | "DELETE" => delete
  | _ => other

structure Request where
  method : Method
  path : String
  /-- The header that names the actor. -/
  actor : Option String
  contentType : Option String
  body : String

/-! ## Actors -/

/-- A character that a readable header may hold. -/
def isReadable (c : Char) : Bool := c == '\t' || (' ' ≤ c && c ≤ '~')

/-- The actor of a request; a header that is missing, blank or unreadable names nobody. -/
def Request.acting (r : Request) : Actor :=
  match r.actor with
  | none => .anonymous
  | some header =>
    let name := Text.trim header.toList
    if header.toList.all isReadable && !name.isEmpty then ⟨String.ofList name⟩ else .anonymous

/-! ## Content types -/

/-- A character that the parts of a content type are made of. -/
def isToken (c : Char) : Bool :=
  ('A' ≤ c && c ≤ 'Z') || ('a' ≤ c && c ≤ 'z') || ('0' ≤ c && c ≤ '9') ||
    "!#$%&'*+-.^_`|~".toList.contains c

/-- The value of a parameter and what follows it, up to the next parameter. -/
def parameterValue? : List Char → Option (List Char)
  | '"' :: rest =>
    match rest.dropWhile (· != '"') with
    | '"' :: rest =>
      match rest.dropWhile (· == ' ') with
      | [] => some []
      | ';' :: rest => some rest
      | _ => none
    | _ => none
  | cs =>
    match cs.dropWhile isToken with
    | [] => some []
    | ';' :: rest => if (cs.takeWhile isToken).isEmpty then none else some rest
    | _ => none

/-- Whether the parameters of a content type are well formed. -/
def areParameters : (fuel : Nat) → List Char → Bool
  | 0, _ => false
  | fuel + 1, cs =>
    let cs := cs.dropWhile (· == ' ')
    if cs.isEmpty then true
    else
      match cs.takeWhile isToken, cs.dropWhile isToken with
      | _ :: _, '=' :: rest =>
        match parameterValue? rest with
        | some rest => areParameters fuel rest
        | none => false
      | _, _ => false

/-- A subtype is JSON by itself, by what precedes its last plus sign, or by what follows. -/
def isJsonSubtype (cs : List Char) : Bool :=
  let suffix := (cs.reverse.takeWhile (· != '+')).reverse
  let base := cs.take (cs.length - suffix.length - 1)
  let json := "json".toList
  cs == json || (!base.isEmpty && (base == json || suffix == json))

/-- Whether a content type announces JSON. -/
def isJsonType (contentType : String) : Bool :=
  let cs := contentType.toList.map Char.toLower
  let kind := cs.takeWhile isToken
  match cs.dropWhile isToken with
  | '/' :: rest =>
    let subtype := rest.takeWhile isToken
    let parameters := match rest.dropWhile isToken with
      | [] => true
      | ';' :: rest => areParameters (rest.length + 1) rest
      | _ => false
    kind == "application".toList && isJsonSubtype subtype && parameters
  | _ => false

/-! ## Responses -/

inductive Status where
  | ok
  | accepted
  | badRequest
  | forbidden
  | notFound
  | methodNotAllowed
  | unsupportedMediaType
  | unprocessable
  | internalError
  | badGateway
  deriving DecidableEq, Repr

namespace Status

def code : Status → Nat
  | ok => 200
  | accepted => 202
  | badRequest => 400
  | forbidden => 403
  | notFound => 404
  | methodNotAllowed => 405
  | unsupportedMediaType => 415
  | unprocessable => 422
  | internalError => 500
  | badGateway => 502

def isSuccess (s : Status) : Bool := s == ok || s == accepted

end Status

structure Response where
  status : Status
  /-- Nothing where a request does not reach a handler. -/
  body : Option Json

namespace Response

def success (data : Json) (status : Status) : Response where
  status
  body := some (.object [("success", .flag true), ("data", data)])

def ok (data : Json) : Response := success data .ok

def failure (error : String) (status : Status) : Response where
  status
  body := some (.object [("success", .flag false), ("error", .text error)])

/-- A response without an envelope. -/
def bare (status : Status) : Response := ⟨status, none⟩

end Response

/-- The body of a request as a value of a shape, or the status that says why it is none. -/
def Request.read (r : Request) (shape : Shape) : Except Status Json :=
  if r.contentType.any isJsonType then
    match shape.readText r.body with
    | .ok v => .ok v
    | .error .misshapen => .error .unprocessable
    | .error _ => .error .badRequest
  else .error .unsupportedMediaType

end Fleet.Api
