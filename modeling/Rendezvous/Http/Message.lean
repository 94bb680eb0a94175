import Rendezvous.Fault
import Rendezvous.Http.MediaType
import Rendezvous.Json.Record

namespace Rendezvous.Http

structure Request where
  method : String
  /-- the path, or an address with one, and, after a question mark, the query; what follows a `#`
  does not count -/
  target : String
  headers : List (String × String)
  body : List UInt8

namespace Request

def afterScheme? (target : List Char) : Option (List Char) :=
  match target.span fun c => c != ':' && c != '/' with
  | (_, ':' :: '/' :: '/' :: rest) => some rest
  | _ => none

def fromPath (target : List Char) : List Char :=
  match afterScheme? target with
  | some rest => rest.dropWhile fun c => c != '/' && c != '?' && c != '#'
  | none => target

/-- The path that is asked for. An address without one asks for `/`. -/
def path (r : Request) : String :=
  match (fromPath r.target.toList).takeWhile fun c => c != '?' && c != '#' with
  | [] => "/"
  | cs => String.ofList cs

/-- The value of the first header with a name given in small letters; case does not matter. -/
def header? (r : Request) (name : String) : Option String :=
  (r.headers.find? fun h => h.1.toLower == name).map (·.2)

def hasJson (r : Request) : Bool :=
  (((r.header? "content-type").bind MediaType.parse?).map MediaType.isJson).getD false

end Request

inductive Body where
  | empty
  | text (s : String)
  | json (v : Json)
  | exposition

structure Response where
  status : Nat
  contentType : Option String := none
  /-- the methods that the target takes, told if it does not take the one used -/
  allow : Option String := none
  body : Body := .empty

namespace Response

def text (status : Nat) (s : String) : Response :=
  { status, contentType := some "text/plain; charset=utf-8", body := .text s }

def json (status : Nat) (v : Json) : Response :=
  { status, contentType := some "application/json", body := .json v }

def exposition : Response :=
  { status := 200, contentType := some "text/plain; charset=utf-8", body := .exposition }

def withoutBody (r : Response) : Response := { r with body := .empty }

def ofFault (f : Fault) : Response :=
  .json f.status (.object [("error",
    .object [("code", .string f.code), ("message", .string f.publicMessage)])])

end Response

inductive Refusal where
  | path
  | mediaType
  | size
  | body (failure : Json.Failure)

def Refusal.response : Refusal → Response
  | .path => .text 400 "Invalid URL: Invalid UTF-8 in `token`"
  | .mediaType => .text 415 "Expected request with `Content-Type: application/json`"
  | .size => .text 413 "Failed to buffer the request body: length limit exceeded"
  | .body f =>
    if f.fault.isShape then
      .text 422 ("Failed to deserialize the JSON body into the target type: " ++ f.message)
    else .text 400 ("Failed to parse the request body as JSON: " ++ f.message)

def maxBodyLength : Nat := 2097152

/-- The record in the body of a request; what follows it does not matter. -/
def Request.record {α : Type} (r : Request) (record : Json.Record α) : Except Refusal α :=
  if !r.hasJson then .error .mediaType
  else if maxBodyLength < r.body.length then .error .size
  else (Json.Reader.front record.read r.body).mapError .body

end Rendezvous.Http
