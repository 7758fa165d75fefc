import ReadThrough.Decimal.Unsigned
import ReadThrough.Http.BasePath
import ReadThrough.Http.Message
import ReadThrough.Http.Reason
import ReadThrough.Http.Url
import ReadThrough.Text.Blank
import ReadThrough.Text.Lossy
import ReadThrough.Text.Quoted

/-!
# Asking a peer

A key is asked for by a GET on its URL below the base path of the peers. The answer is a value
only with status 200; it carries the lifetime that the peer says is left. Status 404 means that
there is no value, and every other answer, or none, is a failure of the peer.
-/

namespace ReadThrough.Http

/-- The path of a key below a normal base path. -/
def entryPath (basePath group key : String) : String :=
  basePath ++ Percent.encode group ++ "/" ++ Percent.encode key

/-- The URL of a key on a peer. -/
def entryUrl (peer basePath group key : String) : String :=
  String.ofList (dropEndSlashes peer.toList) ++ entryPath basePath group key

/-- The diagnostic text of a client. -/
def describeClient (basePath : String) : String :=
  s!"HttpTransport \x7b base_path: {Text.quoted basePath} \x7d"

/-- The longest URL that is requested, in bytes. -/
def maxUrlBytes : Nat := 65534

/-- The request line for a URL, if a request can be made. -/
def requestLine? (url : String) : Option String := do
  let parsed ← Url.parse? url
  if url.utf8ByteSize ≤ maxUrlBytes then some ("GET " ++ parsed.target ++ " HTTP/1.1") else none

/-- What comes back from a peer. -/
inductive Reply where
  /-- no response: no connection, a closed one, or time was up -/
  | nothing
  /-- a response whose body breaks off -/
  | cut (response : Response)
  | whole (response : Response)

/-! ## Reading responses -/

/-- Whether a character may stand in the name of a header. -/
def isTokenChar (c : Char) : Bool :=
  c.isAlphanum || "!#$%&'*+-.^_|~".toList.contains c || c.toNat == 0x60

/-- Whether a header can be read at all. -/
def isReadable (header : String × String) : Bool :=
  !header.1.isEmpty && header.1.toList.all isTokenChar &&
    header.2.toList.all fun c ↦ (0x20 ≤ c.toNat && c.toNat ≠ 0x7f) || c = '\t'

/-- The value of the first header of a name, without blanks around it. -/
def Response.header? (response : Response) (name : String) : Option String := do
  let (_, value) ← response.headers.find? fun header ↦ header.1.toLower = name
  let isPad (c : Char) : Bool := c = ' ' || c = '\t'
  some (String.ofList ((value.toList.dropWhile isPad).reverse.dropWhile isPad).reverse)

/-- Whether the response sends the client elsewhere. -/
def Response.isRedirect (response : Response) : Bool :=
  [301, 302, 303, 307, 308].contains response.status && (response.header? "location").isSome

/-- Whether the response can be the answer to a request. Informational statuses are not, other
than the one that changes the protocol. -/
def Response.isFinal (response : Response) : Bool :=
  (response.status == 101 || (200 ≤ response.status && response.status ≤ 999)) &&
    response.headers.all isReadable

/-- Whether a response of this status comes without a body, whatever follows it. -/
def hasNoBody (status : Nat) : Bool :=
  status == 101 || status == 204 || status == 304

/-- What the fetch of a key comes to when a final response has arrived at `now`; the body is
missing if it broke off. -/
def readResponse (now : Millis) (peer key : String) (response : Response)
    (body : Option ByteArray) : Outcome :=
  if response.status = 200 then
    match body with
    | some data =>
        .ok (.make now data ((response.header? expiresHeader).bind Decimal.word?))
    | none => .error (.transportFailure peer "error decoding response body")
  else if response.status = 404 then .error (.notFound key)
  else
    let text := if hasNoBody response.status then "" else Text.lossy (body.getD .empty)
    .error (.transportFailure peer
      ("HTTP " ++ statusLine response.status ++ ": " ++ Text.trim text))

/-- The reason of a fetch that brought no response. -/
def noResponse (url : String) : String :=
  "error sending request for url (" ++ url ++ ")"

/-- What the fetch of a key from a URL comes to. -/
def readReply (now : Millis) (peer url key : String) (reply : Reply) : Outcome :=
  let read (response : Response) (body : Option ByteArray) : Outcome :=
    if !response.isFinal then .error (.transportFailure peer (noResponse url))
    else if response.isRedirect then
      .error (.transportFailure peer ("error following redirect for url (" ++ url ++ ")"))
    else readResponse now peer key response body
  match reply with
  | .nothing => .error (.transportFailure peer (noResponse url))
  | .cut response => read response none
  | .whole response => read response (some response.body)

end ReadThrough.Http
