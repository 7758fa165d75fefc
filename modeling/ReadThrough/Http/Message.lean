import ReadThrough.Fault

/-!
# Responses

A response is a status with headers and a body. Faults map to statuses by cause: an absent value
is not found, an unknown group is the caller's mistake, a failing peer is a bad gateway, running
out of time is a gateway timeout, and the rest is internal.
-/

namespace ReadThrough.Http

/-- A response before it is put on the wire. -/
structure Response where
  status : Nat
  headers : List (String × String)
  body : ByteArray
deriving DecidableEq

/-- The header with the remaining lifetime of a value, in milliseconds. -/
def expiresHeader : String := "x-peercache-expires-in-ms"

/-- The content type of plain messages. -/
def textType : String := "text/plain; charset=utf-8"

/-- The content type of values. -/
def valueType : String := "application/octet-stream"

/-- A response of one content type. -/
def Response.typed (status : Nat) (contentType : String) (body : ByteArray) : Response :=
  ⟨status, [("content-type", contentType)], body⟩

/-- A plain message. -/
def Response.message (status : Nat) (text : String) : Response :=
  .typed status textType text.toUTF8

/-- The status that a fault is answered with. -/
def statusOf : Fault → Nat
  | .notFound _ => 404
  | .groupNotFound _ => 400
  | .transportFailure .. => 502
  | .cancelled => 504
  | .loaderFailure .. | .configuration _ | .internal _ => 500

/-- The response to a fault. -/
def Response.fault (fault : Fault) : Response :=
  .message (statusOf fault) fault.message

/-- The response to a get that was served at `now`. A lifetime travels as what is left of it, cut
off to a 64-bit word. -/
def Response.served (now : Millis) : Outcome → Response
  | .ok value =>
      let plain := Response.typed 200 valueType value.data
      match value.remaining now with
      | none => plain
      | some left =>
          { plain with
            headers := plain.headers ++ [(expiresHeader, toString (left % UInt64.size))] }
  | .error fault => .fault fault

end ReadThrough.Http
