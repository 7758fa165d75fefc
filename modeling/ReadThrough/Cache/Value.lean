/-!
# Cached values

A value is a payload with an optional instant of expiry on a clock that counts whole
milliseconds. A value is expired from its instant of expiry on, so one made with no lifetime at
all is expired at once.
-/

namespace ReadThrough

/-- Payloads are compared byte by byte. -/
instance (priority := 1100) decEqPayload : DecidableEq ByteArray :=
  ByteArray.instDecidableEq

/-- An instant or a span of time, in milliseconds. -/
abbrev Millis := Nat

/-- A payload, and the instant from which it no longer counts. -/
structure Value where
  data : ByteArray
  expiresAt : Option Millis
deriving DecidableEq

namespace Value

/-- A value that never expires. -/
def lasting (data : ByteArray) : Value :=
  ⟨data, none⟩

/-- A value made at `now` that lives for `ttl`, or for ever where no lifetime is given. -/
def make (now : Millis) (data : ByteArray) (ttl : Option Millis) : Value :=
  ⟨data, ttl.map (now + ·)⟩

/-- Whether the value no longer counts at `now`. -/
def expired (value : Value) (now : Millis) : Bool :=
  value.expiresAt.any (· ≤ now)

/-- The lifetime that is left at `now`, zero once the value is expired. -/
def remaining (value : Value) (now : Millis) : Option Millis :=
  value.expiresAt.map (· - now)

/-- The diagnostic text of a value that never expires. -/
def describeLasting (value : Value) : String :=
  s!"Value \x7b len: {value.data.size}, expires_at: None \x7d"

end Value

/-- The bookkeeping charge of an entry, in bytes. -/
def entryOverhead : Nat := 32

/-- The bytes an entry is charged for: its key, its payload and the bookkeeping charge. -/
def entrySize (key : String) (value : Value) : Nat :=
  key.utf8ByteSize + value.data.size + entryOverhead

end ReadThrough
