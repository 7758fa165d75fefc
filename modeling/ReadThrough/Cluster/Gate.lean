/-!
# Gates

A gate hands out permits. Those who wait for one are served in the order in which they came, and a
permit is granted to the first of them as soon as there is one, whether or not it is taken up at
once.
-/

namespace ReadThrough

/-- A gate with its free permits, those who wait in order, and those who were granted a permit
that they have not taken up yet. -/
structure Gate where
  name : String
  permits : Nat
  waiting : List Nat
  granted : List Nat
deriving DecidableEq, Repr

namespace Gate

/-- A gate without permits. -/
def closed (name : String) : Gate :=
  ⟨name, 0, [], []⟩

/-- Grant free permits to those who wait, first come first served. -/
def grant (gate : Gate) : Gate :=
  { gate with
    permits := gate.permits - gate.waiting.length
    granted := gate.granted ++ gate.waiting.take gate.permits
    waiting := gate.waiting.drop gate.permits }

/-- Add permits. -/
def add (gate : Gate) (permits : Nat) : Gate :=
  grant { gate with permits := gate.permits + permits }

/-- Ask for a permit. -/
def ask (gate : Gate) (who : Nat) : Gate :=
  grant { gate with waiting := gate.waiting ++ [who] }

/-- Take a granted permit up. -/
def take (gate : Gate) (who : Nat) : Gate :=
  { gate with granted := gate.granted.erase who }

/-- Wait no longer, and return a permit that was granted but not taken up. -/
def leave (gate : Gate) (who : Nat) : Gate :=
  grant
    { gate with
      permits := gate.permits + gate.granted.count who
      granted := gate.granted.erase who
      waiting := gate.waiting.erase who }

end Gate

end ReadThrough
