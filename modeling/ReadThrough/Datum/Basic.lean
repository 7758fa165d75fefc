/-!
# Structured data

The trees that settings are read from and reports are written to. Fields of an object keep their
order.
-/

namespace ReadThrough

/-- A tree of structured data. -/
inductive Datum where
  | null
  | bool (value : Bool)
  | integer (value : Int)
  /-- a number that is not written as an integer -/
  | real
  | text (value : String)
  | list (items : List Datum)
  | object (fields : List (String × Datum))
deriving Inhabited

/-- A natural number. -/
def Datum.natural (n : Nat) : Datum :=
  .integer n

end ReadThrough
