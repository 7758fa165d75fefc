/-!
# Unsigned decimal numbers

An unsigned number is written with one or more ASCII digits and an optional leading plus sign.
Leading zeros carry no meaning. A number beyond the largest word that has to hold it is refused.
-/

namespace ReadThrough.Decimal

/-- The largest 64-bit word. -/
def maxWord : Nat := UInt64.size - 1

/-- The value of an ASCII digit. -/
def digit? (c : Char) : Option Nat :=
  if '0' ≤ c ∧ c ≤ '9' then some (c.toNat - '0'.toNat) else none

/-- Read digits after a number that was already read. -/
def digitsFrom? : Nat → List Char → Option Nat
  | n, [] => some n
  | n, c :: rest => do digitsFrom? (10 * n + (← digit? c)) rest

/-- Read one or more digits. -/
def digits? : List Char → Option Nat
  | [] => none
  | c :: rest => digitsFrom? 0 (c :: rest)

/-- Read an unsigned number that is at most `limit`. -/
def unsigned? (limit : Nat) (text : String) : Option Nat := do
  let digits :=
    match text.toList with
    | '+' :: rest => rest
    | cs => cs
  let n ← digits? digits
  if n ≤ limit then some n else none

/-- Read an unsigned number that fits a 64-bit word. -/
def word? (text : String) : Option Nat :=
  unsigned? maxWord text

end ReadThrough.Decimal
