/-!
# Whole numbers as doubles

A whole number that passes through a double is rounded to 53 significant bits, a half going to
the even neighbour. It is then written with the fewest significant digits that read back as the
same double, the nearest such number if there are two, and padded with zeros to its full length.
-/

namespace ReadThrough.Decimal

/-- A whole number `mantissa * 2 ^ exponent` with at most 53 significant bits. -/
structure Double where
  mantissa : Nat
  exponent : Nat
deriving DecidableEq, Repr

namespace Double

/-- The number that a double stands for. -/
def toNat (d : Double) : Nat :=
  d.mantissa <<< d.exponent

/-- Round a whole number to 53 significant bits, a half to the even neighbour. -/
def ofNat (n : Nat) : Double :=
  if n < 1 <<< 53 then ⟨n, 0⟩
  else
    let exponent := n.log2 - 52
    let unit := 1 <<< exponent
    let low := n / unit
    let rest := n % unit
    let up := unit < 2 * rest || (2 * rest = unit && low % 2 = 1)
    ⟨if up then low + 1 else low, exponent⟩

/-- Whether a whole number reads back as the double. -/
def readsBack (d : Double) (n : Nat) : Bool :=
  (ofNat n).toNat = d.toNat

/-- The nearest multiple of `unit` that reads back as the double, among the two that surround it.
Of two the lower one wins a tie, which no whole number reaches. -/
def onGrid? (d : Double) (unit : Nat) : Option Nat :=
  let low := d.toNat / unit * unit
  let high := low + unit
  match d.readsBack low, d.readsBack high with
  | true, true => some (if d.toNat - low ≤ high - d.toNat then low else high)
  | true, false => some low
  | false, true => some high
  | false, false => none

/-- The first hit on the grids of `10 ^ places`, `10 ^ (places - 1)`, down to one. -/
def shortestFrom (d : Double) : Nat → Nat
  | 0 => d.toNat
  | places + 1 => (d.onGrid? (10 ^ (places + 1))).getD (d.shortestFrom places)

/-- The number with the fewest significant digits that reads back as the double. -/
def shortest (d : Double) : Nat :=
  if d.toNat = 0 then 0 else d.shortestFrom (Nat.toDigits 10 d.toNat).length

end Double

/-- A natural number as it reads after passing through a double. -/
def naturalText (n : Nat) : String :=
  toString (Double.ofNat n).shortest

/-- An integer as it reads after passing through a double. -/
def integerText : Int → String
  | .ofNat n => naturalText n
  | .negSucc n => "-" ++ naturalText (n + 1)

/-- The quotient of two counts as a double, zero where the divisor is zero. Both counts are
rounded to doubles before they are divided. -/
def ratio (part whole : Nat) : Float :=
  if whole = 0 then 0.0 else (UInt64.ofNat part).toFloat / (UInt64.ofNat whole).toFloat

end ReadThrough.Decimal
