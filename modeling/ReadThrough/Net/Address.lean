import ReadThrough.Decimal.Unsigned
import ReadThrough.Fault

/-!
# Listen addresses

A listen address is four decimal numbers between dots, or an IPv6 address in brackets with an
optional zone, followed by a colon and a port. Numbers between dots have no leading zeros; the
groups of an IPv6 address have up to four hexadecimal digits, its last two may be written as an
IPv4 address, and a double colon stands for at least one group of zeros.
-/

namespace ReadThrough.Net

/-- Read a given character. -/
def skip (c : Char) : List Char → Option (List Char)
  | [] => none
  | d :: rest => if d = c then some rest else none

/-- Read a number in digits that must be at most `limit`. -/
def readPort (limit : Nat) (cs : List Char) : Option (Nat × List Char) := do
  let n ← Decimal.digits? (cs.takeWhile Char.isDigit)
  if n ≤ limit then some (n, cs.dropWhile Char.isDigit) else none

/-- Read one of the numbers between dots. -/
def readOctet (cs : List Char) : Option (Nat × List Char) := do
  let digits := cs.takeWhile Char.isDigit
  let n ← Decimal.digits? digits
  if digits.length ≤ 3 ∧ n ≤ 255 ∧ (digits.head? ≠ some '0' ∨ digits.length = 1) then
    some (n, cs.dropWhile Char.isDigit)
  else none

/-- Read four numbers between dots. -/
def readIpv4 (cs : List Char) : Option (List Nat × List Char) := do
  let (a, cs) ← readOctet cs
  let (b, cs) ← readOctet (← skip '.' cs)
  let (c, cs) ← readOctet (← skip '.' cs)
  let (d, cs) ← readOctet (← skip '.' cs)
  some ([a, b, c, d], cs)

/-- The value of a hexadecimal digit. -/
def hexDigit? (c : Char) : Option Nat :=
  if '0' ≤ c ∧ c ≤ '9' then some (c.toNat - 0x30)
  else if 'a' ≤ c ∧ c ≤ 'f' then some (c.toNat - 0x57)
  else if 'A' ≤ c ∧ c ≤ 'F' then some (c.toNat - 0x37)
  else none

/-- Read one group of an IPv6 address. -/
def readGroup (cs : List Char) : Option (Nat × List Char) :=
  let digits := cs.takeWhile fun c ↦ (hexDigit? c).isSome
  if 1 ≤ digits.length ∧ digits.length ≤ 4 then
    some (digits.foldl (fun n c ↦ 16 * n + (hexDigit? c).getD 0) 0, cs.drop digits.length)
  else none

/-- Read what stands behind a colon, which is left out before the first group. -/
def separated {α : Type} (first : Bool) (read : List Char → Option (α × List Char))
    (cs : List Char) : Option (α × List Char) :=
  if first then read cs else (skip ':' cs).bind read

/-- Read up to `room` groups. The answer tells whether the last two were an IPv4 address. -/
def readGroups (first : Bool) : (room : Nat) → List Char → (List Nat × Bool) × List Char
  | 0, cs => (([], false), cs)
  | room + 1, cs =>
      let dotted := if room = 0 then none else separated first readIpv4 cs
      match dotted with
      | some (octets, rest) =>
          (((match octets with
            | [a, b, c, d] => [256 * a + b, 256 * c + d]
            | _ => []), true), rest)
      | none =>
          match separated first readGroup cs with
          | none => (([], false), cs)
          | some (group, rest) =>
              let ((groups, dotted), rest) := readGroups false room rest
              ((group :: groups, dotted), rest)

/-- Read an IPv6 address as its eight groups. -/
def readIpv6 (cs : List Char) : Option (List Nat × List Char) :=
  let ((head, dotted), rest) := readGroups true 8 cs
  if head.length = 8 then some (head, rest)
  else if dotted then none
  else do
    let rest ← skip ':' (← skip ':' rest)
    let ((tail, _), rest) := readGroups true (7 - head.length) rest
    some (head ++ List.replicate (8 - head.length - tail.length) 0 ++ tail, rest)

/-- An address to listen on. -/
inductive Address where
  | v4 (octets : List Nat) (port : Nat)
  | v6 (groups : List Nat) (zone port : Nat)
deriving DecidableEq, Repr

/-- Read the port behind a colon at the end of an address. -/
def readEnd? (cs : List Char) : Option Nat := do
  let (port, rest) ← readPort 0xffff (← skip ':' cs)
  if rest = [] then some port else none

/-- Read a zone behind a percent sign. A zone that cannot be read is not there. -/
def readZone (cs : List Char) : Nat × List Char :=
  ((skip '%' cs).bind (readPort 0xffffffff)).getD (0, cs)

/-- Read an address. -/
def Address.parse? (text : String) : Option Address :=
  let v4 : Option Address := do
    let (octets, rest) ← readIpv4 text.toList
    some (.v4 octets (← readEnd? rest))
  let v6 : Option Address := do
    let (groups, rest) ← readIpv6 (← skip '[' text.toList)
    let (zone, rest) := readZone rest
    some (.v6 groups zone (← readEnd? (← skip ']' rest)))
  v4 <|> v6

/-- Read an address to listen on, or refuse it. -/
def listenAddress (text : String) : Except Fault Address :=
  match Address.parse? text with
  | some address => .ok address
  | none =>
      .error (.configuration
        ("Invalid listen address " ++ text ++ ": invalid socket address syntax"))

/-- The longest run of zero groups, as its beginning and its length; the first of equally long
ones. -/
def longestZeros (groups : List Nat) : Nat × Nat :=
  let starts := (List.range groups.length).map fun i ↦
    (i, ((groups.drop i).takeWhile (· = 0)).length)
  starts.foldl (fun best run ↦ if best.2 < run.2 then run else best) (0, 0)

/-- Groups in hexadecimal digits between colons. -/
def groupsText (groups : List Nat) : String :=
  ":".intercalate (groups.map fun g ↦ String.ofList (Nat.toDigits 16 g))

/-- Numbers between dots. -/
def octetsText (octets : List Nat) : String :=
  ".".intercalate (octets.map toString)

/-- The text of an IPv6 address. The longest run of two or more zero groups is left out, and an
IPv4 address inside one is written as such. -/
def ipv6Text (groups : List Nat) : String :=
  match groups with
  | [0, 0, 0, 0, 0, 0xffff, high, low] =>
      "::ffff:" ++ octetsText [high / 256, high % 256, low / 256, low % 256]
  | _ =>
      let (start, length) := longestZeros groups
      if 1 < length then
        groupsText (groups.take start) ++ "::" ++ groupsText (groups.drop (start + length))
      else groupsText groups

/-- The text of an address. -/
def Address.text : Address → String
  | .v4 octets port => octetsText octets ++ ":" ++ toString port
  | .v6 groups zone port =>
      let zoneText := if zone = 0 then "" else "%" ++ toString zone
      "[" ++ ipv6Text groups ++ zoneText ++ "]:" ++ toString port

/-- The fault of an address that another listener holds. -/
def addressInUse (address : String) : Fault :=
  .internal ("Failed to bind " ++ address ++ ": Address already in use (os error 98)")

end ReadThrough.Net
