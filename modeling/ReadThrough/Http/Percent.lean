/-!
# Percent coding

Encoding keeps the unreserved ASCII characters and writes every other byte of the UTF-8 form as a
percent sign with two upper-case hexadecimal digits. Decoding accepts digits of either case and
leaves a percent sign alone where two digits do not follow; the result must be UTF-8 again.
-/

namespace ReadThrough.Http.Percent

/-- Whether a byte stands for itself: letters, digits and the four marks. -/
def isUnreserved (b : UInt8) : Bool :=
  (0x30 ≤ b && b ≤ 0x39) || (0x41 ≤ b && b ≤ 0x5a) || (0x61 ≤ b && b ≤ 0x7a) ||
    b == 0x2d || b == 0x5f || b == 0x2e || b == 0x7e

/-- The byte of an upper-case hexadecimal digit. -/
def hexByte (n : UInt8) : UInt8 :=
  if n < 10 then 0x30 + n else 0x37 + n

/-- The value of a hexadecimal digit of either case. -/
def hexValue? (b : UInt8) : Option UInt8 :=
  if 0x30 ≤ b && b ≤ 0x39 then some (b - 0x30)
  else if 0x41 ≤ b && b ≤ 0x46 then some (b - 0x37)
  else if 0x61 ≤ b && b ≤ 0x66 then some (b - 0x57)
  else none

/-- The bytes that one byte is written with. -/
def encodeByte (b : UInt8) : List UInt8 :=
  if isUnreserved b then [b] else [0x25, hexByte (b >>> 4), hexByte (b &&& 0x0f)]

/-- Encode bytes. -/
def encodeBytes (bytes : List UInt8) : List UInt8 :=
  bytes.flatMap encodeByte

/-- Decode bytes. A percent sign that starts no escape stands for itself. -/
def decodeBytes : List UInt8 → List UInt8
  | [] => []
  | [a] => [a]
  | [a, b] => [a, b]
  | a :: b :: c :: rest =>
      if a = 0x25 then
        match hexValue? b, hexValue? c with
        | some high, some low => (high <<< 4 ||| low) :: decodeBytes rest
        | _, _ => a :: decodeBytes (b :: c :: rest)
      else a :: decodeBytes (b :: c :: rest)

/-- Encode a text. The result is ASCII. -/
def encode (text : String) : String :=
  String.ofList ((encodeBytes text.toUTF8.toList).map fun b ↦ Char.ofNat b.toNat)

/-- Decode a text; nothing if the bytes are not UTF-8. -/
def decode? (text : String) : Option String :=
  String.fromUTF8? ⟨(decodeBytes text.toUTF8.toList).toArray⟩

end ReadThrough.Http.Percent
