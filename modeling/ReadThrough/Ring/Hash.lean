/-!
# The default ring hash

A seeded multiply-and-rotate pass over the bytes, followed by a finaliser that mixes the
length in. The finaliser is a bijection of 64-bit words, and every step of the pass is a
bijection in the running word, so nearby inputs are told apart and then spread over the circle.
-/

namespace ReadThrough.Ring

/-- A hash places a byte string on the circle of 64-bit words. -/
abbrev Hash := List UInt8 → UInt64

/-- The multiplier of the byte pass, which is also its initial word. -/
def seed : UInt64 := 0x517cc1b727220a95

/-- Rotate a word left by five bits. -/
def rotate5 (word : UInt64) : UInt64 :=
  (word <<< 5) ||| (word >>> 59)

/-- Fold one byte into the running word. -/
def absorb (word : UInt64) (byte : UInt8) : UInt64 :=
  (rotate5 word ^^^ byte.toUInt64) * seed

/-- The byte pass: every byte is absorbed in order, starting from the seed. -/
def scramble (bytes : List UInt8) : UInt64 :=
  bytes.foldl absorb seed

/-- Replace the low bits of a word by their difference from the bits 33 places higher. -/
def foldHigh (word : UInt64) : UInt64 :=
  word ^^^ (word >>> 33)

/-- The finaliser: three high-bit folds around two odd multiplications. -/
def finalise (word : UInt64) : UInt64 :=
  foldHigh (foldHigh (foldHigh word * 0xff51afd7ed558ccd) * 0xc4ceb9fe1a85ec53)

/-- The hash used where no other is given. The length enters before the finaliser, so a string
and its extension by bytes that leave the running word unchanged still differ. -/
def defaultHash : Hash := fun bytes ↦
  finalise (scramble bytes ^^^ UInt64.ofNat bytes.length)

end ReadThrough.Ring
