/-!
# Reading bytes as text, whatever they are

Bytes that are UTF-8 are read as the characters they stand for. Where they are not, the longest
start of a character that is there, or else a single byte, is read as the replacement character,
and reading goes on behind it.
-/

namespace ReadThrough.Text

/-- What stands for bytes that are no character. -/
def replacement : Char := '\ufffd'

/-- The number of bytes that follow a leading byte. -/
def owed (lead : UInt8) : Nat :=
  if 0xc2 ≤ lead ∧ lead ≤ 0xdf then 1
  else if 0xe0 ≤ lead ∧ lead ≤ 0xef then 2
  else if 0xf0 ≤ lead ∧ lead ≤ 0xf4 then 3
  else 0

/-- Whether a byte may follow a leading byte at once. Some leading bytes leave out what would be
written shorter, is a surrogate, or lies beyond the last character. -/
def follows (lead next : UInt8) : Bool :=
  if lead = 0xe0 then 0xa0 ≤ next && next ≤ 0xbf
  else if lead = 0xed then 0x80 ≤ next && next ≤ 0x9f
  else if lead = 0xf0 then 0x90 ≤ next && next ≤ 0xbf
  else if lead = 0xf4 then 0x80 ≤ next && next ≤ 0x8f
  else 0x80 ≤ next && next ≤ 0xbf

/-- Whether a byte may follow later. -/
def isTail (b : UInt8) : Bool :=
  0x80 ≤ b && b ≤ 0xbf

/-- The bytes that belong to a leading byte, as far as they are there. -/
def tailOf (lead : UInt8) (rest : List UInt8) : List UInt8 :=
  match rest.take (owed lead) with
  | [] => []
  | next :: later => if follows lead next then next :: later.takeWhile isTail else []

/-- The character that a leading byte and all bytes owed to it stand for. -/
def assemble (lead : UInt8) (tail : List UInt8) : Char :=
  Char.ofNat
    (tail.foldl (fun n b ↦ n * 64 + (b.toNat - 0x80)) (lead.toNat % (1 <<< (6 - tail.length))))

/-- Read bytes. -/
def lossyChars : List UInt8 → List Char
  | [] => []
  | lead :: rest =>
      if lead < 0x80 then Char.ofNat lead.toNat :: lossyChars rest
      else
        let tail := tailOf lead rest
        (if tail ≠ [] ∧ tail.length = owed lead then assemble lead tail else replacement) ::
          lossyChars (rest.drop tail.length)
termination_by bytes => bytes.length
decreasing_by
  all_goals simp only [List.length_cons, List.length_drop]; omega

/-- Read bytes as a text. -/
def lossy (bytes : ByteArray) : String :=
  String.ofList (lossyChars bytes.toList)

end ReadThrough.Text
