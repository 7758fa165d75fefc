/-!
# Shares

Entries that are numbered together may belong to different owners. The share of an owner lists its
entries in order, and the rank of an entry is its number there.
-/

namespace ReadThrough

variable {O A : Type} [BEq O]

/-- The entries of one owner, given the owners of all entries. -/
def share (owner : O) : List O → List A → List A
  | [], _ | _, [] => []
  | other :: owners, entry :: entries =>
      if other == owner then entry :: share owner owners entries else share owner owners entries

/-- How many of the entries before a number belong to an owner. -/
def rank (owner : O) (owners : List O) (number : Nat) : Nat :=
  (owners.take number).count owner

/-- The numbers, among those given, of entries of one owner, as they are numbered in its share. -/
def ranks (owner : O) (owners : List O) (numbers : List Nat) : List Nat :=
  (numbers.filter fun number ↦ owners[number]? == some owner).map (rank owner owners)

end ReadThrough
