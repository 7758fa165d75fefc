import ReadThrough.Files.Path

/-!
# File trees

The files and directories below a working directory, and what reading a path gives. A path is
walked segment by segment: whatever is followed by another segment, be it empty or a single dot,
must be a directory.
-/

namespace ReadThrough.Files

/-- Why a path cannot be read. -/
inductive ReadFault where
  | missing
  | notDirectory
  | isDirectory
  | nameTooLong
  | nulByte
  | notText
deriving DecidableEq, Repr

/-- The text shown for a fault. -/
def ReadFault.message : ReadFault → String
  | .missing => "No such file or directory (os error 2)"
  | .notDirectory => "Not a directory (os error 20)"
  | .isDirectory => "Is a directory (os error 21)"
  | .nameTooLong => "File name too long (os error 36)"
  | .nulByte => "file name contained an unexpected NUL byte"
  | .notText => "stream did not contain valid UTF-8"

/-- What is at a place of the tree. -/
inductive Item where
  | file (data : ByteArray)
  | directory

/-- Files and directories by the names that lead to them. A directory that holds something need
not be listed itself. -/
structure Tree where
  entries : List (List (List Char) × Item)

namespace Tree

/-- A working directory that holds nothing. -/
def empty : Tree :=
  ⟨[]⟩

/-- The names along a relative path. -/
def names (path : String) : List (List Char) :=
  (Text.segments path.toList).filter fun s ↦ s ≠ [] ∧ s ≠ ['.']

/-- Take what is at a relative path out. -/
def remove (tree : Tree) (path : String) : Tree :=
  ⟨tree.entries.filter fun e ↦ e.1 ≠ names path⟩

/-- Put a file or a directory at a relative path, in place of what is there. -/
def add (tree : Tree) (path : String) (item : Item) : Tree :=
  ⟨(names path, item) :: (tree.remove path).entries⟩

/-- What the names lead to from the working directory. -/
def item? (tree : Tree) (names : List (List Char)) : Option Item :=
  match tree.entries.find? fun e ↦ e.1 = names with
  | some (_, item) => some item
  | none =>
      if names = [] ∨ tree.entries.any fun e ↦ names.isPrefixOf e.1 then some .directory else none

/-- Where a walk is: at names below the working directory, or some levels above it. -/
inductive Place where
  | inside (names : List (List Char))
  | above (levels : Nat)

/-- The longest name of a file, in bytes. -/
def maxNameBytes : Nat := 255

/-- The longest path, in bytes. -/
def maxPathBytes : Nat := 4095

/-- The number of bytes of some characters. -/
def byteLength (cs : List Char) : Nat :=
  (String.ofList cs).utf8ByteSize

/-- What is at a place. -/
def itemAt? (tree : Tree) : Place → Option Item
  | .inside names => tree.item? names
  | .above _ => some .directory

/-- Go up one level. -/
def Place.up : Place → Place
  | .inside names => if names = [] then .above 1 else .inside names.dropLast
  | .above levels => .above (levels + 1)

/-- Go down to a name. Nothing is known above the working directory. -/
def Place.down (place : Place) (name : List Char) : Option Place :=
  match place with
  | .inside names => some (.inside (names ++ [name]))
  | .above _ => none

/-- Walk the segments of a path from a place. -/
def walk (tree : Tree) (place : Place) : List (List Char) → Except ReadFault Item
  | [] =>
      match tree.itemAt? place with
      | some item => .ok item
      | none => .error .missing
  | segment :: rest =>
      match tree.itemAt? place with
      | none => .error .missing
      | some (.file _) => .error .notDirectory
      | some .directory =>
          if segment = [] ∨ segment = ['.'] then tree.walk place rest
          else if segment = ['.', '.'] then tree.walk place.up rest
          else if maxNameBytes < byteLength segment then .error .nameTooLong
          else
            match place.down segment with
            | none => .error .missing
            | some below => tree.walk below rest

/-- Find what a path leads to. An absolute path leads nowhere but to the root directory. -/
def find (tree : Tree) (path : List Char) : Except ReadFault Item :=
  if path.any (·.toNat = 0) then .error .nulByte
  else if path = [] then .error .missing
  else if maxPathBytes < byteLength path then .error .nameTooLong
  else if path.head? = some '/' then
    if path.all (· = '/') then .ok .directory else .error .missing
  else tree.walk (.inside []) (Text.segments path)

/-- Read the file at a path. -/
def read (tree : Tree) (path : List Char) : Except ReadFault ByteArray :=
  match tree.find path with
  | .error fault => .error fault
  | .ok .directory => .error .isDirectory
  | .ok (.file data) => .ok data

/-- Read the text of the file at a path. -/
def readText (tree : Tree) (path : List Char) : Except ReadFault String :=
  match tree.read path with
  | .error fault => .error fault
  | .ok data =>
      match String.fromUTF8? data with
      | none => .error .notText
      | some text => .ok text

end Tree

end ReadThrough.Files
