import ReadThrough.Fault
import ReadThrough.Files.Tree

/-!
# Loading files

A loader that serves keys as paths below a root directory. A key is accepted only if all of its
components are names, so that it cannot leave the root; any other key has no value, and the tree
is not asked.
-/

namespace ReadThrough

/-- A root directory in a tree, with the lifetime that loaded values get. -/
structure FileLoader where
  tree : Files.Tree
  root : String
  ttl : Option Millis

namespace FileLoader

/-- The path of a key below the root, if the key is accepted. -/
def resolve? (loader : FileLoader) (key : String) : Option (List Char) :=
  if key ≠ "" ∧ (Files.components key.toList).all Files.Component.isName then
    some (Files.join loader.root.toList key.toList)
  else none

/-- Load a key. A missing file is an absent value, any other fault is reported with the path. -/
def load (loader : FileLoader) (now : Millis) (key : String) : LoadAnswer :=
  match loader.resolve? key with
  | none => .error .notFound
  | some path =>
      match loader.tree.read path with
      | .ok data => .ok (.make now data loader.ttl)
      | .error .missing => .error .notFound
      | .error fault => .error (.failed (String.ofList path ++ ": " ++ fault.message))

end FileLoader

end ReadThrough
