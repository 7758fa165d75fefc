import ReadThrough.Text.Segments

/-!
# Paths

A path is a text whose segments are separated by slashes. Its components leave out what does not
lead anywhere: empty segments, and single dots other than a leading one.
-/

namespace ReadThrough.Files

/-- A part of a path that leads somewhere. -/
inductive Component where
  /-- the leading slash of an absolute path -/
  | root
  /-- a leading single dot -/
  | current
  /-- two dots -/
  | parent
  | name (text : List Char)
deriving DecidableEq, Repr

/-- The component that a segment other than the first stands for, if any. -/
def component? (segment : List Char) : Option Component :=
  if segment = [] ∨ segment = ['.'] then none
  else if segment = ['.', '.'] then some .parent
  else some (.name segment)

/-- The component that the first segment stands for. An empty first segment is a leading slash,
unless the whole path is empty. -/
def firstComponent? (path segment : List Char) : Option Component :=
  if segment = [] then if path = [] then none else some .root
  else if segment = ['.'] then some .current
  else component? segment

/-- The components of a path. -/
def components (path : List Char) : List Component :=
  match Text.segments path with
  | [] => []
  | first :: others => (firstComponent? path first).toList ++ others.filterMap component?

/-- Whether a component is a name. -/
def Component.isName : Component → Bool
  | .name _ => true
  | _ => false

/-- A path below another one, with one slash between them unless the first is empty or ends with
one. An absolute path is below nothing and stands for itself. -/
def join (base below : List Char) : List Char :=
  if below.head? = some '/' then below
  else
    match base.getLast? with
    | none => below
    | some '/' => base ++ below
    | some _ => base ++ '/' :: below

end ReadThrough.Files
