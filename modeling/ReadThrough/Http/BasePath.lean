/-!
# Base paths

The paths under which peers ask for values share a leading part. Slashes around it do not matter:
the normal form has exactly one on either side, and is a single slash if nothing else is left.
-/

namespace ReadThrough.Http

/-- The base path where no other is given. -/
def defaultBasePath : String := "/_peercache/"

/-- Drop slashes from the front. -/
def dropSlashes (cs : List Char) : List Char :=
  cs.dropWhile (· = '/')

/-- Drop slashes from the end. -/
def dropEndSlashes (cs : List Char) : List Char :=
  (dropSlashes cs.reverse).reverse

/-- The normal form of a base path. -/
def normalizeBasePath (path : String) : String :=
  match dropEndSlashes (dropSlashes path.toList) with
  | [] => "/"
  | cs => String.ofList ('/' :: cs ++ ['/'])

end ReadThrough.Http
