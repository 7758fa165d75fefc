/-!
# Segments between slashes

Paths of files and of URLs are cut at every slash.
-/

namespace ReadThrough.Text

/-- The segments between slashes. There is always one more segment than slashes. -/
def segments : List Char → List (List Char)
  | [] => [[]]
  | c :: rest =>
      if c = '/' then [] :: segments rest
      else
        match segments rest with
        | [] => [[c]]
        | segment :: others => (c :: segment) :: others

end ReadThrough.Text
