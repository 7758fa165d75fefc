import ReadThrough.Http.Percent
import ReadThrough.Text.Segments

/-!
# URLs of requests

What a request line takes from an HTTP URL: the path without dot segments, and the query. Blanks
around the URL and line breaks in it are dropped, a backslash counts as a slash, and characters
that may not stand in a path or a query are percent-encoded, those that already are staying as
they are. A fragment is not sent.
-/

namespace ReadThrough.Http

/-- An HTTP URL, taken apart. -/
structure Url where
  authority : List Char
  /-- the segments of the path, after its leading slash -/
  segments : List (List Char)
  query : Option (List Char)
deriving DecidableEq, Repr

namespace Url

/-! ## Dot segments -/

/-- The spellings of a dot in a dot segment. -/
def isDotSegment (segment : List Char) : Bool :=
  let lower := segment.map Char.toLower
  lower == ['.'] || lower == ['%', '2', 'e']

/-- Whether a segment leads one level up: two dots in any spelling. -/
def isParentSegment (segment : List Char) : Bool :=
  let lower := segment.map Char.toLower
  lower == ['.', '.'] || lower == ['.', '%', '2', 'e'] || lower == ['%', '2', 'e', '.'] ||
    lower == ['%', '2', 'e', '%', '2', 'e']

/-- Follow the dot segments. The segments so far are given in reverse; a dot segment at the end
leaves the trailing slash. -/
def followDots (above : List (List Char)) : List (List Char) → List (List Char)
  | [] => above.reverse
  | [last] =>
      if isParentSegment last then ([] :: above.tail).reverse
      else if isDotSegment last then ([] :: above).reverse
      else (last :: above).reverse
  | segment :: rest =>
      if isParentSegment segment then followDots above.tail rest
      else if isDotSegment segment then followDots above rest
      else followDots (segment :: above) rest

/-- The segments of a path without dot segments. -/
def removeDotSegments (path : List (List Char)) : List (List Char) :=
  followDots [] path

/-! ## Encoding -/

/-- Whether a byte may not stand in a URL at all. -/
def isUnsafe (b : UInt8) : Bool :=
  b ≤ 0x20 || 0x7f ≤ b || b == 0x22 || b == 0x23 || b == 0x3c || b == 0x3e

/-- Whether a byte may not stand in a path. -/
def isUnsafeInPath (b : UInt8) : Bool :=
  isUnsafe b || b == 0x3f || b == 0x60 || b == 0x7b || b == 0x7d

/-- Whether a byte may not stand in a query. -/
def isUnsafeInQuery (b : UInt8) : Bool :=
  isUnsafe b || b == 0x27

/-- Percent-encode the bytes that may not stand somewhere. -/
def escape (isUnsafe : UInt8 → Bool) (cs : List Char) : List Char :=
  (String.ofList cs).toUTF8.toList.flatMap fun b ↦
    if isUnsafe b then ['%', Char.ofNat (Percent.hexByte (b >>> 4)).toNat,
      Char.ofNat (Percent.hexByte (b &&& 0x0f)).toNat]
    else [Char.ofNat b.toNat]

/-! ## Reading -/

/-- Drop blanks and control characters around a URL, and line breaks and tabs in it. -/
def clean (cs : List Char) : List Char :=
  let front := cs.dropWhile fun c ↦ c.toNat ≤ 0x20
  let trimmed := (front.reverse.dropWhile fun c ↦ c.toNat ≤ 0x20).reverse
  trimmed.filter fun c ↦ c ≠ '\t' ∧ c ≠ '\n' ∧ c ≠ '\r'

/-- What follows the scheme and the slashes behind it. -/
def afterScheme? (cs : List Char) : Option (List Char) :=
  let scheme := (cs.takeWhile (· ≠ ':')).map Char.toLower
  if scheme = "http".toList ∨ scheme = "https".toList then
    match cs.dropWhile (· ≠ ':') with
    | [] => none
    | _ :: rest => some (rest.dropWhile fun c ↦ c = '/' ∨ c = '\\')
  else none

/-- Whether a character ends the authority. -/
def endsAuthority (c : Char) : Bool :=
  c = '/' || c = '\\' || c = '?' || c = '#'

/-- Whether the text is a port, possibly left out. -/
def isPort (cs : List Char) : Bool :=
  cs.all Char.isDigit && (String.ofList ('0' :: cs)).toNat?.any (· ≤ 0xffff)

/-- Whether the text is a host with or without a port. -/
def isAuthority (cs : List Char) : Bool :=
  let host := cs.takeWhile (· ≠ ':')
  !host.isEmpty && host.all (fun c ↦ c.isAlphanum || c = '-' || c = '.' || c = '_') &&
    isPort ((cs.dropWhile (· ≠ ':')).drop 1)

/-- The segments of the path that follows an authority. -/
def readPath (cs : List Char) : List (List Char) :=
  let path := (cs.takeWhile fun c ↦ c ≠ '?' ∧ c ≠ '#').map fun c ↦ if c = '\\' then '/' else c
  (removeDotSegments (Text.segments (path.drop 1))).map (escape isUnsafeInPath)

/-- The query that follows an authority and a path. -/
def readQuery (cs : List Char) : Option (List Char) :=
  match (cs.takeWhile (· ≠ '#')).dropWhile (· ≠ '?') with
  | [] => none
  | _ :: query => some (escape isUnsafeInQuery query)

/-- Take a URL apart. -/
def parse? (text : String) : Option Url := do
  let rest ← afterScheme? (clean text.toList)
  let authority := rest.takeWhile fun c ↦ !endsAuthority c
  let tail := rest.dropWhile fun c ↦ !endsAuthority c
  if isAuthority authority then
    some ⟨authority, readPath tail, readQuery tail⟩
  else none

/-! ## Writing -/

/-- The path with its query, as it stands in a request line. -/
def target (url : Url) : String :=
  let path := '/' :: (url.segments.intersperse ['/']).flatten
  let query :=
    match url.query with
    | none => []
    | some query => '?' :: query
  String.ofList (path ++ query)

end Url

end ReadThrough.Http
