import ReadThrough.Http.Client

/-!
# Request lines

What a server takes from the first line of a request: the method and the path. The target is a
path with or without a query, a URL with a scheme and an authority, an authority alone, or a
single star. What does not have one of these forms is refused before anything looks at it.
-/

namespace ReadThrough.Http

/-- What a request line comes to. -/
inductive Received where
  | request (method path : String)
  /-- refused with a bare status -/
  | malformed (status : Nat)
deriving DecidableEq, Repr

/-- Whether a character may stand in a target. -/
def isTargetChar (c : Char) : Bool :=
  0x21 ≤ c.toNat && c.toNat ≠ 0x7f

/-- Whether a character may stand in the path of a target. -/
def isPathChar (c : Char) : Bool :=
  isTargetChar c && c ≠ '<' && c ≠ '>' && c.toNat ≠ 0x60

/-- Whether a character may stand in the query of a target. -/
def isQueryChar (c : Char) : Bool :=
  isTargetChar c && c ≠ '<' && c ≠ '>' && c ≠ '"'

/-- The path of a target that starts with a slash, or of what follows an authority. -/
def targetPath? (cs : List Char) : Option (List Char) :=
  let path := cs.takeWhile fun c ↦ c ≠ '?' ∧ c ≠ '#'
  let query := (cs.takeWhile (· ≠ '#')).dropWhile (· ≠ '?')
  if path.all isPathChar ∧ query.all isQueryChar then some path else none

/-- Whether a character may stand in a scheme. -/
def isSchemeChar (c : Char) : Bool :=
  c.isAlphanum || c = '+' || c = '-' || c = '.' || c = '~'

/-- What follows the scheme and its two slashes, if there is a scheme. -/
def afterTargetScheme? (cs : List Char) : Option (List Char) :=
  match cs.dropWhile isSchemeChar with
  | ':' :: '/' :: '/' :: rest => some rest
  | _ => none

/-- Where a check of an authority stands. -/
structure AuthorityCheck where
  /-- colons since the last mark that takes them back -/
  colons : Nat
  opened : Bool
  closed : Bool
  /-- whether a percent sign stands outside user information -/
  percent : Bool
  /-- whether the last character was an at sign -/
  atEnd : Bool

/-- Whether a character other than a percent sign may stand in an authority. -/
def isAuthorityChar (c : Char) : Bool :=
  c.isAlphanum || "!$&'()*+,-.:;=@[]_~".toList.contains c

/-- Take one more character of an authority. -/
def AuthorityCheck.next? (check : AuthorityCheck) (c : Char) : Option AuthorityCheck :=
  let later := { check with atEnd := false }
  if c = ':' then if check.colons < 8 then some { later with colons := check.colons + 1 } else none
  else if c = '[' then
    if check.percent || check.opened then none else some { later with opened := true }
  else if c = ']' then
    if !check.opened || check.closed then none
    else some { later with closed := true, colons := 0, percent := false }
  else if c = '@' then some { check with colons := 0, percent := false, atEnd := true }
  else if c = '%' then some { later with percent := true }
  else if isAuthorityChar c then some later
  else none

/-- Whether a text is an authority: a host, with a port behind a colon and user information before
an at sign where there are any. -/
def isTargetAuthority (cs : List Char) : Bool :=
  match cs.foldlM AuthorityCheck.next? ⟨0, false, false, false, false⟩ with
  | none => false
  | some check =>
      check.opened == check.closed && check.colons ≤ 1 && !check.atEnd && !check.percent

/-- Read the path of a target. A URL that ends with its authority has the path of a single slash,
and an authority alone has none. -/
def readTarget? (target : List Char) : Option (List Char) :=
  match target with
  | [] => none
  | ['*'] => some ['*']
  | '/' :: _ => targetPath? target
  | _ =>
      match afterTargetScheme? target with
      | none => if isTargetAuthority target then some [] else none
      | some rest =>
          let ends (c : Char) : Bool := c = '/' || c = '?' || c = '#'
          let authority := rest.takeWhile fun c ↦ !ends c
          if authority ≠ [] ∧ isTargetAuthority authority then
            (targetPath? (rest.dropWhile fun c ↦ !ends c)).map fun path ↦
              if path = [] then ['/'] else path
          else none

/-- Take in a request line. -/
def receive (method target : String) : Received :=
  let isToken := !method.isEmpty && method.toList.all isTokenChar
  if !isToken || target.isEmpty || !target.toList.all isTargetChar then .malformed 400
  else if maxUrlBytes < target.utf8ByteSize then .malformed 414
  else
    match readTarget? target.toList with
    | none => .malformed 400
    | some path => .request method (String.ofList path)

/-- What goes out as the response to a request of a method: the response to HEAD has no body. -/
def Response.sent (response : Response) (method : String) : Response :=
  if method = "HEAD" then { response with body := .empty } else response

end ReadThrough.Http
