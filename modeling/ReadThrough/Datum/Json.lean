import ReadThrough.Datum.Basic

/-!
# Compact JSON text

Objects and lists are written without blanks. In a string the quote, the backslash and the
control characters below the blank are escaped, five of them by a letter; everything else stands
for itself.
-/

namespace ReadThrough.Datum

/-- The hexadecimal digit of a number below sixteen. -/
def hexDigit (n : Nat) : Char :=
  Nat.digitChar n

/-- One character inside a JSON string. -/
def jsonChar (c : Char) : List Char :=
  if c = '"' then ['\\', '"']
  else if c = '\\' then ['\\', '\\']
  else if c.toNat = 8 then ['\\', 'b']
  else if c.toNat = 12 then ['\\', 'f']
  else if c = '\n' then ['\\', 'n']
  else if c = '\r' then ['\\', 'r']
  else if c = '\t' then ['\\', 't']
  else if c.toNat < 0x20 then
    ['\\', 'u', '0', '0', hexDigit (c.toNat / 16), hexDigit (c.toNat % 16)]
  else [c]

/-- A JSON string. -/
def jsonString (text : String) : String :=
  String.ofList ('"' :: text.toList.flatMap jsonChar ++ ['"'])

mutual

/-- Compact JSON text. A number that is no integer has no text of its own and is written as
null. -/
def toJson : Datum → String
  | .null => "null"
  | .bool true => "true"
  | .bool false => "false"
  | .integer n => toString n
  | .real => "null"
  | .text s => jsonString s
  | .list items => "[" ++ ",".intercalate (jsonItems items) ++ "]"
  | .object fields => "\x7b" ++ ",".intercalate (jsonFields fields) ++ "\x7d"

/-- The texts of the items of a list. -/
def jsonItems : List Datum → List String
  | [] => []
  | item :: rest => item.toJson :: jsonItems rest

/-- The texts of the fields of an object. -/
def jsonFields : List (String × Datum) → List String
  | [] => []
  | (name, value) :: rest => (jsonString name ++ ":" ++ value.toJson) :: jsonFields rest

end

end ReadThrough.Datum
