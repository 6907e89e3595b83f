import RequestBoard.Json.Basic

/-!
# Writing JSON

`Json.write` gives the one-line text of a value: no blanks, members in the order in which the object
holds them, and in a string only the quote, the backslash and the control characters escaped.
-/

namespace RequestBoard

namespace Json

/-- The four hexadecimal digits of a code unit. -/
def hexDigits (n : Nat) : List Char :=
  [n / 4096 % 16, n / 256 % 16, n / 16 % 16, n % 16].map Nat.digitChar

/-- A character inside a quoted string. -/
def escape (c : Char) : List Char :=
  if c = '"' then ['\\', '"']
  else if c = '\\' then ['\\', '\\']
  else if c = '\n' then ['\\', 'n']
  else if c = '\r' then ['\\', 'r']
  else if c = '\t' then ['\\', 't']
  else if c.toNat < 0x20 then '\\' :: 'u' :: hexDigits c.toNat
  else [c]

/-- A quoted string. -/
def quote (text : String) : List Char := '"' :: (text.toList.flatMap escape ++ ['"'])

mutual

/-- The characters of a value. -/
def chars : Json → List Char
  | .null => "null".toList
  | .bool true => "true".toList
  | .bool false => "false".toList
  | .number n => n.text.toList
  | .string text => quote text
  | .array [] => ['[', ']']
  | .array (first :: rest) => '[' :: (chars first ++ charsOfItems rest)
  | .object [] => ['{', '}']
  | .object ((name, first) :: rest) =>
    '{' :: (quote name ++ ':' :: (chars first ++ charsOfMembers rest))

/-- The items after the first one, and the closing bracket. -/
def charsOfItems : List Json → List Char
  | [] => [']']
  | item :: rest => ',' :: (chars item ++ charsOfItems rest)

/-- The members after the first one, and the closing brace. -/
def charsOfMembers : List (String × Json) → List Char
  | [] => ['}']
  | (name, value) :: rest => ',' :: (quote name ++ ':' :: (chars value ++ charsOfMembers rest))

end

/-- The text of a value. -/
def write (value : Json) : String := String.ofList (chars value)

end Json

end RequestBoard
