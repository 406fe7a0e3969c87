import RoutePlan.Json.Value

/-!
# The canonical text of a value

A value is written without blanks; a text escapes only the quote, the backslash and the control
characters below U+0020. The canonical text (`Json.canonical`) is that of the normal form, so it
does not depend on the order in which the members of an object were written. How a number is
written is a parameter of the writer (`Json.charsWith`), since nothing else depends on it.
-/

namespace RoutePlan

/-- The hexadecimal digit of a number below sixteen, in lower case. -/
def hexDigit (n : Nat) : Char := Nat.digitChar (n % 16)

/-- A character inside a quoted text. -/
def escapeChar (c : Char) : List Char :=
  if c = '"' then ['\\', '"']
  else if c = '\\' then ['\\', '\\']
  else if c = '\n' then ['\\', 'n']
  else if c = '\r' then ['\\', 'r']
  else if c = '\t' then ['\\', 't']
  else if c = '\x08' then ['\\', 'b']
  else if c = '\x0c' then ['\\', 'f']
  else if c.toNat < 0x20 then ['\\', 'u', '0', '0', hexDigit (c.toNat / 16), hexDigit c.toNat]
  else [c]

/-- A text in quotes. -/
def quoted (s : String) : List Char := '"' :: (s.toList.flatMap escapeChar ++ ['"'])

namespace Json

section
variable (number : Number → List Char)

mutual

/-- The text of a value, the members of an object in the order written. -/
def charsWith : Json → List Char
  | .null => ['n', 'u', 'l', 'l']
  | .bool true => ['t', 'r', 'u', 'e']
  | .bool false => ['f', 'a', 'l', 's', 'e']
  | .num n => number n
  | .str s => quoted s
  | .arr [] => ['[', ']']
  | .arr (item :: rest) => '[' :: (charsWith item ++ moreItems rest)
  | .obj [] => ['{', '}']
  | .obj ((key, value) :: rest) =>
    '{' :: (quoted key ++ ':' :: (charsWith value ++ moreMembers rest))

/-- The items after the first one, and the closing bracket. -/
def moreItems : List Json → List Char
  | [] => [']']
  | item :: rest => ',' :: (charsWith item ++ moreItems rest)

/-- The members after the first one, and the closing brace. -/
def moreMembers : List (String × Json) → List Char
  | [] => ['}']
  | (key, value) :: rest => ',' :: (quoted key ++ ':' :: (charsWith value ++ moreMembers rest))

end

/-- The canonical text of a value, for a given way of writing numbers. -/
def canonicalWith (j : Json) : String := String.ofList (charsWith number j.normal)

end

/-- The text of a value, the members of an object in the order written. -/
def write (j : Json) : String := String.ofList (charsWith Number.text j)

/-- The canonical text of a value. -/
def canonical (j : Json) : String := canonicalWith Number.text j

end Json
end RoutePlan
