import RoutePlan.Json.Canonical

/-!
# The indented text of a value

Every item and every member stands on a line of its own, two spaces deeper than its brackets; empty
brackets stay together.
-/

namespace RoutePlan.Json

/-- A line break followed by `depth` levels of indentation. -/
def lineBreak (depth : Nat) : List Char := '\n' :: List.replicate (2 * depth) ' '

mutual

/-- The indented text of a value whose opening bracket stands at `depth`. -/
def prettyChars (depth : Nat) : Json → List Char
  | .arr (item :: rest) =>
    '[' :: (lineBreak (depth + 1) ++ (prettyChars (depth + 1) item ++ prettyItems depth rest))
  | .obj ((key, value) :: rest) =>
    '{' :: (lineBreak (depth + 1) ++ (quoted key ++ ':' :: ' ' ::
      (prettyChars (depth + 1) value ++ prettyMembers depth rest)))
  | .arr [] => ['[', ']']
  | .obj [] => ['{', '}']
  | .null => charsWith Number.text .null
  | .bool value => charsWith Number.text (.bool value)
  | .num value => charsWith Number.text (.num value)
  | .str value => charsWith Number.text (.str value)

/-- The items after the first one, and the closing bracket. -/
def prettyItems (depth : Nat) : List Json → List Char
  | [] => lineBreak depth ++ [']']
  | item :: rest =>
    ',' :: (lineBreak (depth + 1) ++ (prettyChars (depth + 1) item ++ prettyItems depth rest))

/-- The members after the first one, and the closing brace. -/
def prettyMembers (depth : Nat) : List (String × Json) → List Char
  | [] => lineBreak depth ++ ['}']
  | (key, value) :: rest =>
    ',' :: (lineBreak (depth + 1) ++ (quoted key ++ ':' :: ' ' ::
      (prettyChars (depth + 1) value ++ prettyMembers depth rest)))

end

/-- The indented text of a value, with the members of every object in key order. -/
def pretty (j : Json) : String := String.ofList (prettyChars 0 j.normal)

end RoutePlan.Json
