import RoutePlan.Settings.Environment
import RoutePlan.Text.Alphanumeric
import RoutePlan.Text.Blank

/-!
# Files of variables

A file gives values to variables, one in a line. Quotation marks and escapes may carry a value over
line breaks, so the lines that count are put together from those of the file first (`logicalLines`).
A line is empty, a comment, or a name and a value (`readLine`), in which dollar signs stand for
values of other variables (`readValue`). A variable that has a value keeps it; the first line that
cannot be read ends the file. No variable can have a value with the character U+0000, so a file that
gives one cannot be used at all (`Environment.load`).
-/

namespace RoutePlan

/-- The environment in which a variable has a value if it had none; there is no such environment if
the value holds the character U+0000. -/
def Environment.setDefault? (env : Environment) (name value : String) : Option Environment :=
  if (env name).isSome then some env
  else if value.toList.contains '\x00' then none
  else some fun key => if key = name then some value else env key

namespace EnvFile

/-! ## Lines -/

/-- Where in a line a character stands. -/
inductive Place
  | plain
  /-- After a blank outside of quotation marks. -/
  | blank
  /-- After a backslash outside of quotation marks. -/
  | escape
  | singleQuoted
  | singleQuotedEscape
  | doubleQuoted
  | doubleQuotedEscape
  deriving DecidableEq

/-- The place after a character outside of quotation marks. -/
def Place.afterOpen (c : Char) : Place :=
  if c = '\\' then .escape
  else if c = '"' then .doubleQuoted
  else if c = '\'' then .singleQuoted
  else .plain

/-- The place after a character. -/
def Place.after (c : Char) : Place → Place
  | .plain => if isWhite c && c != '\n' && c != '\r' then .blank else .afterOpen c
  | .blank => .afterOpen c
  | .escape => .plain
  | .singleQuoted =>
    if c = '\\' then .singleQuotedEscape else if c = '\'' then .plain else .singleQuoted
  | .singleQuotedEscape => .singleQuoted
  | .doubleQuoted =>
    if c = '\\' then .doubleQuotedEscape else if c = '"' then .plain else .doubleQuoted
  | .doubleQuotedEscape => .doubleQuoted

/-- The part of a line before a comment, and the place at its end: none if a comment follows. -/
def beforeComment : Place → List Char → List Char × Option Place
  | place, [] => ([], some place)
  | place, c :: rest =>
    if place = .blank ∧ c = '#' then ([], none)
    else
      let (before, last) := beforeComment (place.after c) rest
      (c :: before, last)

/-- A text cut after each line break. -/
def cutLines : List Char → List (List Char)
  | [] => []
  | c :: rest =>
    if c = '\n' then [c] :: cutLines rest
    else
      match cutLines rest with
      | [] => [[c]]
      | line :: lines => (c :: line) :: lines

/-- A line without the line break at its end. -/
def withoutBreak (line : List Char) : List Char :=
  match line.reverse with
  | '\n' :: '\r' :: rest => rest.reverse
  | '\n' :: rest => rest.reverse
  | _ => line

/-- The lines that count; `start` is the part of such a line before the lines that are left, and
`place` the place at its end. None stands for a line that the file ends within. -/
def logicalLines (start : List Char) (place : Place) : List (List Char) →
    List (Option (List Char))
  | [] => if place = .plain then [] else [none]
  | line :: rest =>
    if (skipWhite (start ++ line)).head? = some '#' then some [] :: logicalLines [] .plain rest
    else
      match beforeComment place line with
      | (before, none) => some (start ++ before) :: logicalLines [] .plain rest
      | (_, some .plain) => some (withoutBreak (start ++ line)) :: logicalLines [] .plain rest
      | (_, some place) => logicalLines (start ++ line) place rest

/-! ## Values -/

/-- Where in a value a character stands. -/
inductive ValuePlace
  | plain
  | escape
  | singleQuoted
  /-- In a name after a dollar sign. -/
  | name (start : List Char)
  /-- In a name between braces. -/
  | bracedName (start : List Char)
  /-- After the value. -/
  | ended

/-- The character that an escaped one stands for. -/
def unescape? (c : Char) : Option Char :=
  if c = 'n' then some '\n'
  else if c ∈ ['\\', '\'', '"', '$', ' '] then some c
  else none

/-- The value of the variable with a name; a variable without a value counts as empty, and an empty
name is the name of none. -/
def expand (env : Environment) (name : List Char) : List Char :=
  if name.isEmpty then [] else ((env (String.ofList name)).getD "").toList

/-- Reads a value; `quoted` says whether double quotation marks are open. -/
def readValue (env : Environment) (quoted : Bool) : ValuePlace → List Char → Option (List Char)
  | .singleQuoted, [] | .bracedName _, [] => none
  | .name start, [] => if quoted then none else some (expand env start)
  | .plain, [] | .escape, [] | .ended, [] => if quoted then none else some []
  | .ended, c :: rest =>
    if c = ' ' ∨ c = '\t' then readValue env quoted .ended rest
    else if c = '#' then some []
    else none
  | .escape, c :: rest => do
    let c ← unescape? c
    return c :: (← readValue env quoted .plain rest)
  | .singleQuoted, c :: rest =>
    if c = '\'' then readValue env quoted .plain rest
    else (readValue env quoted .singleQuoted rest).map (c :: ·)
  | .name start, c :: rest =>
    if isAlphanumeric c then readValue env quoted (.name (start ++ [c])) rest
    else if c = '\x7b' ∧ start = [] then readValue env quoted (.bracedName []) rest
    else if c = '$' then (readValue env quoted (.name []) rest).map (expand env start ++ ·)
    else (readValue env quoted .plain rest).map (expand env start ++ c :: ·)
  | .bracedName start, c :: rest =>
    if c = '\x7d' then (readValue env quoted .plain rest).map (expand env start ++ ·)
    else readValue env quoted (.bracedName (start ++ [c])) rest
  | .plain, c :: rest =>
    if c = '$' then readValue env quoted (.name []) rest
    else if c = '\\' then readValue env quoted .escape rest
    else if c = '"' then readValue env (!quoted) .plain rest
    else if quoted then (readValue env quoted .plain rest).map (c :: ·)
    else if c = '\'' then readValue env quoted .singleQuoted rest
    else if c = ' ' ∨ c = '\t' then readValue env quoted .ended rest
    else (readValue env quoted .plain rest).map (c :: ·)

/-- The names that follow dollar signs in a text. -/
def references : List Char → List String
  | [] => []
  | '$' :: '\x7b' :: rest => String.ofList (rest.takeWhile (· ≠ '\x7d')) :: references rest
  | '$' :: rest => String.ofList (rest.takeWhile isAlphanumeric) :: references rest
  | _ :: rest => references rest

/-! ## Assignments -/

/-- The name at the front of a line, and the rest. -/
def readName (line : List Char) : Option (List Char × List Char) :=
  match line with
  | c :: _ =>
    if c.isAlpha || c == '_' then some (line.span fun c => c.isAlphanum || c == '_' || c == '.')
    else none
  | [] => none

/-- The text after an equals sign at the front of a line. -/
def skipEquals : List Char → Option (List Char)
  | '=' :: rest => some rest
  | _ => none

/-- A name and the text after its equals sign. A word `export` may stand before the name. -/
def readTarget (line : List Char) : Option (List Char × List Char) := do
  let (name, rest) ← readName line
  match skipEquals (skipWhite rest) with
  | some rest => return (name, rest)
  | none =>
    if String.ofList name = "export" then do
      let (name, rest) ← readName (skipWhite rest)
      return (name, ← skipEquals (skipWhite rest))
    else none

/-- Whether nothing but a comment is left of a line. -/
def isBare (line : List Char) : Bool := line.isEmpty || line.head? == some '#'

/-- A line without the white space at its end. -/
def trimEnd (line : List Char) : List Char := (line.reverse.dropWhile isWhite).reverse

/-- The assignments of a line, of which there is at most one; none if the line cannot be read. -/
def readLine (env : Environment) (line : List Char) : Option (List (String × String)) :=
  let line := skipWhite (trimEnd line)
  if isBare line then some []
  else do
    let (name, rest) ← readTarget line
    let rest := skipWhite rest
    let value ← if isBare rest then some [] else readValue env false .plain rest
    return [(String.ofList name, String.ofList value)]

/-- The environment after the lines up to the first one that cannot be read. -/
def loadLines (env : Environment) : List (Option (List Char)) → Option Environment
  | [] | none :: _ => some env
  | some line :: rest =>
    match readLine env line with
    | none => some env
    | some assignments => do
      let env ← assignments.foldlM (fun env (name, value) => env.setDefault? name value) env
      loadLines env rest

/-- A text without the mark of the byte order at its front. -/
def withoutMark : List Char → List Char
  | '\ufeff' :: rest => rest
  | text => text

/-- The lines that count of a text. -/
def linesOf (text : String) : List (Option (List Char)) :=
  logicalLines [] .plain (cutLines (withoutMark text.toList))

/-- The names that a text may give values to. -/
def targets (text : String) : List String :=
  (linesOf text).filterMap fun line =>
    (line.bind fun line => readTarget (skipWhite line)).map fun (name, _) => String.ofList name

end EnvFile

/-- The environment with the variables of a file added; none if the file cannot be used. -/
def Environment.load (env : Environment) (text : String) : Option Environment :=
  EnvFile.loadLines env (EnvFile.linesOf text)

end RoutePlan
