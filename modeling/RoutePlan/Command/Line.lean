import RoutePlan.Text.Decimal

/-!
# The command line

A command line names a command and gives its operands and, where it takes one, the body of a
request: as text or as a file. The words are read from left to right (`readVerb`). A word that asks
for help is followed at once, and so is the first word that does not fit; that an operand or the
body is missing, or that there are two bodies, counts only at the end. After a word `--` there are
operands only.
-/

namespace RoutePlan

/-- Where the body of a request is found. -/
inductive BodySource
  | inline (text : String)
  | file (path : String)
  deriving DecidableEq

/-- What the program is asked to do. -/
inductive Command
  | compile (routing : String)
  | listVersions (routing : String)
  | showVersion (routing : String) (versionNo : Int32)
  | listOverrides (routing : String)
  | createOverride (routing : String) (body : BodySource)
  | updateOverride (routing id : String) (body : BodySource)
  | importDesign (path : String)
  deriving DecidableEq

/-- The files that a body is read from, of which there is at most one. -/
def BodySource.files : BodySource → List String
  | inline _ => []
  | file path => [path]

/-- The files that a command reads. -/
def Command.files : Command → List String
  | createOverride _ body | updateOverride _ _ body => body.files
  | importDesign path => [path]
  | _ => []

/-- Why a command line asks for no command. -/
inductive Halt
  | help (about usage : String)
  | version
  | misuse
  deriving DecidableEq

/-! ## Words -/

/-- A word of the command line: a separator, an option by its name and perhaps a value, options by
their letters, or anything else. -/
inductive Word
  | separator
  | named (name : List Char) (value : Option String)
  | letters (first : Char) (rest : List Char)
  | plain
  deriving DecidableEq

namespace Word

/-- The name before an equals sign and the value after it. -/
def splitValue (text : List Char) : Word :=
  match text.span (· ≠ '=') with
  | (name, []) => named name none
  | (name, _ :: value) => named name (some (String.ofList value))

def ofString (s : String) : Word :=
  match s.toList with
  | ['-', '-'] => separator
  | '-' :: '-' :: text => splitValue text
  | '-' :: c :: rest => letters c rest
  | _ => plain

end Word

/-- Whether a word can be the value of an option that stands before it. -/
def isValue (s : String) : Bool := Word.ofString s = .plain

/-! ## Commands -/

/-- The kinds of operands. -/
inductive Operand
  | text
  | path
  | number
  deriving DecidableEq

/-- Whether a word can be an operand of a kind. -/
def Operand.accepts (s : String) : Operand → Bool
  | text => true
  | path => s ≠ ""
  | number => (readInt32 s).isSome

/-- The kinds of options, which both give the body. -/
inductive BodyOption
  | inline
  | file
  deriving DecidableEq

namespace BodyOption

def ofName? (name : List Char) : Option BodyOption :=
  if name = ['j', 's', 'o', 'n'] then some inline
  else if name = ['f', 'i', 'l', 'e'] then some file
  else none

/-- The body that an option with a value gives; the path of a file is not empty. -/
def source? (value : String) : BodyOption → Option BodySource
  | inline => some (.inline value)
  | file => if value = "" then none else some (.file value)

end BodyOption

/-- What a command line gives to a command. -/
structure Arguments where
  operands : List String
  inline : Option BodySource
  file : Option BodySource

/-- How a command is called: its name, its operands, whether it takes a body, and the command that
operands and body make. -/
structure Verb where
  name : String
  about : String
  usage : String
  operands : List Operand
  takesBody : Bool
  command : List String → Option BodySource → Option Command

namespace Verb

/-- Adds an operand, which must be expected and of the right kind. -/
def addOperand (v : Verb) (given : Arguments) (s : String) : Except Halt Arguments :=
  match v.operands.drop given.operands.length with
  | [] => .error .misuse
  | kind :: _ =>
    if kind.accepts s then .ok { given with operands := given.operands ++ [s] } else .error .misuse

/-- Adds a body; no option is given twice. -/
def addBody (given : Arguments) (option : BodyOption) (value : String) : Except Halt Arguments :=
  match option, option.source? value with
  | _, none => .error .misuse
  | .inline, some source =>
    if given.inline.isSome then .error .misuse else .ok { given with inline := some source }
  | .file, some source =>
    if given.file.isSome then .error .misuse else .ok { given with file := some source }

/-- The command, if nothing is missing and there is one body at most. -/
def finish (v : Verb) (given : Arguments) : Except Halt Command :=
  if given.inline.isSome && given.file.isSome then .error .misuse
  else (v.command given.operands (given.inline <|> given.file)).elim (.error .misuse) .ok

/-- The option that a word is, and the value within the word; none if there is no such option. -/
def option? (v : Verb) : Word → Option (BodyOption × Option String)
  | .named name value =>
    if v.takesBody then (BodyOption.ofName? name).map (·, value) else none
  | .letters first rest =>
    if v.takesBody && first == 'f' then
      match rest with
      | [] => some (.file, none)
      | '=' :: value => some (.file, some (String.ofList value))
      | value => some (.file, some (String.ofList value))
    else none
  | _ => none

/-- Whether a word asks for help. -/
def isHelp : Word → Bool
  | .named name none => name = ['h', 'e', 'l', 'p']
  | .letters first _ => first == 'h'
  | _ => false

/-- Reads the words after the name of a command. -/
def read (v : Verb) (given : Arguments) : List String → Except Halt Command
  | [] => v.finish given
  | s :: rest =>
    let word := Word.ofString s
    match word, v.option? word with
    | .separator, _ => do v.finish (← rest.foldlM v.addOperand given)
    | .plain, _ => do v.read (← v.addOperand given s) rest
    | _, some (option, some value) => do v.read (← addBody given option value) rest
    | _, some (option, none) =>
      match rest with
      | value :: rest =>
        if isValue value then do v.read (← addBody given option value) rest
        else .error .misuse
      | [] => .error .misuse
    | _, none => .error (if isHelp word then .help v.about v.usage else .misuse)

end Verb

/-! ## Menus -/

/-- A list of commands under a name of its own. -/
structure Menu where
  name : String
  about : String
  usage : String
  verbs : List Verb

namespace CommandLine

/-- The name under which the program is called. -/
def program : String := "routeflow"

/-- The version of the program. -/
def version : String := program ++ " 0.1.0"

def compile : Verb where
  name := "compile"
  about := "Compile a routing into an executable version " ++
    "(reuses the latest one when nothing changed)"
  usage := "compile <ROUTING>"
  operands := [.text]
  takesBody := false
  command
    | [routing], none => some (.compile routing)
    | _, _ => none

def versions : Verb where
  name := "versions"
  about := "List the versions of a routing, newest first"
  usage := "versions <ROUTING>"
  operands := [.text]
  takesBody := false
  command
    | [routing], none => some (.listVersions routing)
    | _, _ => none

def showVersion : Verb where
  name := "version"
  about := "Show one version of a routing"
  usage := "version <ROUTING> <VERSION_NO>"
  operands := [.text, .number]
  takesBody := false
  command
    | [routing, versionNo], none => (readInt32 versionNo).map (.showVersion routing)
    | _, _ => none

def importDesign : Verb where
  name := "import"
  about := "Load design data (routings, steps, station groups, data specs) from a JSON file"
  usage := "import <FILE>"
  operands := [.path]
  takesBody := false
  command
    | [path], none => some (.importDesign path)
    | _, _ => none

def listOverrides : Verb where
  name := "list"
  about := "List overrides affecting a routing, most recently updated first"
  usage := "configs list <ROUTING>"
  operands := [.text]
  takesBody := false
  command
    | [routing], none => some (.listOverrides routing)
    | _, _ => none

def createOverride : Verb where
  name := "create"
  about := "Create a ROUTE or STEP override"
  usage := "configs create <--json <JSON>|--file <FILE>> <ROUTING>"
  operands := [.text]
  takesBody := true
  command
    | [routing], some body => some (.createOverride routing body)
    | _, _ => none

def updateOverride : Verb where
  name := "update"
  about := "Partially update an override (omitted fields are untouched, null clears)"
  usage := "configs update <--json <JSON>|--file <FILE>> <ROUTING> <CONFIG_ID>"
  operands := [.text, .text]
  takesBody := true
  command
    | [routing, id], some body => some (.updateOverride routing id body)
    | _, _ => none

/-- The commands on overrides. -/
def overrides : Menu where
  name := "configs"
  about := "Execution-config overrides"
  usage := "configs <COMMAND>"
  verbs := [listOverrides, createOverride, updateOverride]

/-- The commands of the program, those of the other menu aside. -/
def commands : Menu where
  name := program
  about := "Route execution compiler for the MES backend"
  usage := "<COMMAND>"
  verbs := [compile, versions, showVersion, importDesign]

/-- The name of the command that shows help. -/
def help : String := "help"

def helpAbout : String := "Print this message or the help of the given subcommand(s)"

/-- The help of a menu. -/
def menuHelp (menu : Menu) : Halt := .help menu.about menu.usage

/-- The help of a command in a menu, help itself being one. -/
def verbHelp (menu : Menu) (name : String) : Option Halt :=
  if name = help then some (.help helpAbout (help ++ " [COMMAND]..."))
  else (menu.verbs.find? fun v => v.name == name).map fun v => .help v.about v.usage

/-- The help for a path of names. -/
def helpAt (menu : Menu) : List String → Halt
  | [] => menuHelp menu
  | [name] => (verbHelp menu name).getD .misuse
  | _ => .misuse

/-- The help for a path of names from the start. -/
def helpFor : List String → Halt
  | name :: path =>
    if name = overrides.name then helpAt overrides path else helpAt commands (name :: path)
  | [] => menuHelp commands

/-- What follows the name of a menu and does not name a command of it. -/
def readMenuOption (menu : Menu) (s : String) : Halt :=
  if Verb.isHelp (.ofString s) then menuHelp menu else .misuse

/-- Reads the words after the name of a command in a menu, or none if there is no such command. -/
def readVerb (menu : Menu) (name : String) (rest : List String) : Option (Except Halt Command) :=
  (menu.verbs.find? fun v => v.name == name).map fun v => v.read ⟨[], none, none⟩ rest

/-- Reads the words after the name of the menu of overrides. -/
def readOverrides : List String → Except Halt Command
  | [] => .error .misuse
  | s :: rest =>
    if s = help then .error (helpAt overrides rest)
    else (readVerb overrides s rest).getD (.error (readMenuOption overrides s))

/-- Whether a word asks for the version of the program. -/
def isVersion : Word → Bool
  | .named name none => name = ['v', 'e', 'r', 's', 'i', 'o', 'n']
  | .letters first _ => first == 'V'
  | _ => false

/-- Reads a command line without the name of the program. -/
def read : List String → Except Halt Command
  | [] => .error .misuse
  | s :: rest =>
    if s = help then .error (helpFor rest)
    else if s = overrides.name then readOverrides rest
    else
      (readVerb commands s rest).getD
        (.error (if isVersion (.ofString s) then .version else readMenuOption commands s))

end CommandLine
end RoutePlan
