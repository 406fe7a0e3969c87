import RoutePlan.Command.Files
import RoutePlan.Json.Read
import RoutePlan.Record.Decoder

/-!
# Input from outside

Bodies of requests and files of design data come as text, which is decoded while it is read. A
failure is told apart by whether the text is that of a structured value at all; either way its
detail is what the decoder met first (`Decoder.ofText`). A file must be readable in the first place
(`InputError`).
-/

namespace RoutePlan

/-- Why an input is not accepted. -/
inductive InputError
  /-- The text is not that of a value. -/
  | malformed (error : DecodeError)
  /-- The value is not of the shape expected. -/
  | undecodable (error : DecodeError)
  | duplicateStep (routingId : String) (stepNo : Int32)
  | unreadable (path : String) (error : FileError)
  deriving DecidableEq

namespace InputError

/-- What is wrong with the input. -/
def detail : InputError → String
  | malformed error | undecodable error => error.message
  | duplicateStep routingId stepNo =>
    "duplicate stepNo " ++ toString stepNo.toInt ++ " in routing " ++ routingId
  | unreadable path error => path ++ ": " ++ error.message

def message (e : InputError) : String := "invalid input: " ++ e.detail

end InputError

/-- Reads a file. -/
def Files.read (files : Files) (path : String) : Except InputError String :=
  (files path).mapError (.unreadable path)

/-- Decodes a text. What a decoder passes over need not have a value; nothing may follow what it
decodes. -/
def Decoder.ofText {α : Type} (d : Decoder α) (text : String) : Except InputError α :=
  let (source, alone) := Source.read text
  match d source with
  | .error e => .error (if alone && source.json?.isSome then .undecodable e else .malformed e)
  | .ok a => if alone then .ok a else .error (.malformed .badValue)

end RoutePlan
