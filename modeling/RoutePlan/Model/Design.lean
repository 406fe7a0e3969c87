import RoutePlan.Model.Station

/-!
# Design data

Routings, their steps, the station groups and the data collection specs come from route design; the
compiler only reads them.
-/

namespace RoutePlan

namespace Json

/-- A step or version number. -/
def ofInt32 (n : Int32) : Json := int n.toInt

/-- A value that may be unset, written as null. -/
def ofOption {α : Type} (toJson : α → Json) : Option α → Json
  | none => .null
  | some a => toJson a

end Json

/-- A route; its code is the key of every request. -/
structure Routing where
  id : String
  code : String
  name : String
  sourceSystem : String
  sourceKey : Option String
  deriving DecidableEq

namespace Routing

def toJson (r : Routing) : Json :=
  .obj [("id", .str r.id), ("code", .str r.code), ("name", .str r.name),
    ("sourceSystem", .str r.sourceSystem), ("sourceKey", .ofText? r.sourceKey)]

def reader : RecordReader Routing :=
  Routing.mk <$> .required "id" .text <*> .required "code" .text <*> .required "name" .text
    <*> .required "sourceSystem" .text <*> .optional "sourceKey" .text

def decode : Decoder Routing := reader.decode

end Routing

/-- A step as designed; its attributes hold where no override sets them. -/
structure RoutingStep where
  id : String
  routingId : String
  stepNo : Int32
  operationId : String
  sourceStepKey : Option String
  stationType : Option StationType
  stationGroupId : Option String
  requiresFAI : Bool
  deriving DecidableEq

namespace RoutingStep

def toJson (s : RoutingStep) : Json :=
  .obj [("id", .str s.id), ("routingId", .str s.routingId), ("stepNo", .ofInt32 s.stepNo),
    ("operationId", .str s.operationId), ("sourceStepKey", .ofText? s.sourceStepKey),
    ("stationType", .ofOption StationType.toJson s.stationType),
    ("stationGroupId", .ofText? s.stationGroupId), ("requiresFAI", .bool s.requiresFAI)]

def reader : RecordReader RoutingStep :=
  RoutingStep.mk <$> .required "id" .text <*> .required "routingId" .text
    <*> .required "stepNo" .int32 <*> .required "operationId" .text
    <*> .optional "sourceStepKey" .text <*> .optional "stationType" StationType.decode
    <*> .optional "stationGroupId" .text <*> .required "requiresFAI" .bool

def decode : Decoder RoutingStep := reader.decode

end RoutingStep

/-- A group of stations. -/
structure StationGroup where
  id : String
  code : String
  name : String
  deriving DecidableEq

namespace StationGroup

def toJson (g : StationGroup) : Json :=
  .obj [("id", .str g.id), ("code", .str g.code), ("name", .str g.name)]

def reader : RecordReader StationGroup :=
  StationGroup.mk <$> .required "id" .text <*> .required "code" .text <*> .required "name" .text

def decode : Decoder StationGroup := reader.decode

end StationGroup

/-- What is collected at an operation; only the operation it belongs to matters here. -/
structure DataSpec where
  id : String
  operationId : String
  name : String
  deriving DecidableEq

namespace DataSpec

def toJson (s : DataSpec) : Json :=
  .obj [("id", .str s.id), ("operationId", .str s.operationId), ("name", .str s.name)]

def reader : RecordReader DataSpec :=
  DataSpec.mk <$> .required "id" .text <*> .required "operationId" .text <*> .required "name" .text

def decode : Decoder DataSpec := reader.decode

end DataSpec
end RoutePlan
