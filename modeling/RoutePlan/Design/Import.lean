import RoutePlan.Command.Input
import RoutePlan.Model.Design
import RoutePlan.Relational.Store

/-!
# Importing design data

A file of design data brings routings, station groups and specs, which are added or overwritten by
id, and steps, which replace all steps of the routings they belong to. The steps are grouped by
routing (`DesignData.groupSteps`); a step number that a routing has twice is an error of the file,
found before anything is written.
-/

namespace RoutePlan

/-- The contents of a file of design data. -/
structure DesignData where
  routings : List Routing
  steps : List RoutingStep
  stationGroups : List StationGroup
  dataSpecs : List DataSpec
  deriving DecidableEq

namespace DesignData

def reader : RecordReader DesignData :=
  DesignData.mk <$> .listOrEmpty "routings" Routing.decode
    <*> .listOrEmpty "steps" RoutingStep.decode
    <*> .listOrEmpty "stationGroups" StationGroup.decode
    <*> .listOrEmpty "dataSpecs" DataSpec.decode

/-- Reads the text of a file. -/
def read (text : String) : Except InputError DesignData := Decoder.ofText reader.decode text

/-- Adds a step to the group of its routing, at the end. -/
def addToGroup (step : RoutingStep) (groups : List (String × List RoutingStep)) :
    List (String × List RoutingStep) :=
  alterMember step.routingId (fun group => group.getD [] ++ [step]) groups

/-- Groups steps by routing; `seen` are the routings and numbers of the steps grouped so far. -/
def groupFrom (seen : List (String × Int32)) (groups : List (String × List RoutingStep)) :
    List RoutingStep → Except InputError (List (String × List RoutingStep))
  | [] => .ok groups
  | step :: rest =>
    if (step.routingId, step.stepNo) ∈ seen then
      .error (.duplicateStep step.routingId step.stepNo)
    else groupFrom ((step.routingId, step.stepNo) :: seen) (addToGroup step groups) rest

/-- The steps grouped by routing: the routings in order of their ids, the steps of each in the order
of the file. -/
def groupSteps (steps : List RoutingStep) : Except InputError (List (String × List RoutingStep)) :=
  groupFrom [] [] steps

/-- How many rows of each kind a file brings. -/
def counts (d : DesignData) : Json :=
  .obj [("routings", .int d.routings.length), ("steps", .int d.steps.length),
    ("stationGroups", .int d.stationGroups.length), ("dataSpecs", .int d.dataSpecs.length)]

/-- Writes the data, with the steps grouped by routing. -/
def write (d : DesignData) (groups : List (String × List RoutingStep)) : Work Unit := do
  d.routings.forM Server.upsertRouting
  d.stationGroups.forM Server.upsertStationGroup
  d.dataSpecs.forM Server.upsertDataSpec
  groups.forM fun (routingId, steps) => Server.replaceSteps routingId steps

end DesignData
end RoutePlan
