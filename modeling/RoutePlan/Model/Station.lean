import RoutePlan.Record.Reader

/-!
# Stations

A step is carried out at stations of one type. Stations that deliver their data by machine need a
mapping of that data; a manual station may have one (`StationBinding.bind`). A mapping is opaque to
the compiler, but it is always an object.
-/

namespace RoutePlan

/-- How the work of a station is done. -/
inductive StationType
  | manual
  | auto
  | batch
  | test
  deriving DecidableEq

namespace StationType

def name : StationType → String
  | manual => "MANUAL"
  | auto => "AUTO"
  | batch => "BATCH"
  | test => "TEST"

def names : Names StationType := ⟨[manual, auto, batch, test], name⟩

/-- The type with the given name. -/
def ofName? (s : String) : Option StationType := names.find? s

/-- A station type is found by its name. -/
@[simp] theorem ofName?_name (t : StationType) : ofName? t.name = some t := by cases t <;> decide

/-- Every type but the manual one needs a mapping of the data that the station delivers. -/
def needsMapping : StationType → Bool
  | manual => false
  | _ => true

def toJson (t : StationType) : Json := .str t.name

def decode : Decoder StationType := names.decode

end StationType

/-- How the data of a station is mapped: any object. -/
structure IngestMapping where
  document : Document
  isObject : document.json.isObject = true
  deriving DecidableEq

namespace IngestMapping

/-- A document as a mapping; one that is no object counts as none. -/
def ofDocument? (d : Document) : Option IngestMapping :=
  if h : d.json.isObject = true then some ⟨d, h⟩ else none

/-- The document of a mapping is a mapping. -/
@[simp] theorem ofDocument?_document (m : IngestMapping) : ofDocument? m.document = some m := by
  simp [ofDocument?, m.isObject]

def toJson (m : IngestMapping) : Json := m.document.json

def decode : Decoder IngestMapping := fun s => do
  let document ← Decoder.document s
  (ofDocument? document).elim (.error .badValue) .ok

end IngestMapping

/-- A station type together with the mapping it works with. -/
inductive StationBinding
  | manual (mapping : Option IngestMapping)
  | auto (mapping : IngestMapping)
  | batch (mapping : IngestMapping)
  | test (mapping : IngestMapping)

namespace StationBinding

/-- Binds a mapping to a station type; a type that lacks the mapping it needs stays unbound. -/
def bind : StationType → Option IngestMapping → Except StationType StationBinding
  | .manual, mapping => .ok (manual mapping)
  | .auto, some m => .ok (auto m)
  | .batch, some m => .ok (batch m)
  | .test, some m => .ok (test m)
  | t, none => .error t

def stationType : StationBinding → StationType
  | manual _ => .manual
  | auto _ => .auto
  | batch _ => .batch
  | test _ => .test

def mapping? : StationBinding → Option IngestMapping
  | manual mapping => mapping
  | auto m | batch m | test m => some m

/-- Binding fails exactly when a mapping is needed and absent. -/
theorem bind_eq_error_iff {t u : StationType} {mapping : Option IngestMapping} :
    bind t mapping = .error u ↔ u = t ∧ t.needsMapping = true ∧ mapping = none := by
  cases t <;> cases mapping <;> simp [bind, StationType.needsMapping, eq_comm]

end StationBinding
end RoutePlan
