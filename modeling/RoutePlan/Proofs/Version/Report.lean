import RoutePlan.Proofs.Record.RoundTrip
import RoutePlan.Service.Compile

/-!
# The report of a stored version

A version that was compiled stores its violations as a report in normal form. They are read back
from it as they were (`RouteVersion.violations_draft`), and two reports agree only if they hold the
same violations in the same order (`Violation.agrees_report`).
-/

namespace RoutePlan

/-- A rule is recovered from its name. -/
theorem Rule.recovers (r : Rule) : Rule.decode.Recovers .leaf r.toJson r :=
  Names.recovers (by cases r <;> rfl)

/-- A rule is read back from its name. -/
theorem Rule.reads (r : Rule) : Rule.decode.Reads r.toJson r := r.recovers.reads

/-- Rules are known from their names. -/
theorem Rule.name_inj {r r' : Rule} (h : r.name = r'.name) : r = r' := by
  have hreads := r.reads
  rw [toJson, h] at hreads
  exact Except.ok.inj (hreads.symm.trans r'.reads)

namespace Violation

/-- The normal form of a violation has its members in key order. -/
theorem normal_toJson (v : Violation) : v.toJson.normal =
    .obj [("code", .str v.rule.name), ("message", .str v.message),
      ("stepNo", .ofInt32 v.stepNo)] := rfl

/-- A violation is recovered from what is written of it. -/
theorem recovers (v : Violation) : Violation.decode.Recovers .flat v.toJson v := by
  refine RecordReader.Recovers.decode ?_ rfl (by decide)
  refine .seq (.seq (.map ?stepNo _) ?code) ?message
  case stepNo => exact .required rfl (.int32 _)
  case code => exact .required rfl v.rule.recovers
  case message => exact .required rfl (.text _)

/-- Violations are told apart by their normal forms. -/
theorem agrees_normal {v w : Violation} :
    v.toJson.normal.agrees w.toJson.normal = true ↔ v = w := by
  obtain ⟨stepNo, rule, message⟩ := v
  obtain ⟨stepNo', rule', message'⟩ := w
  rw [normal_toJson, normal_toJson]
  simp only [Json.agrees, Json.agreesMembers, Json.ofInt32, Json.int, Number.agrees,
    beq_self_eq_true, Bool.true_and, Bool.and_true, Bool.and_eq_true, beq_iff_eq,
    Int32.toInt_inj, mk.injEq]
  constructor
  · rintro ⟨hrule, hmessage, hstep⟩
    exact ⟨hstep, Rule.name_inj hrule, hmessage⟩
  · rintro ⟨hstep, hrule, hmessage⟩
    exact ⟨congrArg Rule.name hrule, hmessage, hstep⟩

/-- A report lists the normal forms of the violations. -/
theorem json_report (violations : List Violation) :
    (report violations).json = .arr (violations.map fun v => v.toJson.normal) := by
  rw [report, Document.json_ofJson, Json.normal, Json.normalItems_eq_map, List.map_map]
  rfl

/-- Reports agree exactly if they hold the same violations in the same order. -/
theorem agrees_report {vs ws : List Violation} :
    (report vs).json.agrees (report ws).json = true ↔ vs = ws := by
  rw [json_report, json_report, Json.agrees]
  induction vs generalizing ws with
  | nil => cases ws <;> simp [Json.agreesItems]
  | cons v vs ih =>
    cases ws with
    | nil => simp [Json.agreesItems]
    | cons w ws =>
      rw [List.map_cons, List.map_cons, Json.agreesItems, Bool.and_eq_true, agrees_normal, ih,
        List.cons.injEq]

/-- The violations are read back from their report. -/
theorem decode_report (violations : List Violation) :
    Decoder.list Violation.decode (Source.ofJson (report violations).json) = .ok violations :=
  (Decoder.Recovers.list fun v _ => v.recovers).reads

end Violation

/-- A version that was compiled holds the violations of its compilation. -/
theorem RouteVersion.violations_draft (c : Compilation) (routingId : String) (prior : Option Int32)
    (t : Instant) (id : String) :
    ((c.draft routingId prior t).row id).violations = c.violations := by
  simp only [violations, VersionDraft.row, Compilation.draft, Compilation.report?]
  split
  · next h =>
    split at h
    · next hempty => exact (List.isEmpty_iff.1 hempty).symm
    · cases h
  · next report h =>
    split at h
    · cases h
    · rw [← Option.some.inj h, Violation.decode_report]
      rfl

end RoutePlan
