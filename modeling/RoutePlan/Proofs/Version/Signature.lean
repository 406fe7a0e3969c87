import RoutePlan.Proofs.Record.RoundTrip
import RoutePlan.Service.Compile

/-!
# The signature of a stored version

A version stores the route and the steps of its compilation among other members, in normal form, and
their signature is recomputed from there. It is the signature of the compilation
(`SnapshotCore.storedSignature?_stamp`), so a compilation uses the version again that was made from
it (`Compilation.reusesPrior_draft`). Whether it uses a version again depends on no more than the
route, the steps, the status and the report of that version (`RouteVersion.SameContent`).
-/

namespace RoutePlan

/-! ## Agreement -/

/-- A number agrees with itself. -/
theorem Number.agrees_refl (n : Number) : n.agrees n = true := by
  cases n <;> simp [agrees, Double.agrees]

namespace Json

mutual

/-- Every value agrees with itself. -/
theorem agrees_refl : ∀ j : Json, j.agrees j = true
  | .null => rfl
  | .bool _ | .str _ => by simp [agrees]
  | .num n => n.agrees_refl
  | .arr items => agreesItems_refl items
  | .obj members => agreesMembers_refl members

/-- Items agree with themselves. -/
theorem agreesItems_refl : ∀ items : List Json, agreesItems items items = true
  | [] => rfl
  | item :: rest => by rw [agreesItems, agrees_refl item, agreesItems_refl rest]; rfl

/-- Members agree with themselves. -/
theorem agreesMembers_refl : ∀ members : List (String × Json), agreesMembers members members = true
  | [] => rfl
  | (k, v) :: rest => by
    rw [agreesMembers, agrees_refl v, agreesMembers_refl rest, beq_self_eq_true]
    rfl

end

end Json

/-! ## The stored signature -/

namespace SnapshotCore

variable (c : SnapshotCore) (stamp : VersionStamp)

/-- The stored route of a version. -/
theorem field?_route_stamp :
    (Document.ofJson (c.stamp stamp).toJson).json.field? "route" =
      some c.route.toJson.normal :=
  Json.field?_normal_of_nodup (c.stamp stamp).nodup_keys rfl

/-- The stored steps of a version. -/
theorem field?_steps_stamp :
    (Document.ofJson (c.stamp stamp).toJson).json.field? "steps" =
      some (stepsJson c.steps).normal :=
  Json.field?_normal_of_nodup (c.stamp stamp).nodup_keys rfl

/-- The signature of a stored version is that of its core, whatever its stamp. -/
theorem storedSignature?_stamp :
    (Document.ofJson (c.stamp stamp).toJson).storedSignature? = some c.signature := by
  have hroute : (Document.ofJson (c.stamp stamp).toJson).present? "route" =
      some c.route.toJson.normal := by
    rw [Document.present?, field?_route_stamp]
    rfl
  have hsteps : (Document.ofJson (c.stamp stamp).toJson).present? "steps" =
      some (stepsJson c.steps).normal := by
    rw [Document.present?, field?_steps_stamp]
    rfl
  have hnormal : (Json.obj [("route", c.route.toJson.normal),
      ("steps", (stepsJson c.steps).normal)]).normal = c.toJson.normal := by
    simp only [toJson, Json.normal, Json.normalMembers, Json.normal_normal]
  simp only [Document.storedSignature?, hroute, hsteps, Option.bind_eq_bind, Option.bind_some]
  rw [signature, Json.canonical_eq_of_normal_eq hnormal]

end SnapshotCore

/-! ## Using a version again -/

namespace RouteVersion

/-- Two versions with the same route, steps, status and report. -/
structure SameContent (v w : RouteVersion) : Prop where
  route : v.snapshot.json.field? "route" = w.snapshot.json.field? "route"
  steps : v.snapshot.json.field? "steps" = w.snapshot.json.field? "steps"
  status : v.status = w.status
  report : v.report = w.report

variable {v w : RouteVersion}

/-- A version has its own content. -/
theorem SameContent.refl (v : RouteVersion) : v.SameContent v := ⟨rfl, rfl, rfl, rfl⟩

/-- Versions with the same content have the same signature. -/
theorem SameContent.storedSignature?_eq (h : v.SameContent w) :
    v.snapshot.storedSignature? = w.snapshot.storedSignature? := by
  simp only [Document.storedSignature?, Document.present?, h.route, h.steps]

end RouteVersion

namespace Compilation

variable {c : Compilation} {v w : RouteVersion}

/-- A version is used again if it has the signature and the status of the compilation and, when
there are violations, a report that agrees. -/
theorem reusesPrior_iff : (c.decision (some v)).reusesPrior = true ↔
    v.snapshot.storedSignature? = some c.core.signature ∧ v.status = c.status ∧
      ∀ report ∈ c.report?, ∃ before ∈ v.report, before.json.agrees report.json = true := by
  obtain ⟨id, routingId, versionNo, vstatus, snapshot, vreport, compiledAt⟩ := v
  simp only [decision, VersionDecision.decide]
  by_cases hs : snapshot.storedSignature? = some c.core.signature
  · rw [if_pos hs]
    by_cases hc : c.violations.isEmpty = true
    · cases vstatus <;> simp [hs, status, report?, hc, VersionDecision.reusesPrior]
    · cases vstatus with
      | ready => simp [status, report?, hc, VersionDecision.reusesPrior]
      | invalid =>
        cases vreport with
        | none => simp [status, report?, hc, VersionDecision.reusesPrior]
        | some before =>
          by_cases ha : before.json.agrees (Violation.report c.violations).json = true <;>
            simp [hs, status, report?, hc, ha, VersionDecision.reusesPrior]
  · rw [if_neg hs]
    simp [hs, VersionDecision.reusesPrior]

/-- Whether a version is used again depends on its content only. -/
theorem reusesPrior_congr (h : v.SameContent w) :
    (c.decision (some v)).reusesPrior = (c.decision (some w)).reusesPrior := by
  rw [Bool.eq_iff_iff, reusesPrior_iff, reusesPrior_iff, h.storedSignature?_eq, h.status, h.report]

/-- A compilation uses the version again that was made from it. -/
theorem reusesPrior_draft (c : Compilation) (routingId : String) (prior : Option Int32)
    (t : Instant) (id : String) :
    (c.decision (some ((c.draft routingId prior t).row id))).reusesPrior = true :=
  reusesPrior_iff.2 ⟨c.core.storedSignature?_stamp _, rfl, fun report h =>
    ⟨report, h, Json.agrees_refl _⟩⟩

end Compilation
end RoutePlan
