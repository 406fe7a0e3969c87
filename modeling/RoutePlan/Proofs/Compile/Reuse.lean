import RoutePlan.Proofs.Compile.Alone
import RoutePlan.Proofs.Json.Reading
import RoutePlan.Proofs.Version.Report

/-!
# When a version is used again

A compile call that runs alone uses the latest version again exactly if nothing that is compiled has
changed (`Service.compile_alone`): the version holds the same route and the same steps, as JSON
data, and reports the same violations. What is compared are digests of canonical texts, so this
assumes that the two texts in question do not collide and that the numbers in them are told apart by
their text (`RouteVersion.Comparable`).
-/

namespace RoutePlan

/-! ## What a signature covers -/

/-- The part of a stored snapshot that its signature covers. -/
def Document.signedPart? (d : Document) : Option Json := do
  let route ← d.present? "route"
  let steps ← d.present? "steps"
  some (.obj [("route", route), ("steps", steps)])

/-- The signature of a stored snapshot is the digest of the part that it covers. -/
theorem Document.storedSignature?_eq (d : Document) :
    d.storedSignature? = d.signedPart?.map fun j => hashText j.canonical := by
  unfold storedSignature? signedPart?
  cases d.present? "route" with
  | none => rfl
  | some route => cases d.present? "steps" <;> rfl

namespace SnapshotCore

/-- The normal form of a core has the normal forms of its route and of its steps as members. -/
theorem normal_toJson (c : SnapshotCore) : c.toJson.normal =
    .obj [("route", c.route.toJson.normal), ("steps", (stepsJson c.steps).normal)] := rfl

/-- Two cores are the same data exactly if their routes and their steps are. -/
theorem normal_toJson_inj {c d : SnapshotCore} : c.toJson.normal = d.toJson.normal ↔
    c.route.toJson.normal = d.route.toJson.normal ∧
      (stepsJson c.steps).normal = (stepsJson d.steps).normal := by
  rw [normal_toJson, normal_toJson]
  simp

/-- The signature of a stamped core covers the core. -/
theorem signedPart?_stamp (c : SnapshotCore) (stamp : VersionStamp) :
    (Document.ofJson (c.stamp stamp).toJson).signedPart? = some c.toJson.normal := by
  rw [Document.signedPart?, Document.present?, Document.present?, field?_route_stamp,
    field?_steps_stamp, normal_toJson]
  rfl

end SnapshotCore

namespace RouteVersion

/-- The version was made from some compilation. -/
def IsCompiled (v : RouteVersion) : Prop :=
  ∃ (c : Compilation) (prior : Option Int32) (t : Instant),
    v = (c.draft v.routingId prior t).row v.id

/-- The snapshot of the version has the route and the steps of a core, as JSON data. -/
structure HoldsCore (v : RouteVersion) (core : SnapshotCore) : Prop where
  route : v.snapshot.json.field? "route" = some core.route.toJson.normal
  steps : v.snapshot.json.field? "steps" = some (stepsJson core.steps).normal

/-- What the version has signed and a core can be compared by their digests: their canonical texts
do not collide, and the numbers in them are told apart by their text. -/
structure Comparable (v : RouteVersion) (core : SnapshotCore) : Prop where
  noCollision : ∀ j ∈ v.snapshot.signedPart?, hashText j.canonical = core.signature →
    j.canonical = core.toJson.canonical
  numbers : ∀ j ∈ v.snapshot.signedPart?,
    Json.Distinguishes Number.text j.normal.numbers core.toJson.normal.numbers

/-- A version that was compiled from `d` holds the core of `c` if the cores are the same data. -/
theorem holdsCore_draft (d : Compilation) (routingId : String) (prior : Option Int32) (t : Instant)
    (id : String) (core : SnapshotCore) :
    ((d.draft routingId prior t).row id).HoldsCore core ↔
      d.core.toJson.normal = core.toJson.normal := by
  have hroute := d.core.field?_route_stamp ⟨nextVersionNo prior, t⟩
  have hsteps := d.core.field?_steps_stamp ⟨nextVersionNo prior, t⟩
  rw [SnapshotCore.normal_toJson_inj]
  constructor
  · intro h
    exact ⟨Option.some.inj (hroute.symm.trans h.route), Option.some.inj (hsteps.symm.trans h.steps)⟩
  · intro h
    exact ⟨hroute.trans (congrArg some h.1), hsteps.trans (congrArg some h.2)⟩

end RouteVersion

namespace Compilation

/-- Two compilations have the same status and agreeing reports exactly if they have the same
violations. -/
theorem sameOutcome_iff {c d : Compilation} : d.status = c.status ∧
    (∀ report ∈ c.report?, ∃ before ∈ d.report?, before.json.agrees report.json = true) ↔
      d.violations = c.violations := by
  obtain ⟨_, vs⟩ := c
  obtain ⟨_, ws⟩ := d
  cases vs with
  | nil => cases ws <;> simp [status, report?]
  | cons v vs =>
    cases ws with
    | nil => simp [status, report?]
    | cons w ws => simp [status, report?, Violation.agrees_report]

/-- A comparable version is used again exactly if it has the same route and steps and the same
violations. -/
theorem reusesPrior_iff_holdsCore {c : Compilation} {v : RouteVersion} (hv : v.IsCompiled)
    (hcomparable : v.Comparable c.core) : (c.decision (some v)).reusesPrior = true ↔
      v.HoldsCore c.core ∧ v.violations = c.violations := by
  obtain ⟨d, prior, t, hd⟩ := hv
  generalize v.routingId = routingId, v.id = id at hd
  subst hd
  have hsigned := d.core.signedPart?_stamp ⟨nextVersionNo prior, t⟩
  have hsignature :
      (Document.ofJson (d.core.stamp ⟨nextVersionNo prior, t⟩).toJson).storedSignature? =
        some c.core.signature ↔ d.core.toJson.normal = c.core.toJson.normal := by
    constructor
    · intro h
      rw [Document.storedSignature?_eq, hsigned, Option.map_some, Option.some.injEq] at h
      have htext := hcomparable.noCollision _ hsigned h
      have hnormal := Json.normal_eq_of_canonicalWith_eq Number.writesNumerals_text
        (hcomparable.numbers _ hsigned) htext
      rwa [Json.normal_normal] at hnormal
    · intro h
      rw [SnapshotCore.storedSignature?_stamp, SnapshotCore.signature,
        Json.canonical_eq_of_normal_eq h, SnapshotCore.signature]
  rw [reusesPrior_iff, RouteVersion.holdsCore_draft, RouteVersion.violations_draft,
    ← sameOutcome_iff]
  exact and_congr_left fun _ => hsignature

end Compilation

/-- The latest version of a route holds what the route compiles to, and reports the same
violations. -/
def MemoryStore.IsUnchanged (s : MemoryStore) (r : Routing) : Prop :=
  ∃ v, s.latestVersion r.id = some v ∧ v.HoldsCore (s.compilation r).core ∧
    v.violations = (s.compilation r).violations

/-- Nothing has changed exactly if the compilation uses the latest version again. -/
theorem MemoryStore.isUnchanged_iff {s : MemoryStore} {r : Routing}
    (hcompiled : ∀ v, s.latestVersion r.id = some v → v.IsCompiled)
    (hcomparable : ∀ v, s.latestVersion r.id = some v → v.Comparable (s.compilation r).core) :
    s.IsUnchanged r ↔
      ((s.compilation r).decision (s.latestVersion r.id)).reusesPrior = true := by
  cases hl : s.latestVersion r.id with
  | none =>
    refine ⟨?_, nofun⟩
    rintro ⟨v, hv, _⟩
    rw [hl] at hv
    cases hv
  | some v =>
    rw [Compilation.reusesPrior_iff_holdsCore (hcompiled v hl) (hcomparable v hl)]
    constructor
    · rintro ⟨w, hw, h⟩
      rw [← Option.some.inj (hl.symm.trans hw)] at h
      exact h
    · intro h
      exact ⟨v, hl, h⟩

namespace Service

variable {supply : Supply} {s : MemoryState} {code : String} {r : Routing}

/-- **When a version is used again.** A compile call of a route with steps that runs alone returns a
version. It is the latest one and the versions stay as they are exactly if the latest version holds
the route identity and the compiled steps of the present store and reports the violations of the
present store. Otherwise it is one more version, and its number is that of the latest one plus one,
or one. Compiled again, the same version is returned and nothing changes. -/
theorem compile_alone (supply : Supply) (hr : s.store.findRouting code = some r)
    (hsteps : s.store.listSteps r.id ≠ []) (hrange : s.store.InRange)
    (hcompiled : ∀ v, s.store.latestVersion r.id = some v → v.IsCompiled)
    (hcomparable : ∀ v, s.store.latestVersion r.id = some v →
      v.Comparable (s.store.compilation r).core) (attempts : Nat) :
    ∃ v t, (compile code attempts).run.run (MemoryState.backend supply) s = (.ok v, t) ∧
      (s.store.latestVersion r.id = some v ∧ t.store.versions = s.store.versions ↔
        s.store.IsUnchanged r) ∧
      (¬s.store.IsUnchanged r → t.store.versions = s.store.versions ++ [v] ∧
        v.routingId = r.id ∧ v.versionNo.toInt =
          ((s.store.latestVersion r.id).elim 0 fun prior => prior.versionNo.toInt) + 1) ∧
      ∀ u attempts', u.store = t.store →
        (compile code attempts').run.run (MemoryState.backend supply) u = (.ok v, u) := by
  have hreuse := MemoryStore.isUnchanged_iff hcompiled hcomparable
  by_cases hunchanged : s.store.IsUnchanged r
  · obtain ⟨v, hlatest, -⟩ := id hunchanged
    have hv := hreuse.1 hunchanged
    rw [hlatest] at hv
    refine ⟨v, s, compile_run_of_reuses hr hsteps hlatest hv attempts,
      ⟨fun _ => hunchanged, fun _ => ⟨hlatest, rfl⟩⟩, fun h => absurd hunchanged h, ?_⟩
    intro u attempts' hu
    exact compile_run_of_reuses (by rwa [hu]) (by rwa [hu]) (by rwa [hu]) (by rwa [hu]) attempts'
  · have hv := Bool.eq_false_iff.2 (mt hreuse.2 hunchanged)
    have hrun := compile_run hr hsteps (settleVersion_run_of_changed supply hrange hv) attempts
    refine ⟨_, _, hrun, ⟨fun h => ?_, fun h => absurd h hunchanged⟩,
      fun _ => ⟨rfl, rfl, MemoryStore.toInt_nextVersionNo hrange r.id⟩, ?_⟩
    · have hlength := congrArg List.length h.2
      simp [MemoryStore.addVersion] at hlength
    · intro u attempts' hu
      have hinputs : s.store.SameInputs u.store := by
        rw [hu]
        exact .addVersion _ s.store
      refine compile_run_of_reuses (hinputs.findRouting ▸ hr) (hinputs.listSteps ▸ hsteps) ?_ ?_
        attempts'
      · rw [hu]
        exact MemoryStore.latestVersion_addVersion hrange rfl
      · rw [hinputs.compilation]
        exact Compilation.reusesPrior_draft ..

end Service

namespace SingleStep

/-- What the route is compiled to. -/
def version : RouteVersion :=
  (((store (some .manual)).compilation routing).draft "r1" none ⟨0, 0⟩).row "v1"

/-- The store in which the route was compiled. -/
def compiled : MemoryStore := (store (some .manual)).addVersion version

/-- The version is the latest one of the compiled store. -/
theorem latestVersion_compiled : compiled.latestVersion routing.id = some version := by
  with_unfolding_all rfl

/-- The version and the core that the route compiles to can be compared. -/
theorem comparable_version : version.Comparable (compiled.compilation routing).core := by
  have hsigned := ((store (some .manual)).compilation routing).core.signedPart?_stamp ⟨1, ⟨0, 0⟩⟩
  refine ⟨fun j hj _ => ?_, fun j hj => ?_⟩ <;>
    obtain rfl := Option.some.inj (hsigned.symm.trans hj)
  · exact Json.canonical_eq_of_normal_eq (Json.normal_normal _)
  · unfold Json.Distinguishes
    decide +kernel

end SingleStep

/-- Compiled again, the route with the single step keeps its version. -/
theorem Service.compile_alone_singleStep : ∃ v t,
    (compile "R1" 1).run.run (MemoryState.backend SingleStep.supply) (.start SingleStep.compiled) =
      (.ok v, t) ∧ t.store.versions = SingleStep.compiled.versions := by
  have hlatest : ∀ v, (MemoryState.start SingleStep.compiled).store.latestVersion
      SingleStep.routing.id = some v → v = SingleStep.version :=
    fun v hv => Option.some.inj (hv.symm.trans SingleStep.latestVersion_compiled)
  have hr : (MemoryState.start SingleStep.compiled).store.findRouting "R1" =
    some SingleStep.routing := rfl
  obtain ⟨v, t, hrun, hiff, -⟩ := compile_alone SingleStep.supply hr (by decide) (by decide +kernel)
    (fun v hv => hlatest v hv ▸ ⟨_, none, ⟨0, 0⟩, rfl⟩)
    (fun v hv => hlatest v hv ▸ SingleStep.comparable_version) 1
  refine ⟨v, t, hrun, (hiff.2 ⟨_, SingleStep.latestVersion_compiled, ?_, ?_⟩).2⟩
  · exact (RouteVersion.holdsCore_draft ..).2 rfl
  · exact RouteVersion.violations_draft ..

end RoutePlan
