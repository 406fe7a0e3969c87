import RoutePlan.Proofs.Relational.PartialUpdate

/-!
# What a row can lose

Turning a model value into a row loses nothing. The other way round there is more in a row than in
the model: an update reads a row and writes all of it back, so whatever the reading drops is gone.
A row with an unknown scope or status is not read at all (`OverrideRow.exists_error_iff`,
`VersionRow.exists_error_iff`). A row that is read comes back as it was, but for two columns: a text
that names no station type and a document that is no object come back as unset
(`OverrideRow.ofOverride_of_ok`), which is the only difference (`rows_conversions`). The document
null is no object either, so it is not kept apart from an unset column.
-/

namespace RoutePlan

/-! ## Closed lists of names -/

/-- A value is found for each of the names and for nothing else. -/
theorem Names.isSome_find?_iff {α : Type} {names : Names α} {text : String} :
    (names.find? text).isSome ↔ text ∈ names.values.map names.name := by
  simp [find?, List.find?_isSome]

/-- A scope has one of four names. -/
theorem Scope.isSome_ofName?_iff {text : String} :
    (ofName? text).isSome ↔ text ∈ ["ROUTE", "OPERATION", "STEP", "SOURCE_STEP"] :=
  Names.isSome_find?_iff

/-- A station type has one of four names. -/
theorem StationType.isSome_ofName?_iff {text : String} :
    (ofName? text).isSome ↔ text ∈ ["MANUAL", "AUTO", "BATCH", "TEST"] :=
  Names.isSome_find?_iff

/-- A status has one of two names. -/
theorem VersionStatus.isSome_ofName?_iff {text : String} :
    (ofName? text).isSome ↔ text ∈ ["READY", "INVALID"] :=
  Names.isSome_find?_iff

/-! ## Rows that are not read -/

/-- A row of the overrides is not read if and only if its scope is unknown. -/
theorem OverrideRow.exists_error_iff (row : OverrideRow) :
    (∃ reason, row.toOverride = .error (.corruptRow reason)) ↔
      row.scope ∉ ["ROUTE", "OPERATION", "STEP", "SOURCE_STEP"] := by
  rw [← Scope.isSome_ofName?_iff]
  unfold toOverride
  cases Scope.ofName? row.scope <;> simp

/-- There is no other reason not to read one. -/
theorem OverrideRow.corruptRow_of_error {row : OverrideRow} {e : DatabaseError}
    (h : row.toOverride = .error e) : ∃ reason, e = .corruptRow reason := by
  unfold toOverride at h
  split at h
  · exact ⟨_, (Except.error.inj h).symm⟩
  · cases h

/-- A row of the versions is not read if and only if its status is unknown. -/
theorem VersionRow.exists_error_iff (row : VersionRow) :
    (∃ e, row.toVersion = .error e) ↔ row.status ∉ ["READY", "INVALID"] := by
  rw [← VersionStatus.isSome_ofName?_iff]
  unfold toVersion
  cases VersionStatus.ofName? row.status <;> simp

/-! ## Rows that are read and written back -/

/-- A filter leaves what it has no reason to drop. -/
theorem Option.filter_eq_self_iff {α : Type} {p : α → Bool} {a? : Option α} :
    a?.filter p = a? ↔ ∀ a ∈ a?, p a = true := by
  cases a? <;> simp [Option.filter_some]

namespace OverrideRow

variable {row : OverrideRow} {o : Override}

/-- A row that is read comes back without a station type of no name and without a mapping that is no
object. -/
theorem ofOverride_of_ok (h : row.toOverride = .ok o) : ofOverride o =
    { row with
      stationType := row.stationType.filter (· ∈ ["MANUAL", "AUTO", "BATCH", "TEST"])
      ingestMapping := row.ingestMapping.filter (·.json.isObject) } := by
  have htypes : ∀ text, decide (text ∈ ["MANUAL", "AUTO", "BATCH", "TEST"]) =
      (StationType.ofName? text).isSome := fun text => by
    rw [Bool.eq_iff_iff, decide_eq_true_iff, StationType.isSome_ofName?_iff]
  simp only [ofOverride_of_toOverride h, understood, htypes]

/-- A row comes back as it was if nothing of it was dropped. -/
theorem ofOverride_eq_self_iff (h : row.toOverride = .ok o) : ofOverride o = row ↔
    (∀ text ∈ row.stationType, text ∈ ["MANUAL", "AUTO", "BATCH", "TEST"]) ∧
      ∀ d ∈ row.ingestMapping, d.json.isObject = true := by
  have hcolumns : ofOverride o = row ↔
      row.stationType.filter (· ∈ ["MANUAL", "AUTO", "BATCH", "TEST"]) = row.stationType ∧
        row.ingestMapping.filter (·.json.isObject) = row.ingestMapping := by
    rw [ofOverride_of_ok h]
    constructor
    · exact fun heq => ⟨congrArg stationType heq, congrArg ingestMapping heq⟩
    · rintro ⟨htype, hmapping⟩
      rw [htype, hmapping]
  rw [hcolumns, Option.filter_eq_self_iff, Option.filter_eq_self_iff]
  simp only [decide_eq_true_eq]

end OverrideRow

/-- **Rows lose only what the model does not know.** An override, a step and a new version come back
from their rows as they were. A row of the overrides is corrupt if and only if its scope has none of
the four names, and a row of the versions if and only if its status has none of the two. A row of
the overrides that is read and written back is the same again if and only if its station type is
unset or has one of the four names, and its mapping is unset or an object; otherwise it differs in
that the column at fault is unset. -/
theorem rows_conversions :
    (∀ o : Override, (OverrideRow.ofOverride o).toOverride = .ok o) ∧
    (∀ s : RoutingStep, (RoutingStepRow.ofStep s).toStep = s) ∧
    (∀ (id : String) (d : VersionDraft), (VersionRow.ofDraft id d).toVersion = .ok (d.row id)) ∧
    (∀ row : OverrideRow,
      ((∃ reason, row.toOverride = .error (.corruptRow reason)) ↔
        row.scope ∉ ["ROUTE", "OPERATION", "STEP", "SOURCE_STEP"]) ∧
      (∀ e, row.toOverride = .error e → ∃ reason, e = .corruptRow reason) ∧
      ∀ o, row.toOverride = .ok o →
        (OverrideRow.ofOverride o = row ↔
          (∀ text ∈ row.stationType, text ∈ ["MANUAL", "AUTO", "BATCH", "TEST"]) ∧
            ∀ d ∈ row.ingestMapping, d.json.isObject = true) ∧
        OverrideRow.ofOverride o =
          { row with
            stationType := row.stationType.filter (· ∈ ["MANUAL", "AUTO", "BATCH", "TEST"])
            ingestMapping := row.ingestMapping.filter (·.json.isObject) }) ∧
    ∀ row : VersionRow,
      (∃ e, row.toVersion = .error e) ↔ row.status ∉ ["READY", "INVALID"] := by
  refine ⟨OverrideRow.toOverride_ofOverride, RoutingStepRow.toStep_ofStep, fun id d => ?_,
    fun row => ⟨row.exists_error_iff, fun e => OverrideRow.corruptRow_of_error, fun o h =>
      ⟨OverrideRow.ofOverride_eq_self_iff h, OverrideRow.ofOverride_of_ok h⟩⟩,
    VersionRow.exists_error_iff⟩
  rw [VersionRow.ofDraft_eq, VersionRow.toVersion_ofVersion]

end RoutePlan
