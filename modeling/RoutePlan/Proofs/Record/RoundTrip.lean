import RoutePlan.Command.Input
import RoutePlan.Model.Override
import RoutePlan.Model.Snapshot
import RoutePlan.Model.Version
import RoutePlan.Proofs.Record.Recovery

/-!
# Reading records back

Snapshots, overrides and versions are read back from what is written of them
(`records_roundTrip`): the parts of a record first, then the record, field by field. The free-form
part of an override and the report of a version must not be the document null, since null is what is
written for them when they are unset. Of each time it is assumed that it is read from its text.
-/

namespace RoutePlan

variable {α : Type}

/-- A text that has a value is read to its end. -/
theorem Json.exists_source_of_read? {text : String} {j : Json} (h : read? text = some j) :
    ∃ s, Source.read text = (s, true) ∧ s.json? = some j := by
  unfold read? at h
  split at h
  next s alone hread =>
    cases alone with
    | true => exact ⟨s, hread, h⟩
    | false => cases h

/-! ## Parts of records -/

/-- A value of a closed list is recovered from its name. -/
theorem Names.recovers {names : Names α} {a : α} (h : names.find? (names.name a) = some a) :
    names.decode.Recovers .leaf (.str (names.name a)) a :=
  .scalar rfl (by simp only [Source.ofJson, decode, require, h])

/-- A station type is recovered from its name. -/
theorem StationType.recovers (t : StationType) : StationType.decode.Recovers .leaf t.toJson t :=
  Names.recovers t.ofName?_name

/-- A scope is recovered from its name. -/
theorem Scope.recovers (s : Scope) : Scope.decode.Recovers .leaf s.toJson s :=
  Names.recovers s.ofName?_name

/-- A status is recovered from its name. -/
theorem VersionStatus.recovers (s : VersionStatus) :
    VersionStatus.decode.Recovers .leaf s.toJson s :=
  Names.recovers s.ofName?_name

/-- The normal form of a mapping is an object. -/
theorem IngestMapping.exists_normal (m : IngestMapping) :
    ∃ members, m.toJson.normal = .obj members := by
  obtain ⟨⟨j, hnormal⟩, hobject⟩ := m
  cases j with
  | obj members => exact ⟨members, hnormal⟩
  | _ => cases hobject

/-- No mapping is written as null. -/
theorem IngestMapping.isNull_toJson (m : IngestMapping) : m.toJson.isNull = false := by
  obtain ⟨⟨j, _⟩, hobject⟩ := m
  cases j with
  | null => cases hobject
  | _ => rfl

/-- A mapping is recovered. -/
theorem IngestMapping.recovers (m : IngestMapping) :
    IngestMapping.decode.Recovers .leaf m.toJson m where
  admits := Layout.admits_leaf_self _
  decode s j hs hj := by
    have hdocument := (Decoder.Recovers.document m.document).decode s j hs hj
    unfold decode
    rw [hdocument]
    show (ofDocument? m.document).elim (Except.error DecodeError.badValue) Except.ok = _
    rw [ofDocument?_document, Option.elim_some]

/-- A station type that may be unset is recovered. -/
theorem StationType.recovers? (t? : Option StationType) :
    (Decoder.optional decode).Recovers .leaf (.ofOption toJson t?) t? :=
  .optional fun t _ => ⟨t.recovers, rfl⟩

/-- A mapping that may be unset is recovered. -/
theorem IngestMapping.recovers? (m? : Option IngestMapping) :
    (Decoder.optional decode).Recovers .leaf (.ofOption toJson m?) m? :=
  .optional fun m _ => ⟨m.recovers, m.isNull_toJson⟩

/-! ## Snapshots -/

/-- The identity of a route is recovered. -/
theorem RouteIdentity.recovers (r : RouteIdentity) :
    RouteIdentity.decode.Recovers .flat r.toJson r := by
  refine RecordReader.Recovers.decode ?_ rfl (by decide)
  refine .seq (.seq (.map ?code _) ?sourceSystem) ?sourceKey
  case code => exact .required rfl (.text _)
  case sourceSystem => exact .required rfl (.text _)
  case sourceKey => exact .optional rfl (.text? _)

/-- No key of a compiled step is written twice. -/
theorem CompiledStep.nodup_keys (s : CompiledStep) : s.toJson.keys.Nodup :=
  (by decide : ["stepNo", "operationId", "stationType", "stationGroupId", "allowedStationIds",
    "requiresFAI", "requiresAuthorization", "dataSpecIds", "ingestMapping"].Nodup)

/-- A compiled step is recovered. -/
theorem CompiledStep.recovers (s : CompiledStep) :
    CompiledStep.decode.Recovers .flat s.toJson s := by
  refine RecordReader.Recovers.decode ?_ rfl (by decide)
  refine .seq (.seq (.seq (.seq (.seq (.seq (.seq (.seq (.map ?stepNo _) ?operationId)
    ?stationType) ?stationGroupId) ?allowedStationIds) ?requiresFAI) ?requiresAuthorization)
    ?dataSpecIds) ?ingestMapping
  case stepNo => exact .required rfl (.int32 _)
  case operationId => exact .required rfl (.text _)
  case stationType => exact .required rfl s.stationType.recovers
  case stationGroupId => exact .optional rfl (.text? _)
  case allowedStationIds => exact .required rfl (.texts _)
  case requiresFAI => exact .required rfl (.bool _)
  case requiresAuthorization => exact .required rfl (.bool _)
  case dataSpecIds => exact .required rfl (.texts _)
  case ingestMapping => exact .optional rfl (IngestMapping.recovers? _)

/-- A stamp is recovered if its time is read from its text. -/
theorem VersionStamp.recovers {s : VersionStamp}
    (h : Instant.read? s.compiledAt.text = some s.compiledAt) :
    VersionStamp.decode.Recovers .flat s.toJson s := by
  refine RecordReader.Recovers.decode ?_ rfl (by decide)
  refine .seq (.map ?versionNo _) ?compiledAt
  case versionNo => exact .required rfl (.int32 _)
  case compiledAt => exact .required rfl (.instant h)

/-- No key of a snapshot is written twice. -/
theorem Snapshot.nodup_keys (s : Snapshot) : s.toJson.keys.Nodup :=
  (by decide : ["route", "steps", "routeVersion"].Nodup)

/-- The parts of a snapshot are records, and so are its steps. -/
def Snapshot.parts (name : String) : Layout := if name = "steps" then .list .flat else .flat

/-- A snapshot is recovered part by part. -/
theorem Snapshot.recovers {s : Snapshot}
    (h : Instant.read? s.routeVersion.compiledAt.text = some s.routeVersion.compiledAt) :
    Snapshot.decode.Recovers (.record parts) s.toJson s := by
  refine RecordReader.Recovers.decode ?_ rfl (by decide)
  refine .seq (.seq (.map ?route _) ?steps) ?routeVersion
  case route => exact .required rfl s.route.recovers
  case steps => exact .required rfl (.list fun step _ => step.recovers)
  case routeVersion => exact .required rfl (VersionStamp.recovers h)

/-- A snapshot is read back from where it is stored. -/
theorem Snapshot.reads {s : Snapshot}
    (h : Instant.read? s.routeVersion.compiledAt.text = some s.routeVersion.compiledAt) :
    Snapshot.decode.Reads s.toJson s :=
  (Snapshot.recovers h).reads

/-! ## Overrides and versions -/

/-- An override is recovered unless its free-form part is the document null. -/
theorem Override.recovers {o : Override} (hinfo : o.info ≠ some .null)
    (hcreated : Instant.read? o.createdAt.text = some o.createdAt)
    (hupdated : Instant.read? o.updatedAt.text = some o.updatedAt) :
    Override.decode.Recovers .flat o.toJson o := by
  refine RecordReader.Recovers.decode ?_ rfl (by decide)
  refine .seq (.seq (.seq (.seq (.seq (.seq (.seq (.seq (.seq (.seq (.seq (.seq (.seq (.seq (.seq
    (.map ?id _) ?scope) ?routingId) ?routingStepId) ?sourceStepKey) ?operationId) ?stationType)
    ?stationGroupId) ?allowedStationIds) ?requiresFAI) ?requiresAuthorization) ?dataSpecIds)
    ?ingestMapping) ?info) ?createdAt) ?updatedAt
  case id => exact .required rfl (.text _)
  case scope => exact .required rfl o.scope.recovers
  case routingId => exact .optional rfl (.text? _)
  case routingStepId => exact .optional rfl (.text? _)
  case sourceStepKey => exact .optional rfl (.text? _)
  case operationId => exact .optional rfl (.text? _)
  case stationType => exact .optional rfl (StationType.recovers? _)
  case stationGroupId => exact .optional rfl (.text? _)
  case allowedStationIds => exact .optional rfl (.texts? _)
  case requiresFAI => exact .optional rfl (.bool? _)
  case requiresAuthorization => exact .optional rfl (.bool? _)
  case dataSpecIds => exact .optional rfl (.texts? _)
  case ingestMapping => exact .optional rfl (IngestMapping.recovers? _)
  case info => exact .optional rfl (.document? hinfo)
  case createdAt => exact .required rfl (.instant hcreated)
  case updatedAt => exact .required rfl (.instant hupdated)

/-- A version is recovered unless its report is the document null. -/
theorem RouteVersion.recovers {v : RouteVersion} (hreport : v.report ≠ some .null)
    (htime : Instant.read? v.compiledAt.text = some v.compiledAt) :
    RouteVersion.decode.Recovers .flat v.toJson v := by
  refine RecordReader.Recovers.decode ?_ rfl (by decide)
  refine .seq (.seq (.seq (.seq (.seq (.seq (.map ?id _) ?routingId) ?versionNo) ?status)
    ?snapshot) ?report) ?compiledAt
  case id => exact .required rfl (.text _)
  case routingId => exact .required rfl (.text _)
  case versionNo => exact .required rfl (.int32 _)
  case status => exact .required rfl v.status.recovers
  case snapshot => exact .required rfl (.document _)
  case report => exact .optional rfl (.document? hreport)
  case compiledAt => exact .required rfl (.instant htime)

/-! ## Round trips -/

/-- The records of a kind, as far as they are `Sound`, are recovered from what `toJson` writes. -/
structure Decoder.RoundTrips (d : Decoder α) (parts : String → Layout) (toJson : α → Json)
    (Sound : α → Prop) : Prop where
  /-- What is written counts as itself. -/
  admits : ∀ {a}, Sound a → (Layout.record parts).Admits (toJson a) (toJson a)
  /-- A record is read back from where it is stored. -/
  stored : ∀ {a}, Sound a → d.Reads (toJson a) a
  /-- A record is read from its members in any order and among members of other names. -/
  rearranged : ∀ {a}, Sound a → ∀ {es ms extra : List (String × Json)}, toJson a = .obj es →
    ms.Perm (es ++ extra) → (∀ m ∈ extra, m.1 ∉ es.map Prod.fst) →
      d (.ofJson (.obj ms)) = .ok a
  /-- A record is read from whatever counts as written for it. -/
  recovers : ∀ {a}, Sound a → ∀ s j, s.json? = some j →
    (Layout.record parts).Admits (toJson a) j → d s = .ok a
  /-- A record is read from a text that says what counts as written for it. -/
  ofText : ∀ {a}, Sound a → ∀ text j, Json.read? text = some j →
    (Layout.record parts).Admits (toJson a) j → d.ofText text = .ok a
  /-- What counts as written for two records counts for equal ones. -/
  unique : ∀ {a b}, Sound a → Sound b → ∀ j, (Layout.record parts).Admits (toJson a) j →
    (Layout.record parts).Admits (toJson b) j → a = b

/-- Nothing has to be shown but that each record is recovered. -/
theorem Decoder.RoundTrips.of_recovers {d : Decoder α} {parts : String → Layout}
    {toJson : α → Json} {Sound : α → Prop}
    (h : ∀ {a}, Sound a → d.Recovers (.record parts) (toJson a) a) :
    d.RoundTrips parts toJson Sound where
  admits ha := (h ha).admits
  stored ha := (h ha).reads
  rearranged {a} ha {es ms extra} hes hperm hextra := by
    have hself := (h ha).admits
    have hread := (h ha).decode _ (.obj ms) (Source.json?_ofJson _)
    rw [hes] at hself hread
    exact hread (hself.of_perm hperm hextra)
  recovers ha := (h ha).decode
  ofText ha text j htext hj := by
    obtain ⟨s, hread, hs⟩ := Json.exists_source_of_read? htext
    simp only [Decoder.ofText, hread, (h ha).decode s j hs hj, if_true]
  unique ha hb j haj hbj := by
    have hread := (h ha).decode _ j (Source.json?_ofJson j) haj
    rw [(h hb).decode _ j (Source.json?_ofJson j) hbj] at hread
    exact (Except.ok.inj hread).symm

/-- **What is written of a record decodes to the record.** Snapshots, overrides and versions are
recovered from what is written of them, with the members of each record in any order and among
members of other names, and what is written tells them apart. -/
theorem records_roundTrip :
    Snapshot.decode.RoundTrips Snapshot.parts Snapshot.toJson
      (fun s => Instant.read? s.routeVersion.compiledAt.text = some s.routeVersion.compiledAt) ∧
    Override.decode.RoundTrips (fun _ => .leaf) Override.toJson
      (fun o => o.info ≠ some .null ∧ Instant.read? o.createdAt.text = some o.createdAt ∧
        Instant.read? o.updatedAt.text = some o.updatedAt) ∧
    RouteVersion.decode.RoundTrips (fun _ => .leaf) RouteVersion.toJson
      (fun v => v.report ≠ some .null ∧ Instant.read? v.compiledAt.text = some v.compiledAt) :=
  ⟨.of_recovers Snapshot.recovers,
    .of_recovers fun ⟨hinfo, hcreated, hupdated⟩ => Override.recovers hinfo hcreated hupdated,
    .of_recovers fun ⟨hreport, htime⟩ => RouteVersion.recovers hreport htime⟩

/-- A snapshot with one step at a station that delivers its data by machine. -/
def Snapshot.oneStep : Snapshot where
  route := ⟨"R1", "MES", none⟩
  steps := [⟨1, "o1", .auto, none, ["s1"], false, true, [],
    some ⟨⟨.obj [("a", .int 1), ("b", .null)], by rfl⟩, rfl⟩⟩]
  routeVersion := ⟨1, ⟨0, 0⟩⟩

/-- The same snapshot as another program may write it: the members are in another order at every
level, also in the mapping, and there are a comment and the code of a station group besides. -/
def Snapshot.rearranged : Json :=
  .obj [("comment", .str "by hand"),
    ("routeVersion", .obj [("compiledAt", .str "1970-01-01T00:00:00Z"), ("versionNo", .int 1)]),
    ("steps", .arr [.obj [("ingestMapping", .obj [("b", .null), ("a", .int 1)]),
      ("operationId", .str "o1"), ("stepNo", .int 1), ("stationType", .str "AUTO"),
      ("requiresFAI", .bool false), ("requiresAuthorization", .bool true),
      ("stationGroupCode", .str "G1"), ("dataSpecIds", .arr []), ("stationGroupId", .null),
      ("allowedStationIds", .arr [.str "s1"])]]),
    ("route", .obj [("sourceKey", .null), ("sourceSystem", .str "MES"), ("code", .str "R1")])]

/-- The rearranged snapshot counts as the other one. -/
theorem Snapshot.admits_rearranged :
    (Layout.record parts).Admits oneStep.toJson rearranged := by
  simp only [parts, Layout.flat, Layout.Admits, toJson, oneStep, rearranged, stepsJson,
    RouteIdentity.toJson, CompiledStep.toJson, StationType.toJson, VersionStamp.toJson,
    List.map_cons, List.map_nil, List.mem_cons, List.not_mem_nil, or_false, List.nodup_cons,
    String.reduceEq, or_self, not_false_eq_true, List.nodup_nil, and_self, Prod.mk.injEq,
    forall_eq_or_imp, or_true, List.count_eq_one_of_mem, false_and, true_and, false_or, if_true,
    if_false, forall_eq, List.forall₂_cons, List.forall₂_same, IsEmpty.forall_iff, implies_true,
    and_true]
  -- what is left compares the values under the same keys
  decide +kernel

/-- It is read although it is written in another way. -/
theorem records_roundTrip_rearranged :
    Snapshot.decode (.ofJson Snapshot.rearranged) = .ok Snapshot.oneStep :=
  records_roundTrip.1.recovers (by decide +kernel) _ _ (Source.json?_ofJson _)
    Snapshot.admits_rearranged

end RoutePlan
