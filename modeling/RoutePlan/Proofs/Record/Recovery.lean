import RoutePlan.Model.Design
import RoutePlan.Proofs.Json.SameData
import Mathlib.Data.List.Forall2
import Mathlib.Data.List.Nodup

/-!
# Values written in another way

Whoever hands a record back may write its members in another order and add members of other names;
in a free-form value nothing but the order of members is free. A `Layout` tells the records in an
encoding from the rest, and `Layout.Admits` says which values count as the same encoding. A decoder
recovers a value if it reads it from every source of every such value (`Decoder.Recovers`). For a
record this is shown field by field: a reader that is put together from parts recovers what its
parts recover (`RecordReader.Recovers.map`, `RecordReader.Recovers.seq`), and it decodes an object
that was written under the names of its fields (`RecordReader.Recovers.decode`).
-/

namespace RoutePlan

variable {α β : Type}

/-! ## Values -/

namespace Json

/-- Whether a value has no other values in it. -/
def isScalar : Json → Bool
  | .arr _ | .obj _ => false
  | _ => true

/-- A value with no other parts is known from its data. -/
theorem SameData.eq_of_isScalar {e j : Json} (h : SameData e j) (he : e.isScalar = true) :
    j = e := by
  cases h with
  | null | bool | num | str => rfl
  | arr | obj => cases he

/-- The same data are null or are not. -/
theorem isNull_eq_of_sameData {e j : Json} (h : SameData e j) : e.isNull = j.isNull := by
  cases h <;> rfl

end Json

/-! ## Layouts -/

/-- Where the records are in an encoding. -/
inductive Layout
  /-- No record. -/
  | leaf
  | list (item : Layout)
  /-- A record, with the layout of what it has under each name. -/
  | record (fields : String → Layout)

namespace Layout

/-- The layout of a record that has no records in it. -/
def flat : Layout := record fun _ => leaf

/-- A value that counts as the given encoding. It has every member of a record exactly once, in any
order and among members of other names; outside of records it is the same data. -/
def Admits : Layout → Json → Json → Prop
  | leaf, e, j => e.SameData j
  | list item, .arr es, .arr js => List.Forall₂ item.Admits es js
  | record fields, .obj es, .obj ms => ∀ m ∈ es,
      (ms.map Prod.fst).count m.1 = 1 ∧ ∀ j, (m.1, j) ∈ ms → (fields m.1).Admits m.2 j
  | _, _, _ => False

variable {layout item : Layout} {fields : String → Layout} {e j : Json}

/-- Outside of records every value counts as itself. -/
theorem admits_leaf_self (e : Json) : leaf.Admits e e := Json.sameData_iff_normal_eq.2 rfl

/-- A list counts as another one exactly if its items do one by one. -/
theorem admits_list_iff : (list item).Admits e j ↔
    ∃ es js, e = .arr es ∧ j = .arr js ∧ List.Forall₂ item.Admits es js := by
  cases e <;> cases j <;> simp [Admits]

/-- A list without records may be taken item by item. -/
theorem admits_list_of_leaf {es : List Json} (h : leaf.Admits (.arr es) j) :
    (list leaf).Admits (.arr es) j := by
  cases h with
  | arr hlength hitems => exact List.forall₂_iff_get.2 ⟨hlength, fun i hi hi' => hitems i hi hi'⟩

/-- A record counts as another one exactly if each of its members does, and is there just once. -/
theorem admits_record_iff : (record fields).Admits e j ↔
    ∃ es ms, e = .obj es ∧ j = .obj ms ∧ ∀ m ∈ es,
      (ms.map Prod.fst).count m.1 = 1 ∧ ∀ j, (m.1, j) ∈ ms → (fields m.1).Admits m.2 j := by
  cases e <;> cases j <;> simp [Admits]

/-- What is admitted is also admitted in normal form. -/
theorem Admits.normal (h : layout.Admits e j) : layout.Admits e j.normal := by
  induction layout generalizing e j with
  | leaf => exact Json.sameData_iff_normal_eq.2 (h.normal_eq.trans j.normal_normal.symm)
  | list item ih =>
    obtain ⟨es, js, rfl, rfl, hitems⟩ := admits_list_iff.1 h
    refine admits_list_iff.2 ⟨es, _, rfl, rfl, ?_⟩
    rw [Json.normalItems_eq_map, List.forall₂_map_right_iff]
    exact hitems.imp fun _ _ => ih
  | record fields ih =>
    obtain ⟨es, ms, rfl, rfl, hmembers⟩ := admits_record_iff.1 h
    refine admits_record_iff.2 ⟨es, _, rfl, rfl, fun m hm => ?_⟩
    obtain ⟨hcount, hvalues⟩ := hmembers m hm
    refine ⟨?_, fun j hj => ?_⟩
    · -- in normal form no key is repeated, so it is enough that the key is there
      refine List.count_eq_one_of_mem (Json.strictKeys_normalMembers ms).nodup_keys ?_
      exact Json.mem_keys_normalMembers.2 (List.one_le_count_iff.1 (Nat.le_of_eq hcount.symm))
    · obtain ⟨v, hv, rfl⟩ := Json.mem_normalMembers hj
      exact ih _ (hvalues v hv)

/-- What is admitted may be rearranged, and members of other names may be added. -/
theorem Admits.of_perm {es ns ms extra : List (String × Json)}
    (h : (record fields).Admits (.obj es) (.obj ns)) (hperm : ms.Perm (ns ++ extra))
    (hextra : ∀ m ∈ extra, m.1 ∉ es.map Prod.fst) : (record fields).Admits (.obj es) (.obj ms) := by
  intro m hm
  have hother : ∀ n ∈ extra, n.1 ≠ m.1 := fun n hn heq =>
    hextra n hn (heq ▸ List.mem_map_of_mem hm)
  obtain ⟨hcount, hvalues⟩ := h m hm
  constructor
  · have hnone : (extra.map Prod.fst).count m.1 = 0 := by
      rw [List.count_eq_zero, List.mem_map]
      rintro ⟨n, hn, heq⟩
      exact hother n hn heq
    rw [(hperm.map Prod.fst).count_eq, List.map_append, List.count_append, hcount, hnone]
  · intro j hj
    rcases List.mem_append.1 (hperm.mem_iff.1 hj) with hj | hj
    · exact hvalues j hj
    · exact absurd rfl (hother (m.1, j) hj)

end Layout

/-! ## Sources of a value -/

namespace Source

variable {s : Source} {j : Json}

/-- A source of a member, under its key. -/
def ReadsMember (source : Option String × Source) (m : String × Json) : Prop :=
  source.1 = some m.1 ∧ source.2.json? = some m.2

/-- Sources are read as items exactly if each of them is. -/
theorem items?_eq_some_iff {items : List Source} {js : List Json} :
    items? items = some js ↔ List.Forall₂ (fun s j => s.json? = some j) items js := by
  induction items generalizing js with
  | nil => cases js <;> simp [items?]
  | cons s rest ih =>
    cases js with
    | nil => simp [items?]; split <;> simp
    | cons j js =>
      rw [List.forall₂_cons, ← ih, items?]
      cases s.json? <;> cases items? rest <;> simp

/-- Sources are read as members exactly if each of them is. -/
theorem members?_eq_some_iff {members : List (Option String × Source)}
    {ms : List (String × Json)} :
    members? members = some ms ↔ List.Forall₂ ReadsMember members ms := by
  induction members generalizing ms with
  | nil => cases ms <;> simp [members?]
  | cons s rest ih =>
    obtain ⟨key, s⟩ := s
    cases ms with
    | nil => simp [members?]; split <;> simp
    | cons m ms =>
      obtain ⟨k, j⟩ := m
      simp only [List.forall₂_cons, ← ih, members?, ReadsMember]
      cases key <;> cases s.json? <;> cases members? rest <;> simp

/-- An array is read as a value exactly if it comes to its end and each of its items is read. -/
theorem json?_arr_eq_some_iff {items : List Source} {ending : Ending} :
    (arr items ending).json? = some j ↔ ending ≠ .broken ∧
      ∃ js, List.Forall₂ (fun s j => s.json? = some j) items js ∧ .arr js = j := by
  simp [json?, items?_eq_some_iff]

/-- An object is read as a value exactly if it comes to its end and each of its members is read. -/
theorem json?_obj_eq_some_iff {members : List (Option String × Source)} {ending : Ending} :
    (obj members ending).json? = some j ↔ ending ≠ .broken ∧
      ∃ ms, List.Forall₂ ReadsMember members ms ∧ .obj ms = j := by
  simp [json?, members?_eq_some_iff]

/-- A source of an array has a source of each of its items. -/
theorem exists_items {js : List Json} (h : s.json? = some (.arr js)) :
    ∃ items ending, s = arr items ending ∧ ending ≠ .broken ∧
      List.Forall₂ (fun s j => s.json? = some j) items js := by
  cases s with
  | arr items ending =>
    obtain ⟨hending, _, hitems, heq⟩ := json?_arr_eq_some_iff.1 h
    cases heq
    exact ⟨items, ending, rfl, hending, hitems⟩
  | obj members ending =>
    obtain ⟨-, _, -, heq⟩ := json?_obj_eq_some_iff.1 h
    cases heq
  | _ => cases h

/-- A source of an object has a source of each of its members. -/
theorem exists_members {ms : List (String × Json)} (h : s.json? = some (.obj ms)) :
    ∃ members ending, s = obj members ending ∧ ending ≠ .broken ∧
      List.Forall₂ ReadsMember members ms := by
  cases s with
  | obj members ending =>
    obtain ⟨hending, _, hmembers, heq⟩ := json?_obj_eq_some_iff.1 h
    cases heq
    exact ⟨members, ending, rfl, hending, hmembers⟩
  | arr items ending =>
    obtain ⟨-, _, -, heq⟩ := json?_arr_eq_some_iff.1 h
    cases heq
  | _ => cases h

/-- A value with no other parts has one source. -/
theorem eq_ofJson_of_isScalar (hj : j.isScalar = true) (h : s.json? = some j) : s = .ofJson j := by
  cases s with
  | arr items ending =>
    obtain ⟨-, _, -, rfl⟩ := json?_arr_eq_some_iff.1 h
    cases hj
  | obj members ending =>
    obtain ⟨-, _, -, rfl⟩ := json?_obj_eq_some_iff.1 h
    cases hj
  | unreadable | broken => cases h
  | _ =>
    cases Option.some.inj h
    rfl

/-- A source of a value does not go wrong. -/
theorem isBroken_eq_false (h : s.json? = some j) : s.isBroken = false := by
  cases s <;> simp_all [json?, isBroken]

end Source

/-! ## Decoders -/

/-- Only the document null is written as null. -/
theorem Document.isNull_json {d : Document} (h : d ≠ .null) : d.json.isNull = false := by
  obtain ⟨j, hnormal⟩ := d
  cases j with
  | null => exact absurd rfl h
  | _ => rfl

/-- The decoder reads `a` from every source of every value that counts as its encoding `e`. -/
structure Decoder.Recovers (d : Decoder α) (layout : Layout) (e : Json) (a : α) : Prop where
  admits : layout.Admits e e
  decode : ∀ s j, s.json? = some j → layout.Admits e j → d s = .ok a

/-- The decoder reads `a` back from the normal form of `j`. -/
def Decoder.Reads (d : Decoder α) (j : Json) (a : α) : Prop := d (.ofJson j.normal) = .ok a

namespace Decoder

variable {d : Decoder α} {layout : Layout} {e : Json} {a : α}

/-- What is recovered is read back from where it is stored. -/
theorem Recovers.reads (h : d.Recovers layout e a) : d.Reads e a :=
  h.decode _ _ (Source.json?_ofJson _) h.admits.normal

/-- A value with no other parts has one source only, so it is enough that this one is read. -/
theorem Recovers.scalar (he : e.isScalar = true) (h : d (.ofJson e) = .ok a) :
    d.Recovers .leaf e a where
  admits := Layout.admits_leaf_self e
  decode s j hs hj := by
    rw [hj.eq_of_isScalar he] at hs
    rw [Source.eq_ofJson_of_isScalar he hs, h]

/-- A text is recovered. -/
theorem Recovers.text (s : String) : Decoder.text.Recovers .leaf (.str s) s := .scalar rfl rfl

/-- A truth value is recovered. -/
theorem Recovers.bool (b : Bool) : Decoder.bool.Recovers .leaf (.bool b) b := .scalar rfl rfl

/-- A number is recovered. -/
theorem Recovers.int32 (n : Int32) : Decoder.int32.Recovers .leaf (.ofInt32 n) n :=
  .scalar rfl (by simp [Json.ofInt32, Json.int, Source.ofJson, Decoder.int32])

/-- An instant is recovered if it is read from its text. -/
theorem Recovers.instant {t : Instant} (h : Instant.read? t.text = some t) :
    Decoder.instant.Recovers .leaf (.str t.text) t :=
  .scalar rfl (by simp only [Source.ofJson, Decoder.instant, h, Option.elim_some])

/-- A document is recovered in normal form. -/
theorem Recovers.document (d : Document) : Decoder.document.Recovers .leaf d.json d where
  admits := Layout.admits_leaf_self d.json
  decode s j hs hj := by
    have hd : Document.ofJson j = d := Document.ext (hj.normal_eq.symm.trans d.isNormal)
    simp only [Decoder.document, hs, hd]

/-- A value that may be unset is recovered, if it is not written as null when it is set. -/
theorem Recovers.optional {value : Decoder α} {toJson : α → Json} {a? : Option α}
    (h : ∀ a ∈ a?, value.Recovers .leaf (toJson a) a ∧ (toJson a).isNull = false) :
    (Decoder.optional value).Recovers .leaf (.ofOption toJson a?) a? := by
  cases a? with
  | none => exact .scalar rfl rfl
  | some a =>
    obtain ⟨ha, hnull⟩ := h a rfl
    refine ⟨ha.admits, fun s j hs hj => ?_⟩
    have hoptional : Decoder.optional value s = (value s).map some := by
      cases s with
      | null =>
        cases Option.some.inj hs
        have hsame : (toJson a).SameData .null := hj
        rw [Json.isNull_eq_of_sameData hsame] at hnull
        cases hnull
      | _ => rfl
    rw [hoptional, ha.decode s j hs hj]
    rfl

/-- A text that may be unset is recovered. -/
theorem Recovers.text? (s? : Option String) :
    (Decoder.optional Decoder.text).Recovers .leaf (.ofText? s?) s? := by
  have hjson : Json.ofText? s? = .ofOption .str s? := by cases s? <;> rfl
  rw [hjson]
  exact .optional fun s _ => ⟨.text s, rfl⟩

/-- A list is recovered if its items are. -/
theorem Recovers.list {item : Decoder α} {toJson : α → Json} {values : List α}
    (h : ∀ a ∈ values, item.Recovers layout (toJson a) a) :
    (Decoder.list item).Recovers (.list layout) (.arr (values.map toJson)) values where
  admits := by
    refine Layout.admits_list_iff.2 ⟨_, _, rfl, rfl, List.forall₂_same.2 fun e he => ?_⟩
    obtain ⟨a, ha, rfl⟩ := List.mem_map.1 he
    exact (h a ha).admits
  decode s j hs hj := by
    obtain ⟨_, js, heq, rfl, hadmits⟩ := Layout.admits_list_iff.1 hj
    cases heq
    obtain ⟨items, ending, rfl, hending, hitems⟩ := Source.exists_items hs
    have hvalues : items.mapM item = .ok values := by
      clear hs hj
      induction values generalizing items js with
      | nil =>
        cases hadmits
        cases hitems
        rfl
      | cons a values ih =>
        obtain ⟨ha, hvalues⟩ := List.forall_mem_cons.1 h
        cases hadmits with | cons hadmit hadmits
        cases hitems with | cons hitem hitems
        rw [List.mapM_cons, ha.decode _ _ hitem hadmit, ih hvalues _ hadmits _ hitems]
        rfl
    rw [Decoder.list, hvalues]
    exact if_neg hending

/-- A list of texts is recovered as data that is no record. -/
theorem Recovers.texts (texts : List String) :
    (Decoder.list Decoder.text).Recovers .leaf (.ofTexts texts) texts where
  admits := Layout.admits_leaf_self _
  decode s j hs hj := by
    have hlist : (Decoder.list Decoder.text).Recovers (.list .leaf) (.ofTexts texts) texts :=
      .list fun s _ => .text s
    exact hlist.decode s j hs (Layout.admits_list_of_leaf hj)

/-- A document that may be unset is recovered unless it is null. -/
theorem Recovers.document? {d? : Option Document} (h : d? ≠ some .null) :
    (Decoder.optional Decoder.document).Recovers .leaf (.ofOption Document.json d?) d? := by
  refine .optional fun d hd => ⟨.document d, Document.isNull_json ?_⟩
  rintro rfl
  exact h hd

/-- A list of texts that may be unset is recovered. -/
theorem Recovers.texts? (texts? : Option (List String)) :
    (Decoder.optional (Decoder.list Decoder.text)).Recovers .leaf
      (.ofOption .ofTexts texts?) texts? :=
  .optional fun texts _ => ⟨.texts texts, rfl⟩

/-- A truth value that may be unset is recovered. -/
theorem Recovers.bool? (b? : Option Bool) :
    (Decoder.optional Decoder.bool).Recovers .leaf (.ofOption .bool b?) b? :=
  .optional fun b _ => ⟨.bool b, rfl⟩

end Decoder

/-! ## Records -/

namespace RecordReader

/-- Members that are read from sources under their keys are found there. -/
theorem exists_lookupMember_namedMembers {members : List (Option String × Source)}
    {ms : List (String × Json)} {name : String} {j : Json}
    (hmembers : List.Forall₂ Source.ReadsMember members ms)
    (hname : lookupMember name ms = some j) :
    ∃ s, lookupMember name (namedMembers members) = some s ∧ s.json? = some j := by
  induction hmembers with
  | nil => cases hname
  | @cons member m members ms hmember _ ih =>
    obtain ⟨_, s⟩ := member
    obtain ⟨key, j'⟩ := m
    obtain ⟨rfl, hs⟩ := hmember
    rw [lookupMember] at hname
    rw [namedMembers, List.filterMap_cons]
    simp only [Option.map_some, lookupMember]
    split at hname
    · next heq =>
      cases hname
      exact ⟨s, if_pos heq, hs⟩
    · next hne =>
      obtain ⟨s', hs', hj⟩ := ih hname
      exact ⟨s', (if_neg hne).trans hs', hj⟩

/-- Members pass if none has the key of a field twice and each passes the check of its field. -/
theorem checkMembers_eq_ok {rs : List Field} {ending : Ending} {seen : List String}
    {members : List (Option String × Source)} {ms : List (String × Json)}
    (hending : ending ≠ .broken) (hmembers : List.Forall₂ Source.ReadsMember members ms)
    (hcheck : ∀ f ∈ rs, ∀ s j, s.json? = some j → (f.name, j) ∈ ms → f.check s = .ok ())
    (hcount : ∀ f ∈ rs, (ms.map Prod.fst).count f.name ≤ 1)
    (hseen : ∀ f ∈ rs, f.name ∈ seen → f.name ∉ ms.map Prod.fst) :
    checkMembers rs ending seen members = .ok () := by
  induction hmembers generalizing seen with
  | nil => exact if_neg hending
  | @cons member m members ms hmember _ ih =>
    obtain ⟨_, s⟩ := member
    obtain ⟨key, j⟩ := m
    obtain ⟨rfl, hs⟩ := hmember
    have hchecks : ∀ f ∈ rs, ∀ s j, s.json? = some j → (f.name, j) ∈ ms → f.check s = .ok () :=
      fun f hf s j hs hj => hcheck f hf s j hs (List.mem_cons_of_mem _ hj)
    have hcounts : ∀ f ∈ rs, (ms.map Prod.fst).count f.name ≤ 1 := fun f hf =>
      Nat.le_trans List.count_le_count_cons (hcount f hf)
    have hunseen : ∀ f ∈ rs, f.name ∈ seen → f.name ∉ ms.map Prod.fst := fun f hf hmem hkey =>
      hseen f hf hmem (List.mem_cons_of_mem _ hkey)
    rw [checkMembers]
    split
    · -- no field has the key: the value is passed over, and it does not go wrong
      rw [if_neg (by rw [Source.isBroken_eq_false hs]; decide)]
      exact ih hchecks hcounts hunseen
    · next f hfind =>
      have hf : f ∈ rs := List.mem_of_find?_eq_some hfind
      have hname : f.name = key := by simpa using List.find?_some hfind
      subst hname
      rw [if_neg fun hmem => hseen f hf hmem (List.mem_cons_self ..),
        hcheck f hf s j hs (List.mem_cons_self ..)]
      refine ih hchecks hcounts fun g hg hmem => ?_
      rcases List.mem_cons.1 hmem with heq | hmem
      · -- the key has been met once and is not met again
        have hone := hcount f hf
        rw [List.map_cons, List.count_cons_self] at hone
        rw [heq, ← List.count_eq_zero]
        exact Nat.le_zero.1 (Nat.le_of_succ_le_succ hone)
      · exact hunseen g hg hmem

/-- The reader builds `a` from any sources of what an encoding has under its keys, and for each
field there is a member that passes its check. -/
structure Recovers (r : RecordReader α) (fields : String → Layout) (es : List (String × Json))
    (a : α) : Prop where
  build : ∀ look : String → Option Source,
    (∀ m ∈ es, ∃ s j, look m.1 = some s ∧ s.json? = some j ∧ (fields m.1).Admits m.2 j) →
      r.build look = .ok a
  check : ∀ f ∈ r.fields, ∃ e, (f.name, e) ∈ es ∧ Decoder.Recovers f.check (fields f.name) e ()

variable {fields : String → Layout} {es : List (String × Json)} {name : String} {e : Json}
  {value : Decoder α} {a : α}

/-- A field is recovered from the member with its name. -/
theorem Recovers.field {absent short : Except DecodeError α}
    (hname : lookupMember name es = some e) (h : value.Recovers (fields name) e a) :
    (RecordReader.field name value absent short).Recovers fields es a where
  build look hlook := by
    obtain ⟨s, j, hs, hj, hadmits⟩ := hlook _ (mem_of_lookupMember hname)
    simp only [RecordReader.field, hs, Option.elim_some, h.decode s j hj hadmits]
  check f hf := by
    rw [RecordReader.field, List.mem_singleton] at hf
    subst hf
    refine ⟨e, mem_of_lookupMember hname, h.admits, fun s j hs hj => ?_⟩
    exact congrArg (Except.map fun _ => ()) (h.decode s j hs hj)

/-- A field that must be given is recovered from the member with its name. -/
theorem Recovers.required (hname : lookupMember name es = some e)
    (h : value.Recovers (fields name) e a) :
    (RecordReader.required name value).Recovers fields es a :=
  .field hname h

/-- A field that may be unset is recovered from the member with its name. -/
theorem Recovers.optional {a? : Option α} (hname : lookupMember name es = some e)
    (h : (Decoder.optional value).Recovers (fields name) e a?) :
    (RecordReader.optional name value).Recovers fields es a? :=
  .field hname h

/-- What is made of a recovered value is recovered. -/
theorem Recovers.map {r : RecordReader α} (h : r.Recovers fields es a) (f : α → β) :
    (f <$> r).Recovers fields es (f a) :=
  ⟨fun look hlook => congrArg (Except.map f) (h.build look hlook), h.check⟩

/-- Two parts of a record are recovered together. -/
theorem Recovers.seq {rf : RecordReader (α → β)} {ra : RecordReader α} {f : α → β}
    (hf : rf.Recovers fields es f) (ha : ra.Recovers fields es a) :
    (rf <*> ra).Recovers fields es (f a) where
  build look hlook := by
    show (do
      let f ← rf.build look
      let a ← ra.build look
      .ok (f a)) = _
    rw [hf.build look hlook, ha.build look hlook]
    rfl
  check field hfield := by
    rcases List.mem_append.1 hfield with hfield | hfield
    · exact hf.check field hfield
    · exact ha.check field hfield

/-- A record is recovered from its object, if it is written under the names of its fields and no
two of these are equal. -/
theorem Recovers.decode {r : RecordReader α} (h : r.Recovers fields es a)
    (hkeys : es.map Prod.fst = r.fields.map Field.name) (hnodup : (r.fields.map Field.name).Nodup) :
    Decoder.Recovers r.decode (.record fields) (.obj es) a := by
  have hes : (es.map Prod.fst).Nodup := hkeys ▸ hnodup
  constructor
  case admits =>
    intro m hm
    have hkey : m.1 ∈ es.map Prod.fst := List.mem_map_of_mem hm
    refine ⟨List.count_eq_one_of_mem hes hkey, fun j hj => ?_⟩
    rw [hkeys] at hkey
    obtain ⟨f, hf, hname⟩ := List.mem_map.1 hkey
    obtain ⟨e, he, hcheck⟩ := h.check f hf
    rw [hname] at he hcheck
    have hfound := lookupMember_of_mem hes he
    cases hfound.symm.trans (lookupMember_of_mem hes hm)
    cases hfound.symm.trans (lookupMember_of_mem hes hj)
    exact hcheck.admits
  case decode =>
    intro s j hs hj
    obtain ⟨_, ms, heq, rfl, hadmits⟩ := Layout.admits_record_iff.1 hj
    cases heq
    obtain ⟨members, ending, rfl, hending, hmembers⟩ := Source.exists_members hs
    have hpasses : checkMembers r.fields ending [] members = .ok () := by
      refine checkMembers_eq_ok hending hmembers (fun f hf s j hs hj => ?_) (fun f hf => ?_)
        fun _ _ hmem => nomatch hmem
      · obtain ⟨e, he, hcheck⟩ := h.check f hf
        exact hcheck.decode s j hs ((hadmits _ he).2 j hj)
      · obtain ⟨e, he, -⟩ := h.check f hf
        exact Nat.le_of_eq (hadmits _ he).1
    have hbuild : r.build (fun name => lookupMember name (namedMembers members)) = .ok a := by
      refine h.build _ fun m hm => ?_
      obtain ⟨hcount, hvalues⟩ := hadmits m hm
      obtain ⟨j, hj⟩ : ∃ j, lookupMember m.1 ms = some j := by
        rw [← Option.ne_none_iff_exists', ne_eq, lookupMember_eq_none, not_not]
        exact List.one_le_count_iff.1 (Nat.le_of_eq hcount.symm)
      obtain ⟨s, hs, hsj⟩ := exists_lookupMember_namedMembers hmembers hj
      exact ⟨s, j, hs, hsj, hvalues j (mem_of_lookupMember hj)⟩
    rw [RecordReader.decode, hpasses]
    exact hbuild

end RecordReader
end RoutePlan
