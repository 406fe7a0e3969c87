import RoutePlan.Proofs.Json.Members
import RoutePlan.Record.Reader

/-!
# Changes read from an object

The members of an object pass their check only if no field has two of them, so what is found at the
name of a field is the one member that has it (`RecordReader.lookupMember_eq_some_iff_mem`). A
change that is read from the object therefore says of the field what the object says of its name
(`RecordReader.Reflects`): nothing, null or a value.
-/

namespace RoutePlan
namespace RecordReader

section
variable {fields : List Field} {ending : Ending} {seen : List String} {key : Option String}
  {value : Source} {members : List (Option String × Source)} {name : String}

/-- The first member that passes has a text for its key. Either no field has this name, or the name
has not been met before and counts as met from there on. -/
theorem checkMembers_cons (h : checkMembers fields ending seen ((key, value) :: members) = .ok ()) :
    ∃ k, key = some k ∧
      (k ∉ fields.map Field.name ∧ checkMembers fields ending seen members = .ok () ∨
        k ∉ seen ∧ checkMembers fields ending (k :: seen) members = .ok ()) := by
  cases key with
  | none => cases h
  | some k =>
    refine ⟨k, rfl, ?_⟩
    rw [checkMembers] at h
    split at h
    · next hfind =>
      have hfield : k ∉ fields.map Field.name := by
        simpa [List.find?_eq_none] using hfind
      split at h
      · cases h
      · exact .inl ⟨hfield, h⟩
    · next f _ =>
      split at h
      · cases h
      · next hseen =>
        cases hcheck : f.check value with
        | error e =>
          rw [hcheck] at h
          cases h
        | ok _ =>
          rw [hcheck] at h
          exact .inr ⟨hseen, h⟩

/-- The name of a field is not met again. -/
theorem not_mem_of_seen (h : checkMembers fields ending seen members = .ok ())
    (hname : name ∈ fields.map Field.name) (hseen : name ∈ seen) (s : Source) :
    (some name, s) ∉ members := by
  induction members generalizing seen with
  | nil => simp
  | cons m members ih =>
    obtain ⟨key, value⟩ := m
    obtain ⟨k, rfl, ⟨hother, hrest⟩ | ⟨hnew, hrest⟩⟩ := checkMembers_cons h
    · have hne : name ≠ k := fun heq => hother (heq ▸ hname)
      simp [hne, ih hrest hseen]
    · have hne : name ≠ k := fun heq => hnew (heq ▸ hseen)
      simp [hne, ih hrest (List.mem_cons_of_mem _ hseen)]

/-- What is found at the name of a field is the member that has it. -/
theorem lookupMember_eq_some_iff_mem (h : checkMembers fields ending seen members = .ok ())
    (hname : name ∈ fields.map Field.name) {s : Source} :
    lookupMember name (namedMembers members) = some s ↔ (some name, s) ∈ members := by
  induction members generalizing seen with
  | nil => simp [namedMembers, lookupMember]
  | cons m members ih =>
    obtain ⟨key, value⟩ := m
    have hskip {k : String} (hne : k ≠ name) {seen' : List String}
        (hrest : checkMembers fields ending seen' members = .ok ()) :
        lookupMember name (namedMembers ((some k, value) :: members)) = some s ↔
          (some name, s) ∈ (some k, value) :: members := by
      have hrest := ih hrest
      rw [namedMembers] at hrest
      simp [namedMembers, lookupMember, hne, hne.symm, hrest]
    obtain ⟨k, rfl, ⟨hother, hrest⟩ | ⟨-, hrest⟩⟩ := checkMembers_cons h
    · exact hskip (fun heq => hother (heq ▸ hname)) hrest
    · by_cases heq : k = name
      · subst heq
        have hlast := not_mem_of_seen hrest hname (List.mem_cons_self ..) s
        simp [namedMembers, lookupMember, hlast, eq_comm]
      · exact hskip heq hrest

end

section
variable {α β : Type} {look : String → Option Source} {b : β}

/-- A record that is read of an object has passed the check of its members and is built of them. -/
theorem decode_obj_eq_ok {r : RecordReader α} {members : List (Option String × Source)}
    {ending : Ending} {a : α} (h : r.decode (.obj members ending) = .ok a) :
    checkMembers r.fields ending [] members = .ok () ∧
      r.build (fun name => lookupMember name (namedMembers members)) = .ok a := by
  rw [decode] at h
  cases hcheck : checkMembers r.fields ending [] members with
  | error e =>
    rw [hcheck] at h
    cases h
  | ok _ =>
    rw [hcheck] at h
    exact ⟨rfl, h⟩

/-- A reader with a function is built by the function of what is built. -/
theorem build_map_eq_ok {f : α → β} {r : RecordReader α} :
    (f <$> r).build look = .ok b ↔ ∃ a, r.build look = .ok a ∧ f a = b := by
  change (r.build look).map f = .ok b ↔ _
  cases r.build look <;> simp [Except.map]

/-- Two readers in turn are both built. -/
theorem build_seq_eq_ok {rf : RecordReader (α → β)} {ra : RecordReader α} :
    (rf <*> ra).build look = .ok b ↔
      ∃ f, rf.build look = .ok f ∧ ∃ a, ra.build look = .ok a ∧ f a = b := by
  change (rf.build look).bind (fun f => (ra.build look).bind fun a => .ok (f a)) = .ok b ↔ _
  cases rf.build look with
  | error e => simp [Except.bind]
  | ok f => cases ra.build look <;> simp [Except.bind]

end

section
variable {α : Type} {value : Decoder α} {name : String}
  {members : List (Option String × Source)} {c : Change α}

/-- What is not null is a value to be set. -/
theorem changed_of_ne_null {s : Source} (h : s ≠ .null) :
    changed value s = (value s).map .set := by
  cases s with
  | null => exact absurd rfl h
  | _ => rfl

/-- A change is read of null, which clears, or of a value, which sets. -/
theorem changed_eq_ok {s : Source} :
    changed value s = .ok c ↔
      s = .null ∧ c = .clear ∨ s ≠ .null ∧ ∃ a, value s = .ok a ∧ c = .set a := by
  by_cases h : s = .null
  · subst h
    simp [changed, eq_comm]
  · rw [changed_of_ne_null h]
    cases value s <;> simp [Except.map, h, eq_comm]

/-- A change says of a field what the members of an object say of its name: it keeps the field if
there is no such member, it clears the field if the member is null, and it sets the field to what is
read of the member if it is not null. -/
structure Reflects (value : Decoder α) (name : String) (members : List (Option String × Source))
    (c : Change α) : Prop where
  keep : c = .keep ↔ ∀ s, (some name, s) ∉ members
  clear : c = .clear ↔ (some name, .null) ∈ members
  set : ∀ a, c = .set a ↔ ∃ s, (some name, s) ∈ members ∧ s ≠ .null ∧ value s = .ok a

/-- What is built of the member with a name says of the field what the object says of the name. -/
theorem reflects_of_build
    (hfound : ∀ s, lookupMember name (namedMembers members) = some s ↔ (some name, s) ∈ members)
    (h : (change name value).build (fun n => lookupMember n (namedMembers members)) = .ok c) :
    Reflects value name members c := by
  change (lookupMember name (namedMembers members)).elim (.ok .keep) (changed value) = .ok c at h
  cases hlookup : lookupMember name (namedMembers members) with
  | none =>
    rw [hlookup] at h
    cases h
    have hnone : ∀ s, (some name, s) ∉ members := fun s hmem => by
      rw [← hfound s, hlookup] at hmem
      cases hmem
    constructor <;> simp [hnone]
  | some s =>
    have hmem : ∀ s', (some name, s') ∈ members ↔ s' = s := fun s' => by
      rw [← hfound s', hlookup, Option.some.injEq, eq_comm]
    rw [hlookup] at h
    rcases changed_eq_ok.1 h with ⟨rfl, rfl⟩ | ⟨hnull, a, ha, rfl⟩
    · constructor <;> simp [hmem]
    · constructor <;> simp [hmem, hnull, ha, Ne.symm hnull]

end

end RecordReader
end RoutePlan
