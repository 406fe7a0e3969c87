import RoutePlan.Proofs.Json.Reading
import RoutePlan.Relational.Columns
import Mathlib.Logic.Function.Basic

/-!
# Rows that are loaded as they were stored

What is turned into a row and back is the same again, whatever it is: a routing, a step, an override
(`OverrideRow.toOverride_ofOverride`), a version (`VersionRow.toVersion_ofVersion`). If moreover the
columns take everything and give it back (`Storage.Ideal`), every row is loaded as it was stored
(`OverrideColumns.load_ofRow`, `VersionColumns.load_ofRow`).
-/

namespace RoutePlan

/-- A storage that takes every text and gives back every value and every instant as it was. -/
structure Storage.Ideal (storage : Storage) : Prop where
  accepts : ∀ text, storage.accepts text = true
  read_write : ∀ d, storage.read (storage.write d) = some d
  keep : ∀ t, storage.keep t = t
  loads : ∀ t, storage.loads t = true

/-! ## Rows -/

/-- A station type is read back from its name. -/
@[simp] theorem readStationType_name (t : Option StationType) :
    readStationType (t.map StationType.name) = t := by
  cases t with
  | none => rfl
  | some t => exact StationType.ofName?_name t

/-- A row holds all of a step. -/
@[simp] theorem RoutingStepRow.toStep_ofStep (s : RoutingStep) : (ofStep s).toStep = s := by
  simp only [toStep, ofStep, readStationType_name]

namespace OverrideRow

/-- A row holds all of an override. -/
@[simp] theorem toOverride_ofOverride (o : Override) : (ofOverride o).toOverride = .ok o := by
  have hmapping : (o.ingestMapping.map (·.document)).bind IngestMapping.ofDocument? =
      o.ingestMapping := by
    cases o.ingestMapping with
    | none => rfl
    | some m => exact IngestMapping.ofDocument?_document m
  simp only [toOverride, ofOverride, Scope.ofName?_name, readStationType_name, hmapping]

end OverrideRow

namespace VersionRow

/-- The row of a version. -/
def ofVersion (v : RouteVersion) : VersionRow :=
  ⟨v.id, v.routingId, v.versionNo, v.status.name, v.snapshot, v.report, v.compiledAt⟩

/-- The row of a draft is that of the version that is made of it. -/
theorem ofDraft_eq (id : String) (d : VersionDraft) : ofDraft id d = ofVersion (d.row id) := rfl

/-- A row holds all of a version. -/
@[simp] theorem toVersion_ofVersion (v : RouteVersion) : (ofVersion v).toVersion = .ok v := by
  simp only [toVersion, ofVersion, VersionStatus.ofName?_name]

end VersionRow

/-! ## Columns -/

/-- A routing is loaded as it was stored. -/
theorem RoutingColumns.load_ofRouting (r : Routing) : (ofRouting r).load = .ok r := rfl

/-- A station group is loaded as it was stored. -/
theorem StationGroupColumns.load_ofGroup (g : StationGroup) : (ofGroup g).load = .ok g := rfl

/-- The row of a step is loaded as it was stored. -/
theorem StepColumns.load_ofRow (r : RoutingStepRow) : (ofRow r).load = .ok r := rfl

/-- A spec is loaded as it was stored. -/
theorem DataSpecColumns.load_ofSpec (s : DataSpec) : (ofSpec s).load = .ok s := rfl

section
variable [storage : Storage] (ideal : storage.Ideal)

include ideal

/-- A document is loaded as it was stored. -/
theorem Column.document_ofDocument (name : String) (d : Document) :
    Column.document name (ofDocument d) = .ok d := by
  simp only [document, ofDocument, ideal.read_write]

/-- A document that may be unset is loaded as it was stored. -/
theorem Column.mapM_document_ofDocument (name : String) (d : Option Document) :
    (d.map ofDocument).mapM (Column.document name) = .ok d := by
  cases d with
  | none => rfl
  | some d => exact congrArg (Except.map some) (document_ofDocument ideal name d)

/-- An instant is loaded as it was stored. -/
theorem Column.instant_keep (name : String) (t : Instant) :
    Column.instant name (some (storage.keep t)) = .ok t := by
  simp only [instant, required, ideal.keep, ideal.loads, if_true]
  rfl

/-- The row of an override is loaded as it was stored. -/
theorem OverrideColumns.load_ofRow (r : OverrideRow) : (ofRow r).load = .ok r := by
  simp only [load, ofRow, Column.required, Column.mapM_document_ofDocument ideal,
    Column.instant_keep ideal]
  rfl

/-- The row of a version is loaded as it was stored. -/
theorem VersionColumns.load_ofRow (r : VersionRow) : (ofRow r).load = .ok r := by
  simp only [load, ofRow, Column.required, bind, Except.bind, Column.document_ofDocument ideal,
    Column.mapM_document_ofDocument ideal, Column.instant_keep ideal]
  rfl

end

/-! ## An ideal storage -/

/-- The text of a number that leaves nothing out: a double is written by its sign and its bits. -/
def Number.exactText : Number → List Char
  | .int value => text (.int value)
  | .double d => 'e' :: (if d.negative then '-' else '+') :: Nat.toDigits 10 d.pattern

/-- Numbers are written exactly as numerals. -/
theorem Number.writesNumerals_exactText : WritesNumerals exactText := by
  intro n
  cases n with
  | int value => exact writesNumerals_text (.int value)
  | double d =>
    refine ⟨List.cons_ne_nil _ _, fun c hc => ?_⟩
    rcases List.mem_cons.1 hc with rfl | hc
    · decide
    rcases List.mem_cons.1 hc with rfl | hc
    · cases d.negative <;> decide
    · exact isNumeral_of_mem_toDigits c hc

/-- Numbers are known from their digits. -/
theorem toDigits_injective : Function.Injective (Nat.toDigits 10) := fun m n h => by
  rw [← Nat.ofDigitChars_ten_toDigits (n := m), h, Nat.ofDigitChars_ten_toDigits]

/-- Digits do not begin with another character. -/
theorem toDigits_ne_cons {c : Char} (hc : c.isDigit = false) (n : Nat) (cs : List Char) :
    Nat.toDigits 10 n ≠ c :: cs := by
  intro h
  have hdigit := Nat.isDigit_of_mem_toDigits (b := 10) (by decide) (by decide)
    (h ▸ List.mem_cons_self ..)
  rw [hc] at hdigit
  cases hdigit

/-- Integers are known from their texts. -/
theorem Number.text_int_injective {a b : Int} (h : text (.int a) = text (.int b)) : a = b := by
  unfold text at h
  dsimp only at h
  split at h <;> split at h
  · have := toDigits_injective (List.cons.inj h).2
    omega
  · exact absurd h.symm (toDigits_ne_cons (by decide) _ _)
  · exact absurd h (toDigits_ne_cons (by decide) _ _)
  · have := toDigits_injective h
    omega

/-- The text of an integer does not begin with an exponent mark. -/
theorem Number.text_int_ne_cons (a : Int) (cs : List Char) : text (.int a) ≠ 'e' :: cs := by
  unfold text
  dsimp only
  split
  · exact fun h => absurd (List.cons.inj h).1 (by decide)
  · exact toDigits_ne_cons (by decide) _ _

/-- Numbers are known from their exact texts. -/
theorem Number.exactText_injective : Function.Injective exactText := by
  intro m n h
  cases m with
  | int a =>
    cases n with
    | int b => rw [text_int_injective h]
    | double e => exact absurd h (text_int_ne_cons a _)
  | double d =>
    cases n with
    | int b => exact absurd h.symm (text_int_ne_cons b _)
    | double e =>
      obtain ⟨negative, pattern, _⟩ := d
      obtain ⟨negative', pattern', _⟩ := e
      obtain ⟨-, h⟩ := List.cons.inj h
      obtain ⟨hsign, hdigits⟩ := List.cons.inj h
      obtain rfl : pattern = pattern' := toDigits_injective hdigits
      have hsigns : ∀ a b : Bool, (if a then '-' else '+') = (if b then '-' else '+') → a = b := by
        decide
      rw [hsigns negative negative' hsign]

/-- A storage that keeps everything, with a text of its own for each value. -/
@[reducible] noncomputable def Storage.exact : Storage where
  accepts _ := true
  write d := d.json.canonicalWith Number.exactText
  read := Function.partialInv fun d : Document => d.json.canonicalWith Number.exactText
  keep := id
  loads _ := true

/-- The storage that writes exact texts is ideal. -/
theorem Storage.ideal_exact : exact.Ideal where
  accepts _ := rfl
  read_write := by
    refine Function.partialInv_left fun d e h => ?_
    have hnormal := Json.normal_eq_of_canonicalWith_eq Number.writesNumerals_exactText
      (fun m _ n _ h => Number.exactText_injective h) h
    exact Document.ext (d.isNormal.symm.trans (hnormal.trans e.isNormal))
  keep _ := rfl
  loads _ := rfl

end RoutePlan
