import ManagedPrometheus.Proofs.Descriptions
import ManagedPrometheus.Proofs.ManifestPersistence
import ManagedPrometheus.Proofs.StatusPatch

/-!
# Status codes as texts

The code of a resource is read by two rules, one for the answers of the backend and one for stored
statuses, and written by two, in messages and in stored statuses. The rules are made apart from each
other and agree on every text (`ofStored_eq_ofWire`) and every code (`storedText_eq_toText`). So the
phase of a resource is the same before and after its status is stored, and a code that is not known
stays apart from no code at all (`statusCodes_readAlike`).
-/

namespace ManagedPrometheus

/-- The texts of the codes that are known. -/
def knownCodeTexts : List String :=
  ["CREATING", "ACTIVE", "UPDATING", "DELETING", "CREATION_FAILED", "UPDATE_FAILED"]

namespace StatusCode

variable {text : String}

theorem storedText_eq_toText (code : StatusCode) : code.storedText = code.toText := by
  cases code <;> decide

theorem ofWire_toText (code : StatusCode) : ofWire code.toText = code := by
  cases code <;> decide

theorem ofStored_storedText (code : StatusCode) : ofStored code.storedText = code := by
  cases code <;> decide

theorem mem_knownCodeTexts_iff :
    text ∈ knownCodeTexts ↔ ∃ code : StatusCode, code ≠ .unknown ∧ code.toText = text := by
  constructor
  · intro h
    simp only [knownCodeTexts, List.mem_cons, List.not_mem_nil, or_false] at h
    rcases h with rfl | rfl | rfl | rfl | rfl | rfl
    · exact ⟨.creating, by decide, rfl⟩
    · exact ⟨.active, by decide, rfl⟩
    · exact ⟨.updating, by decide, rfl⟩
    · exact ⟨.deleting, by decide, rfl⟩
    · exact ⟨.creationFailed, by decide, rfl⟩
    · exact ⟨.updateFailed, by decide, rfl⟩
  · rintro ⟨code, hcode, rfl⟩
    cases code with
    | unknown => exact absurd rfl hcode
    | _ => decide

theorem ofWire_of_notMem (h : text ∉ knownCodeTexts) : ofWire text = .unknown := by
  simp only [knownCodeTexts, List.mem_cons, List.not_mem_nil, or_false, not_or] at h
  obtain ⟨hcreating, hactive, hupdating, hdeleting, hcreationFailed, hupdateFailed⟩ := h
  rw [ofWire, if_neg hcreating, if_neg hactive, if_neg hupdating, if_neg hdeleting,
    if_neg hcreationFailed, if_neg hupdateFailed]

theorem ofStored_of_notMem (h : text ∉ knownCodeTexts) : ofStored text = .unknown := by
  rw [ofStored]
  rcases hfound : all.find? fun code => code.storedText = text with _ | code
  · rw [hfound]
    rfl
  · -- only the code that stands for all other texts is left to be found
    have htext : code.storedText = text := by simpa using List.find?_some hfound
    rw [storedText_eq_toText] at htext
    rw [hfound, Option.getD_some]
    by_contra hcode
    exact h (mem_knownCodeTexts_iff.mpr ⟨code, hcode, htext⟩)

theorem ofStored_eq_ofWire (text : String) : ofStored text = ofWire text := by
  by_cases h : text ∈ knownCodeTexts
  · obtain ⟨code, -, rfl⟩ := mem_knownCodeTexts_iff.mp h
    rw [ofWire_toText, ← storedText_eq_toText, ofStored_storedText]
  · rw [ofStored_of_notMem h, ofWire_of_notMem h]

theorem ofWire_eq_unknown_iff : ofWire text = .unknown ↔ text ∉ knownCodeTexts := by
  constructor
  · intro h hknown
    obtain ⟨code, hcode, rfl⟩ := mem_knownCodeTexts_iff.mp hknown
    exact hcode ((ofWire_toText code).symm.trans h)
  · exact ofWire_of_notMem

theorem ofJson?_text (text : String) : StatusCode.ofJson? (.text text) = some (ofWire text) := by
  rw [ofJson?, ← ofStored_eq_ofWire]
  rfl

theorem toJson_eq_toText (code : StatusCode) : code.toJson = .text code.toText := by
  rw [toJson, storedText_eq_toText]

end StatusCode

/-! ### Phases -/

theorem Phase.ofCode_eq_unrecognized_iff {code : StatusCode} :
    ofCode code = .unrecognized ↔ code = .unknown := by
  cases code <;> decide

theorem Phase.ofCode_ne_notFound (code : StatusCode) : ofCode code ≠ .notFound := by
  cases code <;> decide

namespace Status

/-- The code of a status that is read from fields is the one that the text in them stands for. -/
theorem statusCode_of_read {members : List (String × Json)} {status : Status} {text : String}
    (hread : Status.ofJson? (.object members) = some status)
    (htext : ("statusCode", Json.text text) ∈ members) :
    status.statusCode = some (.ofWire text) := by
  simp only [ofJson?, Option.bind_eq_bind, Option.bind_eq_some_iff, Option.pure_def,
    Option.some.injEq] at hread
  obtain ⟨fields, hfields, -, -, code?, hcode, -, -, -, -, -, -, -, -, -, -, rfl⟩ := hread
  simp only [Json.fields?, Option.ite_none_right_eq_some, Option.some.injEq] at hfields
  obtain ⟨hnodup, rfl⟩ := hfields
  have hknown : fieldNames.contains "statusCode" = true := by decide
  have hfound := findEntry_of_mem hnodup (List.mem_filter.mpr ⟨htext, hknown⟩)
  rw [Json.optional, hfound] at hcode
  change (StatusCode.ofJson? (.text text)).map some = some code? at hcode
  rw [StatusCode.ofJson?_text] at hcode
  exact (Option.some.inj hcode).symm

/-- However the status is stored, it is read again in the same phase. -/
structure KeepsPhase (status : Status) : Prop where
  value : (ofJson? status.toJson).map phase = some status.phase
  text : ((Json.read? status.toJson.write).bind ofJson?).map phase = some status.phase
  /-- As a patch of the status that was there before. -/
  patched : ∀ previous? : Option Status,
    (ofJson? ((json? previous?).merge (patchBody previous? (some status)))).map phase
      = some status.phase

theorem keepsPhase (status : Status) : status.KeepsPhase := by
  constructor
  case value =>
    rw [status.written.2, Option.map_some]
    rfl
  case text =>
    rw [Json.read?_write status.plain_toJson, Option.bind_some, status.written.2, Option.map_some]
    rfl
  case patched =>
    intro previous?
    rw [merge_patchBody_eq_laidOver, (status.laidOver previous?).written.2, Option.map_some]
    rfl

end Status

/-! ### All readings -/

/-- A text stands for the same code wherever it is read, and the code is written the same
everywhere, in a text that is read as the code again. -/
structure StatusCode.ReadAlike (text : String) : Prop where
  stored : StatusCode.ofJson? (.text text) = some (.ofWire text)
  written : (ofWire text).toJson = .text (ofWire text).toText
  again : ofWire (ofWire text).toText = ofWire text
  storedAgain : StatusCode.ofJson? (ofWire text).toJson = some (.ofWire text)
  /-- A status that is read with this text is in the phase of the code. -/
  inStatus : ∀ members status, Status.ofJson? (.object members) = some status →
    ("statusCode", Json.text text) ∈ members → status.phase = Phase.ofCode (ofWire text)

theorem StatusCode.readAlike (text : String) : ReadAlike text := by
  constructor
  case stored => exact ofJson?_text text
  case written => exact toJson_eq_toText _
  case again => exact ofWire_toText _
  case storedAgain => exact (ofWire text).written.2
  case inStatus =>
    intro members status hread htext
    rw [Status.phase, Status.statusCode_of_read hread htext]
    rfl

/-- **Status codes.** For every text, reading it as the code of an answer and as the code of a stored
status gives the same code. This is written with the same text in messages and in stored statuses,
and read from that text again. A status that is stored, as a value, as text or by a patch, is read
again in the phase that it was in. A report with a code that is not known leads to the phase of such
codes, and no report of a code to the phase in which none has been seen. -/
theorem statusCodes_readAlike :
    (∀ text, StatusCode.ReadAlike text) ∧ (∀ status : Status, status.KeepsPhase) ∧
      ∀ (before : Status) (object : WireObject) (code : String), object.code? = some code →
        ((before.observe object).phase = .unrecognized ↔ code ∉ knownCodeTexts) ∧
          (before.observe object).phase ≠ .notFound := by
  refine ⟨StatusCode.readAlike, Status.keepsPhase, ?_⟩
  intro before object code hcode
  rw [observe_phase_of_code hcode, Phase.ofCode_eq_unrecognized_iff,
    StatusCode.ofWire_eq_unknown_iff]
  exact ⟨Iff.rfl, Phase.ofCode_ne_notFound _⟩

/-- A code of a later backend, reported of an active resource and stored over its status. -/
theorem statusCodes_readAlike_migrating :
    let active : Status := { Status.empty with statusCode := some .active }
    let report : WireObject := { WireObject.empty with status := some ⟨"MIGRATING", none⟩ }
    let observed := active.observe report
    report.code? = some "MIGRATING" ∧ "MIGRATING" ∉ knownCodeTexts ∧
      observed.phase = .unrecognized ∧
      (Status.ofJson? ((Status.json? active).merge (Status.patchBody active observed))).map
        Status.phase = some .unrecognized := by
  intro active report observed
  obtain ⟨-, hkept, hreported⟩ := statusCodes_readAlike
  have hphase : observed.phase = .unrecognized :=
    (hreported active report "MIGRATING" rfl).1.mpr (by decide)
  exact ⟨rfl, by decide, hphase, hphase ▸ (hkept observed).patched (some active)⟩

end ManagedPrometheus
