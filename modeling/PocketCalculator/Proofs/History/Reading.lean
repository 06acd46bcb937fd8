import PocketCalculator.History.Ledger
import PocketCalculator.Proofs.Json.Records
import PocketCalculator.Proofs.Text.Utf8

/-!
# Ledgers are read

What is read as a ledger is a JSON text of records of its entries, whoever wrote it
(`read?_eq_some_iff`): a record is an object with its fields in any order, others besides, and
possibly no id, or an array of its fields, and its numbers have 64 bits. So the text of a ledger is
read as the same ledger.
-/

namespace PocketCalculator

namespace Entry

/-- Whether the numbers of an entry fit its record. -/
structure Fits (e : Entry) : Prop where
  id : ∀ id, e.id = some id → minInt ≤ id ∧ id ≤ maxInt
  time : minInt ≤ e.time ∧ e.time ≤ maxInt

variable {e : Entry}

theorem valid_toJson (e : Entry) : e.toJson.Valid := by
  obtain ⟨id, formula, result, time⟩ := e
  cases id with
  | none => exact ⟨trivial, trivial, Json.valid_ofInt time, trivial⟩
  | some id => exact ⟨Json.valid_ofInt id, trivial, trivial, Json.valid_ofInt time, trivial⟩

/-- The fields of a record of an entry: without an id there is no such field, or it is null. -/
inductive Gives (e : Entry) : List (Option Json) → Prop
  | numbered {id : Int} : e.id = some id → Gives e
      [some (.ofInt id), some (.ofText e.formula), some (.ofText e.result), some (.ofInt e.time)]
  | null : e.id = none → Gives e
      [some .null, some (.ofText e.formula), some (.ofText e.result), some (.ofInt e.time)]
  | unnumbered : e.id = none → Gives e
      [none, some (.ofText e.formula), some (.ofText e.result), some (.ofInt e.time)]

/-- Whether a value is a record of an entry: an object with its fields, or an array of them all. -/
inductive RecordedBy (e : Entry) : Json → Prop
  | object {values : List (Option Json)} {members : List (Option Text × Json)} : e.Gives values →
      Json.HasFields fieldNames values members → RecordedBy e (.object members)
  | array {items : List Json} : e.Gives (items.map some) → RecordedBy e (.array items)

theorem Gives.length_eq {values : List (Option Json)} (h : e.Gives values) :
    fieldNames.length = values.length := by
  cases h <;> rfl

theorem Gives.getLast?_eq {values : List (Option Json)} (h : e.Gives values) :
    values.getLast? = some (some (.ofInt e.time)) := by
  cases h <;> rfl

theorem RecordedBy.fields?_eq {v : Json} (h : e.RecordedBy v) :
    ∃ values, e.Gives values ∧ v.fields? fieldNames = some values := by
  cases h with
  | object hgives hfields =>
    exact ⟨_, hgives, hfields.fields?_eq (by decide) hgives.length_eq⟩
  | @array items hgives =>
    have hlength := hgives.length_eq
    rw [List.length_map] at hlength
    refine ⟨_, hgives, ?_⟩
    rw [Json.fields?, if_pos hlength.ge, hlength, Nat.sub_self, List.replicate_zero,
      List.append_nil]

/-- A record of an entry is read as the entry. -/
theorem ofJson?_of_recordedBy {v : Json} (h : e.RecordedBy v) (hfits : e.Fits) :
    ofJson? v = some e := by
  obtain ⟨values, hgives, hfields⟩ := h.fields?_eq
  have htime := Json.intIn?_ofInt hfits.time.1 hfits.time.2
  have hread : ∀ id?, ofJson?.readId id? = some e.id →
      v.fields? fieldNames = some [id?, some (.ofText e.formula), some (.ofText e.result),
        some (.ofInt e.time)] → ofJson? v = some e := by
    intro id? hid hfields
    unfold ofJson?
    rw [hfields]
    dsimp only [Json.ofText, Json.text?]
    rw [hid, htime]
  cases hgives with
  | @numbered id hid =>
    have hbounds := hfits.id id hid
    have hint : (Json.ofInt id).intIn? minInt maxInt = some id :=
      Json.intIn?_ofInt hbounds.1 hbounds.2
    refine hread _ ?_ hfields
    rw [hid]
    exact congrArg (Option.map some) hint
  | null hid => exact hread (some .null) (congrArg some hid.symm) hfields
  | unnumbered hid => exact hread none (congrArg some hid.symm) hfields

/-- What is read as an id: there is none, or it is the number that is given. -/
theorem readId_cases {id? : Option Json} {id : Option Int} (hv : ∀ v, id? = some v → v.Valid)
    (h : ofJson?.readId id? = some id) :
    id = none ∧ (id? = none ∨ id? = some .null) ∨
      ∃ n, id = some n ∧ id? = some (.ofInt n) ∧ minInt ≤ n ∧ n ≤ maxInt := by
  unfold ofJson?.readId at h
  split at h
  · exact Or.inl ⟨(Option.some.inj h).symm, Or.inl rfl⟩
  · exact Or.inl ⟨(Option.some.inj h).symm, Or.inr rfl⟩
  · rename_i v _
    obtain ⟨n, hn, rfl⟩ := Option.map_eq_some_iff.1 h
    obtain ⟨rfl, hbounds⟩ := (Json.intIn?_eq_some_iff (hv v rfl)).1 hn
    exact Or.inr ⟨n, rfl, rfl, hbounds⟩

/-- A value that is read has the fields of the entry, and its numbers fit. -/
theorem exists_gives_of_ofJson? {v : Json} (hv : v.Valid) (h : ofJson? v = some e) :
    ∃ values, e.Gives values ∧ v.fields? fieldNames = some values ∧ e.Fits := by
  unfold ofJson? at h
  split at h
  · rename_i id? formula result time hfields
    split at h
    · rename_i id _ _ time hid hformula hresult htime
      obtain rfl := Option.some.inj h
      obtain rfl := Json.text?_eq_some_iff.1 hformula
      obtain rfl := Json.text?_eq_some_iff.1 hresult
      have hvalid : ∀ w, some w ∈ [id?, some _, some _, some _] → w.Valid := fun w =>
        Json.valid_of_fields? hv hfields
      obtain ⟨rfl, hbounds⟩ := (Json.intIn?_eq_some_iff (hvalid _ (by simp))).1 htime
      have hid := readId_cases (fun w hw => hvalid w (by simp [hw])) hid
      obtain ⟨rfl, rfl | rfl⟩ | ⟨n, rfl, rfl, hn⟩ := hid
      · exact ⟨_, .unnumbered rfl, hfields, fun _ heq => absurd heq.symm (Option.some_ne_none _),
          hbounds⟩
      · exact ⟨_, .null rfl, hfields, fun _ heq => absurd heq.symm (Option.some_ne_none _),
          hbounds⟩
      · exact ⟨_, .numbered rfl, hfields, fun _ heq => Option.some.inj heq ▸ hn, hbounds⟩
    · cases h
  · cases h

/-- The fields of an entry are found in its records only. -/
theorem recordedBy_of_fields? {v : Json} {values : List (Option Json)} (hgives : e.Gives values)
    (hfields : v.fields? fieldNames = some values) : e.RecordedBy v := by
  cases v with
  | object members => exact .object hgives (Json.hasFields_of_fields? (by decide) hfields)
  | array items =>
    obtain ⟨-, rfl⟩ := Json.fields?_array_eq_some_iff.1 hfields
    -- the last field is never missing, so nothing has been left out
    cases hmissing : fieldNames.length - items.length with
    | zero =>
      rw [hmissing, List.replicate_zero, List.append_nil] at hgives
      exact .array hgives
    | succ k =>
      rw [hmissing, List.replicate_succ', ← List.append_assoc] at hgives
      have hlast := hgives.getLast?_eq
      rw [List.getLast?_concat] at hlast
      cases hlast
  | null => cases hfields
  | bool => cases hfields
  | number => cases hfields
  | string => cases hfields

/-- What is read as an entry is a record of it, and its numbers fit. -/
theorem ofJson?_eq_some_iff {v : Json} (hv : v.Valid) :
    ofJson? v = some e ↔ e.RecordedBy v ∧ e.Fits := by
  constructor
  · intro h
    obtain ⟨values, hgives, hfields, hfits⟩ := exists_gives_of_ofJson? hv h
    exact ⟨recordedBy_of_fields? hgives hfields, hfits⟩
  · exact fun h => ofJson?_of_recordedBy h.1 h.2

theorem recordedBy_toJson (e : Entry) : e.RecordedBy e.toJson := by
  obtain ⟨id, formula, result, time⟩ := e
  cases id with
  | none => exact .object (.unnumbered rfl) (Json.hasFields_present _ _)
  | some id => exact .object (.numbered rfl) (Json.hasFields_present _ _)

end Entry

namespace Ledger

variable {l : Ledger}

theorem validItems_map_toJson (l : Ledger) : Json.ValidItems (l.map Entry.toJson) := by
  induction l with
  | nil => trivial
  | cons e l ih => exact ⟨e.valid_toJson, ih⟩

/-- Whether symbols are a JSON text of records of the entries. -/
def SpelledBy (l : Ledger) (xs : List Symbol) : Prop :=
  (∀ e ∈ l, e.Fits) ∧ ∃ items, List.Forall₂ Entry.RecordedBy l items ∧ (Json.array items).IsText xs

theorem ofJson?_array_eq_some_iff {items : List Json} (hitems : Json.ValidItems items) :
    ofJson? (.array items) = some l ↔
      (∀ e ∈ l, e.Fits) ∧ List.Forall₂ Entry.RecordedBy l items := by
  have hmapM : ofJson? (.array items) = items.mapM Entry.ofJson? := rfl
  rw [hmapM]
  constructor
  · intro h
    have hread := Json.forall₂_of_mapM h
    clear h hmapM
    induction hread with
    | nil => exact ⟨fun _ he => absurd he List.not_mem_nil, .nil⟩
    | cons he _ ih =>
      obtain ⟨hrecorded, hfits⟩ := (Entry.ofJson?_eq_some_iff hitems.1).1 he
      obtain ⟨hmoreFits, hmore⟩ := ih hitems.2
      exact ⟨List.forall_mem_cons.2 ⟨hfits, hmoreFits⟩, .cons hrecorded hmore⟩
  · rintro ⟨hfits, h⟩
    refine Json.mapM_eq_some ?_
    clear hmapM hitems
    induction h with
    | nil => exact .nil
    | cons he _ ih =>
      obtain ⟨hfit, hfits⟩ := List.forall_mem_cons.1 hfits
      exact .cons (Entry.ofJson?_of_recordedBy he hfit) (ih hfits)

/-- What is read as a ledger is what spells it. -/
theorem read?_eq_some_iff {xs : List Symbol} : read? xs = some l ↔ l.SpelledBy xs := by
  unfold read?
  rw [Option.bind_eq_some_iff]
  constructor
  · rintro ⟨v, hv, h⟩
    have htext := Json.read?_eq_some_iff.1 hv
    cases v with
    | array items =>
      obtain ⟨hfits, hitems⟩ := (ofJson?_array_eq_some_iff htext.valid).1 h
      exact ⟨hfits, items, hitems, htext⟩
    | null => cases h
    | bool => cases h
    | number => cases h
    | string => cases h
    | object => cases h
  · rintro ⟨hfits, items, hitems, htext⟩
    exact ⟨_, htext.read?_eq, (ofJson?_array_eq_some_iff htext.valid).2 ⟨hfits, hitems⟩⟩

theorem spelledBy_text (h : ∀ e ∈ l, e.Fits) : l.SpelledBy (l.text.map some) := by
  refine ⟨h, l.map Entry.toJson, ?_, Json.isText_pretty (validItems_map_toJson l)⟩
  rw [List.forall₂_map_right_iff, List.forall₂_same]
  exact fun e _ => e.recordedBy_toJson

/-- The text of a ledger is read as the ledger. -/
theorem read?_text (h : ∀ e ∈ l, e.Fits) : read? (l.text.map some) = some l :=
  read?_eq_some_iff.2 (spelledBy_text h)

theorem read?_bytesOfText (h : ∀ e ∈ l, e.Fits) :
    read? (symbols (bytesOfText l.text)) = some l := by
  rw [symbols_bytesOfText, read?_text h]

end Ledger

end PocketCalculator
