import PocketCalculator.Proofs.Editor.Saving

/-!
# Snapshots in any spelling

A session may be resumed from a file that another tool has written again: with the fields in
another order, other white space, other escapes, and fields of its own. What is restored depends on
the fields of the snapshot alone (`restore_object`): an object is read as a snapshot exactly if it
has the fields of the snapshot (`ofJson?_object_eq_some_iff`), and it has those of some snapshot
exactly if nothing is wrong with its fields (`Defective`).
-/

namespace PocketCalculator

namespace Snapshot

open Json

variable {shot : Snapshot} {members : List (Option Text × Json)} {values : List (Option Json)}
  {value : Option Json} {name : Text}

/-! ### Objects that are read -/

/-- A number of open parentheses that is read is the number, or missing and zero. -/
theorem count_of_intIn? {count : Option Json} {n : Int} (hvalid : ∀ v, count = some v → v.Valid)
    (h : (count.getD (.ofInt 0)).intIn? 0 maxCount = some n) :
    count = none ∧ n.toNat = 0 ∨ count = some (.ofInt n.toNat) := by
  cases count with
  | none =>
    have hzero : (ofInt 0).intIn? 0 maxCount = some 0 := intIn?_ofInt (by decide) (by decide)
    obtain rfl := Option.some.inj (hzero.symm.trans h)
    exact Or.inl ⟨rfl, rfl⟩
  | some v =>
    obtain ⟨rfl, hlow, -⟩ := (intIn?_eq_some_iff (hvalid v rfl)).1 h
    rw [Int.toNat_of_nonneg hlow]
    exact Or.inr rfl

/-- An object whose numbers are numbers is read as the snapshot whose fields it has. -/
theorem ofJson?_object_eq_some_iff (hvalid : ValidMembers members) :
    ofJson? (.object members) = some shot ↔
      shot.openCount ≤ maxCount ∧
        ∃ values, shot.Gives values ∧ HasFields fieldNames values members := by
  constructor
  · intro h
    refine ⟨openCount_le_of_ofJson? h, ?_⟩
    unfold ofJson? at h
    split at h
    · rename_i result previous lastKey formula count hfields
      split at h
      · rename_i hresult hprevious hlastKey hformula hcount
        obtain rfl := Option.some.inj h
        rw [text?_eq_some_iff] at hresult hprevious hlastKey hformula
        subst hresult hprevious hlastKey hformula
        refine ⟨_, ?_, hasFields_of_fields? (by decide) hfields⟩
        have hvalue : ∀ v, count = some v → v.Valid := fun v hv =>
          valid_of_fields? (show (object members).Valid from hvalid) hfields (by simp [hv])
        rcases count_of_intIn? hvalue hcount with ⟨rfl, hzero⟩ | rfl
        · exact .uncounted hzero
        · exact .counted
      · cases h
    · cases h
  · rintro ⟨hcount, values, hgives, hfields⟩
    exact ofJson?_of_gives hgives (hfields.fields?_eq (by decide) hgives.length_eq) hcount

/-! ### Objects with a defect -/

/-- The name of the field that may be missing. -/
def countName : Text := "open_parentheses_count".toList

/-- What may be wrong with the fields of an object. -/
inductive Defective (members : List (Option Text × Json)) : Prop
  /-- A name is no text. -/
  | unnamed : none ∈ members.map Prod.fst → Defective members
  | repeated {name : Text} : name ∈ fieldNames →
      2 ≤ (members.map Prod.fst).count (some name) → Defective members
  | missing {name : Text} : name ∈ fieldNames → name ≠ countName →
      some name ∉ members.map Prod.fst → Defective members
  /-- A field that has to be a text is none. -/
  | noText {name : Text} {v : Json} : name ∈ fieldNames → name ≠ countName →
      (some name, v) ∈ members → (∀ content, v ≠ .ofText content) → Defective members
  /-- The number of open parentheses is no natural number of 32 bits. -/
  | noCount {v : Json} : (some countName, v) ∈ members →
      (∀ n : Nat, n ≤ maxCount → v ≠ .ofInt n) → Defective members

/-- What a field of a snapshot may hold. -/
inductive FieldFits : Text → Option Json → Prop
  | text {name : Text} (content : Text) : name ≠ countName →
      FieldFits name (some (.ofText content))
  | count {n : Nat} : n ≤ maxCount → FieldFits countName (some (.ofInt n))
  | uncounted : FieldFits countName none

theorem FieldFits.exists_ofText (h : FieldFits name value) (hne : name ≠ countName) :
    ∃ content, value = some (.ofText content) := by
  cases h with
  | text content => exact ⟨content, rfl⟩
  | count => exact absurd rfl hne
  | uncounted => exact absurd rfl hne

theorem FieldFits.count_cases (h : FieldFits name value) (hname : name = countName) :
    value = none ∨ ∃ n ≤ maxCount, value = some (.ofInt n) := by
  cases h with
  | text _ hne => exact absurd hname hne
  | count hn => exact Or.inr ⟨_, hn, rfl⟩
  | uncounted => exact Or.inl rfl

/-- The fields are those of a snapshot if each of them is one. -/
theorem exists_gives_iff :
    (∃ shot : Snapshot, shot.openCount ≤ maxCount ∧ shot.Gives values) ↔
      List.Forall₂ FieldFits fieldNames values := by
  constructor
  · rintro ⟨shot, hcount, hgives⟩
    have htexts : ∀ value, FieldFits countName value → List.Forall₂ FieldFits fieldNames
        [some (.ofText shot.result), some (.ofText shot.previous), some (.ofText shot.lastKey),
          some (.ofText shot.formula), value] := fun value hvalue =>
      .cons (.text _ (by decide)) <| .cons (.text _ (by decide)) <| .cons (.text _ (by decide)) <|
        .cons (.text _ (by decide)) <| .cons hvalue .nil
    cases hgives with
    | counted => exact htexts _ (.count hcount)
    | uncounted => exact htexts _ .uncounted
  · intro h
    rw [fieldNames] at h
    obtain _ | ⟨h₁, _ | ⟨h₂, _ | ⟨h₃, _ | ⟨h₄, _ | ⟨h₅, _ | _⟩⟩⟩⟩⟩ := h
    obtain ⟨result, rfl⟩ := h₁.exists_ofText (by decide)
    obtain ⟨previous, rfl⟩ := h₂.exists_ofText (by decide)
    obtain ⟨lastKey, rfl⟩ := h₃.exists_ofText (by decide)
    obtain ⟨formula, rfl⟩ := h₄.exists_ofText (by decide)
    obtain rfl | ⟨n, hn, rfl⟩ := h₅.count_cases rfl
    · exact ⟨⟨result, previous, lastKey, formula, 0⟩, Nat.zero_le _, .uncounted rfl⟩
    · exact ⟨⟨result, previous, lastKey, formula, n⟩, hn, .counted⟩

/-- A field that is not defective is found, and is one of a snapshot. -/
theorem exists_fieldFits (hdefective : ¬ Defective members) (hname : name ∈ fieldNames) :
    ∃ value, member? members name = some value ∧ FieldFits name value := by
  obtain ⟨value, hvalue⟩ : ∃ value, member? members name = some value :=
    exists_member?_iff.2 (not_le.1 fun hle => hdefective (.repeated hname hle))
  refine ⟨value, hvalue, ?_⟩
  by_contra hfits
  cases value with
  | none =>
    refine hdefective (.missing hname (fun heq => hfits ?_) (notMem_of_member? hvalue))
    rw [heq]
    exact .uncounted
  | some v =>
    have hmem := mem_of_member? hvalue
    by_cases hne : name = countName
    · subst hne
      exact hdefective (.noCount hmem fun n hn heq => hfits (heq ▸ .count hn))
    · exact hdefective (.noText hname hne hmem fun content heq => hfits (heq ▸ .text content hne))

theorem not_defective (hsome : ∀ m ∈ members, m.1.isSome)
    (hfits : ∀ name ∈ fieldNames, ∃ value, member? members name = some value ∧
      FieldFits name value) : ¬ Defective members := by
  rintro (hnone | ⟨hname, hcount⟩ | ⟨hname, hne, hmissing⟩ | ⟨hname, hne, hmem, hv⟩ | ⟨hmem, hv⟩)
  · obtain ⟨m, hm, heq⟩ := List.mem_map.1 hnone
    have hsome := hsome m hm
    rw [heq] at hsome
    cases hsome
  · obtain ⟨value, hvalue, -⟩ := hfits _ hname
    exact absurd hcount (not_le.2 (exists_member?_iff.1 ⟨value, hvalue⟩))
  · obtain ⟨value, hvalue, hfit⟩ := hfits _ hname
    obtain ⟨content, rfl⟩ := hfit.exists_ofText hne
    exact hmissing (List.mem_map_of_mem (mem_of_member? hvalue))
  · obtain ⟨value, hvalue, hfit⟩ := hfits _ hname
    obtain ⟨content, rfl⟩ := hfit.exists_ofText hne
    exact hv content (Option.some.inj (eq_of_member? hvalue hmem)).symm
  · obtain ⟨value, hvalue, hfit⟩ := hfits countName (by decide)
    obtain rfl | ⟨n, hn, rfl⟩ := hfit.count_cases rfl
    · exact absurd (eq_of_member? hvalue hmem) (Option.some_ne_none _).symm
    · exact hv n hn (Option.some.inj (eq_of_member? hvalue hmem)).symm

/-- An object is no snapshot exactly if it is defective. -/
theorem ofJson?_object_eq_none_iff (hvalid : ValidMembers members) :
    ofJson? (.object members) = none ↔ Defective members := by
  constructor
  · intro hnone
    by_contra hdefective
    have hfits : ∀ name ∈ fieldNames, ∃ value, member? members name = some value ∧
        FieldFits name value := fun _ => exists_fieldFits hdefective
    choose! value hmember hfit using hfits
    have hfields : fields? fieldNames (.object members) = some (fieldNames.map value) := by
      refine fields?_eq_some_iff.2 ⟨fun m hm => Option.isSome_iff_ne_none.2 fun hname => ?_,
        List.forall₂_map_right_iff.2 (List.forall₂_same.2 hmember)⟩
      exact hdefective (.unnamed (hname ▸ List.mem_map_of_mem hm))
    obtain ⟨shot, hcount, hgives⟩ := exists_gives_iff.2
      (List.forall₂_map_right_iff.2 (List.forall₂_same.2 hfit))
    rw [ofJson?_of_gives hgives hfields hcount] at hnone
    cases hnone
  · intro hdefective
    refine Option.eq_none_iff_forall_ne_some.2 fun shot hshot => ?_
    obtain ⟨hcount, values, hgives, hfields⟩ := (ofJson?_object_eq_some_iff hvalid).1 hshot
    have hread := hfields.fields?_eq (by decide) hgives.length_eq
    obtain ⟨hsome, hmembers⟩ := fields?_eq_some_iff.1 hread
    have hfits := exists_gives_iff.1 ⟨shot, hcount, hgives⟩
    obtain ⟨hlength, hmembers⟩ := List.forall₂_iff_get.1 hmembers
    obtain ⟨-, hfits⟩ := List.forall₂_iff_get.1 hfits
    refine not_defective hsome (fun name hname => ?_) hdefective
    obtain ⟨⟨i, hi⟩, rfl⟩ := List.mem_iff_get.1 hname
    exact ⟨_, hmembers i hi (hlength ▸ hi), hfits i hi (hlength ▸ hi)⟩

theorem toState_ne_malformed (shot : Snapshot) : shot.toState ≠ .error .malformed := by
  unfold toState
  split
  · exact nofun
  · split_ifs <;> exact nofun

end Snapshot

namespace State

open Snapshot Json

variable {members : List (Option Text × Json)} {t : Text} {shot : Snapshot}

theorem restore_eq_toState (h : (Json.object members).IsText (t.map some))
    (hshot : ofJson? (.object members) = some shot) : restore t = shot.toState := by
  unfold restore
  rw [h.read?_eq, Option.bind_some, hshot]

theorem restore_eq_malformed_iff (h : (Json.object members).IsText (t.map some)) :
    restore t = .error .malformed ↔ Defective members := by
  rw [← ofJson?_object_eq_none_iff h.valid]
  constructor
  · intro hmalformed
    refine Option.eq_none_iff_forall_ne_some.2 fun shot hshot => ?_
    exact toState_ne_malformed shot ((restore_eq_toState h hshot).symm.trans hmalformed)
  · intro hnone
    unfold restore
    rw [h.read?_eq, Option.bind_some, hnone]

/-- The text of a snapshot is restored to the state of the snapshot. -/
theorem restore_compact (hcount : shot.openCount ≤ maxCount) :
    restore shot.toJson.compact = shot.toState :=
  restore_eq_toState (Json.isText_compact (valid_toJson shot)) (ofJson?_toJson hcount)

/-- What is restored from a text of an object, however it is spelled. If the object has the fields
of a snapshot, in any order and among any others, it is what is restored from the text that the
snapshot is written as: the state of the snapshot, or what is inconsistent about it. The text is
malformed exactly if a name is no text, or a field of a snapshot is repeated, missing or of another
type. -/
theorem restore_object (h : (Json.object members).IsText (t.map some)) :
    (∀ (shot : Snapshot) (values : List (Option Json)), shot.Gives values →
      HasFields fieldNames values members → shot.openCount ≤ maxCount →
        restore t = restore shot.toJson.compact ∧ restore t = shot.toState ∧
          shot.toState ≠ .error .malformed) ∧
      (restore t = .error .malformed ↔ Defective members) := by
  refine ⟨fun shot values hgives hfields hcount => ?_, restore_eq_malformed_iff h⟩
  have hshot := (ofJson?_object_eq_some_iff h.valid).2 ⟨hcount, values, hgives, hfields⟩
  have hstate := restore_eq_toState h hshot
  exact ⟨hstate.trans (restore_compact hcount).symm, hstate, toState_ne_malformed shot⟩

/-- A text that another tool has written: the fields in another order, the count left out, a field
of its own with a surrogate that has no partner, escapes and white space. -/
theorem restore_object_foreign :
    let t : Text := "\x7b\"last_key\" :\"\\u0065quals\", \"displayed_formula\":\"7\",
      \"x\":[[1.5E+2],\x7b\"\":\"\\ud800\"\x7d],\"result\":\"\\uD83D\\ude00\",
      \"previous_calculation\":\"3+4\"\x7d".toList
    restore t = .ok ⟨['7'], ['😀'], "3+4".toList, 0, .afterEvaluation⟩ := by
  intro t
  let shot : Snapshot := ⟨['😀'], "3+4".toList, "equals".toList, ['7'], 0⟩
  let other : Json := .array [.array [.number "1.5E+2".toList], .object [(some [], .string none)]]
  let members : List (Option Text × Json) :=
    [(some "last_key".toList, .ofText shot.lastKey),
     (some "displayed_formula".toList, .ofText shot.formula), (some "x".toList, other),
     (some "result".toList, .ofText shot.result),
     (some "previous_calculation".toList, .ofText shot.previous)]
  have hlower : ∀ n < 16, IsHexDigit (Nat.digitChar n) n := fun n hn => ⟨hn, Or.inl rfl⟩
  have hupper : ∀ n < 16, IsHexDigit (Nat.digitChar n).toUpper n := fun n hn => ⟨hn, Or.inr rfl⟩
  have hletter : UnitText 0x65 "0065".toList :=
    .mk (hlower 0 (by decide)) (hlower 0 (by decide)) (hlower 6 (by decide)) (hlower 5 (by decide))
  have hhigh : UnitText 0xd83d "D83D".toList :=
    .mk (hupper 13 (by decide)) (hlower 8 (by decide)) (hlower 3 (by decide))
      (hupper 13 (by decide))
  have hlow : UnitText 0xde00 "de00".toList :=
    .mk (hlower 13 (by decide)) (hlower 14 (by decide)) (hlower 0 (by decide))
      (hlower 0 (by decide))
  have hkey : StringText (some shot.lastKey) ("\"\\u0065quals\"".toList.map some) :=
    (BodyText.unit hletter (bodyText_flatMap_escaped "quals".toList)).stringText
  have hresult : StringText (some shot.result) ("\"\\uD83D\\ude00\"".toList.map some) :=
    (BodyText.unit hhigh (.unit hlow .nil)).stringText
  have hother : SpelledBy other (other.compact.map some) :=
    spelledBy_compact other ⟨⟨show isNumber _ by decide, trivial⟩, ⟨trivial, trivial⟩, trivial⟩
  have hname : ∀ name, Padded (StringText name) ((quoted name).map some) := fun name =>
    padded_self (stringText_quoted name)
  have hspace : IsGap [some ' '] := by simp [IsGap, isSpace]
  have hline : IsGap ("\n      ".toList.map some) := by simp [IsGap, isSpace]
  have htext : (Json.object members).IsText (t.map some) := by
    have hmembers : MembersSpelledBy members _ :=
      .cons ((hname _).trail hspace) (padded_self hkey) <|
      .cons ((hname _).indent hspace) (hname _) <|
      .cons ((hname _).indent hline) (padded_self hother) <|
      .cons (hname _) (padded_self hresult) <|
      .cons ((hname _).indent hline) (hname _) rfl
    have hobject : SpelledBy (.object members) (t.map some) :=
      ⟨_, _, hmembers, padded_self rfl, by decide +kernel⟩
    exact padded_self hobject
  have hfields : HasFields fieldNames [some (.ofText shot.result), some (.ofText shot.previous),
      some (.ofText shot.lastKey), some (.ofText shot.formula), none] members := by
    refine ⟨[(some "x".toList, other)], ?_, List.forall_mem_singleton.2 ⟨_, by decide, rfl⟩⟩
    exact show (members.take 3 ++ members.drop 3).Perm _ from List.perm_append_comm
  exact ((restore_object htext).1 shot _ (.uncounted rfl) hfields (by decide)).2.1

end State

end PocketCalculator
