import Mathlib.Data.List.Basic
import PocketCalculator.Keypad.Script

/-!
# What makes a script

A script is looked through for characters that no script can hold, and then read key by key. The two
passes know the same characters, but for the decimal digits of other scripts than ASCII: the first
one admits them and the second one does not (`isForeignDigit_iff`). So a text is a script if each of
its characters is blank or a key (`read_eq_ok_iff`), and an unknown key is the first character of
one kind or the other (`read_eq_error_iff`).
-/

namespace PocketCalculator

variable {c : Char} {p q : Char → Bool} {t u : Text} {ks : List Key} {e : UnknownKey}

/-! ### The first character of a class -/

/-- Whether a report names the first character of a text that is in a class, at its place. -/
structure UnknownKey.IsFirst (p : Char → Bool) (t : Text) (e : UnknownKey) : Prop where
  getElem?_eq : t[e.position]? = some e.key
  holds : p e.key
  before : ∀ c ∈ t.take e.position, p c = false

namespace UnknownKey

theorem isFirst_append (hc : p c) (ht : ∀ c ∈ t, p c = false) (u : Text) :
    IsFirst p (t ++ c :: u) ⟨c, t.length⟩ where
  getElem?_eq := by
    rw [List.getElem?_append_right (Nat.le_refl _), Nat.sub_self, List.getElem?_cons_zero]
  holds := hc
  before := by rwa [List.take_left]

theorem IsFirst.exists_eq_append (h : e.IsFirst p t) : ∃ before after : Text,
    t = before ++ e.key :: after ∧ before.length = e.position ∧ ∀ c ∈ before, p c = false := by
  obtain ⟨hlt, hget⟩ := List.getElem?_eq_some_iff.1 h.getElem?_eq
  refine ⟨t.take e.position, t.drop (e.position + 1), ?_, ?_, h.before⟩
  · rw [← hget, ← List.drop_eq_getElem_cons hlt, List.take_append_drop]
  · rw [List.length_take, Nat.min_eq_left (Nat.le_of_lt hlt)]

/-- Only the characters of the text matter. -/
theorem IsFirst.congr (h : e.IsFirst p t) (hsame : ∀ c ∈ t, p c = q c) : e.IsFirst q t where
  getElem?_eq := h.getElem?_eq
  holds := by rw [← hsame _ (List.mem_of_getElem? h.getElem?_eq), h.holds]
  before c hc := by rw [← hsame c (List.mem_of_mem_take hc), h.before c hc]

theorem exists_isFirst (h : ∃ c ∈ t, p c) : ∃ e : UnknownKey, e.IsFirst p t := by
  obtain ⟨c, hc⟩ := Option.isSome_iff_exists.1 (List.find?_isSome.2 h)
  obtain ⟨hpc, before, after, rfl, hbefore⟩ := List.find?_eq_some_iff_append.1 hc
  exact ⟨_, isFirst_append hpc (fun b hb => by simpa using hbefore b hb) after⟩

end UnknownKey

namespace Script

/-! ### Known characters -/

theorem isSome_ofChar?_of_mem_signs (h : c ∈ signs) : (Key.ofChar? c).isSome := by
  have hall : signs.all fun c => (Key.ofChar? c).isSome := by decide
  exact List.all_eq_true.1 hall c h

/-- The keys are the ASCII digits and the signs. -/
theorem isSome_ofChar?_iff : (Key.ofChar? c).isSome ↔ c.isDigit ∨ c ∈ signs := by
  constructor
  · intro h
    by_contra hnone
    rw [not_or] at hnone
    simp only [signs, List.mem_cons, List.not_mem_nil, or_false, not_or] at hnone
    simp [Key.ofChar?, Operator.ofChar?, hnone] at h
  · rintro (hdigit | hsign)
    · rw [Key.ofChar?, if_pos hdigit]
      rfl
    · exact isSome_ofChar?_of_mem_signs hsign

/-- Whether a character stands for a key or for nothing. -/
def isKnown (c : Char) : Bool :=
  isBlank c || (Key.ofChar? c).isSome

theorem isKnown_cases (h : isKnown c) :
    isBlank c ∨ isBlank c = false ∧ ∃ key, Key.ofChar? c = some key := by
  cases hblank : isBlank c with
  | true => exact Or.inl rfl
  | false =>
    rw [isKnown, hblank, Bool.false_or] at h
    exact Or.inr ⟨rfl, Option.isSome_iff_exists.1 h⟩

theorem isKnown_iff : isKnown c ↔ isBlank c ∨ c.isDigit ∨ c ∈ signs := by
  rw [isKnown, Bool.or_eq_true, isSome_ofChar?_iff]

theorem isAdmissible_iff : isAdmissible c ↔ isDecimalDigit c ∨ isBlank c ∨ c ∈ signs := by
  rw [isAdmissible, Bool.or_eq_true, Bool.or_eq_true, List.contains_iff_mem, or_assoc]

/-- What the second pass knows, the first one admits. -/
theorem isAdmissible_of_isKnown (h : isKnown c) : isAdmissible c := by
  rw [isAdmissible_iff]
  rcases isKnown_iff.1 h with hblank | hdigit | hsign
  · exact Or.inr (Or.inl hblank)
  · exact Or.inl (isDecimalDigit_of_isDigit hdigit)
  · exact Or.inr (Or.inr hsign)

theorem isBlank_eq_false_of_isDecimalDigit (h : isDecimalDigit c) : isBlank c = false :=
  CharRanges.holds_eq_false_of_apart (by decide +kernel) h

theorem not_mem_signs_of_isDecimalDigit (h : isDecimalDigit c) : c ∉ signs := by
  have hsigns : signs.all fun c => !isDecimalDigit c := by decide +kernel
  intro hc
  have hnot := List.all_eq_true.1 hsigns c hc
  rw [h] at hnot
  cases hnot

/-- Whether a character is a decimal digit of another script than ASCII. -/
def isForeignDigit (c : Char) : Bool :=
  isDecimalDigit c && !c.isDigit

/-- Foreign digits are all that the two passes disagree on. -/
theorem isForeignDigit_iff : isForeignDigit c ↔ isAdmissible c ∧ isKnown c = false := by
  rw [isForeignDigit, Bool.and_eq_true, Bool.not_eq_true', isAdmissible_iff]
  constructor
  · rintro ⟨hdecimal, hdigit⟩
    refine ⟨Or.inl hdecimal, Bool.eq_false_iff.2 fun hknown => ?_⟩
    rcases isKnown_iff.1 hknown with h | h | h
    · rw [isBlank_eq_false_of_isDecimalDigit hdecimal] at h
      cases h
    · rw [hdigit] at h
      cases h
    · exact not_mem_signs_of_isDecimalDigit hdecimal h
  · rintro ⟨hadmissible, hknown⟩
    have hnot : ¬ isKnown c := by simp [hknown]
    rw [isKnown_iff, not_or, not_or] at hnot
    obtain ⟨hblank, hdigit, hsign⟩ := hnot
    refine ⟨?_, Bool.eq_false_iff.2 hdigit⟩
    rcases hadmissible with h | h | h
    · exact h
    · exact absurd h hblank
    · exact absurd h hsign

/-! ### The search for what no script can hold -/

theorem admits_iff : admits t ↔ ∀ c ∈ t, isAdmissible c :=
  List.all_eq_true

theorem exists_outside (h : admits t = false) : ∃ e : UnknownKey, e.IsFirst (!isAdmissible ·) t :=
  UnknownKey.exists_isFirst (by simpa [admits] using h)

/-- The search reports the first character that is not admissible. -/
theorem outsider?_of_isFirst (h : e.IsFirst (!isAdmissible ·) t) : outsider? t = some e := by
  obtain ⟨before, after, rfl, hlength, hbefore⟩ := h.exists_eq_append
  have hfind : (before ++ e.key :: after).zipIdx.find? (fun p => !admits [p.1]) =
      some (e.key, e.position) := by
    refine List.find?_eq_some_iff_append.2
      ⟨?_, before.zipIdx, after.zipIdx (e.position + 1), ?_, ?_⟩
    · simpa [admits] using h.holds
    · rw [List.zipIdx_append, List.zipIdx_cons, hlength, Nat.zero_add]
    · rintro ⟨c, i⟩ hc
      have hadmissible := hbefore c (List.fst_mem_of_mem_zipIdx hc)
      simpa [admits] using hadmissible
  rw [outsider?, hfind]
  rfl

/-! ### Reading key by key -/

/-- The keys of the known characters of a text. -/
def keys (t : Text) : List Key :=
  (t.filter (!isBlank ·)).filterMap Key.ofChar?

theorem keys_append (s t : Text) : keys (s ++ t) = keys s ++ keys t := by
  simp [keys]

theorem keys_cons_of_isBlank (hc : isBlank c) (t : Text) : keys (c :: t) = keys t := by
  simp [keys, hc]

theorem keys_cons_of_ofChar?_eq {key : Key} (hblank : isBlank c = false)
    (hkey : Key.ofChar? c = some key) (t : Text) : keys (c :: t) = key :: keys t := by
  simp [keys, hblank, hkey]

/-- A known character is passed, and leaves its key if it has one. -/
theorem readFrom_cons (hc : isKnown c) (n : Nat) (t : Text) :
    readFrom n (c :: t) = (readFrom (n + 1) t).map (keys [c] ++ ·) := by
  rcases isKnown_cases hc with hblank | ⟨hblank, key, hkey⟩
  · have hnone : keys [c] = [] := keys_cons_of_isBlank hblank []
    rw [readFrom, if_pos hblank, hnone]
    cases readFrom (n + 1) t <;> rfl
  · have hone : keys [c] = [key] := keys_cons_of_ofChar?_eq hblank hkey []
    rw [readFrom, if_neg (by simp [hblank]), hkey, hone]
    rfl

/-- Known characters are read to the end. -/
theorem readFrom_eq_ok (ht : ∀ c ∈ t, isKnown c) (n : Nat) : readFrom n t = .ok (keys t) := by
  induction t generalizing n with
  | nil => rfl
  | cons c t ih =>
    obtain ⟨hc, ht⟩ := List.forall_mem_cons.1 ht
    have hkeys : keys [c] ++ keys t = keys (c :: t) := (keys_append [c] t).symm
    rw [readFrom_cons hc, ih ht, ← hkeys]
    rfl

/-- Reading stops at the first character that is not known, wherever the text stands. -/
theorem readFrom_append (ht : ∀ c ∈ t, isKnown c) (hc : isKnown c = false) (n : Nat) (u : Text) :
    readFrom n (t ++ c :: u) = .error ⟨c, n + t.length⟩ := by
  induction t generalizing n with
  | nil =>
    rw [isKnown, Bool.or_eq_false_iff, Option.isSome_eq_false_iff, Option.isNone_iff_eq_none] at hc
    rw [List.nil_append, readFrom, if_neg (by simp [hc.1]), hc.2]
    rfl
  | cons b t ih =>
    obtain ⟨hb, ht⟩ := List.forall_mem_cons.1 ht
    rw [List.cons_append, readFrom_cons hb, ih ht, List.length_cons, Nat.add_right_comm]
    rfl

theorem readFrom_of_isFirst (h : e.IsFirst (!isKnown ·) t) : readFrom 0 t = .error e := by
  obtain ⟨before, after, rfl, hlength, hbefore⟩ := h.exists_eq_append
  have hstop := readFrom_append (fun c hc => by simpa using hbefore c hc)
    (by simpa using h.holds) 0 after
  rw [hstop, hlength, Nat.zero_add]

/-! ### Reading a script -/

theorem read_of_isKnown (h : ∀ c ∈ t, isKnown c) : read t = .ok (keys t) := by
  rw [read, if_pos (admits_iff.2 fun c hc => isAdmissible_of_isKnown (h c hc)), readFrom_eq_ok h]

/-- The first character that no script can hold is reported. -/
theorem read_of_isFirst_outside (h : e.IsFirst (!isAdmissible ·) t) : read t = .error e := by
  have hnot : ¬ admits t := fun hall => by
    have hkey := admits_iff.1 hall _ (List.mem_of_getElem? h.getElem?_eq)
    have houtside := h.holds
    simp [hkey] at houtside
  rw [read, if_neg hnot, outsider?_of_isFirst h]
  rfl

/-- If a script can hold all characters, the first foreign digit is reported. -/
theorem read_of_isFirst_foreign (ht : admits t) (h : e.IsFirst isForeignDigit t) :
    read t = .error e := by
  have hsame : ∀ c ∈ t, isForeignDigit c = !isKnown c := fun c hc => by
    rw [Bool.eq_iff_iff, isForeignDigit_iff, Bool.not_eq_true', and_iff_right_iff_imp]
    exact fun _ => admits_iff.1 ht c hc
  rw [read, if_pos ht, readFrom_of_isFirst (h.congr hsame)]

/-- What a text that is no script is reported for. -/
theorem exists_read_eq_error (h : ¬ ∀ c ∈ t, isKnown c) : ∃ e, read t = .error e ∧
    if admits t then e.IsFirst isForeignDigit t else e.IsFirst (!isAdmissible ·) t := by
  split
  · rename_i ht
    obtain ⟨c, hc, hunknown⟩ : ∃ c ∈ t, isKnown c = false := by simpa using h
    have hforeign : isForeignDigit c := isForeignDigit_iff.2 ⟨admits_iff.1 ht c hc, hunknown⟩
    obtain ⟨e, he⟩ := UnknownKey.exists_isFirst ⟨c, hc, hforeign⟩
    exact ⟨e, read_of_isFirst_foreign ht he, he⟩
  · rename_i ht
    obtain ⟨e, he⟩ := exists_outside (by simpa using ht)
    exact ⟨e, read_of_isFirst_outside he, he⟩

theorem read_eq_ok_iff : read t = .ok ks ↔ (∀ c ∈ t, isKnown c) ∧ keys t = ks := by
  by_cases h : ∀ c ∈ t, isKnown c
  · rw [read_of_isKnown h, Except.ok.injEq, and_iff_right h]
  · obtain ⟨e, he, -⟩ := exists_read_eq_error h
    simp [he, h]

theorem read_eq_error_iff : read t = .error e ↔
    if admits t then e.IsFirst isForeignDigit t else e.IsFirst (!isAdmissible ·) t := by
  constructor
  · intro h
    have hunknown : ¬ ∀ c ∈ t, isKnown c := fun hknown => by
      rw [read_of_isKnown hknown] at h
      cases h
    obtain ⟨e', he', hfirst⟩ := exists_read_eq_error hunknown
    obtain rfl : e = e' := Except.error.inj (h.symm.trans he')
    exact hfirst
  · intro h
    split at h
    · rename_i ht
      exact read_of_isFirst_foreign ht h
    · exact read_of_isFirst_outside h

theorem isKnown_eq_false_of_read (h : read t = .error e) : isKnown e.key = false := by
  rw [read_eq_error_iff] at h
  split at h
  · exact (isForeignDigit_iff.1 h.holds).2
  · refine Bool.eq_false_iff.2 fun hknown => ?_
    have houtside := h.holds
    simp [isAdmissible_of_isKnown hknown] at houtside

/-- Two texts one after the other are a script if both are, with the keys of both. -/
theorem read_append_iff : read (t ++ u) = .ok ks ↔
    ∃ as bs, read t = .ok as ∧ read u = .ok bs ∧ ks = as ++ bs := by
  rw [read_eq_ok_iff, List.forall_mem_append, keys_append]
  constructor
  · rintro ⟨⟨ht, hu⟩, rfl⟩
    exact ⟨keys t, keys u, read_of_isKnown ht, read_of_isKnown hu, rfl⟩
  · rintro ⟨as, bs, has, hbs, rfl⟩
    obtain ⟨ht, rfl⟩ := read_eq_ok_iff.1 has
    obtain ⟨hu, rfl⟩ := read_eq_ok_iff.1 hbs
    exact ⟨⟨ht, hu⟩, rfl⟩

/-- Each character that is not blank is one key. -/
theorem map_some_keys (ht : ∀ c ∈ t, isKnown c) :
    (keys t).map some = (t.filter (!isBlank ·)).map Key.ofChar? := by
  induction t with
  | nil => rfl
  | cons c t ih =>
    obtain ⟨hc, ht⟩ := List.forall_mem_cons.1 ht
    rcases isKnown_cases hc with hblank | ⟨hblank, key, hkey⟩
    · rw [keys_cons_of_isBlank hblank, List.filter_cons_of_neg (by simp [hblank]), ih ht]
    · rw [keys_cons_of_ofChar?_eq hblank hkey, List.filter_cons_of_pos (by simp [hblank]),
        List.map_cons, List.map_cons, ih ht, hkey]

/-- A text is a script exactly if each character is blank or a key. Its keys are then those of the
characters that are not blank, one each and in order, so two texts one after the other are a script
exactly if both are, with the keys of both. A text that is no script is reported for a character at
its place that is neither blank nor a key: exactly for the first one that no script can hold, or if
there is none for the first decimal digit of another script than ASCII. The search for what no
script can hold always finds it. -/
theorem read_characterwise (t : Text) :
    ((∃ ks, read t = .ok ks) ↔ ∀ c ∈ t, isBlank c ∨ (Key.ofChar? c).isSome) ∧
      (∀ ks, read t = .ok ks → ks.map some = (t.filter (!isBlank ·)).map Key.ofChar?) ∧
      (∀ u ks, read (t ++ u) = .ok ks ↔
        ∃ as bs, read t = .ok as ∧ read u = .ok bs ∧ ks = as ++ bs) ∧
      (∀ e, read t = .error e → isBlank e.key = false ∧ Key.ofChar? e.key = none) ∧
      (∀ e, read t = .error e ↔
        if admits t then e.IsFirst isForeignDigit t else e.IsFirst (!isAdmissible ·) t) ∧
      (admits t = false → ∃ e, outsider? t = some e) := by
  refine ⟨?_, fun ks h => ?_, fun u ks => read_append_iff, fun e h => ?_,
    fun e => read_eq_error_iff, fun h => ?_⟩
  · simp [read_eq_ok_iff, isKnown]
  · obtain ⟨hknown, rfl⟩ := read_eq_ok_iff.1 h
    exact map_some_keys hknown
  · simpa [isKnown] using isKnown_eq_false_of_read h
  · obtain ⟨e, he⟩ := exists_outside h
    exact ⟨e, outsider?_of_isFirst he⟩

/-- A letter is reported before the Arabic digit on its left, which is reported without it. -/
theorem read_characterwise_foreign :
    let t := "1 \u0663+a".toList
    read t = .error ⟨'a', 4⟩ ∧ isBlank 'a' = false ∧ Key.ofChar? 'a' = none ∧
      UnknownKey.IsFirst (!isAdmissible ·) t ⟨'a', 4⟩ ∧
      UnknownKey.IsFirst isForeignDigit t.dropLast ⟨'\u0663', 2⟩ := by
  intro t
  obtain ⟨-, -, -, hkey, hfirst, -⟩ := read_characterwise t
  obtain ⟨-, -, -, -, hforeign, -⟩ := read_characterwise t.dropLast
  have hread : read t = .error ⟨'a', 4⟩ := by decide +kernel
  have hletter := (hfirst _).1 hread
  have hdigit := (hforeign ⟨'\u0663', 2⟩).1 (by decide +kernel)
  rw [if_neg (by decide +kernel)] at hletter
  rw [if_pos (by decide +kernel)] at hdigit
  exact ⟨hread, (hkey _ hread).1, (hkey _ hread).2, hletter, hdigit⟩

end Script

end PocketCalculator
