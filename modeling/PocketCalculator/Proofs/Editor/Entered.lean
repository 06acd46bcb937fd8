import PocketCalculator.Proofs.Editor.Consistency
import PocketCalculator.Proofs.Editor.Locale
import PocketCalculator.Proofs.Formula.Pending

/-!
# Entering a number

Digit and point keys, from an empty formula, a lone zero or the error marker on, enter the number
that they spell: its integer part without leading zeros, and its fraction with all digits behind the
first point. The keys work on the bare text (`entered_pressAllBare`), whatever the locale groups in
between.
-/

namespace PocketCalculator

open Expression

/-! ### The number that keys spell -/

namespace Key

/-- Whether a key is a digit or the decimal point. -/
def isNumeric : Key → Bool
  | .digit _ | .point => true
  | _ => false

/-- The digits of some keys, in order. -/
def digits (keys : List Key) : Text :=
  keys.filterMap fun
    | .digit d => some (Nat.digitChar d)
    | _ => none

/-- The digits of an integer part without leading zeros; a zero if there is no other digit. -/
def integerPart (digits : Text) : Text :=
  let significant := digits.dropWhile (· == '0')
  if significant.isEmpty then ['0'] else significant

/-- The number that some keys spell: an integer part, and behind the first point, if there is one,
the digits that follow it. -/
def number (keys : List Key) : Text :=
  let integer := integerPart (digits (keys.takeWhile (· != .point)))
  if .point ∈ keys then integer ++ '.' :: digits (keys.dropWhile (· != .point)) else integer

variable {keys : List Key} {c : Char} {t : Text}

theorem digits_append (keys keys' : List Key) :
    digits (keys ++ keys') = digits keys ++ digits keys' :=
  List.filterMap_append

theorem isDigit_of_mem_digits (hc : c ∈ digits keys) : c.isDigit := by
  obtain ⟨key, -, he⟩ := List.mem_filterMap.1 hc
  have hdigits : ∀ d : Fin 10, (Nat.digitChar d).isDigit := by decide
  cases key with
  | digit d => exact Option.some.inj he ▸ hdigits d
  | _ => cases he

theorem integerPart_ne_nil (t : Text) : integerPart t ≠ [] := by
  unfold integerPart
  dsimp only
  split
  · simp
  · rename_i hne
    simpa using hne

theorem isDigit_of_mem_integerPart (ht : ∀ c ∈ t, c.isDigit) (hc : c ∈ integerPart t) :
    c.isDigit := by
  unfold integerPart at hc
  dsimp only at hc
  split at hc
  · obtain rfl := List.mem_singleton.1 hc
    decide
  · exact ht c ((List.dropWhile_sublist _).mem hc)

/-- One more digit replaces a lone zero. -/
theorem integerPart_concat (t : Text) (c : Char) :
    integerPart (t ++ [c]) = if integerPart t = ['0'] then [c] else integerPart t ++ [c] := by
  have hzero : integerPart t = ['0'] ↔ t.dropWhile (· == '0') = [] := by
    unfold integerPart
    dsimp only
    split
    · rename_i hnil
      simpa using hnil
    · rename_i hne
      have hstop : StopsAt (· == '0') (t.dropWhile (· == '0')) := stopsAt_dropWhile t
      constructor
      · intro he
        rw [he] at hstop
        cases stopsAt_cons.1 hstop
      · intro hnil
        rw [hnil] at hne
        cases hne rfl
  by_cases hnil : t.dropWhile (· == '0') = []
  · rw [if_pos (hzero.2 hnil)]
    unfold integerPart
    rw [List.dropWhile_append, hnil]
    by_cases hc : c = '0'
    · subst hc
      rfl
    · simp [hc]
  · rw [if_neg fun he => hnil (hzero.1 he)]
    unfold integerPart
    rw [List.dropWhile_append]
    simp [hnil]

theorem point_over (h : .point ∈ keys) : keys.dropWhile (· != Key.point) ≠ [] := by
  rw [Ne, List.dropWhile_eq_nil_iff]
  intro hall
  simpa using hall .point h

theorem number_of_mem (h : .point ∈ keys) :
    number keys = integerPart (digits (keys.takeWhile (· != .point))) ++
      '.' :: digits (keys.dropWhile (· != .point)) :=
  if_pos h

/-- Without a point key all keys are before the point. -/
theorem takeWhile_of_not_mem (h : .point ∉ keys) :
    keys.takeWhile (· != Key.point) = keys ∧ keys.dropWhile (· != Key.point) = [] := by
  have hall : ∀ key ∈ keys, (key != .point) = true := fun key hkey => by
    rw [bne_iff_ne]
    exact fun e => h (e ▸ hkey)
  exact ⟨List.takeWhile_eq_self_iff.2 hall, List.dropWhile_eq_nil_iff.2 hall⟩

theorem number_of_not_mem (h : .point ∉ keys) : number keys = integerPart (digits keys) := by
  unfold number
  rw [if_neg h, (takeWhile_of_not_mem h).1]

/-- The characters of a number, with a point exactly if a point key is pressed. -/
theorem number_chars (keys : List Key) :
    (∀ c ∈ number keys, isLiteralChar c) ∧ ('.' ∈ number keys ↔ .point ∈ keys) := by
  have hinteger : ∀ keys, ∀ c ∈ integerPart (digits keys), c.isDigit := fun keys c hc =>
    isDigit_of_mem_integerPart (fun c hc => isDigit_of_mem_digits hc) hc
  have hliteral : ∀ {c : Char}, c.isDigit → isLiteralChar c := fun hc => by simp [isLiteralChar, hc]
  by_cases h : .point ∈ keys
  · rw [number_of_mem h]
    refine ⟨fun c hc => ?_, by simp [h]⟩
    rcases List.mem_append.1 hc with hc | hc
    · exact hliteral (hinteger _ c hc)
    · rcases List.mem_cons.1 hc with rfl | hc
      · rfl
      · exact hliteral (isDigit_of_mem_digits hc)
  · rw [number_of_not_mem h]
    refine ⟨fun c hc => hliteral (hinteger keys c hc), ?_⟩
    simp only [h, iff_false]
    intro hpoint
    exact absurd (hinteger keys '.' hpoint) (by decide)

theorem number_ne_nil (keys : List Key) : number keys ≠ [] := by
  by_cases h : .point ∈ keys
  · rw [number_of_mem h]
    simp
  · rw [number_of_not_mem h]
    exact integerPart_ne_nil _

theorem number_concat_digit (keys : List Key) (d : Fin 10) :
    number (keys ++ [.digit d]) =
      if number keys = ['0'] then [Nat.digitChar d] else number keys ++ [Nat.digitChar d] := by
  by_cases h : .point ∈ keys
  · have hne : number keys ≠ ['0'] := by
      intro he
      have hpoint := (number_chars keys).2.2 h
      rw [he] at hpoint
      simp at hpoint
    obtain ⟨htake, hdrop⟩ := takeWhile_dropWhile_append (u := [.digit d]) (Or.inl (point_over h))
    rw [if_neg hne, number_of_mem (List.mem_append_left _ h), number_of_mem h, htake, hdrop,
      digits_append, List.append_assoc]
    rfl
  · have hmem : .point ∉ keys ++ [.digit d] := by simpa using h
    rw [number_of_not_mem hmem, number_of_not_mem h, digits_append]
    exact integerPart_concat (digits keys) (Nat.digitChar d)

theorem number_concat_point (keys : List Key) :
    number (keys ++ [.point]) =
      if '.' ∈ number keys then number keys else number keys ++ ['.'] := by
  have hmem : .point ∈ keys ++ [.point] := by simp
  rw [number_of_mem hmem]
  by_cases h : .point ∈ keys
  · obtain ⟨htake, hdrop⟩ := takeWhile_dropWhile_append (u := [.point]) (Or.inl (point_over h))
    rw [if_pos ((number_chars keys).2.2 h), number_of_mem h, htake, hdrop, digits_append]
    exact congrArg (_ ++ '.' :: ·) (List.append_nil _)
  · have hstop : StopsAt (· != Key.point) [.point] := stopsAt_cons.2 (by simp)
    obtain ⟨htake, hdrop⟩ := takeWhile_dropWhile_append (t := keys) (Or.inr hstop)
    obtain ⟨hall, hnone⟩ := takeWhile_of_not_mem h
    rw [if_neg fun he => h ((number_chars keys).2.1 he), number_of_not_mem h, htake, hdrop, hall,
      hnone]
    rfl

end Key

/-! ### Entering it -/

namespace State

variable {s : Separators} {st : State} {c : Char} {key : Key} {keys before : List Key}

/-- A digit or a point ends neither a group nor a number. -/
theorem ends_of_isLiteralChar (hc : isLiteralChar c) :
    endsGroup c = false ∧ endsNumber c = false := by
  rw [isLiteralChar, Bool.or_eq_true, beq_iff_eq] at hc
  rcases hc with hc | rfl
  · obtain ⟨d, rfl⟩ := exists_digitChar_eq hc
    revert d
    decide
  · decide

theorem withoutError_of_ne (hmark : st.mark ≠ .afterError) (t : Text) : st.withoutError t = st := by
  rw [withoutError, isError, decide_eq_false hmark]
  rfl

/-- A digit replaces a lone zero, and otherwise goes behind the number. -/
theorem pressDigitBare_of_isLiteralChar (hmark : st.mark ≠ .afterError)
    (hchars : ∀ c ∈ st.formula, isLiteralChar c) (d : Fin 10) :
    (st.pressDigitBare d).formula =
      if st.formula = ['0'] then [Nat.digitChar d] else st.formula ++ [Nat.digitChar d] := by
  have hsame : st.multiplyAfter endsGroup = st := by
    unfold multiplyAfter
    cases hlast : st.formula.getLast? with
    | none => rfl
    | some c =>
      have hc := (ends_of_isLiteralChar (hchars c (List.mem_of_getLast? hlast))).1
      rw [Option.any_some, hc]
      rfl
  unfold pressDigitBare
  dsimp only
  rw [withoutError_of_ne hmark]
  by_cases hzero : st.formula = ['0']
  · rw [if_pos hzero]
    split
    · rename_i hlone
      obtain rfl : d = 0 := Fin.ext hlone.2
      exact hlone.1
    · rw [withoutZero, if_pos hzero]
      rfl
  · rw [if_neg hzero, if_neg fun hlone => hzero hlone.1, withoutZero, if_neg hzero, hsame]
    rfl

/-- The first point goes behind the number, or behind a zero if there is none. -/
theorem pressPoint_of_isLiteralChar (hmark : st.mark ≠ .afterError)
    (hchars : ∀ c ∈ st.formula, isLiteralChar c) :
    (st.pressPoint {}).formula =
      if '.' ∈ st.formula then st.formula
      else (if st.formula = [] then ['0'] else st.formula) ++ ['.'] := by
  have hnumber : lastNumber st.formula = st.formula := by
    rw [lastNumber, List.takeWhile_eq_self_iff.2, List.reverse_reverse]
    intro c hc
    rw [(ends_of_isLiteralChar (hchars c (List.mem_reverse.1 hc))).2]
    rfl
  unfold pressPoint
  dsimp only
  rw [withoutError_of_ne hmark, hnumber]
  by_cases hpoint : '.' ∈ st.formula
  · rw [if_pos hpoint, if_pos (List.contains_iff_mem.2 hpoint)]
  · rw [if_neg hpoint, if_neg fun h => hpoint (List.contains_iff_mem.1 h)]
    cases hlast : st.formula.getLast? with
    | none =>
      have hnil := List.getLast?_eq_none_iff.1 hlast
      have hformula : (st.append ['0']).formula = ['0'] := by rw [append, hnil, List.nil_append]
      rw [if_pos hnil]
      exact congrArg (· ++ ['.']) hformula
    | some c =>
      have hmem := List.mem_of_getLast? hlast
      have hdigit : c.isDigit := by
        have hc := hchars c hmem
        rw [isLiteralChar, Bool.or_eq_true, beq_iff_eq] at hc
        exact hc.resolve_right fun h => hpoint (h ▸ hmem)
      dsimp only
      rw [if_pos hdigit, if_neg (List.ne_nil_of_mem hmem)]
      rfl

/-- What stands in the formula when some keys have been pressed: their number, or still nothing. -/
structure Entering (keys : List Key) (st : State) : Prop where
  mark : st.mark ≠ .afterError
  formula : st.formula = Key.number keys ∨ keys = [] ∧ st.formula = []

/-- One more key. -/
theorem Entering.pressBare (h : Entering before st) (hkey : key.isNumeric) :
    Entering (before ++ [key]) (st.pressBare key).1 := by
  have hidle : Mark.idle ≠ .afterError := by decide
  have hchars : ∀ c ∈ st.formula, isLiteralChar c := by
    rcases h.formula with he | ⟨-, he⟩
    · rw [he]
      exact (Key.number_chars before).1
    · simp [he]
  cases key with
  | digit d =>
    refine ⟨?_, Or.inl ?_⟩
    · simp only [State.pressBare, pressDigitBare]
      split
      · exact mark_withoutError st []
      · exact hidle
    · rw [Key.number_concat_digit]
      refine (pressDigitBare_of_isLiteralChar h.mark hchars d).trans ?_
      rcases h.formula with he | ⟨rfl, he⟩
      · rw [he]
      · rw [he]
        rfl
  | point =>
    refine ⟨?_, Or.inl ?_⟩
    · simp only [State.pressBare, pressPoint]
      split
      · exact mark_withoutError st []
      · exact hidle
    · rw [Key.number_concat_point]
      refine (pressPoint_of_isLiteralChar h.mark hchars).trans ?_
      rcases h.formula with he | ⟨rfl, he⟩
      · have hne : Key.number before ≠ [] := Key.number_ne_nil before
        rw [he, if_neg hne]
      · rw [he]
        rfl
  | _ => cases hkey

/-- A run of keys. -/
theorem Entering.pressAllBare (h : Entering before st) (hkeys : ∀ key ∈ keys, key.isNumeric) :
    Entering (before ++ keys) (st.pressAllBare keys).1 := by
  induction keys generalizing st before with
  | nil => rwa [List.append_nil]
  | cons key keys ih =>
    obtain ⟨hkey, hkeys⟩ := List.forall_mem_cons.1 hkeys
    have hrest := ih (h.pressBare hkey) hkeys
    rwa [List.append_assoc] at hrest

/-- The first key clears an error. -/
theorem press_withoutError (s : Separators) (st : State) (hkey : key.isNumeric) :
    (st.withoutError []).press s key = st.press s key := by
  have hclear : (st.withoutError []).withoutError [] = st.withoutError [] :=
    withoutError_of_ne (mark_withoutError st []) []
  cases key with
  | digit d => rw [press, press, pressDigit, pressDigit, hclear]
  | point => rw [press, press, pressPoint, pressPoint, hclear]
  | _ => cases hkey

/-- From where nothing has been entered, the displayed formula stands for the number of all keys. -/
theorem Entering.plain_pressAll (h : Entering [] (st.bare s)) (hs : s.Accepted)
    (hneat : s.Neat st.formula) (hkeys : ∀ key ∈ keys, key.isNumeric) (hne : keys ≠ []) :
    s.plain (st.pressAll s keys).1.formula = Key.number keys := by
  have hload : ∀ key ∈ keys, ∀ t, key ≠ .load t := by
    rintro _ hmem t rfl
    cases hkeys _ hmem
  have hbare : s.bare (st.pressAll s keys).1.formula = Key.number keys := by
    have hformula := congrArg State.formula (bare_pressAll hs hneat hload).1
    exact hformula.trans ((h.pressAllBare hkeys).formula.resolve_right fun hnil => hne hnil.1)
  have hplain : (Key.number keys).map (Separators.plainChar {}) = (Key.number keys).map id :=
    List.map_congr_left fun c hc => plainChar_of_isLiteralChar ((Key.number_chars keys).1 c hc)
  rw [s.plain_eq_map_bare, hbare, hplain, List.map_id]

/-- Digits and points enter the number that they spell: in a new session, after a reset, and over
the error marker, with any acceptable separators. -/
theorem plain_pressAll_numeric (hs : s.check = .ok ())
    (hstart : st = initial ∨ (∃ before : State, st = before.reset) ∨ st.mark = .afterError)
    (hkeys : ∀ key ∈ keys, key.isNumeric) (hne : keys ≠ []) :
    s.plain (st.pressAll s keys).1.formula = Key.number keys := by
  have hs := Separators.check_eq_ok_iff.1 hs
  have hclear : st.withoutError [] = initial ∨ (st.withoutError []).formula = [] := by
    rcases hstart with rfl | ⟨before, rfl⟩ | hmark
    · exact Or.inl rfl
    · exact Or.inr rfl
    · right
      rw [withoutError, isError, decide_eq_true hmark]
      rfl
  have hrun : (st.withoutError []).pressAll s keys = st.pressAll s keys := by
    cases keys with
    | nil => exact absurd rfl hne
    | cons key keys => rw [pressAll, pressAll, press_withoutError s st (hkeys key (by simp))]
  rw [← hrun]
  have hmark := mark_withoutError st []
  generalize st.withoutError [] = st' at hclear hmark
  rcases hclear with rfl | hnil
  · have hzero : (initial.bare s).formula = Key.number [] := hs.bare_zero
    have hentering : Entering [] (initial.bare s) := ⟨hmark, Or.inl hzero⟩
    exact hentering.plain_pressAll hs hs.neat_zero hkeys hne
  · have hentering : Entering [] (st'.bare s) := ⟨hmark, Or.inr ⟨rfl, congrArg s.bare hnil⟩⟩
    exact hentering.plain_pressAll hs (hnil ▸ s.neat_nil) hkeys hne

/-- Leading zeros and a second point, over the error marker. -/
theorem plain_pressAll_numeric_error :
    let s : Separators := ⟨',', '.'⟩
    let st := (initial.pressAll s [.operator .plus, .equals]).1
    let keys : List Key := [.digit 0, .digit 0, .digit 1, .digit 2, .digit 3, .digit 4, .point,
      .digit 5, .point, .digit 0]
    st.mark = .afterError ∧ (st.pressAll s keys).1.formula = "1.234,50".toList ∧
      Key.number keys = "1234.50".toList ∧
      s.plain (st.pressAll s keys).1.formula = Key.number keys :=
  ⟨by decide +kernel, by decide +kernel, by decide +kernel,
    plain_pressAll_numeric (by decide +kernel) (Or.inr (Or.inr (by decide +kernel))) (by decide)
      (by decide)⟩

end State

end PocketCalculator
