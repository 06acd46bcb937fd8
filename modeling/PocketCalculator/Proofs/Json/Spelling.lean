import Mathlib.Tactic.SplitIfs
import PocketCalculator.Json.Print
import PocketCalculator.Json.Token

/-!
# Spellings of strings

A string can be spelled in many ways: most characters stand for themselves, some have an escape of
one letter, and all can be given by their code units in UTF-16. What spells a string is stated here
without reference to how it is read (`StringText`). It is what is read as a string
(`pieces?_eq_some_iff`), with the content that its characters and code units are the text of
(`BodyText.content?_eq_some_iff`).
-/

namespace PocketCalculator

namespace Json

variable {c : Char} {code : Nat} {ps : List Piece} {t : Text} {xs : List Symbol}

/-! ### Code units -/

/-- Whether a character is a hexadecimal digit, in either case. -/
def IsHexDigit (c : Char) (n : Nat) : Prop :=
  n < 16 ∧ (c = Nat.digitChar n ∨ c = (Nat.digitChar n).toUpper)

/-- The four digits of a code unit. -/
inductive UnitText : Nat → Text → Prop
  | mk {a b c d : Char} {i j k l : Nat} : IsHexDigit a i → IsHexDigit b j → IsHexDigit c k →
      IsHexDigit d l → UnitText (((i * 16 + j) * 16 + k) * 16 + l) [a, b, c, d]

theorem hexDigit?_of_isHexDigit {n : Nat} (h : IsHexDigit c n) : hexDigit? (some c) = some n := by
  have hall : ∀ n < 16, hexDigit? (some (Nat.digitChar n)) = some n ∧
      hexDigit? (some (Nat.digitChar n).toUpper) = some n := by decide
  obtain ⟨hn, rfl | rfl⟩ := h
  · exact (hall n hn).1
  · exact (hall n hn).2

theorem isHexDigit_of_hexDigit? {x : Symbol} {n : Nat} (h : hexDigit? x = some n) :
    ∃ c, x = some c ∧ IsHexDigit c n := by
  have hall : ∀ m < 128, ∀ n ∈ hexDigit? (some (Char.ofNat m)), n < 16 ∧
      (Char.ofNat m = Nat.digitChar n ∨ Char.ofNat m = (Nat.digitChar n).toUpper) := by decide
  cases x with
  | none => cases h
  | some c =>
    have hlt : c.toNat < 128 := by
      unfold hexDigit? at h
      dsimp only at h
      split_ifs at h with hdigit hlower hupper
      · exact Nat.lt_of_le_of_lt (Char.isDigit_iff_toNat.1 hdigit).2 (by decide)
      · exact Nat.lt_of_le_of_lt (show c.toNat ≤ 'f'.toNat from hlower.2) (by decide)
      · exact Nat.lt_of_le_of_lt (show c.toNat ≤ 'F'.toNat from hupper.2) (by decide)
    refine ⟨c, rfl, ?_⟩
    have hdigit := hall c.toNat hlt n (by rwa [Char.ofNat_toNat])
    rwa [Char.ofNat_toNat] at hdigit

theorem unitText_of_hexUnit? {a b c d : Symbol} (h : hexUnit? a b c d = some code) :
    ∃ digits, UnitText code digits ∧ [a, b, c, d] = digits.map some := by
  obtain ⟨i, hi, h⟩ := Option.bind_eq_some_iff.1 h
  obtain ⟨j, hj, h⟩ := Option.bind_eq_some_iff.1 h
  obtain ⟨k, hk, h⟩ := Option.bind_eq_some_iff.1 h
  obtain ⟨l, hl, h⟩ := Option.bind_eq_some_iff.1 h
  obtain rfl := Option.some.inj h
  obtain ⟨a, rfl, ha⟩ := isHexDigit_of_hexDigit? hi
  obtain ⟨b, rfl, hb⟩ := isHexDigit_of_hexDigit? hj
  obtain ⟨c, rfl, hc⟩ := isHexDigit_of_hexDigit? hk
  obtain ⟨d, rfl, hd⟩ := isHexDigit_of_hexDigit? hl
  exact ⟨_, .mk ha hb hc hd, rfl⟩

theorem UnitText.lt (h : UnitText code t) : code < 0x10000 := by
  obtain ⟨⟨ha, -⟩, ⟨hb, -⟩, ⟨hc, -⟩, ⟨hd, -⟩⟩ := h
  omega

/-! ### Strings -/

/-- The letters that may follow a backslash, but for the one of a code unit, and what each of them
stands for. -/
def shortEscapes : List (Char × Char) :=
  [('"', '"'), ('\\', '\\'), ('/', '/'), ('b', '\x08'), ('f', '\x0c'), ('n', '\n'), ('r', '\r'),
   ('t', '\t')]

/-- What may stand between the quotes of a string, and the symbols and code units in it. -/
inductive BodyText : List Piece → List Symbol → Prop
  | nil : BodyText [] []
  | plain {c : Char} {ps : List Piece} {xs : List Symbol} : ' ' ≤ c → c ≠ '"' → c ≠ '\\' →
      BodyText ps xs → BodyText (.symbol (some c) :: ps) (some c :: xs)
  | stray {ps : List Piece} {xs : List Symbol} : BodyText ps xs →
      BodyText (.symbol none :: ps) (none :: xs)
  | short {letter c : Char} {ps : List Piece} {xs : List Symbol} : (letter, c) ∈ shortEscapes →
      BodyText ps xs → BodyText (.symbol (some c) :: ps) (some '\\' :: some letter :: xs)
  | unit {code : Nat} {digits : Text} {ps : List Piece} {xs : List Symbol} : UnitText code digits →
      BodyText ps xs →
        BodyText (.unit code :: ps) (some '\\' :: some 'u' :: (digits.map some ++ xs))

/-- The text of characters and code units in UTF-16: a code unit is a character, or two of them are
if they are a surrogate pair. Stray bytes are no text. -/
inductive Decodes : List Piece → Text → Prop
  | nil : Decodes [] []
  | symbol {c : Char} {ps : List Piece} {content : Text} : Decodes ps content →
      Decodes (.symbol (some c) :: ps) (c :: content)
  | unit {c : Char} {ps : List Piece} {content : Text} : Decodes ps content →
      Decodes (.unit c.toNat :: ps) (c :: content)
  | pair {high low : Nat} {c : Char} {ps : List Piece} {content : Text} :
      0xd800 ≤ high → high < 0xdc00 → 0xdc00 ≤ low → low < 0xe000 →
      c.toNat = 0x10000 + (high - 0xd800) * 0x400 + (low - 0xdc00) → Decodes ps content →
      Decodes (.unit high :: .unit low :: ps) (c :: content)

/-- Whether symbols are a string with a given content. A string without content is one whose stray
bytes and code units are no text. -/
def StringText (content : Option Text) (xs : List Symbol) : Prop :=
  ∃ ps body, BodyText ps body ∧ (∀ text, content = some text ↔ Decodes ps text) ∧
    xs = some '"' :: (body ++ [some '"'])

/-! ### Reading strings -/

theorem pieces?_plain {c : Char} (hquote : c ≠ '"') (hbackslash : c ≠ '\\') (hc : ¬ c < ' ')
    (done : List Piece) (rest : List Symbol) :
    pieces? done (some c :: rest) = pieces? (.symbol (some c) :: done) rest := by
  rw [pieces?.eq_def]
  split
  · rename_i h
    exact absurd (Option.some.inj (List.cons.inj h).1) hquote
  · rename_i h
    exact absurd (Option.some.inj (List.cons.inj h).1) hbackslash
  · rename_i h
    exact absurd (Option.some.inj (List.cons.inj h).1) hbackslash
  · rename_i h
    obtain ⟨rfl, rfl⟩ := List.cons.inj h
    rw [if_neg]
    simpa [hbackslash] using hc
  · rename_i h
    cases h

theorem pieces?_stray (done : List Piece) (rest : List Symbol) :
    pieces? done (none :: rest) = pieces? (.symbol none :: done) rest := rfl

theorem pieces?_bodyText (h : BodyText ps xs) (done : List Piece) (rest : List Symbol) :
    pieces? done (xs ++ some '"' :: rest) = some (done.reverse ++ ps, rest) := by
  induction h generalizing done with
  | nil =>
    rw [List.append_nil]
    rfl
  | plain hc hquote hbackslash _ ih =>
    rw [List.cons_append, pieces?_plain hquote hbackslash (Char.not_lt.2 hc), ih,
      List.reverse_cons, List.append_assoc, List.singleton_append]
  | stray _ ih =>
    rw [List.cons_append, pieces?_stray, ih, List.reverse_cons, List.append_assoc,
      List.singleton_append]
  | @short letter c ps xs hshort _ ih =>
    have hall : ∀ p ∈ shortEscapes, p.1 ≠ 'u' ∧ shortEscape? p.1 = some p.2 := by decide
    obtain ⟨hu, hc⟩ := hall _ hshort
    rw [List.cons_append, List.cons_append, pieces?, hc]
    · dsimp only
      rw [ih, List.reverse_cons, List.append_assoc, List.singleton_append]
    · exact fun _ _ _ _ _ _ heq => hu heq
  | @unit code digits ps xs hunit _ ih =>
    obtain @⟨a, b, c, d, i, j, k, l, ha, hb, hc, hd⟩ := hunit
    have hcode : hexUnit? (some a) (some b) (some c) (some d) =
        some (((i * 16 + j) * 16 + k) * 16 + l) := by
      rw [hexUnit?, hexDigit?_of_isHexDigit ha, hexDigit?_of_isHexDigit hb,
        hexDigit?_of_isHexDigit hc, hexDigit?_of_isHexDigit hd]
      rfl
    simp only [List.map_cons, List.map_nil, List.cons_append, List.nil_append]
    rw [pieces?, hcode]
    dsimp only
    rw [ih, List.reverse_cons, List.append_assoc, List.singleton_append]

theorem mem_shortEscapes {letter c : Char} (h : shortEscape? letter = some c) :
    (letter, c) ∈ shortEscapes := by
  unfold shortEscape? at h
  split at h <;> cases h <;> decide

/-- What is read up to a closing quote is a body. -/
theorem exists_bodyText {done : List Piece} {rest : List Symbol}
    (h : pieces? done xs = some (ps, rest)) :
    ∃ qs body, BodyText qs body ∧ ps = done.reverse ++ qs ∧ xs = body ++ some '"' :: rest := by
  -- a piece that is read is the first of those that follow
  have hcons : ∀ {done : List Piece} {p : Piece} {qs : List Piece},
      ps = (p :: done).reverse ++ qs → ps = done.reverse ++ p :: qs := by
    intro done p qs hps
    rw [hps, List.reverse_cons, List.append_assoc, List.singleton_append]
  fun_induction pieces? done xs with
  | case1 done xs =>
    obtain ⟨rfl, rfl⟩ := Prod.mk.inj (Option.some.inj h)
    exact ⟨[], [], .nil, (List.append_nil _).symm, rfl⟩
  | case2 done a b c d xs code hcode ih =>
    obtain ⟨digits, hdigits, heq⟩ := unitText_of_hexUnit? hcode
    obtain ⟨qs, body, hbody, hps, rfl⟩ := ih h
    refine ⟨_, _, .unit hdigits hbody, hcons hps, ?_⟩
    rw [← heq]
    rfl
  | case4 done letter xs _ c hc ih =>
    obtain ⟨qs, body, hbody, hps, rfl⟩ := ih h
    exact ⟨_, _, .short (mem_shortEscapes hc) hbody, hcons hps, rfl⟩
  | case7 done x xs hquote _ _ hx ih =>
    obtain ⟨qs, body, hbody, hps, rfl⟩ := ih h
    cases x with
    | none => exact ⟨_, _, .stray hbody, hcons hps, rfl⟩
    | some c =>
      rw [not_or] at hx
      have hspace : ' ' ≤ c := by simpa using hx.2
      have hne : c ≠ '\\' := fun hc => hx.1 (congrArg some hc)
      have hne' : c ≠ '"' := fun hc => hquote (congrArg some hc)
      exact ⟨_, _, .plain hspace hne' hne hbody, hcons hps, rfl⟩
  | case3 => cases h
  | case5 => cases h
  | case6 => cases h
  | case8 => cases h

theorem pieces?_eq_some_iff {done : List Piece} {rest : List Symbol} :
    pieces? done xs = some (ps, rest) ↔
      ∃ qs body, BodyText qs body ∧ ps = done.reverse ++ qs ∧ xs = body ++ some '"' :: rest := by
  refine ⟨exists_bodyText, ?_⟩
  rintro ⟨qs, body, hbody, rfl, rfl⟩
  exact pieces?_bodyText hbody done rest

/-- Code units have 16 bits. -/
theorem BodyText.lt (h : BodyText ps xs) (hmem : .unit code ∈ ps) : code < 0x10000 := by
  induction h with
  | nil => cases hmem
  | plain _ _ _ _ ih => exact ih (by simpa using hmem)
  | stray _ ih => exact ih (by simpa using hmem)
  | short _ _ ih => exact ih (by simpa using hmem)
  | unit hunit _ ih =>
    rcases List.mem_cons.1 hmem with heq | hmem
    · cases heq
      exact hunit.lt
    · exact ih hmem

theorem toNat_ofNat (h : code.isValidChar) : (Char.ofNat code).toNat = code := by
  unfold Char.ofNat
  rw [dif_pos h]
  rfl

/-- A code unit that is no surrogate is a character. -/
theorem Decodes.of_not_surrogate {content : Text} (h : Decodes ps content) (hcode : code < 0x10000)
    (hhigh : ¬ isHighSurrogate code) (hlow : ¬ isLowSurrogate code) :
    Decodes (.unit code :: ps) (Char.ofNat code :: content) := by
  simp only [isHighSurrogate, isLowSurrogate, Bool.and_eq_true, decide_eq_true_eq] at hhigh hlow
  have hvalid : code.isValidChar := by
    unfold Nat.isValidChar
    omega
  have hunit := h.unit (c := Char.ofNat code)
  rwa [toNat_ofNat hvalid] at hunit

theorem decodes_of_content? {content : Text} (hunits : ∀ code, .unit code ∈ ps → code < 0x10000)
    (h : content? ps = some content) : Decodes ps content := by
  fun_induction content? ps generalizing content with
  | case1 =>
    obtain rfl := Option.some.inj h
    exact .nil
  | case2 c rest ih =>
    obtain ⟨content, hcontent, rfl⟩ := Option.map_eq_some_iff.1 h
    exact .symbol (ih (fun code hcode => hunits code (List.mem_cons_of_mem _ hcode)) hcontent)
  | case4 high low rest hhigh hlow code =>
    rename_i ih
    obtain ⟨content, hcontent, rfl⟩ := Option.map_eq_some_iff.1 h
    simp only [isHighSurrogate, isLowSurrogate, Bool.and_eq_true, decide_eq_true_eq] at hhigh hlow
    have hvalid : code.isValidChar := by
      unfold Nat.isValidChar
      omega
    have hrest := ih (fun code hcode =>
      hunits code (List.mem_cons_of_mem _ (List.mem_cons_of_mem _ hcode))) hcontent
    exact .pair hhigh.1 hhigh.2 hlow.1 hlow.2 (toNat_ofNat hvalid) hrest
  | case7 code low rest hhigh hlow ih =>
    obtain ⟨content, hcontent, rfl⟩ := Option.map_eq_some_iff.1 h
    have hrest := ih (fun code hcode => hunits code (List.mem_cons_of_mem _ hcode)) hcontent
    exact hrest.of_not_surrogate (hunits code List.mem_cons_self) hhigh hlow
  | case9 code rest _ hsurrogate ih =>
    obtain ⟨content, hcontent, rfl⟩ := Option.map_eq_some_iff.1 h
    have hrest := ih (fun code hcode => hunits code (List.mem_cons_of_mem _ hcode)) hcontent
    rw [Bool.or_eq_true, not_or] at hsurrogate
    exact hrest.of_not_surrogate (hunits code List.mem_cons_self) hsurrogate.1 hsurrogate.2
  | case3 => cases h
  | case5 => cases h
  | case6 => cases h
  | case8 => cases h

/-- No character is a surrogate, so a code unit that is one stands for itself. -/
theorem content?_unit (c : Char) (rest : List Piece) :
    content? (.unit c.toNat :: rest) = (content? rest).map (c :: ·) := by
  have hhigh : isHighSurrogate c.toNat = false := by
    simp only [isHighSurrogate, Bool.and_eq_false_iff, decide_eq_false_iff_not]
    rcases c.valid with h | h
    · exact Or.inl (Nat.not_le_of_lt h)
    · exact Or.inr (Nat.not_lt_of_le (Nat.le_trans (by decide) (Nat.le_of_lt h.1)))
  have hlow : isLowSurrogate c.toNat = false := by
    simp only [isLowSurrogate, Bool.and_eq_false_iff, decide_eq_false_iff_not]
    rcases c.valid with h | h
    · exact Or.inl (Nat.not_le_of_lt (Nat.lt_trans h (by decide)))
    · exact Or.inr (Nat.not_lt_of_le h.1)
  rw [content?.eq_def]
  split
  · rename_i h
    cases h
  · rename_i h
    cases h
  · rename_i h
    cases h
  · rename_i h
    cases h
    rw [hhigh, hlow, Char.ofNat_toNat]
    rfl
  · rename_i h
    cases h
    rw [hhigh, hlow, Char.ofNat_toNat]
    rfl

theorem content?_of_decodes {content : Text} (h : Decodes ps content) :
    content? ps = some content := by
  induction h with
  | nil => rfl
  | symbol _ ih => rw [content?, ih, Option.map_some]
  | unit _ ih => rw [content?_unit, ih, Option.map_some]
  | @pair high low c ps content h₁ h₂ h₃ h₄ hcode _ ih =>
    have hhigh : isHighSurrogate high := by simp [isHighSurrogate, h₁, h₂]
    have hlow : isLowSurrogate low := by simp [isLowSurrogate, h₃, h₄]
    rw [content?, if_pos hhigh, if_pos hlow]
    dsimp only
    rw [← hcode, Char.ofNat_toNat, ih, Option.map_some]

theorem BodyText.content?_eq_some_iff {content : Text} (h : BodyText ps xs) :
    content? ps = some content ↔ Decodes ps content :=
  ⟨decodes_of_content? fun _ => h.lt, content?_of_decodes⟩

/-! ### Strings that are written -/

/-- The piece that a character is written as. -/
def writtenPiece (c : Char) : Piece :=
  if c < ' ' ∧ c ∉ ['\x08', '\x0c', '\n', '\r', '\t'] then .unit c.toNat else .symbol (some c)

theorem isHexDigit_hexChar (n : Nat) : IsHexDigit (hexChar n) (n % 16) :=
  ⟨Nat.mod_lt n (by decide), Or.inl rfl⟩

/-- The code unit of a control character. -/
theorem unitText_control {n : Nat} (hn : n < 32) :
    UnitText n ['0', '0', hexChar (n / 16), hexChar n] := by
  have hzero : IsHexDigit '0' 0 := ⟨by decide, Or.inl rfl⟩
  have h := UnitText.mk hzero hzero (isHexDigit_hexChar (n / 16)) (isHexDigit_hexChar n)
  have hcode : ((0 * 16 + 0) * 16 + n / 16 % 16) * 16 + n % 16 = n := by omega
  rwa [hcode] at h

theorem bodyText_escaped_append (c : Char) (h : BodyText ps xs) :
    BodyText (writtenPiece c :: ps) ((escaped c).map some ++ xs) := by
  unfold escaped
  iterate 7
    split
    · subst c
      exact .short (by decide) h
  rename_i hquote hbackslash h₁ h₂ h₃ h₄ h₅
  split
  · rename_i hc
    have hpiece : writtenPiece c = .unit c.toNat := if_pos ⟨hc, by simp [h₁, h₂, h₃, h₄, h₅]⟩
    rw [hpiece]
    exact .unit (unitText_control hc) h
  · rename_i hc
    have hpiece : writtenPiece c = .symbol (some c) := if_neg fun h => hc h.1
    rw [hpiece]
    exact .plain (Char.not_lt.1 hc) hquote hbackslash h

theorem bodyText_flatMap_escaped (content : Text) :
    BodyText (content.map writtenPiece) ((content.flatMap escaped).map some) := by
  induction content with
  | nil => exact .nil
  | cons c content ih =>
    rw [List.flatMap_cons, List.map_append]
    exact bodyText_escaped_append c ih

theorem decodes_map_writtenPiece (content : Text) : Decodes (content.map writtenPiece) content := by
  induction content with
  | nil => exact .nil
  | cons c content ih =>
    rw [List.map_cons]
    unfold writtenPiece
    split
    · exact .unit ih
    · exact .symbol ih

theorem BodyText.stringText (h : BodyText ps xs) :
    StringText (content? ps) (some '"' :: (xs ++ [some '"'])) :=
  ⟨ps, xs, h, fun _ => h.content?_eq_some_iff, rfl⟩

/-- What is written is a spelling of the content, or of none. -/
theorem stringText_quoted (content : Option Text) :
    StringText content ((quoted content).map some) := by
  cases content with
  | none =>
    have hdigit : ∀ n < 16, IsHexDigit (Nat.digitChar n) n := fun n hn => ⟨hn, Or.inl rfl⟩
    have hunit : UnitText 0xd800 ['d', '8', '0', '0'] :=
      .mk (hdigit 13 (by decide)) (hdigit 8 (by decide)) (hdigit 0 (by decide))
        (hdigit 0 (by decide))
    have hcontent : content? [.unit 0xd800] = none := by decide
    have h := (BodyText.unit hunit .nil).stringText
    rw [hcontent] at h
    exact h
  | some content =>
    have hquoted : quoted (some content) = '"' :: (content.flatMap escaped ++ ['"']) := rfl
    have h := (bodyText_flatMap_escaped content).stringText
    rw [content?_of_decodes (decodes_map_writtenPiece content)] at h
    rw [hquoted, List.map_cons, List.map_append, List.map_singleton]
    exact h

end Json

end PocketCalculator
