import Mathlib.Data.List.ReduceOption
import PocketCalculator.Proofs.Json.Numbers
import PocketCalculator.Proofs.Json.Spelling

/-!
# Laying out tokens

What spells a token (`TokenText`) is what is read as the token (`token?_eq_some_iff`). Only a number
needs something to end it, so what follows a number may not look like the rest of one.

`Laid ts xs`: the symbols `xs` spell the tokens `ts`, with white space before, between and after
them. They are what is read as these tokens (`tokens?_eq_some_iff`).
-/

namespace PocketCalculator

namespace Json

variable {t : Token} {ts us : List Token} {x xs ys rest : List Symbol}

/-! ### Tokens -/

/-- What spells a token. -/
inductive TokenText : Token → List Symbol → Prop
  | openArray : TokenText .openArray [some '[']
  | closeArray : TokenText .closeArray [some ']']
  | openObject : TokenText .openObject [some '\x7b']
  | closeObject : TokenText .closeObject [some '\x7d']
  | comma : TokenText .comma [some ',']
  | colon : TokenText .colon [some ':']
  | null : TokenText .null ("null".toList.map some)
  | bool (b : Bool) : TokenText (.bool b) ((if b then "true" else "false").toList.map some)
  | number {literal : Text} : NumberText literal →
      TokenText (.number literal) (literal.map some)
  | string {content : Option Text} {xs : List Symbol} : StringText content xs →
      TokenText (.string content) xs

/-- A symbol that cannot belong to a number, or the end, is next. -/
def EndsNumber (xs : List Symbol) : Prop := StopsAt (fun x => x.any isNumberChar) xs

/-- Whether a token is over before the given symbols. -/
def Token.Over : Token → List Symbol → Prop
  | .number _, rest => EndsNumber rest
  | _, _ => True

theorem endsNumber_nil : EndsNumber [] := stopsAt_nil

theorem EndsNumber.over (h : EndsNumber rest) (t : Token) : t.Over rest := by
  cases t with
  | number literal => exact h
  | _ => exact trivial

theorem EndsNumber.append (h : EndsNumber xs) (hys : EndsNumber ys) : EndsNumber (xs ++ ys) := by
  cases xs with
  | nil => exact hys
  | cons x xs => exact stopsAt_cons.2 (stopsAt_cons.1 h)

theorem token?_quote (xs : List Symbol) :
    token? (some '"' :: xs) = (pieces? [] xs).map fun r => (.string (content? r.1), r.2) := rfl

theorem token?_of_stringText {content : Option Text} (h : StringText content x)
    (rest : List Symbol) : token? (x ++ rest) = some (.string content, rest) := by
  obtain ⟨ps, body, hbody, hdecodes, rfl⟩ := h
  have hcontent : content? ps = content := by
    refine Option.ext fun text => ?_
    rw [hdecodes, hbody.content?_eq_some_iff]
  rw [List.cons_append, List.append_assoc, List.singleton_append, token?_quote,
    pieces?_bodyText hbody, Option.map_some, List.reverse_nil, List.nil_append, hcontent]

theorem token?_of_isNumberChar {c : Char} (hc : isNumberChar c) (rest : List Symbol) :
    token? (some c :: rest) =
      let literal := ((some c :: rest).takeWhile fun x => x.any isNumberChar).reduceOption
      if isNumber literal then some (.number literal, (some c :: rest).drop literal.length)
      else none := by
  unfold token?
  split
  iterate 10
    rename_i h
    cases h
    exact absurd hc (by decide)
  rfl

theorem reduceOption_map_some (t : Text) : (t.map some).reduceOption = t := by
  have hmap : (t.map some).filterMap id = t.filterMap some := List.filterMap_map
  exact hmap.trans List.filterMap_some

theorem token?_of_numberText {literal : Text} (h : NumberText literal) (hrest : EndsNumber rest) :
    token? (literal.map some ++ rest) = some (.number literal, rest) := by
  have hchars : ∀ x ∈ literal.map some, x.any isNumberChar := by
    simpa using h.isNumberChar
  have hrun := takeWhile_run hchars hrest
  obtain ⟨c, text, rfl⟩ := List.exists_cons_of_ne_nil h.ne_nil
  have hc : isNumberChar c := h.isNumberChar c List.mem_cons_self
  rw [List.map_cons, List.cons_append] at hrun ⊢
  rw [token?_of_isNumberChar hc]
  dsimp only
  rw [hrun, ← List.map_cons, reduceOption_map_some, if_pos (isNumber_iff.2 h), ← List.cons_append,
    ← List.map_cons, List.drop_left' (List.length_map _)]

theorem token?_of_tokenText (h : TokenText t x) (hover : t.Over rest) :
    token? (x ++ rest) = some (t, rest) := by
  cases h with
  | number h => exact token?_of_numberText h hover
  | string h => exact token?_of_stringText h rest
  | bool b => cases b <;> rfl
  | _ => rfl

/-- Characters of numbers are characters. -/
theorem map_some_reduceOption {xs : List Symbol} (h : ∀ x ∈ xs, x.any isNumberChar) :
    xs.reduceOption.map some = xs := by
  induction xs with
  | nil => rfl
  | cons x xs ih =>
    obtain ⟨hx, hxs⟩ := List.forall_mem_cons.1 h
    cases x with
    | none => cases hx
    | some c => rw [List.reduceOption_cons_of_some, List.map_cons, ih hxs]

theorem exists_tokenText (h : token? xs = some (t, rest)) :
    ∃ x, TokenText t x ∧ t.Over rest ∧ xs = x ++ rest := by
  unfold token? at h
  split at h
  · cases h
    exact ⟨_, .openArray, trivial, rfl⟩
  · cases h
    exact ⟨_, .closeArray, trivial, rfl⟩
  · cases h
    exact ⟨_, .openObject, trivial, rfl⟩
  · cases h
    exact ⟨_, .closeObject, trivial, rfl⟩
  · cases h
    exact ⟨_, .comma, trivial, rfl⟩
  · cases h
    exact ⟨_, .colon, trivial, rfl⟩
  · cases h
    exact ⟨_, .null, trivial, rfl⟩
  · cases h
    exact ⟨_, .bool true, trivial, rfl⟩
  · cases h
    exact ⟨_, .bool false, trivial, rfl⟩
  · obtain ⟨⟨ps, rest'⟩, hpieces, heq⟩ := Option.map_eq_some_iff.1 h
    cases heq
    obtain ⟨qs, body, hbody, rfl, rfl⟩ := pieces?_eq_some_iff.1 hpieces
    exact ⟨_, .string hbody.stringText, trivial, by simp⟩
  · dsimp only at h
    split at h
    · rename_i hnumber
      cases h
      have hrun : (xs.takeWhile fun x => x.any isNumberChar).reduceOption.map some =
          xs.takeWhile fun x => x.any isNumberChar :=
        map_some_reduceOption fun _ hx => List.mem_takeWhile_imp hx
      have hrest : xs.drop (xs.takeWhile fun x => x.any isNumberChar).reduceOption.length =
          xs.dropWhile fun x => x.any isNumberChar := by
        rw [← List.length_map (f := some), hrun]
        exact drop_length_takeWhile _ _
      rw [hrest]
      refine ⟨_, .number (isNumber_iff.1 hnumber), stopsAt_dropWhile xs, ?_⟩
      rw [hrun, List.takeWhile_append_dropWhile]
    · cases h

theorem token?_eq_some_iff :
    token? xs = some (t, rest) ↔ ∃ x, TokenText t x ∧ t.Over rest ∧ xs = x ++ rest := by
  refine ⟨exists_tokenText, ?_⟩
  rintro ⟨x, hx, hover, rfl⟩
  exact token?_of_tokenText hx hover

/-! ### Laid out tokens -/

/-- Whether symbols are white space between tokens. -/
def IsGap (xs : List Symbol) : Prop := ∀ x ∈ xs, isSpace x

theorem isGap_nil : IsGap [] := fun _ hx => absurd hx List.not_mem_nil

theorem IsGap.append (h : IsGap xs) (hys : IsGap ys) : IsGap (xs ++ ys) :=
  fun x hx => (List.mem_append.1 hx).elim (h x) (hys x)

theorem IsGap.endsNumber (h : IsGap xs) : EndsNumber xs := by
  cases xs with
  | nil => exact stopsAt_nil
  | cons x xs =>
    refine stopsAt_cons.2 ?_
    have hx := h x List.mem_cons_self
    simp only [isSpace, Bool.or_eq_true, decide_eq_true_eq] at hx
    rcases hx with ((rfl | rfl) | rfl) | rfl <;> decide

/-- White space before, between and after tokens. -/
inductive Laid : List Token → List Symbol → Prop
  | nil {gap : List Symbol} : IsGap gap → Laid [] gap
  | cons (gap : List Symbol) {x rest : List Symbol} {t : Token} {ts : List Token} : IsGap gap →
      TokenText t x → t.Over rest → Laid ts rest → Laid (t :: ts) (gap ++ (x ++ rest))

/-- White space starts no token. -/
theorem token?_of_isSpace {y : Symbol} (hy : isSpace y) (rest : List Symbol) :
    token? (y :: rest) = none := by
  simp only [isSpace, Bool.or_eq_true, decide_eq_true_eq] at hy
  rcases hy with ((rfl | rfl) | rfl) | rfl <;> rfl

/-- A token starts with a symbol that is no white space. -/
theorem TokenText.exists_cons (h : TokenText t x) : ∃ y x', x = y :: x' ∧ isSpace y = false := by
  have hread := token?_of_tokenText h (endsNumber_nil.over t)
  rw [List.append_nil] at hread
  cases x with
  | nil =>
    have hnone : token? [] = none := rfl
    rw [hnone] at hread
    cases hread
  | cons y x' =>
    refine ⟨y, x', rfl, ?_⟩
    by_contra hy
    rw [token?_of_isSpace (by simpa using hy)] at hread
    cases hread

theorem tokensFrom_of_laid (h : Laid ts xs) (done : List Token) {fuel : Nat}
    (hfuel : xs.length ≤ fuel) : tokensFrom done fuel xs = some (done.reverse ++ ts) := by
  induction h generalizing done fuel with
  | nil hgap =>
    unfold tokensFrom
    rw [List.dropWhile_eq_nil_iff.2 hgap, List.append_nil]
  | @cons gap x rest t ts hgap htext hover hrest ih =>
    obtain ⟨y, x', rfl, hy⟩ := htext.exists_cons
    have hdrop : (gap ++ (y :: x' ++ rest)).dropWhile isSpace = y :: x' ++ rest := by
      rw [List.dropWhile_append_of_pos hgap, List.cons_append,
        List.dropWhile_cons_of_neg (by simp [hy])]
    simp only [List.length_append, List.length_cons] at hfuel
    obtain ⟨fuel, rfl⟩ : ∃ k, fuel = k + 1 := ⟨fuel - 1, by omega⟩
    have hread := token?_of_tokenText htext hover
    have hih : tokensFrom (t :: done) fuel rest = some ((t :: done).reverse ++ ts) :=
      ih (t :: done) (by omega)
    unfold tokensFrom
    rw [hdrop]
    rw [List.cons_append] at hread ⊢
    dsimp only
    rw [hread]
    dsimp only
    rw [hih, List.reverse_cons, List.append_assoc, List.singleton_append]

theorem exists_laid {done : List Token} {fuel : Nat} (h : tokensFrom done fuel xs = some ts) :
    ∃ us, Laid us xs ∧ ts = done.reverse ++ us := by
  fun_induction tokensFrom done fuel xs with
  | case1 done xs fuel hdrop =>
    obtain rfl := Option.some.inj h
    exact ⟨[], .nil (List.dropWhile_eq_nil_iff.1 hdrop), (List.append_nil _).symm⟩
  | case3 done xs y ys fuel hdrop t rest hread ih =>
    obtain ⟨us, hlaid, rfl⟩ := ih h
    obtain ⟨x, hx, hover, heq⟩ := token?_eq_some_iff.1 hread
    have hgap : IsGap (xs.takeWhile isSpace) := fun _ hx => List.mem_takeWhile_imp hx
    have hxs : xs = xs.takeWhile isSpace ++ (x ++ rest) := by
      rw [← heq, ← hdrop, List.takeWhile_append_dropWhile]
    rw [hxs]
    refine ⟨t :: us, .cons _ hgap hx hover hlaid, ?_⟩
    rw [List.reverse_cons, List.append_assoc, List.singleton_append]
  | case2 => cases h
  | case4 => cases h

/-- Laid out tokens are what is read as these tokens. -/
theorem tokens?_eq_some_iff : tokens? xs = some ts ↔ Laid ts xs := by
  constructor
  · intro h
    obtain ⟨us, hlaid, rfl⟩ := exists_laid h
    exact hlaid
  · exact fun h => tokensFrom_of_laid h [] le_rfl

end Json

end PocketCalculator
