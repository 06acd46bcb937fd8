import PocketCalculator.Proofs.Json.Building

/-!
# JSON texts

Which symbols spell a value, whoever wrote them: white space may stand around every item, name and
value, strings and numbers have all their spellings, and values are nested to any depth
(`IsText`). Whatever spells a value lays out its tokens (`lays_of_spelledBy`), and whatever lays
them out can be cut into what spells the value (`cuts_tokens`). So the texts of a value are what is
read as the value (`read?_eq_some_iff`).
-/

namespace PocketCalculator

namespace Json

variable {v : Json} {ts us : List Token} {gap xs ys : List Symbol}

/-! ### The grammar -/

/-- Whether symbols are of the given kind, with white space around them. -/
def Padded (kind : List Symbol → Prop) (xs : List Symbol) : Prop :=
  ∃ before inner after, IsGap before ∧ kind inner ∧ IsGap after ∧ xs = before ++ (inner ++ after)

/-- Parts with commas between them. -/
def listed (parts : List (List Symbol)) : List Symbol :=
  List.intercalate [some ','] parts

mutual

/-- Whether symbols spell a value, without white space around it. -/
def SpelledBy : Json → List Symbol → Prop
  | .null, xs => xs = "null".toList.map some
  | .bool b, xs => xs = (if b then "true" else "false").toList.map some
  | .number literal, xs => NumberText literal ∧ xs = literal.map some
  | .string content, xs => StringText content xs
  | .array items, xs => ∃ parts inner, ItemsSpelledBy items parts ∧
      Padded (· = listed parts) inner ∧ xs = some '[' :: (inner ++ [some ']'])
  | .object members, xs => ∃ parts inner, MembersSpelledBy members parts ∧
      Padded (· = listed parts) inner ∧ xs = some '\x7b' :: (inner ++ [some '\x7d'])

/-- Whether parts spell the items of an array, white space around them included. -/
def ItemsSpelledBy : List Json → List (List Symbol) → Prop
  | [], parts => parts = []
  | v :: rest, parts => ∃ part more, Padded (SpelledBy v) part ∧ ItemsSpelledBy rest more ∧
      parts = part :: more

/-- Whether parts spell the members of an object, white space around them included. -/
def MembersSpelledBy : List (Option Text × Json) → List (List Symbol) → Prop
  | [], parts => parts = []
  | (name, v) :: rest, parts => ∃ before part more, Padded (StringText name) before ∧
      Padded (SpelledBy v) part ∧ MembersSpelledBy rest more ∧
      parts = (before ++ some ':' :: part) :: more

end

theorem MembersSpelledBy.cons {name : Option Text} {rest : List (Option Text × Json)}
    {before part : List Symbol} {more : List (List Symbol)}
    (hname : Padded (StringText name) before) (hpart : Padded (SpelledBy v) part)
    (hmore : MembersSpelledBy rest more) :
    MembersSpelledBy ((name, v) :: rest) ((before ++ some ':' :: part) :: more) :=
  ⟨before, part, more, hname, hpart, hmore, rfl⟩

/-- Whether symbols are a JSON text of a value. -/
def IsText (v : Json) (xs : List Symbol) : Prop := Padded (SpelledBy v) xs

theorem padded_self {kind : List Symbol → Prop} (h : kind xs) : Padded kind xs :=
  ⟨[], xs, [], isGap_nil, h, isGap_nil, by simp⟩

theorem Padded.indent {kind : List Symbol → Prop} (h : Padded kind xs) (hgap : IsGap gap) :
    Padded kind (gap ++ xs) := by
  obtain ⟨before, inner, after, hbefore, hinner, hafter, rfl⟩ := h
  exact ⟨_, inner, after, hgap.append hbefore, hinner, hafter, (List.append_assoc _ _ _).symm⟩

theorem Padded.trail {kind : List Symbol → Prop} (h : Padded kind xs) (hgap : IsGap gap) :
    Padded kind (xs ++ gap) := by
  obtain ⟨before, inner, after, hbefore, hinner, hafter, rfl⟩ := h
  exact ⟨before, inner, _, hbefore, hinner, hafter.append hgap, by simp⟩

/-! ### Laying out tokens -/

/-- Whether symbols lay out tokens in front of others, if no number goes on behind them. -/
def Lays (ts : List Token) (xs : List Symbol) : Prop :=
  ∀ us rest, Laid us rest → EndsNumber rest → Laid (ts ++ us) (xs ++ rest)

theorem lays_token {t : Token} (h : TokenText t xs) : Lays [t] xs :=
  fun _ _ hlaid hrest => .cons [] isGap_nil h (hrest.over t) hlaid

theorem lays_nil : Lays [] [] := fun _ _ h _ => h

theorem Lays.append (hts : Lays ts xs) (hus : Lays us ys) (hends : EndsNumber ys) :
    Lays (ts ++ us) (xs ++ ys) := by
  intro vs rest hlaid hrest
  rw [List.append_assoc, List.append_assoc]
  exact hts _ _ (hus _ _ hlaid hrest) (hends.append hrest)

/-- A token in front that is no number. -/
theorem Lays.cons {t : Token} (hus : Lays us ys) (ht : TokenText t xs)
    (hover : ∀ rest, t.Over rest) : Lays (t :: us) (xs ++ ys) := by
  intro vs rest hlaid hrest
  rw [List.append_assoc]
  exact .cons [] isGap_nil ht (hover _) (hus _ _ hlaid hrest)

theorem lays_listed {tss : List (List Token)} {parts : List (List Symbol)}
    (h : List.Forall₂ Lays tss parts) :
    Lays (List.intercalate [.comma] tss) (listed parts) := by
  induction h with
  | nil => exact lays_nil
  | @cons ts xs tss parts hts hrest ih =>
    cases hrest with
    | nil =>
      rw [listed, List.intercalate_singleton, List.intercalate_singleton]
      exact hts
    | cons hus hrest =>
      rw [listed, List.intercalate_cons_cons, List.intercalate_cons_cons, List.append_assoc,
        List.append_assoc]
      exact hts.append (ih.cons .comma fun _ => trivial) (stopsAt_cons.2 (by decide))

/-! ### White space around tokens -/

theorem Laid.indent (h : Laid ts xs) (hgap : IsGap gap) : Laid ts (gap ++ xs) := by
  cases h with
  | nil hmore => exact .nil (hgap.append hmore)
  | cons more hmore htext hover hrest =>
    rw [← List.append_assoc]
    exact .cons _ (hgap.append hmore) htext hover hrest

theorem Lays.indent (h : Lays ts xs) (hgap : IsGap gap) : Lays ts (gap ++ xs) := by
  intro us rest hlaid hrest
  rw [List.append_assoc]
  exact (h us rest hlaid hrest).indent hgap

/-- White space behind tokens ends a number. -/
theorem Lays.trail (h : Lays ts xs) (hgap : IsGap gap) : Lays ts (xs ++ gap) := by
  intro us rest hlaid hrest
  rw [List.append_assoc]
  exact h us _ (hlaid.indent hgap) (hgap.endsNumber.append hrest)

theorem Padded.lays {kind : List Symbol → Prop} (h : Padded kind xs)
    (hkind : ∀ xs, kind xs → Lays ts xs) : Lays ts xs := by
  obtain ⟨before, inner, after, hbefore, hinner, hafter, rfl⟩ := h
  exact ((hkind inner hinner).trail hafter).indent hbefore

/-! ### Values in layout -/

/-- Parts between brackets. -/
theorem lays_enclosed {opening closing : Token} {first last : Symbol} {tss : List (List Token)}
    {parts : List (List Symbol)} {inner : List Symbol} (hopening : TokenText opening [first])
    (hover : ∀ rest, opening.Over rest) (hclosing : TokenText closing [last])
    (hlast : EndsNumber [last]) (h : List.Forall₂ Lays tss parts)
    (hinner : Padded (· = listed parts) inner) :
    Lays (opening :: (List.intercalate [.comma] tss ++ [closing]))
      (first :: (inner ++ [last])) := by
  have hparts : Lays (List.intercalate [.comma] tss) inner := hinner.lays fun _ heq =>
    heq ▸ lays_listed h
  exact (hparts.append (lays_token hclosing) hlast).cons hopening hover

theorem lays_member {name : Option Text} {before part : List Symbol}
    (hname : Padded (StringText name) before) (hpart : Lays ts part) :
    Lays (.string name :: .colon :: ts) (before ++ some ':' :: part) :=
  (hname.lays fun _ h => lays_token (.string h)).append
    (hpart.cons .colon fun _ => trivial) (stopsAt_cons.2 (by decide))

mutual

/-- What spells a value lays out its tokens. -/
theorem lays_of_spelledBy : ∀ (v : Json) (xs : List Symbol), SpelledBy v xs → Lays v.tokens xs
  | .null, _, h => h ▸ lays_token .null
  | .bool b, _, h => h ▸ lays_token (.bool b)
  | .number _, _, ⟨hnumber, h⟩ => h ▸ lays_token (.number hnumber)
  | .string _, _, h => lays_token (.string h)
  | .array items, _, ⟨parts, _, hparts, hinner, h⟩ =>
    h ▸ lays_enclosed .openArray (fun _ => trivial) .closeArray
      (stopsAt_cons.2 (by decide)) (lays_of_itemsSpelledBy items parts hparts) hinner
  | .object members, _, ⟨parts, _, hparts, hinner, h⟩ =>
    h ▸ lays_enclosed .openObject (fun _ => trivial) .closeObject
      (stopsAt_cons.2 (by decide)) (lays_of_membersSpelledBy members parts hparts) hinner

theorem lays_of_itemsSpelledBy : ∀ (items : List Json) (parts : List (List Symbol)),
    ItemsSpelledBy items parts → List.Forall₂ Lays (itemTokens items) parts
  | [], _, h => h ▸ .nil
  | v :: rest, _, ⟨_, more, hpart, hmore, h⟩ =>
    h ▸ .cons (hpart.lays (lays_of_spelledBy v)) (lays_of_itemsSpelledBy rest more hmore)

theorem lays_of_membersSpelledBy : ∀ (members : List (Option Text × Json))
    (parts : List (List Symbol)), MembersSpelledBy members parts →
    List.Forall₂ Lays (memberTokens members) parts
  | [], _, h => h ▸ .nil
  | (_, v) :: rest, _, ⟨_, _, more, hname, hpart, hmore, h⟩ =>
    h ▸ .cons (lays_member hname (hpart.lays (lays_of_spelledBy v)))
      (lays_of_membersSpelledBy rest more hmore)

end

theorem IsText.laid (h : v.IsText xs) : Laid v.tokens xs := by
  have hlays : Lays v.tokens xs := Padded.lays h (lays_of_spelledBy v)
  have hlaid := hlays [] [] (.nil isGap_nil) endsNumber_nil
  rwa [List.append_nil, List.append_nil] at hlaid

/-! ### Cutting layouts -/

/-- Whether what lays out tokens in front of others starts with something of the given kind. -/
def Cuts (ts : List Token) (kind : List Symbol → Prop) : Prop :=
  ∀ us xs, Laid (ts ++ us) xs → ∃ gap inner rest, IsGap gap ∧ kind inner ∧ Laid us rest ∧
    xs = gap ++ (inner ++ rest)

/-- Whether what lays out tokens in front of a token starts with something of the given kind and
goes on with this token. -/
def CutsPart (ts : List Token) (kind : List Symbol → Prop) : Prop :=
  ∀ t us xs, Laid (ts ++ t :: us) xs → ∃ part x rest, kind part ∧ TokenText t x ∧ Laid us rest ∧
    xs = part ++ (x ++ rest)

theorem cuts_token {t : Token} {kind : List Symbol → Prop} (h : ∀ x, TokenText t x → kind x) :
    Cuts [t] kind := by
  intro us xs hlaid
  cases hlaid with
  | cons gap hgap htext _ hrest => exact ⟨_, _, _, hgap, h _ htext, hrest, rfl⟩

theorem cutsPart_nil : CutsPart [] IsGap := by
  intro t us xs hlaid
  cases hlaid with
  | cons gap hgap htext _ hrest => exact ⟨_, _, _, hgap, htext, hrest, rfl⟩

/-- The white space in front of the next token belongs to the part. -/
theorem Cuts.part {kind : List Symbol → Prop} (h : Cuts ts kind) : CutsPart ts (Padded kind) := by
  intro t us xs hlaid
  obtain ⟨gap, inner, _, hgap, hinner, hbehind, rfl⟩ := h _ _ hlaid
  obtain ⟨after, x, rest, hafter, htext, hrest, rfl⟩ := cutsPart_nil _ _ _ hbehind
  refine ⟨_, x, rest, ⟨gap, inner, after, hgap, hinner, hafter, rfl⟩, htext, hrest, ?_⟩
  simp only [List.append_assoc]

/-- Parts with a token between them. -/
theorem CutsPart.append {t : Token} {kind kind' : List Symbol → Prop} {c : Symbol}
    (h : CutsPart ts kind) (ht : ∀ x, TokenText t x → x = [c]) (h' : CutsPart us kind') :
    CutsPart (ts ++ t :: us)
      (fun xs => ∃ part more, kind part ∧ kind' more ∧ xs = part ++ c :: more) := by
  intro t' us' xs hlaid
  rw [List.append_assoc, List.cons_append] at hlaid
  obtain ⟨part, x, _, hpart, hx, hbehind, rfl⟩ := h _ _ _ hlaid
  obtain ⟨more, x', rest, hmore, hx', hrest, rfl⟩ := h' _ _ _ hbehind
  obtain rfl := ht x hx
  exact ⟨_, x', rest, ⟨part, more, hpart, hmore, rfl⟩, hx', hrest, by simp⟩

theorem eq_of_tokenText_comma (h : TokenText .comma xs) : xs = [some ','] := by
  cases h
  rfl

theorem eq_of_tokenText_colon (h : TokenText .colon xs) : xs = [some ':'] := by
  cases h
  rfl

section Parts

variable {α : Type} {kind : α → List Symbol → Prop} {as : List α} {tss : List (List Token)}

theorem cutsPart_listed {a : α} (h : CutsPart ts (kind a))
    (hrest : List.Forall₂ (fun a ts => CutsPart ts (kind a)) as tss) :
    CutsPart (List.intercalate [.comma] (ts :: tss))
      (fun xs => ∃ parts, List.Forall₂ kind (a :: as) parts ∧ xs = listed parts) := by
  induction hrest generalizing a ts with
  | nil =>
    intro t us xs hlaid
    rw [List.intercalate_singleton] at hlaid
    obtain ⟨part, x, rest, hpart, hx, hrest, rfl⟩ := h _ _ _ hlaid
    exact ⟨part, x, rest, ⟨[part], .cons hpart .nil, List.intercalate_singleton.symm⟩, hx, hrest,
      rfl⟩
  | cons ha _ ih =>
    intro t us xs hlaid
    rw [List.intercalate_cons_cons, ← List.append_cons] at hlaid
    have hcuts := h.append (fun _ => eq_of_tokenText_comma) (ih ha)
    obtain ⟨_, x, rest, ⟨part, _, hpart, ⟨parts, hparts, rfl⟩, rfl⟩, hx, hrest, rfl⟩ :=
      hcuts _ _ _ hlaid
    refine ⟨_, x, rest, ⟨part :: parts, .cons hpart hparts, ?_⟩, hx, hrest, rfl⟩
    cases hparts
    rw [listed, listed, List.intercalate_cons_cons, ← List.append_cons]

/-- What stands between brackets: parts, or white space alone. -/
theorem cutsPart_parts (h : List.Forall₂ (fun a ts => CutsPart ts (kind a)) as tss) :
    CutsPart (List.intercalate [.comma] tss)
      (fun xs => ∃ parts, List.Forall₂ kind as parts ∧ Padded (· = listed parts) xs) := by
  intro t us xs hlaid
  cases h with
  | nil =>
    obtain ⟨gap, x, rest, hgap, hx, hrest, rfl⟩ := cutsPart_nil t us xs hlaid
    refine ⟨gap, x, rest, ⟨[], .nil, ?_⟩, hx, hrest, rfl⟩
    exact ⟨gap, [], [], hgap, rfl, isGap_nil, by simp⟩
  | cons ha hrest =>
    obtain ⟨inner, x, rest, ⟨parts, hparts, hinner⟩, hx, hrest, rfl⟩ :=
      cutsPart_listed ha hrest t us xs hlaid
    exact ⟨inner, x, rest, ⟨parts, hparts, padded_self hinner⟩, hx, hrest, rfl⟩

theorem cuts_enclosed {opening closing : Token} (first last : Symbol)
    (hopening : ∀ x, TokenText opening x → x = [first])
    (hclosing : ∀ x, TokenText closing x → x = [last])
    (h : List.Forall₂ (fun a ts => CutsPart ts (kind a)) as tss) :
    Cuts (opening :: (List.intercalate [.comma] tss ++ [closing]))
      (fun xs => ∃ parts inner, List.Forall₂ kind as parts ∧ Padded (· = listed parts) inner ∧
        xs = first :: (inner ++ [last])) := by
  intro us xs hlaid
  rw [List.cons_append, List.append_assoc, List.singleton_append] at hlaid
  cases hlaid with
  | @cons gap x _ _ _ hgap hx _ hbehind =>
    obtain ⟨inner, y, rest, ⟨parts, hparts, hinner⟩, hy, hrest, rfl⟩ :=
      cutsPart_parts h _ _ _ hbehind
    obtain rfl := hopening x hx
    obtain rfl := hclosing y hy
    refine ⟨gap, _, rest, hgap, ⟨parts, inner, hparts, hinner, rfl⟩, hrest, ?_⟩
    simp

end Parts

/-- Whether symbols spell a member of an object, white space around it included. -/
def MemberSpelledBy (m : Option Text × Json) (xs : List Symbol) : Prop :=
  ∃ before part, Padded (StringText m.1) before ∧ Padded (SpelledBy m.2) part ∧
    xs = before ++ some ':' :: part

theorem itemsSpelledBy_of_forall₂ {items : List Json} {parts : List (List Symbol)}
    (h : List.Forall₂ (fun v => Padded (SpelledBy v)) items parts) :
    ItemsSpelledBy items parts := by
  induction h with
  | nil => rfl
  | cons hv _ ih => exact ⟨_, _, hv, ih, rfl⟩

theorem membersSpelledBy_of_forall₂ {members : List (Option Text × Json)}
    {parts : List (List Symbol)} (h : List.Forall₂ MemberSpelledBy members parts) :
    MembersSpelledBy members parts := by
  induction h with
  | nil => rfl
  | cons hm _ ih =>
    obtain ⟨before, part, hname, hpart, rfl⟩ := hm
    exact .cons hname hpart ih

mutual

/-- What lays out the tokens of a value starts with what spells the value. -/
theorem cuts_tokens : ∀ v : Json, Cuts v.tokens (SpelledBy v)
  | .null => cuts_token fun _ h => by cases h; rfl
  | .bool _ => cuts_token fun _ h => by cases h; rfl
  | .number _ => cuts_token fun _ h => by
    cases h with
    | number hnumber => exact ⟨hnumber, rfl⟩
  | .string _ => cuts_token fun _ h => by
    cases h with
    | string hstring => exact hstring
  | .array items => by
    intro us xs hlaid
    obtain ⟨gap, inner, rest, hgap, ⟨parts, inner, hparts, hinner, rfl⟩, hrest, rfl⟩ :=
      cuts_enclosed (some '[') (some ']') (fun _ h => by cases h; rfl)
        (fun _ h => by cases h; rfl) (cuts_itemTokens items) us xs hlaid
    exact ⟨gap, _, rest, hgap, ⟨parts, inner, itemsSpelledBy_of_forall₂ hparts, hinner, rfl⟩,
      hrest, rfl⟩
  | .object members => by
    intro us xs hlaid
    obtain ⟨gap, inner, rest, hgap, ⟨parts, inner, hparts, hinner, rfl⟩, hrest, rfl⟩ :=
      cuts_enclosed (some '\x7b') (some '\x7d') (fun _ h => by cases h; rfl)
        (fun _ h => by cases h; rfl) (cuts_memberTokens members) us xs hlaid
    exact ⟨gap, _, rest, hgap, ⟨parts, inner, membersSpelledBy_of_forall₂ hparts, hinner, rfl⟩,
      hrest, rfl⟩

theorem cuts_itemTokens : ∀ items : List Json,
    List.Forall₂ (fun v ts => CutsPart ts (Padded (SpelledBy v))) items (itemTokens items)
  | [] => .nil
  | v :: rest => .cons (cuts_tokens v).part (cuts_itemTokens rest)

theorem cuts_memberTokens : ∀ members : List (Option Text × Json),
    List.Forall₂ (fun m ts => CutsPart ts (MemberSpelledBy m)) members (memberTokens members)
  | [] => .nil
  | (name, v) :: rest => by
    have hname : CutsPart [.string name] (Padded (StringText name)) :=
      (cuts_token fun _ h => by
        cases h with
        | string hstring => exact hstring).part
    exact .cons (hname.append (fun _ => eq_of_tokenText_colon) (cuts_tokens v).part)
      (cuts_memberTokens rest)

end

theorem isText_of_laid (h : Laid v.tokens xs) : v.IsText xs := by
  rw [← List.append_nil v.tokens] at h
  obtain ⟨gap, inner, rest, hgap, hinner, hrest, rfl⟩ := cuts_tokens v _ _ h
  cases hrest with
  | nil hafter => exact ⟨gap, inner, rest, hgap, hinner, hafter, rfl⟩

/-! ### Reading texts -/

/-- The texts of a value are what is read as the value. -/
theorem read?_eq_some_iff : read? xs = some v ↔ v.IsText xs :=
  read?_eq_some_iff_laid.trans ⟨isText_of_laid, IsText.laid⟩

theorem IsText.read?_eq (h : v.IsText xs) : read? xs = some v :=
  read?_eq_some_iff.2 h

/-! ### Values that have texts -/

mutual

/-- Whether every number of a value is written as a number. -/
def Valid : Json → Prop
  | .number literal => isNumber literal
  | .array items => ValidItems items
  | .object members => ValidMembers members
  | _ => True

/-- Whether every number of the items of an array is written as a number. -/
def ValidItems : List Json → Prop
  | [] => True
  | v :: rest => v.Valid ∧ ValidItems rest

/-- Whether every number of the members of an object is written as a number. -/
def ValidMembers : List (Option Text × Json) → Prop
  | [] => True
  | (_, v) :: rest => v.Valid ∧ ValidMembers rest

end

theorem ValidItems.valid_of_mem {items : List Json} (h : ValidItems items) (hv : v ∈ items) :
    v.Valid := by
  induction items with
  | nil => cases hv
  | cons first rest ih =>
    rcases List.mem_cons.1 hv with rfl | hv
    · exact h.1
    · exact ih h.2 hv

theorem ValidMembers.valid_of_mem {members : List (Option Text × Json)} (h : ValidMembers members)
    {m : Option Text × Json} (hm : m ∈ members) : m.2.Valid := by
  induction members with
  | nil => cases hm
  | cons first rest ih =>
    rcases List.mem_cons.1 hm with rfl | hm
    · exact h.1
    · exact ih h.2 hm

mutual

theorem valid_of_spelledBy : ∀ (v : Json) (xs : List Symbol), SpelledBy v xs → v.Valid
  | .null, _, _ => trivial
  | .bool _, _, _ => trivial
  | .number _, _, ⟨hnumber, _⟩ => isNumber_iff.2 hnumber
  | .string _, _, _ => trivial
  | .array items, _, ⟨parts, _, hparts, _, _⟩ => valid_of_itemsSpelledBy items parts hparts
  | .object members, _, ⟨parts, _, hparts, _, _⟩ => valid_of_membersSpelledBy members parts hparts

theorem valid_of_itemsSpelledBy : ∀ (items : List Json) (parts : List (List Symbol)),
    ItemsSpelledBy items parts → ValidItems items
  | [], _, _ => trivial
  | v :: rest, _, ⟨_, more, ⟨_, inner, _, _, hinner, _⟩, hmore, _⟩ =>
    ⟨valid_of_spelledBy v inner hinner, valid_of_itemsSpelledBy rest more hmore⟩

theorem valid_of_membersSpelledBy : ∀ (members : List (Option Text × Json))
    (parts : List (List Symbol)), MembersSpelledBy members parts → ValidMembers members
  | [], _, _ => trivial
  | (_, v) :: rest, _, ⟨_, _, more, _, ⟨_, inner, _, _, hinner, _⟩, hmore, _⟩ =>
    ⟨valid_of_spelledBy v inner hinner, valid_of_membersSpelledBy rest more hmore⟩

end

theorem IsText.valid (h : v.IsText xs) : v.Valid := by
  obtain ⟨_, inner, _, _, hinner, _⟩ := h
  exact valid_of_spelledBy v inner hinner

end Json

end PocketCalculator
