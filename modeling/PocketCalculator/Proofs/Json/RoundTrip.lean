import PocketCalculator.Proofs.Json.Grammar

/-!
# What is written is read back

The text of a value is one of those that spell it, whether it is written without white space
(`spelledBy_compact`) or on indented lines (`spelledBy_prettyAt`). So it is read as the value again.
-/

namespace PocketCalculator

namespace Json

variable {v : Json} {gap : List Symbol}

/-- The symbols of some texts. -/
def symbolsOf (parts : List Text) : List (List Symbol) :=
  parts.map (List.map some)

theorem listed_symbolsOf (parts : List Text) :
    listed (symbolsOf parts) = (joined parts).map some := by
  induction parts with
  | nil => rfl
  | cons part parts ih =>
    cases parts with
    | nil => simp [listed, joined, symbolsOf, List.intercalate_singleton]
    | cons other parts =>
      unfold listed joined symbolsOf at ih ⊢
      rw [List.intercalate_cons_cons, List.map_append, List.map_append, ← ih]
      exact List.intercalate_cons_cons

theorem map_enclosed (first last : Char) (t : Text) :
    (first :: (t ++ [last])).map some = some first :: (t.map some ++ [some last]) := by
  rw [List.map_cons, List.map_append, List.map_singleton]

/-! ### Without white space -/

theorem padded_joined (parts : List Text) :
    Padded (· = listed (symbolsOf parts)) ((joined parts).map some) :=
  padded_self (listed_symbolsOf parts).symm

mutual

theorem spelledBy_compact : ∀ v : Json, v.Valid → SpelledBy v (v.compact.map some)
  | .null, _ => rfl
  | .bool true, _ => rfl
  | .bool false, _ => rfl
  | .number _, h => ⟨isNumber_iff.1 h, rfl⟩
  | .string content, _ => stringText_quoted content
  | .array items, h =>
    ⟨_, _, itemsSpelledBy_compact items h, padded_joined _, map_enclosed _ _ _⟩
  | .object members, h =>
    ⟨_, _, membersSpelledBy_compact members h, padded_joined _, map_enclosed _ _ _⟩

theorem itemsSpelledBy_compact : ∀ items : List Json, ValidItems items →
    ItemsSpelledBy items (symbolsOf (compactItems items))
  | [], _ => rfl
  | v :: rest, h =>
    ⟨_, _, padded_self (spelledBy_compact v h.1), itemsSpelledBy_compact rest h.2, rfl⟩

theorem membersSpelledBy_compact : ∀ members : List (Option Text × Json), ValidMembers members →
    MembersSpelledBy members (symbolsOf (compactMembers members))
  | [], _ => rfl
  | (name, v) :: rest, h =>
    ⟨_, _, _, padded_self (stringText_quoted name), padded_self (spelledBy_compact v h.1),
      membersSpelledBy_compact rest h.2, congrArg (· :: _) List.map_append⟩

end

theorem isText_compact (h : v.Valid) : v.IsText (v.compact.map some) :=
  padded_self (spelledBy_compact v h)

/-- A value that is written without white space is read back. -/
theorem read?_compact (h : v.Valid) : read? (v.compact.map some) = some v :=
  (isText_compact h).read?_eq

/-! ### On indented lines -/

theorem isGap_indentation (depth : Nat) : IsGap ((indentation depth).map some) := by
  refine List.forall_mem_cons.2 ⟨by decide, fun x hx => ?_⟩
  obtain ⟨c, hc, rfl⟩ := List.mem_map.1 hx
  rw [List.eq_of_mem_replicate hc]
  decide

theorem itemsSpelledBy_indent {items : List Json} {parts : List (List Symbol)}
    (h : ItemsSpelledBy items parts) (hgap : IsGap gap) :
    ItemsSpelledBy items (parts.map (gap ++ ·)) := by
  induction items generalizing parts with
  | nil =>
    obtain rfl := h
    rfl
  | cons v rest ih =>
    obtain ⟨part, more, hpart, hmore, rfl⟩ := h
    exact ⟨_, _, hpart.indent hgap, ih hmore, rfl⟩

theorem membersSpelledBy_indent {members : List (Option Text × Json)}
    {parts : List (List Symbol)} (h : MembersSpelledBy members parts) (hgap : IsGap gap) :
    MembersSpelledBy members (parts.map (gap ++ ·)) := by
  induction members generalizing parts with
  | nil =>
    obtain rfl := h
    rfl
  | cons m rest ih =>
    obtain ⟨before, part, more, hname, hpart, hmore, rfl⟩ := h
    refine ⟨_, _, _, hname.indent hgap, hpart, ih hmore, ?_⟩
    rw [List.map_cons, List.append_assoc]

theorem symbolsOf_indent (t : Text) (parts : List Text) :
    (symbolsOf parts).map (t.map some ++ ·) = symbolsOf (parts.map (t ++ ·)) := by
  simp [symbolsOf, Function.comp_def]

/-- What stands between the brackets is the items on lines of their own. -/
theorem exists_bracketed (first last : Char) (depth : Nat) (parts : List Text) :
    ∃ inner, Padded (· = listed ((symbolsOf parts).map ((indentation (depth + 1)).map some ++ ·)))
        inner ∧
      (bracketed first last depth parts).map some = some first :: (inner ++ [some last]) := by
  rw [symbolsOf_indent]
  cases parts with
  | nil => exact ⟨[], padded_self rfl, rfl⟩
  | cons part parts =>
    exact ⟨_, (padded_joined _).trail (isGap_indentation depth), by simp [bracketed]⟩

mutual

theorem spelledBy_prettyAt (depth : Nat) : ∀ v : Json, v.Valid →
    SpelledBy v ((prettyAt depth v).map some)
  | .null, _ => rfl
  | .bool true, _ => rfl
  | .bool false, _ => rfl
  | .number _, h => ⟨isNumber_iff.1 h, rfl⟩
  | .string content, _ => stringText_quoted content
  | .array items, h => by
    have hitems := itemsSpelledBy_pretty (depth + 1) items h
    obtain ⟨inner, hinner, htext⟩ := exists_bracketed '[' ']' depth (prettyItems (depth + 1) items)
    exact ⟨_, inner, itemsSpelledBy_indent hitems (isGap_indentation _), hinner, htext⟩
  | .object members, h => by
    have hmembers := membersSpelledBy_pretty (depth + 1) members h
    obtain ⟨inner, hinner, htext⟩ :=
      exists_bracketed '\x7b' '\x7d' depth (prettyMembers (depth + 1) members)
    exact ⟨_, inner, membersSpelledBy_indent hmembers (isGap_indentation _), hinner, htext⟩

theorem itemsSpelledBy_pretty (depth : Nat) : ∀ items : List Json, ValidItems items →
    ItemsSpelledBy items (symbolsOf (prettyItems depth items))
  | [], _ => rfl
  | v :: rest, h =>
    ⟨_, _, padded_self (spelledBy_prettyAt depth v h.1), itemsSpelledBy_pretty depth rest h.2, rfl⟩

theorem membersSpelledBy_pretty (depth : Nat) : ∀ members : List (Option Text × Json),
    ValidMembers members → MembersSpelledBy members (symbolsOf (prettyMembers depth members))
  | [], _ => rfl
  | (name, v) :: rest, h => by
    have hspace : IsGap [some ' '] := by simp [IsGap, isSpace]
    have hvalue := (padded_self (spelledBy_prettyAt depth v h.1)).indent hspace
    exact ⟨_, _, _, padded_self (stringText_quoted name), hvalue,
      membersSpelledBy_pretty depth rest h.2, congrArg (· :: _) List.map_append⟩

end

theorem isText_pretty (h : v.Valid) : v.IsText (v.pretty.map some) :=
  padded_self (spelledBy_prettyAt 0 v h)

end Json

end PocketCalculator
