import Mathlib.Data.List.Forall2
import PocketCalculator.Json.Read
import PocketCalculator.Proofs.Json.Layout

/-!
# Building values

A JSON value has a list of tokens. The tokens of a value build this value wherever a value may
stand (`builds_tokens`), and whatever has been read up to a place is still to be seen there
(`tokens_of_next`), so a value is built from its tokens only (`ofTokens?_eq_some_iff`). What is read
as a value is what lays out its tokens (`read?_eq_some_iff_laid`).
-/

namespace PocketCalculator

namespace Json

variable {v : Json} {ts us : List Token} {place : Place}

mutual

/-- The tokens of a value. -/
def tokens : Json → List Token
  | .null => [.null]
  | .bool b => [.bool b]
  | .number literal => [.number literal]
  | .string content => [.string content]
  | .array items =>
    .openArray :: (List.intercalate [.comma] (itemTokens items) ++ [.closeArray])
  | .object members =>
    .openObject :: (List.intercalate [.comma] (memberTokens members) ++ [.closeObject])

/-- The tokens of the items of an array. -/
def itemTokens : List Json → List (List Token)
  | [] => []
  | v :: rest => v.tokens :: itemTokens rest

/-- The tokens of the members of an object. -/
def memberTokens : List (Option Text × Json) → List (List Token)
  | [] => []
  | (name, v) :: rest => (.string name :: .colon :: v.tokens) :: memberTokens rest

end

/-! ### Building values -/

theorem nextAll_cons (place' : Place) {t : Token} (h : place.next t = some place')
    (ts : List Token) : place.nextAll (t :: ts) = place'.nextAll ts := by
  rw [Place.nextAll, h]

theorem nextAll_append {place' : Place} (h : place.nextAll ts = some place') (us : List Token) :
    place.nextAll (ts ++ us) = place'.nextAll us := by
  induction ts generalizing place with
  | nil =>
    obtain rfl := Option.some.inj h
    rfl
  | cons t ts ih =>
    rw [Place.nextAll] at h
    split at h
    · rename_i mid hmid
      rw [List.cons_append, nextAll_cons mid hmid, ih h]
    · cases h

/-- Whether some tokens build a value, wherever a value may stand. -/
structure Builds (v : Json) (ts : List Token) : Prop where
  nextAll_eq : ∀ frames, (Place.value frames).nextAll ts = some (.behind v frames)
  head : ∃ t us, ts = t :: us ∧ t ≠ .closeArray

/-- Whether some tokens build a member of an object. -/
def BuildsMember (m : Option Text × Json) (ts : List Token) : Prop :=
  ∃ us, ts = .string m.1 :: .colon :: us ∧ Builds m.2 us

theorem Builds.of_startValue {t : Token} (ht : t ≠ .closeArray)
    (h : ∀ frames, Place.startValue frames t = some (.behind v frames)) : Builds v [t] := by
  refine ⟨fun frames => ?_, t, [], rfl, ht⟩
  have hnext : (Place.value frames).next t = some (.behind v frames) := h frames
  exact nextAll_cons _ hnext []

/-- The first item of an array is read like any value. -/
theorem nextAll_firstItem {t : Token} (ht : t ≠ .closeArray) (frames : List Frame)
    (us : List Token) :
    (Place.firstItem frames).nextAll (t :: us) =
      (Place.value (.array [] :: frames)).nextAll (t :: us) := by
  have hnext : (Place.firstItem frames).next t = (Place.value (.array [] :: frames)).next t := by
    cases t <;> first | exact absurd rfl ht | rfl
  rw [Place.nextAll, Place.nextAll, hnext]

theorem intercalate_comma (ts : List Token) (tss : List (List Token)) :
    List.intercalate [.comma] (ts :: tss) = ts ++ tss.flatMap (.comma :: ·) := by
  induction tss generalizing ts with
  | nil => simp
  | cons us tss ih => rw [List.intercalate_cons_cons, ih, List.flatMap_cons]; simp

/-- The items after the first one are added behind it. -/
theorem nextAll_items {items : List Json} {tss : List (List Token)}
    (h : List.Forall₂ Builds items tss) (v : Json) (before : List Json) (frames : List Frame) :
    (Place.behind v (.array before :: frames)).nextAll
        (tss.flatMap (.comma :: ·) ++ [.closeArray]) =
      some (.behind (.array ((v :: before).reverse ++ items)) frames) := by
  induction h generalizing v before with
  | nil =>
    rw [List.append_nil]
    rfl
  | @cons v' ts items tss hv _ ih =>
    rw [List.flatMap_cons, List.append_assoc, List.cons_append,
      nextAll_cons (.value (.array (v :: before) :: frames)) rfl,
      nextAll_append (hv.nextAll_eq _), ih, List.reverse_cons, List.append_assoc,
      List.singleton_append]

theorem builds_array {items : List Json} {tss : List (List Token)}
    (h : List.Forall₂ Builds items tss) :
    Builds (.array items) (.openArray :: (List.intercalate [.comma] tss ++ [.closeArray])) := by
  refine ⟨fun frames => ?_, _, _, rfl, (nomatch ·)⟩
  rw [nextAll_cons (.firstItem frames) rfl]
  cases h with
  | nil => rfl
  | cons hv hitems =>
    obtain ⟨t, us, rfl, ht⟩ := hv.head
    rw [intercalate_comma, List.append_assoc, List.cons_append, nextAll_firstItem ht,
      ← List.cons_append, nextAll_append (hv.nextAll_eq _), nextAll_items hitems]
    rfl

/-- The members after the first one are added behind it. -/
theorem nextAll_members {members : List (Option Text × Json)} {tss : List (List Token)}
    (h : List.Forall₂ BuildsMember members tss) (name : Option Text) (v : Json)
    (before : List (Option Text × Json)) (frames : List Frame) :
    (Place.behind v (.object before name :: frames)).nextAll
        (tss.flatMap (.comma :: ·) ++ [.closeObject]) =
      some (.behind (.object (((name, v) :: before).reverse ++ members)) frames) := by
  induction h generalizing name v before with
  | nil =>
    rw [List.append_nil]
    rfl
  | @cons m ts members tss hm _ ih =>
    obtain ⟨us, rfl, hv⟩ := hm
    rw [List.flatMap_cons, List.append_assoc, List.cons_append,
      nextAll_cons (.member ((name, v) :: before) frames) rfl, List.cons_append,
      nextAll_cons (.colon ((name, v) :: before) m.1 frames) rfl, List.cons_append,
      nextAll_cons (.value (.object ((name, v) :: before) m.1 :: frames)) rfl,
      nextAll_append (hv.nextAll_eq _), ih, List.reverse_cons, List.append_assoc,
      List.singleton_append]

theorem builds_object {members : List (Option Text × Json)} {tss : List (List Token)}
    (h : List.Forall₂ BuildsMember members tss) :
    Builds (.object members)
      (.openObject :: (List.intercalate [.comma] tss ++ [.closeObject])) := by
  refine ⟨fun frames => ?_, _, _, rfl, (nomatch ·)⟩
  rw [nextAll_cons (.firstMember frames) rfl]
  cases h with
  | nil => rfl
  | @cons m _ _ _ hm hmembers =>
    obtain ⟨us, rfl, hv⟩ := hm
    rw [intercalate_comma, List.append_assoc, List.cons_append,
      nextAll_cons (.colon [] m.1 frames) rfl, List.cons_append,
      nextAll_cons (.value (.object [] m.1 :: frames)) rfl,
      nextAll_append (hv.nextAll_eq _), nextAll_members hmembers]
    rfl

mutual

/-- The tokens of a value build it. -/
theorem builds_tokens : ∀ v : Json, Builds v v.tokens
  | .null => .of_startValue (nomatch ·) fun _ => rfl
  | .bool _ => .of_startValue (nomatch ·) fun _ => rfl
  | .number _ => .of_startValue (nomatch ·) fun _ => rfl
  | .string _ => .of_startValue (nomatch ·) fun _ => rfl
  | .array items => builds_array (builds_itemTokens items)
  | .object members => builds_object (builds_memberTokens members)

theorem builds_itemTokens : ∀ items : List Json, List.Forall₂ Builds items (itemTokens items)
  | [] => .nil
  | v :: rest => .cons (builds_tokens v) (builds_itemTokens rest)

theorem builds_memberTokens : ∀ members : List (Option Text × Json),
    List.Forall₂ BuildsMember members (memberTokens members)
  | [] => .nil
  | (_, v) :: rest => .cons ⟨_, rfl, builds_tokens v⟩ (builds_memberTokens rest)

end

/-! ### What has been built from -/

theorem itemTokens_append (items more : List Json) :
    itemTokens (items ++ more) = itemTokens items ++ itemTokens more := by
  induction items with
  | nil => rfl
  | cons v items ih => rw [List.cons_append, itemTokens, itemTokens, ih, List.cons_append]

theorem memberTokens_append (members more : List (Option Text × Json)) :
    memberTokens (members ++ more) = memberTokens members ++ memberTokens more := by
  induction members with
  | nil => rfl
  | cons m members ih => rw [List.cons_append, memberTokens, memberTokens, ih, List.cons_append]

theorem intercalate_comma_concat (tss : List (List Token)) (ts : List Token) :
    List.intercalate [.comma] (tss ++ [ts]) = tss.flatMap (· ++ [.comma]) ++ ts := by
  induction tss with
  | nil => exact List.intercalate_singleton
  | cons us tss ih =>
    obtain ⟨vs, more, hmore⟩ := List.exists_cons_of_ne_nil (l := tss ++ [ts]) (by simp)
    rw [List.cons_append, hmore, List.intercalate_cons_cons, ← hmore, ih, List.flatMap_cons,
      List.append_assoc, List.append_assoc, List.append_assoc]

/-- The tokens of a container up to the value under way. -/
def Frame.tokens : Frame → List Token
  | .array before => .openArray :: (itemTokens before.reverse).flatMap (· ++ [.comma])
  | .object before name =>
    .openObject :: ((memberTokens before.reverse).flatMap (· ++ [.comma]) ++ [.string name, .colon])

/-- The tokens of the containers that are open, up to the value under way. -/
def tokensBefore : List Frame → List Token
  | [] => []
  | frame :: frames => tokensBefore frames ++ frame.tokens

/-- The tokens up to a place. -/
def Place.tokens : Place → List Token
  | .value frames => tokensBefore frames
  | .firstItem frames => tokensBefore frames ++ [.openArray]
  | .firstMember frames => tokensBefore frames ++ [.openObject]
  | .member before frames =>
    tokensBefore frames ++ .openObject :: (memberTokens before.reverse).flatMap (· ++ [.comma])
  | .colon before name frames =>
    tokensBefore frames ++
      .openObject :: ((memberTokens before.reverse).flatMap (· ++ [.comma]) ++ [.string name])
  | .behind v frames => tokensBefore frames ++ v.tokens

theorem tokens_of_startValue {frames : List Frame} {t : Token} {place : Place}
    (h : Place.startValue frames t = some place) : place.tokens = tokensBefore frames ++ [t] := by
  cases t <;> cases h <;> rfl

theorem tokens_of_next {t : Token} {place' : Place} (h : place.next t = some place') :
    place'.tokens = place.tokens ++ [t] := by
  unfold Place.next at h
  split at h
  · exact tokens_of_startValue h
  · cases h
    simp [Place.tokens, tokens, itemTokens]
  · exact tokens_of_startValue h
  · cases h
    simp [Place.tokens, tokens, memberTokens]
  · cases h
    simp [Place.tokens, memberTokens]
  · cases h
    simp [Place.tokens]
  · cases h
    simp [Place.tokens, tokensBefore, Frame.tokens]
  · cases h
    simp [Place.tokens, tokensBefore, Frame.tokens, itemTokens_append, itemTokens]
  · cases h
    simp [Place.tokens, tokensBefore, Frame.tokens, tokens, itemTokens_append, itemTokens,
      intercalate_comma_concat]
  · cases h
    simp [Place.tokens, tokensBefore, Frame.tokens, memberTokens_append, memberTokens]
  · cases h
    simp [Place.tokens, tokensBefore, Frame.tokens, tokens, memberTokens_append, memberTokens,
      intercalate_comma_concat]
  · cases h

theorem tokens_of_nextAll {place' : Place} (h : place.nextAll ts = some place') :
    place'.tokens = place.tokens ++ ts := by
  induction ts generalizing place with
  | nil =>
    obtain rfl := Option.some.inj h
    exact (List.append_nil _).symm
  | cons t ts ih =>
    rw [Place.nextAll] at h
    split at h
    · rename_i mid hmid
      rw [ih h, tokens_of_next hmid, List.append_assoc, List.singleton_append]
    · cases h

/-- A value is built from its tokens, and from no others. -/
theorem ofTokens?_eq_some_iff : ofTokens? ts = some v ↔ ts = v.tokens := by
  constructor
  · intro h
    unfold ofTokens? at h
    split at h
    · rename_i hnext
      obtain rfl := Option.some.inj h
      have htokens := tokens_of_nextAll hnext
      exact htokens.symm
    · cases h
  · rintro rfl
    rw [ofTokens?, (builds_tokens v).nextAll_eq]

theorem read?_eq_some_iff_laid {xs : List Symbol} : read? xs = some v ↔ Laid v.tokens xs := by
  unfold read?
  constructor
  · intro h
    split at h
    · rename_i ts hts
      obtain rfl := ofTokens?_eq_some_iff.1 h
      exact tokens?_eq_some_iff.1 hts
    · cases h
  · intro h
    rw [tokens?_eq_some_iff.2 h]
    exact ofTokens?_eq_some_iff.2 rfl

end Json

end PocketCalculator
