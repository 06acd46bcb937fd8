import Mathlib.Data.List.Nodup
import PocketCalculator.Proofs.Json.RoundTrip

/-!
# Records are read back

A number that is written is a JSON number and is read as the same number; a record that is written
with each field once has the fields that it was written with.
-/

namespace PocketCalculator

namespace Json

/-! ### Integers -/

/-- Digits of a natural number start with a zero only if there are no others. -/
theorem toDigits_eq_zero_of_head? {n : Nat} (h : (Nat.toDigits 10 n).head? = some '0') :
    Nat.toDigits 10 n = ['0'] := by
  induction n using Nat.strongRecOn with
  | ind n ih =>
    by_cases hn : n < 10
    · rw [Nat.toDigits_of_lt_base hn] at h ⊢
      rw [List.head?_cons] at h
      rw [Option.some.inj h]
    · have hdigits := Nat.toDigits_of_base_le (b := 10) (by decide) (Nat.le_of_not_lt hn)
      rw [hdigits, List.head?_append_of_ne_nil _ Nat.toDigits_ne_nil] at h
      have hzero := ih (n / 10) (by omega) h
      have hvalue := Nat.ofDigitChars_ten_toDigits (n := n / 10)
      rw [hzero] at hvalue
      have hdiv : n / 10 = 0 := hvalue.symm
      omega

theorem isDigits_toDigits (n : Nat) : isDigits (Nat.toDigits 10 n) :=
  isDigits_of Nat.toDigits_ne_nil fun _ hc =>
    Nat.isDigit_of_mem_toDigits (by decide) (by decide) hc

theorem isMagnitude_toDigits (n : Nat) : isMagnitude (Nat.toDigits 10 n) := by
  have hdigit : ∀ c ∈ Nat.toDigits 10 n, c.isDigit := fun c hc =>
    Nat.isDigit_of_mem_toDigits (by decide) (by decide) hc
  have hzero := toDigits_eq_zero_of_head? (n := n)
  have hne := Nat.toDigits_ne_nil (n := n) (b := 10)
  generalize Nat.toDigits 10 n = digits at hdigit hzero hne
  unfold isMagnitude
  split
  · rename_i rest
    obtain rfl : rest = [] := (List.cons.inj (hzero rfl)).2
    rfl
  · rename_i c rest _
    obtain ⟨hc, hrest⟩ := List.forall_mem_cons.1 hdigit
    rw [hc, List.dropWhile_eq_nil_iff.2 hrest]
    rfl
  · exact absurd rfl hne

/-- Digits have no sign. -/
theorem toDigits_ne_minus (n : Nat) (rest : Text) : Nat.toDigits 10 n ≠ '-' :: rest := by
  intro h
  have hdigit : '-'.isDigit := Nat.isDigit_of_mem_toDigits (n := n) (by decide : 0 < 10) le_rfl
    (by rw [h]; exact List.mem_cons_self)
  exact absurd hdigit (by decide)

theorem valid_ofInt (n : Int) : (ofInt n).Valid := by
  show isNumber (if n < 0 then '-' :: Nat.toDigits 10 n.natAbs else Nat.toDigits 10 n.natAbs)
  split
  · exact isMagnitude_toDigits _
  · unfold isNumber
    split
    · rename_i h
      exact absurd h (toDigits_ne_minus _ _)
    · exact isMagnitude_toDigits _

theorem int?_ofInt (n : Int) : (ofInt n).int? = some n := by
  unfold ofInt
  dsimp only
  split
  · rename_i hn
    have hzero : Nat.toDigits 10 n.natAbs ≠ ['0'] := by
      intro h
      have hvalue := Nat.ofDigitChars_ten_toDigits (n := n.natAbs)
      rw [h] at hvalue
      have habs : n.natAbs = 0 := hvalue.symm
      omega
    rw [int?, if_pos ⟨isDigits_toDigits _, hzero⟩, Nat.ofDigitChars_ten_toDigits]
    congr 1
    omega
  · rename_i hn
    rw [int?, if_pos (isDigits_toDigits _), Nat.ofDigitChars_ten_toDigits]
    · congr 1
      omega
    · exact fun rest h => toDigits_ne_minus _ _ h

theorem text?_eq_some_iff {v : Json} {t : Text} : v.text? = some t ↔ v = .ofText t := by
  cases v <;> simp [text?, ofText]

theorem intIn?_ofInt {low high n : Int} (hlow : low ≤ n) (hhigh : n ≤ high) :
    (ofInt n).intIn? low high = some n := by
  rw [intIn?, int?_ofInt, Option.filter_some, if_pos (by simp [hlow, hhigh])]

theorem bounds_of_intIn? {low high n : Int} {v : Json} (h : v.intIn? low high = some n) :
    low ≤ n ∧ n ≤ high := by
  rw [intIn?, Option.filter_eq_some_iff] at h
  simpa using h.2

/-- A digit is that of its value. -/
theorem toDigits_of_isDigit {c : Char} (hc : c.isDigit) :
    c.toNat - '0'.toNat < 10 ∧ Nat.toDigits 10 (c.toNat - '0'.toNat) = [c] := by
  obtain ⟨hlow, hhigh⟩ : 48 ≤ c.toNat ∧ c.toNat ≤ 57 := Char.isDigit_iff_toNat.1 hc
  have hvalue : c.toNat - '0'.toNat = c.toNat - 48 := rfl
  have hlt : c.toNat - 48 < 10 := by omega
  refine ⟨hlt, ?_⟩
  rw [hvalue, Nat.toDigits_of_lt_base hlt, List.cons.injEq, ← Char.toNat_inj,
    Nat.toNat_digitChar_of_lt_ten hlt]
  exact ⟨by omega, rfl⟩

/-- Digits without a needless zero are the digits of their number. -/
theorem toDigits_ofDigitChars {digits : Text} (hdigits : isDigits digits)
    (hzero : digits.head? = some '0' → digits = ['0']) :
    Nat.toDigits 10 (Nat.ofDigitChars 10 digits 0) = digits := by
  induction digits using List.reverseRecOn with
  | nil => cases hdigits
  | append_singleton digits c ih =>
    have hall := isDigit_of_isDigits hdigits
    obtain ⟨hlt, hlast⟩ := toDigits_of_isDigit (hall c (by simp))
    rw [Nat.ofDigitChars_append, Nat.ofDigitChars_cons, Nat.ofDigitChars_nil]
    cases digits with
    | nil => simpa [Nat.ofDigitChars_nil] using hlast
    | cons first more =>
      have hfirst : first ≠ '0' := by
        rintro rfl
        simpa using hzero rfl
      have hmore : Nat.toDigits 10 (Nat.ofDigitChars 10 (first :: more) 0) = first :: more := by
        refine ih ?_ fun h => absurd (by simpa using h) hfirst
        exact isDigits_of (by simp) fun d hd => hall d (List.mem_append_left _ hd)
      have hpos : 0 < Nat.ofDigitChars 10 (first :: more) 0 := by
        refine Nat.pos_of_ne_zero fun h => hfirst ?_
        rw [h] at hmore
        exact (List.cons.inj hmore).1.symm
      rw [← Nat.toDigits_append_toDigits (by decide) hpos hlt, hmore, hlast]

/-- A fraction or an exponent does not start with a digit. -/
theorem isFraction_cons_of_isDigit {c : Char} (hc : c.isDigit) (rest : Text) :
    isFraction (c :: rest) = false := by
  have hne : ∀ d, d.isDigit = false → c ≠ d := by
    rintro d hd rfl
    rw [hd] at hc
    cases hc
  have hexponent : isExponent (c :: rest) = false := by
    unfold isExponent
    simp [hne 'e' (by decide), hne 'E' (by decide)]
  rw [isFraction, hexponent]
  exact fun _ h => hne '.' (by decide) (List.cons.inj h).1

/-- Digits that are a number have no needless zero. -/
theorem eq_zero_of_head? {digits : Text} (hdigits : isDigits digits) (h : isMagnitude digits)
    (hzero : digits.head? = some '0') : digits = ['0'] := by
  obtain ⟨rest, rfl⟩ := List.head?_eq_some_iff.1 hzero
  cases rest with
  | nil => rfl
  | cons c rest =>
    have hc : c.isDigit := isDigit_of_isDigits hdigits c (by simp)
    rw [isMagnitude, isFraction_cons_of_isDigit hc] at h
    cases h

/-- An integer is written in one way only. -/
theorem eq_ofInt_of_int? {v : Json} {n : Int} (hv : v.Valid) (h : v.int? = some n) :
    v = ofInt n := by
  unfold int? at h
  split at h
  · rename_i digits
    split at h
    · rename_i hdigits
      obtain rfl := Option.some.inj h
      have hmagnitude : isMagnitude digits := hv
      have hwritten := toDigits_ofDigitChars hdigits.1 (eq_zero_of_head? hdigits.1 hmagnitude)
      have hpos : Nat.ofDigitChars 10 digits 0 ≠ 0 := by
        intro hzero
        rw [hzero] at hwritten
        exact hdigits.2 hwritten.symm
      have hneg : -(Nat.ofDigitChars 10 digits 0 : Int) < 0 := by omega
      rw [ofInt, if_pos hneg, Int.natAbs_neg, Int.natAbs_natCast, hwritten]
    · cases h
  · rename_i digits hsign
    split at h
    · rename_i hdigits
      obtain rfl := Option.some.inj h
      have hmagnitude : isMagnitude digits := by
        have hnumber : isNumber digits := hv
        rw [isNumber] at hnumber
        · exact hnumber
        · exact hsign
      have hnonneg : ¬ (Nat.ofDigitChars 10 digits 0 : Int) < 0 := by omega
      rw [ofInt, if_neg hnonneg, Int.natAbs_natCast,
        toDigits_ofDigitChars hdigits (eq_zero_of_head? hdigits hmagnitude)]
    · cases h
  · cases h

theorem intIn?_eq_some_iff {low high n : Int} {v : Json} (hv : v.Valid) :
    v.intIn? low high = some n ↔ v = ofInt n ∧ low ≤ n ∧ n ≤ high := by
  constructor
  · intro h
    have hint : v.int? = some n := by
      rw [intIn?, Option.filter_eq_some_iff] at h
      exact h.1
    exact ⟨eq_ofInt_of_int? hv hint, bounds_of_intIn? h⟩
  · rintro ⟨rfl, hlow, hhigh⟩
    exact intIn?_ofInt hlow hhigh

/-! ### Fields -/

section Fields

variable {members further : List (Option Text × Json)} {names : List Text}
  {values : List (Option Json)} {name : Text}

theorem filter_name_eq_nil (hname : some name ∉ members.map Prod.fst) :
    members.filter (fun m => m.1 = some name) = [] := by
  refine List.filter_eq_nil_iff.2 fun m hm he => hname (List.mem_map.2 ⟨m, hm, ?_⟩)
  simpa using he

theorem count_name (members : List (Option Text × Json)) (name : Text) :
    (members.map Prod.fst).count (some name) =
      (members.filter fun m => m.1 = some name).length := by
  rw [List.count_eq_countP, List.countP_map, List.countP_eq_length_filter]
  congr 2
  funext m
  simp [beq_eq_decide]

/-- A member is found if it is the only one with its name, and missing if there is none. -/
theorem member?_eq_some_iff {value : Option Json} :
    member? members name = some value ↔
      members.filter (fun m => m.1 = some name) = (value.map fun v => (some name, v)).toList := by
  have hname : ∀ m ∈ members.filter (fun m => m.1 = some name), m.1 = some name := fun m hm => by
    simpa using (List.mem_filter.1 hm).2
  unfold member?
  split
  · rename_i h
    cases value <;> simp [h]
  · rename_i m h
    rw [h] at hname ⊢
    obtain ⟨name', v'⟩ := m
    obtain rfl : name' = some name := hname _ List.mem_cons_self
    cases value <;> simp
  · rename_i hnil hone
    cases value with
    | none => exact ⟨fun h => absurd h.symm (Option.some_ne_none _), fun h => absurd h hnil⟩
    | some v => exact ⟨fun h => absurd h.symm (Option.some_ne_none _), fun h => absurd h (hone _)⟩

theorem mem_of_member? {v : Json} (h : member? members name = some (some v)) :
    (some name, v) ∈ members := by
  refine List.mem_of_mem_filter (p := fun m => m.1 = some name) ?_
  rw [member?_eq_some_iff.1 h]
  exact List.mem_singleton_self _

theorem eq_of_member? {value : Option Json} {v : Json} (h : member? members name = some value)
    (hmem : (some name, v) ∈ members) : value = some v := by
  have hfilter : (some name, v) ∈ members.filter fun m => m.1 = some name :=
    List.mem_filter.2 ⟨hmem, by simp⟩
  rw [member?_eq_some_iff.1 h] at hfilter
  cases value <;> simp_all

theorem notMem_of_member? (h : member? members name = some none) :
    some name ∉ members.map Prod.fst := by
  intro hmem
  obtain ⟨⟨name', v⟩, hm, rfl⟩ := List.mem_map.1 hmem
  cases eq_of_member? h hm

/-- A member is looked up unless there are several with its name. -/
theorem exists_member?_iff : (∃ value, member? members name = some value) ↔
    (members.map Prod.fst).count (some name) < 2 := by
  rw [count_name]
  unfold member?
  split
  · rename_i h
    simp [h]
  · rename_i m h
    simp [h]
  · rename_i hnil hone
    have hlength : ¬ (members.filter fun m => m.1 = some name).length < 2 := by
      intro hlt
      obtain hzero | hsingle : (members.filter fun m => m.1 = some name).length = 0 ∨
          (members.filter fun m => m.1 = some name).length = 1 := by omega
      · exact hnil (List.eq_nil_of_length_eq_zero hzero)
      · obtain ⟨m, hm⟩ := List.length_eq_one_iff.1 hsingle
        exact hone m hm
    simp only [hlength, iff_false]
    rintro ⟨value, hvalue⟩
    cases hvalue

theorem mapM_eq_some {α β : Type} {f : α → Option β} {xs : List α} {ys : List β}
    (h : List.Forall₂ (fun x y => f x = some y) xs ys) : xs.mapM f = some ys := by
  induction h with
  | nil => rfl
  | cons hx _ ih =>
    rw [List.mapM_cons, hx, ih]
    rfl

theorem forall₂_of_mapM {α β : Type} {f : α → Option β} {xs : List α} {ys : List β}
    (h : xs.mapM f = some ys) : List.Forall₂ (fun x y => f x = some y) xs ys := by
  induction xs generalizing ys with
  | nil =>
    obtain rfl := Option.some.inj h
    exact .nil
  | cons x xs ih =>
    rw [List.mapM_cons] at h
    obtain ⟨y, hy, h⟩ := Option.bind_eq_some_iff.1 h
    obtain ⟨ys, hys, h⟩ := Option.bind_eq_some_iff.1 h
    obtain rfl := Option.some.inj h
    exact .cons hy (ih hys)

/-- An object is read name by name, if all of its names are texts. -/
theorem fields?_eq_some_iff :
    fields? names (.object members) = some values ↔
      (∀ m ∈ members, m.1.isSome) ∧
        List.Forall₂ (fun name value => member? members name = some value) names values := by
  have hall : (members.all fun m => m.1.isSome) ↔ ∀ m ∈ members, m.1.isSome := List.all_eq_true
  unfold fields?
  dsimp only
  rw [← hall]
  constructor
  · intro h
    split at h
    · rename_i hsome
      exact ⟨hsome, forall₂_of_mapM h⟩
    · cases h
  · rintro ⟨hsome, h⟩
    rw [if_pos hsome, mapM_eq_some h]

/-- The members with the fields that are not missing. -/
def present (names : List Text) (values : List (Option Json)) : List (Option Text × Json) :=
  (names.zip values).filterMap fun field => field.2.map fun v => (some field.1, v)

/-- Whether an object has fields with the given names and values, in any order, and no others but
with other names. -/
def HasFields (names : List Text) (values : List (Option Json))
    (members : List (Option Text × Json)) : Prop :=
  ∃ further, members.Perm (present names values ++ further) ∧
    ∀ m ∈ further, ∃ name ∉ names, m.1 = some name

theorem present_cons (name : Text) (names : List Text) (value : Option Json)
    (values : List (Option Json)) :
    present (name :: names) (value :: values) =
      (value.map fun v => (some name, v)).toList ++ present names values := by
  cases value <;> rfl

theorem exists_of_mem_present {m : Option Text × Json} (h : m ∈ present names values) :
    ∃ name ∈ names, m.1 = some name := by
  obtain ⟨⟨name, value⟩, hmem, hm⟩ := List.mem_filterMap.1 h
  obtain ⟨v, -, rfl⟩ := Option.map_eq_some_iff.1 hm
  exact ⟨name, (List.of_mem_zip hmem).1, rfl⟩

theorem filter_present (hnames : names.Nodup) {value : Option Json}
    (hmem : (name, value) ∈ names.zip values) :
    (present names values).filter (fun m => m.1 = some name) =
      (value.map fun v => (some name, v)).toList := by
  induction names generalizing values with
  | nil => cases hmem
  | cons first names ih =>
    obtain ⟨hfirst, hnames⟩ := List.nodup_cons.1 hnames
    cases values with
    | nil => cases hmem
    | cons other values =>
      rw [present_cons, List.filter_append]
      rcases List.mem_cons.1 hmem with heq | hmem
      · obtain ⟨rfl, rfl⟩ := Prod.mk.inj heq
        have hrest : some name ∉ (present names values).map Prod.fst := by
          intro hname
          obtain ⟨m, hm, heq⟩ := List.mem_map.1 hname
          obtain ⟨name', hname', heq'⟩ := exists_of_mem_present hm
          exact hfirst (Option.some.inj (heq.symm.trans heq') ▸ hname')
        rw [filter_name_eq_nil hrest, List.append_nil]
        cases value <;> simp
      · have hne : first ≠ name := fun heq => hfirst (heq ▸ (List.of_mem_zip hmem).1)
        have hnone : (other.map fun v => (some first, v)).toList.filter
            (fun m => m.1 = some name) = [] := by
          cases other <;> simp [hne]
        rw [hnone, List.nil_append, ih hnames hmem]

theorem hasFields_present (names : List Text) (values : List (Option Json)) :
    HasFields names values (present names values) :=
  ⟨[], List.Perm.of_eq (List.append_nil _).symm, fun _ h => absurd h List.not_mem_nil⟩

/-- The fields of an object are read whatever their order, and whatever else there is. -/
theorem HasFields.fields?_eq (h : HasFields names values members) (hnames : names.Nodup)
    (hlength : names.length = values.length) : fields? names (.object members) = some values := by
  obtain ⟨further, hperm, hfurther⟩ := h
  refine fields?_eq_some_iff.2 ⟨fun m hm => ?_, List.forall₂_iff_zip.2 ⟨hlength, ?_⟩⟩
  · obtain ⟨name, hname⟩ : ∃ name, m.1 = some name := by
      rcases List.mem_append.1 (hperm.mem_iff.1 hm) with hm | hm
      · obtain ⟨name, -, hname⟩ := exists_of_mem_present hm
        exact ⟨name, hname⟩
      · obtain ⟨name, -, hname⟩ := hfurther m hm
        exact ⟨name, hname⟩
    rw [hname]
    rfl
  · intro name value hmem
    have hother : some name ∉ further.map Prod.fst := by
      intro hname
      obtain ⟨m, hm, heq⟩ := List.mem_map.1 hname
      obtain ⟨name', hnot, heq'⟩ := hfurther m hm
      exact hnot (Option.some.inj (heq'.symm.trans heq) ▸ (List.of_mem_zip hmem).1)
    have hfilter := hperm.filter (fun m => m.1 = some name)
    rw [List.filter_append, filter_present hnames hmem, filter_name_eq_nil hother,
      List.append_nil] at hfilter
    refine member?_eq_some_iff.2 ?_
    cases value with
    | none => exact List.perm_nil.1 hfilter
    | some v => exact List.perm_singleton.1 hfilter

/-- The members without a given name, and those with it. -/
theorem perm_filter_name (members : List (Option Text × Json)) (name : Text) :
    members.Perm (members.filter (fun m => m.1 = some name) ++
      members.filter fun m => m.1 ≠ some name) := by
  have h := (List.filter_append_perm (fun m => decide (m.1 = some name)) members).symm
  simpa using h

/-- What is read of an object are its fields; the others have other names. -/
theorem hasFields_of_fields? (hnames : names.Nodup)
    (h : fields? names (.object members) = some values) : HasFields names values members := by
  obtain ⟨hsome, hmembers⟩ := fields?_eq_some_iff.1 h
  have hperm : members.Perm (present names values ++
      members.filter fun m => ∀ name ∈ names, m.1 ≠ some name) := by
    clear h hsome
    induction hmembers with
    | nil => simp [present]
    | @cons name value names values hvalue _ ih =>
      obtain ⟨hname, hnames⟩ := List.nodup_cons.1 hnames
      have hothers := perm_filter_name
        (members.filter fun m => ∀ name ∈ names, m.1 ≠ some name) name
      have hone : (members.filter fun m => ∀ name ∈ names, m.1 ≠ some name).filter
          (fun m => m.1 = some name) = (value.map fun v => (some name, v)).toList := by
        rw [List.filter_filter, ← member?_eq_some_iff.1 hvalue]
        refine List.filter_congr fun m _ => ?_
        by_cases hm : m.1 = some name
        · have hother : ∀ other ∈ names, m.1 ≠ some other := fun other hother heq =>
            hname (Option.some.inj (hm.symm.trans heq) ▸ hother)
          rw [decide_eq_true hother, Bool.and_true]
        · rw [decide_eq_false hm, Bool.false_and]
      have hmore : (members.filter fun m => ∀ name ∈ names, m.1 ≠ some name).filter
          (fun m => m.1 ≠ some name) =
            members.filter fun m => ∀ other ∈ name :: names, m.1 ≠ some other := by
        rw [List.filter_filter]
        refine List.filter_congr fun m _ => ?_
        simp
      rw [hone, hmore] at hothers
      rw [present_cons, List.append_assoc]
      exact ((ih hnames).trans (hothers.append_left _)).trans (List.perm_append_comm_assoc _ _ _)
  refine ⟨_, hperm, fun m hm => ?_⟩
  obtain ⟨hm, hother⟩ := List.mem_filter.1 hm
  obtain ⟨name, hname⟩ := Option.isSome_iff_exists.1 (hsome m hm)
  refine ⟨name, fun hmem => ?_, hname⟩
  exact (of_decide_eq_true hother) name hmem hname

theorem fields?_array_eq_some_iff {items : List Json} :
    fields? names (.array items) = some values ↔ items.length ≤ names.length ∧
      values = items.map some ++ List.replicate (names.length - items.length) none := by
  unfold fields?
  dsimp only
  split
  · rename_i hlength
    exact ⟨fun h => ⟨hlength, (Option.some.inj h).symm⟩, fun h => congrArg some h.2.symm⟩
  · rename_i hlength
    exact ⟨fun h => absurd h.symm (Option.some_ne_none _), fun h => absurd h.1 hlength⟩

/-- What is read of a record is a part of it. -/
theorem valid_of_fields? {v w : Json} (hv : v.Valid) (h : v.fields? names = some values)
    (hmem : some w ∈ values) : w.Valid := by
  cases v with
  | object members =>
    obtain ⟨-, hmembers⟩ := fields?_eq_some_iff.1 h
    obtain ⟨name, hname⟩ : ∃ name, member? members name = some (some w) := by
      clear h
      induction hmembers with
      | nil => cases hmem
      | cons hvalue _ ih =>
        rcases List.mem_cons.1 hmem with rfl | hmem
        · exact ⟨_, hvalue⟩
        · exact ih hmem
    exact ValidMembers.valid_of_mem hv (mem_of_member? hname)
  | array items =>
    obtain ⟨-, rfl⟩ := fields?_array_eq_some_iff.1 h
    rcases List.mem_append.1 hmem with hmem | hmem
    · obtain ⟨item, hitem, heq⟩ := List.mem_map.1 hmem
      exact Option.some.inj heq ▸ ValidItems.valid_of_mem hv hitem
    · cases List.eq_of_mem_replicate hmem
  | null => cases h
  | bool => cases h
  | number => cases h
  | string => cases h

end Fields

end Json

end PocketCalculator
