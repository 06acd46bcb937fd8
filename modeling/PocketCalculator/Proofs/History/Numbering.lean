import PocketCalculator.Proofs.History.Reading

/-!
# Numbered ledgers

A ledger that only gets entries without an id numbers them: no id is larger than the number of
entries. The ids do not depend on the times of the entries.
-/

namespace PocketCalculator

namespace Entry

/-- An entry without its time. -/
def untimed (e : Entry) : Entry :=
  { e with time := 0 }

/-- Whether a time fits a record. -/
def FitsTime (time : Int) : Prop := minInt ≤ time ∧ time ≤ maxInt

instance (time : Int) : Decidable (FitsTime time) :=
  inferInstanceAs (Decidable (_ ∧ _))

end Entry

namespace Ledger

variable {l : Ledger} {e : Entry} {es : List Entry}

/-- Whether every entry has an id that is no larger than the number of entries, and a time that
fits a record. -/
structure Numbered (l : Ledger) : Prop where
  id : ∀ e ∈ l, ∃ id : Int, e.id = some id ∧ 0 < id ∧ id ≤ l.length
  time : ∀ e ∈ l, Entry.FitsTime e.time

theorem numbered_nil : Numbered [] := ⟨nofun, nofun⟩

theorem Numbered.nextId_bounds (h : l.Numbered) : 0 < l.nextId ∧ l.nextId ≤ l.length + 1 := by
  unfold nextId
  cases hmem : (l.filterMap Entry.id).max? with
  | none =>
    rw [Option.getD_none]
    omega
  | some id =>
    obtain ⟨e, he, hid⟩ := List.mem_filterMap.1 (List.max?_mem hmem)
    obtain ⟨id', hid', hpos, hle⟩ := h.id e he
    obtain rfl := Option.some.inj (hid.symm.trans hid')
    rw [Option.getD_some]
    omega

theorem Numbered.insert (h : l.Numbered) (hid : e.id = none) (htime : Entry.FitsTime e.time) :
    (l.insert e).Numbered := by
  rw [insert_of_id_eq_none l hid, withId_of_none l hid]
  obtain ⟨hpos, hle⟩ := h.nextId_bounds
  refine ⟨fun old hold => ?_, ?_⟩
  · rw [List.length_append, List.length_singleton]
    rcases List.mem_append.1 hold with hold | hold
    · obtain ⟨id, hid, hpos, hle⟩ := h.id old hold
      exact ⟨id, hid, hpos, by omega⟩
    · rw [List.mem_singleton.1 hold]
      exact ⟨l.nextId, rfl, hpos, by omega⟩
  · exact List.forall_mem_append.2 ⟨h.time, List.forall_mem_singleton.2 htime⟩

theorem Numbered.fits (h : l.Numbered) (hlength : (l.length : Int) ≤ Entry.maxInt) :
    ∀ e ∈ l, e.Fits := by
  intro e he
  refine ⟨fun id hid => ?_, h.time e he⟩
  obtain ⟨id', hid', hpos, hle⟩ := h.id e he
  obtain rfl := Option.some.inj (hid.symm.trans hid')
  have hmin : Entry.minInt ≤ 0 := by decide
  omega

theorem length_insert (l : Ledger) (hid : e.id = none) : (l.insert e).length = l.length + 1 := by
  rw [insert_of_id_eq_none l hid, List.length_append, List.length_singleton]

theorem mem_insert_of_mem {old : Entry} (hid : e.id = none) (h : old ∈ l) : old ∈ l.insert e := by
  rw [insert_of_id_eq_none l hid]
  exact List.mem_append_left _ h

/-- Entries without an id do not replace any. -/
theorem mem_foldl_insert {old : Entry} (hes : ∀ e ∈ es, e.id = none) (h : old ∈ l) :
    old ∈ es.foldl insert l := by
  induction es generalizing l with
  | nil => exact h
  | cons e es ih =>
    obtain ⟨hid, hes⟩ := List.forall_mem_cons.1 hes
    exact ih hes (mem_insert_of_mem hid h)

theorem length_foldl_insert (l : Ledger) (hes : ∀ e ∈ es, e.id = none) :
    (es.foldl insert l).length = l.length + es.length := by
  induction es generalizing l with
  | nil => rfl
  | cons e es ih =>
    obtain ⟨hid, hes⟩ := List.forall_mem_cons.1 hes
    rw [List.foldl_cons, ih _ hes, length_insert l hid, List.length_cons]
    omega

theorem Numbered.foldl_insert (h : l.Numbered)
    (hes : ∀ e ∈ es, e.id = none ∧ Entry.FitsTime e.time) :
    (es.foldl Ledger.insert l).Numbered := by
  induction es generalizing l with
  | nil => exact h
  | cons e es ih =>
    obtain ⟨⟨hid, htime⟩, hes⟩ := List.forall_mem_cons.1 hes
    exact ih (h.insert hid htime) hes

/-! ### Without times -/

/-- A ledger without its times. -/
def untimed (l : Ledger) : Ledger :=
  l.map Entry.untimed

theorem nextId_untimed (l : Ledger) : l.untimed.nextId = l.nextId := by
  have hids : l.untimed.filterMap Entry.id = l.filterMap Entry.id := by
    rw [untimed, List.filterMap_map]
    rfl
  rw [nextId, hids]
  rfl

theorem untimed_insert (l : Ledger) (hid : e.id = none) :
    (l.insert e).untimed = l.untimed.insert e.untimed := by
  have hid' : e.untimed.id = none := hid
  rw [insert_of_id_eq_none l hid, withId_of_none l hid, insert_of_id_eq_none _ hid',
    withId_of_none _ hid', nextId_untimed, untimed, List.map_append]
  rfl

/-- Entries that differ in their times only make ledgers that differ in their times only. -/
theorem untimed_foldl_insert (l : Ledger) (h : ∀ e ∈ es, e.id = none) :
    (es.foldl insert l).untimed = (es.map Entry.untimed).foldl insert l.untimed := by
  induction es generalizing l with
  | nil => rfl
  | cons e es ih =>
    obtain ⟨hid, hes⟩ := List.forall_mem_cons.1 h
    rw [List.foldl_cons, ih _ hes, untimed_insert l hid]
    rfl

end Ledger

end PocketCalculator
