import Mathlib.Data.List.Nodup
import PocketCalculator.Proofs.History.Refinement

/-!
# What a ledger holds

A ledger is known from the entries that were inserted since it was cleared last, each with the id
that it was given (`Reflects`): there is one entry for each id, the one that was inserted last, and
it stands where the id was inserted first. One insertion keeps this up, whether it adds an entry or
replaces one (`Reflects.insert`), and so does a run of calls. The newest entries are listed by time,
and among equal times by their place in the ledger, the later place first (`NewestFirst`).
-/

namespace PocketCalculator

section Places

variable {α : Type*} [DecidableEq α] {a b : α} {l : List α}

/-- In a list without duplicates, an element stands before another one exactly if the two are a
part of the list in this order. -/
theorem idxOf_lt_iff_sublist (hl : l.Nodup) (hb : b ∈ l) :
    l.idxOf a < l.idxOf b ↔ [a, b].Sublist l := by
  induction l with
  | nil => simp at hb
  | cons c l ih =>
    obtain ⟨hc, hl⟩ := List.nodup_cons.1 hl
    by_cases hbc : b = c
    · subst hbc
      have hnot : ¬ [a, b].Sublist (b :: l) := by
        intro h
        cases h with
        | cons _ h => exact hc (h.subset (by simp))
        | cons_cons _ h => exact hc (by simpa using h)
      simp [hnot]
    · have hrest : b ∈ l := by simpa [hbc] using hb
      by_cases hac : a = c
      · subst hac
        simp [List.idxOf_cons_ne l (Ne.symm hbc), hrest]
      · rw [List.idxOf_cons_ne l (Ne.symm hac), List.idxOf_cons_ne l (Ne.symm hbc),
          Nat.succ_lt_succ_iff, ih hl hrest]
        constructor
        · intro h
          exact h.cons c
        · intro h
          cases h with
          | cons _ h => exact h
          | cons_cons _ h => exact absurd rfl hac

end Places

namespace Ledger

variable {l : Ledger} {e old : Entry} {es listed : List Entry} {id : Int}

/-! ### Ids -/

/-- The next id is larger than all ids so far. -/
theorem lt_nextId (hold : old ∈ l) (hid : old.id = some id) : id < l.nextId := by
  have hmem : id ∈ l.filterMap Entry.id := List.mem_filterMap.2 ⟨old, hold, hid⟩
  unfold nextId
  cases hmax : (l.filterMap Entry.id).max? with
  | none =>
    rw [List.max?_eq_none_iff] at hmax
    rw [hmax] at hmem
    simp at hmem
  | some largest =>
    have hle := (List.max?_eq_some_iff.1 hmax).2 id hmem
    rw [Option.getD_some]
    omega

theorem mem_map_id_iff : some id ∈ l.map Entry.id ↔ l.any (·.id = some id) := by
  simp

theorem map_id_replaceFirst (hid : e.id = some id) (l : Ledger) :
    (l.replaceFirst id e).map Entry.id = l.map Entry.id := by
  induction l with
  | nil => rfl
  | cons old rest ih =>
    rw [replaceFirst]
    split
    · rename_i hold
      simp [hid, hold]
    · simp [ih]

theorem mem_replaceFirst_self (h : some id ∈ l.map Entry.id) : e ∈ l.replaceFirst id e := by
  induction l with
  | nil => simp at h
  | cons old rest ih =>
    rw [replaceFirst]
    split
    · simp
    · rename_i hold
      have hrest : some id ∈ rest.map Entry.id := by
        rw [List.map_cons, List.mem_cons] at h
        exact h.resolve_left (Ne.symm hold)
      exact List.mem_cons_of_mem old (ih hrest)

/-- An insertion replaces the entry that has the id of the inserted one, and adds the inserted one
if there is none. -/
theorem insert_cases (l : Ledger) (e : Entry) :
    ∃ id, (l.withId e).id = some id ∧
      (some id ∈ l.map Entry.id ∧ l.insert e = l.replaceFirst id (l.withId e) ∨
        some id ∉ l.map Entry.id ∧ l.insert e = l ++ [l.withId e]) := by
  cases hid : e.id with
  | none =>
    have hnew : (l.withId e).id = some l.nextId := congrArg Entry.id (l.withId_of_none hid)
    refine ⟨l.nextId, hnew, Or.inr ⟨?_, insert_of_id_eq_none l hid⟩⟩
    intro h
    obtain ⟨old, hold, hnext⟩ := List.mem_map.1 h
    have hlt := lt_nextId hold hnext
    omega
  | some id =>
    rw [withId_of_some l hid]
    refine ⟨id, hid, ?_⟩
    by_cases hmem : some id ∈ l.map Entry.id
    · left
      refine ⟨hmem, ?_⟩
      rw [mem_map_id_iff] at hmem
      simp [insert, hid, hmem]
    · right
      refine ⟨hmem, ?_⟩
      rw [mem_map_id_iff] at hmem
      simp only [insert, hid]
      rw [if_neg hmem]

/-! ### The entries that were inserted -/

/-- Whether a ledger is made of entries that were inserted with their ids one after the other: all
of them have ids, the ledger has each of the ids once, in the order in which they were inserted
first, and with it the entry that was inserted last. -/
structure Reflects (l : Ledger) (es : List Entry) : Prop where
  isSome_id : ∀ e ∈ l, e.id.isSome
  nodup : (l.map Entry.id).Nodup
  ids_eq : l.map Entry.id = (es.map Entry.id).eraseDups
  last_eq : ∀ e ∈ l, (es.filter fun e' => e'.id = e.id).getLast? = some e

theorem reflects_nil : Reflects [] [] := ⟨nofun, List.nodup_nil, rfl, nofun⟩

theorem Reflects.mem_ids_iff (h : l.Reflects es) (id : Option Int) :
    id ∈ l.map Entry.id ↔ id ∈ es.map Entry.id := by
  rw [h.ids_eq, List.mem_eraseDups]

/-- The entry inserted last with an id is the new one if that has the id, or else the one before. -/
theorem getLast?_filter_concat (es : List Entry) (new : Entry) (id : Option Int) :
    ((es ++ [new]).filter fun e => e.id = id).getLast? =
      if new.id = id then some new else (es.filter fun e => e.id = id).getLast? := by
  rw [List.filter_append]
  split
  · rename_i hid
    simp [hid]
  · rename_i hid
    simp [hid]

/-- An entry takes the place of the one that has its id. -/
theorem Reflects.replaceFirst (h : l.Reflects es) (hid : e.id = some id)
    (hmem : some id ∈ l.map Entry.id) : (l.replaceFirst id e).Reflects (es ++ [e]) := by
  have hids := map_id_replaceFirst hid l
  have hnodup : ((l.replaceFirst id e).map Entry.id).Nodup := by
    rw [hids]
    exact h.nodup
  refine ⟨?_, hnodup, ?_, ?_⟩
  · intro old hold
    rcases mem_replaceFirst hold with rfl | hold
    · simp [hid]
    · exact h.isSome_id old hold
  · have hes : some id ∈ es.map Entry.id := (h.mem_ids_iff _).1 hmem
    have hnone : [e.id].removeAll (es.map Entry.id) = [] := by
      simpa [List.removeAll, hid] using hes
    rw [hids, h.ids_eq, List.map_append, List.map_singleton, List.eraseDups_append, hnone,
      List.eraseDups_nil, List.append_nil]
  · intro old hold
    rw [getLast?_filter_concat]
    split
    · rename_i hsame
      -- no other entry has the id
      exact congrArg some (List.inj_on_of_nodup_map hnodup (mem_replaceFirst_self hmem) hold hsame)
    · rename_i hother
      rcases mem_replaceFirst hold with rfl | hold
      · exact absurd rfl hother
      · exact h.last_eq old hold

/-- An entry with another id is added. -/
theorem Reflects.concat (h : l.Reflects es) (hid : e.id = some id)
    (hmem : some id ∉ l.map Entry.id) : Reflects (l ++ [e]) (es ++ [e]) := by
  refine ⟨?_, ?_, ?_, ?_⟩
  · intro old hold
    rcases List.mem_append.1 hold with hold | hold
    · exact h.isSome_id old hold
    · rw [List.mem_singleton.1 hold, hid]
      rfl
  · rw [List.map_append, List.nodup_append]
    refine ⟨h.nodup, by simp, ?_⟩
    intro id' hid' other hother heq
    rw [List.map_singleton, List.mem_singleton] at hother
    rw [heq, hother, hid] at hid'
    exact hmem hid'
  · have hes : some id ∉ es.map Entry.id := fun hes => hmem ((h.mem_ids_iff _).2 hes)
    have hone : [e.id].removeAll (es.map Entry.id) = [e.id] := by
      simpa [List.removeAll, hid] using hes
    rw [List.map_append, h.ids_eq, List.map_append, List.map_singleton, List.eraseDups_append,
      hone]
    rfl
  · intro old hold
    rw [getLast?_filter_concat]
    rcases List.mem_append.1 hold with hold | hold
    · have hother : e.id ≠ old.id := by
        intro heq
        exact hmem (hid ▸ heq ▸ List.mem_map_of_mem hold)
      rw [if_neg hother]
      exact h.last_eq old hold
    · rw [List.mem_singleton.1 hold, if_pos rfl]

theorem Reflects.insert (h : l.Reflects es) (e : Entry) :
    (l.insert e).Reflects (es ++ [l.withId e]) := by
  obtain ⟨id, hid, ⟨hmem, hinsert⟩ | ⟨hmem, hinsert⟩⟩ := l.insert_cases e
  · rw [hinsert]
    exact h.replaceFirst hid hmem
  · rw [hinsert]
    exact h.concat hid hmem

theorem eraseDups_of_nodup {ids : List (Option Int)} (h : ids.Nodup) : ids.eraseDups = ids := by
  induction ids using List.reverseRecOn with
  | nil => rfl
  | append_singleton ids id ih =>
    rw [List.nodup_append] at h
    have hid : id ∉ ids := fun hid => h.2.2 id hid id (by simp) rfl
    have hone : [id].removeAll ids = [id] := by simpa [List.removeAll] using hid
    rw [List.eraseDups_append, ih h.1, hone]
    rfl

/-- Without an update the ledger is the list of insertions. -/
theorem Reflects.eq_of_nodup (h : l.Reflects es) (hes : (es.map Entry.id).Nodup) : l = es := by
  have hids : l.map Entry.id = es.map Entry.id := h.ids_eq.trans (eraseDups_of_nodup hes)
  apply List.ext_getElem
  · simpa using congrArg List.length hids
  · intro i hi hi'
    have hmem : l[i] ∈ es :=
      List.mem_of_mem_filter (List.mem_of_getLast? (h.last_eq _ (List.getElem_mem hi)))
    have hid : l[i].id = es[i].id := by
      have hi'' : i < (l.map Entry.id).length := by simpa using hi
      simpa using List.getElem_of_eq hids hi''
    exact List.inj_on_of_nodup_map hes hmem (List.getElem_mem hi') hid

/-! ### The newest entries -/

/-- Whether a list has the entries of a ledger, each once, the latest first, and among those of one
time the one that has the later place in the ledger first. -/
structure NewestFirst (l : Ledger) (listed : List Entry) : Prop where
  perm : listed.Perm l
  nodup : listed.Nodup
  pairwise : listed.Pairwise fun a b =>
    b.time < a.time ∨ b.time = a.time ∧ l.idxOf b < l.idxOf a

theorem newestFirst_newestFirst (hl : l.Nodup) : l.NewestFirst l.newestFirst := by
  have hperm : l.newestFirst.Perm l := (List.mergeSort_perm _ _).trans l.reverse_perm
  have hnodup : l.newestFirst.Nodup := hperm.nodup_iff.2 hl
  have htrans : ∀ a b c : Entry, decide (b.time ≤ a.time) → decide (c.time ≤ b.time) →
      decide (c.time ≤ a.time) := by
    intro a b c hab hbc
    simp only [decide_eq_true_eq] at *
    omega
  have htotal : ∀ a b : Entry, decide (b.time ≤ a.time) || decide (a.time ≤ b.time) := by
    intro a b
    simp only [Bool.or_eq_true, decide_eq_true_eq]
    omega
  refine ⟨hperm, hnodup, ?_⟩
  rw [List.pairwise_iff_forall_sublist]
  intro a b hab
  have ha : a ∈ l := hperm.mem_iff.1 (hab.subset (by simp))
  have hb : b ∈ l := hperm.mem_iff.1 (hab.subset (by simp))
  have hle : b.time ≤ a.time := by
    have hsorted := List.pairwise_mergeSort htrans htotal l.reverse
    simpa using List.pairwise_iff_forall_sublist.1 hsorted hab
  by_cases hlt : b.time < a.time
  · exact Or.inl hlt
  · right
    refine ⟨by omega, ?_⟩
    by_contra hplace
    have hne : a ≠ b := by
      rintro rfl
      have hself := (idxOf_lt_iff_sublist hnodup (hperm.mem_iff.2 ha)).2 hab
      omega
    -- the sort is stable: if `a` stood before `b` in the ledger, it would be listed behind it
    have hplaces : l.idxOf a ≠ l.idxOf b := fun heq => hne ((List.idxOf_inj ha).1 heq)
    have hbefore : [a, b].Sublist l := (idxOf_lt_iff_sublist hl hb).1 (by omega)
    have hreverse : [b, a].Sublist l.reverse := by simpa using hbefore.reverse
    have hlisted : [b, a].Sublist l.newestFirst :=
      List.pair_sublist_mergeSort htrans htotal (by simp only [decide_eq_true_eq]; omega) hreverse
    have hfirst := (idxOf_lt_iff_sublist hnodup (hperm.mem_iff.2 hb)).2 hab
    have hsecond := (idxOf_lt_iff_sublist hnodup (hperm.mem_iff.2 ha)).2 hlisted
    omega

/-- Entries whose times do not decrease are listed backwards. -/
theorem newestFirst_eq_reverse (h : l.Pairwise fun a b => a.time ≤ b.time) :
    l.newestFirst = l.reverse := by
  refine List.mergeSort_of_pairwise ?_
  rw [List.pairwise_reverse]
  exact h.imp fun hab => by simpa using hab

end Ledger

namespace Store

variable {l : Ledger} {es : List Entry} {call : Call} {calls : List Call}

/-- The entries that were inserted after an answer, with their ids, if `es` were before. -/
def Answer.inserted? (es : List Entry) : Answer → List Entry
  | .inserted (.ok e) => es ++ [e]
  | .cleared (.ok ()) => []
  | _ => es

/-- The entries that were inserted since the store was cleared last, with the ids that it gave
them. -/
def sinceCleared (answers : List Answer) : List Entry :=
  answers.foldl Answer.inserted? []

/-- Every call keeps the ledger to the entries that were inserted. -/
theorem reflects_after (h : l.Reflects es) (call : Call) :
    (call.after l).Reflects ((call.answerOf l).inserted? es) := by
  cases call with
  | insert e => exact h.insert e
  | entries => exact h
  | clear => exact Ledger.reflects_nil

/-- What a run of calls leaves in memory. -/
theorem reflects_answers (h : l.Reflects es) (hfits : ∀ e ∈ l, e.Fits)
    (hcalls : AllAdmissible l calls) :
    let ran := (memory.answers calls).run l
    ran.2.Reflects (ran.1.foldl Answer.inserted? es) ∧ ∀ e ∈ ran.2, e.Fits := by
  induction calls generalizing l es with
  | nil => exact ⟨h, hfits⟩
  | cons call calls ih =>
    dsimp only [answers] at ih ⊢
    rw [run_mapM_cons, run_answer_memory]
    exact ih (reflects_after h call) (fits_after hfits hcalls.1) hcalls.2

/-- An entry without an id is stored behind all others, with an id that is larger than theirs and
fits a record, as long as the largest id of all is not taken; in an empty ledger it is 1. -/
theorem run_insert_memory {e : Entry} (hfits : ∀ e ∈ l, e.Fits) (hid : e.id = none)
    (hmax : ∀ old ∈ l, old.id ≠ some Entry.maxInt) :
    ∃ id, (memory.insert e).run l =
        (.ok { e with id := some id }, l ++ [{ e with id := some id }]) ∧
      (∀ old ∈ l, ∀ id', old.id = some id' → id' < id) ∧ id ≤ Entry.maxInt ∧
      (l = [] → id = 1) := by
  refine ⟨l.nextId, ?_, fun old hold id' hid' => Ledger.lt_nextId hold hid',
    (Ledger.bounds_nextId hfits hmax).2, ?_⟩
  · rw [← l.withId_of_none hid, ← Ledger.insert_of_id_eq_none l hid]
    rfl
  · rintro rfl
    rfl

/-- An entry with an id is stored as it is. -/
theorem run_insert_memory_of_some {e : Entry} {id : Int} (hid : e.id = some id) :
    ((memory.insert e).run l).1 = .ok e :=
  congrArg Except.ok (l.withId_of_some hid)

/-- What a store in memory that was empty at first holds after any calls, none of which inserted an
entry without an id while the largest id was taken: entries with ids, each id once. An entry without
an id will get a larger one, so it replaces nothing; an entry with an id will be stored as it is.
For each id that was inserted since the store was cleared last there is the entry that was inserted
last, in the order of the first insertions. The store lists these entries, the newest first; without
updates, and if the times do not decrease, the list is that of the insertions backwards. -/
theorem memory_contents (hcalls : AllAdmissible [] calls) :
    let ran := (memory.answers calls).run []
    let l := ran.2
    let es := sinceCleared ran.1
    (∀ e ∈ l, e.id.isSome ∧ e.Fits) ∧ (l.map Entry.id).Nodup ∧
      (∀ e, e.id = none → (∀ old ∈ l, old.id ≠ some Entry.maxInt) →
        ∃ id, (memory.insert e).run l =
            (.ok { e with id := some id }, l ++ [{ e with id := some id }]) ∧
          (∀ old ∈ l, ∀ id', old.id = some id' → id' < id) ∧ id ≤ Entry.maxInt ∧
          (l = [] → id = 1)) ∧
      (∀ e, e.id.isSome → ((memory.insert e).run l).1 = .ok e) ∧
      l.map Entry.id = (es.map Entry.id).eraseDups ∧
      (∀ e ∈ l, (es.filter fun e' => e'.id = e.id).getLast? = some e) ∧
      ∃ listed, memory.entries.run l = (.ok listed, l) ∧ l.NewestFirst listed ∧
        ((es.map Entry.id).Nodup → (es.Pairwise fun a b => a.time ≤ b.time) →
          listed = es.reverse) := by
  intro ran l es
  obtain ⟨hreflects, hfits⟩ := reflects_answers Ledger.reflects_nil nofun hcalls
  have h : l.Reflects es := hreflects
  have hfits : ∀ e ∈ l, e.Fits := hfits
  refine ⟨fun e he => ⟨h.isSome_id e he, hfits e he⟩, h.nodup,
    fun e hid hmax => run_insert_memory hfits hid hmax, ?_, h.ids_eq, h.last_eq, l.newestFirst, rfl,
    Ledger.newestFirst_newestFirst h.nodup.of_map, ?_⟩
  · intro e hid
    obtain ⟨id, hid⟩ := Option.isSome_iff_exists.1 hid
    exact run_insert_memory_of_some hid
  intro hes htimes
  have hl : l = es := h.eq_of_nodup hes
  rw [hl]
  exact Ledger.newestFirst_eq_reverse htimes

/-- A store that is cleared and then gets an update among entries with ids out of order. -/
theorem memory_contents_update :
    let entry (id : Option Int) (time : Int) : Entry := ⟨id, ['1'], ['1'], time⟩
    let calls : List Call := [.insert (entry (some 9) 0), .clear, .insert (entry (some (-4)) 7),
      .insert (entry none 7), .insert (entry (some 2) 7), .insert (entry (some (-4)) 3)]
    let l := ((memory.answers calls).run []).2
    AllAdmissible [] calls ∧
      l = [entry (some (-4)) 3, entry (some (-3)) 7, entry (some 2) 7] ∧
      ((memory.insert (entry (some 2) 5)).run l).1 = .ok (entry (some 2) 5) ∧
      ∃ listed, memory.entries.run l = (.ok listed, l) ∧ l.NewestFirst listed := by
  intro entry calls l
  have hcalls : AllAdmissible [] calls := by
    have hentry : ∀ id time, Entry.minInt ≤ id ∧ id ≤ Entry.maxInt →
        Entry.minInt ≤ time ∧ time ≤ Entry.maxInt → ∀ l : Ledger, l.Takes (entry (some id) time) :=
      fun id time hid htime l => ⟨⟨fun id' heq => Option.some.inj heq ▸ hid, htime⟩, nofun⟩
    refine ⟨hentry _ _ (by decide) (by decide) _, trivial,
      hentry _ _ (by decide) (by decide) _, ⟨⟨nofun, by decide⟩, ?_⟩,
      hentry _ _ (by decide) (by decide) _, hentry _ _ (by decide) (by decide) _, trivial⟩
    intro _
    decide
  obtain ⟨-, -, -, hupdate, -, -, listed, hrun, hlisted, -⟩ := memory_contents hcalls
  exact ⟨hcalls, by decide, hupdate _ rfl, listed, hrun, hlisted⟩

end Store

end PocketCalculator
