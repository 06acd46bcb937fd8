import PocketCalculator.Command.Copy
import PocketCalculator.Proofs.Editor.Replay
import PocketCalculator.Proofs.Editor.Shown
import PocketCalculator.Proofs.Number.Canonical

/-!
# Copied readouts are loaded back

A readout of a session without loading is clean, unless it is empty or the error marker
(`Sound.clean_readout`). So trimming it changes nothing, and loading makes good the one thing that
copying takes away, its grouping separators: they are never at the ends of a clean text, where they
could have hidden a blank, and grouping takes no notice of them.
-/

namespace PocketCalculator

/-- A text without blanks at its ends is trimmed already. -/
theorem trim_eq_self {t : Text} (hhead : StopsAt isBlank t) (hlast : StopsAt isBlank t.reverse) :
    trim t = t := by
  rw [trim, hhead.dropWhile_eq, hlast.dropWhile_eq, List.reverse_reverse]

namespace Separators

variable {s : Separators} {t : Text}

/-! ### Clean texts without separators -/

/-- Grouping separators stand inside a clean text, so trimming does not reach what is behind
them. -/
theorem Clean.trim_ungroup (h : s.Clean t) : trim (s.ungroup t) = s.ungroup t := by
  refine trim_eq_self ?_ ?_
  · intro c hc
    rw [← h.grouped.head?_eq] at hc
    exact h.head c hc
  · intro c hc
    rw [List.head?_reverse, ← h.grouped.getLast?_eq, ← List.head?_reverse] at hc
    exact h.last c hc

/-- Without its grouping separators a clean text is loaded as it was. -/
theorem Clean.load_ungroup (h : s.Clean t) (hs : s.SparesParens) (st : State) :
    st.load s (s.ungroup t) = ⟨t, t, [], unmatched t, .idle⟩ := by
  have hstray : dropStray (s.ungroup t) = s.ungroup t :=
    dropStrayFrom_eq_self ((closes_ungroup_iff hs).2 h.closes)
  have hgrouped : s.regroup (s.ungroup t) = t := (s.regroup_ungroup t).trans h.grouped
  have hcount : unmatched (s.ungroup t) = unmatched t := unmatched_ungroup hs t
  simp only [State.load, h.trim_ungroup, hstray, hcount, State.regroup, State.shown, State.reset,
    hgrouped]

theorem Accepted.clean_zero (hs : s.Accepted) : s.Clean ['0'] :=
  ⟨stopsAt_cons.2 (by decide), stopsAt_cons.2 (by decide), ⟨by decide, trivial⟩, hs.grouped_zero⟩

end Separators

namespace State

variable {s : Separators} {st : State} {keys : List Key}

/-- Before its parentheses are closed the formula is clean, too. -/
theorem Sound.clean_formula (h : Sound s st) (hs : s.Accepted)
    (hdecimal : isBlank s.decimal = false) (hmark : st.mark ≠ .afterError) : s.Clean st.formula :=
  Separators.clean_of_typed hs hdecimal h.neat.grouped (h.typed hmark)

theorem Sound.clean_readout (h : Sound s st) (hs : s.Accepted)
    (hdecimal : isBlank s.decimal = false) (hcurrent : st.Current)
    (hmarker : st.readout ≠ errorMarker) : s.Clean st.readout := by
  rcases hcurrent with hformula | rfl
  · have hmark : st.mark ≠ .afterError := fun hmark =>
      hmarker (hformula.trans (h.consistent.formula_of_error hmark))
    rw [hformula]
    exact h.clean_formula hs hdecimal hmark
  · exact hs.clean_zero

/-- A text that is left by trimming and is no error marker is copied without its separators. -/
theorem run_copyReadout {t : Text} {machine : Machine} (htrim : trim t = t) (hne : t ≠ [])
    (hmarker : t ≠ errorMarker) (hclipboard : machine.clipboard.error = none) :
    (copyReadout Machine.host s t).run machine =
      (.ok (), { machine with
        clipboard := { machine.clipboard with content := some (s.ungroup t) } }) := by
  have htext : clipboardText? s t = some (s.ungroup t) := by
    unfold clipboardText?
    dsimp only
    rw [htrim, if_neg (by simp [hne, hmarker])]
  have hcopy := Machine.run_copy machine (s.ungroup t)
  rw [hclipboard] at hcopy
  unfold copyReadout
  rw [htext]
  dsimp only
  rw [run_bind_of_eq hcopy]
  rfl

/-- In a session without loading and with accepted separators, the decimal one not blank, a readout
that is neither empty nor the error marker is copied to the clipboard as a text that has no grouping
separators and stands for the same expression. Loaded into any state, this text is shown as the
readout again, with the open parentheses of the readout. -/
theorem load_copied_pressAll (hs : s.check = .ok ()) (hdecimal : isBlank s.decimal = false)
    (hkeys : ∀ key ∈ keys, ∀ t, key ≠ .load t) :
    let readout := (initial.pressAll s keys).1.readout
    readout ≠ [] → readout ≠ errorMarker →
      ∃ copied : Text,
        (∀ machine : Machine, machine.clipboard.error = none →
          (copyReadout Machine.host s readout).run machine =
            (.ok (), { machine with
              clipboard := { machine.clipboard with content := some copied } })) ∧
        s.grouping ∉ copied ∧ s.plain copied = s.plain readout ∧
        ∀ st : State,
          let loaded := st.load s copied
          loaded.formula = readout ∧ loaded.readout = readout ∧
            loaded.openCount = unmatched readout := by
  have hs := Separators.check_eq_ok_iff.1 hs
  intro readout hne hmarker
  have hclean : s.Clean readout :=
    ((sound_initial hs).pressAll hs hkeys).clean_readout hs hdecimal
      (current_initial.pressAll s keys) hmarker
  have htrim : trim readout = readout := trim_eq_self hclean.head hclean.last
  refine ⟨s.ungroup readout, fun machine => run_copyReadout htrim hne hmarker, ?_, ?_, ?_⟩
  · exact fun hmem => (Separators.mem_ungroup.1 hmem).2 rfl
  · exact Separators.plain_congr (Separators.ungroup_ungroup s readout)
  · intro st loaded
    have hloaded : loaded = _ := hclean.load_ungroup hs.sparesParens st
    rw [hloaded]
    exact ⟨rfl, rfl, rfl⟩

/-- Blanks between the groups, an open parenthesis, and a decimal separator at the end. -/
theorem load_copied_pressAll_blank :
    let s : Separators := ⟨',', ' '⟩
    let keys : List Key := [.digit 1, .digit 2, .digit 3, .digit 4, .operator .times, .open,
      .digit 5, .digit 6, .digit 7, .digit 8, .point]
    let readout := (initial.pressAll s keys).1.readout
    readout = "1 234×(5 678,".toList ∧
      ∃ copied : Text,
        (∀ machine : Machine, machine.clipboard.error = none →
          (copyReadout Machine.host s readout).run machine =
            (.ok (), { machine with
              clipboard := { machine.clipboard with content := some copied } })) ∧
        s.grouping ∉ copied ∧ s.plain copied = s.plain readout ∧
        ∀ st : State,
          let loaded := st.load s copied
          loaded.formula = readout ∧ loaded.readout = readout ∧
            loaded.openCount = unmatched readout := by
  intro s keys readout
  have hs : s.check = .ok () := by decide +kernel
  have hkeys : ∀ key ∈ keys, ∀ t, key ≠ .load t := by simp [keys]
  have hreadout : readout = "1 234×(5 678,".toList := by decide +kernel
  have hne : readout ≠ [] := by
    rw [hreadout]
    decide
  have hmarker : readout ≠ errorMarker := by
    rw [hreadout]
    decide
  exact ⟨hreadout, load_copied_pressAll hs (by decide) hkeys hne hmarker⟩

end State

end PocketCalculator
