import PocketCalculator.Proofs.Editor.Bare

/-!
# The editor is the same in every locale

Two sessions with different acceptable separators and the same keys stay in step: their texts
stand for the same expressions, and they complete the same calculations.
-/

namespace PocketCalculator

namespace Calculation

/-- The expressions of a calculation. -/
def plain (s : Separators) (c : Calculation) : Text × Text :=
  (s.plain c.formula, s.plain c.result)

/-- The expressions of calculations are those of the bare ones. -/
theorem map_plain (s : Separators) (cs : List Calculation) :
    cs.map (plain s) = (cs.map (Calculation.bare s)).map fun c =>
      (c.formula.map (Separators.plainChar {}), c.result.map (Separators.plainChar {})) := by
  rw [List.map_map]
  exact List.map_congr_left fun c _ =>
    Prod.ext (s.plain_eq_map_bare c.formula) (s.plain_eq_map_bare c.result)

end Calculation

namespace State

variable {s s₁ s₂ : Separators}

theorem bare_initial (hs : s.Accepted) : initial.bare s = initial := by
  rw [bare, initial, hs.bare_zero]
  rfl

/-- Two sessions that differ in their separators only, from a new one on. -/
theorem pressAll_locale (h₁ : s₁.check = .ok ()) (h₂ : s₂.check = .ok ()) {keys : List Key}
    (hkeys : ∀ key ∈ keys, ∀ t, key ≠ .load t) :
    let run₁ := initial.pressAll s₁ keys
    let run₂ := initial.pressAll s₂ keys
    s₁.plain run₁.1.formula = s₂.plain run₂.1.formula ∧
      s₁.plain run₁.1.readout = s₂.plain run₂.1.readout ∧
      s₁.plain run₁.1.evaluated = s₂.plain run₂.1.evaluated ∧
      run₁.1.openCount = run₂.1.openCount ∧ run₁.1.mark = run₂.1.mark ∧
      run₁.2.map (Calculation.plain s₁) = run₂.2.map (Calculation.plain s₂) := by
  have hbare : ∀ {s : Separators}, s.check = .ok () →
      (initial.pressAll s keys).1.bare s = (initial.pressAllBare keys).1 ∧
        (initial.pressAll s keys).2.map (Calculation.bare s) = (initial.pressAllBare keys).2 := by
    intro s hs
    have hs := Separators.check_eq_ok_iff.1 hs
    have hneat : s.Neat initial.formula := hs.neat_zero
    have hrun := bare_pressAll hs hneat hkeys
    rwa [bare_initial hs] at hrun
  intro run₁ run₂
  have hstate : run₁.1.bare s₁ = run₂.1.bare s₂ := (hbare h₁).1.trans (hbare h₂).1.symm
  have hcalculations : run₁.2.map (Calculation.bare s₁) = run₂.2.map (Calculation.bare s₂) :=
    (hbare h₁).2.trans (hbare h₂).2.symm
  have hplain : ∀ {t u : Text}, s₁.bare t = s₂.bare u → s₁.plain t = s₂.plain u := by
    intro t u e
    rw [s₁.plain_eq_map_bare, s₂.plain_eq_map_bare, e]
  have hcount : (run₁.1.bare s₁).openCount = (run₂.1.bare s₂).openCount := by rw [hstate]
  have hmark : (run₁.1.bare s₁).mark = (run₂.1.bare s₂).mark := by rw [hstate]
  refine ⟨hplain (congrArg State.formula hstate), hplain (congrArg State.readout hstate),
    hplain (congrArg State.evaluated hstate), hcount, hmark, ?_⟩
  rw [Calculation.map_plain, Calculation.map_plain, hcalculations]

/-- A German and a French session. -/
theorem pressAll_locale_comma :
    let keys : List Key := [.digit 1, .digit 2, .digit 3, .digit 4, .point, .digit 5, .open]
    let run₁ := initial.pressAll ⟨',', '.'⟩ keys
    let run₂ := initial.pressAll ⟨',', ' '⟩ keys
    Separators.plain ⟨',', '.'⟩ run₁.1.formula = Separators.plain ⟨',', ' '⟩ run₂.1.formula ∧
      Separators.plain ⟨',', '.'⟩ run₁.1.readout = Separators.plain ⟨',', ' '⟩ run₂.1.readout ∧
      Separators.plain ⟨',', '.'⟩ run₁.1.evaluated = Separators.plain ⟨',', ' '⟩ run₂.1.evaluated ∧
      run₁.1.openCount = run₂.1.openCount ∧ run₁.1.mark = run₂.1.mark ∧
      run₁.2.map (Calculation.plain ⟨',', '.'⟩) = run₂.2.map (Calculation.plain ⟨',', ' '⟩) :=
  pressAll_locale (by decide +kernel) (by decide +kernel) (by simp)

end State

end PocketCalculator
