import StrategyMend.Issue.Report

/-!
# Issues that block a script

A script is blocked by the issues at or above a severity. Severities are ordered by their rank, from low
to critical, so a higher bound lets more scripts through (`blockingCount_anti`), and the bound `low`
blocks every script that has issues (`blockingCount_low`).

The issues at or above a bound are counted apart from the counts of the single severities that a report
shows. Both say the same about whether a script is blocked (`blockingCount_eq_zero_iff_countSeverity`).
-/

set_option autoImplicit false

namespace StrategyMend

namespace Severity

theorem le_iff_rank {a b : Severity} : a ≤ b ↔ a.rank ≤ b.rank := Iff.rfl

theorem le_trans {a b c : Severity} (first : a ≤ b) (second : b ≤ c) : a ≤ c :=
  Nat.le_trans (le_iff_rank.mp first) (le_iff_rank.mp second)

theorem low_le (a : Severity) : low ≤ a := Nat.zero_le a.rank

theorem le_critical (a : Severity) : a ≤ critical := by
  cases a <;> decide

end Severity

namespace Report

variable {report : Report} {least higher : Severity}

theorem blockingCount_eq_zero_iff :
    report.blockingCount least = 0 ↔ ∀ issue ∈ report.issues, ¬ least ≤ issue.severity := by
  simp [blockingCount, List.countP_eq_zero]

theorem countSeverity_eq_zero_iff {severity : Severity} :
    report.countSeverity severity = 0 ↔ ∀ issue ∈ report.issues, issue.severity ≠ severity := by
  simp [countSeverity, List.countP_eq_zero]

/-- **No issue blocks a script exactly if no severity from the bound on is counted.** -/
theorem blockingCount_eq_zero_iff_countSeverity :
    report.blockingCount least = 0 ↔
      ∀ severity, least ≤ severity → report.countSeverity severity = 0 := by
  rw [blockingCount_eq_zero_iff]
  constructor
  · intro free severity above
    rw [countSeverity_eq_zero_iff]
    rintro issue member rfl
    exact free issue member above
  · intro uncounted issue member above
    exact countSeverity_eq_zero_iff.mp (uncounted issue.severity above) issue member rfl

/-- A higher bound blocks with fewer issues. -/
theorem blockingCount_anti (raised : least ≤ higher) (report : Report) :
    report.blockingCount higher ≤ report.blockingCount least := by
  refine List.countP_mono_left fun issue _ above => ?_
  rw [decide_eq_true_eq] at above ⊢
  exact Severity.le_trans raised above

/-- Every issue blocks from `low` on. -/
theorem blockingCount_low (report : Report) : report.blockingCount .low = report.total := by
  refine List.countP_eq_length.mpr fun issue _ => ?_
  exact decide_eq_true (Severity.low_le issue.severity)

end Report

end StrategyMend
