/-
This file proves how far the checks of the settings and the checks of the constructors agree.
The sections are checked one at a time, and the check of the rollup section never sees the
chain. The layout is where both meet, and it refuses one thing more: an hour that the chain
cannot fit in a day. Settings that are accepted therefore start, unless such an hour is
configured; and settings that start are accepted, but for the retentions, which no constructor
looks at.
-/

import Mathlib.Logic.Basic
import Mathlib.Tactic.SplitIfs
import EpochRollup.Config.Settings

namespace EpochRollup

/-! ### What a layout asks of its widths -/

namespace BucketLayout

/-- The hours of a chain that configures none fit in its days. -/
theorem defaultHourlyWidth_le (clock : ChainClock) :
    defaultHourlyWidth clock ≤ clock.epochsPerDay :=
  Nat.max_le.mpr ⟨Nat.div_le_self _ _, clock.epochsPerDay_pos⟩

theorem defaultHourlyWidth_pos (clock : ChainClock) : 0 < defaultHourlyWidth clock :=
  Nat.lt_of_lt_of_le Nat.one_pos (Nat.le_max_right _ _)

variable {clock : ChainClock} {hourlyWidth hourlyPartitionBuckets dailyPartitionBuckets : Nat}

/-- A layout exists exactly for widths that are positive, with hours no wider than a day. -/
theorem exists_new_eq_ok_iff :
    (∃ layout, BucketLayout.new clock hourlyWidth hourlyPartitionBuckets dailyPartitionBuckets =
        .ok layout) ↔
      hourlyWidth ≠ 0 ∧ hourlyWidth ≤ clock.epochsPerDay ∧ hourlyPartitionBuckets ≠ 0 ∧
        dailyPartitionBuckets ≠ 0 := by
  unfold BucketLayout.new
  split_ifs with emptyHour wide empty
  · simp [emptyHour]
  · simp [Nat.not_le.mpr wide]
  · simp only [exists_false, false_iff]
    rintro ⟨-, -, hourly, daily⟩
    exact empty.elim hourly daily
  · simp only [not_or] at empty
    simp [emptyHour, Nat.le_of_not_lt wide, empty.1, empty.2]

/-- An hour that is wider than a day is refused, whatever else is. -/
theorem new_of_wide (wide : clock.epochsPerDay < hourlyWidth) :
    BucketLayout.new clock hourlyWidth hourlyPartitionBuckets dailyPartitionBuckets =
      .error (.hourWiderThanDay hourlyWidth clock.epochsPerDay) := by
  have someHour : hourlyWidth ≠ 0 := by omega
  unfold BucketLayout.new
  rw [dif_neg someHour, dif_pos wide]

end BucketLayout

/-! ### What the rollup section asks of its widths -/

namespace RollupSettings

variable {settings : RollupSettings} {clock : ChainClock}

/-- Buckets and partitions of the settings hold something. -/
structure NoEmptyWidth (settings : RollupSettings) : Prop where
  hour : settings.hourlyWidth ≠ some 0
  hourlyPartition : settings.hourlyPartitionBuckets ≠ 0
  dailyPartition : settings.dailyPartitionBuckets ≠ 0

/-- Why the retentions of the settings are refused: neither may be zero. -/
def retentionRefusal (settings : RollupSettings) : Option String :=
  if settings.hourlyRetention = some 0 then
    some "rollup.hourly_retention_epochs cannot be 0 (the head partition would be dropped)"
  else if settings.dailyRetention = some 0 then
    some "rollup.daily_retention_epochs cannot be 0"
  else
    none

/-- The section is refused for an empty width first. -/
theorem NoEmptyWidth.of_refusal (accepted : settings.refusal = none) : settings.NoEmptyWidth := by
  unfold refusal at accepted
  split_ifs at accepted with hour hourly daily
  exact ⟨hour, hourly, daily⟩

/-- Widths that hold something leave the retentions to refuse. -/
theorem NoEmptyWidth.refusal_eq (widths : settings.NoEmptyWidth) :
    settings.refusal = settings.retentionRefusal := by
  unfold refusal retentionRefusal
  rw [if_neg widths.hour, if_neg widths.hourlyPartition, if_neg widths.dailyPartition]

/-- The retentions are refused only where one of them is zero. -/
theorem zero_of_retentionRefusal {reason : String}
    (refused : settings.retentionRefusal = some reason) :
    settings.hourlyRetention = some 0 ∨ settings.dailyRetention = some 0 := by
  unfold retentionRefusal at refused
  split_ifs at refused with hourly daily
  · exact .inl hourly
  · exact .inr daily

/-! ### The layout and the coordinator of the settings -/

theorem layout_eq_ok_iff {layout : BucketLayout} :
    settings.layout clock = .ok layout ↔
      BucketLayout.new clock (settings.hourlyWidth.getD (BucketLayout.defaultHourlyWidth clock))
        settings.hourlyPartitionBuckets settings.dailyPartitionBuckets = .ok layout := by
  unfold RollupSettings.layout
  cases BucketLayout.new clock
    (settings.hourlyWidth.getD (BucketLayout.defaultHourlyWidth clock))
    settings.hourlyPartitionBuckets settings.dailyPartitionBuckets <;> simp [Except.mapError]

/-- The settings have a layout exactly when no width is empty and a configured hour fits in a
day of the chain. -/
theorem exists_layout_iff :
    (∃ layout, settings.layout clock = .ok layout) ↔
      settings.NoEmptyWidth ∧
        ∀ width, settings.hourlyWidth = some width → width ≤ clock.epochsPerDay := by
  simp only [layout_eq_ok_iff, BucketLayout.exists_new_eq_ok_iff]
  cases configured : settings.hourlyWidth with
  | none =>
    have positive := Nat.ne_of_gt (BucketLayout.defaultHourlyWidth_pos clock)
    have fits := BucketLayout.defaultHourlyWidth_le clock
    constructor
    · rintro ⟨-, -, hourly, daily⟩
      exact ⟨⟨by simp [configured], hourly, daily⟩, by simp⟩
    · rintro ⟨widths, -⟩
      exact ⟨positive, fits, widths.hourlyPartition, widths.dailyPartition⟩
  | some width =>
    constructor
    · rintro ⟨positive, fits, hourly, daily⟩
      refine ⟨⟨by simpa [configured] using positive, hourly, daily⟩, ?_⟩
      rintro _ ⟨⟩
      exact fits
    · rintro ⟨widths, fits⟩
      have positive : width ≠ 0 := fun zero => widths.hour (by rw [configured, zero])
      exact ⟨positive, fits width rfl, widths.hourlyPartition, widths.dailyPartition⟩

/-- An hour wider than a day is refused by the layout, which names both widths. -/
theorem layout_of_wide {width : Nat} (configured : settings.hourlyWidth = some width)
    (wide : clock.epochsPerDay < width) :
    settings.layout clock =
      .error (.bucketLayout (.hourWiderThanDay width clock.epochsPerDay)) := by
  unfold RollupSettings.layout
  rw [configured, Option.getD_some, BucketLayout.new_of_wide wide]
  rfl

theorem coordinator_of_layout {layout : BucketLayout} (made : settings.layout clock = .ok layout) :
    settings.coordinator clock = .ok (.ofStore layout (settings.retention clock)) := by
  unfold coordinator
  rw [made]

theorem coordinator_of_refused {cause : SetupError}
    (refused : settings.layout clock = .error cause) :
    settings.coordinator clock = .error (.layout cause) := by
  unfold coordinator
  rw [refused]

end RollupSettings

/-! ### Accepted settings -/

theorem ChainSettings.refusal_eq_none_iff {settings : ChainSettings} :
    settings.refusal = none ↔ ∃ clock, settings.clock = .ok clock := by
  unfold ChainSettings.refusal
  cases settings.clock <;> simp

namespace Settings

/-- Settings are accepted when each section is. -/
theorem refusal_eq_none_iff {settings : Settings} :
    settings.refusal = none ↔
      settings.chain.refusal = none ∧ settings.rollup.refusal = none ∧
        settings.database.refusal = none ∧ settings.scheduler.refusal = none := by
  unfold Settings.refusal
  simp

/-- Accepted settings have a clock. They have a layout and a coordinator unless an hour wider
than a day of that clock is configured, and then both are refused for that hour. Settings that
have a clock and a layout have an accepted chain section, and a rollup section that is refused
only for its retentions. -/
theorem accepted_starts (settings : Settings) :
    (settings.refusal = none → ∃ clock, settings.chain.clock = .ok clock ∧
      ((∃ layout, settings.rollup.layout clock = .ok layout ∧
          settings.rollup.coordinator clock =
            .ok (.ofStore layout (settings.rollup.retention clock))) ∨
        ∃ width, settings.rollup.hourlyWidth = some width ∧ clock.epochsPerDay < width ∧
          settings.rollup.layout clock =
            .error (.bucketLayout (.hourWiderThanDay width clock.epochsPerDay)) ∧
          settings.rollup.coordinator clock =
            .error (.layout (.bucketLayout (.hourWiderThanDay width clock.epochsPerDay))))) ∧
      ∀ clock layout, settings.chain.clock = .ok clock →
        settings.rollup.layout clock = .ok layout →
        settings.chain.refusal = none ∧
          settings.rollup.refusal = settings.rollup.retentionRefusal ∧
          ∀ reason, settings.rollup.refusal = some reason →
            settings.rollup.hourlyRetention = some 0 ∨ settings.rollup.dailyRetention = some 0 := by
  refine ⟨fun accepted => ?_, fun clock layout ticks made => ?_⟩
  · obtain ⟨chain, rollup, -, -⟩ := refusal_eq_none_iff.mp accepted
    obtain ⟨clock, ticks⟩ := ChainSettings.refusal_eq_none_iff.mp chain
    refine ⟨clock, ticks, ?_⟩
    by_cases fits : ∀ width, settings.rollup.hourlyWidth = some width → width ≤ clock.epochsPerDay
    · obtain ⟨layout, made⟩ :=
        RollupSettings.exists_layout_iff.mpr ⟨.of_refusal rollup, fits⟩
      exact .inl ⟨layout, made, RollupSettings.coordinator_of_layout made⟩
    · simp only [not_forall, Nat.not_le] at fits
      obtain ⟨width, configured, wide⟩ := fits
      have refused := RollupSettings.layout_of_wide configured wide
      exact .inr
        ⟨width, configured, wide, refused, RollupSettings.coordinator_of_refused refused⟩
  · have widths := (RollupSettings.exists_layout_iff.mp ⟨layout, made⟩).1
    refine ⟨ChainSettings.refusal_eq_none_iff.mpr ⟨clock, ticks⟩, widths.refusal_eq, ?_⟩
    intro reason refused
    exact RollupSettings.zero_of_retentionRefusal (widths.refusal_eq ▸ refused)

/-- The settings used when nothing is configured start, and are accepted for it. -/
theorem accepted_starts_default :
    Settings.default.refusal = none ∧
      ∃ clock layout, Settings.default.chain.clock = .ok clock ∧
        Settings.default.rollup.layout clock = .ok layout ∧
        Settings.default.rollup.coordinator clock =
          .ok (.ofStore layout (Settings.default.rollup.retention clock)) ∧
        Settings.default.rollup.refusal = Settings.default.rollup.retentionRefusal := by
  have accepted : Settings.default.refusal = none := by decide
  obtain ⟨starts, accepts⟩ := accepted_starts Settings.default
  obtain ⟨clock, ticks, ⟨layout, made, coordinates⟩ | ⟨width, configured, -⟩⟩ := starts accepted
  · exact ⟨accepted, clock, layout, ticks, made, coordinates, (accepts clock layout ticks made).2.1⟩
  · exact nomatch configured

namespace WideHour

/-- Hours of 226 epochs on the main network, which has 225 epochs in a day. -/
def settings : Settings :=
  { Settings.default with rollup := { RollupSettings.default with hourlyWidth := some 226 } }

end WideHour

open WideHour in
/-- Accepted settings need not start: an hour wider than a day passes every check of the
settings, and is refused by the layout and so by the coordinator. -/
theorem accepted_wideHour :
    settings.refusal = none ∧ ∃ clock, settings.chain.clock = .ok clock ∧
      settings.rollup.layout clock = .error (.bucketLayout (.hourWiderThanDay 226 225)) ∧
      settings.rollup.coordinator clock =
        .error (.layout (.bucketLayout (.hourWiderThanDay 226 225))) := by
  have accepted : settings.refusal = none := by decide
  obtain ⟨clock, ticks⟩ := ChainSettings.refusal_eq_none_iff.mp (refusal_eq_none_iff.mp accepted).1
  have day : clock.epochsPerDay = 225 := by
    have known : (settings.chain.clock.toOption).map (·.epochsPerDay) = some 225 := by decide
    rw [ticks] at known
    exact Option.some.inj known
  have refused := @RollupSettings.layout_of_wide settings.rollup clock 226 rfl (by omega)
  rw [day] at refused
  exact ⟨accepted, clock, ticks, refused, RollupSettings.coordinator_of_refused refused⟩

end Settings

end EpochRollup
