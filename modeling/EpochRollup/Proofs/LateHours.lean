/-
This file says what can be read off the hours that start at an epoch or later. A pass drops older
hours only, and the trailing window, the day of the latest hour and the head itself are found
among the others: where those are the same, the same is read and the same is folded.
-/

import EpochRollup.Proofs.FailedPass
import EpochRollup.Proofs.Replay

namespace EpochRollup

/-- The hours that start at an epoch or later are the same. -/
def Tables.SameFrom (cutoff : Int) (tables other : Tables) : Prop :=
  other.hourly.filter (cutoff ≤ ·.start) = tables.hourly.filter (cutoff ≤ ·.start)

namespace Tables.SameFrom

variable {cutoff : Int} {tables other third : Tables}

theorem of_hourly (same : other.hourly = tables.hourly) : tables.SameFrom cutoff other := by
  unfold SameFrom
  rw [same]

theorem trans (first : tables.SameFrom cutoff other) (second : other.SameFrom cutoff third) :
    tables.SameFrom cutoff third := Eq.trans second first

theorem symm (same : tables.SameFrom cutoff other) : other.SameFrom cutoff tables := Eq.symm same

/-- Any choice of late hours is the same. -/
theorem filter (same : tables.SameFrom cutoff other) {chosen : HourlyRow → Bool}
    (late : ∀ row, chosen row = true → cutoff ≤ row.start) :
    other.hourly.filter chosen = tables.hourly.filter chosen := by
  have among (hours : List HourlyRow) :
      hours.filter chosen = (hours.filter (cutoff ≤ ·.start)).filter chosen := by
    rw [List.filter_filter]
    refine List.filter_congr fun row _ => ?_
    cases choice : chosen row with
    | false => rfl
    | true => exact (decide_eq_true (late row choice)).symm
  rw [among, among tables.hourly, same]

theorem mem_iff (same : tables.SameFrom cutoff other) {row : HourlyRow}
    (late : cutoff ≤ row.start) : row ∈ other.hourly ↔ row ∈ tables.hourly := by
  have read (hours : List HourlyRow) :
      row ∈ hours.filter (cutoff ≤ ·.start) ↔ row ∈ hours := by
    rw [List.mem_filter]
    exact and_iff_left (decide_eq_true late)
  rw [← read, same, read]

/-- The latest hour is the same. -/
theorem lastHourly? (same : tables.SameFrom cutoff other) {bounds : Int × Int}
    (found : tables.lastHourly? = some bounds) (late : cutoff ≤ bounds.1) :
    other.lastHourly? = some bounds := by
  obtain ⟨startIs, stopIs⟩ := Tables.lastHourly?_eq_some.mp found
  obtain ⟨held, most⟩ := List.max?_eq_some_iff.mp startIs
  obtain ⟨row, member, here⟩ := List.mem_map.mp held
  refine Tables.lastHourly?_eq_some.mpr ⟨List.max?_eq_some_iff.mpr ⟨?_, fun start there => ?_⟩, ?_⟩
  · exact List.mem_map.mpr ⟨row, (same.mem_iff (by omega)).mpr member, here⟩
  · obtain ⟨hour, hourMember, rfl⟩ := List.mem_map.mp there
    by_contra above
    have later : cutoff ≤ hour.start := by omega
    exact above (most _ (List.mem_map.mpr ⟨hour, (same.mem_iff later).mp hourMember, rfl⟩))
  · rw [same.filter fun row chosen => by
      have here := of_decide_eq_true chosen
      omega]
    exact stopIs

/-- So is the first hour of the last day. -/
theorem dayOld? (same : tables.SameFrom cutoff other) {clock : ChainClock} {bounds : Int × Int}
    (found : tables.lastHourly? = some bounds) (late : cutoff ≤ bounds.1)
    (near : cutoff ≤ ((epochOfStored bounds.2 - clock.epochsPerDay : Nat) : Int)) :
    other.dayOld? clock = tables.dayOld? clock := by
  unfold Tables.dayOld?
  rw [same.lastHourly? found late, found]
  dsimp only [Option.map_some, Option.bind_some]
  rw [List.filter_map, List.filter_map, same.filter fun row chosen => ?_]
  have after : ((epochOfStored bounds.2 - clock.epochsPerDay : Nat) : Int) ≤ row.start :=
    of_decide_eq_true chosen
  omega

theorem windowSamples_eq (same : tables.SameFrom cutoff other) {start head : Int}
    (late : cutoff ≤ start) :
    windowSamples other.hourly start head = windowSamples tables.hourly start head := by
  refine congrArg (List.map HourlyRow.sample) (same.filter fun row chosen => ?_)
  simp only [Bool.and_eq_true, decide_eq_true_eq] at chosen
  omega

theorem hourSamples_eq (same : tables.SameFrom cutoff other) {start stop : Int}
    (late : cutoff ≤ start) :
    hourSamples other.hourly start stop = hourSamples tables.hourly start stop := by
  refine congrArg (List.map HourlyRow.sample) (same.filter fun row chosen => ?_)
  simp only [Bool.and_eq_true, decide_eq_true_eq] at chosen
  omega

theorem coverage_eq (same : tables.SameFrom cutoff other) {start : Int} (late : cutoff ≤ start) :
    EmbeddedStore.coverage other start = EmbeddedStore.coverage tables start := by
  refine congrArg (fun hours => (hours.map HourlyRow.stop).max?) (same.filter fun row chosen => ?_)
  have here := of_decide_eq_true chosen
  omega

end Tables.SameFrom

/-! ### The refresh once more -/

namespace Given

open EmbeddedStore

variable {tables after : Tables}

/-- An epoch that is looked for fits a column. -/
theorem firstHourlyFrom_stored {epoch : Nat} {result : Option Nat}
    (given : Given tables (.firstHourlyFrom epoch) result after) : epoch < storedLimit := by
  obtain ⟨store, ok⟩ := given.run
  obtain ⟨cutoff, lifted, lift, rest⟩ := run_bind_eq_ok.mp ok
  exact (storedEpoch_eq_ok_iff.mp (run_lift_eq_ok lift).1).1

theorem replaceRolling_stored {start head count : Nat}
    (given : Given tables (.replaceRolling start head) count after) :
    start < storedLimit ∧ head < storedLimit := by
  obtain ⟨store, ok⟩ := given.run
  obtain ⟨_, opened, check, rest⟩ := run_bind_eq_ok.mp ok
  obtain ⟨_, cleared, clear, rest⟩ := run_bind_eq_ok.mp rest
  obtain ⟨first, lifted, liftStart, rest⟩ := run_bind_eq_ok.mp rest
  obtain ⟨second, raised, liftHead, rest⟩ := run_bind_eq_ok.mp rest
  exact ⟨(storedEpoch_eq_ok_iff.mp (run_lift_eq_ok liftStart).1).1,
    (storedEpoch_eq_ok_iff.mp (run_lift_eq_ok liftHead).1).1⟩

theorem foldDay_stored {range : EpochRange} {day : CalendarDay} {count : Nat}
    (given : Given tables (.foldDay range day) count after) :
    range.start < storedLimit ∧ range.stop < storedLimit := by
  obtain ⟨store, ok⟩ := given.run
  obtain ⟨start, lifted, liftStart, rest⟩ := run_bind_eq_ok.mp ok
  obtain ⟨stop, raised, liftStop, rest⟩ := run_bind_eq_ok.mp rest
  exact ⟨(storedEpoch_eq_ok_iff.mp (run_lift_eq_ok liftStart).1).1,
    (storedEpoch_eq_ok_iff.mp (run_lift_eq_ok liftStop).1).1⟩

end Given

section

open Procedure

variable {clock : ChainClock} {tables after : Tables} {report : WindowReport}

/-- The calls of a refresh that has come back. -/
theorem returns_refreshWindow
    (returns : (refreshWindow (storedBounds clock)).Returns tables report after) :
    (tables.hourly = [] ∧ report = ⟨none, 0⟩ ∧ after.rolling = []) ∨
      ∃ bounds count, tables.lastHourly? = some bounds ∧
        epochOfStored bounds.2 - clock.epochsPerDay < storedLimit ∧
        Given tables (.replaceRolling ((tables.dayOld? clock).getD (epochOfStored bounds.1))
          (epochOfStored bounds.1)) count after ∧
        report = ⟨some ⟨(tables.dayOld? clock).getD (epochOfStored bounds.1),
          epochOfStored bounds.2⟩, count⟩ := by
  obtain ⟨latest, _, answered, returns⟩ := returns_bind returns
  obtain ⟨same, rfl⟩ := (returns_settle answered).look fun _ => rfl
  rw [same] at returns
  cases found : tables.lastHourly? with
  | none =>
    rw [found] at returns
    obtain ⟨_, _, answered, returns⟩ := returns_bind returns
    obtain ⟨rfl, rfl⟩ := returns_pure returns
    rw [(returns_settle answered).clearRolling]
    exact Or.inl ⟨Tables.lastHourly?_eq_none.mp found, rfl, rfl⟩
  | some bounds =>
    have dayOldIs : tables.dayOld? clock = ((tables.hourly.map (·.start)).filter
        (((epochOfStored bounds.2 - clock.epochsPerDay : Nat) : Int) ≤ ·)).min?.map
          epochOfStored := by
      unfold Tables.dayOld?
      rw [found]
      rfl
    rw [found] at returns
    obtain ⟨old, _, read, returns⟩ := returns_bind returns
    obtain ⟨count, _, answered, returns⟩ := returns_bind returns
    obtain ⟨rfl, rfl⟩ := returns_pure returns
    obtain ⟨again, _, looked, read⟩ := returns_bind read
    obtain ⟨same, rfl⟩ := (returns_settle looked).look fun _ => rfl
    rw [same, found] at read
    have looked := returns_settle read
    obtain ⟨same, rfl⟩ := looked.firstHourlyFrom
    rw [same] at answered
    rw [dayOldIs]
    exact Or.inr ⟨bounds, count, rfl, looked.firstHourlyFrom_stored, returns_settle answered, rfl⟩

namespace EmbeddedStore.Healthy

variable {store : EmbeddedStore} (healthy : store.Healthy)

include healthy

/-- The hour a day old is read alike where it is the same. -/
theorem replays_dayOld {bounds : Int × Int} (found : store.tables.lastHourly? = some bounds)
    (same : store.tables.dayOld? clock = tables.dayOld? clock)
    (stored : epochOfStored bounds.2 - clock.epochsPerDay < storedLimit) :
    (storedBounds clock .dayOldHourly).Replays store (tables.dayOld? clock) := by
  refine Replays.bind (healthy.replays_lastHourly clock) ?_
  rw [found, ← same, Tables.dayOld?, found]
  exact replays_settle (healthy.answer_firstHourlyFrom stored)

/-- On tables that have the hours of a window and its rows, the window is replaced by itself. -/
theorem answer_replaceRolling_again {start head count : Nat}
    (given : Given tables (.replaceRolling start head) count after)
    (samples : windowSamples store.tables.hourly start head =
      windowSamples tables.hourly start head)
    (covered : coverage store.tables head = coverage tables head)
    (rolling : store.tables.rolling = after.rolling) :
    store.answer (.replaceRolling start head) = (.ok count, store) := by
  obtain ⟨startStored, headStored⟩ := given.replaceRolling_stored
  rcases given.replaceRolling with ⟨empty, rfl, rfl⟩ | ⟨first, rows, firstIs, validators,
    written, rfl, rfl⟩
  · rw [← samples] at empty
    have answered := healthy.answer_replaceRolling_none startStored headStored empty
    rwa [withRolling_eq rolling] at answered
  · rw [← samples] at firstIs validators written
    rw [← covered] at written
    have answered := healthy.answer_replaceRolling startStored headStored firstIs validators
      written
    rwa [withRolling_eq rolling] at answered

/-- On tables that have the late hours and the window of a refresh, the refresh does nothing
once more. -/
theorem replays_refreshWindow {cutoff : Int}
    (returns : (refreshWindow (storedBounds clock)).Returns tables report after)
    (same : tables.SameFrom cutoff store.tables)
    (late : ∀ bounds, tables.lastHourly? = some bounds →
      cutoff ≤ bounds.1 ∧ cutoff ≤ ((epochOfStored bounds.2 - clock.epochsPerDay : Nat) : Int))
    (none : tables.hourly = [] → store.tables.hourly = [])
    (rolling : store.tables.rolling = after.rolling) :
    (refreshWindow (storedBounds clock)).Replays store report := by
  refine (healthy.replays_lastHourly clock).bind ?_
  rcases returns_refreshWindow returns with ⟨noHours, rfl, empty⟩ | ⟨bounds, count, found, stored,
    given, rfl⟩
  · rw [Tables.lastHourly?_eq_none.mpr (none noHours)]
    have cleared := healthy.answer_clearRolling
    rw [withRolling_eq (rolling.trans empty)] at cleared
    exact (replays_settle cleared).bind (replays_pure _)
  · obtain ⟨headLate, dayLate⟩ := late bounds found
    have headFound := same.lastHourly? found headLate
    have latestIs : tables.lastHourly?.map boundsOfStored = some (boundsOfStored bounds) := by
      rw [found]
      rfl
    -- The window starts late, so its hours are the same.
    have startLate :
        cutoff ≤ (((tables.dayOld? clock).getD (epochOfStored bounds.1) : Nat) : Int) := by
      have upTo := Int.self_le_toNat bounds.1
      rcases Tables.dayOld?_cases clock latestIs with ⟨hour, -, old, after, -⟩ | ⟨old, -⟩
      · have within := Int.self_le_toNat hour.start
        rw [old]
        exact Int.le_trans (Int.le_trans dayLate after) within
      · rw [old]
        exact Int.le_trans headLate upTo
    have replaced := healthy.answer_replaceRolling_again given (same.windowSamples_eq startLate)
      (same.coverage_eq (Int.le_trans headLate (Int.self_le_toNat bounds.1))) rolling
    rw [headFound]
    refine (healthy.replays_dayOld headFound (same.dayOld? found headLate dayLate) stored).bind ?_
    exact (replays_settle replaced).bind (replays_pure _)

end EmbeddedStore.Healthy

end

end EpochRollup
