/-
This file proves what the partition counters account for. Ticks are run one after the other,
rows arrive in between, and any call may fail. What the counters say was made, less what they
say was dropped, is in the catalogue, as long as no report is lost. A fold that fails has no
report, and neither has a pass that fails in any of its steps, yet the partitions that were
made or dropped on the way stay made or dropped, and later reports do not make up for them. So
the counters are off for good, by what was entered in the ledger in the ticks that failed.
-/

import EpochRollup.Monitor.Tick
import EpochRollup.Proofs.Ledger

namespace EpochRollup

/-! ### Totals -/

/-- What a tally adds to a counter. -/
def Tally.total (tally : Tally) (counter : Counter) : Nat :=
  ((tally.filter (·.1 = counter)).map (·.2)).sum

@[simp] theorem Tally.total_nil (counter : Counter) : Tally.total [] counter = 0 := rfl

@[simp] theorem Tally.total_cons (addition : Counter × Nat) (rest : Tally) (counter : Counter) :
    Tally.total (addition :: rest) counter =
      (if addition.1 = counter then addition.2 else 0) + rest.total counter := by
  unfold total
  by_cases same : addition.1 = counter <;> simp [same]

deriving instance DecidableEq for TickOutcome

namespace TickOutcome

variable (outcome : TickOutcome)

/-- The fold of a tick failed, which left no report. -/
def foldFailed : Bool := outcome.tally.total .hourlyFoldFailures ≠ 0

/-- The pass of a tick failed, which left no report. -/
def passFailed : Bool :=
  match outcome.result with
  | .ok _ => false
  | .error _ => true

/-- There is no report of the partitions of a granularity that a tick made. -/
def losesCreated : Granularity → Bool
  | .hourly => outcome.foldFailed
  | .daily => outcome.passFailed

end TickOutcome

/-! ### Ticks -/

/-- A tick that came to an outcome, between two chronicles. -/
structure Tick where
  /-- The chronicle when the tick began. -/
  before : Chronicle
  /-- The outcome. -/
  outcome : TickOutcome
  /-- The chronicle when it ended. -/
  after : Chronicle

namespace Tick

variable (tick : Tick) (granularity : Granularity)

/-- Partitions made of which there is no report. -/
def lostCreated : Nat :=
  if tick.outcome.losesCreated granularity then
    tick.after.ledger.created granularity - tick.before.ledger.created granularity
  else 0

/-- Partitions dropped of which there is no report. -/
def lostDropped : Nat :=
  if tick.outcome.passFailed then
    tick.after.ledger.dropped granularity - tick.before.ledger.dropped granularity
  else 0

/-- What a tick entered in the ledger is what it added to the counters, and what it lost. -/
structure Accounted : Prop where
  /-- Partitions made. -/
  created : ∀ granularity, tick.after.ledger.created granularity =
    tick.before.ledger.created granularity +
      tick.outcome.tally.total (.partitionsCreated granularity) + tick.lostCreated granularity
  /-- Partitions dropped. -/
  dropped : ∀ granularity, tick.after.ledger.dropped granularity =
    tick.before.ledger.dropped granularity +
      tick.outcome.tally.total (.partitionsDropped granularity) + tick.lostDropped granularity

end Tick

namespace Coordinator

variable {regime : Regime} {ledger : Ledger} {layout : BucketLayout} {retention : RetentionPolicy}
  {log final : Chronicle} {outcome : TickOutcome}

/-- What the pass of a tick enters, and what the tick adds to the counters. -/
theorem stands_tickPass {folded : Tally} (stands : log.Stands ledger)
    (performs : Performs regime ((ofStore layout retention).tickPass folded) log (.ok outcome)
      final) :
    ∃ created hourlyDropped dailyDropped,
      final.Stands (passed ledger created hourlyDropped dailyDropped) ∧
        ((∃ report : PassReport, outcome = ⟨folded ++ report.tally, .ok report⟩ ∧
            created = report.daily.partitionsCreated ∧ hourlyDropped = report.hourlyDropped ∧
            dailyDropped = report.dailyDropped) ∨
          ∃ error : RollupError,
            outcome = ⟨folded ++ passFailureTally error.step?, .error error⟩) := by
  obtain ⟨passOutcome, between, pass, rest⟩ := performs_bind.mp performs
  have kept := keeps_passed_runPass stands pass
  match passOutcome with
  | .ok report =>
    cases rest
    exact ⟨_, _, _, kept, Or.inl ⟨report, rfl, rfl, rfl, rfl⟩⟩
  | .error (.error error) =>
    obtain ⟨created, hourlyDropped, dailyDropped, stands⟩ := kept
    cases rest
    exact ⟨_, _, _, stands, Or.inr ⟨error, rfl⟩⟩
  | .error (.abort cause) => cases rest

/-- What a tick enters, and what it adds to the counters: the fold of the tick enters hours and
then its pass the rest, and each adds what it reports or that it failed. -/
theorem stands_tick (stands : log.Stands ledger)
    (performs : Performs regime (ofStore layout retention).tick log (.ok outcome) final) :
    ∃ hours days hourlyDropped dailyDropped folded,
      final.Stands (passed (ledger.create .hourly hours) days hourlyDropped dailyDropped) ∧
        ((∃ report : FoldReport, folded = report.tally ∧ hours = report.partitionsCreated) ∨
          folded = foldFailureTally) ∧
        ((∃ report : PassReport, outcome = ⟨folded ++ report.tally, .ok report⟩ ∧
            days = report.daily.partitionsCreated ∧ hourlyDropped = report.hourlyDropped ∧
            dailyDropped = report.dailyDropped) ∨
          ∃ error : RollupError,
            outcome = ⟨folded ++ passFailureTally error.step?, .error error⟩) := by
  obtain ⟨foldOutcome, between, fold, rest⟩ := performs_bind.mp performs
  have kept := BucketLayout.keeps_created_foldHours stands fold
  match foldOutcome with
  | .ok report =>
    obtain ⟨days, hourlyDropped, dailyDropped, stands, passes⟩ := stands_tickPass kept rest
    exact ⟨_, days, hourlyDropped, dailyDropped, _, stands, Or.inl ⟨report, rfl, rfl⟩, passes⟩
  | .error (.error error) =>
    obtain ⟨hours, kept⟩ := kept
    obtain ⟨days, hourlyDropped, dailyDropped, stands, passes⟩ := stands_tickPass kept rest
    exact ⟨hours, days, hourlyDropped, dailyDropped, _, stands, Or.inr rfl, passes⟩
  | .error (.abort cause) => cases rest

/-- A tick accounts for what it enters. -/
theorem accounted_tick (stands : log.Stands ledger)
    (performs : Performs regime (ofStore layout retention).tick log (.ok outcome) final) :
    (∃ entered, final.Stands entered) ∧ Tick.Accounted ⟨log, outcome, final⟩ := by
  obtain ⟨hours, days, hourlyDropped, dailyDropped, folded, entered, folds, passes⟩ :=
    stands_tick stands performs
  refine ⟨⟨_, entered⟩, ?created, ?dropped⟩
  case created =>
    intro granularity
    unfold Tick.lostCreated
    dsimp only
    rw [entered.entries, stands.entries]
    -- Each of the two reports is there or lost, and belongs to one granularity.
    rcases folds with ⟨foldReport, rfl, rfl⟩ | rfl <;>
      rcases passes with ⟨report, rfl, rfl, rfl, rfl⟩ | ⟨error, rfl⟩ <;> cases granularity <;>
        simp [FoldReport.tally, PassReport.tally, foldFailureTally, passFailureTally, passed,
          Ledger.create, Ledger.drop, TickOutcome.losesCreated, TickOutcome.foldFailed,
          TickOutcome.passFailed]
  case dropped =>
    intro granularity
    unfold Tick.lostDropped
    dsimp only
    rw [entered.entries, stands.entries]
    rcases folds with ⟨foldReport, rfl, rfl⟩ | rfl <;>
      rcases passes with ⟨report, rfl, rfl, rfl, rfl⟩ | ⟨error, rfl⟩ <;> cases granularity <;>
        simp [FoldReport.tally, PassReport.tally, foldFailureTally, passFailureTally, passed,
          Ledger.create, Ledger.drop, TickOutcome.passFailed]

end Coordinator

/-! ### Runs of ticks -/

/-- Rows arrive and ticks are run, one after the other. The ticks are listed, the latest first. -/
inductive Ticks (regime : Regime) (log : Chronicle) : List Tick → Chronicle → Prop where
  /-- Nothing happens. -/
  | none : Ticks regime log [] log
  /-- Rows arrive. -/
  | supply {run : List Tick} {before : Chronicle} {rows : List EpochRow} {after : Tables}
      (earlier : Ticks regime log run before) (allowed : regime.supplies before.now rows)
      (given : Given before.now (.upsertEpochs rows) () after) :
      Ticks regime log run (before.record after)
  /-- A tick is run. -/
  | tick {run : List Tick} {before final : Chronicle} {retention : RetentionPolicy}
      {outcome : TickOutcome} (earlier : Ticks regime log run before)
      (retained : regime.retains retention)
      (performs : Performs regime (Coordinator.ofStore regime.layout retention).tick before
        (.ok outcome) final) :
      Ticks regime log (⟨before, outcome, final⟩ :: run) final

namespace Ticks

variable {regime : Regime} {run : List Tick} {final : Chronicle}

/-- What some ticks added to a counter. -/
def counted (run : List Tick) (counter : Counter) : Nat :=
  (run.map (·.outcome.tally.total counter)).sum

/-- Partitions that some ticks made, and of which there is no report. -/
def lostCreated (run : List Tick) (granularity : Granularity) : Nat :=
  (run.map (·.lostCreated granularity)).sum

/-- Partitions that some ticks dropped, and of which there is no report. -/
def lostDropped (run : List Tick) (granularity : Granularity) : Nat :=
  (run.map (·.lostDropped granularity)).sum

/-- The ledger of a run is what its ticks counted and what they lost. -/
theorem ledger_eq (ticks : Ticks regime .start run final) :
    (∃ ledger, final.Stands ledger) ∧ ∀ granularity,
      final.ledger.created granularity =
          counted run (.partitionsCreated granularity) + lostCreated run granularity ∧
        final.ledger.dropped granularity =
          counted run (.partitionsDropped granularity) + lostDropped run granularity := by
  induction ticks with
  | none => exact ⟨⟨_, Chronicle.stands_start⟩, fun _ => ⟨rfl, rfl⟩⟩
  | supply earlier allowed given inductionHypothesis =>
    obtain ⟨⟨ledger, stands⟩, sums⟩ := inductionHypothesis
    have after := regime.stable_stands ledger _ _ _ stands allowed given
    refine ⟨⟨ledger, after⟩, ?_⟩
    rw [after.entries, ← stands.entries]
    exact sums
  | tick earlier retained performs inductionHypothesis =>
    obtain ⟨⟨ledger, stands⟩, sums⟩ := inductionHypothesis
    obtain ⟨after, accounted⟩ := Coordinator.accounted_tick stands performs
    refine ⟨after, fun granularity => ?_⟩
    have created := accounted.created granularity
    have dropped := accounted.dropped granularity
    have before := sums granularity
    dsimp only at created dropped
    simp only [counted, lostCreated, lostDropped, List.map_cons, List.sum_cons] at before ⊢
    omega

/-- What the catalogue lists of a granularity is what the counters say was made, less what they
say was dropped, up to the partitions of which no report is left. So it is what the counters
say where no fold and no pass has failed. -/
theorem partitionCount_eq (ticks : Ticks regime .start run final) (granularity : Granularity) :
    final.now.partitionCount granularity + counted run (.partitionsDropped granularity) +
          lostDropped run granularity =
        counted run (.partitionsCreated granularity) + lostCreated run granularity ∧
      ((∀ tick ∈ run, tick.outcome.losesCreated granularity = false ∧
          tick.outcome.passFailed = false) →
        final.now.partitionCount granularity + counted run (.partitionsDropped granularity) =
          counted run (.partitionsCreated granularity)) := by
  obtain ⟨⟨ledger, stands⟩, sums⟩ := ticks.ledger_eq
  have balance := stands.balance granularity
  have exact := sums granularity
  rw [stands.entries] at exact
  refine ⟨by omega, fun reported => ?_⟩
  have created : lostCreated run granularity = 0 :=
    List.sum_eq_zero_iff_forall_eq_nat.mpr <| List.forall_mem_map.mpr fun tick member =>
      if_neg (by simp [(reported tick member).1])
  have dropped : lostDropped run granularity = 0 :=
    List.sum_eq_zero_iff_forall_eq_nat.mpr <| List.forall_mem_map.mpr fun tick member =>
      if_neg (by simp [(reported tick member).2])
  omega

end Ticks

/-! ### A report that is lost -/

namespace LostReport

/-- A chain whose epochs are hours, each a partition of its own. -/
def layout : BucketLayout :=
  .ofNumbers ⟨0, 0⟩ 900 4 1 1 1 (by decide)

/-- Hours are kept for long and days for ever. -/
def retention : RetentionPolicy := ⟨100, none⟩

/-- A validator is seen in the first epoch, and no hour can be written. -/
def party : EmbeddedStore × Chronicle :=
  Act.playAll layout retention
    [.supply [⟨0, 7, .none⟩], .place [⟨.rows .hourly, .insert, none⟩]] (.fresh, .start)

/-- What comes of a tick. -/
def ticked (party : EmbeddedStore × Chronicle) :
    Except Abort TickOutcome × EmbeddedStore × Chronicle :=
  (Coordinator.ofStore layout retention).tick.run EmbeddedStore.answerRecorded party

/-- A tick whose fold fails. -/
def failing : Except Abort TickOutcome × EmbeddedStore × Chronicle := ticked party

/-- The next tick, when hours can be written again. -/
def recovered : Except Abort TickOutcome × EmbeddedStore × Chronicle :=
  ticked ({ failing.2.1 with faults := [] }, failing.2.2)

/-- The outcome of the first tick: the fold failed and the pass had nothing to do. -/
def first : TickOutcome :=
  ⟨foldFailureTally ++ (⟨⟨none, 0⟩, .idle, 0, 0⟩ : PassReport).tally, .ok ⟨⟨none, 0⟩, .idle, 0, 0⟩⟩

/-- The outcome of the second one: an hour and a day were folded. -/
def second : TickOutcome :=
  let folded : FoldReport := ⟨1, 0, 1, 0, some ⟨0, 1⟩⟩
  let report : PassReport := ⟨⟨some ⟨0, 1⟩, 1⟩, ⟨1, 0, 1, 1, some ⟨0, 24⟩⟩, 0, 0⟩
  ⟨folded.tally ++ report.tally, .ok report⟩

/-- The two ticks. -/
def run : List Tick :=
  [⟨failing.2.2, second, recovered.2.2⟩, ⟨party.2, first, failing.2.2⟩]

theorem outcomes : failing.1 = .ok first ∧ recovered.1 = .ok second := by decide +kernel

theorem runs_party : Runs (.free layout) .start party.2 ∧ party.2.now = party.1.tables :=
  Act.runs_playAll trivial .none rfl ⟨trivial, trivial⟩

theorem ticks : Ticks (.free layout) .start run recovered.2.2 := by
  have arrives : (EmbeddedStore.fresh.answer (.upsertEpochs [⟨0, 7, .none⟩])).1 = .ok () := by
    decide +kernel
  have arrived : Ticks (.free layout) .start []
      (Chronicle.start.record
        (EmbeddedStore.fresh.answer (.upsertEpochs [⟨0, 7, .none⟩])).2.tables) :=
    .supply .none trivial (EmbeddedStore.given_of_answer arrives)
  have failed : Performs (.free layout) (Coordinator.ofStore layout retention).tick party.2
      (.ok first) failing.2.2 := by
    rw [← outcomes.1]
    exact performs_run _ runs_party.2
  have recovers : Performs (.free layout) (Coordinator.ofStore layout retention).tick failing.2.2
      (.ok second) recovered.2.2 := by
    rw [← outcomes.2]
    exact performs_run _ (now_run _ runs_party.2)
  exact (Ticks.tick arrived trivial failed).tick trivial recovers

end LostReport

open LostReport in
/-- The partition of the hour is there although no counter says that it was made. -/
theorem partitionCount_eq_lost_report :
    recovered.2.2.now.partitionCount .hourly + Ticks.counted run (.partitionsDropped .hourly) +
        Ticks.lostDropped run .hourly =
      Ticks.counted run (.partitionsCreated .hourly) + Ticks.lostCreated run .hourly ∧
    Ticks.lostCreated run .hourly = 1 :=
  ⟨(ticks.partitionCount_eq .hourly).1, by decide +kernel⟩

open LostReport in
/-- The partition counters can miss a partition for good. -/
theorem exists_partition_not_counted :
    ∃ (layout : BucketLayout) (run : List Tick) (final : Chronicle),
      Ticks (.free layout) .start run final ∧
      final.now.partitionCount .hourly = 1 ∧
      Ticks.counted run (.partitionsCreated .hourly) = 0 ∧
      Ticks.counted run (.partitionsDropped .hourly) = 0 :=
  ⟨layout, run, recovered.2.2, ticks, by decide +kernel, by decide +kernel, by decide +kernel⟩

end EpochRollup
