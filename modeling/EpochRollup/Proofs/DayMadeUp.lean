/-
This file says what becomes of a day whose pass failed. When a pass fails while the window is
refreshed or days are folded, and the head is on a day, then every pass that comes back later
leaves the day made up, whatever arrived and whatever failed in between: each validator with
an hour of the day has exactly one row, the fold of the hours of the day, those included
that have been dropped since the day was folded.

Three things are needed, and a run shows for each of them what happens without it. There are
days to resume from, or the head is still on the day, since without days a pass begins at the
day of its own head. The rows of the day were not dropped since. And hours that have been
dropped count, since a day that is complete is not folded again.
-/

import EpochRollup.Proofs.DailyRetention
import EpochRollup.Proofs.FailedDay
import EpochRollup.Proofs.HourlyRetention

namespace EpochRollup

section

variable {regime : Regime} {layout : BucketLayout} {day : Nat} {log : Chronicle}
  {retention : RetentionPolicy}

/-! ### The reclaims of a pass -/

theorem Chronicle.Made.mono {stored other : Tables} (made : log.Made layout day stored)
    (moves : ∀ moment, MadeFrom layout day stored log.now.daily moment →
      MadeFrom layout day other log.now.daily moment) : log.Made layout day other :=
  made.imp (moves _) fun ⟨moment, member, whole⟩ => ⟨moment, member, moves _ whole⟩

namespace MadeUpAndReached

theorem stable : regime.Stable (Steadily layout (MadeUpAndReached layout day)) := by
  refine regime.stable_steadily fun log stored held => ?_
  unfold MadeUpAndReached
  rw [Chronicle.now_record]
  exact held.2.imp Chronicle.LostDay.record fun ⟨made, reached⟩ =>
    ⟨made.of_same ⟨rfl, fun _ => Iff.rfl⟩ fun _ member _ => member, reached⟩

/-- The head stays where it is when hours before it are dropped. -/
theorem dropHours {head epoch : Nat} (held : MadeUpAndReached layout day log)
    (latest : log.now.LatestHour layout head)
    (apart : ((layout.partitionRangeAt .hourly epoch).stop : Int) ≤ head) :
    MadeUpAndReached layout day
      (log.record (log.now.drop (layout.partitionAt .hourly epoch))) := by
  obtain ⟨stays, frontier⟩ := Tables.Steady.latest_dropHours latest apart
  unfold MadeUpAndReached Tables.Settled
  rw [Chronicle.now_record, frontier, stays.head?, ← latest.head?]
  exact held.imp Chronicle.LostDay.record fun ⟨made, reached⟩ =>
    ⟨made.record fun _ whole => whole.dropHours latest apart, reached⟩

theorem dropDays (held : Steadily layout (MadeUpAndReached layout day) log) (epoch : Nat) :
    MadeUpAndReached layout day
      (log.record (log.now.drop (layout.partitionAt .daily epoch))) := by
  unfold MadeUpAndReached
  rw [Chronicle.now_record]
  rcases held.2 with lost | ⟨made, reached⟩
  · exact Or.inl lost.record
  · exact (made.dropDays held.1.sound.dailyKeyed (log.now.sameHours_drop layout epoch)
      epoch).imp_right fun made => ⟨made, reached⟩

end MadeUpAndReached

theorem keeps_refreshWindow_awaits {mayBeNone : Bool} :
    (refreshWindow (storedBounds layout.clock)).Keeps regime
      (Steadily layout (MadeUpOrAwaits layout day mayBeNone))
      (Steadily layout (MadeUpOrAwaits layout day mayBeNone))
      fun _ => Steadily layout (MadeUpOrAwaits layout day mayBeNone) :=
  keeps_refreshWindow_steadily (MadeUpOrAwaits.outlasts.stable regime) fun _ _ held =>
    held.2.record_same ⟨rfl, fun _ => Iff.rfl⟩ (fun _ member _ => member)
      fun awaits => awaits.congr rfl rfl

/-- A pass leaves the day made up or still to come, and so does one that fails. -/
theorem keeps_runPass_awaits :
    (Coordinator.ofStore layout retention).runPass.Keeps regime
      (Steadily layout (MadeUpOrAwaits layout day false))
      (Steadily layout (MadeUpOrAwaits layout day false))
      fun _ => Steadily layout (MadeUpOrAwaits layout day false) := by
  have awaits (log : Chronicle) (held : Steadily layout (MadeUpAndReached layout day) log) :
      Steadily layout (MadeUpOrAwaits layout day false) log := ⟨held.1, held.2.awaits held.1⟩
  exact Coordinator.keeps_runPass keeps_refreshWindow_awaits
    (keeps_foldDays_reached.weaken (fun _ => id) (fun _ held => ⟨held, nofun⟩)
      fun _ _ => id)
    ((keeps_reclaim_hourly_steadily MadeUpAndReached.stable fun _ _ _ held headIs expired =>
      held.2.dropHours (held.1.latest_of_head headIs) (by omega)).weaken awaits (fun _ => id)
      fun _ _ => id)
    ((keeps_reclaim_daily_steadily MadeUpAndReached.stable fun _ epoch held =>
      MadeUpAndReached.dropDays held epoch).weaken awaits (fun _ => id) fun _ => awaits)

/-! ### What a pass leaves of its own hours -/

/-- The day was made up, seen from the hours of some tables. -/
def MadeUpOf (layout : BucketLayout) (day : Nat) (stored : Tables) (log : Chronicle) : Prop :=
  log.LostDay (layout.bucketAt .daily day).start ∨ log.Made layout day stored

namespace MadeUpOf

variable {stored after : Tables}

/-- Steps that leave the rows of the days. -/
theorem record (held : MadeUpOf layout day stored log) (daily : after.daily = log.now.daily) :
    MadeUpOf layout day stored (log.record after) :=
  held.imp Chronicle.LostDay.record fun made =>
    made.record fun _ whole => daily ▸ whole

theorem stable : regime.Stable (Steadily layout (MadeUpOf layout day stored)) :=
  regime.stable_steadily fun _ _ held => held.2.record rfl

theorem keeps_reclaim (granularity : Granularity) :
    ((Coordinator.ofStore layout retention).reclaim granularity).Keeps regime
      (Steadily layout (MadeUpOf layout day stored))
      (Steadily layout (MadeUpOf layout day stored))
      fun _ => Steadily layout (MadeUpOf layout day stored) := by
  cases granularity with
  | hourly => exact keeps_reclaim_hourly_steadily stable fun _ _ _ held _ _ => held.2.record rfl
  | daily =>
    refine keeps_reclaim_daily_steadily stable fun log epoch held => ?_
    rcases held.2 with lost | made
    · exact Or.inl lost.record
    · exact made.dropDays held.1.sound.dailyKeyed (.refl _) epoch

end MadeUpOf

/-- A pass that comes back leaves the day made up, as seen from the hours it began with. -/
theorem keeps_runPass_madeUpOf {mayBeNone : Bool}
    {stored : Tables} (begins : mayBeNone = true → stored.HeadUpTo layout day) :
    (Coordinator.ofStore layout retention).runPass.Keeps regime (fun _ => True)
      (fun log => Steadily layout (MadeUpOrAwaits layout day mayBeNone) log ∧
        stored.SameHours log.now)
      fun _ => Steadily layout (MadeUpOf layout day stored) := by
  have reads (first second : Tables) (same : first.SameHours second)
      (held : stored.SameHours first) : stored.SameHours second := held.trans same
  have headSame (log : Chronicle) (same : stored.SameHours log.now)
      (upTo : stored.HeadUpTo layout day) : log.now.HeadUpTo layout day := fun head headIs =>
    upTo head (by rw [Tables.head?, ← same.1]; exact headIs)
  refine Coordinator.keeps_runPass
    ((keeps_refreshWindow_awaits.and (keeps_of_sameHours (asks_refreshWindow layout.clock)
      (fun _ refreshes _ _ _ given => given.sameHours_of_refreshes refreshes) reads)).weaken
      (fun _ _ => trivial) (fun _ => id) fun _ _ => id)
    ((keeps_foldDays_reached.and (keeps_of_sameHours BucketLayout.asks_foldDays
      (fun _ folds _ _ _ given => given.sameHours_of_folds folds) reads)).weaken
      (fun _ _ => trivial)
      (fun log held => ⟨⟨held.1, fun none => headSame log held.2 (begins none)⟩, held.2⟩)
      fun _ log held => ?_)
    ((MadeUpOf.keeps_reclaim .hourly).weaken (fun _ _ => trivial) (fun _ => id) fun _ _ => id)
    ((MadeUpOf.keeps_reclaim .daily).weaken (fun _ _ => trivial) (fun _ => id) fun _ _ => id)
  obtain ⟨⟨steady, held⟩, same⟩ := held
  exact ⟨steady, held.imp_right fun reached => reached.1.mono fun _ whole =>
    whole.of_sameHours same.symm⟩

/-! ### A pass that fails -/

/-- The first two steps of a pass stay at one head, and rows stay. -/
def AtHead (layout : BucketLayout) (head : Nat) (log : Chronicle) : Prop :=
  MadeUpOrUnclosed layout head log ∧ log.now.head? = some head ∧ log.now.daily ≠ []

namespace AtHead

variable {head : Nat}

theorem stable : regime.Stable (Steadily layout (AtHead layout head)) := by
  refine regime.stable_steadily fun log stored held =>
    ⟨MadeUpOrUnclosed.outlasts.arrives log stored ⟨held.1, held.2.1⟩, ?_⟩
  rw [Chronicle.now_record]
  exact held.2.2

theorem keeps_refreshWindow :
    (refreshWindow (storedBounds layout.clock)).Keeps regime
      (Steadily layout (AtHead layout head)) (Steadily layout (AtHead layout head))
      fun _ => Steadily layout (AtHead layout head) :=
  keeps_refreshWindow_steadily stable fun _ _ held =>
    ⟨held.2.1.record_same ⟨rfl, fun _ => Iff.rfl⟩ (fun _ member _ => member) id, by
      rw [Chronicle.now_record]
      exact held.2.2⟩

theorem keeps_foldDays :
    (layout.foldDays (storedBounds layout.clock)).Keeps regime
      (Steadily layout (AtHead layout head)) (Steadily layout (AtHead layout head))
      fun _ => Steadily layout (AtHead layout head) := by
  refine keeps_foldDays_steadily stable (fun log epoch held => ?_)
    fun log epoch rows held wrote sound => ?_
  · refine ⟨held.2.1.ensureDay epoch, ?_⟩
    rw [Chronicle.now_record, Tables.daily_ensure, Tables.head?, Tables.hourly_ensure]
    exact held.2.2
  · obtain ⟨unclosed, headIs, days⟩ := held.2
    refine ⟨MadeUpOrUnclosed.withDays ⟨held.1, unclosed⟩ wrote sound, ?_⟩
    rw [Chronicle.now_record]
    obtain ⟨row, member⟩ := List.exists_mem_of_ne_nil _ days
    obtain ⟨kept, keptMember, -⟩ := exists_key_putRows DailyRow.orderedBy_key member rows
    exact ⟨headIs, List.ne_nil_of_mem keptMember⟩

end AtHead

/-- Where the head is on the day, it is made up or still to come. -/
theorem MadeUpOrUnclosed.awaits {head : Nat} {mayBeNone : Bool}
    (held : Steadily layout (MadeUpOrUnclosed layout day) log) (headIs : log.now.head? = some head)
    (onDay : layout.bucketAt .daily head = layout.bucketAt .daily day)
    (days : log.now.daily = [] → mayBeNone = true) :
    Steadily layout (MadeUpOrAwaits layout day mayBeNone) log := by
  have after : (layout.bucketAt .daily head).start ≤ head :=
    EpochRange.start_aligned_le (layout.width_pos .daily) head
  have before : head < (layout.bucketAt .daily head).stop :=
    EpochRange.lt_stop_aligned (layout.width_pos .daily) head
  rw [onDay] at after before
  exact ⟨held.1, held.2.imp_right (Or.imp_right
    (held.1.awaits headIs after before days))⟩

/-- A pass fails while the window is refreshed or days are folded. -/
structure FailedPass (regime : Regime) (before failed : Chronicle) (head : Nat) : Prop where
  /-- There was a run before. -/
  runs : Runs regime .start before
  /-- It had come to a head. -/
  headIs : before.now.head? = some head
  /-- One of the first two steps failed. -/
  fails : ∃ (retention : RetentionPolicy) (step : PassStep) (cause : RollupError),
    (step = .rolling ∨ step = .daily) ∧
      (Coordinator.ofStore regime.layout retention).runPass.Ends regime before
        (.error (.error (.step step cause))) failed

namespace FailedPass

variable {before failed begun : Chronicle} {head : Nat}

/-- If there were rows, then the day of the head is still to come after the pass, or has been
made up. -/
theorem awaits (failure : FailedPass regime before failed head)
    (days : before.now.daily ≠ []) :
    Steadily regime.layout (MadeUpOrAwaits regime.layout head false) failed := by
  obtain ⟨runs, headIs, retention, step, cause, early, fails⟩ := failure
  obtain ⟨steady, unclosed⟩ := runs.madeUpOrUnclosed head
  obtain ⟨steady, unclosed, headIs, days⟩ := Coordinator.holds_of_failed_step
    AtHead.keeps_refreshWindow AtHead.keeps_foldDays fails early
    ⟨steady, unclosed, headIs, days⟩
  exact MadeUpOrUnclosed.awaits ⟨steady, unclosed⟩ headIs rfl fun none => absurd none days

/-- Wherever the head is, no day is passed by in a failing pass. -/
theorem unclosed (failure : FailedPass regime before failed head) :
    Steadily regime.layout (MadeUpOrUnclosed regime.layout head) failed := by
  obtain ⟨runs, -, retention, step, cause, -, fails⟩ := failure
  exact keeps_runPass_unclosed (runs.madeUpOrUnclosed head) fails

end FailedPass

/-! ### The day -/

/-- The rows of a day are the fold of the hours of a moment: those that are stored, and no others
than hours that were dropped. -/
structure MadeUpDay (layout : BucketLayout) (day : Nat) (stored final moment : Tables) :
    Prop where
  /-- The hours that are stored were there. -/
  included : ∀ hour ∈ hoursIn stored.hourly (layout.bucketAt .daily day), hour ∈ moment.hourly
  /-- The others have been dropped with their partitions. -/
  dropped : ∀ hour ∈ hoursIn moment.hourly (layout.bucketAt .daily day),
    hour ∈ stored.hourly ∨ layout.partitionAt .hourly hour.start.toNat ∉ stored.catalogue
  /-- The validator of each has exactly one row. -/
  rows : ∀ hour ∈ hoursIn moment.hourly (layout.bucketAt .daily day), ∃ row,
    final.daily.filter (fun row : DailyRow =>
      row.start = ((layout.bucketAt .daily day).start : Int) ∧
        row.validator = hour.validator) = [row] ∧
      row.IsFoldOf layout.clock moment.hourly (layout.bucketAt .daily day)

theorem MadeFrom.madeUpDay {stored moment final : Tables}
    (made : MadeFrom layout day stored final.daily moment) (sound : final.Sound layout) :
    MadeUpDay layout day stored final moment := by
  refine ⟨made.included, made.dropped, fun hour member => ?_⟩
  obtain ⟨row, rowMember, validator, summary⟩ := made.rows hour member
  exact ⟨row, sound.filter_daily_eq_singleton rowMember summary.start validator, summary⟩

/-- After a pass has failed, each later pass that comes back leaves the day of the head made up,
unless rows of the day were lost, if there were rows already or the head is still on the day. -/
theorem madeUp_of_failedPass {before failed begun final : Chronicle} {head : Nat}
    {report : PassReport}
    (failure : FailedPass regime before failed head) (later : Runs regime failed begun)
    (resumes : before.now.daily ≠ [] ∨ ∃ other, begun.now.head? = some other ∧
      regime.layout.bucketAt .daily other = regime.layout.bucketAt .daily head)
    (pass : (Coordinator.ofStore regime.layout retention).runPass.Ends regime begun (.ok report)
      final) :
    final.LostDay (regime.layout.bucketAt .daily head).start ∨
      final.Ever (MadeUpDay regime.layout head begun.now final.now) := by
  have same : begun.now.SameHours begun.now := .refl _
  have held : Steadily regime.layout (MadeUpOf regime.layout head begun.now) final := by
    rcases resumes with days | ⟨other, otherIs, onDay⟩
    · have held := later.steadily MadeUpOrAwaits.outlasts
        (fun _ _ => keeps_runPass_awaits) (failure.awaits days)
      have begins : false = true → begun.now.HeadUpTo regime.layout head := nofun
      exact keeps_runPass_madeUpOf begins ⟨held, same⟩ pass
    · have held := later.steadily MadeUpOrUnclosed.outlasts
        (fun _ _ => keeps_runPass_unclosed) failure.unclosed
      have begins : true = true → begun.now.HeadUpTo regime.layout head := by
        intro _ head headIs
        rw [otherIs, Option.some.injEq] at headIs
        rw [← headIs, onDay]
      exact keeps_runPass_madeUpOf begins
        ⟨MadeUpOrUnclosed.awaits held otherIs onDay fun _ => rfl, same⟩ pass
  refine held.2.imp_right ?_
  rintro (here | ⟨moment, member, earlier⟩)
  · exact Or.inl (here.madeUpDay held.1.sound)
  · exact Or.inr ⟨moment, member, earlier.madeUpDay held.1.sound⟩

end

/-! ### Days after an outage -/

/-- A pass failed, rows arrived since and were folded into hours, and the next pass came back. A
validator with a stored hour of the day has no row with the fold of its stored hours. -/
structure LeftOut (regime : Regime) (before failed begun final : Chronicle) (head : Nat) :
    Prop where
  /-- A pass failed. -/
  failure : FailedPass regime before failed head
  /-- Rows arrived and were folded. -/
  folded : ∃ (rows : List EpochRow) (after : Tables) (retention : RetentionPolicy)
    (report : FoldReport), regime.supplies failed.now rows ∧
      Given failed.now (.upsertEpochs rows) () after ∧
        (Coordinator.ofStore regime.layout retention).foldHourly.Ends regime (failed.record after)
          (.ok report) begun
  /-- The next pass came back. -/
  passed : ∃ (retention : RetentionPolicy) (report : PassReport),
    (Coordinator.ofStore regime.layout retention).runPass.Ends regime begun (.ok report) final
  /-- It left an hour out. -/
  missing : ∃ hour ∈ hoursIn begun.now.hourly (regime.layout.bucketAt .daily head),
    ∀ row ∈ final.now.daily, row.validator = hour.validator →
      ¬row.IsFoldOf regime.layout.clock begun.now.hourly (regime.layout.bucketAt .daily head)

/-- Any steps that are written down can be played when any rows may arrive. -/
theorem Act.fits_free (layout : BucketLayout) (retention : RetentionPolicy) (acts : List Act)
    (party : EmbeddedStore × Chronicle) : Act.Fits (.free layout) retention acts party := by
  induction acts generalizing party with
  | nil => exact trivial
  | cons act rest inductionHypothesis =>
    cases act with
    | supply rows => exact ⟨trivial, inductionHypothesis _⟩
    | fold => exact inductionHypothesis _
    | pass => exact inductionHypothesis _
    | place faults => exact inductionHypothesis _

namespace Outage

/-- A chain with three epochs to a day, each an hour and a partition of its own. -/
def layout : BucketLayout :=
  .ofNumbers ⟨0, 0⟩ 7200 4 1 1 1 (by decide)

/-- A store in which rows cannot be inserted into a table for a while. A pass fails then, and
afterwards rows arrive, they are folded into hours, and the next pass is run. -/
structure Scene where
  /-- The retention of all passes. -/
  retention : RetentionPolicy
  /-- What happens before the outage. -/
  earlier : List Act
  /-- The table. -/
  table : RollupTable
  /-- The rows that arrive. -/
  arrives : List EpochRow

/-- A validator is seen in some epochs. -/
def sees (epochs : List Int) : List EpochRow := epochs.map fun epoch => ⟨epoch, 7, .none⟩

/-- The step in which a pass failed. -/
def failedStep : Except Failure PassReport → Option PassStep
  | .error (.error (.step step _)) => some step
  | _ => none

theorem eq_error_of_failedStep {outcome : Except Failure PassReport} {step : PassStep}
    (failed : failedStep outcome = some step) :
    ∃ cause, outcome = .error (.error (.step step cause)) := by
  unfold failedStep at failed
  split at failed
  · cases failed
    exact ⟨_, rfl⟩
  · cases failed

theorem eq_ok_of_toBool {Error Value : Type} {outcome : Except Error Value}
    (ended : outcome.toBool = true) : ∃ value, outcome = .ok value := by
  cases outcome with
  | error error => cases ended
  | ok value => exact ⟨value, rfl⟩

namespace Scene

variable (scene : Scene)

/-- The store at the outage, and its chronicle. -/
def before : EmbeddedStore × Chronicle :=
  Act.playAll layout scene.retention
    (scene.earlier ++ [.place [⟨.rows scene.table, .insert, none⟩]]) (.fresh, .start)

/-- The pass that fails. -/
def failing : Except Failure PassReport × EmbeddedStore × Chronicle :=
  (Coordinator.ofStore layout scene.retention).runPass.runOn scene.before.1 scene.before.2

/-- The store after the outage. -/
def healed : EmbeddedStore := { scene.failing.2.1 with faults := [] }

/-- The rows arrive. -/
def arriving : Except StoreError Unit × EmbeddedStore :=
  scene.healed.answer (.upsertEpochs scene.arrives)

/-- The store with the rows, and its chronicle. -/
def arrived : EmbeddedStore × Chronicle :=
  (scene.arriving.2, scene.failing.2.2.record scene.arriving.2.tables)

/-- They are folded. -/
def folding : Except Failure FoldReport × EmbeddedStore × Chronicle :=
  (Coordinator.ofStore layout scene.retention).foldHourly.runOn scene.arrived.1 scene.arrived.2

/-- The next pass. -/
def passing : Except Failure PassReport × EmbeddedStore × Chronicle :=
  (Coordinator.ofStore layout scene.retention).runPass.runOn scene.folding.2.1 scene.folding.2.2

/-- A pass fails in one of its first two steps, and everything later comes back. -/
def Plays (head : Nat) : Prop :=
  scene.before.2.now.head? = some head ∧
    (failedStep scene.failing.1 = some .rolling ∨ failedStep scene.failing.1 = some .daily) ∧
      scene.arriving.1.toBool = true ∧ scene.folding.1.toBool = true ∧
        scene.passing.1.toBool = true

instance (head : Nat) : Decidable (scene.Plays head) := inferInstanceAs (Decidable (_ ∧ _))

/-- No row of the day has the mark of the stored hours of its validator. -/
def Misses (head : Nat) : Prop :=
  hoursIn scene.folding.2.2.now.hourly (layout.bucketAt .daily head) ≠ [] ∧
    ∀ row ∈ scene.passing.2.2.now.daily, row.start = (layout.bucketAt .daily head).start →
      row.metrics.slashed ≠ (ownHours scene.folding.2.2.now.hourly (layout.bucketAt .daily head)
        row.validator).any (·.metrics.slashed)

instance (head : Nat) : Decidable (scene.Misses head) := inferInstanceAs (Decidable (_ ∧ _))

variable {scene} {head : Nat}

theorem runs_before :
    Runs (.free layout) .start scene.before.2 ∧ scene.before.2.now = scene.before.1.tables :=
  Act.runs_playAll trivial .none rfl (Act.fits_free _ _ _ _)

theorem now_failing : scene.failing.2.2.now = scene.failing.2.1.tables :=
  now_run _ runs_before.2

theorem failedPass (plays : scene.Plays head) :
    FailedPass (.free layout) scene.before.2 scene.failing.2.2 head := by
  obtain ⟨headIs, failed, -⟩ := plays
  refine ⟨runs_before.1, headIs, scene.retention, ?_⟩
  rcases failed with rolling | daily
  · obtain ⟨cause, outcome⟩ := eq_error_of_failedStep rolling
    exact ⟨.rolling, cause, Or.inl rfl, Procedure.ends_runOn _ runs_before.2 outcome⟩
  · obtain ⟨cause, outcome⟩ := eq_error_of_failedStep daily
    exact ⟨.daily, cause, Or.inr rfl, Procedure.ends_runOn _ runs_before.2 outcome⟩

theorem now_arrived : scene.arrived.2.now = scene.arrived.1.tables := Chronicle.now_record _ _

theorem given_arriving (plays : scene.Plays head) :
    Given scene.failing.2.2.now (.upsertEpochs scene.arrives) () scene.arriving.2.tables := by
  obtain ⟨-, -, arrived, -⟩ := plays
  rcases scene.healed.answer_cases (.upsertEpochs scene.arrives) with
    ⟨answer, -, given⟩ | ⟨error, failed⟩
  · rw [now_failing]
    exact given
  · unfold arriving at arrived
    rw [failed] at arrived
    cases arrived

theorem ends_folding (plays : scene.Plays head) :
    ∃ report, (Coordinator.ofStore layout scene.retention).foldHourly.Ends (.free layout)
      scene.arrived.2 (.ok report) scene.folding.2.2 := by
  obtain ⟨report, outcome⟩ := eq_ok_of_toBool plays.2.2.2.1
  exact ⟨report, Procedure.ends_runOn _ now_arrived outcome⟩

theorem ends_passing (plays : scene.Plays head) :
    ∃ report, (Coordinator.ofStore layout scene.retention).runPass.Ends (.free layout)
      scene.folding.2.2 (.ok report) scene.passing.2.2 := by
  obtain ⟨report, outcome⟩ := eq_ok_of_toBool plays.2.2.2.2
  exact ⟨report, Procedure.ends_runOn _ (now_run _ now_arrived) outcome⟩

theorem leftOut (plays : scene.Plays head) (misses : scene.Misses head) :
    LeftOut (.free layout) scene.before.2 scene.failing.2.2 scene.folding.2.2 scene.passing.2.2
      head where
  failure := failedPass plays
  folded := by
    obtain ⟨report, ends⟩ := ends_folding plays
    exact ⟨scene.arrives, _, scene.retention, report, trivial, given_arriving plays, ends⟩
  passed := ⟨scene.retention, ends_passing plays⟩
  missing := by
    obtain ⟨hour, member⟩ := List.exists_mem_of_ne_nil _ misses.1
    exact ⟨hour, member, fun row rowMember _ fold =>
      misses.2 row rowMember fold.start fold.slashed⟩

end Scene

/-- The first day is folded. The pass of the second day fails, and then another epoch of it
arrives and one of the day after. -/
def resumed : Scene where
  retention := ⟨100, none⟩
  earlier := [.supply (sees [0]), .fold, .pass, .supply (sees [3]), .fold]
  table := .daily
  arrives := sees [4, 7]

theorem evaluated_resumed :
    resumed.Plays 3 ∧ resumed.before.2.now.daily ≠ [] ∧
      ¬resumed.passing.2.2.LostDay (layout.bucketAt .daily 3).start := by
  decide +kernel

/-- The very first pass fails, and the head goes on to the next day. -/
def skipped : Scene where
  retention := ⟨100, none⟩
  earlier := [.supply (sees [0]), .fold]
  table := .daily
  arrives := sees [3]

/-- A day is folded. A pass fails, the head goes on by two days, and days are kept for one
epoch. -/
def expired : Scene where
  retention := ⟨100, some 1⟩
  earlier := [.supply (sees [0]), .fold, .pass]
  table := .rolling
  arrives := sees [6]

/-- A day is folded completely. Hours are kept for one epoch, so the first hour of the day, in
which the validator was slashed, is dropped. Then a pass fails. -/
def dropped : Scene where
  retention := ⟨1, none⟩
  earlier := [.supply (⟨0, 7, { Metrics.none with slashed := true }⟩ :: sees [1, 2]), .fold, .pass]
  table := .rolling
  arrives := sees [3]

theorem evaluated_leftOut :
    (skipped.Plays 0 ∧ skipped.Misses 0 ∧ skipped.before.2.now.daily = []) ∧
      (expired.Plays 0 ∧ expired.Misses 0 ∧ expired.before.2.now.daily ≠ [] ∧
        expired.passing.2.2.LostDay (layout.bucketAt .daily 0).start) ∧
      dropped.Plays 2 ∧ dropped.Misses 2 ∧ dropped.before.2.now.daily ≠ [] ∧
        ¬dropped.passing.2.2.LostDay (layout.bucketAt .daily 2).start := by
  decide +kernel

theorem later_resumed :
    Runs (.free layout) resumed.failing.2.2 resumed.folding.2.2 := by
  obtain ⟨report, ends⟩ := Scene.ends_folding evaluated_resumed.1
  exact .fold (.supply .none trivial (Scene.given_arriving evaluated_resumed.1)) trivial ends

end Outage

/-- The second day is made up by the pass that comes back on the third one. -/
theorem madeUp_of_failedPass_resumed :
    Outage.resumed.passing.2.2.Ever (MadeUpDay Outage.layout 3 Outage.resumed.folding.2.2.now
      Outage.resumed.passing.2.2.now) := by
  obtain ⟨plays, days, kept⟩ := Outage.evaluated_resumed
  obtain ⟨report, pass⟩ := Outage.Scene.ends_passing plays
  exact (madeUp_of_failedPass (Outage.Scene.failedPass plays) Outage.later_resumed
    (Or.inl days) pass).resolve_left kept

/-- When a pass fails, the next one that comes back can leave out an hour of the day of the
head: if there were no days to resume from, if the rows of the day expire, and if the day was
complete before some of its hours were dropped. -/
theorem exists_leftOut :
    (∃ before failed begun final head,
      LeftOut (.free Outage.layout) before failed begun final head ∧ before.now.daily = []) ∧
    (∃ before failed begun final head,
      LeftOut (.free Outage.layout) before failed begun final head ∧ before.now.daily ≠ [] ∧
        final.LostDay (Outage.layout.bucketAt .daily head).start) ∧
    ∃ before failed begun final head,
      LeftOut (.free Outage.layout) before failed begun final head ∧ before.now.daily ≠ [] ∧
        ¬final.LostDay (Outage.layout.bucketAt .daily head).start := by
  obtain ⟨⟨skips, missesFirst, none⟩, ⟨expires, missesSecond, days, lost⟩,
    drops, missesThird, others, kept⟩ := Outage.evaluated_leftOut
  exact ⟨⟨_, _, _, _, 0, Outage.Scene.leftOut skips missesFirst, none⟩,
    ⟨_, _, _, _, 0, Outage.Scene.leftOut expires missesSecond, days, lost⟩,
    ⟨_, _, _, _, 2, Outage.Scene.leftOut drops missesThird, others, kept⟩⟩

end EpochRollup
