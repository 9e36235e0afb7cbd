/-
This file takes what is said of steady tables through the operations of the engine. A fact
about a chronicle that outlasts the steps of a fold of hours (`Outlasts`) outlasts the fold,
since the fold never writes behind the latest hour. Folds of days and reclaims have a rule of
the same kind each. That the tables are steady needs no fact at all, and so they are steady at
the end of every run, whatever arrives and whatever fails.
-/

import EpochRollup.Proofs.Steady
import EpochRollup.Proofs.Walk

namespace EpochRollup

variable {regime : Regime} {layout : BucketLayout} {holds : Chronicle → Prop}

/-- The tables are steady and something holds of their chronicle. -/
def Steadily (layout : BucketLayout) (holds : Chronicle → Prop) (log : Chronicle) : Prop :=
  log.now.Steady layout ∧ holds log

theorem Steadily.record {log : Chronicle} {after : Tables} (steady : after.Steady layout)
    (held : holds (log.record after)) : Steadily layout holds (log.record after) :=
  ⟨(log.now_record after).symm ▸ steady, held⟩

/-- What holds steadily is stable if it holds after arrivals. -/
theorem Regime.stable_steadily (regime : Regime)
    (arrives : ∀ log stored, Steadily layout holds log → holds (log.record
      { log.now with epochs := putRows EpochRow.before stored log.now.epochs })) :
    regime.Stable (Steadily layout holds) := by
  intro log rows after held _ given
  obtain ⟨stored, -, rfl⟩ := given.upsertEpochs
  exact .record (held.1.arrive stored) (arrives log stored held)

/-- What holds does not end when rows arrive and when epochs are folded into hours. -/
structure Outlasts (layout : BucketLayout) (holds : Chronicle → Prop) : Prop where
  /-- Rows arrive. -/
  arrives : ∀ log stored, Steadily layout holds log →
    holds (log.record { log.now with epochs := putRows EpochRow.before stored log.now.epochs })
  /-- The partition of an open hour is ensured. -/
  ensures : ∀ log (start : Nat), Steadily layout holds log → IsHourStart layout.hourlyWidth start →
    log.now.frontier < start + layout.hourlyWidth →
    holds (log.record (log.now.ensure (layout.partitionAt .hourly start)))
  /-- The rows of an open hour are written. -/
  writes : ∀ log start last rows, Steadily layout holds log →
    log.now.WritesHours layout start last rows → holds (log.record (log.now.withHours rows))

namespace Outlasts

theorem anything (layout : BucketLayout) : Outlasts layout fun _ => True :=
  ⟨fun _ _ _ => trivial, fun _ _ _ _ _ => trivial, fun _ _ _ _ _ _ => trivial⟩

theorem stable (outlasts : Outlasts layout holds) (regime : Regime) :
    regime.Stable (Steadily layout holds) := regime.stable_steadily outlasts.arrives

end Outlasts

/-! ### A fold of hours -/

/-- Where a fold of hours stands before the bucket of a start: the latest hour is not after the
bucket, and if it has closed the bucket, then the fold knows that. -/
structure HoursUpTo (layout : BucketLayout) (holds : Chronicle → Prop) (latest : Option EpochRange)
    (start : Nat) (log : Chronicle) : Prop where
  /-- What holds all the time. -/
  held : Steadily layout holds log
  /-- No hour covers more than the bucket. -/
  near : log.now.frontier ≤ start + layout.hourlyWidth
  /-- The bucket is open, unless it is the latest one that was read. -/
  full : log.now.frontier = start + layout.hourlyWidth → ∃ range, latest = some range ∧
    range.start = start ∧ start + layout.hourlyWidth ≤ range.stop

namespace HoursUpTo

variable {log : Chronicle} {latest : Option EpochRange} {start : Nat}

/-- Past a bucket that no hour covers more than, the next one is open. -/
theorem past (held : Steadily layout holds log)
    (near : log.now.frontier ≤ start + layout.hourlyWidth) :
    HoursUpTo layout holds latest (start + layout.hourlyWidth) log := by
  have positive := layout.hourlyWidth_pos
  refine ⟨held, ?_, fun same => ?_⟩
  · omega
  · omega

/-- A bucket that is folded is open. -/
theorem isOpen {head epoch : Nat}
    (upTo : HoursUpTo layout holds latest (layout.bucketAt .hourly epoch).start log)
    (folds : FoldsAt layout .hourly latest head epoch) :
    log.now.frontier < (layout.bucketAt .hourly epoch).start + layout.hourlyWidth := by
  refine lt_of_le_of_ne upTo.near fun same => ?_
  have notClosed := folds.isOpen (layout.bucketAt .hourly epoch).stop rfl
  have closed : isClosed latest (layout.bucketAt .hourly epoch)
      (layout.bucketAt .hourly epoch).stop = true := isClosed_iff.mpr (upTo.full same)
  rw [closed] at notClosed
  cases notClosed

/-- Where a fold begins. -/
theorem resume (held : Steadily layout holds log)
    (latestIs : latest = log.now.lastHourly?.map EmbeddedStore.boundsOfStored) (first : Nat)
    (firstIs : ∀ range, latest = some range → first = range.start) :
    HoursUpTo layout holds latest (layout.bucketAt .hourly first).start log := by
  have positive := layout.hourlyWidth_pos
  cases found : log.now.lastHourly? with
  | none =>
    have empty := Tables.frontier_of_empty (Tables.lastHourly?_eq_none.mp found)
    refine ⟨held, ?_, fun same => ?_⟩
    · omega
    · omega
  | some bounds =>
    rw [found] at latestIs
    obtain ⟨start, hour⟩ := held.1.exists_latest fun empty => by
      rw [Tables.lastHourly?_eq_none.mpr empty] at found
      cases found
    rw [found.symm.trans hour.found] at latestIs
    have nonneg := hour.starts.nonneg
    have near := hour.near
    obtain rfl : first = start.toNat := firstIs _ latestIs
    have natural : ((start.toNat : Nat) : Int) = start := Int.toNat_of_nonneg nonneg
    have begins : (layout.bucketAt .hourly start.toNat).start = start.toNat :=
      BucketLayout.start_bucketAt_of_isHourStart (by rw [natural]; exact hour.starts)
    rw [begins]
    refine ⟨held, by omega, fun same => ⟨_, latestIs, rfl, ?_⟩⟩
    show start.toNat + layout.hourlyWidth ≤ log.now.frontier.toNat
    omega

end HoursUpTo

namespace Outlasts

/-- A fold of hours walks with what outlasts it. -/
theorem foldWalk (outlasts : Outlasts layout holds) (latest : Option EpochRange) (head : Nat) :
    FoldWalk regime layout .hourly latest head (Steadily layout holds)
      (HoursUpTo layout holds latest) where
  stable := by
    intro start log rows after upTo allowed given
    have held := outlasts.stable regime log rows after upTo.held allowed given
    obtain ⟨stored, -, rfl⟩ := given.upsertEpochs
    refine ⟨held, ?_, ?_⟩ <;> rw [Chronicle.now_record]
    · exact upTo.near
    · exact upTo.full
  failing := fun _ _ upTo => upTo.held
  skip := fun _ _ _ _ _ upTo => HoursUpTo.past upTo.held upTo.near
  ensure := by
    intro epoch log folds upTo
    have opened := upTo.isOpen folds
    have lasting := outlasts.ensures log _ upTo.held (layout.isHourStart_bucketAt epoch) opened
    rw [layout.partitionAt_start] at lasting
    refine ⟨.record (upTo.held.1.ensure .hourly epoch) lasting, ?_, fun same => ?_⟩
    · rw [Chronicle.now_record, Tables.frontier_ensure]
      exact upTo.near
    · rw [Chronicle.now_record, Tables.frontier_ensure] at same
      exact upTo.full same
  fold := by
    intro epoch log answer after folds present upTo given
    have sound := upTo.held.1.sound.foldHour epoch given
    show HoursUpTo layout holds latest
      ((layout.bucketAt .hourly epoch).start + layout.hourlyWidth) _
    rcases FoldsBucket.given_cases rfl (layout.stop_bucketAt_hourly epoch) given with
      ⟨rfl, -⟩ | ⟨last, rows, wrote, rfl⟩
    · rw [Chronicle.record_now]
      exact HoursUpTo.past upTo.held upTo.near
    · have writes : log.now.WritesHours layout (layout.bucketAt .hourly epoch).start last rows :=
        { steady := upTo.held.1
          starts := layout.isHourStart_bucketAt epoch
          listed := by
            rw [layout.partitionAt_start]
            exact Tables.hasPartition_hourly_iff.mp present
          isOpen := upTo.isOpen folds
          wrote := wrote }
      refine HoursUpTo.past (.record (writes.steady_after sound)
        (outlasts.writes log _ last rows upTo.held writes)) ?_
      rw [Chronicle.now_record, writes.frontier]
      exact writes.frontier_le.2

theorem keeps_foldHours (outlasts : Outlasts layout holds) :
    (layout.foldHours (storedBounds layout.clock)).Keeps regime (Steadily layout holds)
      (Steadily layout holds) fun _ => Steadily layout holds := by
  have stable := outlasts.stable regime
  have hoursStable (read : List HourlyRow → Prop) :
      regime.Stable fun log => read log.now.hourly :=
    regime.stable_besidesEpochs fun hourly _ _ => read hourly
  have walk (latest : Option EpochRange) (first head : Nat)
      (firstIs : ∀ range, latest = some range → first = range.start) :
      (layout.foldThrough .hourly latest first head).Keeps regime (Steadily layout holds)
        (fun log => Steadily layout holds log ∧
          latest = log.now.lastHourly?.map EmbeddedStore.boundsOfStored)
        fun _ => Steadily layout holds :=
    ((outlasts.foldWalk latest head).keeps_foldThrough first).weaken (fun _ => id)
      (fun log held => HoursUpTo.resume held.1 held.2 first firstIs)
      fun _ log ⟨_, _, upTo⟩ => upTo.held
  refine Procedure.keeps_bind _ (keeps_storedBounds layout.clock .lastEpoch stable fun _ => id)
    fun answer => ?_
  cases answer with
  | none => exact Procedure.keeps_pure fun log held => held.1
  | some head =>
    refine Procedure.keeps_bind _
      ((keeps_storedBounds layout.clock .lastHourly stable fun _ => id).weaken (fun _ => id)
        (fun log held => held.1) fun _ _ => id) fun latest => ?_
    cases latest with
    | some latest =>
      exact walk (some latest) latest.start head fun range same => by cases same; rfl
    | none =>
      refine Procedure.keeps_bind _ (keeps_storedBounds layout.clock .firstEpoch
        (stable.and (hoursStable fun hourly => none =
          (Tables.lastHourly? { Tables.empty with hourly }).map EmbeddedStore.boundsOfStored))
        fun log held => held.1) fun first => ?_
      exact (walk none (first.getD head) head nofun).weaken (fun _ => id)
        (fun log held => held.1) fun _ _ => id

end Outlasts

/-! ### The steps of a pass -/

/-- A refresh keeps what a new window keeps. -/
theorem keeps_refreshWindow_steadily (stable : regime.Stable (Steadily layout holds))
    (refreshes : ∀ log rolling, Steadily layout holds log →
      holds (log.record { log.now with rolling })) :
    (refreshWindow (storedBounds layout.clock)).Keeps regime (Steadily layout holds)
      (Steadily layout holds) fun _ => Steadily layout holds := by
  refine (asks_refreshWindow layout.clock).keeps stable ?_
  intro call asked log answer after held given
  obtain ⟨rolling, rfl⟩ := given.of_refreshes asked
  exact .record (held.1.refresh rolling) (refreshes log rolling held)

/-- A fold of days keeps what the partitions and the rows of days keep. -/
theorem keeps_foldDays_steadily (stable : regime.Stable (Steadily layout holds))
    (ensures : ∀ log epoch, Steadily layout holds log →
      holds (log.record (log.now.ensure (layout.partitionAt .daily epoch))))
    (writes : ∀ log epoch rows, Steadily layout holds log →
      DayRows layout.clock log.now.hourly (layout.bucketAt .daily epoch) rows →
      (log.now.withDays rows).Sound layout → holds (log.record (log.now.withDays rows))) :
    (layout.foldDays (storedBounds layout.clock)).Keeps regime (Steadily layout holds)
      (Steadily layout holds) fun _ => Steadily layout holds := by
  refine BucketLayout.asks_foldDays.keeps stable ?_
  intro call folds log answer after held given
  cases folds with
  | look looks =>
    rw [given.of_looks looks, Chronicle.record_now]
    exact held
  | ensure epoch =>
    rw [given.ensurePartition.2]
    exact .record (held.1.ensure .daily epoch) (ensures log epoch held)
  | fold epoch =>
    have sound := held.1.sound.foldDay epoch given
    rcases given.foldDay_cases with ⟨rfl, -⟩ | ⟨rows, wrote, rfl⟩
    · rw [Chronicle.record_now]
      exact held
    · exact .record (held.1.withDays wrote sound) (writes log epoch rows held wrote sound)

section

variable {retention : RetentionPolicy}

/-- A reclaim keeps what the drop of a partition keeps that ends as far before the latest hour
as the horizon says. -/
theorem keeps_reclaim_steadily (granularity : Granularity)
    (stable : regime.Stable (Steadily layout holds))
    (drops : ∀ log horizon head epoch, Steadily layout holds log →
      retention.horizon granularity = some horizon → log.now.head? = some head →
      (layout.partitionRangeAt granularity epoch).stop + horizon ≤ head →
      holds (log.record (log.now.drop (layout.partitionAt granularity epoch)))) :
    ((Coordinator.ofStore layout retention).reclaim granularity).Keeps regime
      (Steadily layout holds) (Steadily layout holds) fun _ => Steadily layout holds := by
  refine Coordinator.keeps_reclaim granularity stable (fun _ => id) (fun _ held _ => held)
    fun horizon head oldest horizonIs old => ?_
  have kept : (layout.reclaimExpired granularity (head - horizon) oldest).Keeps regime
      (fun log => Steadily layout holds log ∧ log.now.head? = some head) _ fun _ => _ :=
    (BucketLayout.asks_reclaimFrom _ _ _ [] 0).keeps
      (stable.and (regime.stable_besidesEpochs fun hourly _ _ =>
        (hourly.map (·.start)).max?.map epochOfStored = some head))
      fun call expires log answer after held given => by
        obtain ⟨held, headIs⟩ := held
        cases expires with
        | drop epoch reached expired =>
          have lasting := drops log horizon head epoch held horizonIs headIs (by omega)
          rw [given.dropPartition.2]
          cases granularity with
          | hourly =>
            have latest := held.1.latest_of_head headIs
            have apart : ((layout.partitionRangeAt .hourly epoch).stop : Int) ≤ head := by omega
            refine ⟨.record (held.1.dropHours latest apart) lasting, ?_⟩
            rw [Chronicle.now_record]
            exact (Tables.Steady.latest_dropHours latest apart).1.head?
          | daily =>
            refine ⟨.record (held.1.dropDays epoch) lasting, ?_⟩
            rw [Chronicle.now_record]
            exact headIs
  exact kept.weaken (fun _ held => held.1) (fun _ held => held.1) fun _ _ held => held.1

/-- A reclaim of hours keeps what the drop of a partition keeps that ends before the hours that
are kept. -/
theorem keeps_reclaim_hourly_steadily (stable : regime.Stable (Steadily layout holds))
    (drops : ∀ log head epoch, Steadily layout holds log → log.now.head? = some head →
      (layout.partitionRangeAt .hourly epoch).stop + retention.hourly ≤ head →
      holds (log.record (log.now.drop (layout.partitionAt .hourly epoch)))) :
    ((Coordinator.ofStore layout retention).reclaim .hourly).Keeps regime (Steadily layout holds)
      (Steadily layout holds) fun _ => Steadily layout holds :=
  keeps_reclaim_steadily .hourly stable fun log _ head epoch held horizonIs headIs expired =>
    drops log head epoch held headIs (by cases horizonIs; exact expired)

/-- A reclaim of days keeps what the drop of any partition of days keeps. -/
theorem keeps_reclaim_daily_steadily (stable : regime.Stable (Steadily layout holds))
    (drops : ∀ log epoch, Steadily layout holds log →
      holds (log.record (log.now.drop (layout.partitionAt .daily epoch)))) :
    ((Coordinator.ofStore layout retention).reclaim .daily).Keeps regime (Steadily layout holds)
      (Steadily layout holds) fun _ => Steadily layout holds :=
  keeps_reclaim_steadily .daily stable fun log _ _ epoch held _ _ _ => drops log epoch held

end

/-! ### Runs -/

/-- What outlasts folds of hours and is kept by passes, runs keep. -/
theorem Runs.steadily {log final : Chronicle} (runs : Runs regime log final)
    (outlasts : Outlasts regime.layout holds)
    (pass : ∀ retention, regime.retains retention →
      (Coordinator.ofStore regime.layout retention).runPass.Keeps regime
        (Steadily regime.layout holds) (Steadily regime.layout holds)
        fun _ => Steadily regime.layout holds)
    (held : Steadily regime.layout holds log) : Steadily regime.layout holds final :=
  runs.keeps (outlasts.stable regime) (fun _ _ => outlasts.keeps_foldHours) pass held

theorem keeps_runPass_steady {retention : RetentionPolicy} :
    (Coordinator.ofStore layout retention).runPass.Keeps regime
      (Steadily layout fun _ => True) (Steadily layout fun _ => True)
      fun _ => Steadily layout fun _ => True :=
  have stable := (Outlasts.anything layout).stable regime
  Coordinator.keeps_runPass (keeps_refreshWindow_steadily stable fun _ _ _ => trivial)
    (keeps_foldDays_steadily stable (fun _ _ _ => trivial) fun _ _ _ _ _ _ => trivial)
    (keeps_reclaim_hourly_steadily stable fun _ _ _ _ _ _ => trivial)
    (keeps_reclaim_daily_steadily stable fun _ _ _ => trivial)

/-- The tables are steady at the end of every run. -/
theorem Runs.steady {final : Chronicle} (runs : Runs regime .start final) :
    final.now.Steady regime.layout :=
  (runs.steadily (Outlasts.anything _) (fun _ _ => keeps_runPass_steady)
    ⟨Tables.Steady.empty, trivial⟩).1

end EpochRollup
