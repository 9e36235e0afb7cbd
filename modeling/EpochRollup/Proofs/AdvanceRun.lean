/-
This file takes the advance of the tables through the operations of the engine. Each step
advances, so what is left to show is that steps are taken only where they may be.

A fold of days walks from the latest day with rows up to the day of the latest hour (`DaysUpTo`),
and no day that it writes is finished. When it comes back, the day of the latest hour has rows
(`UpToDate`); they lie behind every partition that the reclaims after it may drop. Where a pass
fails before that, the rows of days are still backed by the hours that are left (`Backing`), so
the next fold may come again.
-/

import EpochRollup.Proofs.HeadDay

namespace EpochRollup

variable {regime : Regime} {layout : BucketLayout} {granularity : Granularity} {log : Chronicle}
  {after : Tables}

/-! ### Chronicles that advance -/

namespace Chronicle

/-- Tables advance from those before them. -/
def Advanced (log : Chronicle) (layout : BucketLayout) : Prop :=
  (log.now :: log.past).IsChain fun after before => before.Advances layout after

theorem Advanced.record (advanced : log.Advanced layout)
    (advances : log.now.Advances layout after) : (log.record after).Advanced layout := by
  unfold Chronicle.record
  split
  · exact advanced
  · exact List.isChain_cons_cons.mpr ⟨advances, advanced⟩

end Chronicle

/-- A place that was reached is reached later. -/
theorem Tables.reaches_of_mem {tables earlier : Tables} {past : List Tables}
    (advanced : (tables :: past).IsChain fun after before => before.Advances layout after)
    (member : earlier ∈ tables :: past) {place : Int ×ₗ Int}
    (reached : earlier.Reaches granularity place) : tables.Reaches granularity place := by
  induction past generalizing tables with
  | nil => exact List.mem_singleton.mp member ▸ reached
  | cons before older inductionHypothesis =>
    obtain ⟨advances, rest⟩ := List.isChain_cons_cons.mp advanced
    rcases List.mem_cons.mp member with rfl | there
    · exact reached
    · exact advances.reaches _ _ (inductionHypothesis rest there)

/-! ### Any moment -/

/-- The tables have advanced, and no row of a day can shrink. -/
structure Backing (layout : BucketLayout) (log : Chronicle) : Prop where
  /-- The tables have advanced. -/
  advanced : log.Advanced layout
  /-- Rows of days are backed. -/
  backed : log.now.Backed layout

namespace Backing

theorem start : Backing layout .start := ⟨.singleton _, Tables.Backed.empty⟩

theorem record (backing : Backing layout log) (advances : log.now.Advances layout after)
    (backed : after.Backed layout) : Backing layout (log.record after) :=
  ⟨backing.advanced.record advances, (log.now_record after).symm ▸ backed⟩

theorem record_sameRows (backing : Backing layout log) (hourly : after.hourly = log.now.hourly)
    (daily : after.daily = log.now.daily) : Backing layout (log.record after) :=
  backing.record (.of_sameRows hourly daily) (backing.backed.of_sameRows hourly daily)

theorem record_ensure (backing : Backing layout log) (partition : Partition) :
    Backing layout (log.record (log.now.ensure partition)) :=
  backing.record_sameRows (Tables.hourly_ensure _ _) (Tables.daily_ensure _ _)

theorem outlasts : Outlasts layout (Backing layout) where
  arrives := fun _ _ held => held.2.record_sameRows rfl rfl
  ensures := fun _ _ held _ _ => held.2.record_ensure _
  writes := fun _ _ _ _ held writes =>
    held.2.record writes.advances (held.2.backed.withHours writes)

end Backing

/-! ### A fold of days -/

/-- Where a fold of days stands before the day that begins at a start: rows are of earlier days,
or they are of the latest day that was read and the fold knows what they cover. -/
structure DaysUpTo (layout : BucketLayout) (latest : Option EpochRange) (head start : Nat)
    (log : Chronicle) : Prop where
  /-- What holds all the time. -/
  backing : Backing layout log
  /-- The head that was read. -/
  headIs : log.now.head? = some head
  /-- No row is later. -/
  behind : ∀ row ∈ log.now.daily, row.start < start ∨ row.start = start ∧
    ∃ range, latest = some range ∧ range.start = start ∧ row.stop ≤ range.stop
  /-- The latest day that was read has rows. -/
  stored : ∀ range, latest = some range → ∃ row ∈ log.now.daily, row.start = range.start
  /-- The day of the head has rows, or its turn comes. -/
  comes : start ≤ (layout.bucketAt .daily head).start ∨
    ∃ row ∈ log.now.daily, row.start = (layout.bucketAt .daily head).start

namespace DaysUpTo

variable {latest : Option EpochRange} {head start epoch : Nat}

/-- What is known of the head is known apart from the rows behind the fold. -/
theorem headComes (upTo : DaysUpTo layout latest head start log) :
    HeadComes layout latest head start log :=
  ⟨upTo.backing.backed, upTo.headIs, upTo.stored, upTo.comes⟩

theorem of_headComes (comes : HeadComes layout latest head start log)
    (advanced : log.Advanced layout)
    (behind : ∀ row ∈ log.now.daily, row.start < start ∨ row.start = start ∧
      ∃ range, latest = some range ∧ range.start = start ∧ row.stop ≤ range.stop) :
    DaysUpTo layout latest head start log :=
  ⟨⟨advanced, comes.backed⟩, comes.headIs, behind, comes.stored, comes.comes⟩

theorem record_sameRows (upTo : DaysUpTo layout latest head start log)
    (hourly : after.hourly = log.now.hourly) (daily : after.daily = log.now.daily) :
    DaysUpTo layout latest head start (log.record after) := by
  refine of_headComes (upTo.headComes.record_sameRows hourly daily)
    (upTo.backing.record_sameRows hourly daily).advanced ?_
  rw [Chronicle.now_record, daily]
  exact upTo.behind

/-- A day that is folded is not finished. -/
theorem not_finished (upTo : DaysUpTo layout latest head (layout.bucketAt .daily epoch).start log)
    (folds : FoldsAt layout .daily latest head epoch) :
    ¬log.now.Finished layout .daily epoch := by
  rintro ⟨row, held, ofTable, reached⟩
  cases row with
  | hourly row => cases ofTable
  | daily row =>
    simp only [PartitionedRow.start, PartitionedRow.stop] at reached
    rcases upTo.behind row held with earlier | ⟨here, range, latestIs, begins, covered⟩
    · omega
    · obtain ⟨closesAt, closing⟩ := folds.closes
      have notClosed := folds.isOpen closesAt closing
      obtain rfl := layout.closesAt_eq_ok closing
      have closed : isClosed latest (layout.bucketAt .daily epoch)
          (layout.closesBy .daily epoch) = true :=
        isClosed_iff.mpr ⟨range, latestIs, begins, by omega⟩
      rw [closed] at notClosed
      cases notClosed

theorem start_le (upTo : DaysUpTo layout latest head start log) {row : DailyRow}
    (member : row ∈ log.now.daily) : row.start ≤ start :=
  (upTo.behind row member).elim Int.le_of_lt fun same => Int.le_of_eq same.1

/-- The fold goes on past a day when the head does. -/
theorem past (upTo : DaysUpTo layout latest head (layout.bucketAt .daily epoch).start log)
    (comes : HeadComes layout latest head (layout.bucketAt .daily epoch).stop log) :
    DaysUpTo layout latest head (layout.bucketAt .daily epoch).stop log := by
  refine of_headComes comes upTo.backing.advanced fun row member => Or.inl ?_
  have first := layout.start_bucketAt_le .daily epoch
  have past := layout.lt_stop_bucketAt .daily epoch
  have notAfter := upTo.start_le member
  omega

/-- The rows of a day are written. -/
theorem withDays {rows : List DailyRow}
    (held : Steadily layout (DaysUpTo layout latest head (layout.bucketAt .daily epoch).start) log)
    (folds : FoldsAt layout .daily latest head epoch)
    (wrote : DayRows layout.clock log.now.hourly (layout.bucketAt .daily epoch) rows)
    (sound : (log.now.withDays rows).Sound layout) :
    DaysUpTo layout latest head (layout.bucketAt .daily epoch).stop
      (log.record (log.now.withDays rows)) := by
  obtain ⟨steady, upTo⟩ := held
  have first := layout.start_bucketAt_le .daily epoch
  have past := layout.lt_stop_bucketAt .daily epoch
  have advances :=
    steady.advances_withDays upTo.backing.backed (upTo.not_finished folds) wrote sound
  refine of_headComes (HeadComes.withDays ⟨steady, upTo.headComes⟩ wrote sound)
    (upTo.backing.advanced.record advances) ?_
  rw [Chronicle.now_record]
  intro row member
  rcases mem_of_mem_putRows member with new | old
  · have begins := (wrote.written row new).start
    exact Or.inl (by omega)
  · have notAfter := upTo.start_le old
    exact Or.inl (by omega)

/-- A fold walks up to the day of the head. -/
theorem foldWalk :
    FoldWalk regime layout .daily latest head (Steadily layout (Backing layout))
      fun start => Steadily layout (DaysUpTo layout latest head start) where
  stable := fun start => regime.stable_steadily fun _ _ held => held.2.record_sameRows rfl rfl
  failing := fun _ _ held => ⟨held.1, held.2.backing⟩
  skip := fun _ _ _ _ closed held => ⟨held.1, held.2.past (held.2.headComes.skip closed)⟩
  ensure := fun epoch _ _ held => .record (held.1.ensure .daily epoch)
    (held.2.record_sameRows (Tables.hourly_ensure _ _) (Tables.daily_ensure _ _))
  fold := by
    intro epoch log answer after folds _ held given
    have sound := held.1.sound.foldDay epoch given
    rcases given.foldDay_cases with ⟨rfl, none⟩ | ⟨rows, wrote, rfl⟩
    · rw [Chronicle.record_now]
      exact ⟨held.1, held.2.past (HeadComes.empty ⟨held.1, held.2.headComes⟩ none)⟩
    · exact .record (held.1.withDays wrote sound) (withDays held folds wrote sound)

/-- Where a fold of days begins. -/
theorem resume (held : Steadily layout (Backing layout) log) (headIs : log.now.head? = some head)
    (latestIs : latest = log.now.lastDaily?.map EmbeddedStore.boundsOfStored) :
    DaysUpTo layout latest head
      (layout.bucketAt .daily ((latest.map (·.start)).getD head)).start log := by
  obtain ⟨steady, backing⟩ := held
  refine of_headComes (HeadComes.resume ⟨steady, backing.backed⟩ headIs latestIs)
    backing.advanced ?_
  cases latest with
  | none =>
    have empty := Tables.eq_nil_of_no_latestBounds latestIs.symm
    intro row member
    rw [empty] at member
    cases member
  | some range =>
    obtain ⟨row, member, rfl, most⟩ := Tables.exists_row_of_latestBounds latestIs.symm
    have nonneg := steady.sound.start_bucketAt member
    have begins : row.start.toNat = (layout.bucketAt .daily row.start.toNat).start := by omega
    dsimp only [Option.map_some, Option.getD_some]
    intro other otherMember
    rcases most other otherMember with earlier | ⟨here, covered⟩
    · exact Or.inl (by omega)
    · exact Or.inr ⟨by omega, _, rfl, begins, Int.le_trans covered (Int.self_le_toNat _)⟩

end DaysUpTo

/-- The tables have advanced, and the day of the latest hour has rows. -/
structure UpToDate (layout : BucketLayout) (log : Chronicle) : Prop where
  /-- The tables have advanced. -/
  advanced : log.Advanced layout
  /-- The latest day is that of the latest hour. -/
  reached : log.now.DayReached layout

theorem UpToDate.backing (upToDate : UpToDate layout log) (steady : log.now.Steady layout) :
    Backing layout log := ⟨upToDate.advanced, steady.backed_of_reached upToDate.reached⟩

/-- A fold of days that comes back leaves tables that are up to date. -/
theorem keeps_foldDays_upToDate :
    (layout.foldDays (storedBounds layout.clock)).Keeps regime (Steadily layout (Backing layout))
      (Steadily layout (Backing layout)) fun _ => Steadily layout (UpToDate layout) :=
  keeps_foldDays_of_walk (Backing.outlasts.stable regime) (fun _ _ => DaysUpTo.foldWalk)
    (fun _ held none => ⟨held.1, held.2.advanced, Tables.dayReached_of_head?_none none⟩)
    (fun _ _ _ held headIs latestIs => ⟨held.1, DaysUpTo.resume held headIs latestIs⟩)
    fun _ _ _ _ past held => ⟨held.1, held.2.backing.advanced, held.2.headComes.reached past⟩

/-! ### Reclaims -/

/-- A drop leaves the day of the latest hour where it is. -/
theorem UpToDate.drop {horizon head epoch : Nat} (held : Steadily layout (UpToDate layout) log)
    (years : layout.clock.FromYearZero) (headIs : log.now.head? = some head)
    (expired : (layout.partitionRangeAt granularity epoch).stop + horizon ≤ head) :
    UpToDate layout (log.record (log.now.drop (layout.partitionAt granularity epoch))) := by
  obtain ⟨steady, advanced, reached⟩ := held
  cases granularity with
  | hourly =>
    have latest := steady.latest_of_head headIs
    have apart : ((layout.partitionRangeAt .hourly epoch).stop : Int) ≤ head := by omega
    obtain ⟨hour, member, start⟩ := latest.held
    have held : log.now.Holds (.hourly hour) := member
    have behind : ((layout.partitionRangeAt .hourly epoch).stop : Int) ≤ hour.start := by omega
    refine ⟨advanced.record (steady.sound.advances_drop years held rfl behind), ?_⟩
    rw [Chronicle.now_record]
    intro other otherIs
    rw [(Tables.Steady.latest_dropHours latest apart).1.head?] at otherIs
    cases otherIs
    exact reached head headIs
  | daily =>
    obtain ⟨row, member, start⟩ := reached head headIs
    have held : log.now.Holds (.daily row) := member
    have apart := BucketLayout.stop_partition_le_start (Nat.le_of_add_right_le expired)
    have behind : ((layout.partitionRangeAt .daily epoch).stop : Int) ≤ row.start := by omega
    refine ⟨advanced.record (steady.sound.advances_drop years held rfl behind), ?_⟩
    rw [Chronicle.now_record]
    intro other otherIs
    have otherIs : log.now.head? = some other := otherIs
    rw [headIs] at otherIs
    cases otherIs
    refine ⟨row, (steady.sound.holds_drop_iff years held).mpr ?_, start⟩
    show layout.partitionAt .daily row.start.toNat ≠ _
    rw [Ne, layout.partitionAt_eq_iff]
    omega

theorem keeps_reclaim_upToDate (years : layout.clock.FromYearZero) {retention : RetentionPolicy}
    (granularity : Granularity) :
    ((Coordinator.ofStore layout retention).reclaim granularity).Keeps regime
      (Steadily layout (Backing layout)) (Steadily layout (UpToDate layout))
      fun _ => Steadily layout (UpToDate layout) := by
  have stable : regime.Stable (Steadily layout (UpToDate layout)) := by
    refine regime.stable_steadily fun log stored held =>
      ⟨held.2.advanced.record (.of_sameRows rfl rfl), ?_⟩
    rw [Chronicle.now_record]
    exact held.2.reached
  refine (keeps_reclaim_steadily granularity stable fun log horizon head epoch held _ headIs
    expired => UpToDate.drop held years headIs expired).weaken ?_ (fun _ => id) fun _ _ => id
  exact fun log held => ⟨held.1, held.2.backing held.1⟩

/-! ### Runs -/

/-- Every run advances. -/
theorem Runs.advanced {final : Chronicle} (years : regime.layout.clock.FromYearZero)
    (runs : Runs regime .start final) :
    final.Advanced regime.layout := by
  have held := runs.steadily Backing.outlasts (fun retention _ => ?_)
    ⟨Tables.Steady.empty, Backing.start⟩
  · exact held.2.advanced
  · refine (Coordinator.keeps_runPass (keeps_refreshWindow_steadily
      (Backing.outlasts.stable regime) fun _ _ held => held.2.record_sameRows rfl rfl)
      keeps_foldDays_upToDate (keeps_reclaim_upToDate years .hourly)
      (keeps_reclaim_upToDate years .daily)).weaken (fun _ => id) (fun _ => id) ?_
    exact fun _ log held => ⟨held.1, held.2.backing held.1⟩

end EpochRollup
