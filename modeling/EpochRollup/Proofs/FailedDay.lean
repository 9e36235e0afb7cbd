/-
This file proves that a day whose pass failed is made up. Three facts about the day of an epoch
follow each other, and each of them may give way to the loss of a row of the day.

- In any run the day is made up and settled, or no row of it covers all it can have.
- Once the head has come to the day, a fold of days that is still to come does not pass the day
  by: its latest row is not after the day, and does not close it. Without rows a fold begins
  with the day of the head, so then the head must not have gone on.
- A fold that comes back has been there, so the day is made up, and the head has reached it.

The first two survive folds of hours, whatever arrives; the last one survives the reclaims
that end a pass, and it leads back to the second.
-/

import EpochRollup.Proofs.MadeUp
import EpochRollup.Proofs.SteadyRun

namespace EpochRollup

variable {regime : Regime} {layout : BucketLayout} {day : Nat} {log : Chronicle} {after : Tables}

/-! ### A day that is made up or still to come -/

/-- A row of the day was lost, or the day is settled and made up, or something else is true of
the tables. -/
def MadeUpOr (layout : BucketLayout) (day : Nat) (rest : Tables → Prop) (log : Chronicle) : Prop :=
  log.LostDay (layout.bucketAt .daily day).start ∨
    log.Made layout day log.now ∧ log.now.Settled layout day ∨ rest log.now

/-- No row of the day covers all that the day can have. -/
def Tables.Unclosed (tables : Tables) (layout : BucketLayout) (day : Nat) : Prop :=
  ∀ row ∈ tables.daily, row.start = (layout.bucketAt .daily day).start →
    row.stop < layout.closing day

/-- There are hours of the day, and a fold of days begins with it or before it. A fold that finds
no rows begins with the day of the head, so that has to be known if there may be none. -/
structure Tables.Awaits (tables : Tables) (layout : BucketLayout) (day : Nat) (mayBeNone : Bool) :
    Prop where
  /-- There is an hour of the day. -/
  hours : ∃ hour, hour ∈ hoursIn tables.hourly (layout.bucketAt .daily day)
  /-- There are rows to begin with. -/
  days : tables.daily = [] → mayBeNone = true
  /-- They have not passed the day. -/
  notPassed : ¬tables.Passed layout day

theorem Tables.Awaits.congr {tables : Tables} {mayBeNone : Bool}
    (awaits : tables.Awaits layout day mayBeNone) (hourly : after.hourly = tables.hourly)
    (daily : after.daily = tables.daily) : after.Awaits layout day mayBeNone := by
  refine ⟨hourly ▸ awaits.hours, daily ▸ awaits.days, ?_⟩
  unfold Tables.Passed
  rw [daily]
  exact awaits.notPassed

theorem Chronicle.Made.of_same (made : log.Made layout day log.now)
    (hours : log.now.SameHours after)
    (rows : ∀ row ∈ log.now.daily, row.start = (layout.bucketAt .daily day).start →
      row ∈ after.daily) : (log.record after).Made layout day after :=
  made.record fun _ whole => (whole.of_rows rows).of_sameHours hours

namespace MadeUpOr

variable {rest : Tables → Prop}

/-- A step that does not move the frontier back and moves all it says along. -/
theorem record (held : MadeUpOr layout day rest log) (moved : log.now.frontier ≤ after.frontier)
    (makes : log.now.Settled layout day → log.Made layout day log.now →
      (log.record after).LostDay (layout.bucketAt .daily day).start ∨
        (log.record after).Made layout day after)
    (rests : rest log.now → rest after) : MadeUpOr layout day rest (log.record after) := by
  unfold MadeUpOr
  rw [Chronicle.now_record]
  rcases held with lost | ⟨made, settled⟩ | other
  · exact Or.inl lost.record
  · exact (makes settled made).imp_right fun made => Or.inl ⟨made, Int.le_trans settled moved⟩
  · exact Or.inr (Or.inr (rests other))

/-- A step that leaves the hours and the rows of the day. -/
theorem record_same (held : MadeUpOr layout day rest log) (hours : log.now.SameHours after)
    (rows : ∀ row ∈ log.now.daily, row.start = (layout.bucketAt .daily day).start →
      row ∈ after.daily) (rests : rest log.now → rest after) :
    MadeUpOr layout day rest (log.record after) :=
  held.record (Int.le_of_eq (Tables.frontier_congr hours.1).symm)
    (fun _ made => Or.inr (made.of_same hours rows)) rests

/-- It survives folds of hours, if the rest does. -/
theorem outlasts (moves : ∀ tables after : Tables, rest tables → after.daily = tables.daily →
      (∀ hour ∈ tables.hourly, ∃ other ∈ after.hourly, other.start = hour.start) → rest after) :
    Outlasts layout (MadeUpOr layout day rest) where
  arrives := fun log stored held => held.2.record_same ⟨rfl, fun _ => Iff.rfl⟩
    (fun _ member _ => member)
    fun other => moves _ _ other rfl fun hour member => ⟨hour, member, rfl⟩
  ensures := by
    intro log start held starts isOpen
    have hourly : (log.now.ensure (layout.partitionAt .hourly start)).hourly = log.now.hourly :=
      Tables.hourly_ensure _ _
    have daily : (log.now.ensure (layout.partitionAt .hourly start)).daily = log.now.daily :=
      Tables.daily_ensure _ _
    refine held.2.record (Int.le_of_eq (Tables.frontier_congr hourly).symm) (fun _ made =>
      Or.inr (made.record fun moment whole => ?_)) fun other =>
        moves _ _ other daily fun hour member => ⟨hour, hourly ▸ member, rfl⟩
    rw [daily]
    exact whole.ensure held.1 starts isOpen
  writes := by
    intro log start last rows held writes
    refine held.2.record ?_ (fun settled made =>
      Or.inr (made.record fun moment whole => whole.withHours writes settled)) fun other =>
        moves _ _ other rfl fun hour member => ?_
    · rw [writes.frontier]
      exact writes.frontier_le.1
    · obtain ⟨kept, keptMember, same, -⟩ := Tables.exists_key_withHours member rows
      exact ⟨kept, keptMember, same⟩

end MadeUpOr

/-! ### Any run -/

/-- The day is made up and settled, or no row of it is complete. -/
abbrev MadeUpOrUnclosed (layout : BucketLayout) (day : Nat) : Chronicle → Prop :=
  MadeUpOr layout day fun tables => tables.Unclosed layout day

namespace MadeUpOrUnclosed

theorem outlasts : Outlasts layout (MadeUpOrUnclosed layout day) :=
  MadeUpOr.outlasts fun _ _ unclosed daily _ row member => unclosed row (daily ▸ member)

theorem ensureDay (held : MadeUpOrUnclosed layout day log) (epoch : Nat) :
    MadeUpOrUnclosed layout day
      (log.record (log.now.ensure (layout.partitionAt .daily epoch))) := by
  have daily : (log.now.ensure (layout.partitionAt .daily epoch)).daily = log.now.daily :=
    Tables.daily_ensure _ _
  exact held.record_same (log.now.sameHours_ensure layout epoch)
    (fun row member _ => daily ▸ member) fun unclosed row member => unclosed row (daily ▸ member)

/-- A fold of the day either closes it, and then it is settled, or leaves it open. -/
theorem withDays {epoch : Nat} {rows : List DailyRow}
    (held : Steadily layout (MadeUpOrUnclosed layout day) log)
    (wrote : DayRows layout.clock log.now.hourly (layout.bucketAt .daily epoch) rows)
    (sound : (log.now.withDays rows).Sound layout) :
    MadeUpOrUnclosed layout day (log.record (log.now.withDays rows)) := by
  have same := log.now.sameHours_withDays rows
  have keyed := held.1.sound.dailyKeyed
  by_cases here : (layout.bucketAt .daily epoch).start = (layout.bucketAt .daily day).start
  · rw [layout.bucketAt_eq_of_start here] at wrote
    have made := Chronicle.made_withDays wrote keyed
    by_cases closes : ∃ row ∈ rows, (layout.closing day : Int) ≤ row.stop
    · obtain ⟨row, member, closed⟩ := closes
      obtain ⟨hour, hourMember, stop⟩ := (wrote.written row member).exists_stop
      have covered := held.1.stop_le_frontier hourMember
      refine Or.inr (Or.inl ⟨?_, ?_⟩) <;> rw [Chronicle.now_record]
      · exact made
      · show (layout.closing day : Int) ≤ log.now.frontier
        omega
    · refine held.2.record (Int.le_refl _) (fun _ _ => Or.inr made)
        fun unclosed row member start => ?_
      rcases mem_of_mem_putRows member with new | old
      · exact Int.lt_of_not_ge fun closed => closes ⟨row, new, closed⟩
      · exact unclosed row old start
  · have read {row : DailyRow} (start : row.start = (layout.bucketAt .daily day).start) :
        row ∈ (log.now.withDays rows).daily ↔ row ∈ log.now.daily :=
      held.1.sound.mem_withDays_elsewhere wrote sound (by omega)
    exact held.2.record_same same (fun row member start => (read start).mpr member)
      fun unclosed row member start => unclosed row ((read start).mp member) start

theorem dropHours {head epoch : Nat} (held : Steadily layout (MadeUpOrUnclosed layout day) log)
    (latest : log.now.LatestHour layout head)
    (apart : ((layout.partitionRangeAt .hourly epoch).stop : Int) ≤ head) :
    MadeUpOrUnclosed layout day (log.record (log.now.drop (layout.partitionAt .hourly epoch))) :=
  held.2.record (Int.le_of_eq (Tables.Steady.latest_dropHours latest apart).2.symm)
    (fun _ made => Or.inr (made.record fun _ whole => whole.dropHours latest apart)) id

theorem dropDays (held : Steadily layout (MadeUpOrUnclosed layout day) log) (epoch : Nat) :
    MadeUpOrUnclosed layout day (log.record (log.now.drop (layout.partitionAt .daily epoch))) :=
  held.2.record (Int.le_refl _) (fun _ made => made.dropDays held.1.sound.dailyKeyed
    (log.now.sameHours_drop layout epoch) epoch)
    fun unclosed row member => unclosed row (Tables.mem_daily_drop.mp member).1

end MadeUpOrUnclosed

section

variable {retention : RetentionPolicy}

theorem keeps_refreshWindow_unclosed :
    (refreshWindow (storedBounds layout.clock)).Keeps regime
      (Steadily layout (MadeUpOrUnclosed layout day))
      (Steadily layout (MadeUpOrUnclosed layout day))
      fun _ => Steadily layout (MadeUpOrUnclosed layout day) :=
  keeps_refreshWindow_steadily (MadeUpOrUnclosed.outlasts.stable regime) fun _ _ held =>
    held.2.record_same ⟨rfl, fun _ => Iff.rfl⟩ (fun _ member _ => member) id

theorem keeps_foldDays_unclosed :
    (layout.foldDays (storedBounds layout.clock)).Keeps regime
      (Steadily layout (MadeUpOrUnclosed layout day))
      (Steadily layout (MadeUpOrUnclosed layout day))
      fun _ => Steadily layout (MadeUpOrUnclosed layout day) :=
  keeps_foldDays_steadily (MadeUpOrUnclosed.outlasts.stable regime)
    (fun _ epoch held => held.2.ensureDay epoch)
    fun _ _ _ held wrote sound => MadeUpOrUnclosed.withDays held wrote sound

theorem keeps_runPass_unclosed :
    (Coordinator.ofStore layout retention).runPass.Keeps regime
      (Steadily layout (MadeUpOrUnclosed layout day))
      (Steadily layout (MadeUpOrUnclosed layout day))
      fun _ => Steadily layout (MadeUpOrUnclosed layout day) :=
  have stable := MadeUpOrUnclosed.outlasts.stable regime
  Coordinator.keeps_runPass keeps_refreshWindow_unclosed keeps_foldDays_unclosed
    (keeps_reclaim_hourly_steadily stable fun _ _ _ held headIs expired =>
      MadeUpOrUnclosed.dropHours held (held.1.latest_of_head headIs) (by omega))
    (keeps_reclaim_daily_steadily stable fun _ epoch held =>
      MadeUpOrUnclosed.dropDays held epoch)

/-- At the end of every run the day is made up and settled, or no row of it is complete. -/
theorem Runs.madeUpOrUnclosed {final : Chronicle}
    (runs : Runs regime .start final) (day : Nat) :
    Steadily regime.layout (MadeUpOrUnclosed regime.layout day) final :=
  runs.steadily MadeUpOrUnclosed.outlasts (fun _ _ => keeps_runPass_unclosed)
    ⟨Tables.Steady.empty, Or.inr (Or.inr fun _ member => absurd member List.not_mem_nil)⟩

end

/-! ### A pass that fails -/

namespace Coordinator

/-- The outcome of a step of a pass is that of its procedure, named after the step. -/
theorem ends_inStep {Result : Type} {procedure : Procedure Result} {step : PassStep}
    {outcome : Except Failure Result} {final : Chronicle}
    (ends : (procedure.inStep step).Ends regime log outcome final) :
    ∃ inner, procedure.Ends regime log inner final ∧
      outcome = inner.mapError (Failure.inStep step) := by
  obtain ⟨inner, middle, performing, ending⟩ := performs_bind.mp ends
  cases inner <;> cases ending <;> exact ⟨_, performing, rfl⟩

/-- What the first two steps of a pass keep is still there when one of them fails. -/
theorem holds_of_failed_step {holds : Chronicle → Prop} {retention : RetentionPolicy}
    {step : PassStep} {cause : RollupError} {final : Chronicle}
    (refresh : (refreshWindow (storedBounds layout.clock)).Keeps regime holds holds fun _ => holds)
    (fold : (layout.foldDays (storedBounds layout.clock)).Keeps regime holds holds fun _ => holds)
    (fails : (ofStore layout retention).runPass.Ends regime log (.error (.error (.step step cause)))
      final) (early : step = .rolling ∨ step = .daily) (held : holds log) : holds final := by
  -- A step of retention that fails has another name.
  have later (granularity : Granularity) (name : PassStep) (apart : name ≠ step)
      {begun ended : Chronicle} {failure : Failure}
      (ends : (((ofStore layout retention).reclaim granularity).inStep name).Ends regime begun
        (.error failure) ended) : failure ≠ .error (.step step cause) := by
    obtain ⟨inner, -, named⟩ := ends_inStep ends
    cases inner with
    | ok count => cases named
    | error innerFailure =>
      cases named
      cases innerFailure with
      | error innerCause => exact fun same => apart (by cases same; rfl)
      | abort innerCause => exact nofun
  obtain ⟨refreshed, first, refreshing, rest⟩ := performs_bind.mp fails
  have kept := refresh.inStep .rolling held refreshing
  cases refreshed with
  | error failure =>
    cases rest
    exact kept
  | ok rolling =>
    obtain ⟨folded, second, folding, rest⟩ := performs_bind.mp rest
    have kept := fold.inStep .daily kept folding
    cases folded with
    | error failure =>
      cases rest
      exact kept
    | ok daily =>
      obtain ⟨reclaimed, third, reclaiming, rest⟩ := performs_bind.mp rest
      cases reclaimed with
      | error failure =>
        cases rest
        exact absurd rfl (later .hourly _ (by rcases early with rfl | rfl <;> decide) reclaiming)
      | ok hours =>
        obtain ⟨dropped, fourth, dropping, rest⟩ := performs_bind.mp rest
        cases dropped with
        | error failure =>
          cases rest
          exact absurd rfl (later .daily _ (by rcases early with rfl | rfl <;> decide) dropping)
        | ok days => cases rest

end Coordinator

/-! ### A day that is still to come -/

/-- The day is made up and settled, or a fold of days is still to come to it. -/
abbrev MadeUpOrAwaits (layout : BucketLayout) (day : Nat) (mayBeNone : Bool) :
    Chronicle → Prop :=
  MadeUpOr layout day fun tables => tables.Awaits layout day mayBeNone

/-- The day is made up, and it is settled or the head has come to it. -/
def MadeUpAndReached (layout : BucketLayout) (day : Nat) (log : Chronicle) : Prop :=
  log.LostDay (layout.bucketAt .daily day).start ∨
    log.Made layout day log.now ∧ (log.now.Settled layout day ∨
      ∃ head, log.now.head? = some head ∧ (layout.bucketAt .daily day).start ≤ head)

variable {mayBeNone : Bool}

theorem MadeUpOrAwaits.outlasts : Outlasts layout (MadeUpOrAwaits layout day mayBeNone) := by
  refine MadeUpOr.outlasts fun tables after awaits daily hours => ?_
  obtain ⟨⟨hour, member⟩, days, notPassed⟩ := awaits
  obtain ⟨stored, later, before⟩ := mem_hoursIn.mp member
  obtain ⟨other, otherMember, same⟩ := hours hour stored
  refine ⟨⟨other, mem_hoursIn.mpr ⟨otherMember, by omega, by omega⟩⟩, daily ▸ days, ?_⟩
  unfold Tables.Passed
  rw [daily]
  exact notPassed

section

variable {head : Nat} {tables : Tables}

/-- While the head is on the day, only a row that is complete passes it. -/
theorem Tables.Steady.awaits (steady : tables.Steady layout) (headIs : tables.head? = some head)
    (after : (layout.bucketAt .daily day).start ≤ head)
    (before : head < (layout.bucketAt .daily day).stop)
    (days : tables.daily = [] → mayBeNone = true)
    (unclosed : tables.Unclosed layout day) : tables.Awaits layout day mayBeNone := by
  have latest := steady.latest_of_head headIs
  obtain ⟨hour, hourMember, hourStart⟩ := latest.held
  refine ⟨⟨hour, mem_hoursIn.mpr ⟨hourMember, by omega, by omega⟩⟩, days, ?_⟩
  rintro ⟨row, member, later | ⟨here, closed⟩⟩
  · obtain ⟨⟨other, otherMember, upTo⟩, -⟩ := steady.days row member
    have most := latest.most other otherMember
    obtain ⟨-, epoch, start, -⟩ := steady.sound.days row member
    -- A row of a later day starts behind the end of the day.
    have apart : (layout.bucketAt .daily day).stop ≤ (layout.bucketAt .daily epoch).start :=
      EpochRange.stop_aligned_le_of_lt (layout.width_pos .daily) (by
        show day < (layout.bucketAt .daily epoch).start
        omega)
    omega
  · exact absurd closed (Int.not_le.mpr (unclosed row member here))

/-- Once the head is past the day, its hours have closed. -/
theorem Tables.Steady.settled_of_head (steady : tables.Steady layout)
    (headIs : tables.head? = some head) (past : (layout.bucketAt .daily day).stop ≤ head) :
    tables.Settled layout day := by
  have latest := steady.latest_of_head headIs
  have close : (layout.closing day : Int) ≤ head :=
    BucketLayout.closing_le latest.starts (by omega)
  have before := latest.before
  unfold Tables.Settled
  omega

/-- A fold that has been there may come again. -/
theorem MadeUpAndReached.awaits (held : MadeUpAndReached layout day log)
    (steady : log.now.Steady layout) : MadeUpOrAwaits layout day mayBeNone log := by
  rcases held with lost | ⟨made, settled | ⟨head, headIs, after⟩⟩
  · exact Or.inl lost
  · exact Or.inr (Or.inl ⟨made, settled⟩)
  · by_cases settled : log.now.Settled layout day
    · exact Or.inr (Or.inl ⟨made, settled⟩)
    · have before : head < (layout.bucketAt .daily day).stop :=
        Nat.lt_of_not_le fun past => settled (steady.settled_of_head headIs past)
      obtain ⟨row, member, -⟩ := made.exists_row
      refine Or.inr (Or.inr (steady.awaits headIs after before
        (fun none => absurd none (List.ne_nil_of_mem member)) ?_))
      intro other otherMember _
      have covered := (steady.days other otherMember).2
      unfold Tables.Settled at settled
      omega

end

/-! ### The fold that comes to the day -/

/-- Where a fold of days stands before the day that begins at a start: it has made the day up, or
the day is still to come. -/
structure ComesToDay (layout : BucketLayout) (day : Nat) (mayBeNone : Bool)
    (latest : Option EpochRange) (head start : Nat) (log : Chronicle) : Prop where
  /-- The head that was read. -/
  headIs : log.now.head? = some head
  /-- The day has been made up, or its turn comes. -/
  comes : log.LostDay (layout.bucketAt .daily day).start ∨
    (log.Made layout day log.now ∧
      (log.now.Settled layout day ∨ (layout.bucketAt .daily day).start ≤ head)) ∨
    start ≤ (layout.bucketAt .daily day).start ∧ log.now.Awaits layout day mayBeNone ∧
      ∀ range, latest = some range → range.start = (layout.bucketAt .daily day).start →
        range.stop < layout.closing day

namespace ComesToDay

variable {latest : Option EpochRange} {head start epoch : Nat}

/-- A step that leaves the hours and the rows of the day. -/
theorem record_same (comes : ComesToDay layout day mayBeNone latest head start log)
    (hours : log.now.SameHours after)
    (rows : ∀ row ∈ log.now.daily, row.start = (layout.bucketAt .daily day).start →
      row ∈ after.daily) (awaits : start ≤ (layout.bucketAt .daily day).start →
      log.now.Awaits layout day mayBeNone → after.Awaits layout day mayBeNone) :
    ComesToDay layout day mayBeNone latest head start (log.record after) := by
  refine ⟨?_, ?_⟩ <;> rw [Chronicle.now_record]
  · rw [Tables.head?, hours.1]
    exact comes.headIs
  · rcases comes.comes with lost | ⟨made, reached⟩ | ⟨ahead, still, opens⟩
    · exact Or.inl lost.record
    · refine Or.inr (Or.inl ⟨made.of_same hours rows, reached.imp_left fun settled => ?_⟩)
      exact Int.le_trans settled (Int.le_of_eq (Tables.frontier_congr hours.1).symm)
    · exact Or.inr (Or.inr ⟨ahead, awaits ahead still, opens⟩)

/-- The turn of the day has not come when the turn is that of another day. -/
theorem pass_by
    (comes : ComesToDay layout day mayBeNone latest head (layout.bucketAt .daily epoch).start log)
    (elsewhere : (layout.bucketAt .daily epoch).start ≠ (layout.bucketAt .daily day).start) :
    ComesToDay layout day mayBeNone latest head (layout.bucketAt .daily epoch).stop log := by
  refine ⟨comes.headIs, comes.comes.imp_right (Or.imp_right fun ⟨ahead, rest⟩ => ⟨?_, rest⟩)⟩
  exact layout.stop_bucketAt_le_of_lt (lt_of_le_of_ne ahead elsewhere)

/-- A day that is closed is not one whose turn comes. -/
theorem skip
    (comes : ComesToDay layout day mayBeNone latest head (layout.bucketAt .daily epoch).start log)
    (closed : isClosed latest (layout.bucketAt .daily epoch) (layout.closing epoch) = true) :
    ComesToDay layout day mayBeNone latest head (layout.bucketAt .daily epoch).stop log := by
  by_cases here : (layout.bucketAt .daily epoch).start = (layout.bucketAt .daily day).start
  · refine ⟨comes.headIs, comes.comes.imp_right (Or.imp_right fun ⟨_, _, opens⟩ => ?_)⟩
    obtain ⟨range, rangeIs, start, reached⟩ := isClosed_iff.mp closed
    have opens := opens range rangeIs (start.trans here)
    unfold BucketLayout.closing at reached opens
    rw [layout.bucketAt_eq_of_start here] at reached
    exact absurd reached (Nat.not_le.mpr opens)
  · exact comes.pass_by here

theorem ensure (comes : ComesToDay layout day mayBeNone latest head start log) (epoch : Nat) :
    ComesToDay layout day mayBeNone latest head start
      (log.record (log.now.ensure (layout.partitionAt .daily epoch))) := by
  have daily : (log.now.ensure (layout.partitionAt .daily epoch)).daily = log.now.daily :=
    Tables.daily_ensure _ _
  exact comes.record_same (log.now.sameHours_ensure layout epoch)
    (fun row member _ => daily ▸ member) fun _ awaits =>
      awaits.congr (Tables.hourly_ensure _ _) daily

/-- The rows of a day are written: of this one, and then it is made up, or of another. -/
theorem withDays {rows : List DailyRow}
    (comes : ComesToDay layout day mayBeNone latest head (layout.bucketAt .daily epoch).start log)
    (steady : log.now.Steady layout)
    (upToHead : (layout.bucketAt .daily epoch).start ≤ head)
    (wrote : DayRows layout.clock log.now.hourly (layout.bucketAt .daily epoch) rows)
    (sound : (log.now.withDays rows).Sound layout) :
    ComesToDay layout day mayBeNone latest head (layout.bucketAt .daily epoch).stop
      (log.record (log.now.withDays rows)) := by
  have same := log.now.sameHours_withDays rows
  by_cases here : (layout.bucketAt .daily epoch).start = (layout.bucketAt .daily day).start
  · rw [layout.bucketAt_eq_of_start here] at wrote upToHead
    refine ⟨?_, Or.inr (Or.inl ⟨?_, Or.inr upToHead⟩)⟩ <;> rw [Chronicle.now_record]
    · exact comes.headIs
    · exact Chronicle.made_withDays wrote steady.sound.dailyKeyed
  · refine (comes.record_same same (fun row member start => ?_) fun ahead awaits => ?_).pass_by here
    · exact (steady.sound.mem_withDays_elsewhere wrote sound (by omega)).mpr member
    · refine ⟨awaits.hours, ?_, ?_⟩
      · refine fun none => awaits.days (List.eq_nil_iff_forall_not_mem.mpr fun row member => ?_)
        obtain ⟨kept, keptMember, -⟩ := exists_key_putRows DailyRow.orderedBy_key member rows
        exact List.ne_nil_of_mem keptMember none
      · -- The rows that are written are of an earlier day.
        have inside : (layout.bucketAt .daily day).start ≤ day :=
          EpochRange.start_aligned_le (layout.width_pos .daily) day
        rintro ⟨row, member, passes⟩
        rcases mem_of_mem_putRows member with new | old
        · have start := (wrote.written row new).start
          omega
        · exact awaits.notPassed ⟨row, old, passes⟩

theorem awaits (comes : ComesToDay layout day mayBeNone latest head start log)
    (steady : log.now.Steady layout) : MadeUpOrAwaits layout day mayBeNone log := by
  rcases comes.comes with lost | ⟨made, reached⟩ | ⟨-, awaits, -⟩
  · exact Or.inl lost
  · exact MadeUpAndReached.awaits (Or.inr ⟨made, reached.imp_right fun reached =>
      ⟨head, comes.headIs, reached⟩⟩) steady
  · exact Or.inr (Or.inr awaits)

/-- Past the head the turn of the day has come. -/
theorem reached (comes : ComesToDay layout day mayBeNone latest head start log)
    (steady : log.now.Steady layout) (past : head < start) : MadeUpAndReached layout day log := by
  rcases comes.comes with lost | ⟨made, reached⟩ | ⟨ahead, awaits, -⟩
  · exact Or.inl lost
  · exact Or.inr ⟨made, reached.imp_right fun reached => ⟨head, comes.headIs, reached⟩⟩
  · obtain ⟨hour, member⟩ := awaits.hours
    obtain ⟨stored, later, -⟩ := mem_hoursIn.mp member
    have most := (steady.latest_of_head comes.headIs).most hour stored
    omega

/-- A fold walks up to the day and past it. -/
theorem foldWalk :
    FoldWalk regime layout .daily latest head
      (Steadily layout (MadeUpOrAwaits layout day mayBeNone))
      fun start => Steadily layout (ComesToDay layout day mayBeNone latest head start) where
  stable := by
    intro start log rows after held _ given
    obtain ⟨stored, -, rfl⟩ := given.upsertEpochs
    exact .record (held.1.arrive stored) (held.2.record_same ⟨rfl, fun _ => Iff.rfl⟩
      (fun _ member _ => member) fun _ awaits => awaits.congr rfl rfl)
  failing := fun start log held => ⟨held.1, held.2.awaits held.1⟩
  skip := by
    intro epoch closesAt log closing closed held
    obtain rfl := BucketLayout.closesAt_daily_eq_ok closing
    exact ⟨held.1, held.2.skip closed⟩
  ensure := fun epoch log _ held => .record (held.1.ensure .daily epoch) (held.2.ensure epoch)
  fold := by
    intro epoch log answer after folds _ held given
    have sound := held.1.sound.foldDay epoch given
    rcases given.foldDay_cases with ⟨rfl, empty⟩ | ⟨rows, wrote, rfl⟩
    · rw [Chronicle.record_now]
      refine ⟨held.1, ?_⟩
      by_cases here : (layout.bucketAt .daily epoch).start = (layout.bucketAt .daily day).start
      · refine ⟨held.2.headIs, held.2.comes.imp_right (Or.imp_right fun ⟨_, awaits, _⟩ => ?_)⟩
        obtain ⟨hour, member⟩ := awaits.hours
        rw [← layout.bucketAt_eq_of_start here, empty] at member
        cases member
      · exact held.2.pass_by here
    · exact .record (held.1.withDays wrote sound)
        (held.2.withDays held.1 folds.upToHead wrote sound)

end ComesToDay

/-- A fold of days begins with the day or before it. -/
theorem Tables.Awaits.begins {tables : Tables} (awaits : tables.Awaits layout day mayBeNone)
    (sound : tables.Sound layout) {range : EpochRange}
    (latestIs : tables.lastDaily?.map EmbeddedStore.boundsOfStored = some range) :
    (layout.bucketAt .daily range.start).start ≤ (layout.bucketAt .daily day).start ∧
      (range.start = (layout.bucketAt .daily day).start → range.stop < layout.closing day) := by
  obtain ⟨row, member, rfl, -⟩ := exists_row_of_latestBounds latestIs
  obtain ⟨-, epoch, first, -⟩ := sound.days row member
  show (layout.bucketAt .daily row.start.toNat).start ≤ _ ∧
    (row.start.toNat = _ → row.stop.toNat < _)
  have before : row.start ≤ day := by
    by_contra later
    exact awaits.notPassed ⟨row, member, Or.inl (Int.lt_of_not_ge later)⟩
  refine ⟨EpochRange.start_aligned_mono (layout.width_pos .daily) (by omega), fun here => ?_⟩
  have opens : ¬(layout.closing day : Int) ≤ row.stop := fun closed =>
    awaits.notPassed ⟨row, member, Or.inr ⟨by omega, closed⟩⟩
  have positive := layout.closing_pos day
  omega

/-- Where a fold of days begins. -/
theorem MadeUpOrAwaits.resume {head : Nat} {latest : Option EpochRange}
    (held : Steadily layout (MadeUpOrAwaits layout day mayBeNone) log)
    (headIs : log.now.head? = some head)
    (latestIs : latest = log.now.lastDaily?.map EmbeddedStore.boundsOfStored)
    (begins : mayBeNone = true →
      (layout.bucketAt .daily head).start ≤ (layout.bucketAt .daily day).start) :
    ComesToDay layout day mayBeNone latest head
      (layout.bucketAt .daily ((latest.map (·.start)).getD head)).start log := by
  refine ⟨headIs, held.2.imp_right ?_⟩
  rintro (⟨made, settled⟩ | awaits)
  · exact Or.inl ⟨made, Or.inl settled⟩
  · cases latest with
    | none =>
      have none := Tables.eq_nil_of_no_latestBounds latestIs.symm
      exact Or.inr ⟨begins (awaits.days none), awaits, nofun⟩
    | some range =>
      obtain ⟨before, opens⟩ := awaits.begins held.1.sound latestIs.symm
      exact Or.inr ⟨before, awaits, fun other same => by cases same; exact opens⟩

/-- The head has not left the day. -/
def Tables.HeadUpTo (tables : Tables) (layout : BucketLayout) (day : Nat) : Prop :=
  ∀ head, tables.head? = some head →
    (layout.bucketAt .daily head).start ≤ (layout.bucketAt .daily day).start

/-- A fold of days that comes back has been at the day, and if there may be no rows, then so has
one that begins while the head has not left the day. -/
theorem keeps_foldDays_reached :
    (layout.foldDays (storedBounds layout.clock)).Keeps regime
      (Steadily layout (MadeUpOrAwaits layout day mayBeNone))
      (fun log => Steadily layout (MadeUpOrAwaits layout day mayBeNone) log ∧
        (mayBeNone = true → log.now.HeadUpTo layout day))
      fun _ => Steadily layout (MadeUpAndReached layout day) := by
  have stable : regime.Stable (Steadily layout (MadeUpOrAwaits layout day mayBeNone)) :=
    MadeUpOrAwaits.outlasts.stable regime
  have headStable (read : Option Nat → Prop) : regime.Stable fun log => read log.now.head? :=
    regime.stable_besidesEpochs fun hourly _ _ =>
      read ((hourly.map HourlyRow.start).max?.map epochOfStored)
  refine Procedure.keeps_bind _ (keeps_storedBounds layout.clock .lastHourly (stable.and (headStable
    fun head? => mayBeNone = true → ∀ head, head? = some head →
      (layout.bucketAt .daily head).start ≤ (layout.bucketAt .daily day).start))
    fun log held => held.1) fun answer => ?_
  cases answer with
  | none =>
    refine Procedure.keeps_pure fun log held => ⟨held.1.1.1, held.1.1.2.imp_right ?_⟩
    rintro (⟨made, settled⟩ | awaits)
    · exact ⟨made, Or.inl settled⟩
    · obtain ⟨hour, member⟩ := awaits.hours
      have empty := Tables.eq_nil_of_no_latestBounds held.2.symm
      rw [empty] at member
      cases member
  | some latestHour =>
    have headIs (log : Chronicle) (found : some latestHour =
        log.now.lastHourly?.map EmbeddedStore.boundsOfStored) :
        log.now.head? = some latestHour.start := Tables.head?_of_lastHourly? found.symm
    refine Procedure.Keeps.knowing (fun log held none => held.1.2 none _ (headIs log held.2))
      fun begins => ?_
    refine Procedure.keeps_bind _ ((keeps_storedBounds layout.clock .lastDaily (stable.and
      (headStable fun head? => head? = some latestHour.start)) fun log held => held.1).weaken
      (fun _ => id) (fun log held => ⟨held.1.1, headIs log held.2⟩) fun _ _ => id)
      fun latest => ?_
    exact (ComesToDay.foldWalk.keeps_foldThrough _).weaken (fun _ => id)
      (fun log held => ⟨held.1.1.1, MadeUpOrAwaits.resume held.1.1 held.1.2 held.2 begins⟩)
      fun _ log ⟨_, past, comes⟩ => ⟨comes.1, comes.2.reached comes.1 past⟩

end EpochRollup
