/-
This file says what the hourly table holds once a fold that began after the last arrival has
come back: one row for each bucket and validator that has epochs, with the sums of exactly
these epochs, as far as the partition of the bucket has not been dropped. Passes take part in
the run, so they have to keep the invariant of the fold. Only the reclaim of hours touches
the hours, and it drops partitions that end by the start of the latest hour.
-/

import EpochRollup.Proofs.HourlyFold

namespace EpochRollup

section

variable {regime : Regime} {layout : BucketLayout} {limit : Int}

/-! ### What passes keep -/

theorem Folded.caught_of_sameHours {log : Chronicle} (held : FoldedWith layout (Caught limit) log)
    {after : Tables} (same : log.now.SameHours after) (epochs : after.epochs = log.now.epochs)
    (sound : after.Sound layout) : FoldedWith layout (Caught limit) (log.record after) := by
  refine ⟨held.1.of_sameHours same epochs sound, ?_⟩
  unfold Caught
  rw [Chronicle.now_record, epochs, Tables.frontier_congr same.1]
  exact held.2

/-- Operations that leave the hours alone keep the invariant. -/
theorem Regime.Orderly.keeps_of_sameHours (orderly : regime.Orderly limit) {Result : Type}
    {procedure : Procedure Result} {allowed : StoreCall → Prop} (asks : procedure.Asks allowed)
    (issues : ∀ call, allowed call → layout.Issues call)
    (same : ∀ call, allowed call → ∀ tables answer after, Given tables call answer after →
      tables.SameHours after) :
    procedure.Keeps regime (FoldedWith layout (Caught limit)) (FoldedWith layout (Caught limit))
      fun _ => FoldedWith layout (Caught limit) :=
  asks.keeps (orderly.carries layout).stable fun call permitted _ _ _ held given =>
    Folded.caught_of_sameHours held (same call permitted _ _ _ given)
      (given.epochs_of_issues (issues call permitted))
      (held.1.sound.issued (issues call permitted) given)

/-- A walk that starts no later than the latest hour keeps the invariant. -/
theorem Regime.Orderly.keeps_reclaimExpired (orderly : regime.Orderly limit)
    {boundary oldest : Nat} :
    (layout.reclaimExpired .hourly boundary oldest).Keeps regime (FoldedWith layout (Caught limit))
      (fun log => FoldedWith layout (Caught limit) log ∧
        ∃ bounds, log.now.lastHourly? = some bounds ∧ (boundary : Int) ≤ bounds.1)
      fun _ => FoldedWith layout (Caught limit) := by
  have latestStable : regime.Stable fun log =>
      ∃ bounds, log.now.lastHourly? = some bounds ∧ (boundary : Int) ≤ bounds.1 :=
    regime.stable_besidesEpochs fun hourly _ _ => ∃ bounds,
      ({ Tables.empty with hourly } : Tables).lastHourly? = some bounds ∧
        (boundary : Int) ≤ bounds.1
  refine ((BucketLayout.asks_reclaimFrom boundary oldest boundary [] 0).keeps
    ((orderly.carries layout).stable.and latestStable) ?_).weaken (fun _ held => held.1)
    (fun _ => id) fun _ _ held => held.1
  intro call expires log answer after held given
  obtain ⟨folded, bounds, found, behind⟩ := held
  cases expires with
  | drop epoch _ expired =>
    have apart : ((layout.partitionRangeAt .hourly epoch).stop : Int) ≤ bounds.1 := by omega
    rw [given.dropPartition.2]
    have kept : (log.now.drop (layout.partitionAt .hourly epoch)).lastHourly? = some bounds :=
      Tables.lastHourly?_drop found apart
    refine ⟨⟨folded.1.drop found apart, ?_⟩, bounds, ?_, behind⟩
    · unfold Caught
      rw [Chronicle.now_record, Tables.epochs_drop, Tables.frontier_of_some kept,
        ← Tables.frontier_of_some found]
      exact folded.2
    · rw [Chronicle.now_record]
      exact kept

/-- A pass keeps the invariant, whatever its retention. -/
theorem Regime.Orderly.keeps_runPass (orderly : regime.Orderly limit)
    (retention : RetentionPolicy) :
    (Coordinator.ofStore layout retention).runPass.Keeps regime (FoldedWith layout (Caught limit))
      (FoldedWith layout (Caught limit)) fun _ => FoldedWith layout (Caught limit) := by
  refine Coordinator.keeps_runPass
    (orderly.keeps_of_sameHours (asks_refreshWindow layout.clock)
      (fun _ refreshes => .refresh refreshes)
      fun _ refreshes _ _ _ given => given.sameHours_of_refreshes refreshes)
    (orderly.keeps_of_sameHours BucketLayout.asks_foldDays (fun _ folds => .fold folds)
      fun _ folds _ _ _ given => given.sameHours_of_folds folds)
    (Coordinator.keeps_reclaim .hourly (orderly.carries layout).stable (fun _ => id)
      (fun _ held _ => held) fun horizon head oldest _ _ => ?_)
    (orderly.keeps_of_sameHours (Coordinator.asks_reclaim .daily)
      (fun _ reclaims => .reclaim reclaims)
      fun _ reclaims _ _ _ given => given.sameHours_of_reclaims reclaims)
  refine orderly.keeps_reclaimExpired.weaken (fun _ => id) (fun log held => ?_) fun _ _ => id
  obtain ⟨⟨folded, headIs⟩, -⟩ := held
  refine ⟨folded, ?_⟩
  obtain ⟨start, startIs, rfl⟩ := Option.map_eq_some_iff.mp headIs
  have nonempty : log.now.hourly ≠ [] := by
    intro empty
    rw [empty] at startIs
    cases startIs
  obtain ⟨latest, found, starts, -⟩ := folded.1.latest nonempty
  have same := (Tables.lastHourly?_eq_some.mp found).1
  rw [startIs, Option.some.injEq] at same
  refine ⟨_, found, ?_⟩
  have positive := starts.nonneg
  unfold epochOfStored
  omega

/-- Every run keeps the invariant. -/
theorem Runs.folded (orderly : regime.Orderly limit) {log final : Chronicle}
    (runs : Runs regime log final) (folded : FoldedWith regime.layout (Caught limit) log) :
    FoldedWith regime.layout (Caught limit) final :=
  runs.keeps (orderly.carries regime.layout).stable
    (fun _ _ => (keeps_foldHours (orderly.carries regime.layout) (-1)).weaken (fun _ => id)
      (fun _ held => ⟨held, Or.inl (by decide)⟩) fun _ _ held => held.1)
    (fun retention _ => orderly.keeps_runPass retention) folded

/-! ### What a row says -/

/-- The epochs of a validator in a bucket. -/
def ownEpochs (epochs : List EpochRow) (start stop validator : Int) : List EpochRow :=
  epochs.filter fun row => (start ≤ row.epoch ∧ row.epoch < stop) ∧ row.validator = validator

/-- A row is the summary of the epochs that its validator has in a bucket. -/
structure HourlyRow.Summarizes (epochs : List EpochRow) (width : Nat) (row : HourlyRow) :
    Prop where
  /-- The row is one of a bucket. -/
  bucket : ∃ index : Nat, row.start = (index * width : Nat)
  /-- The validator has an epoch in it. -/
  seen : ownEpochs epochs row.start (row.start + width) row.validator ≠ []
  /-- The row covers the bucket up to its last epoch, whoever has it. -/
  covers : ((epochs.filter fun other =>
    row.start ≤ other.epoch ∧ other.epoch < row.start + width).map (·.epoch)).max? =
      some (row.stop - 1)
  /-- The integers are sums. -/
  integers : ∀ index, row.metrics.integers.get index =
    ((ownEpochs epochs row.start (row.start + width) row.validator).map
      (·.metrics.integers.get index)).sum
  /-- The mark is there when one epoch has it. -/
  slashed : row.metrics.slashed =
    (ownEpochs epochs row.start (row.start + width) row.validator).any (·.metrics.slashed)
  /-- The first balance is the one at the start of the bucket. -/
  balanceStart : row.metrics.balanceStart =
    ((ownEpochs epochs row.start (row.start + width) row.validator).find?
      (·.epoch = row.start)).bind (·.metrics.balanceStart)
  /-- The last balance is the one at the last epoch of the bucket. -/
  balanceEnd : row.metrics.balanceEnd =
    ((ownEpochs epochs row.start (row.start + width) row.validator).find?
      (·.epoch = row.stop - 1)).bind (·.metrics.balanceEnd)

/-- The samples of a validator are its epochs. -/
theorem ofValidator_epochSamples (epochs : List EpochRow) (start stop validator : Int) :
    Sample.ofValidator (epochSamples epochs start stop) validator =
      (ownEpochs epochs start stop validator).map (·.sample) := by
  unfold Sample.ofValidator epochSamples ownEpochs
  rw [List.filter_map, List.filter_filter]
  refine congrArg _ (List.filter_congr fun row _ => ?_)
  rw [Bool.eq_iff_iff]
  simp only [Function.comp_apply, Bool.and_eq_true, decide_eq_true_eq]
  exact and_comm

theorem at?_epochSamples (epochs : List EpochRow) (start stop key validator : Int) :
    Sample.at? (epochSamples epochs start stop) key validator =
      ((ownEpochs epochs start stop validator).find? (·.epoch = key)).map (·.sample) := by
  have own : Sample.at? (epochSamples epochs start stop) key validator =
      (Sample.ofValidator (epochSamples epochs start stop) validator).find? (·.key = key) := by
    unfold Sample.at? Sample.ofValidator
    rw [List.find?_filter]
    simp [and_comm]
  rw [own, ofValidator_epochSamples, List.find?_map]
  rfl

/-- A row of the fold of some epochs is their summary. -/
theorem HourlyRow.FoldOf.summarizes {width : Nat} {epochs : List EpochRow} {row : HourlyRow}
    (fold : row.FoldOf width epochs) : row.Summarizes epochs width := by
  obtain ⟨integers, slashed, balanceStart, balanceEnd⟩ := Sample.stored?_eq_some fold.metrics
  rw [ofValidator_epochSamples] at slashed
  simp only [ofValidator_epochSamples] at integers
  rw [at?_epochSamples] at balanceStart balanceEnd
  refine ⟨fold.starts, ?_, ?_, ?_, ?_, ?_, ?_⟩
  · obtain ⟨source, member, inside, validator⟩ := mem_validators_epochSamples.mp fold.seen
    exact List.ne_nil_of_mem (List.mem_filter.mpr
      ⟨member, decide_eq_true ⟨inside, validator⟩⟩)
  · have last := fold.last
    unfold epochSamples at last
    rw [List.map_map] at last
    rw [← last]
    simp [Function.comp_def, EpochRow.sample]
  · intro index
    rw [integers index, List.map_map]
    rfl
  · rw [slashed, List.any_map]
    rfl
  · rw [balanceStart, Option.bind_map]
    rfl
  · rw [balanceEnd, Option.bind_map]
    rfl

/-! ### Epochs in order -/

/-- Epochs arrive whole and in order: rows that arrive are for epochs after all that are stored.
Retention settings may be restricted. -/
def Regime.inOrder (layout : BucketLayout) (retains : RetentionPolicy → Prop) : Regime where
  layout := layout
  retains := retains
  supplies := fun tables rows =>
    ∀ row ∈ rows, 0 ≤ row.epoch ∧ ∀ old ∈ tables.epochs, old.epoch < row.epoch

theorem Regime.orderly_inOrder (layout : BucketLayout) (retains : RetentionPolicy → Prop) :
    (Regime.inOrder layout retains).Orderly (-1) := fun _ _ allowed row member => by
  obtain ⟨positive, after⟩ := allowed row member
  exact ⟨positive, by omega, after⟩

theorem Regime.orderly_quiet (regime : Regime) (limit : Int) : regime.quiet.Orderly limit :=
  fun _ _ allowed => allowed.elim

/-- Epochs in order stay in order. -/
theorem Runs.keyed_epochs {log final : Chronicle} (runs : Runs regime log final)
    (keyed : Keyed EpochRow.key log.now.epochs) : Keyed EpochRow.key final.now.epochs := by
  have stable : regime.Stable fun log => Keyed EpochRow.key log.now.epochs := by
    intro log rows after held _ given
    obtain ⟨stored, -, rfl⟩ := given.upsertEpochs
    rw [Chronicle.now_record]
    exact held.putRows EpochRow.orderedBy_key stored
  refine runs.invariant stable (fun call issues log answer after held given => ?_) keyed
  rw [Chronicle.now_record, given.epochs_of_issues issues]
  exact held

/-- Calls of the engine leave the epochs as they are. -/
theorem Given.same_epochs {epochs : List EpochRow} (call : StoreCall) (issues : layout.Issues call)
    (log : Chronicle) (answer : call.Answer) (after : Tables) (held : log.now.epochs = epochs)
    (given : Given log.now call answer after) : (log.record after).now.epochs = epochs := by
  rw [Chronicle.now_record, given.epochs_of_issues issues]
  exact held

/-- Where nothing arrives, the epochs stay as they are. -/
theorem Runs.epochs_quiet {log final : Chronicle} (runs : Runs regime.quiet log final) :
    final.now.epochs = log.now.epochs :=
  runs.invariant (regime.stable_quiet fun later => later.now.epochs = log.now.epochs)
    Given.same_epochs rfl

/-- There is an epoch to reach such that all epochs are up to it. -/
theorem exists_present (log : Chronicle) :
    ∃ reach, Present reach log ∧ ∀ source ∈ log.now.epochs, source.epoch ≤ reach := by
  cases last : (log.now.epochs.map (·.epoch)).max? with
  | none =>
    refine ⟨-1, Or.inl (by decide), fun source member => ?_⟩
    rw [List.max?_eq_none_iff, List.map_eq_nil_iff] at last
    rw [last] at member
    cases member
  | some reach =>
    obtain ⟨member, most⟩ := List.max?_eq_some_iff.mp last
    obtain ⟨source, sourceMember, same⟩ := List.mem_map.mp member
    exact ⟨reach, Or.inr ⟨source, sourceMember, Int.le_of_eq same.symm⟩,
      fun other otherMember => most _ (List.mem_map.mpr ⟨other, otherMember, rfl⟩)⟩

/-! ### The hourly table -/

/-- The hours are the summaries of all epochs, one for each bucket and validator that has some,
except where the partition of the bucket was dropped. -/
structure HourlyTable (layout : BucketLayout) (log : Chronicle) : Prop where
  /-- An epoch and a validator have one row. -/
  sources : Keyed EpochRow.key log.now.epochs
  /-- A bucket and a validator have one row. -/
  keyed : Keyed HourlyRow.key log.now.hourly
  /-- There are no other rows than summaries, and their partitions are there. -/
  rows : ∀ row ∈ log.now.hourly, row.Summarizes log.now.epochs layout.hourlyWidth ∧
    layout.partitionAt .hourly row.start.toNat ∈ log.now.catalogue
  /-- Every epoch has had a partition. -/
  listed : ∀ source ∈ log.now.epochs,
    log.Ever fun tables => layout.partitionAt .hourly source.epoch.toNat ∈ tables.catalogue
  /-- Every epoch whose partition is there has its row. -/
  complete : ∀ source ∈ log.now.epochs,
    layout.partitionAt .hourly source.epoch.toNat ∈ log.now.catalogue →
      ∃ row, log.now.hourly.filter (fun row : HourlyRow =>
        row.start = ((layout.bucketAt .hourly source.epoch.toNat).start : Int) ∧
          row.validator = source.validator) = [row]

/-- The bucket of a row is the bucket of its epochs. -/
theorem IsHourStart.bucketAt_eq {start epoch : Nat} (starts : IsHourStart layout.hourlyWidth start)
    (after : start ≤ epoch) (before : epoch < start + layout.hourlyWidth) :
    (layout.bucketAt .hourly epoch).start = start := by
  obtain ⟨index, startIs⟩ := starts
  have startIs := Int.ofNat_inj.mp startIs
  rw [BucketLayout.start_bucketAt_hourly, Nat.div_eq_of_lt_le (k := index)]
  · exact startIs.symm
  · omega
  · rw [Nat.add_mul, Nat.one_mul]
    omega

/-- With every epoch below the frontier the hourly table is complete. -/
theorem Folded.hourlyTable {log : Chronicle} (folded : Folded layout log)
    (sources : Keyed EpochRow.key log.now.epochs)
    (all : ∀ source ∈ log.now.epochs, source.epoch < log.now.frontier) :
    HourlyTable layout log := by
  have below : epochsBelow log.now.epochs log.now.frontier = log.now.epochs :=
    List.filter_eq_self.mpr fun source member => decide_eq_true (all source member)
  refine ⟨sources, folded.sound.hourlyKeyed, fun row member => ?_, fun source member =>
    folded.recorded source member (all source member), fun source member listed => ?_⟩
  · obtain ⟨fold, listed⟩ := (folded.member row).mp member
    rw [below] at fold
    exact ⟨fold.summarizes, listed⟩
  · obtain ⟨row, fold, validator, after, before⟩ :=
      folded.complete source member (all source member)
    obtain ⟨start, startIs⟩ := Int.eq_ofNat_of_zero_le fold.starts.nonneg
    have starts := fold.starts
    rw [startIs] at after before starts
    have bucket : (layout.bucketAt .hourly source.epoch.toNat).start = start :=
      starts.bucketAt_eq (by omega) (by omega)
    have here : row ∈ log.now.hourly := by
      refine (folded.member row).mpr ⟨fold, ?_⟩
      rw [startIs, Int.toNat_natCast, ← starts.partitionAt_eq after before]
      exact listed
    refine ⟨row, folded.sound.hourlyKeyed.filter_eq_singleton here ?_ fun other _ kept => ?_⟩
    · rw [bucket]
      exact decide_eq_true ⟨startIs, validator⟩
    · rw [bucket] at kept
      obtain ⟨otherStart, otherValidator⟩ := of_decide_eq_true kept
      exact (HourlyRow.key_eq_iff other row).mpr
        ⟨otherStart.trans startIs.symm, otherValidator.trans validator.symm⟩

/-- Once a fold has come back that began after the last arrival, the hourly table is complete,
whatever was interleaved or failed before and whatever passes and folds come after. -/
theorem hourlyTable_of_foldHourly {retains : RetentionPolicy → Prop}
    {begun folded final : Chronicle} {retention : RetentionPolicy} {report : FoldReport}
    (runs : Runs (Regime.inOrder layout retains) .start begun)
    (fold : (Coordinator.ofStore layout retention).foldHourly.Ends
      (Regime.inOrder layout retains).quiet begun (.ok report) folded)
    (later : Runs (Regime.inOrder layout retains).quiet folded final) :
    HourlyTable layout final := by
  have begunFolded : FoldedWith layout (Caught (-1)) begun :=
    runs.folded (Regime.orderly_inOrder layout retains)
      ⟨Folded.start, fun _ member => absurd member List.not_mem_nil⟩
  obtain ⟨reach, present, all⟩ := exists_present begun
  obtain ⟨⟨kept, -⟩, caught⟩ := keeps_foldHours ((Regime.orderly_quiet _ (-1)).carries layout) reach
    ⟨begunFolded, present⟩ fold
  have same : folded.now.epochs = begun.now.epochs :=
    Coordinator.asks_foldHourly.keeps
      (Regime.stable_quiet _ fun later => later.now.epochs = begun.now.epochs)
      Given.same_epochs rfl fold
  have finalFolded : FoldedWith layout (Caught reach) final :=
    later.folded (Regime.orderly_quiet _ reach) ⟨kept, caught⟩
  have finalSame := later.epochs_quiet.trans same
  refine finalFolded.1.hourlyTable ?_ fun source member => ?_
  · rw [finalSame]
    exact runs.keyed_epochs List.Pairwise.nil
  · rw [finalSame] at member
    exact finalFolded.2 source (finalSame ▸ member) (all source member)

end

/-! ### A schedule with a failure -/

namespace Schedule

/-- Hours of two epochs, each with a partition of its own, on a chain of hourly epochs. -/
def layout : BucketLayout :=
  .ofNumbers ⟨0, 0⟩ 1800 2 2 1 1 (by decide)

/-- Hours are kept for two epochs. -/
def retention : RetentionPolicy := ⟨2, none⟩

/-- The first fold fails after one hour, while the next one is open. The rest of that hour and
a later epoch arrive before the fold is tried again. -/
def party : EmbeddedStore × Chronicle :=
  Act.playAll layout retention
    [.supply [⟨0, 7, .none⟩, ⟨1, 8, .none⟩, ⟨2, 7, .none⟩],
      .place [⟨.rows .hourly, .insert, some 2⟩], .fold, .place [], .pass,
      .supply [⟨3, 7, .none⟩, ⟨6, 8, .none⟩]] (.fresh, .start)

/-- The outcome of the fold, and the store after it. -/
def folding : Except Failure FoldReport × EmbeddedStore × Chronicle :=
  (Coordinator.ofStore layout retention).foldHourly.runOn party.1 party.2

/-- The store after one more pass, which drops the partitions of the first two hours. -/
def final : EmbeddedStore × Chronicle := Act.playAll layout retention [.pass] folding.2

theorem runs_party :
    Runs (.inOrder layout fun _ => True) .start party.2 ∧ party.2.now = party.1.tables := by
  refine Act.runs_playAll trivial .none rfl ⟨?_, ?_, trivial⟩
  · show ∀ row ∈ [_, _, _], _ ∧ ∀ old ∈ Tables.empty.epochs, _
    decide
  · show ∀ row ∈ [_, _], _ ∧ ∀ old ∈ (_ : EmbeddedStore × Chronicle).2.now.epochs, _
    decide +kernel

/-- What the fold reports. -/
def report : FoldReport := ⟨3, 1, 2, 2, some ⟨6, 8⟩⟩

theorem evaluated : folding.1 = .ok report := by decide +kernel

theorem runs_final : Runs (Regime.inOrder layout fun _ => True).quiet folding.2.2 final.2 := by
  have fits : Act.Fits (Regime.inOrder layout fun _ => True).quiet retention [.pass] folding.2 :=
    trivial
  exact (Act.runs_playAll trivial .none (now_run _ runs_party.2) fits).1

end Schedule

/-- The failed fold leaves no trace in the hourly table. -/
theorem hourlyTable_schedule : HourlyTable Schedule.layout Schedule.final.2 :=
  hourlyTable_of_foldHourly Schedule.runs_party.1
    (Procedure.ends_runOn _ Schedule.runs_party.2 Schedule.evaluated)
    Schedule.runs_final

end EpochRollup
