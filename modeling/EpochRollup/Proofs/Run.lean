/-
This file says what a run of the engine is. Rows arrive in the epoch table and engine
operations are performed, in any order. An operation is a dialogue with the store: before
each of its calls more rows may arrive, and each call may fail, which leaves the tables as
they are, or be answered by the store. Operations do not overlap, since folds and passes
take turns. A moment in the middle of an operation is the end of one whose next calls fail,
so what holds at the end of every run holds at every moment.

Statements about runs speak of what the tables held earlier, so a run keeps a chronicle of
its tables. `Procedure.Keeps` is how runs are reasoned about: it says what is true when a
procedure comes back and what is true wherever it fails.
-/

import EpochRollup.Pass.Run
import EpochRollup.Proofs.Call

namespace EpochRollup

/-! ### Chronicles -/

/-- The tables of a store and all the tables it held before, the latest first. -/
structure Chronicle where
  /-- The tables now. -/
  now : Tables
  /-- The tables before. -/
  past : List Tables

namespace Chronicle

/-- The chronicle of a new store. -/
def start : Chronicle := ⟨.empty, []⟩

/-- A chronicle once the store holds these tables. A step that changes nothing leaves no trace. -/
def record (log : Chronicle) (tables : Tables) : Chronicle :=
  if tables = log.now then log else ⟨tables, log.now :: log.past⟩

/-- Something held of the tables at some time up to now. -/
def Ever (log : Chronicle) (holds : Tables → Prop) : Prop :=
  holds log.now ∨ ∃ tables ∈ log.past, holds tables

instance (log : Chronicle) (holds : Tables → Prop) [DecidablePred holds] :
    Decidable (log.Ever holds) :=
  inferInstanceAs (Decidable (_ ∨ _))

@[simp] theorem now_record (log : Chronicle) (tables : Tables) :
    (log.record tables).now = tables := by
  unfold record
  split
  · rename_i same
    exact same.symm
  · rfl

@[simp] theorem record_now (log : Chronicle) : log.record log.now = log := if_pos rfl

theorem ever_record {log : Chronicle} {tables : Tables} {holds : Tables → Prop} :
    (log.record tables).Ever holds ↔ holds tables ∨ log.Ever holds := by
  unfold record
  split
  · rename_i same
    rw [same]
    exact ⟨Or.inr, fun either => either.elim Or.inl id⟩
  · simp [Ever]

/-- What has held, and does not hold of the latest tables, has held before them. -/
theorem ever_of_record {log : Chronicle} {tables : Tables} {holds : Tables → Prop}
    (ever : (log.record tables).Ever holds) (ends : ¬holds tables) : log.Ever holds :=
  (ever_record.mp ever).resolve_left ends

/-- What holds now has held. -/
theorem ever_of_now {log : Chronicle} {holds : Tables → Prop} (held : holds log.now) :
    log.Ever holds := Or.inl held

end Chronicle

/-! ### Runs -/

/-- The circumstances of a run: the layout, the retention settings that operations may have,
and which rows may arrive while the tables are as they are. -/
structure Regime where
  /-- The layout. -/
  layout : BucketLayout
  /-- Retention settings that occur. -/
  retains : RetentionPolicy → Prop
  /-- Rows that may arrive. -/
  supplies : Tables → List EpochRow → Prop

/-- The circumstances without any arrivals. -/
def Regime.quiet (regime : Regime) : Regime := { regime with supplies := fun _ _ => False }

/-- Rows arrive, none or more times. -/
inductive Supplied (regime : Regime) (log : Chronicle) : Chronicle → Prop where
  /-- Nothing arrives. -/
  | none : Supplied regime log log
  /-- Rows arrive once more. -/
  | more {before : Chronicle} {rows : List EpochRow} {after : Tables}
      (earlier : Supplied regime log before) (allowed : regime.supplies before.now rows)
      (given : Given before.now (.upsertEpochs rows) () after) :
      Supplied regime log (before.record after)

/-- A dialogue with the store, while rows arrive, has a result. -/
inductive Performs (regime : Regime) {Result : Type} :
    Dialogue StoreCall StoreCall.Reply Result → Chronicle → Result → Chronicle → Prop where
  /-- The result is there. -/
  | done (result : Result) (log : Chronicle) : Performs regime (.done result) log result log
  /-- A call is answered. -/
  | answered {call : StoreCall} {resume : call.Reply → Dialogue StoreCall StoreCall.Reply Result}
      {log before final : Chronicle} {answer : call.Answer} {after : Tables} {result : Result}
      (supplied : Supplied regime log before) (given : Given before.now call answer after)
      (rest : Performs regime (resume (.ok answer)) (before.record after) result final) :
      Performs regime (.ask call resume) log result final
  /-- A call fails. -/
  | failed {call : StoreCall} {resume : call.Reply → Dialogue StoreCall StoreCall.Reply Result}
      {log before final : Chronicle} (error : StoreError) {result : Result}
      (supplied : Supplied regime log before)
      (rest : Performs regime (resume (.error error)) before result final) :
      Performs regime (.ask call resume) log result final

/-- A procedure comes to an outcome. -/
def Procedure.Ends {Result : Type} (regime : Regime) (procedure : Procedure Result)
    (log : Chronicle) (outcome : Except Failure Result) (final : Chronicle) : Prop :=
  Performs regime procedure.run log outcome final

/-- Rows arrive and operations are performed, one after the other. -/
inductive Runs (regime : Regime) (log : Chronicle) : Chronicle → Prop where
  /-- Nothing happens. -/
  | none : Runs regime log log
  /-- Rows arrive. -/
  | supply {before : Chronicle} {rows : List EpochRow} {after : Tables}
      (earlier : Runs regime log before) (allowed : regime.supplies before.now rows)
      (given : Given before.now (.upsertEpochs rows) () after) :
      Runs regime log (before.record after)
  /-- Epochs are folded into hours. -/
  | fold {before final : Chronicle} {retention : RetentionPolicy}
      {outcome : Except Failure FoldReport} (earlier : Runs regime log before)
      (retained : regime.retains retention)
      (ends : (Coordinator.ofStore regime.layout retention).foldHourly.Ends regime before outcome
        final) :
      Runs regime log final
  /-- A pass is run. -/
  | pass {before final : Chronicle} {retention : RetentionPolicy}
      {outcome : Except Failure PassReport} (earlier : Runs regime log before)
      (retained : regime.retains retention)
      (ends : (Coordinator.ofStore regime.layout retention).runPass.Ends regime before outcome
        final) :
      Runs regime log final

/-! ### What arrivals keep -/

/-- Arriving rows do not disturb something that is true of a chronicle. -/
def Regime.Stable (regime : Regime) (holds : Chronicle → Prop) : Prop :=
  ∀ (log : Chronicle) (rows : List EpochRow) (after : Tables), holds log →
    regime.supplies log.now rows → Given log.now (.upsertEpochs rows) () after →
    holds (log.record after)

theorem Regime.Stable.supplied {regime : Regime} {holds : Chronicle → Prop}
    (stable : regime.Stable holds) {log after : Chronicle} (supplied : Supplied regime log after)
    (held : holds log) : holds after := by
  induction supplied with
  | none => exact held
  | more earlier allowed given inductionHypothesis =>
    exact stable _ _ _ inductionHypothesis allowed given

theorem Regime.Stable.and {regime : Regime} {first second : Chronicle → Prop}
    (firstStable : regime.Stable first) (secondStable : regime.Stable second) :
    regime.Stable fun log => first log ∧ second log :=
  fun log rows after held allowed given =>
    ⟨firstStable log rows after held.1 allowed given,
      secondStable log rows after held.2 allowed given⟩

/-- Nothing is disturbed where nothing arrives. -/
theorem Regime.stable_quiet (regime : Regime) (holds : Chronicle → Prop) :
    regime.quiet.Stable holds := fun _ _ _ _ allowed _ => allowed.elim

/-! ### What stays written -/

theorem Supplied.ever {regime : Regime} {holds : Tables → Prop} {log after : Chronicle}
    (supplied : Supplied regime log after) (held : log.Ever holds) : after.Ever holds := by
  induction supplied with
  | none => exact held
  | more earlier allowed given inductionHypothesis =>
    exact Chronicle.ever_record.mpr (Or.inr inductionHypothesis)

/-- What has held before an operation has held after it. -/
theorem Performs.ever {regime : Regime} {holds : Tables → Prop} {Result : Type}
    {dialogue : Dialogue StoreCall StoreCall.Reply Result} {log final : Chronicle} {result : Result}
    (performs : Performs regime dialogue log result final) (held : log.Ever holds) :
    final.Ever holds := by
  induction performs with
  | done result log => exact held
  | answered supplied given rest inductionHypothesis =>
    exact inductionHypothesis (Chronicle.ever_record.mpr (Or.inr (supplied.ever held)))
  | failed error supplied rest inductionHypothesis =>
    exact inductionHypothesis (supplied.ever held)

/-- What has held before a run has held after it. -/
theorem Runs.ever {regime : Regime} {holds : Tables → Prop} {log final : Chronicle}
    (runs : Runs regime log final) (held : log.Ever holds) : final.Ever holds := by
  induction runs with
  | none => exact held
  | supply earlier allowed given inductionHypothesis =>
    exact Chronicle.ever_record.mpr (Or.inr inductionHypothesis)
  | fold earlier retained ends inductionHypothesis => exact Performs.ever ends inductionHypothesis
  | pass earlier retained ends inductionHypothesis => exact Performs.ever ends inductionHypothesis

/-- A run may be continued. -/
theorem Runs.trans {regime : Regime} {log between final : Chronicle}
    (begun : Runs regime log between) (goesOn : Runs regime between final) :
    Runs regime log final := by
  induction goesOn with
  | none => exact begun
  | supply earlier allowed given inductionHypothesis =>
    exact inductionHypothesis.supply allowed given
  | fold earlier retained ends inductionHypothesis => exact inductionHypothesis.fold retained ends
  | pass earlier retained ends inductionHypothesis => exact inductionHypothesis.pass retained ends

/-! ### What procedures keep -/

/-- A dialogue followed by another is performed by performing both. -/
theorem performs_bind {regime : Regime} {First Result : Type}
    {dialogue : Dialogue StoreCall StoreCall.Reply First}
    {next : First → Dialogue StoreCall StoreCall.Reply Result} {log final : Chronicle}
    {result : Result} :
    Performs regime (dialogue.bind next) log result final ↔
      ∃ first between, Performs regime dialogue log first between ∧
        Performs regime (next first) between result final := by
  induction dialogue generalizing log with
  | done first =>
    constructor
    · intro performed
      exact ⟨first, log, .done first log, performed⟩
    · rintro ⟨_, _, ⟨⟩, performed⟩
      exact performed
  | ask call resume inductionHypothesis =>
    constructor
    · intro performed
      cases performed with
      | answered supplied given rest =>
        obtain ⟨first, between, begun, ended⟩ := (inductionHypothesis _).mp rest
        exact ⟨first, between, .answered supplied given begun, ended⟩
      | failed error supplied rest =>
        obtain ⟨first, between, begun, ended⟩ := (inductionHypothesis _).mp rest
        exact ⟨first, between, .failed error supplied begun, ended⟩
    · rintro ⟨first, between, begun, ended⟩
      cases begun with
      | answered supplied given rest =>
        exact .answered supplied given ((inductionHypothesis _).mpr ⟨first, between, rest, ended⟩)
      | failed error supplied rest =>
        exact .failed error supplied ((inductionHypothesis _).mpr ⟨first, between, rest, ended⟩)

namespace Procedure

variable {regime : Regime} {Result : Type} {always before : Chronicle → Prop}

/-- A procedure that begins where `before` holds ends where `after` holds if it comes back,
and where `always` holds if it fails. -/
def Keeps (regime : Regime) (always before : Chronicle → Prop) (procedure : Procedure Result)
    (after : Result → Chronicle → Prop) : Prop :=
  ∀ ⦃log : Chronicle⦄ ⦃outcome : Except Failure Result⦄ ⦃final : Chronicle⦄, before log →
    procedure.Ends regime log outcome final →
      match outcome with
      | .ok result => after result final
      | .error _ => always final

theorem Keeps.weaken {procedure : Procedure Result} {after : Result → Chronicle → Prop}
    {ever earlier : Chronicle → Prop} {later : Result → Chronicle → Prop}
    (keeps : procedure.Keeps regime always before after)
    (failing : ∀ log, always log → ever log) (weaker : ∀ log, earlier log → before log)
    (stronger : ∀ result log, after result log → later result log) :
    procedure.Keeps regime ever earlier later := by
  intro log outcome final held ends
  have kept := keeps (weaker log held) ends
  cases outcome with
  | ok result => exact stronger result final kept
  | error failure => exact failing final kept

theorem Keeps.and {procedure : Procedure Result} {after : Result → Chronicle → Prop}
    {ever earlier : Chronicle → Prop} {later : Result → Chronicle → Prop}
    (first : procedure.Keeps regime always before after)
    (second : procedure.Keeps regime ever earlier later) :
    procedure.Keeps regime (fun log => always log ∧ ever log)
      (fun log => before log ∧ earlier log)
      (fun result log => after result log ∧ later result log) := by
  intro log outcome final held ends
  have kept := first held.1 ends
  have also := second held.2 ends
  cases outcome with
  | ok result => exact ⟨kept, also⟩
  | error failure => exact ⟨kept, also⟩

/-- What a procedure keeps, it may keep because of something that is known before. -/
theorem Keeps.knowing {procedure : Procedure Result} {fact : Prop}
    {after : Result → Chronicle → Prop} (known : ∀ log, before log → fact)
    (keeps : fact → procedure.Keeps regime always before after) :
    procedure.Keeps regime always before after :=
  fun _ _ _ held ends => keeps (known _ held) held ends

theorem keeps_pure {result : Result} {after : Result → Chronicle → Prop}
    (held : ∀ log, before log → after result log) :
    (pure result : Procedure Result).Keeps regime always before after := by
  intro log outcome final holds ends
  cases ends
  exact held log holds

theorem keeps_bind {First : Type} {procedure : Procedure First} {next : First → Procedure Result}
    {after : Result → Chronicle → Prop} (between : First → Chronicle → Prop)
    (first : procedure.Keeps regime always before between)
    (rest : ∀ result, (next result).Keeps regime always (between result) after) :
    (procedure >>= next).Keeps regime always before after := by
  intro log outcome final holds ends
  obtain ⟨begun, middle, beginning, ending⟩ := performs_bind.mp ends
  have kept := first holds beginning
  cases begun with
  | ok result => exact rest result kept ending
  | error failure =>
    cases ending
    exact kept

theorem keeps_settle {call : StoreCall} {blame : StoreError → RollupError}
    {after : call.Answer → Chronicle → Prop} (stable : regime.Stable before)
    (failing : ∀ log, before log → always log)
    (answered : ∀ log answer tables, before log → Given log.now call answer tables →
      after answer (log.record tables)) :
    Keeps regime always before (ExceptT.mk do return settle blame (← Dialogue.call call))
      after := by
  intro log outcome final holds ends
  obtain ⟨reply, middle, asking, ending⟩ := performs_bind.mp ends
  cases ending
  cases asking with
  | answered supplied given rest =>
    cases rest
    exact answered _ _ _ (stable.supplied supplied holds) given
  | failed error supplied rest =>
    cases rest
    exact failing _ (stable.supplied supplied holds)

/-- A call keeps what arrivals do not disturb and its answers keep. -/
theorem keeps_ask {operation : String} {call : StoreCall}
    {after : call.Answer → Chronicle → Prop} (stable : regime.Stable before)
    (failing : ∀ log, before log → always log)
    (answered : ∀ log answer tables, before log → Given log.now call answer tables →
      after answer (log.record tables)) :
    (ask operation call).Keeps regime always before after := keeps_settle stable failing answered

theorem keeps_askFor {operation : String} {range : EpochRange} {call : StoreCall}
    {after : call.Answer → Chronicle → Prop} (stable : regime.Stable before)
    (failing : ∀ log, before log → always log)
    (answered : ∀ log answer tables, before log → Given log.now call answer tables →
      after answer (log.record tables)) :
    (askFor operation range call).Keeps regime always before after :=
  keeps_settle stable failing answered

/-- What comes after a computation knows what was computed. -/
theorem keeps_compute_bind {First : Type} {computed : Except Abort First}
    {next : First → Procedure Result} {after : Result → Chronicle → Prop}
    (failing : ∀ log, before log → always log)
    (rest : ∀ first, computed = .ok first → (next first).Keeps regime always before after) :
    (compute computed >>= next).Keeps regime always before after := by
  cases computed with
  | ok first => exact rest first rfl
  | error cause =>
    intro log outcome final holds ends
    cases ends
    exact failing log holds

theorem Keeps.inStep {procedure : Procedure Result} {after : Result → Chronicle → Prop}
    (keeps : procedure.Keeps regime always before after) (step : PassStep) :
    (procedure.inStep step).Keeps regime always before after := by
  intro log outcome final holds ends
  obtain ⟨inner, middle, performing, ending⟩ := performs_bind.mp ends
  have kept := keeps holds performing
  cases inner with
  | ok result =>
    cases ending
    exact kept
  | error failure =>
    cases ending
    exact kept

end Procedure

/-! ### What runs keep -/

/-- What arrivals do not disturb and operations keep, runs keep. -/
theorem Runs.keeps {regime : Regime} {holds : Chronicle → Prop} (stable : regime.Stable holds)
    (fold : ∀ retention, regime.retains retention →
      (Coordinator.ofStore regime.layout retention).foldHourly.Keeps regime holds holds
        fun _ => holds)
    (pass : ∀ retention, regime.retains retention →
      (Coordinator.ofStore regime.layout retention).runPass.Keeps regime holds holds
        fun _ => holds)
    {log final : Chronicle} (runs : Runs regime log final) (held : holds log) : holds final := by
  induction runs with
  | none => exact held
  | supply earlier allowed given inductionHypothesis =>
    exact stable _ _ _ inductionHypothesis allowed given
  | @fold _ _ retention outcome earlier retained ends inductionHypothesis =>
    have kept := fold retention retained inductionHypothesis ends
    cases outcome <;> exact kept
  | @pass _ _ retention outcome earlier retained ends inductionHypothesis =>
    have kept := pass retention retained inductionHypothesis ends
    cases outcome <;> exact kept

/-! ### Runs on a store -/

/-- How a store answers a call while its chronicle is kept. -/
def EmbeddedStore.answerRecorded (call : StoreCall) (party : EmbeddedStore × Chronicle) :
    call.Reply × EmbeddedStore × Chronicle :=
  let (reply, after) := party.1.answer call
  (reply, after, party.2.record after.tables)

/-- The outcome of a procedure on a store, the store after it, and its chronicle. -/
def Procedure.runOn {Result : Type} (procedure : Procedure Result) (store : EmbeddedStore)
    (log : Chronicle) : Except Failure Result × EmbeddedStore × Chronicle :=
  procedure.runWith EmbeddedStore.answerRecorded (store, log)

/-- The answer of a store is given, and a store that fails a call keeps its tables. -/
theorem EmbeddedStore.answer_cases (store : EmbeddedStore) (call : StoreCall) :
    (∃ answer, (store.answer call).1 = .ok answer ∧
        Given store.tables call answer (store.answer call).2.tables) ∨
      ∃ error, store.answer call = (.error error, store) := by
  cases reply : (store.answer call).1 with
  | error error => exact Or.inr ⟨error, Prod.ext reply (answer_error reply)⟩
  | ok answer =>
    refine Or.inl ⟨answer, rfl, store, rfl, Prod.ext reply ?_⟩
    unfold EmbeddedStore.answer at reply ⊢
    split at reply <;> simp_all

/-- What a store answers is given. -/
theorem EmbeddedStore.given_of_answer {store : EmbeddedStore} {call : StoreCall}
    {answer : call.Answer} (replied : (store.answer call).1 = .ok answer) :
    Given store.tables call answer (store.answer call).2.tables := by
  rcases store.answer_cases call with ⟨other, otherReplied, given⟩ | ⟨error, failed⟩
  · rw [replied, Except.ok.injEq] at otherReplied
    rw [otherReplied]
    exact given
  · rw [failed] at replied
    cases replied

theorem now_run {Result : Type} (dialogue : Dialogue StoreCall StoreCall.Reply Result)
    {store : EmbeddedStore} {log : Chronicle} (same : log.now = store.tables) :
    (dialogue.run EmbeddedStore.answerRecorded (store, log)).2.2.now =
      (dialogue.run EmbeddedStore.answerRecorded (store, log)).2.1.tables := by
  induction dialogue generalizing store log with
  | done result => exact same
  | ask call resume inductionHypothesis =>
    exact inductionHypothesis (store.answer call).1 (log.now_record (store.answer call).2.tables)

/-- What a store does with a dialogue, a run can do. -/
theorem performs_run {regime : Regime} {Result : Type}
    (dialogue : Dialogue StoreCall StoreCall.Reply Result) {store : EmbeddedStore}
    {log : Chronicle} (same : log.now = store.tables) :
    Performs regime dialogue log (dialogue.run EmbeddedStore.answerRecorded (store, log)).1
      (dialogue.run EmbeddedStore.answerRecorded (store, log)).2.2 := by
  induction dialogue generalizing store log with
  | done result => exact .done result log
  | ask call resume inductionHypothesis =>
    have unfolded : (Dialogue.ask call resume).run EmbeddedStore.answerRecorded (store, log) =
        (resume (store.answer call).1).run EmbeddedStore.answerRecorded
          ((store.answer call).2, log.record (store.answer call).2.tables) := rfl
    rw [unfolded]
    have rest := inductionHypothesis (store.answer call).1
      (log.now_record (store.answer call).2.tables)
    rcases store.answer_cases call with ⟨answer, reply, given⟩ | ⟨error, failed⟩
    · rw [reply] at rest ⊢
      rw [← same] at given
      exact .answered .none given rest
    · rw [failed] at rest ⊢
      dsimp only at rest ⊢
      rw [← same, log.record_now] at rest ⊢
      exact .failed error .none rest

/-- Keeping a chronicle changes nothing for the store. -/
theorem run_answerRecorded {Result : Type} (dialogue : Dialogue StoreCall StoreCall.Reply Result)
    (store : EmbeddedStore) (log : Chronicle) :
    (dialogue.run EmbeddedStore.answerRecorded (store, log)).1 =
        (dialogue.run EmbeddedStore.answer store).1 ∧
      (dialogue.run EmbeddedStore.answerRecorded (store, log)).2.1 =
        (dialogue.run EmbeddedStore.answer store).2 := by
  induction dialogue generalizing store log with
  | done result => exact ⟨rfl, rfl⟩
  | ask call resume inductionHypothesis =>
    exact inductionHypothesis (store.answer call).1 (store.answer call).2
      (log.record (store.answer call).2.tables)

/-- A run can do what a store does, whatever the tables were before. -/
theorem Procedure.exists_ends {regime : Regime} {Result : Type} {procedure : Procedure Result}
    {store after : EmbeddedStore} {outcome : Except Failure Result} {log : Chronicle}
    (ran : procedure.runWith EmbeddedStore.answer store = (outcome, after))
    (same : log.now = store.tables) :
    ∃ final, procedure.Ends regime log outcome final ∧ final.now = after.tables := by
  obtain ⟨outcomeIs, storeIs⟩ := run_answerRecorded procedure.run store log
  unfold Procedure.runWith at ran
  rw [ran] at outcomeIs storeIs
  refine ⟨_, outcomeIs ▸ performs_run procedure.run same, ?_⟩
  rw [now_run procedure.run same, storeIs]

/-! ### Written runs -/

/-- A step of a run that is written down. -/
inductive Act where
  /-- Rows arrive. -/
  | supply (rows : List EpochRow)
  /-- Epochs are folded into hours. -/
  | fold
  /-- A pass is run. -/
  | pass
  /-- The store has these faults from now on. -/
  | place (faults : List Fault)

namespace Act

variable {regime : Regime} {retention : RetentionPolicy}

/-- A store and its chronicle after a step. -/
def play (layout : BucketLayout) (retention : RetentionPolicy) :
    Act → EmbeddedStore × Chronicle → EmbeddedStore × Chronicle
  | .supply rows, party => (EmbeddedStore.answerRecorded (.upsertEpochs rows) party).2
  | .fold, party => ((Coordinator.ofStore layout retention).foldHourly.runOn party.1 party.2).2
  | .pass, party => ((Coordinator.ofStore layout retention).runPass.runOn party.1 party.2).2
  | .place faults, party => ({ party.1 with faults }, party.2)

/-- A store and its chronicle after several steps. -/
def playAll (layout : BucketLayout) (retention : RetentionPolicy) (acts : List Act)
    (party : EmbeddedStore × Chronicle) : EmbeddedStore × Chronicle :=
  acts.foldl (fun party act => act.play layout retention party) party

/-- Rows arrive only where they may. -/
def Fits (regime : Regime) (retention : RetentionPolicy) :
    List Act → EmbeddedStore × Chronicle → Prop
  | [], _ => True
  | .supply rows :: rest, party =>
    regime.supplies party.2.now rows ∧
      Fits regime retention rest (play regime.layout retention (.supply rows) party)
  | act :: rest, party => Fits regime retention rest (play regime.layout retention act party)

theorem now_play (act : Act) {party : EmbeddedStore × Chronicle}
    (same : party.2.now = party.1.tables) :
    (act.play regime.layout retention party).2.now =
      (act.play regime.layout retention party).1.tables := by
  cases act with
  | supply rows => exact party.2.now_record _
  | fold => exact now_run _ same
  | pass => exact now_run _ same
  | place faults => exact same

/-- A written run is a run. -/
theorem runs_playAll (retained : regime.retains retention) {acts : List Act}
    {party : EmbeddedStore × Chronicle} {log : Chronicle} (runs : Runs regime log party.2)
    (same : party.2.now = party.1.tables) (fits : Fits regime retention acts party) :
    Runs regime log (playAll regime.layout retention acts party).2 ∧
      (playAll regime.layout retention acts party).2.now =
        (playAll regime.layout retention acts party).1.tables := by
  induction acts generalizing party with
  | nil => exact ⟨runs, same⟩
  | cons act rest inductionHypothesis =>
    refine inductionHypothesis ?_ (now_play act same) ?_
    · cases act with
      | supply rows =>
        show Runs regime log (party.2.record (party.1.answer (.upsertEpochs rows)).2.tables)
        rcases party.1.answer_cases (.upsertEpochs rows) with
          ⟨answer, -, given⟩ | ⟨error, failed⟩
        · rw [← same] at given
          exact runs.supply fits.1 given
        · rw [failed, ← same, party.2.record_now]
          exact runs
      | fold => exact runs.fold retained (performs_run _ same)
      | pass => exact runs.pass retained (performs_run _ same)
      | place faults => exact runs
    · cases act with
      | supply rows => exact fits.2
      | fold => exact fits
      | pass => exact fits
      | place faults => exact fits

end Act

/-- What a store does with a procedure, a run can do. -/
theorem Procedure.ends_runOn {regime : Regime} {Result : Type} (procedure : Procedure Result)
    {party : EmbeddedStore × Chronicle} (same : party.2.now = party.1.tables)
    {outcome : Except Failure Result} (outcomeIs : (procedure.runOn party.1 party.2).1 = outcome) :
    procedure.Ends regime party.2 outcome (procedure.runOn party.1 party.2).2.2 := by
  rw [← outcomeIs]
  exact performs_run procedure.run same

end EpochRollup
