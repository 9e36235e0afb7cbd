/-
This file says how a store on a server writes: in a transaction, whatever the server answers.
A transaction sends its beginning, its statements in order, and its end, and says nothing more
once a call is refused. `Conversation` is this way of talking, with one rule for each way it can
go on; an exchange follows a list of requests when every server hears such a conversation from
it (`Exchange.Follows`). What is claimed of the three writes is then read off a conversation,
down to the texts of their statements.
-/

import Mathlib.Data.List.Infix
import EpochRollup.Store.Server

namespace EpochRollup

/-! ### What a server hears -/

/-- The text of an answer that is a refusal. -/
def refusalText {Answer : Type} : Except String Answer → Option String
  | .ok _ => none
  | .error text => some text

/-- The text with which a server refused a call, if it did. -/
def ServerCall.refusal : (call : ServerCall) → call.Reply → Option String
  | .requestEncryption, _ | .startUp _, _ | .sendPassword _, _ => none
  | .connect _, reply | .begin, reply | .commit, reply => refusalText reply
  | .execute _ _, reply => refusalText reply
  | .fetch _ _, reply => refusalText reply

/-- The text of the statement that a call runs, if it runs one. -/
def ServerCall.statementText? : ServerCall → Option String
  | .execute statement _ | .fetch statement _ => some statement.text
  | _ => none

/-- A call that was sent, and the text of its refusal, if it was refused. -/
structure Sent where
  /-- The call. -/
  call : ServerCall
  /-- The text of the refusal. -/
  refusal : Option String
deriving DecidableEq

/-- A call that was sent and not refused. -/
def Sent.accepted (call : ServerCall) : Sent := ⟨call, none⟩

namespace ServerStore

variable {Server : Type} (serve : (call : ServerCall) → Server → call.Reply × Server)

/-- A server that also writes down what it hears. -/
def recording (call : ServerCall) (party : Server × List Sent) :
    call.Reply × (Server × List Sent) :=
  let (reply, after) := serve call party.1
  (reply, after, party.2 ++ [⟨call, call.refusal reply⟩])

/-- What a server hears while a store call is answered. -/
def heard (call : StoreCall) (server : Server) : List Sent :=
  (answer (recording serve) call (server, [])).2.2

/-- Writing down what is heard changes no answer. -/
theorem run_recording {Result : Type}
    (dialogue : Dialogue ServerCall ServerCall.Reply Result) (server : Server) (log : List Sent) :
    (dialogue.run (recording serve) (server, log)).1 = (dialogue.run serve server).1 := by
  induction dialogue generalizing server log with
  | done result => rfl
  | ask call resume inductionHypothesis => exact inductionHypothesis _ _ _

theorem answer_recording (call : StoreCall) (server : Server) :
    (answer (recording serve) call (server, [])).1 = (answer serve call server).1 :=
  run_recording serve _ server []

end ServerStore

/-! ### Refusals -/

/-- Statements that can be refused for want of a partition: the two folds, the write of an hourly
row, and the write of the rolling table. -/
def ServerStatement.needsPartition : ServerStatement → Bool
  | .upsertHourly | .insertRolling | .foldHour | .foldDay => true
  | _ => false

/-- The error a refusal of a call becomes. -/
def ServerCall.failure (call : ServerCall) (text : String) : StoreError :=
  match call with
  | .execute statement _ =>
    if statement.needsPartition ∧ "no partition of relation".toList <:+: text.toList then
      .missingPartition text
    else
      .database (.refused text)
  | _ => .database (.refused text)

theorem StoreError.ofRefusedWrite_eq (text : String) :
    ofRefusedWrite text =
      if "no partition of relation".toList <:+: text.toList then .missingPartition text
      else .database (.refused text) := by
  unfold ofRefusedWrite
  simp only [String.contains_string_iff]

/-! ### Conversations -/

section

variable {Result Next : Type} {ends : Except StoreError Result → Prop}

/-- The outcome is a result. -/
def Succeeds (outcome : Except StoreError Result) : Prop := ∃ result, outcome = .ok result

/-- The requests are made one after the other. The first that is refused ends the conversation
with its error; when none is, an outcome is reached. -/
inductive Conversation (ends : Except StoreError Result → Prop) :
    List ServerCall → List Sent → Except StoreError Result → Prop where
  /-- No request is left. -/
  | finished {outcome : Except StoreError Result} (reached : ends outcome) :
    Conversation ends [] [] outcome
  /-- The next request is refused. -/
  | refused (request : ServerCall) (unmade : List ServerCall) (text : String) :
    Conversation ends (request :: unmade) [⟨request, some text⟩]
      (.error (request.failure text))
  /-- The next request is accepted. -/
  | accepted (request : ServerCall) {requests : List ServerCall} {sent : List Sent}
    {outcome : Except StoreError Result} (rest : Conversation ends requests sent outcome) :
    Conversation ends (request :: requests) (.accepted request :: sent) outcome

/-- What follows an exchange is said after its requests, unless one of them is refused. -/
theorem Conversation.continues {first : List ServerCall} {sent : List Sent}
    {outcome : Except StoreError Result} (conversation : Conversation Succeeds first sent outcome)
    (second : List ServerCall) (ends : Except StoreError Next → Prop) :
    (∃ result, outcome = .ok result ∧ ∀ {said : List Sent} {last : Except StoreError Next},
      Conversation ends second said last →
        Conversation ends (first ++ second) (sent ++ said) last) ∨
      ∃ error, outcome = .error error ∧
        Conversation ends (first ++ second) sent (.error error) := by
  induction conversation with
  | finished reached =>
    obtain ⟨result, rfl⟩ := reached
    exact .inl ⟨result, rfl, fun others => others⟩
  | refused request unmade text => exact .inr ⟨_, rfl, .refused request (unmade ++ second) text⟩
  | accepted request _ inductionHypothesis =>
    rcases inductionHypothesis with ⟨result, same, continued⟩ | ⟨error, same, stops⟩
    · exact .inl ⟨result, same, fun others => .accepted request (continued others)⟩
    · exact .inr ⟨error, same, .accepted request stops⟩

/-- A conversation that can only end in an error has failed, whatever was to come of it. -/
theorem Conversation.fails {requests : List ServerCall} {sent : List Sent} {error : StoreError}
    {outcome : Except StoreError Result}
    (conversation : Conversation (· = .error error) requests sent outcome) (Next : Type) :
    ∃ reason, outcome = .error reason ∧
      Conversation (fun last : Except StoreError Next => last = .error error) requests sent
        (.error reason) := by
  induction conversation with
  | finished reached => exact ⟨error, reached, .finished rfl⟩
  | refused request unmade text => exact ⟨_, rfl, .refused request unmade text⟩
  | accepted request _ inductionHypothesis =>
    obtain ⟨reason, same, failed⟩ := inductionHypothesis
    exact ⟨reason, same, .accepted request failed⟩

namespace Conversation

variable {calls earlier : List ServerCall} {sent : List Sent} {outcome : Except StoreError Result}

theorem calls_prefix (conversation : Conversation ends calls sent outcome) :
    sent.map (·.call) <+: calls := by
  induction conversation with
  | finished _ => exact List.prefix_rfl
  | refused request unmade text => exact List.cons_prefix_cons.mpr ⟨rfl, List.nil_prefix⟩
  | accepted request _ inductionHypothesis =>
    exact List.cons_prefix_cons.mpr ⟨rfl, inductionHypothesis⟩

/-- Nothing is said after a refusal. -/
theorem stops (conversation : Conversation ends calls sent outcome) :
    ∀ said ∈ sent.dropLast, said.refusal = none := by
  induction conversation with
  | finished _ => exact fun _ member => absurd member List.not_mem_nil
  | refused request unmade text => exact fun _ member => absurd member List.not_mem_nil
  | @accepted request _ sent _ _ inductionHypothesis =>
    intro said member
    cases sent with
    | nil => cases member
    | cons next rest =>
      rcases List.mem_cons.mp member with rfl | member
      · rfl
      · exact inductionHypothesis said member

/-- A refusal decides the outcome. -/
theorem outcome_of_refused (conversation : Conversation ends calls sent outcome) {said : Sent}
    (member : said ∈ sent) {text : String} (refused : said.refusal = some text) :
    outcome = .error (said.call.failure text) := by
  induction conversation with
  | finished _ => cases member
  | refused request unmade told =>
    obtain rfl := List.mem_singleton.mp member
    cases refused
    rfl
  | accepted request _ inductionHypothesis =>
    rcases List.mem_cons.mp member with rfl | member
    · cases refused
    · exact inductionHypothesis member

/-- When nothing is refused, every call is made. -/
theorem complete (conversation : Conversation ends calls sent outcome)
    (unrefused : ∀ said ∈ sent, said.refusal = none) :
    sent.map (·.call) = calls ∧ ends outcome := by
  induction conversation with
  | finished reached => exact ⟨rfl, reached⟩
  | refused request unmade text => cases unrefused _ List.mem_cons_self
  | accepted request _ inductionHypothesis =>
    obtain ⟨same, reached⟩ :=
      inductionHypothesis fun said member => unrefused said (List.mem_cons_of_mem _ member)
    exact ⟨congrArg (List.cons request) same, reached⟩

/-- The last call is made when every call before it was accepted. -/
theorem last_mem_iff {last : ServerCall}
    (conversation : Conversation ends (earlier ++ [last]) sent outcome) (new : last ∉ earlier) :
    last ∈ sent.map (·.call) ↔ earlier.map Sent.accepted <+: sent := by
  induction earlier generalizing sent with
  | nil =>
    cases conversation <;> simp [Sent.accepted]
  | cons request rest inductionHypothesis =>
    obtain ⟨other, new⟩ := List.ne_and_not_mem_of_not_mem_cons new
    cases conversation with
    | refused _ _ text => simp [Sent.accepted, other]
    | accepted _ conversation =>
      rw [List.map_cons, List.map_cons, List.cons_prefix_cons,
        ← inductionHypothesis conversation new, List.mem_cons, and_iff_right rfl]
      exact or_iff_right other

/-- A result is reached when the last call is accepted. -/
theorem succeeds_iff {last : ServerCall}
    (conversation : Conversation Succeeds (earlier ++ [last]) sent outcome)
    (new : last ∉ earlier) : Succeeds outcome ↔ .accepted last ∈ sent := by
  induction earlier generalizing sent with
  | nil =>
    cases conversation with
    | refused _ _ text => simp [Sent.accepted, Succeeds]
    | accepted _ rest =>
      cases rest with
      | finished reached => simpa using reached
  | cons request rest inductionHypothesis =>
    obtain ⟨other, new⟩ := List.ne_and_not_mem_of_not_mem_cons new
    cases conversation with
    | refused _ _ text => simp [Sent.accepted, Succeeds]
    | accepted _ conversation =>
      rw [inductionHypothesis conversation new, List.mem_cons]
      refine (or_iff_right fun same => other ?_).symm
      exact congrArg Sent.call same

end Conversation

namespace Exchange

/-- Every server hears an exchange make the requests, and what it comes to is one of the
outcomes. -/
def Follows (exchange : Exchange Result) (requests : List ServerCall)
    (ends : Except StoreError Result → Prop) : Prop :=
  ∀ (Server : Type) (serve : (call : ServerCall) → Server → call.Reply × Server)
    (server : Server) (log : List Sent), ∃ outcome after sent,
    Dialogue.run (ServerStore.recording serve) exchange.run (server, log) =
      (outcome, after, log ++ sent) ∧ Conversation ends requests sent outcome

theorem follows_call (call : ServerCall) (blame : String → StoreError)
    (told : call.Reply → Except String Result)
    (same : ∀ reply, call.refusal reply = refusalText (told reply))
    (blamed : ∀ text, blame text = call.failure text) :
    Follows (ExceptT.mk do return settle blame (told (← Dialogue.call call))) [call]
      Succeeds := by
  intro Server serve server log
  refine ⟨_, _, [⟨call, call.refusal (serve call server).1⟩], rfl, ?_⟩
  show Conversation _ _ _ (settle blame (told (serve call server).1))
  rw [same]
  cases told (serve call server).1 with
  | ok result => exact .accepted call (.finished ⟨result, rfl⟩)
  | error text =>
    rw [settle, blamed]
    exact .refused call [] text

theorem follows_begin :
    Follows (ExceptT.mk do return settle refused (← Dialogue.call .begin)) [.begin] Succeeds :=
  follows_call .begin refused (fun reply => reply) (fun _ => rfl) fun _ => rfl

theorem follows_commit :
    Follows (ExceptT.mk do return settle refused (← Dialogue.call .commit)) [.commit] Succeeds :=
  follows_call .commit refused (fun reply => reply) (fun _ => rfl) fun _ => rfl

theorem follows_execute {statement : ServerStatement} (plain : statement.needsPartition = false)
    (values : List Cell) :
    (execute statement values).Follows [.execute statement values] Succeeds := by
  refine follows_call (.execute statement values) refused (fun reply => reply) (fun _ => rfl)
    fun text => ?_
  simp only [ServerCall.failure, plain, Bool.false_eq_true, false_and, if_false]
  rfl

theorem follows_write {statement : ServerStatement} (parted : statement.needsPartition = true)
    (values : List Cell) :
    (write statement values).Follows [.execute statement values] Succeeds := by
  refine follows_call (.execute statement values) StoreError.ofRefusedWrite (fun reply => reply)
    (fun _ => rfl) fun text => ?_
  simp only [ServerCall.failure, parted, true_and]
  exact StoreError.ofRefusedWrite_eq text

theorem follows_pure (result : Result) : Follows (pure result) [] Succeeds :=
  fun _ _ server log => ⟨_, server, [], congrArg _ (congrArg _ (List.append_nil log).symm),
    .finished ⟨result, rfl⟩⟩

/-- An exchange goes on with the next one after its own requests. -/
theorem Follows.bind {exchange : Exchange Result} {next : Result → Exchange Next}
    {first second : List ServerCall} {ends : Except StoreError Next → Prop}
    (begun : exchange.Follows first Succeeds)
    (continued : ∀ result, (next result).Follows second ends) :
    (exchange >>= next).Follows (first ++ second) ends := by
  intro Server serve server log
  obtain ⟨outcome, between, sent, ran, conversation⟩ := begun Server serve server log
  have taken := Dialogue.run_bind (ServerStore.recording serve) exchange.run
    (ExceptT.bindCont next) (server, log)
  rw [ran] at taken
  rcases conversation.continues second ends with ⟨result, rfl, joined⟩ | ⟨error, rfl, stops⟩
  · obtain ⟨last, after, said, ended, others⟩ :=
      continued result Server serve between (log ++ sent)
    refine ⟨last, after, sent ++ said, ?_, joined others⟩
    rw [← List.append_assoc]
    exact taken.trans ended
  · exact ⟨.error error, between, sent, taken, stops⟩

/-- An exchange whose own part fails goes no further. -/
theorem Follows.bind_of_error {exchange : Exchange Result} {next : Result → Exchange Next}
    {requests : List ServerCall} {error : StoreError}
    (failed : exchange.Follows requests (· = .error error)) :
    (exchange >>= next).Follows requests (· = .error error) := by
  intro Server serve server log
  obtain ⟨outcome, between, sent, ran, conversation⟩ := failed Server serve server log
  have taken := Dialogue.run_bind (ServerStore.recording serve) exchange.run
    (ExceptT.bindCont next) (server, log)
  rw [ran] at taken
  obtain ⟨error, rfl, same⟩ := conversation.fails Next
  exact ⟨.error error, between, sent, taken, same⟩

/-- Exchanges that each make one request make all of them, one for each item. -/
theorem follows_forM {Item : Type} {act : Item → Exchange Unit} {request : Item → ServerCall}
    (each : ∀ item, (act item).Follows [request item] Succeeds) (items : List Item) :
    (items.forM act).Follows (items.map request) Succeeds := by
  induction items with
  | nil => exact follows_pure ()
  | cons item rest inductionHypothesis =>
    exact (each item).bind fun _ => inductionHypothesis

/-- A transaction whose statements all bind. -/
theorem Follows.transaction {body : Exchange Result} {calls : List ServerCall}
    (follows : body.Follows calls Succeeds) :
    (Exchange.transaction body).Follows (.begin :: (calls ++ [.commit])) Succeeds := by
  refine follows_begin.bind fun _ => follows.bind fun result => ?_
  have ended := follows_commit.bind fun _ => follows_pure result
  exact ended

/-- A transaction that comes upon a value it cannot bind. -/
theorem Follows.transaction_of_error {body : Exchange Result} {calls : List ServerCall}
    {error : StoreError} (follows : body.Follows calls (· = .error error)) :
    (Exchange.transaction body).Follows (.begin :: calls) (· = .error error) :=
  follows_begin.bind fun _ => follows.bind_of_error

theorem bound_eq_pure {epoch : Nat} (fits : epoch < storedLimit) :
    bound epoch = pure (.integer epoch) := by
  unfold bound
  rw [storedEpoch_eq_ok_iff.mpr ⟨fits, rfl⟩]

theorem follows_bound_of_le {epoch : Nat} (large : storedLimit ≤ epoch) :
    (bound epoch).Follows [] (· = .error (.epochTooLarge epoch)) := by
  have rejected : bound epoch = throw (.epochTooLarge epoch) := by
    unfold bound storedEpoch
    rw [if_neg (Nat.not_lt.mpr large)]
  rw [rejected]
  intro Server serve server log
  exact ⟨_, server, [], congrArg (Prod.mk _) (congrArg _ (List.append_nil log).symm),
    .finished rfl⟩

end Exchange
end

/-! ### Writes of several statements -/

/-- A write of several statements. -/
inductive GroupedWrite where
  /-- Rows of the epoch table. -/
  | epochs (rows : List EpochRow)
  /-- Rows of the hourly table. -/
  | hours (rows : List HourlyRow)
  /-- The rolling table, by the window it is folded from. -/
  | rolling (start head : Nat)

namespace GroupedWrite

/-- The operation of a write. -/
def operation : GroupedWrite → StoreCall
  | .epochs rows => .upsertEpochs rows
  | .hours rows => .upsertHourly rows
  | .rolling start head => .replaceRolling start head

/-- The statements of a write, in order. -/
def statements : GroupedWrite → List ServerCall
  | .epochs rows => rows.map fun row => .execute .upsertEpoch row.boundCells
  | .hours rows => rows.map fun row => .execute .upsertHourly row.boundCells
  | .rolling start head =>
    [.execute .clearRolling [], .execute .insertRolling [.integer start, .integer head]]

/-- The texts of the statements of a write, in order. -/
def texts : GroupedWrite → List String
  | .epochs rows => rows.map fun _ => upsertEpochQuery .postgres
  | .hours rows => rows.map fun _ => upsertHourlyQuery .postgres
  | .rolling _ _ => ["TRUNCATE " ++ RollupTable.rolling.name, insertRollingQuery .postgres]

/-- The epochs a write converts to stored integers. -/
def converted : GroupedWrite → List Nat
  | .epochs _ | .hours _ => []
  | .rolling start head => [start, head]

/-- Every epoch of a write is a stored integer. -/
def Fits (write : GroupedWrite) : Prop := ∀ epoch ∈ write.converted, epoch < storedLimit

/-- The calls of a write before it commits. -/
def preamble (write : GroupedWrite) : List ServerCall := .begin :: write.statements

theorem commit_notMem_preamble (write : GroupedWrite) : ServerCall.commit ∉ write.preamble := by
  cases write <;> simp [preamble, statements]

/-- The calls of a write run its statements, and nothing else is put to the database. -/
theorem statementTexts_eq (write : GroupedWrite) :
    (write.preamble ++ [ServerCall.commit]).filterMap ServerCall.statementText? = write.texts := by
  rw [preamble, List.cons_append, List.filterMap_cons_none rfl, List.filterMap_append,
    List.filterMap_cons_none rfl, List.filterMap_nil, List.append_nil]
  cases write with
  | epochs rows =>
    rw [statements, List.filterMap_map]
    exact congrFun List.filterMap_eq_map rows
  | hours rows =>
    rw [statements, List.filterMap_map]
    exact congrFun List.filterMap_eq_map rows
  | rolling start head => rfl

open Exchange

/-- A write whose epochs fit makes all its calls. -/
theorem follows_of_fits {write : GroupedWrite} (fits : write.Fits) :
    (ServerStore.exchange write.operation).Follows (write.preamble ++ [.commit]) Succeeds := by
  cases write with
  | epochs rows =>
    exact .transaction <| follows_forM (fun row => (follows_execute rfl _).bind fun _ =>
      follows_pure ()) rows
  | hours rows =>
    exact .transaction <| follows_forM (fun row => (follows_write rfl _).bind fun _ =>
      follows_pure ()) rows
  | rolling start head =>
    refine .transaction <| (follows_execute rfl []).bind fun _ => ?_
    rw [bound_eq_pure (fits start (by simp [converted])),
      bound_eq_pure (fits head (by simp [converted]))]
    exact follows_write rfl _

/-- A write with an epoch that does not fit comes upon it after the table was emptied. -/
theorem follows_of_not_fits {write : GroupedWrite} (unfit : ¬ write.Fits) :
    [.begin, .execute .clearRolling []] <+: write.preamble ∧
      ∃ epoch, write.converted.find? (storedLimit ≤ ·) = some epoch ∧
        (ServerStore.exchange write.operation).Follows [.begin, .execute .clearRolling []]
          (· = .error (.epochTooLarge epoch)) := by
  cases write with
  | epochs rows => exact absurd (fun _ member => absurd member List.not_mem_nil) unfit
  | hours rows => exact absurd (fun _ member => absurd member List.not_mem_nil) unfit
  | rolling start head =>
    refine ⟨⟨_, rfl⟩, ?_⟩
    by_cases large : storedLimit ≤ start
    · refine ⟨start, by simp [converted, large], .transaction_of_error ?_⟩
      exact (follows_execute rfl []).bind fun _ => (follows_bound_of_le large).bind_of_error
    · have tooLate : storedLimit ≤ head := by
        refine Nat.not_lt.mp fun fits => unfit fun epoch member => ?_
        simp only [converted, List.mem_cons, List.not_mem_nil, or_false] at member
        omega
      refine ⟨head, by simp [converted, large, tooLate], .transaction_of_error ?_⟩
      refine (follows_execute rfl []).bind fun _ => ?_
      rw [bound_eq_pure (Nat.not_le.mp large)]
      exact (follows_bound_of_le tooLate).bind_of_error

/-- What a server hears of a write and what the write comes back with. -/
structure Disciplined (write : GroupedWrite) (sent : List Sent)
    (reply : write.operation.Reply) : Prop where
  /-- A transaction begins, the statements follow in order, and it is committed. -/
  inOrder : sent.map (·.call) <+: write.preamble ++ [.commit]
  /-- The statements that are sent have the texts of the write, in order. -/
  worded : (sent.map (·.call)).filterMap ServerCall.statementText? <+: write.texts
  /-- Nothing is sent after a refusal. -/
  stops : ∀ said ∈ sent.dropLast, said.refusal = none
  /-- A commit is sent exactly when everything before it was accepted and every epoch fits. -/
  commits : .commit ∈ sent.map (·.call) ↔
    write.preamble.map .accepted <+: sent ∧ write.Fits
  /-- The write succeeds exactly when its commit is accepted. -/
  succeeds : (∃ result, reply = .ok result) ↔ .accepted .commit ∈ sent
  /-- A refusal is what the write fails with. -/
  refused : ∀ said ∈ sent, ∀ text, said.refusal = some text →
    reply = .error (said.call.failure text)
  /-- A write that is not refused makes every call, or fails on the first epoch that does not fit
  after the table was emptied. -/
  unrefused : (∀ said ∈ sent, said.refusal = none) →
    sent.map (·.call) = write.preamble ++ [.commit] ∨
      ∃ epoch, write.converted.find? (storedLimit ≤ ·) = some epoch ∧
        sent.map (·.call) = [.begin, .execute .clearRolling []] ∧
        reply = .error (.epochTooLarge epoch)

/-- Whatever a server answers, a write of several statements is a transaction. -/
theorem disciplined_answer {Server : Type}
    (serve : (call : ServerCall) → Server → call.Reply × Server) (server : Server)
    (write : GroupedWrite) :
    write.Disciplined (ServerStore.heard serve write.operation server)
      (ServerStore.answer serve write.operation server).1 := by
  rw [← ServerStore.answer_recording serve write.operation server]
  by_cases fits : write.Fits
  · obtain ⟨outcome, after, sent, ran, conversation⟩ :=
      follows_of_fits fits Server serve server []
    unfold ServerStore.heard ServerStore.answer
    rw [ran]
    exact
      { inOrder := conversation.calls_prefix
        worded := write.statementTexts_eq ▸ conversation.calls_prefix.filterMap _
        stops := conversation.stops
        commits := (conversation.last_mem_iff write.commit_notMem_preamble).trans
          (and_iff_left fits).symm
        succeeds := conversation.succeeds_iff write.commit_notMem_preamble
        refused := fun said member text => conversation.outcome_of_refused member
        unrefused := fun unrefused => .inl (conversation.complete unrefused).1 }
  · obtain ⟨begun, epoch, found, follows⟩ := follows_of_not_fits fits
    obtain ⟨outcome, after, sent, ran, conversation⟩ := follows Server serve server []
    unfold ServerStore.heard ServerStore.answer
    rw [ran]
    have uncommitted : .commit ∉ sent.map (·.call) := fun member => by
      have early := conversation.calls_prefix.subset member
      simp at early
    obtain ⟨reason, rfl, -⟩ := conversation.fails Unit
    have inOrder := (conversation.calls_prefix.trans begun).trans
      (List.prefix_append write.preamble [.commit])
    exact
      { inOrder
        worded := write.statementTexts_eq ▸ inOrder.filterMap _
        stops := conversation.stops
        commits := iff_of_false uncommitted fun both => fits both.2
        succeeds := iff_of_false (fun ⟨_, same⟩ => nomatch same)
          fun member => uncommitted (List.mem_map_of_mem member)
        refused := fun said member text => conversation.outcome_of_refused member
        unrefused := fun unrefused =>
          .inr ⟨epoch, found, (conversation.complete unrefused).1,
            (conversation.complete unrefused).2⟩ }

end GroupedWrite

end EpochRollup
