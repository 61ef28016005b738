/-
Everything that the programs of the service can ever ask for, with where the
data of each call come from, and what follows for every event of a run.
-/
import StatementAnalyzer.Api.StatementId
import StatementAnalyzer.Service.Soundness

namespace StatementAnalyzer

open Async

/-- The parameters of an INSERT that `createStatement` sends. -/
structure StatementColumns.Requested (columns : StatementColumns) : Prop where
  ownerId : columns.ownerId = none
  s3Key : columns.s3Key =
    js "statements/" ++ columns.id.text ++ js "/source"
  targetMonth : ∃ month, targetMonthSchema month = some month ∧
    columns.targetMonth = month ++ js "-01"
  status : columns.status = .uploadPending
  contentLength : 0 < columns.contentLength ∧
    columns.contentLength ≤ MAX_UPLOAD_BYTES

/-- A list that the two OCR schemas have accepted. -/
def AcceptedLines (transactions : List CreateTransactionInput) : Prop :=
  ∃ input result, parseOcrToolInput input = .ok result ∧
    transactions = toCreateTransactionInputs result

/-- A failure that an error of the worker is taken for. -/
def Classified (failureCode : StatementFailureCode) (failureMessage : JsString) :
    Prop :=
  ∃ stage error, classifyAnalyzeJobError stage error =
    .permanent failureCode failureMessage

/-- No error is taken for the failure that stands for an unknown code, and each
message is one of the source's own texts. -/
theorem Classified.literal {failureCode : StatementFailureCode}
    {failureMessage : JsString} (h : Classified failureCode failureMessage) :
    failureCode ≠ .processingFailed ∧
      ∃ text : String, failureMessage = js text := by
  obtain ⟨stage, error, hclassified⟩ := h
  unfold classifyAnalyzeJobError at hclassified
  split at hclassified
  · cases hclassified
  cases stage with
  | objectStore =>
      dsimp only at hclassified
      split at hclassified <;> cases hclassified
      · exact ⟨by decide, _, rfl⟩
      · exact ⟨by decide, _, rfl⟩
  | ocr =>
      dsimp only at hclassified
      split at hclassified
      · cases hclassified
        exact ⟨by decide, _, rfl⟩
      · cases hclassified
        exact ⟨by decide, _, rfl⟩
      · split at hclassified <;> cases hclassified
        exact ⟨by decide, _, rfl⟩
  | database => cases hclassified

theorem Classified.utf8Text {failureCode : StatementFailureCode}
    {failureMessage : JsString} (h : Classified failureCode failureMessage) :
    StatementAnalyzer.utf8Text failureMessage = failureMessage := by
  obtain ⟨_, text, rfl⟩ := h.literal
  exact utf8Text_js text

/-- The updates that some program sends. -/
inductive Update.Asked : Update → Prop
  | markUploaded : Asked .markUploaded
  | markQueued : Asked .markQueued
  | resetQueuedToUploaded : Asked .resetQueuedToUploaded
  | claimForProcessing {token : Uuid} {leaseSeconds : Nat}
      (hlease : 0 < leaseSeconds) : Asked (.claimForProcessing token leaseSeconds)
  | markFailed {token : Uuid} {failureCode : StatementFailureCode}
      {failureMessage : JsString} (h : Classified failureCode failureMessage) :
      Asked (.markFailed token failureCode failureMessage)

/-- The calls that some program makes, with the handles that it deletes by. -/
inductive Call.Asked (D : ReceiptHandle → Prop) : Call → Prop
  | silent {op : Call} (h : op.Silent) : Asked D op
  | insertStatement {columns : StatementColumns} (h : columns.Requested) :
      Asked D (.request (.insertStatement columns))
  | updateStatement {id : Uuid} {u : Update} (h : u.Asked) :
      Asked D (.request (.updateStatement id u))
  | sendMessage {id : Uuid} : Asked D (.request (.sendMessage id))
  | deleteMessage {receiptHandle : ReceiptHandle} (h : D receiptHandle) :
      Asked D (.request (.deleteMessage receiptHandle))
  | saveTransactionsAndComplete {id token : Uuid}
      {transactions : List CreateTransactionInput}
      (h : AcceptedLines transactions) :
      Asked D (.saveTransactionsAndComplete id token transactions)

/-- The events that the calls can cause. -/
inductive Event.Asked : Event → Prop
  | created {t : Tid} {now : Time} {columns : StatementColumns}
      (h : columns.Requested) : Asked (.created t now columns)
  | updated {t : Tid} {now : Time} {u : Update} {late : Bool} (h : u.Asked) :
      Asked (.updated t now u late)
  | refused {t : Tid} {now : Time} {u : Update} (h : u.Asked) :
      Asked (.refused t now u)
  | errored {t : Tid} {u : Update} (h : u.Asked) : Asked (.errored t u)
  | completed {t : Tid} {now : Time} {token : Uuid}
      {transactions : List CreateTransactionInput}
      (h : AcceptedLines transactions) :
      Asked (.completed t now token transactions)
  | sent {t : Tid} {reported delivered : Bool} :
      Asked (.sent t reported delivered)
  | deliveredLate {t : Tid} : Asked (.deliveredLate t)
  | deleting {t : Tid} {index : Nat} {effective : Bool} :
      Asked (.deleting t index effective)
  | removed : Asked .removed

section Programs

variable {α : Type} {D : ReceiptHandle → Prop}

/-- Every call that the program can make is one of these. -/
abbrev Asks (D : ReceiptHandle → Prop) (p : Program α) : Prop :=
  p.Calls (Call.Asked D)

theorem Asks.attempt {p : Program α} (h : Asks D p) : Asks D p.attempt :=
  h.andThen fun _ => trivial

theorem asks_silent (r : Request) (h : r.Silent) : Asks D (request r) :=
  .call (.silent h)

theorem asks_update {id : Uuid} {u : Update} (h : u.Asked) :
    Asks D (request (.updateStatement id u)) :=
  .call (.updateStatement h)

theorem asks_findById (id : Uuid) : Asks D (StatementRepository.findById id) := by
  apply Proc.Calls.bind (asks_silent (.selectStatement id) trivial)
  intro rows
  trivial

theorem targetMonthSchema_eq_some_iff {value month : JsString} :
    targetMonthSchema value = some month ↔ month = value ∧
      isTargetMonth value = true ∧ 2000 ≤ digitsValue (value.take 4) ∧
        digitsValue (value.take 4) ≤ 2100 := by
  simp only [targetMonthSchema, Option.ite_none_right_eq_some, Bool.and_eq_true,
    decide_eq_true_eq, Option.some.injEq, and_assoc]
  constructor
  · rintro ⟨hmonth, hfirst, hlast, rfl⟩
    exact ⟨rfl, hmonth, hfirst, hlast⟩
  · rintro ⟨rfl, hmonth, hfirst, hlast⟩
    exact ⟨hmonth, hfirst, hlast, rfl⟩

/-- What an accepted body promises about the two checked fields. -/
theorem createStatementRequestSchema_checked {body : JsValue}
    {data : CreateStatementRequest}
    (h : createStatementRequestSchema body = some data) :
    targetMonthSchema data.targetMonth = some data.targetMonth ∧
      0 < data.contentLength ∧ data.contentLength ≤ MAX_UPLOAD_BYTES := by
  cases body with
  | object properties =>
      simp only [createStatementRequestSchema, Option.bind_eq_bind,
        Option.pure_def] at h
      split at h
      · obtain ⟨month, hmonth, h⟩ := Option.bind_eq_some_iff.mp h
        split at h
        · split at h
          · simp only [Option.bind_some, Option.bind_eq_some_iff,
              Option.ite_none_right_eq_some, Option.some.injEq,
              Bool.and_eq_true, decide_eq_true_eq] at h
            obtain ⟨_, _, length, _, ⟨⟨hpos, hmost⟩, _⟩, rfl⟩ := h
            obtain ⟨rfl, hchecks⟩ := targetMonthSchema_eq_some_iff.mp hmonth
            exact ⟨targetMonthSchema_eq_some_iff.mpr ⟨rfl, hchecks⟩, hpos, hmost⟩
          · cases h
        · cases h
      · cases h
  | _ => cases h

theorem asks_createStatement (presignedUrlExpiresSeconds : Nat)
    (http : CreateStatementHttpRequest) :
    Asks D (createStatement presignedUrlExpiresSeconds http) := by
  rw [createStatement]
  split
  · trivial
  split
  · trivial
  split
  · trivial
  split
  · trivial
  split
  · trivial
  · rename_i body _ _ data hdata
    obtain ⟨hmonth, hlength⟩ := createStatementRequestSchema_checked hdata
    apply Proc.Calls.bind (asks_silent .randomUUID trivial)
    intro statementId
    refine Proc.Calls.bind (Asks.attempt ?_) fun _ => trivial
    apply Proc.Calls.bind (asks_silent (.createPresignedPutUrl _ _ _) trivial)
    intro uploadUrl
    refine Proc.Calls.bind ?_ fun _ => trivial
    apply Proc.Calls.orElse
    · dsimp only
      rw [Proc.pure_eq, Proc.bind_eq, Proc.settled_andThen, Proc.onValue_ok]
      cases hnormal : normalizeTargetMonth data.targetMonth with
      | error error => trivial
      | ok targetMonth =>
          have hasked : Call.Asked D (.request (.insertStatement
              ⟨statementId, none, utf8Text
                (js "statements/" ++ statementId.text ++ js "/source"),
                targetMonth, .uploadPending, data.contentType,
                data.contentLength⟩)) := by
            apply Call.Asked.insertStatement
            refine ⟨rfl, utf8Text_s3Key statementId,
              ⟨data.targetMonth, hmonth, ?_⟩, rfl, hlength⟩
            rw [normalizeTargetMonth,
              if_pos (targetMonthSchema_eq_some_iff.mp hmonth).2.1] at hnormal
            cases hnormal
            rfl
          apply Proc.Calls.bind (Proc.Calls.call hasked)
          intro rows
          cases rows <;> trivial
    · intro error
      split <;> trivial

theorem asks_completeUpload (id : Option Uuid) : Asks D (completeUpload id) := by
  cases id with
  | none => trivial
  | some id =>
      apply (asks_findById id).attempt.bind
      intro found
      rcases found with error | (_ | statement)
      · trivial
      · trivial
      · dsimp only
        split
        · trivial
        split
        · trivial
        apply (asks_silent (.headObject statement.s3Key) trivial).attempt.bind
        intro metadata
        cases metadata with
        | error error =>
            dsimp only
            split <;> trivial
        | ok objectMetadata =>
            dsimp only
            split
            · trivial
            refine Proc.Calls.bind (Asks.attempt ?_) fun uploaded => ?_
            · apply Proc.Calls.bind
              · apply (asks_update .markUploaded).bind
                intro rows
                trivial
              · intro uploaded
                cases uploaded with
                | none => exact asks_findById _
                | some uploaded => trivial
            · cases uploaded <;> trivial

theorem asks_analyzeStatement (id : Option Uuid) :
    Asks D (analyzeStatement id) := by
  cases id with
  | none => trivial
  | some id =>
      apply (asks_findById id).attempt.bind
      intro found
      rcases found with error | (_ | statement)
      · trivial
      · trivial
      · dsimp only
        split
        · trivial
        · trivial
        · refine Proc.Calls.bind (Asks.attempt ?_) fun queued => ?_
          · exact (asks_update .markQueued).bind fun _ => trivial
          rcases queued with error | (_ | queued)
          · trivial
          · apply (asks_findById _).attempt.bind
            intro found
            cases found <;> trivial
          · have hsend : Asks D (request (.sendMessage queued.id)) :=
              .call .sendMessage
            apply hsend.attempt.bind
            intro sent
            cases sent with
            | ok _ => trivial
            | error error =>
                refine Proc.Calls.bind (Asks.attempt ?_) fun _ => trivial
                exact (asks_update .resetQueuedToUploaded).bind fun _ => trivial
        · trivial

theorem asks_failJob (claim : ProcessingClaim) (stage : AnalyzeJobErrorStage)
    (error : Thrown) : Asks D (failJob claim stage error) := by
  rw [failJob]
  split
  · trivial
  · rename_i failureCode failureMessage hpermanent
    have hclassified : Classified failureCode failureMessage :=
      ⟨stage, error, hpermanent⟩
    have hasked : (Update.markFailed claim.processingToken failureCode
        (utf8Text failureMessage)).Asked := by
      rw [hclassified.utf8Text]
      exact .markFailed hclassified
    refine Proc.Calls.bind ?_ fun markedFailed => ?_
    · exact (asks_update hasked).bind fun _ => trivial
    · cases markedFailed <;> trivial

/-- The analysis settles with a result that the schemas have accepted. -/
theorem asks_analyze {image : OcrImageInput}
    {next : Except Thrown OcrResult → Program α}
    (herror : ∀ error, Asks D (next (.error error)))
    (hresult : ∀ input result, parseOcrToolInput input = .ok result →
      Asks D (next (.ok result))) : Asks D ((analyze image).andThen next) := by
  rw [analyze, Proc.bind_eq]
  cases validateImage image with
  | error error => exact herror error
  | ok _ =>
      rw [Proc.settled_andThen, Proc.onValue_ok, Proc.bind_eq,
        Proc.andThen_assoc]
      apply (asks_silent (.converse image) trivial).andThen
      intro answer
      cases answer with
      | error error => exact herror error
      | ok response =>
          rw [Proc.onValue_ok, Proc.bind_eq]
          cases getToolUse response with
          | error error => exact herror error
          | ok toolUse =>
              rw [Proc.settled_andThen, Proc.onValue_ok]
              cases hparse : parseOcrToolInput toolUse.input with
              | error error => exact herror _
              | ok result => exact hresult toolUse.input result hparse

theorem asks_processClaim (claim : ProcessingClaim) :
    Asks D (processClaim claim) := by
  apply (asks_silent (.getObject claim.s3Key) trivial).attempt.bind
  intro object
  cases object with
  | error error => exact asks_failJob claim _ error
  | ok object =>
      dsimp only
      split
      · exact asks_failJob claim _ _
      · rw [Proc.attempt_bind]
        refine asks_analyze (fun error => asks_failJob claim _ error)
          fun input analysis hparse => ?_
        have hsave : Asks D (StatementRepository.saveTransactionsAndComplete
            claim.statementId claim.processingToken
            (toCreateTransactionInputs analysis)) :=
          .call (.saveTransactionsAndComplete ⟨input, analysis, hparse, rfl⟩)
        apply hsave.attempt.bind
        intro saved
        cases saved with
        | error error => exact asks_failJob claim _ error
        | ok _ => trivial

theorem asks_createAnalyzeJobHandler (leaseSeconds : Option ℚ)
    (job : ReceivedAnalyzeJob) :
    Asks D (createAnalyzeJobHandler leaseSeconds job) := by
  apply (asks_silent .randomUUID trivial).bind
  intro processingToken
  refine Proc.Calls.bind (Asks.attempt ?_) fun claimed => ?_
  · rw [StatementRepository.claimForProcessing]
    split
    · trivial
    · rename_i hlease
      rw [not_or, not_not] at hlease
      have hpositive := Rat.num_pos.mpr (not_le.mp hlease.2)
      refine (asks_update (.claimForProcessing ?_)).bind fun _ => trivial
      omega
  · rcases claimed with error | (_ | claim)
    · trivial
    · refine Proc.Calls.bind (Asks.attempt ?_) fun resolved => ?_
      · apply (asks_findById _).bind
        intro found
        cases found with
        | none => trivial
        | some statement =>
            dsimp only
            split <;> trivial
      · cases resolved <;> trivial
    · exact asks_processClaim claim

theorem asks_runWithShutdownTimeout {T : Type} {operation : Program T}
    (h : Asks D operation) : Asks D (runWithShutdownTimeout operation) := by
  apply h.attempt.bind
  intro result
  apply (asks_silent .shutdownTimeout trivial).bind
  intro timedOut
  cases timedOut <;> cases result <;> trivial

theorem asks_processJob (leaseSeconds : Option ℚ) {job : ReceivedAnalyzeJob}
    (h : D job.receiptHandle) : Asks D (processJob leaseSeconds job) := by
  apply (asks_runWithShutdownTimeout
    (asks_createAnalyzeJobHandler leaseSeconds job)).bind
  intro result
  split
  · trivial
  · trivial
  · trivial
  · apply (asks_runWithShutdownTimeout
      (Proc.Calls.call (Call.Asked.deleteMessage h))).bind
    intro deleted
    trivial

/-- No program of the service makes another call, and the worker deletes by the
handle of its job. -/
theorem Serves.asks {p : Program Outcome} {w : World} (h : Serves p w) :
    Asks (fun receiptHandle => receiptHandle.index <
      (w receiptHandle.statementId).messages.length) p := by
  cases h with
  | createStatement seconds http =>
      exact (asks_createStatement seconds http).bind fun _ => trivial
  | completeUpload id =>
      exact (asks_completeUpload id).bind fun _ => trivial
  | analyzeStatement id =>
      exact (asks_analyzeStatement id).bind fun _ => trivial
  | processJob leaseSeconds job hnames hsent =>
      refine (asks_processJob leaseSeconds ?_).bind fun _ => trivial
      rw [hnames]
      exact hsent
  | reading p hreads =>
      exact (hreads.mono fun _ hsilent => .silent hsilent).bind fun _ => trivial

theorem Asks.mono {D' : ReceiptHandle → Prop} {p : Program α}
    (hD : ∀ receiptHandle, D receiptHandle → D' receiptHandle) (h : Asks D p) :
    Asks D' p := by
  apply Proc.Calls.mono _ h
  intro op hop
  cases hop with
  | silent hsilent => exact .silent hsilent
  | insertStatement hrequested => exact .insertStatement hrequested
  | updateStatement hasked => exact .updateStatement hasked
  | sendMessage => exact .sendMessage
  | deleteMessage hdeletes => exact .deleteMessage (hD _ hdeletes)
  | saveTransactionsAndComplete haccepted =>
      exact .saveTransactionsAndComplete haccepted

end Programs

section Runs

variable {t : Tid} {id : Uuid} {e : Event} {s s' : Statement}

theorem Causes.asked {op : Call} {D : ReceiptHandle → Prop}
    (h : Causes t op id e) (hop : op.Asked D) : e.Asked := by
  cases hop with
  | silent hsilent => cases h <;> exact hsilent.elim
  | insertStatement hrequested =>
      cases h
      exact .created hrequested
  | updateStatement hasked =>
      cases h with
      | updated => exact .updated hasked
      | refused => exact .refused hasked
      | errored => exact .errored hasked
  | sendMessage =>
      cases h
      exact .sent
  | deleteMessage _ =>
      cases h
      exact .deleting
  | saveTransactionsAndComplete haccepted =>
      cases h
      exact .completed haccepted

/-- A late update is one whose call had reported an error. -/
theorem Advance.asked_of_env (hs : Advance id e s s') (he : e.thread = none)
    (h : ∀ e' ∈ s.history, e'.Asked) : e.Asked := by
  cases hs with
  | @updated _ t now u late row row' hrow applies hlate =>
      cases late with
      | false => cases he
      | true =>
          have hcount := (hlate rfl).2
          have herrored : .errored t u ∈ s.history :=
            List.count_pos_iff.mp (Nat.lt_of_le_of_lt (Nat.zero_le _) hcount)
          cases h _ herrored with
          | errored hasked => exact .updated hasked
  | deliveredLate _ => exact .deliveredLate
  | removed _ => exact .removed
  | created _ _ _ _ | refused _ | errored | completed _ _ | sent _ | deleting =>
      cases he

/-- A thread only ever deletes a message that there is. -/
theorem callSystem_deletes {a : Config World Call Call.Answer Thrown Outcome}
    (h : (callSystem Serves).Reachable a) : ∀ t p, a.threads t = .running p →
      Asks (fun receiptHandle => receiptHandle.index <
        (a.world receiptHandle.statementId).messages.length) p := by
  induction h with
  | init _ => exact nofun
  | @step a a' l h hstep ih =>
      have hgrows : ∀ id, (a.world id).messages.length ≤
          (a'.world id).messages.length := by
        intro id
        rcases (callSystem_step hstep).statement id with hsame | ⟨e, _, hs⟩
        · rw [hsame]
        · exact hs.messages_length
      have hmono : ∀ p : Program Outcome, Asks (fun receiptHandle =>
          receiptHandle.index <
            (a.world receiptHandle.statementId).messages.length) p →
          Asks (fun receiptHandle => receiptHandle.index <
            (a'.world receiptHandle.statementId).messages.length) p :=
        fun p hp => hp.mono fun receiptHandle hlt =>
          hlt.trans_le (hgrows receiptHandle.statementId)
      intro t p hrunning
      rcases hstep.running hrunning with ⟨hbefore, _⟩ |
        ⟨op, resume, answer, hbefore, rfl, _⟩ | ⟨_, hserves, _⟩
      · exact hmono p (ih t p hbefore)
      · exact hmono _ ((ih t _ hbefore).2 answer)
      · exact hmono p hserves.asks

theorem callSystem_asked {a : Config World Call Call.Answer Thrown Outcome}
    (h : (callSystem Serves).Reachable a) (id : Uuid) :
    ∀ e ∈ (a.world id).history, e.Asked := by
  induction h with
  | init h =>
      cases h
      exact fun _ hmem => absurd hmem List.not_mem_nil
  | @step a a' l h hstep ih =>
      rcases (callSystem_step hstep).statement id with hsame | ⟨e, he, hs⟩
      · rw [hsame]
        exact ih
      · rw [hs.history]
        refine List.forall_mem_cons.mpr ⟨?_, ih⟩
        rcases he with hnone | ⟨t, op, resume, hrunning, hcauses⟩
        · exact hs.asked_of_env hnone ih
        · exact hcauses.asked (callSystem_deletes h t _ hrunning).1

/-- Whatever happens in a run of the service has been asked for by one of its
programs. -/
theorem service_asked {c : Config Store Query Query.Answer Thrown Outcome}
    (h : (querySystem repository Serves).Reachable c) (id : Uuid) :
    ∀ e ∈ (c.world.statements id).history, e.Asked := by
  obtain ⟨a, ha, hrefines⟩ := (repositoryRefinement Serves).reachable h
  have hworld : a.world = c.world.statements := hrefines.world
  rw [← hworld]
  exact callSystem_asked ha id

end Runs

end StatementAnalyzer
