/-
The decisions of the job handler, whatever its six dependencies answer or
throw.
-/
import StatementAnalyzer.Async.Traces
import StatementAnalyzer.Worker.AnalyzeJobHandler

namespace StatementAnalyzer

open Async

/-- The calls of `AnalyzeJobHandlerDependencies`. -/
inductive HandlerCall where
  | claimForProcessing (statementId processingToken : Uuid)
      (leaseSeconds : Option ℚ)
  | findById (id : Uuid)
  | getObject (key : JsString)
  | analyze (image : OcrImageInput)
  | saveTransactionsAndComplete (statementId processingToken : Uuid)
      (transactions : List CreateTransactionInput)
  | markFailed (statementId processingToken : Uuid)
      (failureCode : StatementFailureCode) (failureMessage : JsString)

abbrev HandlerCall.Answer : HandlerCall → Type
  | claimForProcessing _ _ _ => Option ProcessingClaim
  | findById _ => Option StatementRecord
  | getObject _ => DownloadedObject
  | analyze _ => OcrResult
  | saveTransactionsAndComplete _ _ _ => Unit
  | markFailed _ _ _ _ => Bool

/-- A part of the handler, over its dependencies. -/
abbrev HandlerProgram : Type → Type :=
  Proc HandlerCall HandlerCall.Answer Thrown

abbrev HandlerTrace :=
  List (Async.Answered HandlerCall HandlerCall.Answer Thrown)

namespace JobHandler

def resolveUnclaimedJob (statementId : Uuid) :
    HandlerProgram AnalyzeJobDisposition := do
  match ← Proc.call (HandlerCall.findById statementId) with
  | none => return .ack
  | some statement =>
      if statement.status.isTerminal then return .ack else return .retry

/-- The `catch` block around the three stages of a claimed job. -/
def failJob (claim : ProcessingClaim) (stage : AnalyzeJobErrorStage)
    (error : Thrown) : HandlerProgram AnalyzeJobDisposition :=
  match classifyAnalyzeJobError stage error with
  | .retryable => return .retry
  | .permanent failureCode failureMessage => do
      let markedFailed ← Proc.call (HandlerCall.markFailed claim.statementId
        claim.processingToken failureCode failureMessage)
      if markedFailed then return .ack else return .retry

/-- The `try` block: each stage on its own, its error handed to `failJob`. -/
def processClaim (claim : ProcessingClaim) :
    HandlerProgram AnalyzeJobDisposition := do
  match ← (Proc.call (HandlerCall.getObject claim.s3Key)).attempt with
  | .error error => failJob claim .objectStore error
  | .ok object =>
      if !objectMatchesClaim object claim then
        failJob claim .objectStore invalidSourceObjectError
      else
        match ← (Proc.call (HandlerCall.analyze
            ⟨object.bytes, claim.contentType⟩)).attempt with
        | .error error => failJob claim .ocr error
        | .ok analysis =>
            match ← (Proc.call (HandlerCall.saveTransactionsAndComplete
                claim.statementId claim.processingToken
                (toCreateTransactionInputs analysis))).attempt with
            | .error error => failJob claim .database error
            | .ok _ => return .ack

/-- The handler, once the token has been generated. -/
def handle (leaseSeconds : Option ℚ) (processingToken : Uuid)
    (job : ReceivedAnalyzeJob) : HandlerProgram AnalyzeJobDisposition := do
  match ← (Proc.call (HandlerCall.claimForProcessing job.statementId
      processingToken leaseSeconds)).attempt with
  | .error _ => return .retry
  | .ok none =>
      match ← (resolveUnclaimedJob job.statementId).attempt with
      | .error _ => return .retry
      | .ok disposition => return disposition
  | .ok (some claim) => processClaim claim

end JobHandler

/-- What the worker process puts in for the dependencies. -/
def HandlerCall.implementation : (op : HandlerCall) → Program op.Answer
  | claimForProcessing statementId processingToken leaseSeconds =>
      StatementRepository.claimForProcessing statementId processingToken
        leaseSeconds
  | findById id => StatementRepository.findById id
  | getObject key => request (.getObject key)
  | analyze image => StatementAnalyzer.analyze image
  | saveTransactionsAndComplete statementId processingToken transactions =>
      StatementRepository.saveTransactionsAndComplete statementId processingToken
        transactions
  | markFailed statementId processingToken failureCode failureMessage =>
      StatementRepository.markFailed statementId processingToken failureCode
        failureMessage

section Implementation

theorem interp_call (op : HandlerCall) :
    (Proc.call op : HandlerProgram op.Answer).interp HandlerCall.implementation =
      op.implementation := by
  rw [Proc.call, Proc.interp_await]
  exact Proc.andThen_settled _

theorem interp_bind {α β : Type} (p : HandlerProgram α)
    (next : α → HandlerProgram β) :
    (p >>= next).interp HandlerCall.implementation =
      p.interp HandlerCall.implementation >>= fun value =>
        (next value).interp HandlerCall.implementation := by
  rw [Proc.bind_eq, Proc.bind_eq, Proc.interp_andThen]
  congr 1
  funext result
  cases result <;> rfl

theorem interp_attempt {α : Type} (p : HandlerProgram α) :
    p.attempt.interp HandlerCall.implementation =
      (p.interp HandlerCall.implementation).attempt := by
  rw [Proc.attempt, Proc.attempt, Proc.interp_andThen]
  rfl

theorem interp_failJob (claim : ProcessingClaim) (stage : AnalyzeJobErrorStage)
    (error : Thrown) : (JobHandler.failJob claim stage error).interp
      HandlerCall.implementation = failJob claim stage error := by
  rw [JobHandler.failJob, failJob]
  cases hclass : classifyAnalyzeJobError stage error with
  | retryable => rfl
  | permanent failureCode failureMessage =>
      dsimp only
      rw [interp_bind, interp_call]
      congr 1
      funext markedFailed
      cases markedFailed <;> rfl

theorem interp_resolveUnclaimedJob (statementId : Uuid) :
    (JobHandler.resolveUnclaimedJob statementId).interp
      HandlerCall.implementation = resolveUnclaimedJob statementId := by
  rw [JobHandler.resolveUnclaimedJob, resolveUnclaimedJob, interp_bind,
    interp_call]
  congr 1
  funext found
  cases found with
  | none => rfl
  | some statement =>
      by_cases hterminal : statement.status.isTerminal = true
      · simp only [hterminal]
        rfl
      · simp only [hterminal]
        rfl

theorem interp_processClaim (claim : ProcessingClaim) :
    (JobHandler.processClaim claim).interp HandlerCall.implementation =
      processClaim claim := by
  rw [JobHandler.processClaim, processClaim, interp_bind, interp_attempt,
    interp_call]
  congr 1
  funext object
  cases object with
  | error error => exact interp_failJob ..
  | ok object =>
      dsimp only
      split
      · exact interp_failJob ..
      · rw [interp_bind, interp_attempt, interp_call]
        congr 1
        funext analysis
        cases analysis with
        | error error => exact interp_failJob ..
        | ok analysis =>
            dsimp only
            rw [interp_bind, interp_attempt, interp_call]
            congr 1
            funext saved
            cases saved with
            | error error => exact interp_failJob ..
            | ok _ => rfl

/-- The handler of the worker process is this handler over its repository, its
object store and its analyzer. -/
theorem createAnalyzeJobHandler_eq (leaseSeconds : Option ℚ)
    (job : ReceivedAnalyzeJob) : createAnalyzeJobHandler leaseSeconds job = (do
      let processingToken ← request .randomUUID
      (JobHandler.handle leaseSeconds processingToken job).interp
        HandlerCall.implementation) := by
  rw [createAnalyzeJobHandler]
  congr 1
  funext processingToken
  rw [JobHandler.handle, interp_bind, interp_attempt, interp_call]
  congr 1
  funext claim
  cases claim with
  | error error => rfl
  | ok claim =>
      cases claim with
      | some claim => exact (interp_processClaim claim).symm
      | none =>
          dsimp only
          rw [interp_bind, interp_attempt, interp_resolveUnclaimedJob]
          congr 1
          funext disposition
          cases disposition <;> rfl

end Implementation

section Decisions

namespace JobHandler

/-- Nobody was given the job to process: unless the claim failed, the statement
is looked up, and only one that is absent or finished is acknowledged. -/
structure Unclaimed (statementId : Uuid)
    (answer : Except Thrown (Option ProcessingClaim)) (rest : HandlerTrace)
    (result : Except Thrown AnalyzeJobDisposition) : Prop where
  looksUp : answer = .ok none → ∃ found, rest = [⟨.findById statementId, found⟩]
  givesUp : answer ≠ .ok none → rest = []
  acked : result = .ok .ack ↔
    ∃ found, ⟨.findById statementId, .ok found⟩ ∈ rest ∧
      ∀ statement ∈ found,
        statement.status = .completed ∨ statement.status = .failed
  answers : result = .ok .ack ∨ result = .ok .retry

/-- The object is the one that was registered. -/
structure Registered (object : DownloadedObject) (claim : ProcessingClaim) :
    Prop where
  contentType : object.contentType = some claim.contentType.text
  contentLength : object.contentLength = claim.contentLength
  bytes : (object.bytes.length : Int) = claim.contentLength

/-- The transaction is stored as it was read. -/
structure CarriedOver (transaction : OcrTransaction)
    (input : CreateTransactionInput) : Prop where
  lineNumber : input.lineNumber = transaction.lineNumber
  transactionDate : input.transactionDate = transaction.transactionDate
  merchantRaw : input.merchantRaw = transaction.merchantRaw
  merchantName : input.merchantName = transaction.merchantName
  amount : input.amount = transaction.amount
  category : input.category = transaction.category.text
  subcategory : input.subcategory = transaction.subcategory

/-- The error that ended the object-store stage or the OCR stage. -/
inductive StageError (claim : ProcessingClaim) (earlier : HandlerTrace) :
    AnalyzeJobErrorStage → Thrown → Prop
  | objectStore {error : Thrown}
      (h : ⟨.getObject claim.s3Key, .error error⟩ ∈ earlier) :
      StageError claim earlier .objectStore error
  | sourceObject {object : DownloadedObject}
      (h : ⟨.getObject claim.s3Key, .ok object⟩ ∈ earlier)
      (hmismatch : ¬Registered object claim) :
      StageError claim earlier .objectStore invalidSourceObjectError
  | ocr {image : OcrImageInput} {error : Thrown}
      (h : ⟨.analyze image, .error error⟩ ∈ earlier) :
      StageError claim earlier .ocr error

def isSave : HandlerCall → Bool
  | .saveTransactionsAndComplete _ _ _ => true
  | _ => false

def isMarkFailed : HandlerCall → Bool
  | .markFailed _ _ _ _ => true
  | _ => false

/-- The call may follow the earlier answers. -/
def Permitted (claim : ProcessingClaim) (earlier : HandlerTrace) :
    HandlerCall → Prop
  | .claimForProcessing _ _ _ => False
  | .findById _ => False
  | .getObject key => key = claim.s3Key
  | .analyze image =>
      ∃ object, ⟨.getObject claim.s3Key, .ok object⟩ ∈ earlier ∧
        Registered object claim ∧ image = ⟨object.bytes, claim.contentType⟩
  | .saveTransactionsAndComplete statementId processingToken transactions =>
      statementId = claim.statementId ∧
        processingToken = claim.processingToken ∧
        ∃ image analysis, ⟨.analyze image, .ok analysis⟩ ∈ earlier ∧
          List.Forall₂ CarriedOver analysis.transactions transactions
  | .markFailed statementId processingToken failureCode failureMessage =>
      statementId = claim.statementId ∧
        processingToken = claim.processingToken ∧
        (∃ stage error, StageError claim earlier stage error ∧
          classifyAnalyzeJobError stage error =
            .permanent failureCode failureMessage ∧
          error.name ≠ some (js "AbortError") ∧
          error.code ≠ some (js "ABORT_ERR")) ∧
        ∀ answered ∈ earlier,
          isSave answered.op = false ∧ isMarkFailed answered.op = false

/-- The statement was stored, or marked as failed, under the claim. -/
def Finished (claim : ProcessingClaim) (rest : HandlerTrace) : Prop :=
  (∃ transactions, ⟨.saveTransactionsAndComplete claim.statementId
    claim.processingToken transactions, .ok ()⟩ ∈ rest) ∨
  ∃ failureCode failureMessage, ⟨.markFailed claim.statementId
    claim.processingToken failureCode failureMessage, .ok true⟩ ∈ rest

/-- No stage is passed over: each is called once the one before it has
succeeded. -/
structure Staged (claim : ProcessingClaim) (rest : HandlerTrace) : Prop where
  downloads : ∃ answer, ⟨.getObject claim.s3Key, answer⟩ ∈ rest
  analyzes : ∀ object, ⟨.getObject claim.s3Key, .ok object⟩ ∈ rest →
    Registered object claim →
      ∃ answer, ⟨.analyze ⟨object.bytes, claim.contentType⟩, answer⟩ ∈ rest
  saves : ∀ image analysis, ⟨.analyze image, .ok analysis⟩ ∈ rest →
    ∃ transactions answer, ⟨.saveTransactionsAndComplete claim.statementId
      claim.processingToken transactions, answer⟩ ∈ rest

/-- And an error of a stage that is permanent is marked. -/
structure Handled (claim : ProcessingClaim) (rest : HandlerTrace) : Prop
    extends Staged claim rest where
  marks : ∀ stage error failureCode failureMessage,
    StageError claim rest stage error →
      classifyAnalyzeJobError stage error =
        .permanent failureCode failureMessage →
      ∃ answer, ⟨.markFailed claim.statementId claim.processingToken
        failureCode failureMessage, answer⟩ ∈ rest

/-- The answer for a claimed job, from the answers of the dependencies. -/
structure Decided (claim : ProcessingClaim) (rest : HandlerTrace)
    (result : Except Thrown AnalyzeJobDisposition) : Prop where
  acked : result = .ok .ack ↔ Finished claim rest
  rejected : ∀ error, result = .error error →
    ∃ failureCode failureMessage, ⟨.markFailed claim.statementId
      claim.processingToken failureCode failureMessage, .error error⟩ ∈ rest

theorem objectMatchesClaim_iff {object : DownloadedObject}
    {claim : ProcessingClaim} :
    objectMatchesClaim object claim = true ↔ Registered object claim := by
  simp only [objectMatchesClaim, Bool.and_eq_true, decide_eq_true_eq]
  constructor
  · rintro ⟨⟨htype, hlength⟩, hbytes⟩
    exact ⟨htype, hlength, hbytes⟩
  · intro h
    exact ⟨⟨h.contentType, h.contentLength⟩, h.bytes⟩

theorem carriedOver_toCreateTransactionInputs (analysis : OcrResult) :
    List.Forall₂ CarriedOver analysis.transactions
      (toCreateTransactionInputs analysis) := by
  rw [toCreateTransactionInputs, List.forall₂_map_right_iff, List.forall₂_same]
  intro transaction _
  exact ⟨rfl, rfl, rfl, rfl, rfl, rfl, rfl⟩

theorem not_abort_of_permanent {stage : AnalyzeJobErrorStage} {error : Thrown}
    {failureCode : StatementFailureCode} {failureMessage : JsString}
    (h : classifyAnalyzeJobError stage error =
      .permanent failureCode failureMessage) :
    error.name ≠ some (js "AbortError") ∧ error.code ≠ some (js "ABORT_ERR") := by
  by_cases habort : isAbortError error = true
  · simp only [classifyAnalyzeJobError, habort, ↓reduceIte] at h
    cases h
  · rw [isAbortError, Bool.or_eq_true, decide_eq_true_eq, decide_eq_true_eq,
      not_or] at habort
    exact habort

variable {claim : ProcessingClaim} {earlier : HandlerTrace}

theorem Decided.retry (h : ¬Finished claim earlier) :
    Decided claim earlier (.ok .retry) where
  acked := ⟨nofun, fun hfinished => absurd hfinished h⟩
  rejected error herror := by cases herror

theorem Decided.ack (h : Finished claim earlier) :
    Decided claim earlier (.ok .ack) where
  acked := ⟨fun _ => h, fun _ => rfl⟩
  rejected error herror := by cases herror

/-- An answer finishes the statement only if it is the success of a save or of
`markFailed`. -/
theorem finished_append_markFailed_iff {failureCode : StatementFailureCode}
    {failureMessage : JsString} {answer : Except Thrown Bool}
    (h : ¬Finished claim earlier) :
    Finished claim (earlier ++ [⟨.markFailed claim.statementId
      claim.processingToken failureCode failureMessage, answer⟩]) ↔
      answer = .ok true := by
  simp only [Finished, not_or] at h
  simp [Finished, exists_or, h.1, h.2, eq_comm]

/-- The `catch` block, where neither the save nor an earlier `markFailed` has
been answered. -/
theorem lawful_failJob {stage : AnalyzeJobErrorStage} {error : Thrown}
    (hstage : stage = .database ∨ StageError claim earlier stage error ∧
      ∀ answered ∈ earlier,
        isSave answered.op = false ∧ isMarkFailed answered.op = false)
    (hunfinished : ¬Finished claim earlier) :
    Proc.Lawful (Permitted claim) (Decided claim) earlier
      (failJob claim stage error) := by
  rw [failJob]
  cases hclass : classifyAnalyzeJobError stage error with
  | retryable => exact .retry hunfinished
  | permanent failureCode failureMessage =>
      have hpermitted : Permitted claim earlier (.markFailed claim.statementId
          claim.processingToken failureCode failureMessage) := by
        rcases hstage with rfl | ⟨herror, hfirst⟩
        · simp [classifyAnalyzeJobError] at hclass
        · exact ⟨rfl, rfl,
            ⟨stage, error, herror, hclass, not_abort_of_permanent hclass⟩,
            hfirst⟩
      rw [Proc.lawful_call_bind]
      refine ⟨hpermitted, fun markError => ?_, fun markedFailed => ?_⟩
      · constructor
        · rw [finished_append_markFailed_iff hunfinished]
          exact ⟨nofun, nofun⟩
        · intro error' herror'
          cases herror'
          exact ⟨failureCode, failureMessage, by simp⟩
      · by_cases hmarked : markedFailed = true
        · rw [if_pos hmarked, hmarked]
          exact .ack ((finished_append_markFailed_iff hunfinished).mpr rfl)
        · rw [if_neg hmarked]
          apply Decided.retry
          rw [finished_append_markFailed_iff hunfinished]
          simpa using hmarked

/-- The three stages of a claimed job. -/
theorem lawful_processClaim (claim : ProcessingClaim) :
    Proc.Lawful (Permitted claim) (Decided claim) [] (processClaim claim) := by
  rw [processClaim, Proc.lawful_call_attempt]
  refine ⟨rfl, fun object => ?_⟩
  cases object with
  | error error =>
      apply lawful_failJob (.inr
        ⟨.objectStore (by simp), by simp [isSave, isMarkFailed]⟩)
      simp [Finished]
  | ok object =>
      by_cases hmatch : objectMatchesClaim object claim = true
      · have hregistered := objectMatchesClaim_iff.mp hmatch
        simp only [hmatch, Bool.not_true, Bool.false_eq_true, ↓reduceIte]
        rw [Proc.lawful_call_attempt]
        refine ⟨⟨object, by simp, hregistered, rfl⟩, fun analysis => ?_⟩
        cases analysis with
        | error error =>
            apply lawful_failJob (.inr
              ⟨.ocr (by simp; rfl), by simp [isSave, isMarkFailed]⟩)
            simp [Finished]
        | ok analysis =>
            dsimp only
            rw [Proc.lawful_call_attempt]
            refine ⟨⟨rfl, rfl, _, analysis, by simp,
              carriedOver_toCreateTransactionInputs analysis⟩, fun saved => ?_⟩
            cases saved with
            | error error =>
                apply lawful_failJob (.inl rfl)
                simp [Finished]
            | ok _ => exact .ack (.inl ⟨_, by simp; rfl⟩)
      · simp only [hmatch, Bool.not_false, ↓reduceIte]
        apply lawful_failJob (.inr ⟨.sourceObject (by simp) fun h =>
          hmatch (objectMatchesClaim_iff.mpr h), by simp [isSave, isMarkFailed]⟩)
        simp [Finished]

/-- The `catch` block calls `markFailed` or nothing. -/
theorem caught_of_run {stage : AnalyzeJobErrorStage} {error : Thrown}
    {rest : HandlerTrace} {result : Except Thrown AnalyzeJobDisposition}
    (h : (failJob claim stage error).Run rest result) :
    (∀ answered ∈ rest, isMarkFailed answered.op = true) ∧
      ∀ failureCode failureMessage, classifyAnalyzeJobError stage error =
          .permanent failureCode failureMessage →
        ∃ answer, ⟨.markFailed claim.statementId claim.processingToken
          failureCode failureMessage, answer⟩ ∈ rest := by
  rw [failJob] at h
  cases hclass : classifyAnalyzeJobError stage error with
  | retryable =>
      rw [hclass] at h
      obtain ⟨rfl, _⟩ := Proc.run_settled_iff.mp h
      exact ⟨by simp, by simp⟩
  | permanent failureCode failureMessage =>
      rw [hclass] at h
      obtain ⟨answer, rest, rfl, hrest⟩ := Proc.run_await_iff.mp h
      have hdone : rest = [] := by
        cases answer with
        | error error => exact (Proc.run_settled_iff.mp hrest).1
        | ok markedFailed =>
            cases markedFailed <;> exact (Proc.run_settled_iff.mp hrest).1
      subst hdone
      refine ⟨by simp [isMarkFailed], ?_⟩
      intro failureCode' failureMessage' heq
      obtain ⟨rfl, rfl⟩ := AnalyzeJobErrorClassification.permanent.inj heq
      exact ⟨answer, by simp⟩

/-- Of an earlier answer, unless it is one to `markFailed`. -/
theorem mem_of_mem_caught {done caught : HandlerTrace}
    (hcaught : ∀ answered ∈ caught, isMarkFailed answered.op = true)
    {answered : Async.Answered HandlerCall HandlerCall.Answer Thrown}
    (h : answered ∈ done ++ caught) (hop : isMarkFailed answered.op = false) :
    answered ∈ done := by
  rcases List.mem_append.mp h with hdone | hlast
  · exact hdone
  · rw [hcaught answered hlast] at hop
    cases hop

/-- The `catch` block completes the stages, where the error in its hands is the
only one that they have met. -/
theorem Staged.handled {done caught : HandlerTrace} (h : Staged claim done)
    {stage : AnalyzeJobErrorStage} {error : Thrown}
    (honly : ∀ stage' error', StageError claim done stage' error' →
      stage' = stage ∧ error' = error)
    {result : Except Thrown AnalyzeJobDisposition}
    (hcaught : (failJob claim stage error).Run caught result) :
    Handled claim (done ++ caught) := by
  obtain ⟨hmark, hmarks⟩ := caught_of_run hcaught
  constructor
  · constructor
    · obtain ⟨answer, hanswer⟩ := h.downloads
      exact ⟨answer, List.mem_append_left caught hanswer⟩
    · intro object hobject hregistered
      obtain ⟨answer, hanswer⟩ :=
        h.analyzes object (mem_of_mem_caught hmark hobject rfl) hregistered
      exact ⟨answer, List.mem_append_left caught hanswer⟩
    · intro image analysis hanalysis
      obtain ⟨transactions, answer, hanswer⟩ :=
        h.saves image analysis (mem_of_mem_caught hmark hanalysis rfl)
      exact ⟨transactions, answer, List.mem_append_left caught hanswer⟩
  · intro stage' error' failureCode failureMessage herror hclass
    have hdone : StageError claim done stage' error' := by
      cases herror with
      | objectStore herror =>
          exact .objectStore (mem_of_mem_caught hmark herror rfl)
      | sourceObject hobject hmismatch =>
          exact .sourceObject (mem_of_mem_caught hmark hobject rfl) hmismatch
      | ocr herror => exact .ocr (mem_of_mem_caught hmark herror rfl)
    obtain ⟨rfl, rfl⟩ := honly stage' error' hdone
    obtain ⟨answer, hanswer⟩ := hmarks failureCode failureMessage hclass
    exact ⟨answer, List.mem_append_right done hanswer⟩

/-- Of a registered object, only the OCR stage leaves an error to classify. -/
theorem stageError_registered {object : DownloadedObject}
    (hregistered : Registered object claim) {image : OcrImageInput}
    {analysis : Except Thrown OcrResult} {later : HandlerTrace}
    (hlater : ∀ answered ∈ later, isSave answered.op = true)
    {stage : AnalyzeJobErrorStage} {error : Thrown}
    (h : StageError claim (⟨.getObject claim.s3Key, .ok object⟩ ::
      ⟨.analyze image, analysis⟩ :: later) stage error) :
    stage = .ocr ∧ analysis = .error error := by
  have hnot : ∀ answered ∈ later, isSave answered.op ≠ false := by
    intro answered hmem
    rw [hlater answered hmem]
    decide
  cases h with
  | objectStore herror =>
      have hmem : ⟨.getObject claim.s3Key, .error error⟩ ∈ later := by
        simpa using herror
      exact absurd rfl (hnot _ hmem)
  | @sourceObject other hobject hmismatch =>
      have hsame : other = object ∨
          ⟨.getObject claim.s3Key, .ok other⟩ ∈ later := by
        simpa using hobject
      rcases hsame with rfl | hmem
      · exact absurd hregistered hmismatch
      · exact absurd rfl (hnot _ hmem)
  | @ocr other error herror =>
      have hsame : other = image ∧ .error error = analysis ∨
          ⟨.analyze other, .error error⟩ ∈ later := by
        simpa using herror
      rcases hsame with ⟨_, rfl⟩ | hmem
      · exact ⟨rfl, rfl⟩
      · exact absurd rfl (hnot _ hmem)

/-- The save leaves none. -/
theorem not_stageError_saved {object : DownloadedObject}
    (hregistered : Registered object claim) {image : OcrImageInput}
    {analysis : OcrResult}
    {saved : Async.Answered HandlerCall HandlerCall.Answer Thrown}
    (hsaved : isSave saved.op = true) {stage : AnalyzeJobErrorStage}
    {error : Thrown} : ¬StageError claim [⟨.getObject claim.s3Key, .ok object⟩,
      ⟨.analyze image, .ok analysis⟩, saved] stage error := by
  intro h
  have hlater : ∀ answered ∈ [saved], isSave answered.op = true :=
    List.forall_mem_singleton.mpr hsaved
  obtain ⟨_, heq⟩ := stageError_registered hregistered hlater h
  cases heq

/-- A claimed job goes through its stages up to the one that fails. -/
theorem handled_of_run {rest : HandlerTrace}
    {result : Except Thrown AnalyzeJobDisposition}
    (h : (processClaim claim).Run rest result) : Handled claim rest := by
  obtain ⟨download, rest, rfl, hdownload⟩ := Proc.run_call_attempt_iff.mp h
  cases download with
  | error error =>
      have hdone : Staged claim [⟨.getObject claim.s3Key, .error error⟩] :=
        ⟨⟨.error error, by simp⟩, by simp, by simp⟩
      apply hdone.handled _ hdownload
      intro stage' error' herror
      cases herror with
      | objectStore herror => simpa using herror
      | sourceObject hobject _ => simp at hobject
      | ocr herror => simp at herror
  | ok object =>
      dsimp only at hdownload
      by_cases hmatch : objectMatchesClaim object claim = true
      · have hregistered := objectMatchesClaim_iff.mp hmatch
        simp only [hmatch, Bool.not_true, Bool.false_eq_true, ↓reduceIte]
          at hdownload
        obtain ⟨analysis, rest, rfl, hanalysis⟩ :=
          Proc.run_call_attempt_iff.mp hdownload
        cases analysis with
        | error error =>
            have hdone : Staged claim [⟨.getObject claim.s3Key, .ok object⟩,
                ⟨.analyze ⟨object.bytes, claim.contentType⟩, .error error⟩] :=
              ⟨⟨.ok object, by simp⟩, by simp, by simp⟩
            apply hdone.handled _ hanalysis
            intro stage' error' herror
            obtain ⟨hstage, heq⟩ :=
              stageError_registered hregistered (by simp) herror
            exact ⟨hstage, (Except.error.inj heq).symm⟩
        | ok analysis =>
            obtain ⟨saved, rest, rfl, hsaved⟩ :=
              Proc.run_call_attempt_iff.mp hanalysis
            have hdone : Staged claim [⟨.getObject claim.s3Key, .ok object⟩,
                ⟨.analyze ⟨object.bytes, claim.contentType⟩, .ok analysis⟩,
                ⟨.saveTransactionsAndComplete claim.statementId
                  claim.processingToken (toCreateTransactionInputs analysis),
                  saved⟩] :=
              ⟨⟨.ok object, by simp⟩, by simp, by simp⟩
            cases saved with
            | error error =>
                apply hdone.handled _ hsaved
                intro stage' error' herror
                exact (not_stageError_saved hregistered rfl herror).elim
            | ok _ =>
                obtain ⟨rfl, _⟩ := Proc.run_settled_iff.mp hsaved
                refine ⟨hdone, ?_⟩
                intro stage' error' failureCode failureMessage herror
                exact (not_stageError_saved hregistered rfl herror).elim
      · have hmismatch := objectMatchesClaim_iff.not.mp hmatch
        have hdone : Staged claim [⟨.getObject claim.s3Key, .ok object⟩] :=
          ⟨⟨.ok object, by simp⟩, by simp [hmismatch], by simp⟩
        simp only [hmatch, Bool.not_false, ↓reduceIte] at hdownload
        apply hdone.handled _ hdownload
        intro stage' error' herror
        cases herror with
        | objectStore herror => simp at herror
        | sourceObject _ _ => exact ⟨rfl, rfl⟩
        | ocr herror => simp at herror

/-- An unclaimed job makes one lookup. -/
theorem unclaimed_of_run {statementId : Uuid} {rest : HandlerTrace}
    {result : Except Thrown AnalyzeJobDisposition}
    (h : Proc.Run (do
      match ← (resolveUnclaimedJob statementId).attempt with
      | .error _ => return .retry
      | .ok disposition => return disposition) rest result) :
    Unclaimed statementId (.ok none) rest result := by
  obtain ⟨answer, rest, rfl, hrest⟩ := Proc.run_await_iff.mp h
  cases answer with
  | error error =>
      obtain ⟨rfl, rfl⟩ := Proc.run_settled_iff.mp hrest
      exact ⟨fun _ => ⟨_, rfl⟩, fun h => absurd rfl h, by simp, .inr rfl⟩
  | ok found =>
      cases found with
      | none =>
          obtain ⟨rfl, rfl⟩ := Proc.run_settled_iff.mp hrest
          exact ⟨fun _ => ⟨_, rfl⟩, fun h => absurd rfl h, by simp, .inl rfl⟩
      | some statement =>
          by_cases hterminal : statement.status.isTerminal = true
          · simp only [Proc.settled_andThen, Proc.onValue_ok, hterminal,
              ↓reduceIte] at hrest
            obtain ⟨rfl, rfl⟩ := Proc.run_settled_iff.mp hrest
            have hstatus := StatementStatus.isTerminal_iff.mp hterminal
            exact ⟨fun _ => ⟨_, rfl⟩, fun h => absurd rfl h,
              by simpa using hstatus, .inl rfl⟩
          · simp only [Proc.settled_andThen, Proc.onValue_ok, hterminal] at hrest
            obtain ⟨rfl, rfl⟩ := Proc.run_settled_iff.mp hrest
            rw [StatementStatus.isTerminal_iff] at hterminal
            exact ⟨fun _ => ⟨_, rfl⟩, fun h => absurd rfl h,
              by simpa using hterminal, .inr rfl⟩

/-- The decision law of the job handler: its first call claims the job, and what
it calls and answers after that is decided by whether it got the claim. -/
theorem handle_decides {leaseSeconds : Option ℚ} {processingToken : Uuid}
    {job : ReceivedAnalyzeJob} {trace : HandlerTrace}
    {result : Except Thrown AnalyzeJobDisposition}
    (h : (handle leaseSeconds processingToken job).Run trace result) :
    ∃ answer rest, trace = ⟨.claimForProcessing job.statementId processingToken
        leaseSeconds, answer⟩ :: rest ∧
      ((∀ claim, answer ≠ .ok (some claim)) →
        Unclaimed job.statementId answer rest result) ∧
      ∀ claim, answer = .ok (some claim) →
        (∀ before answered after, rest = before ++ answered :: after →
          Permitted claim before answered.op) ∧
        Handled claim rest ∧ Decided claim rest result := by
  obtain ⟨answer, rest, rfl, hrest⟩ := Proc.run_await_iff.mp h
  refine ⟨answer, rest, rfl, fun hnone => ?_, ?_⟩
  · cases answer with
    | error error =>
        obtain ⟨rfl, rfl⟩ := Proc.run_settled_iff.mp hrest
        exact ⟨by simp, fun _ => rfl, by simp, .inr rfl⟩
    | ok claim =>
        cases claim with
        | none => exact unclaimed_of_run hrest
        | some claim => exact absurd rfl (hnone claim)
  · rintro claim rfl
    obtain ⟨hpermitted, hdecided⟩ := hrest.lawful (lawful_processClaim claim)
    exact ⟨hpermitted, handled_of_run hrest, hdecided⟩

def sampleClaim : ProcessingClaim :=
  ⟨⟨1⟩, js "statements/source", .png, 1, 0, 600, ⟨2⟩⟩

/-- The claimed job of an image that the analyzer refuses. -/
def refusedImageTrace : HandlerTrace :=
  [⟨.claimForProcessing ⟨1⟩ ⟨2⟩ none, .ok (some sampleClaim)⟩,
    ⟨.getObject (js "statements/source"), .ok ⟨some (js "image/png"), 1, [0]⟩⟩,
    ⟨.analyze ⟨[0], .png⟩, .error invalidOcrImageError⟩,
    ⟨.markFailed ⟨1⟩ ⟨2⟩ .unsupportedImage (js "対応していない画像形式です。"),
      .ok true⟩]

theorem handle_decides_refusedImage :
    ∃ answer rest, refusedImageTrace =
        ⟨.claimForProcessing ⟨1⟩ ⟨2⟩ none, answer⟩ :: rest ∧
      ((∀ claim, answer ≠ .ok (some claim)) →
        Unclaimed ⟨1⟩ answer rest (.ok .ack)) ∧
      ∀ claim, answer = .ok (some claim) →
        (∀ before answered after, rest = before ++ answered :: after →
          Permitted claim before answered.op) ∧
        Handled claim rest ∧ Decided claim rest (.ok .ack) := by
  have hrun : (handle none ⟨2⟩ ⟨⟨1⟩, ⟨⟨1⟩, 0⟩⟩).Run refusedImageTrace
      (.ok .ack) := by
    repeat' apply Proc.Run.await
    exact .settled
  exact handle_decides hrun

end JobHandler

end Decisions

end StatementAnalyzer
