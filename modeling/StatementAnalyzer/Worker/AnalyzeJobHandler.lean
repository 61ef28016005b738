/-
The job handler and what the worker does with its answer.  Log lines are left
out.
-/
import StatementAnalyzer.Ai.BedrockOcr
import StatementAnalyzer.Database.Repository

namespace StatementAnalyzer

open Async

inductive AnalyzeJobErrorStage where
  | objectStore
  | ocr
  | database
deriving DecidableEq, Repr

inductive AnalyzeJobErrorClassification where
  | retryable
  | permanent (failureCode : StatementFailureCode) (failureMessage : JsString)
deriving DecidableEq, Repr

def isAbortError (error : Thrown) : Bool :=
  error.name = some (js "AbortError") || error.code = some (js "ABORT_ERR")

def classifyAnalyzeJobError (stage : AnalyzeJobErrorStage) (error : Thrown) :
    AnalyzeJobErrorClassification :=
  if isAbortError error then .retryable
  else
    match stage with
    | .objectStore =>
        match error.errorClass with
        | .objectNotFound =>
            .permanent .sourceObjectNotFound (js "明細画像が見つかりません。")
        | .invalidSourceObject =>
            .permanent .sourceObjectInvalid (js "明細画像の情報が不正です。")
        | _ => .retryable
    | .ocr =>
        match error.errorClass with
        | .invalidOcrImage =>
            .permanent .unsupportedImage (js "対応していない画像形式です。")
        | .invalidOcrResponse =>
            .permanent .invalidOcrResponse (js "OCR結果を検証できませんでした。")
        | _ =>
            match classifyBedrockError error with
            | .retryable => .retryable
            | .nonRetryable =>
                .permanent .ocrNonRetryable
                  (js "OCRサービスが明細を処理できませんでした。")
    | .database => .retryable

inductive AnalyzeJobDisposition where
  | ack
  | retry
deriving DecidableEq, Repr

/-- The fields of a received job that are not only logged. -/
structure ReceivedAnalyzeJob where
  statementId : Uuid
  receiptHandle : ReceiptHandle

def OcrTransaction.toCreateTransactionInput (transaction : OcrTransaction) :
    CreateTransactionInput where
  lineNumber := transaction.lineNumber
  transactionDate := transaction.transactionDate
  merchantRaw := transaction.merchantRaw
  merchantName := transaction.merchantName
  amount := transaction.amount
  category := transaction.category.text
  subcategory := transaction.subcategory

def toCreateTransactionInputs (result : OcrResult) :
    List CreateTransactionInput :=
  result.transactions.map OcrTransaction.toCreateTransactionInput

def resolveUnclaimedJob (statementId : Uuid) :
    Program AnalyzeJobDisposition := do
  match ← StatementRepository.findById statementId with
  | none => return .ack
  | some statement =>
      if statement.status.isTerminal then return .ack else return .retry

/-- The `catch` block around the three stages of a claimed job. -/
def failJob (claim : ProcessingClaim) (stage : AnalyzeJobErrorStage)
    (error : Thrown) : Program AnalyzeJobDisposition :=
  match classifyAnalyzeJobError stage error with
  | .retryable => return .retry
  | .permanent failureCode failureMessage => do
      let markedFailed ← StatementRepository.markFailed claim.statementId
        claim.processingToken failureCode failureMessage
      if markedFailed then return .ack else return .retry

/-- The object must be the one that was registered. -/
def objectMatchesClaim (object : DownloadedObject) (claim : ProcessingClaim) :
    Bool :=
  object.contentType = some claim.contentType.text &&
    object.contentLength = claim.contentLength &&
    (object.bytes.length : Int) = claim.contentLength

/-- The `try` block: each stage on its own, its error handed to `failJob`. -/
def processClaim (claim : ProcessingClaim) : Program AnalyzeJobDisposition := do
  match ← (request (.getObject claim.s3Key)).attempt with
  | .error error => failJob claim .objectStore error
  | .ok object =>
      if !objectMatchesClaim object claim then
        failJob claim .objectStore invalidSourceObjectError
      else
        match ← (analyze ⟨object.bytes, claim.contentType⟩).attempt with
        | .error error => failJob claim .ocr error
        | .ok analysis =>
            match ← (StatementRepository.saveTransactionsAndComplete
                claim.statementId claim.processingToken
                (toCreateTransactionInputs analysis)).attempt with
            | .error error => failJob claim .database error
            | .ok _ => return .ack

def createAnalyzeJobHandler (leaseSeconds : Option ℚ) (job : ReceivedAnalyzeJob) :
    Program AnalyzeJobDisposition := do
  let processingToken ← request .randomUUID
  match ← (StatementRepository.claimForProcessing job.statementId
      processingToken leaseSeconds).attempt with
  | .error _ => return .retry
  | .ok none =>
      match ← (resolveUnclaimedJob job.statementId).attempt with
      | .error _ => return .retry
      | .ok disposition => return disposition
  | .ok (some claim) => processClaim claim

inductive ShutdownOperationResult (T : Type) where
  | completed (value : T)
  | failed (error : Thrown)
  | timedOut

/-- The race of an operation against the shutdown deadline.  An operation that
has lost it still runs on, and the worker does nothing for the job after that,
so the race can be called at the end. -/
def runWithShutdownTimeout {T : Type} (operation : Program T) :
    Program (ShutdownOperationResult T) := do
  let result ← operation.attempt
  if ← request .shutdownTimeout then return .timedOut
  else
    match result with
    | .ok value => return .completed value
    | .error error => return .failed error

def processJob (leaseSeconds : Option ℚ) (job : ReceivedAnalyzeJob) :
    Program Unit := do
  match ← runWithShutdownTimeout (createAnalyzeJobHandler leaseSeconds job) with
  | .failed _ => return
  | .timedOut => return
  | .completed .retry => return
  | .completed .ack =>
      let _ ← runWithShutdownTimeout
        (request (.deleteMessage job.receiptHandle))
      return

end StatementAnalyzer
