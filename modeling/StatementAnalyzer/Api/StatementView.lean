/-
`GET /statements/:id`: what the API shows of a statement.
-/
import StatementAnalyzer.Api.Statements
import StatementAnalyzer.Js.Date

namespace StatementAnalyzer

open Async

/-- `PUBLIC_FAILURE_MESSAGES`. -/
def PUBLIC_FAILURE_MESSAGES : List (StatementFailureCode × JsString) :=
  [(.sourceObjectNotFound, js "明細画像が見つかりません。"),
    (.sourceObjectInvalid, js "明細画像の情報が不正です。"),
    (.unsupportedImage, js "対応していない画像形式です。"),
    (.invalidOcrResponse, js "明細を解析できませんでした。"),
    (.ocrNonRetryable, js "明細を解析できませんでした。"),
    (.processingFailed, js "明細を処理できませんでした。")]

structure PublicFailure where
  code : StatementFailureCode
  message : JsString
deriving DecidableEq, Repr

/-- The failure that is shown for a code; the stored message is not. -/
def publicFailure (failureCode : StatementFailureCode) : PublicFailure :=
  match PUBLIC_FAILURE_MESSAGES.find? fun entry => entry.1 = failureCode with
  | none => ⟨.processingFailed, js "明細を処理できませんでした。"⟩
  | some (_, message) => ⟨failureCode, message⟩

def toPublicFailure (statement : StatementRecord) : Option PublicFailure :=
  statement.failureCode.map publicFailure

structure PublicStatement where
  statementId : Uuid
  targetMonth : JsString
  status : StatementStatus
  processedAt : Option JsString
  failure : Option PublicFailure
deriving DecidableEq, Repr

/-- How the database driver reads a `timestamptz` as a `Date`. -/
abbrev TimestampReader := Time → TimeValue

def toPublicStatement (timestamp : TimestampReader)
    (statement : StatementRecord) : PublicStatement where
  statementId := statement.id
  targetMonth := statement.targetMonth.take 7
  status := statement.status
  processedAt := statement.processedAt.map fun time =>
    (timestamp time).toISOString
  failure := toPublicFailure statement

inductive StatementResponse where
  | refused (response : Response)
  | statement (body : PublicStatement)
deriving DecidableEq, Repr

/-- `GET /statements/:id`; the id is absent where it is not a UUID. -/
def getStatement (timestamp : TimestampReader) :
    Option Uuid → Program StatementResponse
  | none => return .refused invalidRequest
  | some id => do
      match ← (StatementRepository.findById id).attempt with
      | .error _ => return .refused dependencyUnavailable
      | .ok none => return .refused statementNotFound
      | .ok (some statement) =>
          return .statement (toPublicStatement timestamp statement)

/-- Every code has a message of its own in the table. -/
theorem publicFailure_code (failureCode : StatementFailureCode) :
    (publicFailure failureCode).code = failureCode ∧
      (failureCode, (publicFailure failureCode).message) ∈
        PUBLIC_FAILURE_MESSAGES := by
  cases failureCode <;> decide

end StatementAnalyzer
