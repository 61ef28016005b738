/-
The endpoints of the API that create a statement, confirm its upload and
request its analysis.  Logging, CORS and the request id are left out.
-/
import StatementAnalyzer.Database.Repository

namespace StatementAnalyzer

open Async

def MAX_UPLOAD_BYTES : Nat := 10 * 1024 * 1024

/-- What the endpoints answer with. -/
inductive ResponseBody where
  | error (code message : JsString)
  | uploadStatus (statementId : Uuid) (status : StatementStatus)
  | created (statementId : Uuid) (status : StatementStatus) (url : JsString)
      (contentType : ContentType) (expiresInSeconds : Nat)
deriving DecidableEq, Repr

structure Response where
  status : Nat
  body : ResponseBody
deriving DecidableEq, Repr

def errorResponse (status : Nat) (code message : JsString) : Response :=
  ⟨status, .error code message⟩

def invalidRequest : Response :=
  errorResponse 400 (js "INVALID_REQUEST") (js "入力内容が不正です。")

def dependencyUnavailable : Response :=
  errorResponse 503 (js "DEPENDENCY_UNAVAILABLE")
    (js "依存サービスを利用できません。")

def statementNotFound : Response :=
  errorResponse 404 (js "STATEMENT_NOT_FOUND") (js "明細が見つかりません。")

def notUploadable : Response :=
  errorResponse 409 (js "STATEMENT_NOT_UPLOADABLE")
    (js "この明細はアップロード完了にできません。")

/-- `context.json(toUploadStatus(statement), status)`. -/
def toUploadStatus (statement : StatementRecord) (status : Nat) : Response :=
  ⟨status, .uploadStatus statement.id statement.status⟩

/-- What arrives at `POST /statements`.  `body` is absent where it is not JSON. -/
structure CreateStatementHttpRequest where
  tooLarge : Bool
  contentType : Option JsString
  body : Option JsValue

/-- `toLowerCase`, as far as a comparison with an ASCII text can tell. -/
def asciiLowerCase (text : JsString) : JsString :=
  text.map fun unit =>
    if 0x41 ≤ unit && unit ≤ 0x5A then unit + 0x20 else unit

def isJsonContentType (value : Option JsString) : Bool :=
  value.any fun text =>
    asciiLowerCase (trim (text.takeWhile fun unit => unit ≠ 0x3B)) =
      js "application/json"

/-- A numeric `contentLength` over the limit, whatever else the body is. -/
def isTooLargeContentLength : JsValue → Bool
  | .object properties =>
      match JsValue.property properties (js "contentLength") with
      | .number value => (MAX_UPLOAD_BYTES : ℚ) < value
      | .infinity negative => !negative
      | _ => false
  | _ => false

structure CreateStatementRequest where
  targetMonth : JsString
  contentType : ContentType
  contentLength : Int

/-- `YYYY-MM` of a year from 2000 to 2100. -/
def targetMonthSchema (value : JsString) : Option JsString :=
  let year := digitsValue (value.take 4)
  if isTargetMonth value && 2000 ≤ year && year ≤ 2100 then some value else none

def contentTypeSchema : JsValue → Option ContentType
  | .string value =>
      [ContentType.jpeg, ContentType.png].find? fun contentType =>
        contentType.text = value
  | _ => none

def createStatementRequestSchema : JsValue → Option CreateStatementRequest
  | .object properties => do
      let field := fun name => JsValue.property properties (js name)
      let targetMonth ← match field "targetMonth" with
        | .string value => targetMonthSchema value
        | _ => none
      match field "fileName" with
        | .string value =>
            if 1 ≤ codePointLength value && codePointLength value ≤ 255 then
              some ()
            else none
        | _ => none
      let contentType ← contentTypeSchema (field "contentType")
      let contentLength ← (field "contentLength").safeInteger?
      if 0 < contentLength && contentLength ≤ MAX_UPLOAD_BYTES &&
          properties.all (fun entry => [js "targetMonth", js "fileName",
            js "contentType", js "contentLength"].contains entry.1) then
        return ⟨targetMonth, contentType, contentLength⟩
      else none
  | _ => none

def hexDigit (n : Nat) : UInt16 :=
  (if n < 10 then 0x30 + n else 0x57 + n).toUInt16

/-- Hexadecimal digits of a number, highest first. -/
def hexDigits (n : Nat) : Nat → JsString
  | 0 => []
  | count + 1 => hexDigits (n / 16) count ++ [hexDigit (n % 16)]

/-- The canonical text of a UUID. -/
def Uuid.text (id : Uuid) : JsString :=
  let digits := hexDigits id.bits.toNat 32
  digits.take 8 ++ js "-" ++ (digits.drop 8).take 4 ++ js "-" ++
    (digits.drop 12).take 4 ++ js "-" ++ (digits.drop 16).take 4 ++ js "-" ++
    digits.drop 20

/-- The part of `POST /statements` after validation. -/
def insertStatement (presignedUrlExpiresSeconds : Nat)
    (createInput : CreateStatementInput) : Program Response := do
  let uploadUrl ← request (.createPresignedPutUrl createInput.s3Key
    createInput.contentType presignedUrlExpiresSeconds)
  let statement ← StatementRepository.create createInput
  return ⟨201, .created statement.id statement.status uploadUrl
    createInput.contentType presignedUrlExpiresSeconds⟩

/-- The answer once the statement was inserted, or was not. -/
def createdResponse : Except Thrown Response → Response
  | .ok response => response
  | .error error =>
      if error.errorClass = .uniqueConstraint then
        errorResponse 409 (js "STATEMENT_CONFLICT")
          (js "明細の作成が競合しました。")
      else dependencyUnavailable

/-- `POST /statements`. -/
def createStatement (presignedUrlExpiresSeconds : Nat)
    (http : CreateStatementHttpRequest) : Program Response :=
  if http.tooLarge then
    return errorResponse 413 (js "REQUEST_TOO_LARGE")
      (js "リクエストが大きすぎます。")
  else if !isJsonContentType http.contentType then
    return errorResponse 400 (js "INVALID_REQUEST")
      (js "Content-Typeはapplication/jsonを指定してください。")
  else
    match http.body with
    | none => return invalidRequest
    | some body =>
        if isTooLargeContentLength body then
          return errorResponse 413 (js "FILE_TOO_LARGE")
            (js "ファイルサイズが上限を超えています。")
        else
          match createStatementRequestSchema body with
          | none => return invalidRequest
          | some data => do
              let statementId ← request .randomUUID
              let created ← (insertStatement presignedUrlExpiresSeconds {
                id := some statementId
                ownerId := none
                s3Key := js "statements/" ++ statementId.text ++ js "/source"
                targetMonth := data.targetMonth
                contentType := data.contentType
                contentLength := data.contentLength
                status := some .uploadPending }).attempt
              return createdResponse created

/-- The answer to a statement that `markUploaded` or the second read found. -/
def uploadedResponse : Option StatementRecord → Response
  | none => statementNotFound
  | some uploaded =>
      if uploaded.status = .failed then notUploadable
      else toUploadStatus uploaded 200

/-- `markUploaded`, and a second read where it matched no row. -/
def markUploadedOrFind (id : Uuid) : Program (Option StatementRecord) := do
  match ← StatementRepository.markUploaded id with
  | some uploaded => return some uploaded
  | none => StatementRepository.findById id

/-- `POST /statements/:id/upload/complete`; the id is absent where it is not a
UUID. -/
def completeUpload : Option Uuid → Program Response
  | none => return invalidRequest
  | some id => do
      match ← (StatementRepository.findById id).attempt with
      | .error _ => return dependencyUnavailable
      | .ok none => return statementNotFound
      | .ok (some statement) =>
          if statement.status = .failed then return notUploadable
          else if statement.status ≠ .uploadPending then
            return toUploadStatus statement 200
          else
            match ← (request (.headObject statement.s3Key)).attempt with
            | .error error =>
                if error.errorClass = .objectNotFound ∨
                    (error.errorClass ≠ .notError ∧
                      error.name = some (js "ObjectNotFoundError")) then
                  return errorResponse 404 (js "UPLOAD_NOT_FOUND")
                    (js "アップロードされた画像が見つかりません。")
                else return dependencyUnavailable
            | .ok objectMetadata =>
                if objectMetadata.contentType ≠
                      some statement.contentType.text ∨
                    objectMetadata.contentLength ≠ statement.contentLength then
                  return errorResponse 409 (js "UPLOAD_METADATA_MISMATCH")
                    (js "アップロードされた画像の情報が登録内容と一致しません。")
                else
                  match ← (markUploadedOrFind statement.id).attempt with
                  | .error _ => return dependencyUnavailable
                  | .ok uploaded => return uploadedResponse uploaded

/-- The answer to a statement that could not be queued. -/
def unqueuedResponse : Option StatementRecord → Response
  | none => statementNotFound
  | some statement =>
      if statement.status ≠ .uploaded then toUploadStatus statement 200
      else
        errorResponse 409 (js "ANALYZE_CONFLICT")
          (js "解析開始の競合が発生しました。")

/-- Send the job of a statement that this request has queued, and take the
status back where the send fails. -/
def sendQueuedJob (queued : StatementRecord) : Program Response := do
  match ← (request (.sendMessage queued.id)).attempt with
  | .ok _ => return toUploadStatus queued 202
  | .error _ =>
      -- whether the reset worked is only logged
      let _ ← (StatementRepository.resetQueuedToUploaded queued.id).attempt
      return dependencyUnavailable

/-- `markQueued` and what depends on it. -/
def queueStatement (statement : StatementRecord) : Program Response := do
  match ← (StatementRepository.markQueued statement.id).attempt with
  | .error _ => return dependencyUnavailable
  | .ok (some queued) => sendQueuedJob queued
  | .ok none =>
      match ← (StatementRepository.findById statement.id).attempt with
      | .error _ => return dependencyUnavailable
      | .ok found => return unqueuedResponse found

/-- `POST /statements/:id/analyze`. -/
def analyzeStatement : Option Uuid → Program Response
  | none => return invalidRequest
  | some id => do
      match ← (StatementRepository.findById id).attempt with
      | .error _ => return dependencyUnavailable
      | .ok none => return statementNotFound
      | .ok (some statement) =>
          match statement.status with
          | .uploadPending =>
              return errorResponse 409 (js "STATEMENT_NOT_READY")
                (js "画像のアップロードが完了していません。")
          | .failed =>
              return errorResponse 409 (js "STATEMENT_NOT_ANALYZABLE")
                (js "この明細は解析対象にできません。")
          | .uploaded => queueStatement statement
          | _ => return toUploadStatus statement 200

end StatementAnalyzer
