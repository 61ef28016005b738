/-
The methods of `StatementRepository` that send a single statement.  The client
sends texts in UTF-8; the month is a date by then.
-/
import StatementAnalyzer.Service.Interface

namespace StatementAnalyzer

open Async

def DEFAULT_PROCESSING_LEASE_SECONDS : ℚ := 10 * 60

/-- `^\d{4}-(0[1-9]|1[0-2])$`. -/
def isTargetMonth : JsString → Bool
  | [y₁, y₂, y₃, y₄, 0x2D, m₁, m₂] =>
      [y₁, y₂, y₃, y₄].all isDigit &&
        ((m₁ = 0x30 && 0x31 ≤ m₂ && m₂ ≤ 0x39) ||
          (m₁ = 0x31 && 0x30 ≤ m₂ && m₂ ≤ 0x32))
  | _ => false

def normalizeTargetMonth (value : JsString) : Except Thrown JsString :=
  if isTargetMonth value then .ok (value ++ js "-01") else .error plainError

def isUniqueViolation (error : Thrown) : Bool :=
  error.code = some (js "23505")

def getFirstRow {T : Type} : List T → Program T
  | row :: _ => pure row
  | [] => Proc.throwing plainError

namespace StatementRepository

def create (input : CreateStatementInput) : Program StatementRecord :=
  Proc.orElse
    (do
      let id ← match input.id with
        | some id => pure id
        | none => request .randomUUID
      let targetMonth ← Proc.settled (normalizeTargetMonth input.targetMonth)
      let rows ← request (.insertStatement {
        id := id
        ownerId := input.ownerId
        s3Key := utf8Text input.s3Key
        targetMonth := targetMonth
        status := input.status.getD .uploadPending
        contentType := input.contentType
        contentLength := input.contentLength })
      getFirstRow rows)
    fun error =>
      if isUniqueViolation error then Proc.throwing uniqueConstraintError
      else Proc.throwing error

/-- The lease must be a positive integer before anything is sent. -/
def claimForProcessing (statementId processingToken : Uuid)
    (leaseSeconds : Option ℚ) : Program (Option ProcessingClaim) :=
  let leaseSeconds := leaseSeconds.getD DEFAULT_PROCESSING_LEASE_SECONDS
  if ¬leaseSeconds.isInt ∨ leaseSeconds ≤ 0 then
    Proc.throwing plainError
  else do
    let rows ← request (.updateStatement statementId
      (.claimForProcessing processingToken leaseSeconds.num.toNat))
    return rows.head?

def findById (id : Uuid) : Program (Option StatementRecord) := do
  let rows ← request (.selectStatement id)
  return rows.head?

def markUploaded (id : Uuid) : Program (Option StatementRecord) := do
  let rows ← request (.updateStatement id .markUploaded)
  return rows.head?

def markQueued (id : Uuid) : Program (Option StatementRecord) := do
  let rows ← request (.updateStatement id .markQueued)
  return rows.head?

def resetQueuedToUploaded (id : Uuid) : Program (Option StatementRecord) := do
  let rows ← request (.updateStatement id .resetQueuedToUploaded)
  return rows.head?

def markFailed (statementId processingToken : Uuid)
    (failureCode : StatementFailureCode) (failureMessage : JsString) :
    Program Bool := do
  let rows ← request (.updateStatement statementId
    (.markFailed processingToken failureCode (utf8Text failureMessage)))
  return rows.length = 1

def saveTransactionsAndComplete (statementId processingToken : Uuid)
    (transactions : List CreateTransactionInput) : Program Unit :=
  Proc.call
    (Call.saveTransactionsAndComplete statementId processingToken transactions)

end StatementRepository

end StatementAnalyzer
