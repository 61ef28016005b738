/-
The `statements` and `transactions` tables, and every statement that the
repository sends to change one of their rows.
-/
import StatementAnalyzer.Database.Columns
import StatementAnalyzer.Errors

namespace StatementAnalyzer

structure Uuid where
  bits : BitVec 128
deriving DecidableEq, Repr

/-- A `timestamptz`, in microseconds. -/
abbrev Time := Int

inductive StatementStatus where
  | uploadPending
  | uploaded
  | queued
  | processing
  | completed
  | failed
deriving DecidableEq, Repr

inductive StatementFailureCode where
  | sourceObjectNotFound
  | sourceObjectInvalid
  | unsupportedImage
  | invalidOcrResponse
  | ocrNonRetryable
  | processingFailed
deriving DecidableEq, Repr

inductive ContentType where
  | jpeg
  | png
deriving DecidableEq, Repr

def ContentType.text : ContentType → JsString
  | jpeg => js "image/jpeg"
  | png => js "image/png"

structure CreateStatementInput where
  id : Option Uuid
  ownerId : Option Uuid
  s3Key : JsString
  targetMonth : JsString
  contentType : ContentType
  contentLength : Int
  status : Option StatementStatus
deriving DecidableEq, Repr

/-- A row of `statements`.  `mapStatement` only renames its columns and reads
`content_length` as a number, so the record stands for the row. -/
structure StatementRecord where
  id : Uuid
  ownerId : Option Uuid
  s3Key : JsString
  targetMonth : JsString
  status : StatementStatus
  contentType : ContentType
  contentLength : Int
  processingStartedAt : Option Time
  processingLeaseExpiresAt : Option Time
  processingToken : Option Uuid
  processedAt : Option Time
  failureCode : Option StatementFailureCode
  failureMessage : Option JsString
  createdAt : Time
  updatedAt : Time
deriving DecidableEq, Repr

/-- A row of `transactions` without the identity column and `created_at`,
which nothing reads. -/
structure CreateTransactionInput where
  lineNumber : Int
  transactionDate : JsString
  merchantRaw : JsString
  merchantName : JsString
  amount : Int
  category : JsString
  subcategory : Option JsString
deriving DecidableEq, Repr

structure ProcessingClaim where
  statementId : Uuid
  s3Key : JsString
  contentType : ContentType
  contentLength : Int
  processingStartedAt : Time
  processingLeaseExpiresAt : Time
  processingToken : Uuid
deriving DecidableEq, Repr

def StatementStatus.isTerminal : StatementStatus → Bool
  | completed | failed => true
  | _ => false

theorem StatementStatus.isTerminal_iff {status : StatementStatus} :
    status.isTerminal = true ↔ status = .completed ∨ status = .failed := by
  cases status <;> simp [isTerminal]

/-- The parameters of the INSERT that `create` sends. -/
structure StatementColumns where
  id : Uuid
  ownerId : Option Uuid
  s3Key : JsString
  targetMonth : JsString
  status : StatementStatus
  contentType : ContentType
  contentLength : Int
deriving DecidableEq, Repr

/-- `statements_content_length_check`. -/
def contentLengthCheck (length : Int) : Bool :=
  1 ≤ length && length ≤ 10485760

/-- The row that the INSERT adds, unless a column refuses its value. -/
def StatementColumns.insert (now : Time) (columns : StatementColumns) :
    Option StatementRecord :=
  if textCheck columns.s3Key && dateCheck columns.targetMonth &&
      contentLengthCheck columns.contentLength then
    some {
      id := columns.id
      ownerId := columns.ownerId
      s3Key := columns.s3Key
      targetMonth := columns.targetMonth
      status := columns.status
      contentType := columns.contentType
      contentLength := columns.contentLength
      processingStartedAt := none
      processingLeaseExpiresAt := none
      processingToken := none
      processedAt := none
      failureCode := none
      failureMessage := none
      createdAt := now
      updatedAt := now }
  else none

/-- `processing_lease_expires_at < NOW()`: a NULL lease compares as unknown. -/
def StatementRecord.leaseExpired (now : Time) (row : StatementRecord) : Bool :=
  row.processingLeaseExpiresAt.any fun expires => expires < now

/-- `processing_lease_expires_at > NOW()`. -/
def StatementRecord.leaseValid (now : Time) (row : StatementRecord) : Bool :=
  row.processingLeaseExpiresAt.any fun expires => now < expires

/-- The guard shared by `markFailed` and the last UPDATE of
`saveTransactionsAndComplete`. -/
def StatementRecord.claimedBy (now : Time) (token : Uuid)
    (row : StatementRecord) : Bool :=
  row.status = .processing && row.processingToken = some token &&
    row.leaseValid now

/-- The UPDATE statements that run in a transaction of their own. -/
inductive Update where
  | markUploaded
  | markQueued
  | resetQueuedToUploaded
  | claimForProcessing (token : Uuid) (leaseSeconds : Nat)
  | markFailed (token : Uuid) (failureCode : StatementFailureCode)
      (failureMessage : JsString)
deriving DecidableEq, Repr

namespace Update

/-- The row after the UPDATE, if its WHERE condition selects it. -/
def apply (now : Time) (row : StatementRecord) : Update → Option StatementRecord
  | markUploaded =>
      if row.status = .uploadPending then
        some { row with status := .uploaded, updatedAt := now }
      else none
  | markQueued =>
      if row.status = .uploaded then
        some { row with status := .queued, updatedAt := now }
      else none
  | resetQueuedToUploaded =>
      if row.status = .queued then
        some { row with status := .uploaded, updatedAt := now }
      else none
  | claimForProcessing token leaseSeconds =>
      if row.status = .queued ∨
          (row.status = .processing ∧ row.leaseExpired now) then
        some { row with
          status := .processing
          processingStartedAt := some now
          processingLeaseExpiresAt := some (now + leaseSeconds * 1000000)
          processingToken := some token
          updatedAt := now }
      else none
  | markFailed token failureCode failureMessage =>
      if row.claimedBy now token then
        some { row with
          status := .failed
          failureCode := some failureCode
          failureMessage := some failureMessage
          processedAt := none
          processingLeaseExpiresAt := none
          processingToken := none
          updatedAt := now }
      else none

/-- Whether the columns that the UPDATE sets accept their new values. -/
def storable : Update → Bool
  | markFailed _ _ failureMessage =>
      textCheck failureMessage && 1 ≤ codePointLength failureMessage &&
        codePointLength failureMessage ≤ 500
  | _ => true

/-- What the RETURNING clause answers for each updated row. -/
abbrev Returned : Update → Type
  | claimForProcessing _ _ => ProcessingClaim
  | markFailed _ _ _ => Uuid
  | _ => StatementRecord

/-- The returned columns, read from the updated row. -/
def returning (now : Time) (row : StatementRecord) : (u : Update) → u.Returned
  | markUploaded => row
  | markQueued => row
  | resetQueuedToUploaded => row
  | claimForProcessing token leaseSeconds => {
      statementId := row.id
      s3Key := row.s3Key
      contentType := row.contentType
      contentLength := row.contentLength
      processingStartedAt := now
      processingLeaseExpiresAt := now + leaseSeconds * 1000000
      processingToken := token }
  | markFailed _ _ _ => row.id

end Update

/-- The last UPDATE of `saveTransactionsAndComplete`. -/
def StatementRecord.complete (now : Time) (token : Uuid)
    (row : StatementRecord) : Option StatementRecord :=
  if row.claimedBy now token then
    some { row with
      status := .completed
      processedAt := some now
      processingLeaseExpiresAt := none
      processingToken := none
      failureCode := none
      failureMessage := none
      updatedAt := now }
  else none

/-- Whether every column of `transactions` accepts its value. -/
def CreateTransactionInput.storable (transaction : CreateTransactionInput) :
    Bool :=
  integerRange transaction.lineNumber && 0 < transaction.lineNumber &&
    dateCheck transaction.transactionDate &&
    textCheck transaction.merchantRaw && textCheck transaction.merchantName &&
    bigintRange transaction.amount && transaction.amount ≠ 0 &&
    textCheck transaction.category &&
    transaction.subcategory.all textCheck

/-- The row that the INSERT of a transaction writes. -/
def CreateTransactionInput.row (transaction : CreateTransactionInput) :
    CreateTransactionInput :=
  { transaction with
    merchantRaw := utf8Text transaction.merchantRaw
    merchantName := utf8Text transaction.merchantName
    category := utf8Text transaction.category
    subcategory := transaction.subcategory.map utf8Text }

@[simp] theorem CreateTransactionInput.row_lineNumber
    (transaction : CreateTransactionInput) :
    transaction.row.lineNumber = transaction.lineNumber := rfl

@[simp] theorem CreateTransactionInput.row_amount
    (transaction : CreateTransactionInput) :
    transaction.row.amount = transaction.amount := rfl

@[simp] theorem CreateTransactionInput.row_transactionDate
    (transaction : CreateTransactionInput) :
    transaction.row.transactionDate = transaction.transactionDate := rfl

@[simp] theorem textCheck_utf8Text (text : JsString) :
    textCheck (utf8Text text) = textCheck text := by
  have hnul : nul ∈ utf8Text text ↔ nul ∈ text :=
    mem_utf8Text_iff (by decide) (by decide)
  simp [textCheck, hnul]

/-- The columns accept a value in UTF-8 or not at all. -/
@[simp] theorem CreateTransactionInput.storable_row
    (transaction : CreateTransactionInput) :
    transaction.row.storable = transaction.storable := by
  cases hsubcategory : transaction.subcategory <;>
    simp [storable, row, hsubcategory]

/-- Whether every text of the transaction is well-formed. -/
def CreateTransactionInput.isWellFormed (transaction : CreateTransactionInput) :
    Bool :=
  StatementAnalyzer.isWellFormed transaction.merchantRaw &&
    StatementAnalyzer.isWellFormed transaction.merchantName &&
    StatementAnalyzer.isWellFormed transaction.category &&
    transaction.subcategory.all StatementAnalyzer.isWellFormed

theorem CreateTransactionInput.row_eq_self_iff
    {transaction : CreateTransactionInput} :
    transaction.row = transaction ↔ transaction.isWellFormed = true := by
  have hsubcategory : transaction.subcategory.map utf8Text =
      transaction.subcategory ↔ transaction.subcategory.all
        StatementAnalyzer.isWellFormed = true := by
    cases transaction.subcategory <;> simp [utf8Text_eq_self_iff]
  rw [isWellFormed, row, CreateTransactionInput.mk.injEq]
  simp only [hsubcategory, utf8Text_eq_self_iff, Bool.and_eq_true, true_and,
    and_assoc]

/-- Exactly the lists of well-formed transactions are stored as they are. -/
theorem map_row_eq_self_iff {transactions : List CreateTransactionInput} :
    transactions.map CreateTransactionInput.row = transactions ↔
      ∀ transaction ∈ transactions, transaction.isWellFormed = true := by
  induction transactions with
  | nil => simp
  | cons transaction rest ih =>
      rw [List.map_cons, List.cons.injEq, ih, List.forall_mem_cons,
        CreateTransactionInput.row_eq_self_iff]

/-- `INSERT .. ON CONFLICT (statement_id, line_number) DO UPDATE` among the
rows of one statement. -/
def upsertTransaction (transactions : List CreateTransactionInput)
    (transaction : CreateTransactionInput) : List CreateTransactionInput :=
  if transactions.any fun old => old.lineNumber = transaction.lineNumber then
    transactions.map fun old =>
      if old.lineNumber = transaction.lineNumber then transaction.row else old
  else transactions ++ [transaction.row]

/-- With line numbers that are all new, the upserts only append. -/
theorem foldl_upsertTransaction_eq_append
    (transactions stored : List CreateTransactionInput)
    (hnodup : ((stored ++ transactions).map
      CreateTransactionInput.lineNumber).Nodup) :
    transactions.foldl upsertTransaction stored =
      stored ++ transactions.map CreateTransactionInput.row := by
  induction transactions generalizing stored with
  | nil => simp
  | cons transaction rest ih =>
      have hnew : ¬stored.any
          (fun old => old.lineNumber = transaction.lineNumber) = true := by
        intro hany
        obtain ⟨old, hold, heq⟩ := List.any_eq_true.mp hany
        have heq : old.lineNumber = transaction.lineNumber := by
          simpa using heq
        simp only [List.map_append, List.map_cons, List.nodup_append] at hnodup
        exact hnodup.2.2 _ (List.mem_map_of_mem hold) _
          List.mem_cons_self heq
      have hupsert : upsertTransaction stored transaction =
          stored ++ [transaction.row] := if_neg hnew
      have hnumbers : ((stored ++ [transaction.row]) ++ rest).map
          CreateTransactionInput.lineNumber =
            (stored ++ transaction :: rest).map
              CreateTransactionInput.lineNumber := by
        simp [CreateTransactionInput.row]
      rw [List.foldl_cons, hupsert, ih _ (hnumbers ▸ hnodup), List.map_cons,
        List.append_assoc, List.singleton_append]

end StatementAnalyzer
