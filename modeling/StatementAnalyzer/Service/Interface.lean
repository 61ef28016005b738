/-
The calls that the handlers of the service await: requests to the database, the
queue, the object store and Bedrock, and the one repository method that is a
transaction of several queries.
-/
import StatementAnalyzer.Async.Procedure
import StatementAnalyzer.Database.Statements
import StatementAnalyzer.Js.Value

namespace StatementAnalyzer

open Async

structure ObjectMetadata where
  contentType : Option JsString
  contentLength : Int

structure DownloadedObject where
  contentType : Option JsString
  contentLength : Int
  bytes : List UInt8

structure OcrImageInput where
  bytes : List UInt8
  contentType : ContentType

structure ToolUseBlock where
  name : Option JsString
  input : JsValue

/-- A block of a Bedrock answer; only one with a `toolUse` property is looked
into. -/
inductive ContentBlock where
  | toolUse (value : Option ToolUseBlock)
  | other

/-- The part of `ConverseCommandOutput` that is read.  `content` is absent
where it is not an array. -/
structure ConverseOutput where
  stopReason : Option JsString
  content : Option (List ContentBlock)

/-- A message of the queue: the statement that its body names and which of the
messages for that statement it is. -/
structure ReceiptHandle where
  statementId : Uuid
  index : Nat
deriving DecidableEq, Repr

/-- A request that a dependency serves as a whole. -/
inductive Request where
  | insertStatement (columns : StatementColumns)
  | selectStatement (id : Uuid)
  | updateStatement (id : Uuid) (u : Update)
  | sendMessage (statementId : Uuid)
  | deleteMessage (receiptHandle : ReceiptHandle)
  | createPresignedPutUrl (key : JsString) (contentType : ContentType)
      (expiresInSeconds : Nat)
  | headObject (key : JsString)
  | getObject (key : JsString)
  | converse (image : OcrImageInput)
  | randomUUID
  | shutdownTimeout

/-- What the request is answered with. -/
abbrev Request.Answer : Request → Type
  | insertStatement _ => List StatementRecord
  | selectStatement _ => List StatementRecord
  | updateStatement _ u => List u.Returned
  | sendMessage _ => Unit
  | deleteMessage _ => Unit
  | createPresignedPutUrl _ _ _ => JsString
  | headObject _ => ObjectMetadata
  | getObject _ => DownloadedObject
  | converse _ => ConverseOutput
  | randomUUID => Uuid
  | shutdownTimeout => Bool

/-- A request, or the transaction that stores an OCR result. -/
inductive Call where
  | request (r : Request)
  | saveTransactionsAndComplete (statementId processingToken : Uuid)
      (transactions : List CreateTransactionInput)

abbrev Call.Answer : Call → Type
  | request r => r.Answer
  | saveTransactionsAndComplete _ _ _ => Unit

/-- A procedure of the service. -/
abbrev Program : Type → Type := Proc Call Call.Answer Thrown

/-- Await one request. -/
def request (r : Request) : Program r.Answer :=
  Proc.call (Call.request r)

end StatementAnalyzer
