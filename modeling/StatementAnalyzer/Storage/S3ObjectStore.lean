/-
Reading an object from S3: its bytes at once, in chunks, or from a web stream,
and never more of them than an image may have.
-/
import StatementAnalyzer.Errors
import StatementAnalyzer.Service.Interface

namespace StatementAnalyzer

def MAX_STATEMENT_IMAGE_BYTES : Nat := 10 * 1024 * 1024

/-- What reading throws: the error, and the status under its `$metadata`. -/
structure StorageError where
  error : Thrown
  httpStatusCode : Option Int
deriving DecidableEq, Repr

/-- `new InvalidSourceObjectError(..)`. -/
def invalidObject : StorageError := ⟨invalidSourceObjectError, none⟩

def rangeError : StorageError := ⟨⟨.other, some (js "RangeError"), none⟩, none⟩

def isS3NotFoundError (e : StorageError) : Bool :=
  e.error.name = some (js "NotFound") || e.error.name = some (js "NoSuchKey") ||
    e.httpStatusCode = some 404

/-- A chunk, as `instanceof Uint8Array` sees it. -/
inductive BodyChunk where
  | uint8Array (bytes : List UInt8)
  | unsupported
deriving DecidableEq, Repr

/-- The chunks that a body yields, and the error that ends them early. -/
structure BodyChunks where
  chunks : List BodyChunk
  failure : Option StorageError

/-- `cancel` is how cancelling the reader settles, and absent where the reader
has no `cancel`. -/
structure ReadableBodyStream extends BodyChunks where
  cancel : Option (Except StorageError Unit)

/-- What `Body` is, in the order in which `readObjectBody` asks. -/
inductive ObjectBody where
  | uint8Array (bytes : List UInt8)
  | asyncIterable (body : BodyChunks)
  | webStream (body : ReadableBodyStream)
  | unsupported

/-- `chunks` and `totalLength`. -/
structure ReadState where
  chunks : List (List UInt8)
  totalLength : Nat
deriving DecidableEq, Repr

def ReadState.start : ReadState := ⟨[], 0⟩

/-- The body of both loops; `tooLarge` is awaited before a chunk too many is
refused. -/
def readChunk (tooLarge : Except StorageError Unit) (state : ReadState) :
    BodyChunk → Except StorageError ReadState
  | .unsupported => .error invalidObject
  | .uint8Array bytes =>
      let totalLength := state.totalLength + bytes.length
      if MAX_STATEMENT_IMAGE_BYTES < totalLength then do
        tooLarge
        .error invalidObject
      else .ok ⟨state.chunks ++ [bytes], totalLength⟩

def readChunks (tooLarge : Except StorageError Unit)
    (failure : Option StorageError) :
    ReadState → List BodyChunk → Except StorageError ReadState
  | state, [] =>
      match failure with
      | none => .ok state
      | some error => .error error
  | state, chunk :: rest => do
      let state ← readChunk tooLarge state chunk
      readChunks tooLarge failure state rest

/-- `bytes.set(chunk, offset)`. -/
def setBytes (bytes chunk : List UInt8) (offset : Nat) :
    Except StorageError (List UInt8) :=
  if offset + chunk.length ≤ bytes.length then
    .ok (bytes.take offset ++ chunk ++ bytes.drop (offset + chunk.length))
  else .error rangeError

def copyChunks : List UInt8 → Nat → List (List UInt8) →
    Except StorageError (List UInt8)
  | bytes, _, [] => .ok bytes
  | bytes, offset, chunk :: rest => do
      let bytes ← setBytes bytes chunk offset
      copyChunks bytes (offset + chunk.length) rest

/-- What follows the loops: a new array takes the chunks one after another. -/
def joinChunks (state : ReadState) : Except StorageError (List UInt8) :=
  copyChunks (List.replicate state.totalLength 0) 0 state.chunks

/-- `await reader.cancel?.(..)`. -/
def ReadableBodyStream.tooLarge (body : ReadableBodyStream) :
    Except StorageError Unit :=
  body.cancel.getD (.ok ())

def readObjectBody : ObjectBody → Except StorageError (List UInt8)
  | .uint8Array bytes =>
      if MAX_STATEMENT_IMAGE_BYTES < bytes.length then .error invalidObject
      else .ok bytes
  | .asyncIterable body => do
      let state ← readChunks (.ok ()) body.failure .start body.chunks
      joinChunks state
  | .webStream body => do
      let state ← readChunks body.tooLarge body.failure .start body.chunks
      joinChunks state
  | .unsupported => .error invalidObject

/-- The answer to `GetObjectCommand`.  `contentLength` may be any value. -/
structure GetObjectOutput where
  body : ObjectBody
  contentType : Option JsString
  contentLength : JsValue

/-- The two checks of `ContentLength` before the body is read; a NaN passes
them. -/
def contentLengthRefused : JsValue → Bool
  | .number n => n < 1 || (MAX_STATEMENT_IMAGE_BYTES : ℚ) < n
  | .infinity _ => true
  | .nan => false
  | _ => true

/-- `bytes.byteLength === result.ContentLength`, with the number it equals. -/
def equalLength? (bytes : List UInt8) : JsValue → Option Int
  | .number n => if (bytes.length : ℚ) = n then some n.num else none
  | _ => none

/-- What `getObject` does with the bytes. -/
def compareLength (result : GetObjectOutput) (bytes : List UInt8) :
    Except StorageError DownloadedObject :=
  match equalLength? bytes result.contentLength with
  | none => .error invalidObject
  | some contentLength => .ok ⟨result.contentType, contentLength, bytes⟩

/-- The `try` block of `getObject`. -/
def downloadObject (result : GetObjectOutput) :
    Except StorageError DownloadedObject :=
  if contentLengthRefused result.contentLength then .error invalidObject
  else do
    let bytes ← readObjectBody result.body
    compareLength result bytes

/-- `getObject`, from what `send` settles with. -/
def S3ObjectStore.getObject (sent : Except StorageError GetObjectOutput) :
    Except Thrown DownloadedObject :=
  match sent >>= downloadObject with
  | .ok object => .ok object
  | .error e =>
      if isS3NotFoundError e then .error objectNotFoundError
      else .error e.error

end StatementAnalyzer
