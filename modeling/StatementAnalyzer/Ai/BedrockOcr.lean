/-
The OCR analyzer over Bedrock.
-/
import StatementAnalyzer.Ai.OcrSchema
import StatementAnalyzer.Service.Interface

namespace StatementAnalyzer

open Async

def MAX_OCR_IMAGE_BYTES : Nat := 10 * 1024 * 1024

def OCR_TOOL_NAME : JsString := js "extract_credit_card_transactions"

/-- The content type is supported by its type. -/
def validateImage (image : OcrImageInput) : Except Thrown Unit :=
  if image.bytes.length = 0 then .error invalidOcrImageError
  else if MAX_OCR_IMAGE_BYTES < image.bytes.length then
    .error invalidOcrImageError
  else .ok ()

def ContentBlock.isToolUse : ContentBlock → Bool
  | toolUse _ => true
  | other => false

def getToolUse (response : ConverseOutput) : Except Thrown ToolUseBlock :=
  if response.stopReason ≠ some (js "tool_use") then
    .error invalidOcrResponseError
  else
    match response.content with
    | none => .error invalidOcrResponseError
    | some content =>
        let toolUseBlocks := content.filter ContentBlock.isToolUse
        if content.length ≠ 1 ∨ toolUseBlocks.length ≠ 1 then
          .error invalidOcrResponseError
        else
          match toolUseBlocks with
          | .toolUse (some toolUse) :: _ =>
              if toolUse.name ≠ some OCR_TOOL_NAME then
                .error invalidOcrResponseError
              else
                match toolUse.input with
                | .undefined => .error invalidOcrResponseError
                | _ => .ok toolUse
          | _ => .error invalidOcrResponseError

/-- The token usage that the source also returns is read by nothing. -/
def analyze (image : OcrImageInput) : Program OcrResult := do
  Proc.settled (validateImage image)
  let response ← request (.converse image)
  let toolUse ← Proc.settled (getToolUse response)
  match parseOcrToolInput toolUse.input with
  | .ok result => return result
  | .error _ => Proc.throwing invalidOcrResponseError

/-- `name` and `code`, as far as they are strings. -/
def getErrorCodes (error : Thrown) : List JsString :=
  let codes := error.name.toList ++ error.code.toList
  if 0 < codes.length then codes else [js "UNKNOWN_ERROR"]

def retryableErrorCodes : List JsString :=
  [js "ThrottlingException", js "ServiceUnavailableException",
    js "InternalServerException", js "ModelTimeoutException",
    js "ModelNotReadyException", js "ModelErrorException",
    js "ServiceQuotaExceededException", js "TimeoutError", js "ECONNRESET",
    js "ECONNREFUSED", js "ETIMEDOUT"]

inductive BedrockErrorDisposition where
  | retryable
  | nonRetryable
deriving DecidableEq, Repr

def classifyBedrockError (error : Thrown) : BedrockErrorDisposition :=
  if (getErrorCodes error).any retryableErrorCodes.contains then .retryable
  else .nonRetryable

end StatementAnalyzer
