/-
The job queue over SQS: a job is sent as the JSON text of its message, and a
message that is received is a job only if its body is such a text.
-/
import StatementAnalyzer.Api.StatementId
import StatementAnalyzer.Async.Traces
import StatementAnalyzer.Js.JsonParse
import StatementAnalyzer.Js.Schema

namespace StatementAnalyzer

open Async

structure AnalyzeJobMessage where
  statementId : JsString
deriving DecidableEq, Repr

def analyzeJobMessageSchema (value : JsValue) : Option AnalyzeJobMessage := do
  let properties ← value.strictObject? [js "statementId"]
  let text ← (JsValue.property properties (js "statementId")).string?
  let _ ← statementIdSchema text
  return ⟨text⟩

def AnalyzeJobMessage.json (message : AnalyzeJobMessage) : JsValue :=
  .object [(js "statementId", .string message.statementId)]

/-- A message as the SDK returns it, without the number of its deliveries, which
is only logged. -/
structure SqsMessage where
  messageId : Option JsString
  receiptHandle : Option JsString
  body : Option String
deriving DecidableEq, Repr

/-- A `ReceivedAnalyzeJob` of the adapter. -/
structure SqsAnalyzeJob extends AnalyzeJobMessage where
  messageId : JsString
  receiptHandle : JsString
deriving DecidableEq, Repr

def zodError : Thrown := ⟨.other, some (js "ZodError"), none⟩

def invalidAnalyzeJobMessageError : Thrown :=
  ⟨.other, some (js "InvalidAnalyzeJobMessageError"), none⟩

/-- The commands of the SQS client. -/
inductive SqsCommand where
  | sendMessage (body : String)
  | receiveMessage
  | deleteMessage (receiptHandle : JsString)

abbrev SqsCommand.Answer : SqsCommand → Type
  | sendMessage _ => Unit
  | receiveMessage => List SqsMessage
  | deleteMessage _ => Unit

abbrev SqsProgram : Type → Type := Proc SqsCommand SqsCommand.Answer Thrown

/-- The job of a message.  A field that is missing or empty is falsy. -/
def readMessage (message : SqsMessage) : Except Thrown SqsAnalyzeJob :=
  match message.messageId, message.receiptHandle, message.body with
  | some messageId, some receiptHandle, some body =>
      if messageId = [] ∨ receiptHandle = [] ∨ body = "" then
        .error invalidAnalyzeJobMessageError
      else
        match jsonParse body with
        | none => .error invalidAnalyzeJobMessageError
        | some parsedBody =>
            match analyzeJobMessageSchema parsedBody with
            | none => .error invalidAnalyzeJobMessageError
            | some message => .ok ⟨message, messageId, receiptHandle⟩
  | _, _, _ => .error invalidAnalyzeJobMessageError

namespace SqsJobQueue

def sendAnalyzeJob (statementId : JsString) : SqsProgram Unit :=
  match analyzeJobMessageSchema (AnalyzeJobMessage.json ⟨statementId⟩) with
  | none => Proc.throwing zodError
  | some message =>
      Proc.call (SqsCommand.sendMessage (String.ofList (jsonText message.json)))

def receiveOne : SqsProgram (Option SqsAnalyzeJob) := do
  let messages ← Proc.call SqsCommand.receiveMessage
  match messages.head? with
  | none => return none
  | some message => do
      let job ← Proc.settled (readMessage message)
      return some job

def deleteMessage (receiptHandle : JsString) : SqsProgram Unit :=
  Proc.call (SqsCommand.deleteMessage receiptHandle)

end SqsJobQueue

/-- The statement that a body names. -/
def namedStatement (body : String) : Option Uuid := do
  let parsedBody ← jsonParse body
  let message ← analyzeJobMessageSchema parsedBody
  statementIdSchema message.statementId

/-- The body of the job of a statement. -/
def jobBody (id : Uuid) : String :=
  String.ofList (jsonText (AnalyzeJobMessage.json ⟨id.text⟩))

example : jobBody ⟨0⟩ =
    "\x7b\"statementId\":\"00000000-0000-0000-0000-000000000000\"\x7d" := by
  decide +kernel

section Adapter

variable {id : Uuid}

theorem analyzeJobMessageSchema_json (text : JsString) :
    analyzeJobMessageSchema (AnalyzeJobMessage.json ⟨text⟩) =
      (statementIdSchema text).map fun _ => ⟨text⟩ := by
  have hkeys : (AnalyzeJobMessage.json ⟨text⟩).strictObject?
      [js "statementId"] = some [(js "statementId", .string text)] := by
    simp [AnalyzeJobMessage.json, JsValue.strictObject?]
  have hfield : JsValue.property [(js "statementId", .string text)]
      (js "statementId") = .string text := by
    simp [JsValue.property]
  rw [analyzeJobMessageSchema, hkeys]
  simp only [Option.bind_eq_bind, Option.bind_some, hfield, JsValue.string?]
  cases statementIdSchema text <;> rfl

/-- A job is read back from its text. -/
theorem jsonParse_jobBody (id : Uuid) :
    jsonParse (jobBody id) = some (AnalyzeJobMessage.json ⟨id.text⟩) :=
  JsValue.jsonParse_jsonText rfl (by simp [AnalyzeJobMessage.json,
    JsValue.hasDistinctKeys, JsValue.allDistinctProperties])

theorem namedStatement_jobBody (h : id.isRfc = true) :
    namedStatement (jobBody id) = some id := by
  have hschema : statementIdSchema id.text = some id := by
    rw [statementIdSchema_text, if_pos h]
  simp [namedStatement, jsonParse_jobBody, analyzeJobMessageSchema_json, hschema]

/-- An id that the schema refuses is never sent, and the message of another one
is the text of the job. -/
theorem sendAnalyzeJob_eq (id : Uuid) : SqsJobQueue.sendAnalyzeJob id.text =
    if id.isRfc then Proc.call (SqsCommand.sendMessage (jobBody id))
    else Proc.throwing zodError := by
  rw [SqsJobQueue.sendAnalyzeJob, analyzeJobMessageSchema_json,
    statementIdSchema_text]
  by_cases h : id.isRfc = true
  · rw [if_pos h, if_pos h]
    rfl
  · rw [if_neg h, if_neg h]
    rfl

/-- The job that the adapter makes of a message names the statement that the
body of the message names. -/
theorem readMessage_ok {message : SqsMessage} {job : SqsAnalyzeJob}
    (h : readMessage message = .ok job) :
    ∃ body, message.body = some body ∧
      message.receiptHandle = some job.receiptHandle ∧
      namedStatement body = statementIdSchema job.statementId ∧
      (statementIdSchema job.statementId).isSome = true := by
  rw [readMessage] at h
  split at h
  · rename_i messageId receiptHandle body _ hhandle hbody
    split at h
    · cases h
    · split at h
      · cases h
      · rename_i parsedBody hparsed
        split at h
        · cases h
        · rename_i parsed hschema
          cases h
          refine ⟨body, hbody, hhandle, ?_, ?_⟩
          · simp [namedStatement, hparsed, hschema]
          · simp only [analyzeJobMessageSchema, Option.bind_eq_bind,
              Option.bind_eq_some_iff, Option.pure_def,
              Option.some.injEq] at hschema
            obtain ⟨_, _, text, _, id, hid, rfl⟩ := hschema
            simp [hid]
  · cases h

end Adapter

end StatementAnalyzer
