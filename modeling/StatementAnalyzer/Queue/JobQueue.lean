/-
The service over the texts that the queue holds.  A job is what the adapter
makes of a message, a receipt handle stands for the message that it was issued
for, and nobody else sends a text that the adapter takes for a job.  The texts
that name a statement stay its messages.
-/
import StatementAnalyzer.Queue.SqsJobQueue
import StatementAnalyzer.Service.Protocol

namespace StatementAnalyzer

open Async

/-- A message that the queue has taken. -/
structure StoredMessage where
  body : String
  deleted : Bool

/-- The messages in the order of arrival, and for each receipt handle that was
issued the position of its message. -/
structure SqsQueue where
  messages : List StoredMessage
  handles : List (JsString × Nat)

def StoredMessage.names (id : Uuid) (stored : StoredMessage) : Bool :=
  namedStatement stored.body = some id

def StoredMessage.delete (stored : StoredMessage) : StoredMessage :=
  { stored with deleted := true }

namespace SqsQueue

def push (q : SqsQueue) (body : String) : SqsQueue :=
  { q with messages := q.messages ++ [⟨body, false⟩] }

def delete (q : SqsQueue) (position : Nat) : SqsQueue :=
  { q with messages := q.messages.modify position StoredMessage.delete }

/-- Which of the messages for its statement the message at this position is. -/
def index (q : SqsQueue) (id : Uuid) (position : Nat) : Nat :=
  (q.messages.take position).countP (StoredMessage.names id)

/-- What SQS may answer and leave behind, and whether the command has taken
effect.  A message may be received any number of times. -/
inductive Exec : (command : SqsCommand) → SqsQueue →
    Except Thrown command.Answer → Bool → SqsQueue → Prop
  | sent {q : SqsQueue} {body : String} :
      Exec (.sendMessage body) q (.ok ()) true (q.push body)
  | sendUnconfirmed {q : SqsQueue} {body : String} {error : Thrown} :
      Exec (.sendMessage body) q (.error error) true (q.push body)
  | sendFailed {q : SqsQueue} {body : String} {error : Thrown} :
      Exec (.sendMessage body) q (.error error) false q
  | received {q : SqsQueue} {position : Nat} {stored : StoredMessage}
      {message : SqsMessage} {handle : JsString}
      (hstored : q.messages[position]? = some stored)
      (hbody : message.body = some stored.body)
      (hhandle : message.receiptHandle = some handle)
      (hfresh : handle ∉ q.handles.map Prod.fst) :
      Exec .receiveMessage q (.ok [message]) true
        { q with handles := (handle, position) :: q.handles }
  | empty {q : SqsQueue} : Exec .receiveMessage q (.ok []) false q
  | receiveFailed {q : SqsQueue} {error : Thrown} :
      Exec .receiveMessage q (.error error) false q
  | deleted {q : SqsQueue} {handle : JsString} {position : Nat}
      (hissued : (handle, position) ∈ q.handles) :
      Exec (.deleteMessage handle) q (.ok ()) true (q.delete position)
  | deleteUnconfirmed {q : SqsQueue} {handle : JsString} {position : Nat}
      {error : Thrown} (hissued : (handle, position) ∈ q.handles) :
      Exec (.deleteMessage handle) q (.error error) true (q.delete position)
  | deleteFailed {q : SqsQueue} {handle : JsString} {error : Thrown} :
      Exec (.deleteMessage handle) q (.error error) false q

/-- What a method of the adapter comes to: it gives one command at most. -/
inductive Runs {α : Type} (p : SqsProgram α) (q : SqsQueue) :
    Except Thrown α → Bool → SqsQueue → Prop
  | silent {result : Except Thrown α} (h : p.Run [] result) :
      Runs p q result false q
  | command {command : SqsCommand} {answer : Except Thrown command.Answer}
      {result : Except Thrown α} {effective : Bool} {q' : SqsQueue}
      (h : p.Run [⟨command, answer⟩] result)
      (hexec : Exec command q answer effective q') :
      Runs p q result effective q'

/-- The handle was issued for this message. -/
def Issued (q : SqsQueue) (receiptHandle : ReceiptHandle)
    (handle : JsString) : Prop :=
  ∃ position stored, (handle, position) ∈ q.handles ∧
    q.messages[position]? = some stored ∧
    stored.names receiptHandle.statementId = true ∧
    q.index receiptHandle.statementId position = receiptHandle.index

/-- The adapter has made this job of a message that the queue answered with. -/
structure Receives (q : SqsQueue) (job : ReceivedAnalyzeJob) : Prop where
  received : ∃ message sqsJob position stored,
    (SqsJobQueue.receiveOne).Run [⟨.receiveMessage, .ok [message]⟩]
      (.ok (some sqsJob)) ∧
    q.messages[position]? = some stored ∧ message.body = some stored.body ∧
    (sqsJob.receiptHandle, position) ∈ q.handles ∧
    statementIdSchema sqsJob.statementId = some job.statementId ∧
    job.receiptHandle = ⟨job.statementId, q.index job.statementId position⟩

end SqsQueue

/-- The programs of the service, with the jobs that the adapter receives. -/
inductive WireServes : Program Outcome → World × SqsQueue → Prop
  | createStatement {w : World × SqsQueue} (presignedUrlExpiresSeconds : Nat)
      (http : CreateStatementHttpRequest) :
      WireServes (respond (createStatement presignedUrlExpiresSeconds http)) w
  | completeUpload {w : World × SqsQueue} (id : Option Uuid) :
      WireServes (respond (completeUpload id)) w
  | analyzeStatement {w : World × SqsQueue} (id : Option Uuid) :
      WireServes (respond (analyzeStatement id)) w
  | processJob {w : World × SqsQueue} (leaseSeconds : Option ℚ)
      (job : ReceivedAnalyzeJob) (hreceives : w.2.Receives job) :
      WireServes (do processJob leaseSeconds job; return .processed) w
  | reading {w : World × SqsQueue} (p : Program Unit)
      (hreads : p.Calls Call.Silent) :
      WireServes (do p; return .processed) w

def Call.usesQueue : Call → Bool
  | request (.sendMessage _) | request (.deleteMessage _) => true
  | _ => false

/-- The calls, the two of the queue through the adapter. -/
inductive WireExec (t : Tid) : (op : Call) → World × SqsQueue →
    Except Thrown op.Answer → World × SqsQueue → Prop
  | sendMessage {id : Uuid} {w : World} {q q' : SqsQueue}
      {answer : Except Thrown Unit} {delivered : Bool} {s : Statement}
      (hruns : q.Runs (SqsJobQueue.sendAnalyzeJob id.text) answer delivered q')
      (hs : Advance id (.sent t answer.isOk delivered) (w id) s) :
      WireExec t (.request (.sendMessage id)) (w, q) answer (w.set id s, q')
  | deleteMessage {receiptHandle : ReceiptHandle} {handle : JsString}
      {w : World} {q q' : SqsQueue} {answer : Except Thrown Unit}
      {effective : Bool} {s : Statement}
      (hissued : q.Issued receiptHandle handle)
      (hruns : q.Runs (SqsJobQueue.deleteMessage handle) answer effective q')
      (hs : Advance receiptHandle.statementId
        (.deleting t receiptHandle.index effective)
        (w receiptHandle.statementId) s) :
      WireExec t (.request (.deleteMessage receiptHandle)) (w, q) answer
        (w.set receiptHandle.statementId s, q')
  | other {op : Call} {w w' : World} {q : SqsQueue}
      {answer : Except Thrown op.Answer} (hop : op.usesQueue = false)
      (h : op.exec t w answer w') : WireExec t op (w, q) answer (w', q)

/-- What happens by itself.  A job arrives late only if its send had reported an
error, and a text that is no job may come from anywhere. -/
inductive WireDrifts : World × SqsQueue → World × SqsQueue → Prop
  | statement {w : World} {q : SqsQueue} {id : Uuid} {e : Event} {s : Statement}
      (hthread : e.thread = none) (hlate : ∀ t, e ≠ .deliveredLate t)
      (hs : Advance id e (w id) s) : WireDrifts (w, q) (w.set id s, q)
  | deliveredLate {w : World} {q : SqsQueue} {id : Uuid} {t : Tid}
      {body : String} {error : Thrown} {s : Statement}
      (hsends : (SqsJobQueue.sendAnalyzeJob id.text).Run
        [⟨.sendMessage body, .error error⟩] (.error error))
      (hs : Advance id (.deliveredLate t) (w id) s) :
      WireDrifts (w, q) (w.set id s, q.push body)
  | foreign {w : World} {q : SqsQueue} {body : String}
      (hforeign : namedStatement body = none) : WireDrifts (w, q) (w, q.push body)
  | received {w : World} {q q' : SqsQueue} {messages : List SqsMessage}
      {effective : Bool}
      (h : SqsQueue.Exec .receiveMessage q (.ok messages) effective q') :
      WireDrifts (w, q) (w, q')

/-- For every statement the texts that name it are its messages, in their order.
No handle was issued twice, and a text that the adapter takes for a job was sent
by it. -/
structure SqsQueue.Carries (q : SqsQueue) (w : World) : Prop where
  messages : ∀ id, (q.messages.filter (StoredMessage.names id)).map
    StoredMessage.deleted = (w id).messages.map Message.deleted
  handles : (q.handles.map Prod.fst).Nodup
  bodies : ∀ stored ∈ q.messages, namedStatement stored.body = none ∨
    ∃ id : Uuid, id.isRfc = true ∧ stored.body = jobBody id

section Lists

variable {α β : Type} {P : α → Bool} {f : α → α} {g : α → β}

/-- The chosen items, with one of them changed. -/
theorem filter_modify (hf : ∀ a, P (f a) = P a) {items : List α}
    {position : Nat} {item : α} (h : items[position]? = some item) :
    (items.modify position f).filter P =
      if P item then
        (items.filter P).modify ((items.take position).countP P) f
      else items.filter P := by
  induction items generalizing position with
  | nil => cases h
  | cons first rest ih =>
      cases position with
      | zero =>
          cases h
          by_cases hitem : P item = true
          · simp [hitem, hf]
          · simp [hitem, hf]
      | succ position =>
          rw [List.getElem?_cons_succ] at h
          have hrest := ih h
          by_cases hfirst : P first = true
          · by_cases hitem : P item = true
            · rw [if_pos hitem] at hrest ⊢
              simp [hfirst, hrest]
            · rw [if_neg hitem] at hrest ⊢
              simp [hfirst, hrest]
          · by_cases hitem : P item = true
            · rw [if_pos hitem] at hrest ⊢
              simp [hfirst, hrest]
            · rw [if_neg hitem] at hrest ⊢
              simp [hfirst, hrest]

theorem map_modify {value : β} (hf : ∀ a, g (f a) = value) (items : List α)
    (position : Nat) : (items.modify position f).map g =
      (items.map g).modify position fun _ => value := by
  induction items generalizing position with
  | nil => simp
  | cons first rest ih =>
      cases position with
      | zero => simp [hf]
      | succ position => simp [ih]

theorem exists_of_mem_modify {items : List StoredMessage} {position : Nat}
    {stored : StoredMessage}
    (h : stored ∈ items.modify position StoredMessage.delete) :
    ∃ old ∈ items, stored.body = old.body := by
  obtain ⟨i, hi⟩ := List.mem_iff_getElem?.mp h
  rw [List.getElem?_modify] at hi
  obtain ⟨old, hold, rfl⟩ := Option.map_eq_some_iff.mp hi
  refine ⟨old, List.mem_of_getElem? hold, ?_⟩
  split <;> rfl

end Lists

section Adapter

variable {q q' : SqsQueue} {w : World}

theorem Advance.keeps_messages {id : Uuid} {e : Event} {s s' : Statement}
    (hs : Advance id e s s')
    (hsent : ∀ t reported delivered, e ≠ .sent t reported delivered)
    (hlate : ∀ t, e ≠ .deliveredLate t)
    (hdeleting : ∀ t index effective, e ≠ .deleting t index effective) :
    s'.messages = s.messages := by
  cases hs with
  | sent _ => exact absurd rfl (hsent _ _ _)
  | deliveredLate _ => exact absurd rfl (hlate _)
  | deleting => exact absurd rfl (hdeleting _ _ _)
  | created _ _ _ _ | updated _ _ _ | refused _ | errored | completed _ _
  | removed _ => rfl

/-- A text that is no job is no message of any statement. -/
theorem SqsQueue.Carries.push_foreign (h : q.Carries w) {body : String}
    (hforeign : namedStatement body = none) : (q.push body).Carries w := by
  refine ⟨fun id => ?_, h.handles, ?_⟩
  · rw [← h.messages id]
    simp [SqsQueue.push, StoredMessage.names, hforeign]
  · exact List.forall_mem_append.mpr
      ⟨h.bodies, List.forall_mem_singleton.mpr (.inl hforeign)⟩

/-- The text of a job is one more message of its statement. -/
theorem SqsQueue.Carries.push_job (h : q.Carries w) {id : Uuid}
    (hrfc : id.isRfc = true) {s : Statement} {t : Tid}
    (hmessages : s.messages = (w id).messages ++ [⟨t, false⟩]) :
    (q.push (jobBody id)).Carries (w.set id s) := by
  refine ⟨fun other => ?_, h.handles, ?_⟩
  · have hold := h.messages other
    by_cases hother : other = id
    · subst hother
      rw [World.set_self, hmessages, List.map_append, ← hold]
      simp [SqsQueue.push, StoredMessage.names, namedStatement_jobBody hrfc]
    · rw [World.set_ne w hother, ← hold]
      simp [SqsQueue.push, StoredMessage.names, namedStatement_jobBody hrfc,
        Ne.symm hother]
  · exact List.forall_mem_append.mpr
      ⟨h.bodies, List.forall_mem_singleton.mpr (.inr ⟨id, hrfc, rfl⟩)⟩

/-- Nothing of the queue changes with an event that keeps the messages. -/
theorem SqsQueue.Carries.set (h : q.Carries w) {id : Uuid} {s : Statement}
    (hmessages : s.messages = (w id).messages) : q.Carries (w.set id s) := by
  refine ⟨fun other => ?_, h.handles, h.bodies⟩
  rw [h.messages other]
  by_cases hother : other = id
  · subst hother
    rw [World.set_self, hmessages]
  · rw [World.set_ne w hother]

/-- Deleting by a handle deletes the message that it was issued for. -/
theorem SqsQueue.Carries.delete (h : q.Carries w)
    {receiptHandle : ReceiptHandle} {handle : JsString} {position : Nat}
    (hissued : q.Issued receiptHandle handle)
    (hposition : (handle, position) ∈ q.handles) {s : Statement}
    (hmessages : s.messages =
      markDeleted (w receiptHandle.statementId).messages receiptHandle.index) :
    (q.delete position).Carries (w.set receiptHandle.statementId s) := by
  obtain ⟨position', stored, hmem, hstored, hnames, hindex⟩ := hissued
  have hsame : position' = position :=
    List.inj_on_of_nodup_map h.handles hmem hposition rfl |> congrArg Prod.snd
  subst hsame
  refine ⟨fun other => ?_, h.handles, fun deleted hdeleted => ?_⟩
  swap
  · obtain ⟨old, hold, hbody⟩ := exists_of_mem_modify hdeleted
    rw [hbody]
    exact h.bodies old hold
  have hold := h.messages other
  have hfilter := filter_modify (P := StoredMessage.names other)
    (f := StoredMessage.delete) (fun _ => rfl) hstored
  by_cases hother : other = receiptHandle.statementId
  · subst hother
    rw [if_pos hnames] at hfilter
    have hstored := map_modify (g := StoredMessage.deleted)
      (f := StoredMessage.delete) (fun _ => rfl)
    have hmarked := map_modify (g := Message.deleted)
      (f := fun message => { message with deleted := true }) (fun _ => rfl)
    rw [World.set_self, hmessages, SqsQueue.delete, hfilter, hstored, hold,
      markDeleted, hmarked, ← hindex, SqsQueue.index]
  · have hnot : ¬stored.names other = true := by
      intro hnames'
      rw [StoredMessage.names, decide_eq_true_eq] at hnames hnames'
      rw [hnames] at hnames'
      exact hother (Option.some.inj hnames').symm
    rw [if_neg hnot] at hfilter
    rw [World.set_ne w hother, SqsQueue.delete, hfilter, hold]

/-- What is sent is the text of the job, and only for an id that the schema
allows. -/
theorem SqsQueue.Runs.sent {id : Uuid} {answer : Except Thrown Unit}
    {delivered : Bool}
    (h : q.Runs (SqsJobQueue.sendAnalyzeJob id.text) answer delivered q') :
    (delivered = true ∧ id.isRfc = true ∧ q' = q.push (jobBody id)) ∨
      (delivered = false ∧ answer.isOk = false ∧ q' = q) := by
  rw [sendAnalyzeJob_eq] at h
  generalize jobBody id = body at h ⊢
  cases h with
  | silent h =>
      by_cases hrfc : id.isRfc = true
      · rw [if_pos hrfc] at h
        cases Proc.run_call_iff.mp h
      · rw [if_neg hrfc] at h
        obtain ⟨-, rfl⟩ := Proc.run_settled_iff.mp h
        exact .inr ⟨rfl, rfl, rfl⟩
  | command h hexec =>
      by_cases hrfc : id.isRfc = true
      · rw [if_pos hrfc] at h
        cases Proc.run_call_iff.mp h
        cases hexec with
        | sent | sendUnconfirmed => exact .inl ⟨rfl, hrfc, rfl⟩
        | sendFailed => exact .inr ⟨rfl, rfl, rfl⟩
      · rw [if_neg hrfc] at h
        cases (Proc.run_settled_iff.mp h).1

theorem SqsQueue.Runs.deleted {handle : JsString} {answer : Except Thrown Unit}
    {effective : Bool}
    (h : q.Runs (SqsJobQueue.deleteMessage handle) answer effective q') :
    (effective = true ∧ ∃ position, (handle, position) ∈ q.handles ∧
      q' = q.delete position) ∨
      (effective = false ∧ answer.isOk = false ∧ q' = q) := by
  cases h with
  | silent h => cases Proc.run_call_iff.mp h
  | command h hexec =>
      cases Proc.run_call_iff.mp h
      cases hexec with
      | deleted hissued | deleteUnconfirmed hissued =>
          exact .inl ⟨rfl, _, hissued, rfl⟩
      | deleteFailed => exact .inr ⟨rfl, rfl, rfl⟩

/-- What `receiveOne` comes to once the queue has answered with a message. -/
theorem run_receiveOne_iff {message : SqsMessage}
    {result : Except Thrown (Option SqsAnalyzeJob)} :
    SqsJobQueue.receiveOne.Run [⟨.receiveMessage, .ok [message]⟩] result ↔
      result = (readMessage message).map some := by
  have hawait : SqsJobQueue.receiveOne.Run [⟨.receiveMessage, .ok [message]⟩]
      result ↔ (Proc.settled (readMessage message) >>= fun job =>
        pure (some job) : SqsProgram (Option SqsAnalyzeJob)).Run [] result := by
    constructor
    · intro h
      cases h with
      | await h => exact h
    · intro h
      have hcall : (Proc.call SqsCommand.receiveMessage : SqsProgram _).Run
          [⟨.receiveMessage, .ok [message]⟩] (.ok [message]) := .of_call _ _
      exact hcall.bind_ok h
  rw [hawait]
  cases readMessage message with
  | error error => exact Proc.run_settled_iff.trans (and_iff_right rfl)
  | ok job => exact Proc.run_settled_iff.trans (and_iff_right rfl)

end Adapter

end StatementAnalyzer
