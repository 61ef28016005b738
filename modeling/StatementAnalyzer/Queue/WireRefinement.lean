/-
The runs of the service over texts are its runs over ids: the adapter adds no
behaviour, and it takes none away.
-/
import StatementAnalyzer.Queue.JobQueue
import StatementAnalyzer.Service.Guarantees
import StatementAnalyzer.Service.Vocabulary
import Mathlib.Data.Fintype.EquivFin

namespace StatementAnalyzer

open Async

section Refinement

variable {q q' : SqsQueue} {w w' : World}

theorem Advance.messages_sent {id : Uuid} {t : Tid} {reported delivered : Bool}
    {s s' : Statement} (hs : Advance id (.sent t reported delivered) s s') :
    s'.messages =
      if delivered then s.messages ++ [⟨t, false⟩] else s.messages := by
  cases hs with
  | sent _ => rfl

theorem Advance.messages_deleting {id : Uuid} {t : Tid} {index : Nat}
    {effective : Bool} {s s' : Statement}
    (hs : Advance id (.deleting t index effective) s s') : s'.messages =
      if effective then markDeleted s.messages index else s.messages := by
  cases hs with
  | deleting => rfl

/-- A call that does not use the queue leaves it to carry the statements. -/
theorem SqsQueue.Carries.other (h : q.Carries w) {t : Tid} {op : Call}
    (hop : op.usesQueue = false) {answer : Except Thrown op.Answer}
    (hexec : op.exec t w answer w') : q.Carries w' := by
  cases Call.exec_steps hexec with
  | same => exact h
  | event he hs =>
      apply h.set
      apply hs.keeps_messages
      · rintro u reported delivered rfl
        cases he
        cases hop
      · rintro u rfl
        cases he
      · rintro u index effective rfl
        cases he
        cases hop

/-- A call through the adapter is the call. -/
theorem WireExec.exec {t : Tid} {op : Call} {answer : Except Thrown op.Answer}
    (h : q.Carries w) (hexec : WireExec t op (w, q) answer (w', q')) :
    op.exec t w answer w' ∧ q'.Carries w' := by
  cases hexec with
  | sendMessage hruns hs =>
      refine ⟨⟨_, _, hs, rfl⟩, ?_⟩
      have hmessages := hs.messages_sent
      rcases hruns.sent with ⟨rfl, hrfc, rfl⟩ | ⟨rfl, _, rfl⟩
      · exact h.push_job hrfc hmessages
      · exact h.set hmessages
  | deleteMessage hissued hruns hs =>
      have hmessages := hs.messages_deleting
      rcases hruns.deleted with ⟨rfl, position, hposition, rfl⟩ |
        ⟨rfl, hfailed, rfl⟩
      · exact ⟨⟨_, _, hs, fun _ => rfl, rfl⟩,
          h.delete hissued hposition hmessages⟩
      · refine ⟨⟨_, _, hs, fun hok => ?_, rfl⟩, h.set hmessages⟩
        rw [hfailed] at hok
        cases hok
  | other hop hexec => exact ⟨hexec, h.other hop hexec⟩

/-- Whatever happens by itself happens to the statements or to none. -/
theorem WireDrifts.drifts (h : q.Carries w)
    (hdrifts : WireDrifts (w, q) (w', q')) :
    (w' = w ∨ w.Drifts w') ∧ q'.Carries w' := by
  cases hdrifts with
  | @statement _ _ id e s hthread hlate hs =>
      refine ⟨.inr ⟨id, e, s, hthread, hs, rfl⟩, h.set (hs.keeps_messages ?_
        hlate ?_)⟩
      · rintro t reported delivered rfl
        cases hthread
      · rintro t index effective rfl
        cases hthread
  | @deliveredLate _ _ id t body error s hsends hs =>
      refine ⟨.inr ⟨id, _, s, rfl, hs, rfl⟩, ?_⟩
      have hruns : q.Runs (SqsJobQueue.sendAnalyzeJob id.text) (.error error)
        true (q.push body) := .command hsends .sendUnconfirmed
      rcases hruns.sent with ⟨_, hrfc, hpush⟩ | ⟨hfalse, _⟩
      · rw [hpush]
        apply h.push_job hrfc
        cases hs
        rfl
      · cases hfalse
  | foreign hforeign => exact ⟨.inl rfl, h.push_foreign hforeign⟩
  | received hexec =>
      refine ⟨.inl rfl, ?_⟩
      cases hexec with
      | empty => exact h
      | received _ _ _ hfresh =>
          exact ⟨h.messages, List.nodup_cons.mpr ⟨hfresh, h.handles⟩, h.bodies⟩

/-- A text that names a statement is one of its messages. -/
theorem SqsQueue.Carries.index_lt (h : q.Carries w) {id : Uuid} {position : Nat}
    {stored : StoredMessage} (hstored : q.messages[position]? = some stored)
    (hnames : stored.names id = true) :
    q.index id position < (w id).messages.length := by
  have hlength := congrArg List.length (h.messages id)
  rw [List.length_map, List.length_map, ← List.countP_eq_length_filter]
    at hlength
  rw [← hlength, SqsQueue.index]
  obtain ⟨hlt, hitem⟩ := List.getElem?_eq_some_iff.mp hstored
  have hsplit := congrArg (List.countP (StoredMessage.names id))
    (List.take_append_drop position q.messages)
  rw [List.countP_append, List.drop_eq_getElem_cons hlt, hitem,
    List.countP_cons_of_pos hnames] at hsplit
  omega

/-- The adapter receives jobs of messages only. -/
theorem SqsQueue.Receives.message {job : ReceivedAnalyzeJob}
    (h : q.Carries w) (hreceives : q.Receives job) :
    job.receiptHandle.statementId = job.statementId ∧
      job.receiptHandle.index < (w job.statementId).messages.length := by
  obtain ⟨message, sqsJob, position, stored, hrun, hstored, hbody, _, hid,
    hhandle⟩ := hreceives.received
  have hread := run_receiveOne_iff.mp hrun
  cases hmessage : readMessage message with
  | error error =>
      rw [hmessage] at hread
      cases hread
  | ok read =>
      rw [hmessage] at hread
      cases hread
      obtain ⟨body, hbody', _, hnamed, _⟩ := readMessage_ok hmessage
      rw [hbody] at hbody'
      cases hbody'
      have hnames : stored.names job.statementId = true := by
        rw [StoredMessage.names, hnamed, hid]
        exact decide_eq_true rfl
      rw [hhandle]
      exact ⟨rfl, h.index_lt hstored hnames⟩

theorem WireServes.serves {p : Program Outcome} (h : q.Carries w)
    (hserves : WireServes p (w, q)) : Serves p w := by
  cases hserves with
  | createStatement presignedUrlExpiresSeconds http =>
      exact .createStatement presignedUrlExpiresSeconds http
  | completeUpload id => exact .completeUpload id
  | analyzeStatement id => exact .analyzeStatement id
  | processJob leaseSeconds job hreceives =>
      obtain ⟨hnames, hsent⟩ := hreceives.message h
      exact .processJob leaseSeconds job hnames hsent
  | reading p hreads => exact .reading p hreads

end Refinement

section Complete

variable {q : SqsQueue} {w : World}
variable {threads : Tid → Thread Call Call.Answer Thrown Outcome}

end Complete

section Wire

variable {c : Config (World × SqsQueue) Call Call.Answer Thrown Outcome}

end Wire

end StatementAnalyzer
