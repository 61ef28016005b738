/-
The worker follows the protocol.  It leaves no marks, claims a statement only on
a message for it, and deletes the message only once the statement is settled.
-/
import StatementAnalyzer.Service.Endpoints
import StatementAnalyzer.Worker.AcceptedResult

namespace StatementAnalyzer

open Async

theorem Genuine.settled_of_row {id : Uuid} {s : Statement}
    (h : Genuine id s) {row : StatementRecord} (hrow : s.row = some row)
    (hterminal : row.status.isTerminal = true) : s.Settled := by
  refine ⟨h.fenced.not_neverCreated hrow, fun row' hrow' => ?_⟩
  cases hrow.symm.trans hrow'
  exact hterminal

section Jobs

variable {t : Tid} {id : Uuid} {w : World}

/-- The job is settled with, and acknowledged only if the statement is. -/
structure Disposed (t : Tid) (id : Uuid)
    (result : Except Thrown AnalyzeJobDisposition) (w : World) : Prop where
  unmarked : Unmarked t w
  settled : result = .ok .ack → (w id).Settled

theorem Unmarked.dispose {result : Except Thrown AnalyzeJobDisposition}
    (h : Unmarked t w) (hsettled : result = .ok .ack → (w id).Settled) :
    Follows t (.settled result) (Disposed t id) w := by
  refine Protocol.wp.settled fun w' hrely _ _ => ⟨?_, fun hack => ?_⟩
  · exact Unmarked.stable t w w' hrely h
  · exact settled_stable t id w w' hrely (hsettled hack)

theorem Unmarked.retry (h : Unmarked t w) :
    Follows t (.settled (.ok .retry)) (Disposed t id) w :=
  h.dispose (by rintro ⟨⟩)

theorem Unmarked.throw {error : Thrown} (h : Unmarked t w) :
    Follows t (Proc.throwing error) (Disposed t id) w :=
  h.dispose (by rintro ⟨⟩)

theorem follows_resolveUnclaimedJob (h : Unmarked t w)
    (hreceived : Received id w) :
    Follows t (resolveUnclaimedJob id) (Disposed t id) w := by
  rw [resolveUnclaimedJob, Proc.bind_eq]
  refine follows_findById ((Unmarked.stable t).and (Received.stable t id))
    ⟨h, hreceived⟩ (fun w' hw' hknown hinv => ?_)
    fun w' error hw' => hw'.1.throw
  cases hrow : (w' id).row with
  | none =>
      refine hw'.1.dispose fun _ => ⟨(hinv id).created (hknown id) hw'.2, ?_⟩
      intro row hrow'
      rw [hrow] at hrow'
      cases hrow'
  | some statement =>
      rw [Proc.onValue_ok]
      dsimp only
      split
      · rename_i hterminal
        exact hw'.1.dispose fun _ =>
          (hknown id).settled_of_row hrow hterminal
      · exact hw'.1.retry

theorem Advance.markFailed_terminal {now : Time} {token : Uuid}
    {failureCode : StatementFailureCode} {failureMessage : JsString}
    {late : Bool} {s s' : Statement} {row : StatementRecord}
    (hs : Advance id
      (.updated t now (.markFailed token failureCode failureMessage) late) s s')
    (hrow : s'.row = some row) : row.status.isTerminal = true := by
  cases hs with
  | updated _ applies _ =>
      cases hrow
      cases Update.apply_eq_some_iff.mp applies
      rfl

theorem follows_failJob {claim : ProcessingClaim}
    {stage : AnalyzeJobErrorStage} {error : Thrown}
    (hclaim : claim.statementId = id) (h : Unmarked t w) :
    Follows t (failJob claim stage error) (Disposed t id) w := by
  subst hclaim
  rw [failJob]
  split
  · exact h.retry
  rename_i failureCode failureMessage _
  rw [StatementRepository.markFailed, Proc.bind_eq, Proc.bind_eq,
    Proc.andThen_assoc]
  refine follows_update (Unmarked.stable t) h ?_ ?_ ?_ ?_
  · intro w' _ e he
    cases he <;> exact Statement.allows_unmarked rfl rfl rfl rfl
  · intro w' now row s hw' hgenuine hs hrow
    refine (hw'.set hs (ite_self none)).dispose fun _ => ?_
    rw [World.set_self]
    exact hgenuine.settled_of_row hrow (hs.markFailed_terminal hrow)
  · intro w' now s hw' hs
    exact (hw'.set hs (ite_self none)).retry
  · intro w' error s hw' hs
    exact (hw'.set hs (ite_self none)).throw

/-- The analysis changes no statement, and its result numbers its lines without
repetition. -/
theorem follows_analyze {β : Type} {Q : Except Thrown β → World → Prop}
    {image : OcrImageInput} {next : Except Thrown OcrResult → Program β}
    (h : Unmarked t w)
    (hnext : ∀ result w', Unmarked t w' →
      (∀ analysis, result = .ok analysis →
        ((toCreateTransactionInputs analysis).map
          CreateTransactionInput.lineNumber).Nodup) →
      Follows t (next result) Q w') :
    Follows t ((analyze image).andThen next) Q w := by
  have hthrow : ∀ error w', Unmarked t w' → Follows t (next (.error error)) Q w' :=
    fun error w' hw' => hnext _ w' hw' (by rintro _ ⟨⟩)
  rw [analyze, Proc.bind_eq]
  cases validateImage image with
  | error error => exact hthrow error w h
  | ok _ =>
      rw [Proc.settled_andThen, Proc.onValue_ok, Proc.bind_eq,
        Proc.andThen_assoc]
      refine follows_silent trivial (Unmarked.stable t) h
        fun w' answer hw' _ _ _ => ?_
      cases answer with
      | error error => exact hthrow error w' hw'
      | ok response =>
          rw [Proc.onValue_ok, Proc.bind_eq]
          cases getToolUse response with
          | error error => exact hthrow error w' hw'
          | ok toolUse =>
              rw [Proc.settled_andThen, Proc.onValue_ok]
              cases hparse : parseOcrToolInput toolUse.input with
              | error error => exact hthrow _ w' hw'
              | ok result =>
                  refine hnext (.ok result) w' hw' ?_
                  rintro _ ⟨⟩
                  exact parseOcrToolInput_nodup hparse

theorem Advance.completed_terminal {now : Time} {token : Uuid}
    {transactions : List CreateTransactionInput} {s s' : Statement}
    (hs : Advance id (.completed t now token transactions) s s') :
    ∃ row, s'.row = some row ∧ row.status.isTerminal = true := by
  cases hs with
  | completed _ completes =>
      obtain ⟨_, rfl⟩ := StatementRecord.complete_eq_some_iff.mp completes
      exact ⟨_, rfl, rfl⟩

/-- The last stage: the save, and what its error is taken for. -/
theorem follows_save {claim : ProcessingClaim}
    {transactions : List CreateTransactionInput}
    (hclaim : claim.statementId = id) (h : Unmarked t w)
    (hnodup : (transactions.map CreateTransactionInput.lineNumber).Nodup) :
    Follows t ((StatementRepository.saveTransactionsAndComplete
      claim.statementId claim.processingToken transactions).andThen fun
        | .error error => failJob claim .database error
        | .ok _ => pure .ack) (Disposed t id) w := by
  subst hclaim
  rw [StatementRepository.saveTransactionsAndComplete]
  refine follows_call (Unmarked.stable t) h ?_
  intro w' answer w'' hw' _ hinv hexec hknown'
  have hallows : ∀ now, (w' claim.statementId).Allows
      (.completed t now claim.processingToken transactions) := by
    intro now
    refine ⟨fun u mark hu => ?_, by rintro ⟨⟩, by rintro ⟨⟩, ?_⟩
    · cases Event.markBy?_eq_some_iff.mp hu
    · rintro _ ⟨⟩
      exact hnodup
  cases hexec with
  | committed hs =>
      refine ⟨World.orderly_set hinv hs (hallows _),
        (hw'.set hs (ite_self none)).dispose fun _ => ?_⟩
      obtain ⟨row, hrow, hterminal⟩ := hs.completed_terminal
      have hgenuine := hknown' claim.statementId
      rw [World.set_self] at hgenuine ⊢
      exact hgenuine.settled_of_row hrow hterminal
  | rolledBack => exact ⟨hinv, follows_failJob rfl hw'⟩
  | unconfirmed hs =>
      exact ⟨World.orderly_set hinv hs (hallows _),
        follows_failJob rfl (hw'.set hs (ite_self none))⟩

theorem follows_processClaim {claim : ProcessingClaim}
    (hclaim : claim.statementId = id) (h : Unmarked t w) :
    Follows t (processClaim claim) (Disposed t id) w := by
  rw [processClaim, Proc.attempt_bind]
  refine follows_silent trivial (Unmarked.stable t) h
    fun w' answer hw' _ _ _ => ?_
  cases answer with
  | error error => exact follows_failJob hclaim hw'
  | ok object =>
      dsimp only
      split
      · exact follows_failJob hclaim hw'
      rw [Proc.attempt_bind]
      refine follows_analyze hw' fun result w₁ hw₁ hnodup => ?_
      cases result with
      | error error => exact follows_failJob hclaim hw₁
      | ok analysis =>
          dsimp only
          rw [Proc.attempt_bind]
          exact follows_save hclaim hw₁ (hnodup analysis rfl)

theorem follows_createAnalyzeJobHandler {leaseSeconds : Option ℚ}
    {job : ReceivedAnalyzeJob} (h : Unmarked t w)
    (hreceived : Received job.statementId w) :
    Follows t (createAnalyzeJobHandler leaseSeconds job)
      (Disposed t job.statementId) w := by
  have hK := (Unmarked.stable t).and (Received.stable t job.statementId)
  rw [createAnalyzeJobHandler, Proc.bind_eq]
  refine follows_silent trivial hK ⟨h, hreceived⟩
    fun w' answer hw' _ _ _ => ?_
  cases answer with
  | error error => exact hw'.1.throw
  | ok processingToken =>
      rw [Proc.onValue_ok, Proc.attempt_bind,
        StatementRepository.claimForProcessing]
      split
      · exact hw'.1.retry
      rw [Proc.bind_eq, Proc.andThen_assoc]
      refine follows_update hK hw' ?_ ?_ ?_ ?_
      · intro w₁ hw₁ e he
        refine ⟨fun u mark hu => ?_, fun _ => hw₁.2, fun h => ?_,
          fun _ h => ?_⟩
        · cases he <;> cases Event.markBy?_eq_some_iff.mp hu
        · cases he <;> cases h
        · cases he <;> cases h
      · intro w₁ now row s hw₁ hgenuine hs hrow
        exact follows_processClaim (hgenuine.belongs row hrow).id
          (hw₁.1.set hs (ite_self none))
      · intro w₁ now s hw₁ hs
        change Follows t ((resolveUnclaimedJob job.statementId).attempt >>= _)
          _ _
        rw [Proc.attempt_bind]
        refine Protocol.wp.andThen (Protocol.wp.mono
          (follows_resolveUnclaimedJob (hw₁.1.set hs (ite_self none)) ?_)
          fun result w₂ hresult => ?_)
        · rw [Received, World.set_self]
          exact hs.messages_ne_nil hw₁.2
        · cases result with
          | error error => exact hresult.unmarked.retry
          | ok disposition => exact hresult.unmarked.dispose hresult.settled
      · intro w₁ error s hw₁ hs
        exact (hw₁.1.set hs (ite_self none)).retry

/-- The deletion of a message for a settled statement. -/
theorem follows_deleteMessage {β : Type} {Q : Except Thrown β → World → Prop}
    {receiptHandle : ReceiptHandle} {next : Except Thrown Unit → Program β}
    (h : Unmarked t w) (hsettled : (w receiptHandle.statementId).Settled)
    (hnext : ∀ result w', Unmarked t w' → Follows t (next result) Q w') :
    Follows t ((request (.deleteMessage receiptHandle)).andThen next) Q w := by
  refine follows_call ((Unmarked.stable t).and (settled_stable t _))
    ⟨h, hsettled⟩ ?_
  rintro w' answer w'' hw' _ hinv ⟨effective, s, hs, _, rfl⟩ _
  refine ⟨World.orderly_set hinv hs ?_, hnext _ _ (hw'.1.set hs (ite_self none))⟩
  refine ⟨fun u mark hu => ?_, by rintro ⟨⟩, fun _ => hw'.2, by rintro _ ⟨⟩⟩
  cases Event.markBy?_eq_some_iff.mp hu

/-- What the race of an operation against the deadline can come to. -/
inductive Raced {T : Type} (result : Except Thrown T) :
    ShutdownOperationResult T → Prop
  | completed {value : T} (h : result = .ok value) :
      Raced result (.completed value)
  | failed {error : Thrown} (h : result = .error error) :
      Raced result (.failed error)
  | timedOut : Raced result .timedOut

theorem follows_race {β T : Type} {Q : Except Thrown β → World → Prop}
    {R : Except Thrown T → World → Prop} {operation : Program T}
    {next : Except Thrown (ShutdownOperationResult T) → Program β}
    (hR : ∀ result, Stable t (R result)) (h : Follows t operation R w)
    (hnext : ∀ result outcome w', R result w' → Raced result outcome →
      Follows t (next (.ok outcome)) Q w') :
    Follows t ((runWithShutdownTimeout operation).andThen next) Q w := by
  rw [runWithShutdownTimeout, Proc.attempt_bind, Proc.andThen_assoc]
  refine Protocol.wp.andThen (Protocol.wp.mono h fun result w₁ hresult => ?_)
  rw [Proc.bind_eq, Proc.andThen_assoc]
  refine follows_silent trivial (hR result) hresult
    fun w₂ answer hw₂ _ _ hexec => ?_
  cases answer with
  | error error => cases hexec.2
  | ok timedOut =>
      cases timedOut with
      | true => exact hnext result _ w₂ hw₂ .timedOut
      | false =>
          cases result with
          | ok value => exact hnext _ _ w₂ hw₂ (.completed rfl)
          | error error => exact hnext _ _ w₂ hw₂ (.failed rfl)

theorem Disposed.stable (t : Tid) (id : Uuid)
    (result : Except Thrown AnalyzeJobDisposition) :
    Stable t (Disposed t id result) := fun w w' hmoves h =>
  ⟨Unmarked.stable t w w' hmoves h.unmarked, fun hack =>
    settled_stable t id w w' hmoves (h.settled hack)⟩

theorem follows_processJob {leaseSeconds : Option ℚ} {job : ReceivedAnalyzeJob}
    (hnames : job.receiptHandle.statementId = job.statementId)
    (h : Unmarked t w) (hreceived : Received job.statementId w) :
    Follows t (processJob leaseSeconds job) (fun _ w' => Unmarked t w') w := by
  have hdone : ∀ w', Unmarked t w' → Follows t (pure ())
      (fun (_ : Except Thrown Unit) w₁ => Unmarked t w₁) w' :=
    fun w' hw' => Protocol.wp.settled fun w₁ hrely _ _ =>
      Unmarked.stable t w' w₁ hrely hw'
  rw [processJob, Proc.bind_eq]
  refine follows_race (Disposed.stable t job.statementId)
    (follows_createAnalyzeJobHandler h hreceived) ?_
  intro result outcome w₁ hw₁ hraced
  rw [Proc.onValue_ok]
  cases hraced with
  | failed _ | timedOut => exact hdone w₁ hw₁.unmarked
  | @completed disposition hresult =>
      cases disposition with
      | retry => exact hdone w₁ hw₁.unmarked
      | ack =>
          have hsettled := hnames ▸ hw₁.settled hresult
          dsimp only
          rw [Proc.bind_eq]
          have hdelete : Follows t (request (.deleteMessage job.receiptHandle))
              (fun _ => Unmarked t) w₁ := by
            rw [← Proc.andThen_settled (request _)]
            exact follows_deleteMessage hw₁.unmarked hsettled fun _ w₂ hw₂ =>
              Protocol.wp.settled fun w₃ hrely _ _ =>
                Unmarked.stable t w₂ w₃ hrely hw₂
          refine follows_race (fun _ => Unmarked.stable t) hdelete ?_
          intro _ outcome w₂ hw₂ _
          exact hdone w₂ hw₂

end Jobs

end StatementAnalyzer
