/-
The endpoints follow the protocol.  Only a request for the analysis leaves
marks; it settles with none of them pending, and with 202 exactly where it has
queued the statement and sent its job.
-/
import StatementAnalyzer.Service.Protocol

namespace StatementAnalyzer

open Async

/-- What a request has done once it is answered. -/
structure Answered (t : Tid) (result : Except Thrown Response) (w : World) :
    Prop where
  finished : ∀ id, ¬Pending (marks t (w id).history)
  accepted : ∀ response, result = .ok response → response.status = 202 →
    ∃ id, response.body = .uploadStatus id .queued ∧
      marks t (w id).history = [.sent, .queued]

section Endpoints

variable {t : Tid} {id : Uuid} {w : World}

theorem Answered.of_trail {trail : List Mark}
    {result : Except Thrown Response} (h : Trail t id trail w)
    (hpending : ¬Pending trail)
    (hstatus : ∀ response, result = .ok response → response.status ≠ 202) :
    Answered t result w := by
  refine ⟨fun other => ?_, fun response hok h202 => ?_⟩
  · rw [h other]
    split
    · exact hpending
    · rintro (hnone | hnone) <;> cases hnone
  · exact absurd h202 (hstatus response hok)

/-- An answer other than 202, with nothing pending. -/
theorem follows_answer {trail : List Mark} {response : Response}
    (h : Trail t id trail w) (hpending : ¬Pending trail)
    (hstatus : response.status ≠ 202) :
    Follows t (.settled (.ok response)) (Answered t) w := by
  refine Protocol.wp.settled fun w' hrely _ _ => ?_
  refine .of_trail (Trail.stable t id trail w w' hrely h) hpending ?_
  rintro _ ⟨⟩
  exact hstatus

theorem not_pending_nil : ¬Pending [] := by
  rintro (h | h) <;> cases h

/-- The statement as the database has it at some moment. -/
theorem follows_findById {β : Type} {K : World → Prop}
    {Q : Except Thrown β → World → Prop}
    {next : Except Thrown (Option StatementRecord) → Program β}
    (hK : Stable t K) (hw : K w)
    (hfound : ∀ w', K w' → serviceProtocol.Known w' →
      serviceProtocol.Inv w' → Follows t (next (.ok (w' id).row)) Q w')
    (hfailed : ∀ w' error, K w' → Follows t (next (.error error)) Q w') :
    Follows t ((StatementRepository.findById id).andThen next) Q w := by
  rw [StatementRepository.findById, Proc.bind_eq, Proc.andThen_assoc]
  refine follows_silent trivial hK hw fun w' answer hw' hknown hinv hexec => ?_
  cases answer with
  | error error => exact hfailed w' error hw'
  | ok rows =>
      rw [hexec.2 rows rfl, Proc.onValue_ok, Proc.pure_eq,
        Proc.settled_andThen, Option.head?_toList]
      exact hfound w' hw' hknown hinv

/-- A script allows the next mark, whatever else the thread does. -/
theorem Trail.allows {trail : List Mark} {e : Event} {mark : Mark}
    (h : Trail t id trail w) (he : Marks t mark e)
    (hscript : Scripted (mark :: trail)) : (w id).Allows e := by
  have hmark : ∀ u mark', e.markBy? u = some mark' → u = t ∧ mark' = mark := by
    intro u mark' hu
    have hu := Event.markBy?_eq_some_iff.mp hu
    cases he <;> cases hu <;> exact ⟨rfl, rfl⟩
  refine ⟨fun u mark' hu => ?_, fun hclaiming => ?_, fun hdeletes => ?_,
    fun transactions hsaved => ?_⟩
  · obtain ⟨rfl, rfl⟩ := hmark u mark' hu
    rw [h id, if_pos rfl]
    exact hscript
  · cases he <;> cases hclaiming
  · cases he <;> cases hdeletes
  · cases he <;> cases hsaved

/-- `resetQueuedToUploaded` after a failed send, and the answer. -/
theorem follows_reset (h : Trail t id [.unsent, .queued] w) :
    Follows t ((StatementRepository.resetQueuedToUploaded id).attempt >>=
      fun _ => pure dependencyUnavailable) (Answered t) w := by
  rw [Proc.attempt_bind, StatementRepository.resetQueuedToUploaded,
    Proc.bind_eq, Proc.andThen_assoc]
  have hanswer : ∀ {w' mark}, mark ∈ [Mark.reset, .resetRefused, .resetErrored] →
      Trail t id [mark, .unsent, .queued] w' →
        Follows t (pure dependencyUnavailable) (Answered t) w' := by
    intro w' mark _ htrail
    refine follows_answer htrail ?_ (by decide)
    rintro (h | h) <;> cases h
  refine follows_update (Trail.stable t id _) h ?_ ?_ ?_ ?_
  · intro w' hw' e he
    cases he with
    | updated now => exact hw'.allows (.reset now) .undone
    | refused now => exact hw'.allows (.resetRefused now) .kept
    | errored => exact hw'.allows .resetErrored .stuck
  · intro w' now row s hw' _ hs _
    have htrail := hw'.mark hs (.reset now)
    exact hanswer (by simp) htrail
  · intro w' now s hw' hs
    have htrail := hw'.mark hs (.resetRefused now)
    exact hanswer (by simp) htrail
  · intro w' error s hw' hs
    have htrail := hw'.mark hs .resetErrored
    exact hanswer (by simp) htrail

/-- The send, and 202 or the reset. -/
theorem follows_sendQueuedJob {queued : StatementRecord} (hid : queued.id = id)
    (hstatus : queued.status = .queued) (h : Trail t id [.queued] w) :
    Follows t (sendQueuedJob queued) (Answered t) w := by
  subst hid
  rw [sendQueuedJob, Proc.attempt_bind]
  refine follows_call (Trail.stable t _ _) h ?_
  rintro w' answer w'' hw' _ hinv ⟨delivered, s, hs, rfl⟩ _
  cases answer with
  | ok _ =>
      have hmark : Marks t .sent (.sent t true delivered) := .sent delivered
      have htrail := hw'.mark hs hmark
      refine ⟨World.orderly_set hinv hs (hw'.allows hmark .sent), ?_⟩
      refine Protocol.wp.settled fun w₁ hrely _ _ => ?_
      have htrail := Trail.stable t _ _ _ w₁ hrely htrail
      refine ⟨fun other => ?_, ?_⟩
      · rw [htrail other]
        split <;> rintro (h | h) <;> cases h
      · rintro _ ⟨⟩ _
        exact ⟨queued.id, by rw [toUploadStatus, hstatus],
          by rw [htrail, if_pos rfl]⟩
  | error error =>
      have hmark : Marks t .unsent (.sent t false delivered) := .unsent delivered
      exact ⟨World.orderly_set hinv hs (hw'.allows hmark .unsent),
        follows_reset (hw'.mark hs hmark)⟩

theorem Advance.markQueued_status {now : Time} {late : Bool}
    {s s' : Statement} {row : StatementRecord}
    (hs : Advance id (.updated t now .markQueued late) s s')
    (hrow : s'.row = some row) : row.status = .queued := by
  cases hs with
  | updated _ applies _ =>
      cases hrow
      cases Update.apply_eq_some_iff.mp applies
      rfl

theorem unqueuedResponse_status (found : Option StatementRecord) :
    (unqueuedResponse found).status ≠ 202 := by
  cases found with
  | none => decide
  | some statement =>
      rw [unqueuedResponse]
      split <;> simp [toUploadStatus, errorResponse]

theorem follows_queueStatement {statement : StatementRecord}
    (h : Unmarked t w) :
    Follows t (queueStatement statement) (Answered t) w := by
  rw [queueStatement, Proc.attempt_bind, StatementRepository.markQueued,
    Proc.bind_eq, Proc.andThen_assoc]
  refine follows_update (Trail.stable t statement.id _) (h.trail statement.id)
    ?_ ?_ ?_ ?_
  · intro w' hw' e he
    cases he with
    | updated now => exact hw'.allows (.queued now) .queued
    | refused now => exact hw'.allows (.queueRefused now) .refused
    | errored => exact hw'.allows .queueErrored .errored
  · intro w' now row s hw' hgenuine hs hrow
    have htrail := hw'.mark hs (.queued now)
    have hid : row.id = statement.id := (hgenuine.belongs row hrow).id
    exact follows_sendQueuedJob hid (hs.markQueued_status hrow) htrail
  · intro w' now s hw' hs
    have htrail := hw'.mark hs (.queueRefused now)
    change Follows t ((StatementRepository.findById statement.id).attempt >>= _)
      _ _
    rw [Proc.attempt_bind]
    have hpending : ¬Pending [.queueRefused] := by
      rintro (h | h) <;> cases h
    refine follows_findById (Trail.stable t _ _) htrail ?_ ?_
    · intro w₁ hw₁ _ _
      exact follows_answer hw₁ hpending (unqueuedResponse_status _)
    · intro w₁ error hw₁
      exact follows_answer hw₁ hpending (by decide)
  · intro w' error s hw' hs
    have htrail := hw'.mark hs .queueErrored
    refine follows_answer htrail ?_ (by decide)
    rintro (h | h) <;> cases h

/-- Thread `t` has left no mark and answers something other than 202. -/
theorem Unmarked.answer {response : Response} (h : Unmarked t w)
    (hstatus : response.status ≠ 202) :
    Follows t (.settled (.ok response)) (Answered t) w :=
  follows_answer (h.trail ⟨0⟩) not_pending_nil hstatus

theorem follows_analyzeStatement {id : Option Uuid} (h : Unmarked t w) :
    Follows t (analyzeStatement id) (Answered t) w := by
  cases id with
  | none => exact h.answer (by decide)
  | some id =>
      rw [analyzeStatement, Proc.attempt_bind]
      refine follows_findById (Unmarked.stable t) h (fun w' hw' _ _ => ?_)
        fun w' error hw' => hw'.answer (by decide)
      cases hrow : (w' id).row with
      | none => exact hw'.answer (by decide)
      | some statement =>
          cases hstatus : statement.status with
          | uploaded =>
              simp only [hstatus]
              exact follows_queueStatement hw'
          | uploadPending | failed =>
              simp only [hstatus]
              exact hw'.answer (by decide)
          | queued | processing | completed =>
              simp only [hstatus]
              exact hw'.answer (by simp [toUploadStatus])

/-- An event that leaves no mark and claims, deletes and stores nothing. -/
theorem Statement.allows_unmarked {s : Statement} {e : Event}
    (hmark : e.mark? = none) (hclaiming : e.claiming = false)
    (hdeletes : e.deletes = false) (hsaved : e.saved? = none) : s.Allows e := by
  refine ⟨fun u mark hu => ?_, fun h => ?_, fun h => ?_, fun _ h => ?_⟩
  · rw [Event.markBy?, hmark, ite_self] at hu
    cases hu
  · rw [hclaiming] at h
    cases h
  · rw [hdeletes] at h
    cases h
  · rw [hsaved] at h
    cases h

/-- `markUploaded`, and what is answered. -/
theorem follows_markUploaded {β : Type} {Q : Except Thrown β → World → Prop}
    {next : Except Thrown (Option StatementRecord) → Program β}
    (h : Unmarked t w) (hnext : ∀ result w', Unmarked t w' →
      Follows t (next result) Q w') :
    Follows t ((StatementRepository.markUploaded id).andThen next) Q w := by
  rw [StatementRepository.markUploaded, Proc.bind_eq, Proc.andThen_assoc]
  refine follows_update (Unmarked.stable t) h ?_ ?_ ?_ ?_
  · intro w' _ e he
    cases he <;> exact Statement.allows_unmarked rfl rfl rfl rfl
  · intro w' now row s hw' _ hs _
    exact hnext (.ok (some row)) _ (hw'.set hs (ite_self none))
  · intro w' now s hw' hs
    exact hnext (.ok none) _ (hw'.set hs (ite_self none))
  · intro w' error s hw' hs
    exact hnext (.error error) _ (hw'.set hs (ite_self none))

theorem uploadedResponse_status (found : Option StatementRecord) :
    (uploadedResponse found).status ≠ 202 := by
  cases found with
  | none => decide
  | some statement =>
      rw [uploadedResponse]
      split <;> simp [toUploadStatus, notUploadable, errorResponse]

theorem follows_completeUpload {id : Option Uuid} (h : Unmarked t w) :
    Follows t (completeUpload id) (Answered t) w := by
  cases id with
  | none => exact h.answer (by decide)
  | some id =>
      rw [completeUpload, Proc.attempt_bind]
      refine follows_findById (Unmarked.stable t) h (fun w' hw' _ _ => ?_)
        fun w' error hw' => hw'.answer (by decide)
      cases hrow : (w' id).row with
      | none => exact hw'.answer (by decide)
      | some statement =>
          dsimp only
          split
          · exact hw'.answer (by decide)
          split
          · exact hw'.answer (by simp [toUploadStatus])
          rw [Proc.attempt_bind]
          refine follows_silent trivial (Unmarked.stable t) hw'
            fun w₁ answer hw₁ _ _ _ => ?_
          cases answer with
          | error error =>
              dsimp only
              split
              · exact hw₁.answer (by decide)
              · exact hw₁.answer (by decide)
          | ok objectMetadata =>
              dsimp only
              split
              · exact hw₁.answer (by decide)
              rw [Proc.attempt_bind, markUploadedOrFind, Proc.bind_eq,
                Proc.andThen_assoc]
              refine follows_markUploaded hw₁ fun result w₂ hw₂ => ?_
              rcases result with error | (_ | uploaded)
              · exact hw₂.answer (by decide)
              · refine follows_findById (Unmarked.stable t) hw₂
                  (fun w₃ hw₃ _ _ => ?_) fun w₃ error hw₃ => hw₃.answer (by decide)
                exact hw₃.answer (uploadedResponse_status _)
              · exact hw₂.answer (uploadedResponse_status (some uploaded))

/-- The INSERT of `create`. -/
theorem follows_insertStatement {β : Type} {Q : Except Thrown β → World → Prop}
    {columns : StatementColumns}
    {next : Except Thrown (List StatementRecord) → Program β}
    (h : Unmarked t w)
    (hnext : ∀ result w', Unmarked t w' → Follows t (next result) Q w') :
    Follows t ((request (.insertStatement columns)).andThen next) Q w := by
  refine follows_call (Unmarked.stable t) h ?_
  intro w' answer w'' hw' _ hinv hexec _
  have hallows : ∀ now, (w' columns.id).Allows (.created t now columns) :=
    fun _ => Statement.allows_unmarked rfl rfl rfl rfl
  cases hexec with
  | served _ hs _ =>
      exact ⟨World.orderly_set hinv hs (hallows _),
        hnext _ _ (hw'.set hs (ite_self none))⟩
  | failed => exact ⟨hinv, hnext _ _ hw'⟩
  | unconfirmed _ hs =>
      exact ⟨World.orderly_set hinv hs (hallows _),
        hnext _ _ (hw'.set hs (ite_self none))⟩

/-- `create`, and what is answered. -/
theorem follows_create {β : Type} {Q : Except Thrown β → World → Prop}
    {input : CreateStatementInput} (hid : ∃ id, input.id = some id)
    {next : Except Thrown StatementRecord → Program β} (h : Unmarked t w)
    (hnext : ∀ result w', Unmarked t w' → Follows t (next result) Q w') :
    Follows t ((StatementRepository.create input).andThen next) Q w := by
  obtain ⟨id, hid⟩ := hid
  have hthrow : ∀ error w', Unmarked t w' →
      Follows t ((if isUniqueViolation error then
        Proc.throwing uniqueConstraintError
        else (Proc.throwing error : Program StatementRecord)).andThen next)
        Q w' := by
    intro error w' hw'
    split <;> exact hnext _ w' hw'
  simp only [StatementRepository.create, hid, Proc.orElse, Proc.bind_eq,
    Proc.andThen_assoc]
  cases hmonth : normalizeTargetMonth input.targetMonth with
  | error error => exact hthrow error w h
  | ok targetMonth =>
      refine follows_insertStatement h fun result w' hw' => ?_
      rcases result with error | (_ | ⟨row, rest⟩)
      · exact hthrow error w' hw'
      · exact hthrow plainError w' hw'
      · exact hnext (.ok row) w' hw'

theorem follows_createStatement {presignedUrlExpiresSeconds : Nat}
    {http : CreateStatementHttpRequest} (h : Unmarked t w) :
    Follows t (createStatement presignedUrlExpiresSeconds http) (Answered t)
      w := by
  rw [createStatement]
  split
  · exact h.answer (by decide)
  split
  · exact h.answer (by decide)
  split
  · exact h.answer (by decide)
  split
  · exact h.answer (by decide)
  split
  · exact h.answer (by decide)
  have hanswer : ∀ (result : Except Thrown Response) w', Unmarked t w' →
      (∀ response, result = .ok response → response.status ≠ 202) →
      Follows t (pure (createdResponse result)) (Answered t) w' := by
    intro result w' hw' hstatus
    cases result with
    | ok response => exact hw'.answer (hstatus response rfl)
    | error error =>
        apply hw'.answer
        rw [createdResponse]
        split <;> decide
  rw [Proc.bind_eq]
  refine follows_silent trivial (Unmarked.stable t) h
    fun w₁ answer hw₁ _ _ hexec => ?_
  cases answer with
  | error error => cases hexec.2
  | ok statementId =>
      rw [Proc.onValue_ok, Proc.attempt_bind, insertStatement, Proc.bind_eq,
        Proc.andThen_assoc]
      refine follows_silent trivial (Unmarked.stable t) hw₁
        fun w₂ answer hw₂ _ _ _ => ?_
      cases answer with
      | error error =>
          exact hanswer (.error error) w₂ hw₂ (by rintro _ ⟨⟩)
      | ok uploadUrl =>
          rw [Proc.onValue_ok, Proc.bind_eq, Proc.andThen_assoc]
          refine follows_create ⟨statementId, rfl⟩ hw₂ fun result w₃ hw₃ => ?_
          cases result with
          | error error =>
              exact hanswer (.error error) w₃ hw₃ (by rintro _ ⟨⟩)
          | ok statement =>
              refine hanswer (.ok _) w₃ hw₃ ?_
              rintro _ ⟨⟩
              simp

end Endpoints

end StatementAnalyzer
