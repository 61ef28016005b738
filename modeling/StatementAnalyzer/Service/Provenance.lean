/-
Where the rows of `statements` come from: every column of a row that the service
has written was computed by one of its programs from what this program was given.
-/
import StatementAnalyzer.Api.StatementId
import StatementAnalyzer.Service.Guarantees
import StatementAnalyzer.Service.Vocabulary

namespace StatementAnalyzer

open Async

/-- The columns of a row, as far as a program has computed them: those of the
INSERT, and the failure of `markFailed`. -/
structure StatementRecord.Provenance (row : StatementRecord) (id : Uuid) :
    Prop where
  id : row.id = id
  ownerId : row.ownerId = none
  s3Key : row.s3Key = js "statements/" ++ row.id.text ++ js "/source"
  targetMonth : ∃ month, targetMonthSchema month = some month ∧
    row.targetMonth = month ++ js "-01"
  contentLength : 0 < row.contentLength ∧ row.contentLength ≤ MAX_UPLOAD_BYTES
  failure : ∀ failureCode failureMessage, row.failureCode = some failureCode →
    row.failureMessage = some failureMessage →
    Classified failureCode failureMessage

/-- A failure in the row was written by some `markFailed`. -/
def StatementRecord.Blamed (row : StatementRecord) (history : List Event) :
    Prop :=
  ∀ failureCode failureMessage, row.failureCode = some failureCode →
    row.failureMessage = some failureMessage →
    ∃ t now token late, .updated t now
      (.markFailed token failureCode failureMessage) late ∈ history

theorem Update.Applies.blamed {now : Time} {row row' : StatementRecord}
    {u : Update} {t : Tid} {late : Bool} {history : List Event}
    (h : u.Applies now row row') (hrow : row.Blamed history) :
    row'.Blamed (.updated t now u late :: history) := by
  intro failureCode failureMessage hcode hmessage
  have hkept : row.failureCode = some failureCode →
      row.failureMessage = some failureMessage →
      ∃ t' now' token late', Event.updated t' now'
        (.markFailed token failureCode failureMessage) late' ∈
          Event.updated t now u late :: history := by
    intro hcode hmessage
    obtain ⟨t', now', token, late', hmem⟩ := hrow _ _ hcode hmessage
    exact ⟨t', now', token, late', List.mem_cons_of_mem _ hmem⟩
  cases h with
  | markUploaded _ | markQueued _ | reset _ | claim _ | reclaim _ _ =>
      exact hkept hcode hmessage
  | @markFailed token code message _ =>
      cases hcode
      cases hmessage
      exact ⟨t, now, token, late, List.mem_cons_self⟩

theorem Advance.blamed {id : Uuid} {e : Event} {s s' : Statement}
    (hs : Advance id e s s')
    (h : ∀ row, s.row = some row → row.Blamed s.history) :
    ∀ row, s'.row = some row → row.Blamed s'.history := by
  cases hs with
  | created _ _ _ inserts =>
      rintro _ ⟨⟩ failureCode failureMessage hcode _
      rw [(StatementColumns.insert_eq_some_iff.mp inserts).2] at hcode
      cases hcode
  | updated hrow applies _ =>
      rintro _ ⟨⟩
      exact (Update.apply_eq_some_iff.mp applies).blamed (h _ hrow)
  | completed hrow completes =>
      rintro _ ⟨⟩ failureCode failureMessage hcode _
      rw [(StatementRecord.complete_eq_some_iff.mp completes).2] at hcode
      cases hcode
  | refused _ | errored | sent _ | deliveredLate _ | deleting =>
      intro row hrow failureCode failureMessage hcode hmessage
      obtain ⟨t, now, token, late, hmem⟩ := h row hrow _ _ hcode hmessage
      exact ⟨t, now, token, late, List.mem_cons_of_mem _ hmem⟩
  | removed _ => rintro _ ⟨⟩

theorem Genuine.blamed {id : Uuid} {s : Statement} (h : Genuine id s) :
    ∀ row, s.row = some row → row.Blamed s.history := by
  induction h with
  | unused => rintro _ ⟨⟩
  | advance _ hs ih => exact hs.blamed ih

section Service

variable {c : Config Store Query Query.Answer Thrown Outcome} {id : Uuid}
variable {row : StatementRecord}

theorem service_row (h : (querySystem repository Serves).Reachable c)
    (hrow : (c.world.statements id).row = some row) : row.Provenance id := by
  have hgenuine := repository_genuine h id
  have hbelongs := hgenuine.belongs row hrow
  obtain ⟨now, columns, first, hcreations, hinsert, hsame⟩ := hbelongs.created
  have hmem : (now, columns) ∈ creations (c.world.statements id).history := by
    rw [hcreations]
    exact List.mem_singleton_self _
  obtain ⟨e, he, hcreated⟩ := List.mem_filterMap.mp hmem
  obtain ⟨_, rfl⟩ := StatementColumns.insert_eq_some_iff.mp hinsert
  have hrequested : columns.Requested := by
    cases service_asked h id e he with
    | created hrequested =>
        cases hcreated
        exact hrequested
    | updated _ | refused _ | errored _ | completed _ | sent | deliveredLate
    | deleting | removed => cases hcreated
  have hid : columns.id = id := hsame.id.symm.trans hbelongs.id
  refine ⟨hbelongs.id, hsame.ownerId.trans hrequested.ownerId, ?_, ?_, ?_, ?_⟩
  · rw [hsame.s3Key, hbelongs.id, ← hid]
    exact hrequested.s3Key
  · rw [hsame.targetMonth]
    exact hrequested.targetMonth
  · rw [hsame.contentLength]
    exact hrequested.contentLength
  · intro failureCode failureMessage hcode hmessage
    obtain ⟨t, now, token, late, hblamed⟩ :=
      hgenuine.blamed row hrow failureCode failureMessage hcode hmessage
    cases service_asked h id _ hblamed with
    | updated hasked =>
        cases hasked with
        | markFailed hclassified => exact hclassified

/-- The rows of a reachable state.  Each of them was written from what one
validated request and the classification of one error have put there, and no
two statements share an object of the bucket. -/
theorem service_provenance (h : (querySystem repository Serves).Reachable c) :
    (∀ id row, (c.world.statements id).row = some row → row.Provenance id) ∧
    ∀ id id' row row', (c.world.statements id).row = some row →
      (c.world.statements id').row = some row' → row.s3Key = row'.s3Key →
      id = id' := by
  refine ⟨fun id row hrow => service_row h hrow, ?_⟩
  intro id id' row row' hrow hrow' hkey
  have hrow₁ := service_row h hrow
  have hrow₂ := service_row h hrow'
  rw [hrow₁.s3Key, hrow₂.s3Key] at hkey
  have htext := List.append_cancel_left (List.append_cancel_right hkey)
  rw [← hrow₁.id, ← hrow₂.id]
  exact Uuid.text_injective htext

theorem service_provenance_sampleCompleted :
    ∃ (c : Config Store Query Query.Answer Thrown Outcome)
      (row : StatementRecord), (querySystem repository Serves).Reachable c ∧
      (c.world.statements ⟨0⟩).row = some row ∧ row.Provenance ⟨0⟩ := by
  obtain ⟨c, _, h⟩ := at_completed
  have hrow : (c.world.statements ⟨0⟩).row = sampleCompleted.row := by
    rw [h.world]
    rfl
  exact ⟨c, _, h.reachable, hrow, (service_provenance h.reachable).1 _ _ hrow⟩

end Service

end StatementAnalyzer
