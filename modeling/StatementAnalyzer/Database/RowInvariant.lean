/-
What holds of every row of `statements`: the bookkeeping columns agree with the
status, the status moves along one graph, and the upload columns never change.
-/
import StatementAnalyzer.Database.Lifecycle

namespace StatementAnalyzer

/-- The bookkeeping columns agree with the status. -/
structure StatementRecord.Consistent (row : StatementRecord) : Prop where
  token : row.status = .processing ↔ row.processingToken.isSome
  lease : row.status = .processing ↔ row.processingLeaseExpiresAt.isSome
  started : row.processingStartedAt = none ↔
    row.status = .uploadPending ∨ row.status = .uploaded ∨ row.status = .queued
  processed : row.processedAt.isSome ↔ row.status = .completed
  failureCode : row.failureCode.isSome ↔ row.status = .failed
  failureMessage : row.failureMessage.isSome ↔ row.status = .failed

/-- The status graph. -/
inductive StatusChange : StatementStatus → StatementStatus → Prop
  | upload : StatusChange .uploadPending .uploaded
  | queue : StatusChange .uploaded .queued
  | reset : StatusChange .queued .uploaded
  | claim : StatusChange .queued .processing
  | reclaim : StatusChange .processing .processing
  | complete : StatusChange .processing .completed
  | fail : StatusChange .processing .failed

/-- COMPLETED and FAILED are final. -/
theorem StatusChange.source_open {status status' : StatementStatus}
    (h : StatusChange status status') : status.isTerminal = false := by
  cases h <;> rfl

/-- Equal in the columns that are written at creation only. -/
structure SameUpload (row row' : StatementRecord) : Prop where
  id : row'.id = row.id
  ownerId : row'.ownerId = row.ownerId
  s3Key : row'.s3Key = row.s3Key
  targetMonth : row'.targetMonth = row.targetMonth
  contentType : row'.contentType = row.contentType
  contentLength : row'.contentLength = row.contentLength

theorem SameUpload.refl (row : StatementRecord) : SameUpload row row :=
  ⟨rfl, rfl, rfl, rfl, rfl, rfl⟩

theorem SameUpload.trans {a b c : StatementRecord} (hab : SameUpload a b)
    (hbc : SameUpload b c) : SameUpload a c :=
  ⟨hbc.id.trans hab.id, hbc.ownerId.trans hab.ownerId,
    hbc.s3Key.trans hab.s3Key, hbc.targetMonth.trans hab.targetMonth,
    hbc.contentType.trans hab.contentType,
    hbc.contentLength.trans hab.contentLength⟩

/-- What a claim leaves in the row. -/
def StatementRecord.claim (row : StatementRecord) (now : Time) (token : Uuid)
    (leaseSeconds : Nat) : StatementRecord :=
  { row with
    status := .processing
    processingStartedAt := some now
    processingLeaseExpiresAt := some (now + leaseSeconds * 1000000)
    processingToken := some token
    updatedAt := now }

/-- What `markFailed` leaves in the row. -/
def StatementRecord.fail (row : StatementRecord) (now : Time)
    (failureCode : StatementFailureCode) (failureMessage : JsString) :
    StatementRecord :=
  { row with
    status := .failed
    failureCode := some failureCode
    failureMessage := some failureMessage
    processedAt := none
    processingLeaseExpiresAt := none
    processingToken := none
    updatedAt := now }

/-- The UPDATE statements by what they need and what they leave. -/
inductive Update.Applies (now : Time) (row : StatementRecord) :
    Update → StatementRecord → Prop
  | markUploaded (h : row.status = .uploadPending) :
      Applies now row .markUploaded
        { row with status := .uploaded, updatedAt := now }
  | markQueued (h : row.status = .uploaded) :
      Applies now row .markQueued
        { row with status := .queued, updatedAt := now }
  | reset (h : row.status = .queued) :
      Applies now row .resetQueuedToUploaded
        { row with status := .uploaded, updatedAt := now }
  | claim {token : Uuid} {leaseSeconds : Nat} (h : row.status = .queued) :
      Applies now row (.claimForProcessing token leaseSeconds)
        (row.claim now token leaseSeconds)
  | reclaim {token : Uuid} {leaseSeconds : Nat}
      (h : row.status = .processing) (expired : row.leaseExpired now = true) :
      Applies now row (.claimForProcessing token leaseSeconds)
        (row.claim now token leaseSeconds)
  | markFailed {token : Uuid} {failureCode : StatementFailureCode}
      {failureMessage : JsString} (h : row.claimedBy now token = true) :
      Applies now row (.markFailed token failureCode failureMessage)
        (row.fail now failureCode failureMessage)

theorem Update.apply_eq_some_iff {now : Time} {row row' : StatementRecord}
    {u : Update} : u.apply now row = some row' ↔ u.Applies now row row' := by
  constructor
  · intro h
    cases u with
    | claimForProcessing token leaseSeconds =>
        simp only [apply, Option.ite_none_right_eq_some, Option.some.injEq]
          at h
        obtain ⟨hwhere, rfl⟩ := h
        rcases hwhere with hqueued | ⟨hprocessing, hexpired⟩
        · exact .claim hqueued
        · exact .reclaim hprocessing hexpired
    | markUploaded | markQueued | resetQueuedToUploaded =>
        simp only [apply, Option.ite_none_right_eq_some, Option.some.injEq]
          at h
        obtain ⟨hwhere, rfl⟩ := h
        constructor
        exact hwhere
    | markFailed token failureCode failureMessage =>
        simp only [apply, Option.ite_none_right_eq_some, Option.some.injEq]
          at h
        obtain ⟨hwhere, rfl⟩ := h
        exact .markFailed hwhere
  · intro h
    cases h with
    | reclaim h expired => exact if_pos (.inr ⟨h, expired⟩)
    | claim h => exact if_pos (.inl h)
    | markUploaded h | markQueued h | reset h | markFailed h => exact if_pos h

theorem StatementRecord.claimedBy_iff {now : Time} {token : Uuid}
    {row : StatementRecord} : row.claimedBy now token = true ↔
      row.status = .processing ∧ row.processingToken = some token ∧
        ∃ expires, row.processingLeaseExpiresAt = some expires ∧
          now < expires := by
  simp [claimedBy, leaseValid, and_assoc, Option.any_eq_true]

theorem StatementRecord.complete_eq_some_iff {now : Time} {token : Uuid}
    {row row' : StatementRecord} : row.complete now token = some row' ↔
      row.claimedBy now token = true ∧ row' = { row with
        status := .completed
        processedAt := some now
        processingLeaseExpiresAt := none
        processingToken := none
        failureCode := none
        failureMessage := none
        updatedAt := now } := by
  rw [complete, Option.ite_none_right_eq_some, Option.some.injEq]
  exact and_congr_right fun _ => eq_comm

theorem StatementColumns.insert_eq_some_iff {now : Time}
    {columns : StatementColumns} {row : StatementRecord} :
    columns.insert now = some row ↔
      (textCheck columns.s3Key && dateCheck columns.targetMonth &&
        contentLengthCheck columns.contentLength) = true ∧
      row = ⟨columns.id, columns.ownerId, columns.s3Key, columns.targetMonth,
        columns.status, columns.contentType, columns.contentLength, none, none,
        none, none, none, none, now, now⟩ := by
  rw [insert, Option.ite_none_right_eq_some, Option.some.injEq]
  exact and_congr_right fun _ => eq_comm

theorem Update.Applies.sameUpload {now : Time} {row row' : StatementRecord}
    {u : Update} (h : u.Applies now row row') : SameUpload row row' := by
  cases h <;> exact ⟨rfl, rfl, rfl, rfl, rfl, rfl⟩

theorem Update.Applies.statusChange {now : Time} {row row' : StatementRecord}
    {u : Update} (h : u.Applies now row row') :
    StatusChange row.status row'.status := by
  cases h with
  | markUploaded h => exact h ▸ .upload
  | markQueued h => exact h ▸ .queue
  | reset h => exact h ▸ .reset
  | claim h => exact h ▸ .claim
  | reclaim h _ => exact h ▸ .reclaim
  | markFailed h =>
      rw [(StatementRecord.claimedBy_iff.mp h).1]
      exact .fail

theorem StatementRecord.complete_statusChange {now : Time} {token : Uuid}
    {row row' : StatementRecord} (h : row.complete now token = some row') :
    StatusChange row.status row'.status := by
  obtain ⟨hclaimed, rfl⟩ := complete_eq_some_iff.mp h
  rw [(claimedBy_iff.mp hclaimed).1]
  exact .complete

theorem StatementRecord.complete_sameUpload {now : Time} {token : Uuid}
    {row row' : StatementRecord} (h : row.complete now token = some row') :
    SameUpload row row' := by
  obtain ⟨_, rfl⟩ := complete_eq_some_iff.mp h
  exact ⟨rfl, rfl, rfl, rfl, rfl, rfl⟩

theorem StatementColumns.insert_consistent {now : Time}
    {columns : StatementColumns} {row : StatementRecord}
    (h : columns.insert now = some row)
    (hstatus : columns.status = .uploadPending) : row.Consistent := by
  obtain ⟨_, rfl⟩ := insert_eq_some_iff.mp h
  constructor <;> simp [hstatus]

theorem Update.Applies.consistent {now : Time} {row row' : StatementRecord}
    {u : Update} (h : u.Applies now row row') (hrow : row.Consistent) :
    row'.Consistent := by
  obtain ⟨token, lease, started, processed, code, message⟩ := hrow
  cases h with
  | markUploaded h | markQueued h | reset h =>
      rw [h] at token lease started processed code message
      constructor <;> simp_all
  | claim h | reclaim h _ =>
      rw [h] at token lease started processed code message
      constructor <;> simp_all [StatementRecord.claim]
  | markFailed h =>
      rw [(StatementRecord.claimedBy_iff.mp h).1] at started
      constructor <;> simp_all [StatementRecord.fail]

theorem StatementRecord.complete_consistent {now : Time} {token : Uuid}
    {row row' : StatementRecord} (h : row.complete now token = some row')
    (hrow : row.Consistent) : row'.Consistent := by
  obtain ⟨hclaimed, rfl⟩ := complete_eq_some_iff.mp h
  have hstarted := hrow.started
  rw [(claimedBy_iff.mp hclaimed).1] at hstarted
  constructor <;> simp_all

def Event.creation? : Event → Option (Time × StatementColumns)
  | created _ now columns => some (now, columns)
  | _ => none

/-- The insertions under this id. -/
def creations (history : List Event) : List (Time × StatementColumns) :=
  history.filterMap Event.creation?

@[simp] theorem creations_cons (e : Event) (older : List Event) :
    creations (e :: older) = e.creation?.toList ++ creations older := by
  cases h : e.creation? <;> simp [creations, h]

theorem Statement.NeverCreated.creations {s : Statement}
    (h : s.NeverCreated) : creations s.history = [] := by
  rw [StatementAnalyzer.creations, List.filterMap_eq_nil_iff]
  intro e he
  cases e with
  | created t now columns => exact absurd he (h t now columns)
  | _ => rfl

/-- The row of a statement belongs to its id and still has the upload columns
of its only insertion. -/
structure StatementRecord.Belongs (row : StatementRecord) (id : Uuid)
    (history : List Event) : Prop where
  consistent : row.Consistent
  id : row.id = id
  created : ∃ now columns first, creations history = [(now, columns)] ∧
    columns.insert now = some first ∧ SameUpload first row

theorem StatementRecord.Belongs.step {row row' : StatementRecord} {id : Uuid}
    {history : List Event} {e : Event} (h : row.Belongs id history)
    (hconsistent : row'.Consistent) (hsame : SameUpload row row')
    (he : e.creation? = none) : row'.Belongs id (e :: history) := by
  obtain ⟨now, columns, first, hcreations, hinsert, hfirst⟩ := h.created
  refine ⟨hconsistent, hsame.id.trans h.id, now, columns, first, ?_, hinsert,
    hfirst.trans hsame⟩
  rw [creations_cons, he, hcreations]
  rfl

/-- What every event keeps of the row. -/
theorem Advance.belongs {id : Uuid} {e : Event} {s s' : Statement}
    (hs : Advance id e s s')
    (h : ∀ row, s.row = some row → row.Belongs id s.history) :
    ∀ row, s'.row = some row → row.Belongs id s'.history := by
  cases hs with
  | @created _ t now columns row fresh hid hstatus inserts =>
      rintro _ ⟨⟩
      have hconsistent := StatementColumns.insert_consistent inserts hstatus
      have hrow := (StatementColumns.insert_eq_some_iff.mp inserts).2
      refine ⟨hconsistent, by rw [hrow]; exact hid, now, columns, row, ?_,
        inserts, .refl row⟩
      simp [Statement.log, Event.creation?, fresh.creations]
  | updated hrow applies _ =>
      rintro _ ⟨⟩
      have happlies := Update.apply_eq_some_iff.mp applies
      have hbelongs := h _ hrow
      exact hbelongs.step (happlies.consistent hbelongs.consistent)
        happlies.sameUpload rfl
  | completed hrow completes =>
      rintro _ ⟨⟩
      have hbelongs := h _ hrow
      exact hbelongs.step
        (StatementRecord.complete_consistent completes hbelongs.consistent)
        (StatementRecord.complete_sameUpload completes) rfl
  | refused _ | errored | sent _ | deliveredLate _ | deleting =>
      intro row hrow
      have hbelongs := h row hrow
      exact hbelongs.step hbelongs.consistent (.refl row) rfl
  | removed _ =>
      rintro _ ⟨⟩

theorem Genuine.belongs {id : Uuid} {s : Statement} (h : Genuine id s) :
    ∀ row, s.row = some row → row.Belongs id s.history := by
  induction h with
  | unused =>
      rintro _ ⟨⟩
  | advance _ hs ih => exact hs.belongs ih

/-- Whatever happens to a statement that has a row before and after, the
status stays or follows the graph, and the upload columns stay. -/
theorem Advance.row_change {id : Uuid} {e : Event} {s s' : Statement}
    (hs : Advance id e s s') {row row' : StatementRecord}
    (hrow : s.row = some row) (hrow' : s'.row = some row')
    (hnever : ¬s.NeverCreated) :
    (row' = row ∨ StatusChange row.status row'.status) ∧
      SameUpload row row' := by
  cases hs with
  | created fresh _ _ _ => exact absurd fresh hnever
  | updated h applies _ =>
      cases h.symm.trans hrow
      cases hrow'
      have happlies := Update.apply_eq_some_iff.mp applies
      exact ⟨.inr happlies.statusChange, happlies.sameUpload⟩
  | completed h completes =>
      cases h.symm.trans hrow
      cases hrow'
      exact ⟨.inr (StatementRecord.complete_statusChange completes),
        StatementRecord.complete_sameUpload completes⟩
  | refused _ | errored | sent _ | deliveredLate _ | deleting =>
      cases hrow.symm.trans hrow'
      exact ⟨.inl rfl, .refl row⟩
  | removed _ => cases hrow'

/-- A finished row stays as it is until it is deleted by hand. -/
theorem Advance.finished {id : Uuid} {e : Event} {s s' : Statement}
    (hs : Advance id e s s') {row : StatementRecord} (hrow : s.row = some row)
    (hterminal : row.status.isTerminal = true) (hnever : ¬s.NeverCreated)
    (he : e ≠ .removed) :
    s'.row = some row ∧ s'.transactions = s.transactions := by
  cases hs with
  | created fresh _ _ _ => exact absurd fresh hnever
  | updated h applies _ =>
      cases h.symm.trans hrow
      have hopen :=
        (Update.apply_eq_some_iff.mp applies).statusChange.source_open
      rw [hterminal] at hopen
      cases hopen
  | completed h completes =>
      cases h.symm.trans hrow
      have hopen :=
        (StatementRecord.complete_statusChange completes).source_open
      rw [hterminal] at hopen
      cases hopen
  | refused _ | errored | sent _ | deliveredLate _ | deleting =>
      exact ⟨hrow, rfl⟩
  | removed _ => exact absurd rfl he

/-- A claim takes every QUEUED row. -/
theorem Update.claim_queued (now : Time) (token : Uuid) (leaseSeconds : Nat)
    {row : StatementRecord} (h : row.status = .queued) :
    (claimForProcessing token leaseSeconds).apply now row =
      some (row.claim now token leaseSeconds) :=
  apply_eq_some_iff.mpr (.claim h)

/-- A claim takes a PROCESSING row exactly once its lease has passed. -/
theorem Update.claim_processing (now : Time) (token : Uuid)
    (leaseSeconds : Nat) {row : StatementRecord} {expires : Time}
    (h : row.status = .processing)
    (hlease : row.processingLeaseExpiresAt = some expires) :
    (claimForProcessing token leaseSeconds).apply now row =
      if expires < now then some (row.claim now token leaseSeconds)
      else none := by
  simp [apply, h, StatementRecord.leaseExpired, hlease, StatementRecord.claim]

end StatementAnalyzer
