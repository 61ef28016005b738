/-
The gate of the upload.  Requests that confirm an upload run among all other
requests and workers, with a journal of what each thread has asked and was
answered; what was read and what was written long apart is put together from
the journal and from the history of the statement.
-/
import StatementAnalyzer.Api.UploadRequest
import StatementAnalyzer.Service.Guarantees

namespace StatementAnalyzer

open Async

/-- The thread whose call the event goes back to, late or not. -/
def Event.author : Event → Option Tid
  | created t _ _ | updated t _ _ _ | refused t _ _ | errored t _
  | completed t _ _ _ | sent t _ _ | deliveredLate t | deleting t _ _ => some t
  | removed => none

/-- The events that go back to a query of thread `t` with this answer. -/
inductive Logs (t : Tid) : AnsweredQuery → Uuid → Event → Prop
  | created {columns : StatementColumns} {now : Time}
      {answer : Except Thrown (List StatementRecord)} :
      Logs t ⟨.request (.insertStatement columns), answer⟩ columns.id
        (.created t now columns)
  | updated {id : Uuid} {u : Update} {now : Time} {row : StatementRecord} :
      Logs t ⟨.request (.updateStatement id u), .ok [u.returning now row]⟩ id
        (.updated t now u false)
  | landed {id : Uuid} {u : Update} {now : Time} {error : Thrown} :
      Logs t ⟨.request (.updateStatement id u), .error error⟩ id
        (.updated t now u true)
  | refused {id : Uuid} {u : Update} {now : Time} :
      Logs t ⟨.request (.updateStatement id u), .ok []⟩ id (.refused t now u)
  | errored {id : Uuid} {u : Update} {error : Thrown} :
      Logs t ⟨.request (.updateStatement id u), .error error⟩ id (.errored t u)
  | completed {id token : Uuid} {now : Time} {answer : Except Thrown Unit}
      {transactions : List CreateTransactionInput} :
      Logs t ⟨.client .commit, answer⟩ id (.completed t now token transactions)
  | sent {id : Uuid} {answer : Except Thrown Unit} {reported delivered : Bool} :
      Logs t ⟨.request (.sendMessage id), answer⟩ id (.sent t reported delivered)
  | deliveredLate {id : Uuid} {answer : Except Thrown Unit} :
      Logs t ⟨.request (.sendMessage id), answer⟩ id (.deliveredLate t)
  | deleting {receiptHandle : ReceiptHandle} {answer : Except Thrown Unit}
      {effective : Bool} :
      Logs t ⟨.request (.deleteMessage receiptHandle), answer⟩
        receiptHandle.statementId (.deleting t receiptHandle.index effective)

/-- The history of a statement after a query of thread `t`. -/
def Extends (t : Tid) (answered : AnsweredQuery) (w w' : World) : Prop :=
  ∀ id, (w' id).history = (w id).history ∨
    ∃ e, (w' id).history = e :: (w id).history ∧ Logs t answered id e

section Logs

variable {t : Tid} {w w' : Store}

theorem Extends.same {answered : AnsweredQuery}
    (h : w'.statements = w.statements) :
    Extends t answered w.statements w'.statements :=
  fun id => .inl (by rw [h])

theorem Extends.set {answered : AnsweredQuery} {id : Uuid} {e : Event}
    {s : Statement} (hs : s.history = e :: (w.statements id).history)
    (he : Logs t answered id e) :
    Extends t answered w.statements (w.statements.set id s) := by
  intro other
  by_cases hother : other = id
  · subst hother
    rw [World.set_self]
    exact .inr ⟨e, hs, he⟩
  · rw [World.set_ne _ hother]
    exact .inl rfl

/-- What COMMIT leaves in the history. -/
theorem serve_extends {q : ClientQuery} {now : Time}
    {served : Option q.Answer} {answer : Except Thrown q.Answer}
    (h : serve t now w q = some (served, w')) :
    Extends t ⟨.client q, answer⟩ w.statements w'.statements := by
  by_cases hq : q = .commit
  · subst hq
    simp only [serve] at h
    split at h
    · cases h
      exact .same rfl
    · cases h
      exact .same rfl
    · split at h
      · split at h
        · cases h
          exact .set rfl .completed
        · cases h
      · split at h
        · cases h
          exact .same rfl
        · cases h
    · cases h
  · exact .same (serve_statements hq h)

/-- What a query leaves in the histories. -/
theorem Query.Exec.extends {q : Query} {answer : Except Thrown q.Answer}
    (h : Query.Exec t q w answer w') :
    Extends t ⟨q, answer⟩ w.statements w'.statements := by
  cases h with
  | connected | unavailable | failed | lost | released => exact .same rfl
  | served h | unstorable h => exact serve_extends h
  | @unconfirmed q _ w' _ _ error h =>
      have hextends : Extends t ⟨.client q, .error error⟩ w.statements
          w'.statements := serve_extends h
      exact hextends
  | @request r _ _ statements executes _ =>
      cases r with
      | insertStatement columns =>
          cases executes with
          | served _ hs _ | unconfirmed _ hs => exact .set hs.history .created
          | failed => exact .same rfl
      | updateStatement id u =>
          cases executes with
          | served _ hs _ => exact .set hs.history .updated
          | refused hs => exact .set hs.history .refused
          | failed hs => exact .set hs.history .errored
      | sendMessage id =>
          obtain ⟨_, s, hs, rfl⟩ := executes
          exact .set hs.history .sent
      | deleteMessage receiptHandle =>
          obtain ⟨_, s, hs, _, rfl⟩ := executes
          exact .set hs.history .deleting
      | selectStatement _ | randomUUID | shutdownTimeout =>
          obtain ⟨rfl, _⟩ := executes
          exact .same rfl
      | createPresignedPutUrl _ _ _ | headObject _ | getObject _
      | converse _ =>
          cases executes
          exact .same rfl

end Logs

/-- The service with a journal. -/
abbrev journaledService :
    System (Store × Journal Query Query.Answer Thrown Outcome) Query
      Query.Answer Thrown Outcome :=
  (querySystem repository Serves).journaled

abbrev JournaledConfig : Type :=
  Config (Store × Journal Query Query.Answer Thrown Outcome) Query Query.Answer
    Thrown Outcome

/-- The statements of a configuration. -/
abbrev statementsOf (c : JournaledConfig) : World := c.world.1.statements

/-- The record of a thread. -/
abbrev recordOf (c : JournaledConfig) (t : Tid) :
    Option (Record Query Query.Answer Thrown Outcome) :=
  c.world.2 t

section Journal

variable {c c' : JournaledConfig} {l : Label Query} {t : Tid}

/-- The journal explains the event: it goes back to a call in the record of its
author. -/
def Explained (c : JournaledConfig) (id : Uuid) (e : Event) : Prop :=
  ∀ t, e.author = some t → ∃ record, recordOf c t = some record ∧
    ∃ answered ∈ record.trace, Logs t answered id e

theorem Explained.step {id : Uuid} {e : Event} (h : Explained c id e)
    (hreach : journaledService.Reachable c)
    (hstep : journaledService.Step l c c') : Explained c' id e := by
  intro t he
  obtain ⟨record, hrecord, answered, hmem, hlogs⟩ := h t he
  obtain ⟨record', hrecord', _, hprefix⟩ :=
    System.journaled_grows hreach hstep hrecord
  exact ⟨record', hrecord', answered, hprefix.subset hmem, hlogs⟩

/-- What happens by itself goes back to a call that had reported an error. -/
theorem Explained.drift {id : Uuid} {e : Event} {s : Statement}
    (h : ∀ e' ∈ (statementsOf c id).history, Explained c id e')
    (he : e.thread = none) (hs : Advance id e (statementsOf c id) s) :
    Explained c id e := by
  intro t hauthor
  cases hs with
  | @updated _ u now update late _ _ _ _ hlate =>
      cases late with
      | false => cases he
      | true =>
          cases hauthor
          have hpos : 0 < (statementsOf c id).history.count (.errored t update) := by
            have := (hlate rfl).2
            omega
          obtain ⟨record, hrecord, answered, hmem, hlogs⟩ :=
            h _ (List.count_pos_iff.mp hpos) t rfl
          cases hlogs
          exact ⟨record, hrecord, _, hmem, .landed⟩
  | deliveredLate hsent =>
      cases hauthor
      obtain ⟨record, hrecord, answered, hmem, hlogs⟩ := h _ hsent t rfl
      cases hlogs
      exact ⟨record, hrecord, _, hmem, .deliveredLate⟩
  | removed _ => cases hauthor
  | created | refused | errored | completed | sent | deleting => cases he

/-- Every event of every history goes back to a call in the journal. -/
theorem journal_explains (h : journaledService.Reachable c) (id : Uuid) :
    ∀ e ∈ (statementsOf c id).history, Explained c id e := by
  induction h with
  | @init world h =>
      intro e hmem
      have hworld : world.1.statements = fun _ => Statement.unused :=
        congrArg Store.statements h.1
      rw [statementsOf, hworld] at hmem
      cases hmem
  | @step c c' l hreach hstep ih =>
      have hnew : ∀ e, (statementsOf c' id).history =
          e :: (statementsOf c id).history → Explained c' id e →
            ∀ e' ∈ (statementsOf c' id).history, Explained c' id e' := by
        intro e hhistory he e' hmem
        rw [hhistory, List.mem_cons] at hmem
        rcases hmem with rfl | hmem
        · exact he
        · exact (ih e' hmem).step hreach hstep
      have hold : (statementsOf c' id).history = (statementsOf c id).history →
          ∀ e' ∈ (statementsOf c' id).history, Explained c' id e' := by
        intro hhistory e' hmem
        rw [hhistory] at hmem
        exact (ih e' hmem).step hreach hstep
      cases hstep with
      | @call _ t op resume answer world running executes =>
          rcases executes.1.extends id with hsame | ⟨e, hhistory, hlogs⟩
          · exact hold hsame
          · apply hnew e hhistory
            intro u hauthor
            have hut : u = t := by
              cases hlogs <;> exact (Option.some.inj hauthor).symm
            subst hut
            obtain ⟨record, hrecord, _⟩ :=
              (System.journaled_records hreach u).running _ running
            have hadded := Journal.add_self hrecord ⟨op, answer⟩
            rw [← executes.2] at hadded
            exact ⟨_, hadded, ⟨op, answer⟩, by simp, hlogs⟩
      | start _ starts =>
          apply hold
          rw [statementsOf, Config.move_world, starts.1.1]
      | crash _ crashes =>
          apply hold
          rw [statementsOf, Config.move_world, crashes.1]
      | @env _ world changes =>
          have hdrifts : Store.Drifts c.world.1 world.1 := changes.1
          generalize hw : world.1 = w at hdrifts
          cases hdrifts with
          | disconnected _ =>
              apply hold
              rw [statementsOf, hw]
              rfl
          | statements drifts _ =>
              rcases drifts.steps.statement id with hsame | ⟨e, he, hs⟩
              · apply hold
                rw [statementsOf, hw]
                exact congrArg Statement.history hsame
              · apply hnew e
                · rw [statementsOf, hw]
                  exact hs.history
                · exact (Explained.drift ih he hs).step hreach (.env changes)

end Journal

section Facts

/-- The statement exists and is past UPLOAD_PENDING, if it has not been deleted
by hand. -/
structure PastUpload (id : Uuid) (w : World) : Prop where
  created : ¬(w id).NeverCreated
  past : ∀ row, (w id).row = some row → row.status ≠ .uploadPending

/-- The row was read from this statement. -/
structure ReadFrom (id : Uuid) (row : StatementRecord) (w : World) : Prop where
  rowId : row.id = id
  created : ¬(w id).NeverCreated
  same : ∀ current, (w id).row = some current → SameUpload row current

variable {id : Uuid} {row : StatementRecord} {w w' : World}

/-- Nothing leads back to UPLOAD_PENDING. -/
theorem StatusChange.target_past {status status' : StatementStatus}
    (h : StatusChange status status') : status' ≠ .uploadPending := by
  cases h <;> decide

/-- Where the row of a statement that was created comes from. -/
theorem Advance.row_before {e : Event} {s s' : Statement}
    (hs : Advance id e s s') (hnever : ¬s.NeverCreated)
    {row' : StatementRecord} (hrow' : s'.row = some row') : ∃ row,
      s.row = some row ∧ (row' = row ∨ StatusChange row.status row'.status) ∧
        SameUpload row row' := by
  obtain ⟨row, hrow⟩ : ∃ row, s.row = some row := by
    cases hs with
    | created fresh _ _ _ => exact absurd fresh hnever
    | updated hrow _ _ | completed hrow _ => exact ⟨_, hrow⟩
    | refused _ | errored | sent _ | deliveredLate _ | deleting =>
        exact ⟨_, hrow'⟩
    | removed _ => cases hrow'
  obtain ⟨hchange, hsame⟩ := hs.row_change hrow hrow' hnever
  exact ⟨row, hrow, hchange, hsame⟩

/-- An UPLOAD_PENDING row is left by `markUploaded` alone. -/
theorem Update.Applies.of_pending {now : Time} {u : Update}
    {row' : StatementRecord} (h : u.Applies now row row')
    (hpending : row.status = .uploadPending) :
    u = .markUploaded ∧ row'.status = .uploaded := by
  cases h with
  | markUploaded _ => exact ⟨rfl, rfl⟩
  | markQueued h | reset h | claim h | reclaim h _ =>
      rw [hpending] at h
      cases h
  | markFailed h =>
      have hprocessing := (StatementRecord.claimedBy_iff.mp h).1
      rw [hpending] at hprocessing
      cases hprocessing

theorem Advance.leaves_pending {e : Event} {s s' : Statement}
    {row' : StatementRecord} (hs : Advance id e s s')
    (hrow : s.row = some row) (hpending : row.status = .uploadPending)
    (hnever : ¬s.NeverCreated) (hrow' : s'.row = some row')
    (hpassed : row'.status ≠ .uploadPending) : row'.status = .uploaded ∧
      ∃ t now late, e = .updated t now .markUploaded late := by
  cases hs with
  | created fresh _ _ _ => exact absurd fresh hnever
  | updated h applies _ =>
      cases h.symm.trans hrow
      cases hrow'
      obtain ⟨rfl, hstatus⟩ :=
        (Update.apply_eq_some_iff.mp applies).of_pending hpending
      exact ⟨hstatus, _, _, _, rfl⟩
  | completed h completes =>
      cases h.symm.trans hrow
      have hprocessing := (StatementRecord.claimedBy_iff.mp
        (StatementRecord.complete_eq_some_iff.mp completes).1).1
      rw [hpending] at hprocessing
      cases hprocessing
  | refused _ | errored | sent _ | deliveredLate _ | deleting =>
      cases hrow.symm.trans hrow'
      exact absurd hpending hpassed
  | removed _ => cases hrow'

theorem PastUpload.moves (h : PastUpload id w)
    (hmoves : w.Moves (fun _ => True) w') : PastUpload id w' := by
  have hkept := (hmoves id).preserves
    (K := fun s => ¬s.NeverCreated ∧
      ∀ row, s.row = some row → row.status ≠ .uploadPending)
    (fun {e a b} _ hs hK => by
      refine ⟨fun hb => hK.1 (hb.of_cons hs.history), fun row' hrow' => ?_⟩
      obtain ⟨row, hrow, hchange, _⟩ := hs.row_before hK.1 hrow'
      rcases hchange with rfl | hchange
      · exact hK.2 row' hrow
      · exact hchange.target_past)
    ⟨h.created, h.past⟩
  exact ⟨hkept.1, hkept.2⟩

theorem ReadFrom.moves (h : ReadFrom id row w)
    (hmoves : w.Moves (fun _ => True) w') : ReadFrom id row w' := by
  have hkept := (hmoves id).preserves
    (K := fun s => ¬s.NeverCreated ∧
      ∀ current, s.row = some current → SameUpload row current)
    (fun {e a b} _ hs hK => by
      refine ⟨fun hb => hK.1 (hb.of_cons hs.history), fun row' hrow' => ?_⟩
      obtain ⟨row, hrow, _, hsame⟩ := hs.row_before hK.1 hrow'
      exact (hK.2 row hrow).trans hsame)
    ⟨h.created, h.same⟩
  exact ⟨h.rowId, hkept.1, hkept.2⟩

theorem ReadFrom.of_row (hgenuine : Genuine id (w id))
    (hrow : (w id).row = some row) : ReadFrom id row w := by
  refine ⟨(hgenuine.belongs row hrow).id,
    hgenuine.fenced.not_neverCreated hrow, fun current hcurrent => ?_⟩
  cases hrow.symm.trans hcurrent
  exact .refl row

theorem AnsweredQuery.markUploaded_inj {id' : Uuid}
    {answer answer' : Except Thrown (List StatementRecord)}
    (h : AnsweredQuery.markUploaded id answer =
      AnsweredQuery.markUploaded id' answer') : id = id' ∧ answer = answer' := by
  obtain ⟨hop, hanswer⟩ := Async.Answered.mk.inj h
  have hid : id = id' := (Request.updateStatement.inj (Query.request.inj hop)).1
  subst hid
  exact ⟨rfl, eq_of_heq hanswer⟩

/-- The statement has been read. -/
def Seen (id : Uuid) (trace : List AnsweredQuery) : Prop :=
  ∃ (rows : List StatementRecord) (row : StatementRecord),
    .findById id (.ok rows) ∈ trace ∧ row ∈ rows

/-- `markUploaded` has matched no row of a statement that had been read. -/
def Refused (id : Uuid) (trace : List AnsweredQuery) : Prop :=
  ∃ earlier later, trace = earlier ++ .markUploaded id (.ok []) :: later ∧
    Seen id earlier

/-- What an answer says about the statements from then on. -/
structure Learned (w : World) (before : List AnsweredQuery)
    (answered : AnsweredQuery) : Prop where
  read : ∀ (id : Uuid) (rows : List StatementRecord),
    answered = .findById id (.ok rows) → ∀ row ∈ rows, ReadFrom id row w ∧
      (row.status ≠ .uploadPending → PastUpload id w) ∧
      (Refused id before → row.status ≠ .uploadPending)
  marked : ∀ (id : Uuid) (rows : List StatementRecord),
    answered = .markUploaded id (.ok rows) → ∀ row ∈ rows, row.id = id ∧
      row.status = .uploaded ∧ PastUpload id w
  refused : ∀ id : Uuid, answered = .markUploaded id (.ok []) →
    Seen id before → PastUpload id w

variable {before : List AnsweredQuery} {answered : AnsweredQuery}

theorem Learned.moves (h : Learned w before answered)
    (hmoves : w.Moves (fun _ => True) w') : Learned w' before answered := by
  refine ⟨fun id rows hread row hrow => ?_, fun id rows hmarked row hrow => ?_,
    fun id hrefused hseen => (h.refused id hrefused hseen).moves hmoves⟩
  · obtain ⟨hfrom, hpast, hlater⟩ := h.read id rows hread row hrow
    exact ⟨hfrom.moves hmoves, fun hstatus => (hpast hstatus).moves hmoves,
      hlater⟩
  · obtain ⟨hid, hstatus, hpast⟩ := h.marked id rows hmarked row hrow
    exact ⟨hid, hstatus, hpast.moves hmoves⟩

/-- An answer that is neither a read nor an upload teaches nothing. -/
theorem Learned.of_other
    (hread : ∀ id rows, answered ≠ .findById id (.ok rows))
    (hmarked : ∀ id rows, answered ≠ .markUploaded id (.ok rows)) :
    Learned w before answered :=
  ⟨fun id rows h => absurd h (hread id rows),
    fun id rows h => absurd h (hmarked id rows),
    fun id h => absurd h (hmarked id [])⟩

theorem Refused.past (h : Refused id before) (heach : Each (Learned w) before) :
    PastUpload id w := by
  obtain ⟨earlier, later, hsplit, hseen⟩ := h
  exact (heach earlier _ later hsplit).refused id rfl hseen

/-- What a read teaches. -/
theorem Learned.of_read {rows : List StatementRecord}
    (hgenuine : Genuine id (w id)) (hrows : rows = (w id).row.toList)
    (heach : Each (Learned w) before) :
    Learned w before (.findById id (.ok rows)) := by
  refine ⟨fun id' rows' hread row hmem => ?_, fun id' rows' hmarked => ?_,
    fun id' hmarked => ?_⟩
  · cases hread
    rw [hrows, Option.mem_toList] at hmem
    have hfrom := ReadFrom.of_row hgenuine hmem
    refine ⟨hfrom, fun hstatus => ⟨hfrom.created, fun current hcurrent => ?_⟩,
      fun hrefused => (hrefused.past heach).past row hmem⟩
    cases hmem.symm.trans hcurrent
    exact hstatus
  · cases hmarked
  · cases hmarked

/-- An UPDATE that reports no error has matched the row or has not. -/
theorem Updates.reported {t : Tid} {u : Update} {rows : List u.Returned}
    (h : Updates t id u w (.ok rows) w') :
    (∃ now row s, Advance id (.updated t now u false) (w id) s ∧
      s.row = some row ∧ rows = [u.returning now row] ∧ w' = w.set id s) ∨
    ∃ now s, Advance id (.refused t now u) (w id) s ∧ rows = [] ∧
      w' = w.set id s := by
  cases h with
  | served _ hs hrow => exact .inl ⟨_, _, _, hs, hrow, rfl, rfl⟩
  | refused hs => exact .inr ⟨_, _, hs, rfl, rfl⟩

/-- What `markUploaded` teaches. -/
theorem Learned.of_markUploaded {t : Tid} {w₀ : World}
    {answer : Except Thrown (List StatementRecord)}
    (hgenuine : Genuine id (w id))
    (hexec : Updates t id .markUploaded w₀ answer w)
    (heach : Each (Learned w) before) :
    Learned w before (.markUploaded id answer) := by
  refine ⟨fun id' rows hread => ?_, fun id' rows hmarked row hmem => ?_,
    fun id' hmarked hseen => ?_⟩
  · cases hread
  · obtain ⟨rfl, rfl⟩ := AnsweredQuery.markUploaded_inj hmarked
    rcases hexec.reported with ⟨now, row', s, hs, hrow, rfl, rfl⟩ |
      ⟨now, s, hs, rfl, rfl⟩
    · rw [World.set_self] at hgenuine
      cases List.mem_singleton.mp hmem
      have hstatus : row'.status = .uploaded := by
        cases hs with
        | updated _ applies _ =>
            cases hrow
            cases Update.apply_eq_some_iff.mp applies
            rfl
      refine ⟨(hgenuine.belongs row' hrow).id, hstatus, ?_, ?_⟩
      · rw [World.set_self]
        exact hgenuine.fenced.not_neverCreated hrow
      · intro current hcurrent
        rw [World.set_self, hrow] at hcurrent
        cases hcurrent
        rw [hstatus]
        decide
    · cases hmem
  · obtain ⟨rfl, rfl⟩ := AnsweredQuery.markUploaded_inj hmarked
    obtain ⟨rows, row, hread, hrow⟩ := hseen
    obtain ⟨_, hlearned⟩ := heach.of_mem hread
    have hfrom := ((hlearned.read id rows rfl) row hrow).1
    refine ⟨hfrom.created, fun current hcurrent hpending => ?_⟩
    rcases hexec.reported with ⟨_, _, _, _, _, hrows, _⟩ |
      ⟨now, s, hs, _, rfl⟩
    · cases hrows
    · rw [World.set_self] at hcurrent
      cases hs with
      | refused hnone =>
          have hnone := hnone current hcurrent
          rw [Update.apply, if_pos hpending] at hnone
          cases hnone

end Facts

section Gate

variable {c c' : JournaledConfig} {l : Label Query} {t : Tid}

/-- The object of the statement was looked at and is the one that was
registered. -/
def LookedAt (statement : StatementRecord) (trace : List AnsweredQuery) : Prop :=
  ∃ metadata : ObjectMetadata, metadata.Matches statement ∧
    AnsweredQuery.headObject statement.s3Key (.ok metadata) ∈ trace

/-- What a verified request has read. -/
theorem Verified.learned {id : Uuid} {statement : StatementRecord} {w : World}
    {earlier later : List AnsweredQuery} (h : Verified id statement earlier)
    (heach : Each (Learned w) (earlier ++ later)) : ReadFrom id statement w ∧
      Seen id earlier ∧ LookedAt statement (earlier ++ later) := by
  cases h with
  | @verified rows metadata hread _ hmatches =>
      have hmem := List.mem_of_mem_head? hread
      have hlearned := heach [] (.findById id (.ok rows)) _ rfl
      exact ⟨(hlearned.read id rows rfl statement hmem).1,
        ⟨rows, statement, by simp, hmem⟩, metadata, hmatches, by simp⟩

/-- What a thread has learned stays true. -/
theorem journal_learned (h : journaledService.Reachable c)
    {record : Record Query Query.Answer Thrown Outcome}
    (hrecord : recordOf c t = some record) :
    Each (Learned (statementsOf c)) record.trace := by
  refine System.journaled_each (P := fun w => Learned w.statements) ?_ ?_ h hrecord
  · intro b b' l before answered hreach hstep hlearned
    obtain ⟨_, _, hsteps⟩ := repository_step hreach hstep
    exact hlearned.moves (hsteps.moves fun _ _ _ => trivial)
  · intro b b' l u op answer before hreach hstep hexec heach
    have hgenuine := repository_genuine (hreach.step hstep)
    have hother : (∀ id, op ≠ .request (.selectStatement id)) →
        (∀ id, op ≠ .request (.updateStatement id .markUploaded)) →
          Learned b'.world.statements before ⟨op, answer⟩ := by
      intro hread hmarked
      apply Learned.of_other
      · intro id rows heq
        exact hread id (Async.Answered.mk.inj heq).1
      · intro id rows heq
        exact hmarked id (Async.Answered.mk.inj heq).1
    cases op with
    | connect | client _ | release => exact hother (by simp) (by simp)
    | request r =>
        generalize hw : b'.world = w at hexec hgenuine heach hother ⊢
        cases hexec with
        | request executes _ =>
            by_cases hread : ∃ id, r = .selectStatement id
            · obtain ⟨id, rfl⟩ := hread
              obtain ⟨rfl, hrows⟩ := executes
              cases answer with
              | error error =>
                  exact .of_other (by rintro _ _ ⟨⟩) (by rintro _ _ ⟨⟩)
              | ok rows => exact .of_read (hgenuine id) (hrows rows rfl) heach
            by_cases hmarked : ∃ id, r = .updateStatement id .markUploaded
            · obtain ⟨id, rfl⟩ := hmarked
              exact .of_markUploaded (hgenuine id) executes heach
            · apply hother
              · intro id heq
                exact hread ⟨id, Query.request.inj heq⟩
              · intro id heq
                exact hmarked ⟨id, Query.request.inj heq⟩

/-- A thread whose record belongs to an upload request has kept to its calls,
and so has its answer. -/
theorem journal_lawful (h : journaledService.Reachable c) {id : Uuid}
    {record : Record Query Query.Answer Thrown Outcome}
    (hrecord : recordOf c t = some record)
    (hprogram : record.program = uploadRequest id) :
    Each (fun before answered => UploadCall id before answered.op)
      record.trace ∧
    ∀ result, record.program.Run record.trace result →
      UploadAnswer id record.trace result := by
  obtain ⟨_, q, hresumes⟩ := (System.journaled_records h t).started _ hrecord
  rw [hprogram] at hresumes ⊢
  refine ⟨?_, fun result hrun => ?_⟩
  · simpa using (hresumes.lawful (uploadRequest_lawful id)).1
  · simpa using (hrun.lawful (uploadRequest_lawful id)).2

/-- Whoever has sent `markUploaded` for a statement is an upload request on it
that had verified the upload. -/
theorem journal_marked (h : journaledService.Reachable c) {id : Uuid}
    {record : Record Query Query.Answer Thrown Outcome}
    (hrecord : recordOf c t = some record) {answered : AnsweredQuery}
    (hmem : answered ∈ record.trace)
    (hop : answered.op = .request (.updateStatement id .markUploaded)) :
    record.program = uploadRequest id ∧ ∃ statement,
      ReadFrom id statement (statementsOf c) ∧
        LookedAt statement record.trace := by
  obtain ⟨⟨w, w', _, _, p, hprogram, hserves⟩, q, hresumes⟩ :=
    (System.journaled_records h t).started _ hrecord
  rcases hserves.upload_or_keeps with ⟨id', rfl⟩ | hkeeps
  · have hprogram : record.program = uploadRequest id' := hprogram
    obtain ⟨before, after, hsplit⟩ := List.append_of_mem hmem
    have hcall : UploadCall id' before answered.op :=
      (journal_lawful h hrecord hprogram).1 before _ after hsplit
    have hlearned := journal_learned h hrecord
    rw [hop] at hcall
    rw [hsplit] at hlearned ⊢
    generalize hother : Query.request (.updateStatement id .markUploaded) = q
      at hcall
    cases hcall with
    | findById | headObject _ _ | findAgain _ => cases hother
    | @markUploaded statement _ hverified =>
        obtain ⟨hfrom, _, hlooked⟩ := hverified.learned hlearned
        have hid : id = statement.id :=
          (Request.updateStatement.inj (Query.request.inj hother)).1
        rw [hfrom.rowId] at hid
        subst hid
        exact ⟨hprogram, statement, hfrom, hlooked⟩
  · rw [hprogram] at hresumes
    exact absurd ⟨id, hop⟩ (hresumes.calls hkeeps.interp answered hmem)

/-- Thread `t` runs an upload request on `id`. -/
def Uploads (c : JournaledConfig) (t : Tid) (id : Uuid)
    (record : Record Query Query.Answer Thrown Outcome) : Prop :=
  recordOf c t = some record ∧ record.program = uploadRequest id

/-- The upload request of thread `t` on `id` has answered. -/
def UploadAnswers (c : JournaledConfig) (t : Tid) (id : Uuid)
    (response : Response) : Prop :=
  ∃ record, Uploads c t id record ∧
    record.program.Run record.trace (.ok (.responded response))

theorem Uploads.answers (h : journaledService.Reachable c) {id : Uuid}
    {record : Record Query Query.Answer Thrown Outcome} {response : Response}
    (huploads : Uploads c t id record)
    (hsettled : c.threads t = .running (.settled (.ok (.responded response)))) :
    UploadAnswers c t id response := by
  obtain ⟨record', hrecord, hresumes⟩ :=
    (System.journaled_records h t).running _ hsettled
  cases huploads.1.symm.trans hrecord
  exact ⟨record, huploads, hresumes.run⟩

/-- A step that takes a statement out of UPLOAD_PENDING is the update of an
upload request on it that has looked at its object. -/
theorem upload_passed (h : journaledService.Reachable c)
    (hstep : journaledService.Step l c c') {id : Uuid}
    {row row' : StatementRecord} (hrow : (statementsOf c id).row = some row)
    (hpending : row.status = .uploadPending)
    (hrow' : (statementsOf c' id).row = some row')
    (hpassed : row'.status ≠ .uploadPending) :
    row'.status = .uploaded ∧ ∃ t now late record,
      (statementsOf c' id).history =
        .updated t now .markUploaded late :: (statementsOf c id).history ∧
      Uploads c' t id record ∧ LookedAt row record.trace := by
  have hreach := System.journaled_reachable h
  obtain ⟨_, _, hsteps⟩ :=
    repository_step hreach (System.journaled_step hstep)
  have hfenced := (repository_genuine hreach id).fenced
  have hnever := hfenced.not_neverCreated hrow
  rcases hsteps.statement id with hsame | ⟨e, _, hs⟩
  · have hsame : statementsOf c' id = statementsOf c id := hsame
    rw [hsame, hrow] at hrow'
    cases hrow'
    exact absurd hpending hpassed
  have hs : Advance id e (statementsOf c id) (statementsOf c' id) := hs
  obtain ⟨hstatus, t, now, late, rfl⟩ :=
    hs.leaves_pending hrow hpending hnever hrow' hpassed
  have hreach' := h.step hstep
  have hmem : Event.updated t now .markUploaded late ∈
      (statementsOf c' id).history := by
    rw [hs.history]
    exact List.mem_cons_self
  obtain ⟨record, hrecord, answered, hanswered, hlogs⟩ :=
    journal_explains hreach' id _ hmem t rfl
  have hop : answered.op = .request (.updateStatement id .markUploaded) := by
    cases hlogs <;> rfl
  obtain ⟨hprogram, statement, hfrom, metadata, hmatches, hlooked⟩ :=
    journal_marked hreach' hrecord hanswered hop
  have hsame := hfrom.same row' hrow'
  have hkept := (hs.row_change hrow hrow' hnever).2
  refine ⟨hstatus, t, now, late, record, hs.history, ⟨hrecord, hprogram⟩,
    metadata, ?_, ?_⟩
  · refine ⟨?_, ?_⟩
    · rw [hmatches.contentType, ← hsame.contentType, hkept.contentType]
    · rw [hmatches.contentLength, ← hsame.contentLength, hkept.contentLength]
  · rw [← hkept.s3Key, hsame.s3Key]
    exact hlooked

/-- What an upload request can leave in a history. -/
theorem UploadCall.logs {id other : Uuid} {before : List AnsweredQuery}
    {answered : AnsweredQuery} {e : Event}
    (hcall : UploadCall id before answered.op) (hlogs : Logs t answered other e) :
    (∃ now late, e = .updated t now .markUploaded late) ∨
      (∃ now, e = .refused t now .markUploaded) ∨
        e = .errored t .markUploaded := by
  cases hlogs with
  | updated | landed =>
      cases hcall
      exact .inl ⟨_, _, rfl⟩
  | refused =>
      cases hcall
      exact .inr (.inl ⟨_, rfl⟩)
  | errored =>
      cases hcall
      exact .inr (.inr rfl)
  | created | completed | sent | deliveredLate | deleting => cases hcall

/-- An upload request only ever moves a statement from UPLOAD_PENDING to
UPLOADED. -/
theorem upload_forward (h : journaledService.Reachable c)
    (hstep : journaledService.Step l c c') {id other : Uuid} {e : Event}
    {record : Record Query Query.Answer Thrown Outcome}
    (huploads : Uploads c' t id record) (hauthor : e.author = some t)
    (hhistory : (statementsOf c' other).history =
      e :: (statementsOf c other).history) :
    (statementsOf c' other).row = (statementsOf c other).row ∨
    ∃ row row', (statementsOf c other).row = some row ∧
      row.status = .uploadPending ∧
      (statementsOf c' other).row = some row' ∧ row'.status = .uploaded := by
  have hreach' := h.step hstep
  have hmem : e ∈ (statementsOf c' other).history := by
    rw [hhistory]
    exact List.mem_cons_self
  obtain ⟨record', hrecord, answered, hanswered, hlogs⟩ :=
    journal_explains hreach' other e hmem t hauthor
  cases huploads.1.symm.trans hrecord
  obtain ⟨before, after, hsplit⟩ := List.append_of_mem hanswered
  have hcall : UploadCall id before answered.op :=
    (journal_lawful hreach' hrecord huploads.2).1 before _ after hsplit
  obtain ⟨_, _, hsteps⟩ := repository_step (System.journaled_reachable h)
    (System.journaled_step hstep)
  rcases hsteps.statement other with hsame | ⟨e', _, hs⟩
  · exact .inl (congrArg Statement.row hsame)
  · have hs : Advance other e' (statementsOf c other) (statementsOf c' other) := hs
    rw [hs.history, List.cons_eq_cons] at hhistory
    obtain ⟨rfl, _⟩ := hhistory
    generalize statementsOf c' other = s' at hs ⊢
    rcases hcall.logs hlogs with ⟨now, late, rfl⟩ | ⟨now, rfl⟩ | rfl
    · cases hs with
      | updated hrow applies _ =>
          cases Update.apply_eq_some_iff.mp applies with
          | markUploaded hpending => exact .inr ⟨_, _, hrow, hpending, rfl, rfl⟩
    · cases hs
      exact .inl rfl
    · cases hs
      exact .inl rfl

/-- A 404 or a 409 has written nothing. -/
theorem upload_refusal (h : journaledService.Reachable c) {id : Uuid}
    {response : Response} (hanswers : UploadAnswers c t id response)
    (hstatus : response.status = 404 ∨ response.status = 409) {other : Uuid}
    {e : Event} (hmem : e ∈ (statementsOf c other).history)
    (hauthor : e.author = some t) :
    ∃ now, e = .refused t now .markUploaded := by
  obtain ⟨record, ⟨hrecord, hprogram⟩, hrun⟩ := hanswers
  obtain ⟨record', hrecord', answered, hanswered, hlogs⟩ :=
    journal_explains h other e hmem t hauthor
  cases hrecord.symm.trans hrecord'
  have hanswer := (journal_lawful h hrecord hprogram).2 _ hrun
  rcases hanswer.refusal response rfl hstatus with hunwritten |
    ⟨marked, rows, row, hmarked, hrow, hfailed⟩
  · cases hunwritten answered hanswered with
    | findById | headObject => cases hlogs
    | refused =>
        cases hlogs with
        | refused => exact ⟨_, rfl⟩
  · obtain ⟨_, hlearned⟩ := (journal_learned h hrecord).of_mem hmarked
    have hstatus := (hlearned.marked marked rows rfl row hrow).2.1
    rw [hfailed] at hstatus
    cases hstatus

theorem Reported.learned {id : Uuid} {found : StatementRecord} {w : World}
    {trace : List AnsweredQuery} (h : Reported id found trace)
    (heach : Each (Learned w) trace) :
    found.id = id ∧ found.status ≠ .uploadPending ∧ PastUpload id w := by
  cases h with
  | @read rows hread hpending =>
      have hlearned := heach [] _ [] rfl
      obtain ⟨hfrom, hpast, _⟩ :=
        hlearned.read id rows rfl found (List.mem_of_mem_head? hread)
      exact ⟨hfrom.rowId, hpending, hpast hpending⟩
  | @marked statement rows earlier hverified hmarked =>
      obtain ⟨hfrom, _, _⟩ := hverified.learned heach
      have hlearned := heach earlier _ [] rfl
      obtain ⟨hid, hstatus, hpast⟩ := hlearned.marked statement.id rows rfl
        found (List.mem_of_mem_head? hmarked)
      rw [hfrom.rowId] at hid hpast
      refine ⟨hid, ?_, hpast⟩
      rw [hstatus]
      decide
  | @readAgain statement rows earlier hverified hread =>
      obtain ⟨hfrom, hseen, _⟩ := hverified.learned heach
      have hlearned := heach (earlier ++ [.markUploaded statement.id (.ok [])])
        (.findById statement.id (.ok rows)) [] (by simp)
      obtain ⟨hread, hpast, hlater⟩ := hlearned.read statement.id rows rfl found
        (List.mem_of_mem_head? hread)
      rw [hfrom.rowId] at hread hpast hlater
      have hstatus := hlater ⟨earlier, [], rfl, hseen⟩
      exact ⟨hread.rowId, hstatus, hpast hstatus⟩

/-- A 200 reports a statement that is past UPLOAD_PENDING and stays so. -/
theorem upload_success (h : journaledService.Reachable c) {id : Uuid}
    {response : Response} (hanswers : UploadAnswers c t id response)
    (hstatus : response.status = 200) : ∃ status,
      response.body = .uploadStatus id status ∧ status ≠ .uploadPending ∧
      status ≠ .failed ∧ PastUpload id (statementsOf c) := by
  obtain ⟨record, ⟨hrecord, hprogram⟩, hrun⟩ := hanswers
  have hanswer := (journal_lawful h hrecord hprogram).2 _ hrun
  obtain ⟨found, hbody, hfailed, hreported⟩ :=
    hanswer.success response rfl hstatus
  obtain ⟨hid, hpending, hpast⟩ :=
    hreported.learned (journal_learned h hrecord)
  rw [hid] at hbody
  exact ⟨found.status, hbody, hpending, hfailed, hpast⟩

/-- A request that first reads a statement past UPLOAD_PENDING calls nothing
after that. -/
theorem upload_repeated (h : journaledService.Reachable c) {id : Uuid}
    {record : Record Query Query.Answer Thrown Outcome}
    (huploads : Uploads c t id record) {rows : List StatementRecord}
    {row : StatementRecord} {rest : List AnsweredQuery}
    (htrace : record.trace = .findById id (.ok rows) :: rest)
    (hrow : rows.head? = some row) (hpast : row.status ≠ .uploadPending) :
    rest = [] := by
  cases rest with
  | nil => rfl
  | cons answered rest =>
      exfalso
      have hcall : UploadCall id [.findById id (.ok rows)] answered.op :=
        (journal_lawful h huploads.1 huploads.2).1 [.findById id (.ok rows)]
          answered rest htrace
      generalize answered.op = op at hcall
      generalize hbefore : [AnsweredQuery.findById id (.ok rows)] = before at hcall
      cases hcall with
      | findById => cases hbefore
      | headObject hread hpending =>
          cases hbefore
          cases hrow.symm.trans hread
          exact hpast hpending
      | markUploaded hverified =>
          cases hverified
          cases hbefore
      | findAgain hverified =>
          cases hverified
          cases hbefore

/-- The gate of the upload, in a run of the service with its journal. -/
structure UploadGate (c : JournaledConfig) : Prop where
  passed : ∀ l c' id row row', journaledService.Step l c c' →
    (statementsOf c id).row = some row → row.status = .uploadPending →
    (statementsOf c' id).row = some row' → row'.status ≠ .uploadPending →
      row'.status = .uploaded ∧ ∃ t now late record,
        (statementsOf c' id).history =
          .updated t now .markUploaded late :: (statementsOf c id).history ∧
        Uploads c' t id record ∧ LookedAt row record.trace
  refusals : ∀ t id response, UploadAnswers c t id response →
    response.status = 404 ∨ response.status = 409 →
      ∀ other, ∀ e ∈ (statementsOf c other).history, e.author = some t →
        ∃ now, e = .refused t now .markUploaded
  successes : ∀ t id response, UploadAnswers c t id response →
    response.status = 200 → ∃ status,
      response.body = .uploadStatus id status ∧ status ≠ .uploadPending ∧
      status ≠ .failed ∧ PastUpload id (statementsOf c)
  forward : ∀ l c' t id record, journaledService.Step l c c' →
    Uploads c' t id record → ∀ other e, e.author = some t →
      (statementsOf c' other).history = e :: (statementsOf c other).history →
        (statementsOf c' other).row = (statementsOf c other).row ∨
        ∃ row row', (statementsOf c other).row = some row ∧
          row.status = .uploadPending ∧
          (statementsOf c' other).row = some row' ∧ row'.status = .uploaded
  repeats : ∀ t id record rows row rest, Uploads c t id record →
    record.trace = AnsweredQuery.findById id (.ok rows) :: rest →
    rows.head? = some row → row.status ≠ .uploadPending → rest = []

/-- In every run of upload requests, other requests, workers and uploads to the
object store, whatever fails and however they interleave, the upload of a
statement is confirmed only by a request that has verified it. -/
theorem service_uploadGate (h : journaledService.Reachable c) : UploadGate c where
  passed _ _ _ _ _ hstep := upload_passed h hstep
  refusals _ _ _ hanswers hstatus _ _ := upload_refusal h hanswers hstatus
  successes _ _ _ := upload_success h
  forward _ _ _ _ _ hstep huploads _ _ := upload_forward h hstep huploads
  repeats _ _ _ _ _ _ huploads := upload_repeated h huploads

/-- The upload of the first statement is confirmed by the only request that is
made for it. -/
theorem service_uploadGate_sampleRow : ∃ (c : JournaledConfig) (t : Tid)
    (record : Record Query Query.Answer Thrown Outcome),
    journaledService.Reachable c ∧ Uploads c t ⟨0⟩ record ∧
      LookedAt sampleRow record.trace := by
  obtain ⟨_, _, h⟩ := at_created
  obtain ⟨_, h⟩ := h.next (.completeUpload (some ⟨0⟩))
  obtain ⟨_, h⟩ := At.silent (.selectStatement _) (.ok [sampleRow]) h
    ⟨rfl, by rintro _ ⟨⟩; rfl⟩
  obtain ⟨c, h⟩ := At.silent (.headObject _)
    (.ok ⟨some (js "image/png"), 1⟩) h rfl
  obtain ⟨journal, hjournal⟩ := System.reachable_journaled h.reachable
  obtain ⟨_, hworld, hrunning, _⟩ := h
  have hrow : (c.world.statements ⟨0⟩).row = some sampleRow := by
    rw [hworld]
    rfl
  have hexec : Query.Exec 1 (.request (.updateStatement ⟨0⟩ .markUploaded))
      c.world (.ok [_]) _ :=
    .request (@Updates.served _ _ _ _ 1 _ _ rfl (.updated hrow rfl (by simp)) rfl)
      (by rw [hworld]; exact fun _ hid => absurd rfl hid)
  obtain ⟨journal', hstep⟩ := System.step_journaled
    (.call (S := querySystem repository Serves) hrunning hexec) journal
  obtain ⟨_, t, now, late, record, _, huploads, hlooked⟩ :=
    (service_uploadGate hjournal).passed _ _ ⟨0⟩ sampleRow _ hstep
      hrow rfl rfl (by decide)
  exact ⟨_, t, record, hjournal.step hstep, huploads, hlooked⟩

end Gate

end StatementAnalyzer
