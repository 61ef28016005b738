/-
What a client sees that asks for a statement again and again while the service
runs over its pool.
-/
import StatementAnalyzer.Api.StatementView
import StatementAnalyzer.Async.Traces
import StatementAnalyzer.Service.OverPool
import StatementAnalyzer.Service.Provenance

namespace StatementAnalyzer

open Async

section Rows

variable {id : Uuid} {P : Event → Prop} {s s' : Statement}
variable {row : StatementRecord}

/-- A later row of the same statement. -/
structure StatementRecord.Precedes (row row' : StatementRecord) : Prop where
  upload : SameUpload row row'
  status : Relation.ReflTransGen StatusChange row.status row'.status
  finished : row.status.isTerminal = true → row' = row

theorem StatementRecord.Precedes.refl (row : StatementRecord) :
    row.Precedes row :=
  ⟨.refl row, .refl, fun _ => rfl⟩

/-- A deleted row is never inserted again. -/
theorem Advance.row_of_deleted {e : Event} (hs : Advance id e s s')
    (hcreated : ¬s.NeverCreated) (hnone : s.row = none) : s'.row = none := by
  have hsettled : s.Settled := by
    refine ⟨hcreated, fun row hrow => ?_⟩
    rw [hnone] at hrow
    cases hrow
  rcases hs.row_of_settled hsettled with hsame | hdeleted
  · exact hsame.trans hnone
  · exact hdeleted

/-- Whatever happens to a statement, its row only moves on or is deleted. -/
theorem Evolves.precedes (h : Evolves id P s s') (hrow : s.row = some row)
    (hnever : ¬s.NeverCreated) :
    ¬s'.NeverCreated ∧
      (s'.row = none ∨ ∃ row', s'.row = some row' ∧ row.Precedes row') := by
  apply h.preserves (K := fun s₁ => ¬s₁.NeverCreated ∧
    (s₁.row = none ∨ ∃ row', s₁.row = some row' ∧ row.Precedes row'))
  · rintro e a b _ hadvance ⟨hcreated, hkept⟩
    have hcreated' : ¬b.NeverCreated :=
      fun hb => hcreated (hb.of_cons hadvance.history)
    refine ⟨hcreated', ?_⟩
    cases hb : b.row with
    | none => exact .inl rfl
    | some row₂ =>
        right
        rcases hkept with hnone | ⟨row₁, hrow₁, hprecedes⟩
        · have hdeleted := hadvance.row_of_deleted hcreated hnone
          rw [hdeleted] at hb
          cases hb
        · obtain ⟨hchange, hupload⟩ := hadvance.row_change hrow₁ hb hcreated
          refine ⟨row₂, rfl, hprecedes.upload.trans hupload, ?_, fun hterminal => ?_⟩
          · rcases hchange with rfl | hchange
            · exact hprecedes.status
            · exact hprecedes.status.tail hchange
          · have hsame := hprecedes.finished hterminal
            rcases hchange with rfl | hchange
            · exact hsame
            · have hopen := hchange.source_open
              rw [hsame, hterminal] at hopen
              cases hopen
  · exact ⟨hnever, .inr ⟨row, hrow, .refl row⟩⟩

theorem Evolves.deleted (h : Evolves id P s s') (hnone : s.row = none)
    (hnever : ¬s.NeverCreated) : s'.row = none := by
  have hkept := h.preserves (K := fun s₁ => ¬s₁.NeverCreated ∧ s₁.row = none)
    (by
      rintro e a b _ hadvance ⟨hcreated, hnone⟩
      exact ⟨fun hb => hcreated (hb.of_cons hadvance.history),
        hadvance.row_of_deleted hcreated hnone⟩) ⟨hnever, hnone⟩
  exact hkept.2

end Rows

section Views

variable {timestamp : TimestampReader}
variable {c c' : Config (Store × ApiPool) Query Query.Answer Thrown Outcome}
variable {id : Uuid} {response : StatementResponse}
variable {view view' : PublicStatement}

/-- `GET /statements/:id` can be answered like this in this state.  It sends
one query, so it does not matter what happens while it runs. -/
def Shows (timestamp : TimestampReader)
    (c : Config (Store × ApiPool) Query Query.Answer Thrown Outcome) (id : Uuid)
    (response : StatementResponse) : Prop :=
  ∃ (t : Tid) (answer : Except Thrown (List StatementRecord)) (w : _),
    pooledService.exec t (.request (.selectStatement id)) c.world answer w ∧
    (getStatement timestamp (some id)).Run
      [⟨.request (.selectStatement id), answer⟩] (.ok response)

/-- While the pool is not spoiled, the answer is that of the table. -/
theorem shows_iff (hsafe : ¬c.world.2.Spoiled) :
    Shows timestamp c id response ↔
      response = .refused dependencyUnavailable ∨
      ((c.world.1.statements id).row = none ∧
        response = .refused statementNotFound) ∨
      ∃ row, (c.world.1.statements id).row = some row ∧
        response = .statement (toPublicStatement timestamp row) := by
  constructor
  · rintro ⟨t, answer, ⟨w, _⟩, ⟨_, hexec⟩, hrun⟩
    obtain ⟨_, _, heq, hrest⟩ := Proc.run_await_iff.mp hrun
    cases heq
    cases answer with
    | error error =>
        cases (Proc.run_settled_iff.mp hrest).2
        exact .inl rfl
    | ok rows =>
        right
        have hrows : rows = (c.world.1.statements id).row.toList := by
          rcases hexec with hspoiled | hexec
          · exact absurd hspoiled hsafe
          · cases hexec with
            | request executes _ => exact executes.2 rows rfl
        rw [hrows] at hrest
        cases hrow : (c.world.1.statements id).row with
        | none =>
            rw [hrow] at hrest
            cases (Proc.run_settled_iff.mp hrest).2
            exact .inl ⟨rfl, rfl⟩
        | some row =>
            rw [hrow] at hrest
            cases (Proc.run_settled_iff.mp hrest).2
            exact .inr ⟨row, rfl, rfl⟩
  · have hserved : ∀ answer : Except Thrown (List StatementRecord),
        (∀ rows, answer = .ok rows →
          rows = (c.world.1.statements id).row.toList) →
        pooledService.exec 0 (.request (.selectStatement id)) c.world answer
          c.world := fun answer hrows =>
      ⟨rfl, .inr (.request ⟨rfl, hrows⟩ fun _ _ => ⟨rfl, rfl⟩)⟩
    rintro (rfl | ⟨hrow, rfl⟩ | ⟨row, hrow, rfl⟩)
    · exact ⟨0, .error plainError, _, hserved _ (by rintro _ ⟨⟩),
        .await .settled⟩
    · refine ⟨0, .ok [], _, hserved _ ?_, .await .settled⟩
      rintro _ ⟨⟩
      rw [hrow]
      rfl
    · refine ⟨0, .ok [row], _, hserved _ ?_, .await .settled⟩
      rintro _ ⟨⟩
      rw [hrow]
      rfl

/-- A view that agrees with itself, and says nothing that the service has not
computed. -/
structure PublicStatement.Sound (view : PublicStatement) (id : Uuid) : Prop where
  statementId : view.statementId = id
  targetMonth : targetMonthSchema view.targetMonth = some view.targetMonth
  processed : view.processedAt.isSome = true ↔ view.status = .completed
  failed : view.failure.isSome = true ↔ view.status = .failed
  failure : ∀ failure, view.failure = some failure →
    failure.code ≠ .processingFailed ∧
      (failure.code, failure.message) ∈ PUBLIC_FAILURE_MESSAGES

/-- A later view of the same statement. -/
structure PublicStatement.Precedes (view view' : PublicStatement) : Prop where
  statementId : view'.statementId = view.statementId
  targetMonth : view'.targetMonth = view.targetMonth
  status : Relation.ReflTransGen StatusChange view.status view'.status
  finished : view.status.isTerminal = true → view' = view

theorem length_of_isTargetMonth {value : JsString}
    (h : isTargetMonth value = true) : value.length = 7 := by
  unfold isTargetMonth at h
  split at h
  · rfl
  · cases h

theorem StatementRecord.Provenance.sound {row : StatementRecord}
    (h : row.Provenance id) (hconsistent : row.Consistent) :
    (toPublicStatement timestamp row).Sound id where
  statementId := h.id
  targetMonth := by
    obtain ⟨month, hmonth, hcolumn⟩ := h.targetMonth
    obtain ⟨_, hvalid, _⟩ := targetMonthSchema_eq_some_iff.mp hmonth
    have htake : (month ++ js "-01").take 7 = month :=
      List.take_left' (length_of_isTargetMonth hvalid)
    rw [toPublicStatement, hcolumn, htake]
    exact hmonth
  processed := by
    rw [toPublicStatement, Option.isSome_map]
    exact hconsistent.processed
  failed := by
    rw [toPublicStatement, toPublicFailure, Option.isSome_map]
    exact hconsistent.failureCode
  failure := by
    intro failure hfailure
    obtain ⟨failureCode, hcode, rfl⟩ := Option.map_eq_some_iff.mp hfailure
    have hfailed : row.status = .failed :=
      hconsistent.failureCode.mp (by rw [hcode]; rfl)
    obtain ⟨failureMessage, hmessage⟩ :=
      Option.isSome_iff_exists.mp (hconsistent.failureMessage.mpr hfailed)
    obtain ⟨hsame, hlisted⟩ := publicFailure_code failureCode
    rw [hsame]
    exact ⟨(h.failure _ _ hcode hmessage).literal.1, hlisted⟩

theorem StatementRecord.Precedes.views {row row' : StatementRecord}
    (h : row.Precedes row') :
    (toPublicStatement timestamp row).Precedes
      (toPublicStatement timestamp row') where
  statementId := h.upload.id
  targetMonth := by
    rw [toPublicStatement, toPublicStatement, h.upload.targetMonth]
  status := h.status
  finished := by
    intro hterminal
    rw [h.finished hterminal]

/-- A view is made from the row of the statement. -/
theorem row_of_shows (hsafe : ¬c.world.2.Spoiled)
    (h : Shows timestamp c id (.statement view)) :
    ∃ row, (c.world.1.statements id).row = some row ∧
      view = toPublicStatement timestamp row := by
  rcases (shows_iff hsafe).mp h with hnone | ⟨_, hnone⟩ | ⟨row, hrow, heq⟩
  · cases hnone
  · cases hnone
  · cases heq
    exact ⟨row, hrow, rfl⟩

/-- Polling.  Every view that a client gets is sound.  Of two views the later one
continues the earlier along the status graph, and once it shows COMPLETED or
FAILED nothing of it changes any more.  After a view, a 404 is final.  All this
as long as no ROLLBACK of `findMonthlyAnalytics` has been rejected with its
session left inside. -/
theorem service_polls (h : pooledService.Reachable c)
    (hleads : pooledService.Leads c c') (hrolls : c'.world.2.RollsBack)
    (hview : Shows timestamp c id (.statement view)) :
    view.Sound id ∧
    (∀ view', Shows timestamp c' id (.statement view') → view.Precedes view') ∧
    (Shows timestamp c' id (.refused statementNotFound) →
      ∀ c'', pooledService.Leads c' c'' → c''.world.2.RollsBack →
        ∀ view'', ¬Shows timestamp c'' id (.statement view'')) := by
  obtain ⟨hbefore, halone⟩ := pooled_leads h hleads hrolls
  obtain ⟨hsafe, hreachable⟩ := pooled_reachable h hbefore
  obtain ⟨hsafe', hreachable'⟩ := pooled_reachable (h.leads hleads) hrolls
  obtain ⟨row, hrow, rfl⟩ := row_of_shows hsafe hview
  have hgenuine := repository_genuine hreachable id
  have hnever := hgenuine.fenced.not_neverCreated hrow
  obtain ⟨hnever', hlater⟩ :=
    (repository_leads hreachable halone id).precedes hrow hnever
  refine ⟨(service_row hreachable hrow).sound
    (hgenuine.belongs row hrow).consistent, ?_, ?_⟩
  · intro view' hview'
    obtain ⟨row', hrow', rfl⟩ := row_of_shows hsafe' hview'
    rcases hlater with hnone | ⟨_, hrow₂, hprecedes⟩
    · rw [Config.alone_world, hrow'] at hnone
      cases hnone
    · cases hrow₂.symm.trans hrow'
      exact hprecedes.views
  · intro hmissing c'' hleads' hrolls' view'' hview''
    have halone' := (pooled_leads (h.leads hleads) hleads' hrolls').2
    have hpooled := (h.leads hleads).leads hleads'
    obtain ⟨row'', hrow'', _⟩ :=
      row_of_shows (pooled_reachable hpooled hrolls').1 hview''
    have hnone : (c'.world.1.statements id).row = none := by
      rcases (shows_iff hsafe').mp hmissing with hother | ⟨hnone, _⟩ |
        ⟨_, _, hother⟩
      · exact absurd hother (by decide)
      · exact hnone
      · cases hother
    have hgone := (repository_leads hreachable' halone' id).deleted hnone hnever'
    rw [Config.alone_world, hrow''] at hgone
    cases hgone

/-- The view of a completed statement, asked for twice. -/
theorem service_polls_sampleCompleted :
    ∃ (timestamp : TimestampReader)
      (c : Config (Store × ApiPool) Query Query.Answer Thrown Outcome)
      (view : PublicStatement), pooledService.Reachable c ∧
      Shows timestamp c ⟨0⟩ (.statement view) ∧ view.Sound ⟨0⟩ ∧
      view.Precedes view := by
  obtain ⟨c, _, h⟩ := at_completed
  have hrow : ∃ row, (c.world.statements ⟨0⟩).row = some row := by
    rw [h.world]
    exact ⟨_, rfl⟩
  obtain ⟨row, hrow⟩ := hrow
  let timestamp : TimestampReader := fun _ => ⟨0, by decide⟩
  have hreachable := reachable_unpooled h.reachable
  have hrolls : (unpooled c).world.2.RollsBack := ApiPool.unused_rollsBack
  have hsafe := (pooled_reachable hreachable hrolls).1
  have hshows : Shows timestamp (unpooled c) ⟨0⟩
      (.statement (toPublicStatement timestamp row)) :=
    (shows_iff hsafe).mpr (.inr (.inr ⟨row, hrow, rfl⟩))
  obtain ⟨hsound, hprecedes, _⟩ :=
    service_polls hreachable .refl hrolls hshows
  exact ⟨timestamp, _, _, hreachable, hshows, hsound, hprecedes _ hshows⟩

end Views

end StatementAnalyzer
