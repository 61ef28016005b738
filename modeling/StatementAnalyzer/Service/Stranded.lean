/-
Statements that nothing moves any more.  A QUEUED statement without a message
whose sends have never failed stays as it is once the request that queued it has
crashed; these are the only ones that are beyond recovery.
-/
import StatementAnalyzer.Service.Recovery

namespace StatementAnalyzer

open Async

/-- No message for the statement exists or can still arrive. -/
structure Statement.Unsendable (s : Statement) : Prop where
  messages : s.messages = []
  reported : ∀ t delivered, .sent t false delivered ∉ s.history

/-- The statement is QUEUED with `row`, or deleted, and there is no job for
it. -/
structure Statement.Stranded (s : Statement) (row : StatementRecord) : Prop
    extends s.Unsendable where
  created : ¬s.NeverCreated
  kept : s.row = some row ∨ s.row = none
  queued : row.status = .queued

section Events

variable {id : Uuid} {e : Event} {s s' : Statement} {row : StatementRecord}
variable {t : Tid}

theorem Statement.Stranded.status (h : s.Stranded row)
    {row' : StatementRecord} (hrow : s.row = some row') :
    row'.status = .queued := by
  rcases h.kept with hsome | hnone
  · cases hrow.symm.trans hsome
    exact h.queued
  · rw [hnone] at hrow
    cases hrow

/-- An event that changes neither the row nor the messages, and is no send. -/
theorem Statement.Stranded.silent (h : s.Stranded row)
    (hhistory : s'.history = e :: s.history) (he : e.sender? = none)
    (hrow : s'.row = s.row ∨ s'.row = none) (hmessages : s'.messages = []) :
    s'.Stranded row := by
  refine ⟨⟨hmessages, fun t delivered hmem => ?_⟩,
    fun hnever => h.created (hnever.of_cons hhistory), ?_, h.queued⟩
  · rw [hhistory] at hmem
    rcases List.mem_cons.mp hmem with rfl | hmem
    · cases he
    · exact h.reported t delivered hmem
  · rcases hrow with hsame | hnone
    · rw [hsame]
      exact h.kept
    · exact .inr hnone

/-- Whatever happens to a stranded statement, unless the request that has
queued it goes on, leaves it stranded. -/
theorem Advance.stranded (hs : Advance id e s s') (h : s.Stranded row)
    (horderly : s'.Orderly) (hgenuine : Genuine id s')
    (hlive : ∀ t, e.thread = some t → ¬Pending (marks t s.history)) :
    s'.Stranded row ∧ e.sender? = none ∧ ∀ t, ¬Marks t .queued e := by
  have hhistory := hs.history
  cases hs with
  | created fresh _ _ _ => exact absurd fresh h.created
  | @updated _ t now u late row₁ row₂ hrow applies hlate =>
      have hstatus := h.status hrow
      exfalso
      cases Update.apply_eq_some_iff.mp applies with
      | markUploaded hother | markQueued hother | reclaim hother _ =>
          rw [hstatus] at hother
          cases hother
      | reset _ =>
          have hreported : ∀ u delivered, .sent u false delivered ∉
              (Event.updated t now .resetQueuedToUploaded late :: s.history) := by
            intro u delivered hmem
            rcases List.mem_cons.mp hmem with heq | hmem
            · cases heq
            · exact h.reported u delivered hmem
          apply horderly.no_reset (t := t) hgenuine hreported
          exact List.mem_cons_self
      | claim _ =>
          exact horderly.claims _ List.mem_cons_self rfl h.messages
      | markFailed hclaimed =>
          have hother := (StatementRecord.claimedBy_iff.mp hclaimed).1
          rw [hstatus] at hother
          cases hother
  | completed hrow completes =>
      have hclaimed := (StatementRecord.complete_eq_some_iff.mp completes).1
      have hother := (StatementRecord.claimedBy_iff.mp hclaimed).1
      rw [h.status hrow] at hother
      cases hother
  | @sent _ t reported delivered _ =>
      -- a request sends only while its script is at the queueing
      have hbefore : marks t s.history = [.queued] ∧ t ∉ senders s.history ∧
          t ∉ senders [] := horderly.before_send hhistory
      exact absurd (.inl hbefore.1) (hlive t rfl)
  | deliveredLate hsent => exact absurd hsent (h.reported _ _)
  | refused _ | errored =>
      exact ⟨h.silent hhistory rfl (.inl rfl) h.messages, rfl, by rintro _ ⟨⟩⟩
  | @deleting _ t index effective =>
      refine ⟨h.silent hhistory rfl (.inl rfl) ?_, rfl, by rintro _ ⟨⟩⟩
      cases effective <;> simp [Statement.log, markDeleted, h.messages]
  | removed _ => exact ⟨h.silent hhistory rfl (.inr rfl) h.messages, rfl, by rintro _ ⟨⟩⟩

/-- A request becomes pending by queueing the statement or by sending. -/
theorem pending_of_cons {older : List Event}
    (hqueued : ¬Marks t .queued e) (hsender : e.sender? = none)
    (h : Pending (marks t (e :: older))) : Pending (marks t older) := by
  rw [marks_cons] at h
  cases hmark : e.markBy? t with
  | none =>
      rw [hmark] at h
      exact h
  | some mark =>
      rw [hmark] at h
      rcases h with h | h
      · obtain ⟨rfl, _⟩ := List.cons.inj h
        exact absurd (Event.markBy?_eq_some_iff.mp hmark) hqueued
      · obtain ⟨rfl, _⟩ := List.cons.inj h
        cases Event.markBy?_eq_some_iff.mp hmark
        cases hsender

end Events

section Service

variable {c c' : Config Store Query Query.Answer Thrown Outcome} {id : Uuid}
variable {row : StatementRecord}

/-- The statement is stranded, and who could still send its job has crashed. -/
structure Stranded (c : Config Store Query Query.Answer Thrown Outcome)
    (id : Uuid) (row : StatementRecord) : Prop where
  statement : (c.world.statements id).Stranded row
  crashed : ∀ t, Pending (marks t (c.world.statements id).history) →
    c.threads t = .crashed

theorem Stranded.step (h : Stranded c id row)
    (hreachable : (querySystem repository Serves).Reachable c)
    {l : Label Query} (hstep : (querySystem repository Serves).Step l c c') :
    Stranded c' id row := by
  obtain ⟨a, hrefines, hsteps⟩ := repository_step hreachable hstep
  have hcrashed : ∀ t, Pending (marks t (c.world.statements id).history) →
      c'.threads t = .crashed :=
    fun t hpending => hstep.crashed (h.crashed t hpending)
  rcases hsteps.statement id with hsame | ⟨e, he, hs⟩
  · refine ⟨?_, ?_⟩
    · rw [hsame]
      exact h.statement
    · rw [hsame]
      exact hcrashed
  · have hlive : ∀ t, e.thread = some t →
        ¬Pending (marks t (c.world.statements id).history) := by
      intro t ht hpending
      rcases he with hnone | ⟨u, op, resume, hrunning, hcauses⟩
      · rw [hnone] at ht
        cases ht
      · cases hcauses.thread.symm.trans ht
        have hthread := hrefines.threads t
        rw [h.crashed t hpending, hrunning] at hthread
        cases hthread
    have hafter := hreachable.step hstep
    obtain ⟨hstranded, hsender, hqueued⟩ := hs.stranded h.statement
      (service_orderly hafter id) (repository_genuine hafter id) hlive
    refine ⟨hstranded, fun t hpending => hcrashed t ?_⟩
    rw [hs.history] at hpending
    exact pending_of_cons (hqueued t) hsender hpending

theorem Stranded.leads (h : Stranded c id row)
    (hreachable : (querySystem repository Serves).Reachable c)
    (hleads : (querySystem repository Serves).Leads c c') :
    Stranded c' id row := by
  induction hleads with
  | refl => exact h
  | tail hleads hstep ih =>
      obtain ⟨l, hstep⟩ := hstep
      exact ih.step (hreachable.leads hleads) hstep

/-- A send that has failed may still deliver its message. -/
theorem Ready.delivered {t : Tid} {delivered : Bool} {n : Nat}
    (hready : Ready c n)
    (hsent : .sent t false delivered ∈ (c.world.statements id).history) :
    ∃ c', (querySystem repository Serves).Leads c c' ∧ Ready c' n ∧
      (c'.world.statements id).row = (c.world.statements id).row ∧
      (c'.world.statements id).messages ≠ [] := by
  have hdrifts : c.world.statements.Drifts _ :=
    ⟨id, _, _, rfl, .deliveredLate hsent, rfl⟩
  refine ⟨_, .single ⟨_, .env (.statements hdrifts
    fun other hheld => absurd (hready.free other) hheld)⟩,
    ⟨hready.free, hready.closed, hready.idle⟩, ?_, ?_⟩
  · simp [Statement.log]
  · simp [Statement.log]

end Service

end StatementAnalyzer
