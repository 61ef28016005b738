/-
What holds in every run of the repository, whichever programs call its methods
and however their queries interleave.
-/
import StatementAnalyzer.Database.Fencing
import StatementAnalyzer.Database.SaveAtomicity

namespace StatementAnalyzer

open Async

section Runs

variable {α : Type} {starts : Program α → World → Prop}

variable {c : Config Store Query Query.Answer Thrown α}

/-- One step of the repository, as the statements see it: what happens to one
is caused by a call that some thread is inside of, or happens by itself. -/
theorem repository_step {c' : Config Store Query Query.Answer Thrown α}
    {l : Label Query} (h : (querySystem repository starts).Reachable c)
    (hstep : (querySystem repository starts).Step l c c') :
    ∃ a, (repositoryRefinement starts).Refines c a ∧
      c.world.statements.Steps (fun id e => e.thread = none ∨ ∃ t op resume,
        a.threads t = .running (.await op resume) ∧ Causes t op id e)
        c'.world.statements := by
  obtain ⟨a, _, hrefines⟩ := (repositoryRefinement starts).reachable h
  obtain ⟨a', hsteps, hrefines'⟩ :=
    (repositoryRefinement starts).step hrefines hstep
  have hworld : a.world = c.world.statements := hrefines.world
  have hworld' : a'.world = c'.world.statements := hrefines'.world
  refine ⟨a, hrefines, ?_⟩
  rw [← hworld, ← hworld']
  rcases hsteps with rfl | ⟨l', hl'⟩
  · exact .same
  · exact callSystem_step hl'

theorem repository_leads {c' : Config Store Query Query.Answer Thrown α}
    (h : (querySystem repository starts).Reachable c)
    (hleads : (querySystem repository starts).Leads c c') :
    c.world.statements.Moves (fun _ => True) c'.world.statements := by
  induction hleads with
  | refl => exact .refl _ _
  | tail hleads hstep ih =>
      obtain ⟨l, hstep⟩ := hstep
      obtain ⟨_, _, hsteps⟩ := repository_step (h.leads hleads) hstep
      exact ih.trans (hsteps.moves fun _ _ _ => trivial)

theorem repository_genuine
    (h : (querySystem repository starts).Reachable c) (id : Uuid) :
    Genuine id (c.world.statements id) := by
  obtain ⟨a, ha, hrefines⟩ := (repositoryRefinement starts).reachable h
  have hworld : a.world = c.world.statements := hrefines.world
  rw [← hworld]
  exact reachable_genuine ha id

theorem Evolves.finished {id : Uuid} {P : Event → Prop} {s s' : Statement}
    (h : Evolves id P s s') {row : StatementRecord} (hrow : s.row = some row)
    (hterminal : row.status.isTerminal = true) (hnever : ¬s.NeverCreated)
    (hkept : Event.removed ∉ s'.history) :
    s'.row = some row ∧ s'.transactions = s.transactions := by
  have hK := h.preserves
    (K := fun s₁ => ¬s₁.NeverCreated ∧ (Event.removed ∉ s₁.history →
      s₁.row = some row ∧ s₁.transactions = s.transactions))
    (fun {e a b} _ hadvance hK => by
      refine ⟨fun hb => hK.1 (hb.of_cons hadvance.history), fun hb => ?_⟩
      rw [hadvance.history, List.mem_cons, not_or] at hb
      obtain ⟨harow, hatx⟩ := hK.2 hb.2
      obtain ⟨hbrow, hbtx⟩ :=
        hadvance.finished harow hterminal hK.1 (Ne.symm hb.1)
      exact ⟨hbrow, hbtx.trans hatx⟩)
    ⟨hnever, fun _ => ⟨hrow, rfl⟩⟩
  exact hK.2 hkept

/-- Fencing.  At most one terminal status is ever committed, by a call with the
token of the last claim; so with distinct tokens a superseded worker commits
nothing.  Each claim is made after the lease of every earlier one has passed,
and no call changes a finished statement. -/
theorem repository_fencing
    (h : (querySystem repository starts).Reachable c) (id : Uuid) :
    let s := c.world.statements id
    (verdicts s.history).length ≤ 1 ∧
    (∀ verdict ∈ verdicts s.history, ∃ claim,
      (claims s.history).head? = some claim ∧ claim.token = verdict.token) ∧
    (((claims s.history).map Claim.token).Nodup →
      ∀ verdict ∈ verdicts s.history, ∀ claim ∈ (claims s.history).tail,
        claim.token ≠ verdict.token) ∧
    (claims s.history).Pairwise
      (fun later earlier => earlier.expires < later.now) ∧
    ∀ row, s.row = some row → row.status.isTerminal = true →
      ∀ c', (querySystem repository starts).Leads c c' →
        Event.removed ∉ (c'.world.statements id).history →
          (c'.world.statements id).row = some row ∧
            (c'.world.statements id).transactions = s.transactions := by
  intro s
  have hfenced := (repository_genuine h id).fenced
  have hlast := hfenced.history.verdict_claim
  refine ⟨hfenced.history.verdicts_length, hlast, ?_,
    hfenced.history.claims_pairwise, ?_⟩
  · intro hnodup verdict hverdict claim hclaim heq
    obtain ⟨last, hhead, htoken⟩ := hlast verdict hverdict
    obtain ⟨rest, hclaims⟩ := List.head?_eq_some_iff.mp hhead
    rw [hclaims, List.map_cons, List.nodup_cons] at hnodup
    rw [hclaims, List.tail_cons] at hclaim
    apply hnodup.1
    rw [htoken, ← heq]
    exact List.mem_map_of_mem hclaim
  · intro row hrow hterminal c' hleads hkept
    exact (repository_leads h hleads id).finished hrow hterminal
      (hfenced.not_neverCreated hrow) hkept

/-- The row invariant and the status graph. -/
theorem repository_rows
    (h : (querySystem repository starts).Reachable c) (id : Uuid)
    {row : StatementRecord} (hrow : (c.world.statements id).row = some row) :
    row.Consistent ∧
    (∃ now columns,
      creations (c.world.statements id).history = [(now, columns)] ∧
      row.s3Key = columns.s3Key ∧ row.targetMonth = columns.targetMonth ∧
      row.contentType = columns.contentType ∧
      row.contentLength = columns.contentLength) ∧
    (∀ l c' row', (querySystem repository starts).Step l c c' →
      (c'.world.statements id).row = some row' →
        row' = row ∨ StatusChange row.status row'.status) ∧
    (row.status = .queued → ∀ now token leaseSeconds,
      ((Update.claimForProcessing token leaseSeconds).apply now row).isSome) ∧
    (row.status = .processing → ∃ expires,
      row.processingLeaseExpiresAt = some expires ∧
      ∀ now token leaseSeconds,
        ((Update.claimForProcessing token leaseSeconds).apply now row).isSome ↔
          expires < now) := by
  have hgenuine := repository_genuine h id
  have hbelongs := hgenuine.belongs row hrow
  refine ⟨hbelongs.consistent, ?_, ?_, ?_, ?_⟩
  · obtain ⟨now, columns, first, hcreations, hinsert, hsame⟩ := hbelongs.created
    obtain ⟨_, rfl⟩ := StatementColumns.insert_eq_some_iff.mp hinsert
    exact ⟨now, columns, hcreations, hsame.s3Key, hsame.targetMonth,
      hsame.contentType, hsame.contentLength⟩
  · intro l c' row' hstep hrow'
    obtain ⟨_, _, hsteps⟩ := repository_step h hstep
    rcases hsteps.statement id with hsame | ⟨e, _, hs⟩
    · rw [hsame, hrow] at hrow'
      exact .inl (Option.some.inj hrow').symm
    · exact (hs.row_change hrow hrow'
        (hgenuine.fenced.not_neverCreated hrow)).1
  · intro hqueued now token leaseSeconds
    rw [Update.claim_queued now token leaseSeconds hqueued]
    rfl
  · intro hprocessing
    obtain ⟨expires, hlease⟩ := Option.isSome_iff_exists.mp
      (hbelongs.consistent.lease.mp hprocessing)
    refine ⟨expires, hlease, fun now token leaseSeconds => ?_⟩
    rw [Update.claim_processing now token leaseSeconds hprocessing hlease]
    split <;> simp_all

/-- While no row is locked, a reachable configuration goes on with the request
that a thread awaits. -/
theorem reachable_request
    (h : (querySystem repository starts).Reachable c) {t : Tid} {r : Request}
    {resume : Except Thrown r.Answer → Program α}
    (hrunning : c.threads t =
      .running (Proc.interp repository (.await (.request r) resume)))
    (hfree : ∀ id, c.world.holder id = none)
    {answer : Except Thrown r.Answer} {statements : World}
    (hexec : r.exec t c.world.statements answer statements) :
    (querySystem repository starts).Reachable
      (c.move t (.running ((resume answer).interp repository))
        { c.world with statements := statements }) :=
  h.step (.call hrunning (.request hexec
    fun id hid => absurd (hfree id) hid))

end Runs

def sampleColumns : StatementColumns :=
  ⟨⟨0⟩, none, js "statements/00000000-0000-0000-0000-000000000000/source",
    js "2026-04-01", .uploadPending, .png, 1⟩

def sampleRow : StatementRecord :=
  ⟨⟨0⟩, none, js "statements/00000000-0000-0000-0000-000000000000/source",
    js "2026-04-01", .uploadPending, .png, 1, none, none, none, none, none,
    none, 0, 0⟩

theorem sampleColumns_insert : sampleColumns.insert 0 = some sampleRow := by
  decide

/-- The way of one statement from its creation to a failure. -/
def failingProgram : Program Unit := do
  let _ ← request (.insertStatement sampleColumns)
  let _ ← request (.updateStatement ⟨0⟩ .markUploaded)
  let _ ← request (.updateStatement ⟨0⟩ .markQueued)
  let _ ← request (.updateStatement ⟨0⟩ (.claimForProcessing ⟨1⟩ 600))
  let _ ← request (.updateStatement ⟨0⟩
    (.markFailed ⟨1⟩ .unsupportedImage (js "image")))

theorem failingProgram_run :
    ∃ c : Config Store Query Query.Answer Thrown Unit,
      (querySystem repository fun p _ => p = failingProgram).Reachable c ∧
      (∃ row, (c.world.statements ⟨0⟩).row = some row ∧
        row.status = .failed) ∧
      verdicts (c.world.statements ⟨0⟩).history = [⟨0, ⟨1⟩⟩] := by
  have h₀ := System.Reachable.init
    (S := querySystem repository fun p _ => p = failingProgram) rfl
  have h₁ := h₀.step (.start (t := 0) rfl ⟨rfl, rfl, _, rfl, rfl⟩)
  have hcreate := reachable_request h₁ (t := 0) rfl (fun _ => rfl)
    (@Inserts.served _ _ _ 0 _ _ (fun _ _ h => by cases h)
      (.created (fun _ _ _ h => by cases h) rfl rfl sampleColumns_insert) rfl)
  have hupload := reachable_request hcreate (t := 0) rfl (fun _ => rfl)
    (@Updates.served _ _ _ _ 1 _ _ rfl (.updated rfl rfl (by simp)) rfl)
  have hqueue := reachable_request hupload (t := 0) rfl (fun _ => rfl)
    (@Updates.served _ _ _ _ 2 _ _ rfl (.updated rfl rfl (by simp)) rfl)
  have hclaim := reachable_request hqueue (t := 0) rfl (fun _ => rfl)
    (@Updates.served _ _ _ _ 3 _ _ rfl (.updated rfl rfl (by simp)) rfl)
  have hfail := reachable_request hclaim (t := 0) rfl (fun _ => rfl)
    (@Updates.served _ _ _ _ 4 _ _ (by decide) (.updated rfl rfl (by simp)) rfl)
  exact ⟨_, hfail, ⟨_, rfl, rfl⟩, rfl⟩

theorem repository_fencing_failingProgram :
    ∃ c : Config Store Query Query.Answer Thrown Unit,
      (querySystem repository fun p _ => p = failingProgram).Reachable c ∧
      ∃ claim, (claims (c.world.statements ⟨0⟩).history).head? = some claim ∧
        claim.token = ⟨1⟩ := by
  obtain ⟨c, hc, _, hverdicts⟩ := failingProgram_run
  refine ⟨c, hc, (repository_fencing hc ⟨0⟩).2.1 ⟨0, ⟨1⟩⟩ ?_⟩
  rw [hverdicts]
  exact List.mem_singleton_self _

theorem repository_rows_failingProgram :
    ∃ c : Config Store Query Query.Answer Thrown Unit,
      (querySystem repository fun p _ => p = failingProgram).Reachable c ∧
      ∃ row, (c.world.statements ⟨0⟩).row = some row ∧
        row.status = .failed ∧ row.Consistent := by
  obtain ⟨c, hc, ⟨row, hrow, hstatus⟩, _⟩ := failingProgram_run
  exact ⟨c, hc, row, hrow, hstatus, (repository_rows hc ⟨0⟩ hrow).1⟩

end StatementAnalyzer
