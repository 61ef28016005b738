/-
The repository after an outage.  The processes have stopped, and their
connections are gone and with them their row locks, so a thread that starts then
has the database to itself.
-/
import StatementAnalyzer.Async.Possibility
import StatementAnalyzer.Database.HealthyRun

namespace StatementAnalyzer

open Async

/-- Every row lock belongs to a transaction that has read its row. -/
def Store.Locked (w : Store) : Prop :=
  ∀ id t, w.holder id = some t → ∃ draft, w.sessions t = .working draft

section Locks

variable {w w' : Store} {t : Tid}

theorem Store.Locked.setSession (h : w.Locked) {session : Session}
    (hkeeps : (∃ draft, w.sessions t = .working draft) →
      ∃ draft, session = .working draft) : (w.setSession t session).Locked := by
  intro id u hheld
  by_cases hut : u = t
  · subst hut
    rw [sessions_setSession]
    exact hkeeps (h id u hheld)
  · have hsame : (w.setSession t session).sessions u = w.sessions u :=
      Function.update_of_ne hut _ _
    rw [hsame]
    exact h id u hheld

theorem Store.Locked.endTransaction (h : w.Locked) (session : Session) :
    (w.endTransaction t session).Locked := by
  intro id u hheld
  have hholder : w.holder id = some u ∧ u ≠ t := by
    simp only [Store.endTransaction, Store.setSession, Store.unlock] at hheld
    split at hheld
    · cases hheld
    · rename_i hother
      refine ⟨hheld, ?_⟩
      rintro rfl
      exact hother hheld
  have hsame : (w.endTransaction t session).sessions u = w.sessions u :=
    Function.update_of_ne hholder.2 _ _
  rw [hsame]
  exact h id u hholder.1

theorem Store.Locked.serve {now : Time} {q : ClientQuery}
    {answer : Option q.Answer} (h : w.Locked)
    (hserve : serve t now w q = some (answer, w')) : w'.Locked := by
  cases q with
  | begin =>
      simp only [StatementAnalyzer.serve] at hserve
      split at hserve
      · rename_i hidle
        cases hserve
        apply h.setSession
        rintro ⟨draft, hworking⟩
        rw [hidle] at hworking
        cases hworking
      · cases hserve
  | lockStatement id =>
      simp only [StatementAnalyzer.serve] at hserve
      split at hserve
      · split at hserve
        · cases hserve
          exact h
        · cases hserve
          intro other u hheld
          by_cases hut : u = t
          · subst hut
            exact ⟨_, sessions_setSession _ u _⟩
          · have hsame : ∀ session, ((w.lock t id).setSession t
                session).sessions u = w.sessions u :=
              fun _ => Function.update_of_ne hut _ _
            rw [hsame]
            apply h other u
            by_cases hother : other = id
            · subst hother
              simp only [Store.setSession, Store.lock,
                Function.update_self, Option.some.injEq] at hheld
              exact absurd hheld.symm hut
            · simpa [Store.setSession, Store.lock, hother] using hheld
      · cases hserve
  | insertTransaction id transaction =>
      simp only [StatementAnalyzer.serve] at hserve
      split at hserve
      · split at hserve
        · cases hserve
        · split at hserve
          · cases hserve
            exact h.setSession fun _ => ⟨_, rfl⟩
          · cases hserve
            exact h.endTransaction _
      · cases hserve
  | completeStatement id token =>
      simp only [StatementAnalyzer.serve] at hserve
      split at hserve
      · split at hserve
        · cases hserve
        · split at hserve
          · cases hserve
            exact h.setSession fun _ => ⟨_, rfl⟩
          · cases hserve
            exact h
      · cases hserve
  | commit =>
      simp only [StatementAnalyzer.serve] at hserve
      split at hserve
      · cases hserve
        exact h.endTransaction _
      · cases hserve
        exact h.endTransaction _
      · split at hserve
        · split at hserve
          · cases hserve
            exact Store.Locked.endTransaction (w := { w with statements := _ })
              h _
          · cases hserve
        · split at hserve
          · cases hserve
            exact h.endTransaction _
          · cases hserve
      · cases hserve
  | rollback =>
      simp only [StatementAnalyzer.serve] at hserve
      split at hserve
      · cases hserve
      · cases hserve
      · cases hserve
        exact h.endTransaction _

/-- A session that is given back holds no lock. -/
theorem Store.Locked.exec {q : Query} {answer : Except Thrown q.Answer}
    (h : w.Locked) (hexec : Query.Exec t q w answer w') : w'.Locked := by
  cases hexec with
  | request _ _ => exact h
  | connected hclosed =>
      apply h.setSession
      rintro ⟨draft, hworking⟩
      rw [hclosed] at hworking
      cases hworking
  | unavailable => exact h
  | served hserve => exact h.serve hserve
  | unstorable hserve => exact h.serve hserve
  | failed _ _ => exact h.endTransaction _
  | lost _ => exact h.endTransaction _
  | unconfirmed hserve => exact (h.serve hserve).endTransaction _
  | released =>
      apply h.setSession
      rintro ⟨draft, hworking⟩
      exact ⟨draft, by rw [hworking]; rfl⟩

end Locks

section Outage

variable {α : Type} {starts : Program α → World → Prop}
variable {c : Config Store Query Query.Answer Thrown α}

/-- No row is locked, and from thread `n` on nothing has been started. -/
structure Ready (c : Config Store Query Query.Answer Thrown α) (n : Nat) :
    Prop where
  free : ∀ id, c.world.holder id = none
  closed : ∀ t : Nat, n ≤ t → c.world.sessions t = .closed
  idle : ∀ t : Nat, n ≤ t → c.threads t = .idle

/-- What a call may answer and do where its thread has the database to itself:
a request whatever it can, and a save with a claim and a list that can be
stored. -/
inductive Call.Healthy (t : Tid) : (op : Call) → World →
    Except Thrown op.Answer → World → Prop
  | request {r : Request} {w w' : World} {answer : Except Thrown r.Answer}
      (executes : r.exec t w answer w') : Healthy t (.request r) w answer w'
  | save {id token : Uuid} {transactions : List CreateTransactionInput}
      {w : World} {now : Time} {row : StatementRecord}
      (hrow : (w id).row = some row) (hclaimed : row.claimedBy now token = true)
      (hstorable : ∀ transaction ∈ transactions, transaction.storable = true) :
      Healthy t (.saveTransactionsAndComplete id token transactions) w (.ok ())
        (w.set id
          (Draft.commit t token ⟨now, id, row, transactions, some token⟩ (w id)))

theorem may_runAlone {β : Type} {t : Tid} {now : Time} (refusal : Thrown)
    {p : QueryProgram β} {w w' : Store} {result : Except Thrown β}
    (h : runAlone t now refusal p w = some (result, w')) :
    p.May (Query.Exec t) (fun result' v => result' = result ∧ v = w') w := by
  induction p generalizing w with
  | settled result' =>
      cases h
      exact ⟨rfl, rfl⟩
  | await q resume ih =>
      cases q with
      | request r => cases h
      | connect =>
          simp only [runAlone] at h
          split at h
          · exact ⟨_, _, .connected ‹_›, ih _ h⟩
          · cases h
      | client q =>
          simp only [runAlone] at h
          split at h
          · exact ⟨_, _, .served ‹_›, ih _ h⟩
          · exact ⟨_, _, .unstorable ‹_›, ih _ h⟩
          · cases h
      | release => exact ⟨_, _, .released, ih _ h⟩

/-- The repository does what the call may do, query by query. -/
theorem may_repository {t : Tid} {op : Call} {w w' : World}
    {answer : Except Thrown op.Answer} (h : Call.Healthy t op w answer w')
    {v : Store} (hstatements : v.statements = w)
    (hclosed : v.sessions t = .closed) (hfree : ∀ id, v.holder id = none) :
    (repository op).May (Query.Exec t) (fun result v' => result = answer ∧
      v' = { v with statements := w' }) v := by
  subst hstatements
  cases h with
  | request executes =>
      exact ⟨_, _, .request executes fun id hid => absurd (hfree id) hid,
        rfl, rfl⟩
  | save hrow hclaimed hstorable =>
      have hheld : ∀ other, v.holder other ≠ some t := by
        intro other hother
        rw [hfree other] at hother
        cases hother
      exact may_runAlone plainError (runAlone_save_storable hclosed
        hheld (hfree _) hrow hclaimed _ hstorable)

/-- A thread that has the database to itself runs a program to its end. -/
theorem Ready.run {n : Nat} (h : Ready c n) {p : Program α}
    (hstart : starts p c.world.statements)
    {Q : Except Thrown α → World → Prop}
    (hmay : p.May (Call.Healthy n) Q c.world.statements) :
    ∃ result c', (querySystem repository starts).Leads c c' ∧
      Q result c'.world.statements ∧ Ready c' (n + 1) ∧
      ∀ t, t ≠ n → c'.threads t = c.threads t := by
  have hstarted : (querySystem repository starts).Step (.start n) c
      (c.move n (.running (p.interp repository)) c.world) :=
    .start (h.idle n (Nat.le_refl n))
      ⟨rfl, h.closed n (Nat.le_refl n), p, rfl, hstart⟩
  have himpl : ∀ op w answer w', Call.Healthy n op w answer w' →
      ∀ v, v = { c.world with statements := w } →
      (repository op).May (Query.Exec n) (fun result v' => result = answer ∧
        v' = { c.world with statements := w' }) v := by
    intro op w answer w' hexec v hv
    subst hv
    exact may_repository (v := { c.world with statements := w }) hexec rfl
      (h.closed n (Nat.le_refl n)) h.free
  have hrun := Proc.May.interp himpl hmay rfl
  obtain ⟨result, c', hleads, _, ⟨w', hworld, hQ⟩, hothers⟩ :=
    Proc.May.leads (S := querySystem repository starts)
      (Config.move_threads_self c n _ c.world) hrun
  have hsame : ∀ t, t ≠ n → c'.threads t = c.threads t := by
    intro t ht
    rw [hothers t ht, Config.move_threads_ne c ht]
  refine ⟨result, c', .head ⟨_, hstarted⟩ hleads, ?_, ⟨?_, ?_, ?_⟩, hsame⟩
  · rw [hworld]
    exact hQ
  · rw [hworld]
    exact h.free
  · intro t ht
    rw [hworld]
    exact h.closed t (Nat.le_of_succ_le ht)
  · intro t ht
    rw [hsame t (Nat.ne_of_gt ht)]
    exact h.idle t (Nat.le_of_succ_le ht)

end Outage

end StatementAnalyzer
