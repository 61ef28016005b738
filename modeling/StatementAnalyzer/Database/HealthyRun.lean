/-
Runs of a client program on its own: every query is answered, and only the data
that it sends can make it fail.  Such a run is a run of the repository.
-/
import StatementAnalyzer.Database.Runs

namespace StatementAnalyzer

open Async

/-- Run a program of thread `t` by itself.  `NOW()` is `now`, and a query whose
data are refused throws `refusal`.  The outcome is missing where the program
sends something else than the queries of one client. -/
def runAlone {α : Type} (t : Tid) (now : Time) (refusal : Thrown) :
    QueryProgram α → Store → Option (Except Thrown α × Store)
  | .settled result, w => some (result, w)
  | .await .connect resume, w =>
      match w.sessions t with
      | .closed => runAlone t now refusal (resume (.ok ())) (w.setSession t .idle)
      | _ => none
  | .await (.client q) resume, w =>
      match serve t now w q with
      | some (some answer, w') => runAlone t now refusal (resume (.ok answer)) w'
      | some (none, w') => runAlone t now refusal (resume (.error refusal)) w'
      | none => none
  | .await .release resume, w =>
      runAlone t now refusal (resume (.ok ()))
        (w.setSession t (w.sessions t).release)
  | .await (.request _) _, _ => none

section RunAlone

variable {α β : Type} {t : Tid} {now : Time} {refusal : Thrown}

theorem runAlone_andThen (p : QueryProgram α)
    (next : Except Thrown α → QueryProgram β) (w : Store) :
    runAlone t now refusal (p.andThen next) w =
      (runAlone t now refusal p w).bind fun done =>
        runAlone t now refusal (next done.1) done.2 := by
  induction p generalizing w with
  | settled result => rfl
  | await q resume ih =>
      rw [Proc.await_andThen]
      cases q with
      | request r => rfl
      | connect =>
          simp only [runAlone]
          split
          · exact ih _ _
          · rfl
      | client q =>
          simp only [runAlone]
          split
          · exact ih _ _
          · exact ih _ _
          · rfl
      | release => exact ih _ _

/-- What a program does alone, the repository can do. -/
theorem runAlone_reachable {starts : Program α → World → Prop}
    {c : Config Store Query Query.Answer Thrown α}
    (h : (querySystem repository starts).Reachable c) {p : QueryProgram β}
    {k : Except Thrown β → QueryProgram α}
    (hrunning : c.threads t = .running (p.andThen k))
    {result : Except Thrown β} {w : Store}
    (halone : runAlone t now refusal p c.world = some (result, w)) :
    ∃ c', (querySystem repository starts).Reachable c' ∧ c'.world = w ∧
      c'.threads t = .running (k result) ∧
      ∀ u, u ≠ t → c'.threads u = c.threads u := by
  induction p generalizing c with
  | settled result' =>
      cases halone
      exact ⟨c, h, rfl, hrunning, fun _ _ => rfl⟩
  | await q resume ih =>
      -- one step, and the rest of the run from there
      have hstep : ∀ {answer : Except Thrown q.Answer} {w'},
          Query.Exec t q c.world answer w' →
          runAlone t now refusal (resume answer) w' = some (result, w) →
          ∃ c', (querySystem repository starts).Reachable c' ∧ c'.world = w ∧
            c'.threads t = .running (k result) ∧
            ∀ u, u ≠ t → c'.threads u = c.threads u := by
        intro answer w' hexec hrest
        have hnext := h.step (.call hrunning hexec)
        obtain ⟨c', hc', hworld, hthread, hothers⟩ :=
          ih answer hnext (Config.move_threads_self c t _ w') hrest
        refine ⟨c', hc', hworld, hthread, fun u hu => ?_⟩
        rw [hothers u hu, Config.move_threads_ne c hu]
      cases q with
      | request r => cases halone
      | connect =>
          simp only [runAlone] at halone
          split at halone
          · exact hstep (.connected ‹_›) halone
          · cases halone
      | client q =>
          simp only [runAlone] at halone
          split at halone
          · exact hstep (.served ‹_›) halone
          · exact hstep (.unstorable ‹_›) halone
          · cases halone
      | release => exact hstep .released halone

end RunAlone

section Save

variable {t : Tid} {now : Time} {refusal : Thrown} {w : Store}
variable {id token : Uuid} {row : StatementRecord}

theorem setSession_setSession (session session' : Session) :
    (w.setSession t session).setSession t session' = w.setSession t session' := by
  simp [Store.setSession]

/-- Every row of the loop is stored in the draft. -/
theorem runAlone_insertTransactions {d : Draft} (hid : d.id = id)
    (hsession : w.sessions t = .working d)
    (transactions : List CreateTransactionInput)
    (hstorable : ∀ transaction ∈ transactions, transaction.storable = true) :
    runAlone t now refusal (insertTransactions id transactions) w =
      some (.ok (), w.setSession t (.working
        { d with inserted := d.inserted ++ transactions })) := by
  induction transactions generalizing w d with
  | nil =>
      have hsame : w.setSession t (.working d) = w := by
        simp [Store.setSession, ← hsession]
      rw [List.append_nil, hsame]
      rfl
  | cons transaction rest ih =>
      have hserve : serve t now w (.insertTransaction id transaction) =
          some (some (), w.setSession t (.working
            { d with inserted := d.inserted ++ [transaction] })) := by
        simp [serve, hsession, hid, hstorable transaction List.mem_cons_self]
      rw [insertTransactions, Proc.bind_eq, query, runAlone_andThen]
      simp only [Proc.call, runAlone, hserve, Option.bind_some, Proc.onValue_ok]
      rw [ih (d := { d with inserted := d.inserted ++ [transaction] })
        hid (sessions_setSession w t _) fun other hother =>
          hstorable other (List.mem_cons_of_mem transaction hother),
        setSession_setSession]
      simp

theorem endTransaction_setSession (session session' : Session) :
    (w.setSession t session).endTransaction t session' =
      w.endTransaction t session' := by
  simp only [Store.endTransaction, Store.setSession, Store.unlock,
    Function.update_idem]
  rfl

theorem endTransaction_endTransaction (session session' : Session) :
    (w.endTransaction t session).endTransaction t session' =
      w.endTransaction t session' := by
  have hholder : ((w.unlock t).unlock t).holder = (w.unlock t).holder := by
    funext id
    by_cases hid : w.holder id = some t <;> simp [Store.unlock, hid]
  simp only [Store.endTransaction, Store.setSession, Store.unlock,
    Function.update_idem]
  exact congrArg (fun holder => { w with
    sessions := Function.update w.sessions t session', holder := holder })
    hholder

/-- The loop stops at the first row whose data are refused. -/
theorem runAlone_insertTransactions_refused {d : Draft}
    (hid : d.id = id) (hsession : w.sessions t = .working d)
    (transactions : List CreateTransactionInput)
    (hrefused : ∃ transaction ∈ transactions, transaction.storable = false) :
    runAlone t now refusal (insertTransactions id transactions) w =
      some (.error refusal, w.endTransaction t .aborted) := by
  induction transactions generalizing w d with
  | nil =>
      obtain ⟨_, hmem, _⟩ := hrefused
      exact absurd hmem List.not_mem_nil
  | cons transaction rest ih =>
      rw [insertTransactions, Proc.bind_eq, query, runAlone_andThen]
      by_cases hstorable : transaction.storable = true
      · have hserve : serve t now w (.insertTransaction id transaction) =
            some (some (), w.setSession t (.working
              { d with inserted := d.inserted ++ [transaction] })) := by
          simp [serve, hsession, hid, hstorable]
        have hrest : ∃ other ∈ rest, other.storable = false := by
          obtain ⟨other, hmem, hother⟩ := hrefused
          rcases List.mem_cons.mp hmem with rfl | hmem
          · rw [hstorable] at hother
            cases hother
          · exact ⟨other, hmem, hother⟩
        simp only [Proc.call, runAlone, hserve, Option.bind_some,
          Proc.onValue_ok]
        rw [ih (d := { d with
          inserted := d.inserted ++ [transaction] }) hid
          (sessions_setSession w t _) hrest, endTransaction_setSession]
      · have hserve : serve t now w (.insertTransaction id transaction) =
            some (none, w.endTransaction t .aborted) := by
          simp [serve, hsession, hid, hstorable]
        simp only [Proc.call, runAlone, hserve, Option.bind_some,
          Proc.onValue_error]
        rfl

/-- The client goes back to the pool as it was taken, with its lock given
up. -/
theorem setSession_closed (hclosed : w.sessions t = .closed)
    (hheld : ∀ other, w.holder other ≠ some t) (hfree : w.holder id = none)
    (session session' : Session) :
    (((w.lock t id).setSession t session).endTransaction t session').setSession
      t .closed = w := by
  have hsessions : Function.update w.sessions t .closed = w.sessions := by
    rw [← hclosed, Function.update_eq_self]
  have hholder : (fun other => if Function.update w.holder id (some t) other =
      some t then none else Function.update w.holder id (some t) other) =
        w.holder := by
    funext other
    by_cases hother : other = id
    · subst hother
      simp [hfree]
    · simp [hother, hheld other]
  simp only [Store.setSession, Store.endTransaction, Store.unlock, Store.lock,
    Function.update_idem, hsessions]
  exact congrArg (fun holder => { w with holder := holder }) hholder

/-- A row that the token still claims passes the check under the lock. -/
theorem claimLost_eq_false (hclaimed : row.claimedBy now token = true) :
    LockedStatement.claimLost token ⟨row.status, row.processingToken,
      row.processingLeaseExpiresAt, row.leaseValid now⟩ = false := by
  obtain ⟨hstatus, htoken, expires, hlease, hnow⟩ :=
    StatementRecord.claimedBy_iff.mp hclaimed
  simp [LockedStatement.claimLost, StatementRecord.leaseValid, hstatus, htoken,
    hlease, hnow]

variable (hclosed : w.sessions t = .closed)
  (hheld : ∀ other, w.holder other ≠ some t) (hfree : w.holder id = none)
  (hrow : (w.statements id).row = some row)
  (hclaimed : row.claimedBy now token = true)

include hclosed hfree hrow hclaimed in
/-- The save up to the loop: the row is locked, and the check has passed. -/
theorem runAlone_save (transactions : List CreateTransactionInput) :
    runAlone t now refusal (saveTransactionsAndComplete id token transactions)
      w = (runAlone t now refusal (insertTransactions id transactions)
        ((w.lock t id).setSession t
          (.working ⟨now, id, row, [], none⟩))).bind fun done =>
        runAlone t now refusal
          ((Proc.onValue (fun _ =>
            (query (.completeStatement id token)).andThen
              (Proc.onValue fun completed : Nat =>
                if completed ≠ 1 then Proc.throwing processingClaimLostError
                else query .commit)) done.1).andThen cleanUp) done.2 := by
  have hbegin : serve t now (w.setSession t .idle) .begin =
      some (some (), w.setSession t (.begun now)) := by
    simp [serve, sessions_setSession, setSession_setSession]
  have hlock : serve t now (w.setSession t (.begun now)) (.lockStatement id) =
      some (some [⟨row.status, row.processingToken,
        row.processingLeaseExpiresAt, row.leaseValid now⟩],
        (w.lock t id).setSession t (.working ⟨now, id, row, [], none⟩)) := by
    have hholder : (w.setSession t (.begun now)).holder id = none := hfree
    have hrow' : ((w.setSession t (.begun now)).statements id).row = some row :=
      hrow
    simp only [serve, sessions_setSession, hholder, hrow']
    simp [Store.lock, Store.setSession]
  rw [saveTransactionsAndComplete_eq, runAlone_andThen]
  simp only [Proc.call, runAlone, hclosed, Option.bind_some, Proc.onValue_ok]
  rw [runAlone_andThen]
  simp only [query, Proc.call, runAlone, hbegin, Option.bind_some,
    Proc.onValue_ok]
  rw [saveUnderLock, Proc.bind_eq, Proc.andThen_assoc, runAlone_andThen]
  simp only [query, Proc.call, runAlone, hlock, Option.bind_some,
    Proc.onValue_ok, List.head?_cons, claimLost_eq_false hclaimed]
  simp only [Bool.false_eq_true, if_false, Proc.bind_eq, Proc.andThen_assoc]
  rw [runAlone_andThen]

/-- The `finally` block. -/
theorem runAlone_release {result : Except Thrown Unit}
    (hsession : w.sessions t = .idle ∨ w.sessions t = .lost) :
    runAlone t now refusal
      (Proc.ensure (Proc.settled result) (Proc.call Query.release)) w =
        some (result, w.setSession t .closed) := by
  have hrelease : (w.sessions t).release = .closed := by
    rcases hsession with h | h <;> rw [h] <;> rfl
  simp [Proc.ensure, Proc.call, runAlone, hrelease]

/-- What is left of the save after the loop: the row is completed in the draft
and committed. -/
theorem runAlone_finish {d : Draft} (hid : d.id = id)
    (hsession : w.sessions t = .working d) (hlocked : w.holder id = some t)
    (hcompleted : d.completedWith = none)
    (hclaimed : d.row.claimedBy d.now token = true) :
    runAlone t now refusal ((query (.completeStatement id token)).andThen
      fun result => (Proc.onValue (fun completed : Nat =>
        if completed ≠ 1 then Proc.throwing processingClaimLostError
        else query .commit) result).andThen cleanUp) w =
      some (.ok (), ({ w with
        statements := w.statements.set id
          (Draft.commit t token { d with completedWith := some token }
            (w.statements id)) }.endTransaction t .idle).setSession t
              .closed) := by
  subst hid
  have hcomplete : serve t now w (.completeStatement d.id token) =
      some (some (1 : Nat), w.setSession t
        (.working { d with completedWith := some token })) := by
    simp [serve, hsession, hcompleted, hclaimed]
  have hcommit : serve t now (w.setSession t
      (.working { d with completedWith := some token })) .commit =
        some (some (), { w with
          statements := w.statements.set d.id
            (Draft.commit t token { d with completedWith := some token }
              (w.statements d.id)) }.endTransaction t .idle) := by
    have hholder : (w.setSession t (.working
      { d with completedWith := some token })).holder d.id = some t :=
      hlocked
    have hend := endTransaction_setSession (w := { w with
      statements := w.statements.set d.id
        (Draft.commit t token { d with completedWith := some token }
          (w.statements d.id)) }) (t := t)
      (.working { d with completedWith := some token }) .idle
    simp only [serve, sessions_setSession, hholder, if_true]
    exact congrArg some (congrArg (Prod.mk _) hend)
  rw [runAlone_andThen]
  simp only [query, Proc.call, runAlone, hcomplete, Option.bind_some,
    Proc.onValue_ok, ne_eq, not_true_eq_false, if_false]
  rw [runAlone_andThen]
  simp only [runAlone, hcommit, Option.bind_some]
  exact runAlone_release (.inl (sessions_endTransaction _ t .idle))

include hclosed hheld hfree hrow hclaimed in
/-- Where every row can be stored, the save stores the list and completes the
statement. -/
theorem runAlone_save_storable (transactions : List CreateTransactionInput)
    (hstorable : ∀ transaction ∈ transactions, transaction.storable = true) :
    runAlone t now refusal (saveTransactionsAndComplete id token transactions)
      w = some (.ok (), { w with
        statements := w.statements.set id
          (Draft.commit t token ⟨now, id, row, transactions, some token⟩
            (w.statements id)) }) := by
  have hinsert : runAlone t now refusal (insertTransactions id transactions)
      ((w.lock t id).setSession t (.working ⟨now, id, row, [], none⟩)) =
        some (.ok (), (w.lock t id).setSession t
          (.working ⟨now, id, row, transactions, none⟩)) := by
    rw [runAlone_insertTransactions (d := ⟨now, id, row, [], none⟩) rfl
      (sessions_setSession _ t _) transactions hstorable, setSession_setSession]
    rfl
  rw [runAlone_save hclosed hfree hrow hclaimed, hinsert, Option.bind_some]
  simp only [Proc.onValue_ok, Proc.andThen_assoc]
  rw [runAlone_finish (d := ⟨now, id, row, transactions, none⟩) rfl
    (sessions_setSession _ t _) ?_ rfl hclaimed]
  · exact congrArg (fun w' => some (Except.ok (), w'))
      (setSession_closed (w := { w with
        statements := w.statements.set id
          (Draft.commit t token ⟨now, id, row, transactions, some token⟩
            (w.statements id)) }) hclosed hheld hfree (.working _) .idle)
  · simp [Store.setSession, Store.lock]

include hclosed hheld hfree hrow hclaimed in
/-- Where some row is refused, the save throws the refusal and leaves everything
as it was. -/
theorem runAlone_save_refused (transactions : List CreateTransactionInput)
    (hrefused : ∃ transaction ∈ transactions, transaction.storable = false) :
    runAlone t now refusal (saveTransactionsAndComplete id token transactions)
      w = some (.error refusal, w) := by
  have hinsert : runAlone t now refusal (insertTransactions id transactions)
      ((w.lock t id).setSession t (.working ⟨now, id, row, [], none⟩)) =
        some (.error refusal, (w.lock t id).endTransaction t .aborted) := by
    rw [runAlone_insertTransactions_refused
      (d := ⟨now, id, row, [], none⟩) rfl (sessions_setSession _ t _)
      transactions hrefused, endTransaction_setSession]
  have hrollback : serve t now ((w.lock t id).endTransaction t .aborted)
      .rollback = some (some (),
        ((w.lock t id).endTransaction t .aborted).endTransaction t .idle) := by
    simp [serve, sessions_endTransaction]
  rw [runAlone_save hclosed hfree hrow hclaimed, hinsert, Option.bind_some]
  change runAlone t now refusal ((rollbackTransaction refusal).andThen
    fun result => Proc.ensure (Proc.settled result) (Proc.call Query.release))
      _ = _
  rw [rollbackTransaction, Proc.andThen_assoc, runAlone_andThen]
  simp only [query, Proc.call, runAlone, hrollback, Option.bind_some]
  have hidle := sessions_endTransaction
    ((w.lock t id).endTransaction t .aborted) t .idle
  refine (runAlone_release (.inl hidle)).trans ?_
  rw [endTransaction_endTransaction, ← endTransaction_setSession .idle,
    setSession_closed hclosed hheld hfree]

end Save

end StatementAnalyzer
