/-
`saveTransactionsAndComplete` query by query, and its atomicity: whatever fails
and whoever interferes, it takes effect in one step or not at all.
-/
import StatementAnalyzer.Async.Atomicity
import StatementAnalyzer.Database.Sessions
import StatementAnalyzer.Database.RowInvariant

namespace StatementAnalyzer

open Async

/-- Await one query of a checked-out client. -/
def query (q : ClientQuery) : QueryProgram q.Answer :=
  Proc.call (Query.client q)

/-- Roll back and throw: the original error, or an AggregateError of both. -/
def rollbackTransaction {α : Type} (originalError : Thrown) : QueryProgram α :=
  (query .rollback).andThen fun
    | .ok _ => Proc.throwing originalError
    | .error _ => Proc.throwing aggregateError

/-- The loop over the transactions. -/
def insertTransactions (statementId : Uuid) :
    List CreateTransactionInput → QueryProgram Unit
  | [] => pure ()
  | transaction :: rest => do
      query (.insertTransaction statementId transaction)
      insertTransactions statementId rest

/-- The check after SELECT .. FOR UPDATE. -/
def LockedStatement.claimLost (processingToken : Uuid)
    (row : LockedStatement) : Bool :=
  row.status ≠ .processing || row.processingToken ≠ some processingToken ||
    row.processingLeaseExpiresAt = none || !row.leaseValid

/-- What the `try` block does after BEGIN. -/
def saveUnderLock (statementId processingToken : Uuid)
    (transactions : List CreateTransactionInput) : QueryProgram Unit := do
  let statement ← query (.lockStatement statementId)
  match statement.head? with
  | none => Proc.throwing plainError
  | some row =>
      if row.claimLost processingToken then
        Proc.throwing processingClaimLostError
      else do
        insertTransactions statementId transactions
        let completed : Nat ←
          query (.completeStatement statementId processingToken)
        if completed ≠ 1 then Proc.throwing processingClaimLostError
        else query .commit

def saveTransactionsAndComplete (statementId processingToken : Uuid)
    (transactions : List CreateTransactionInput) : QueryProgram Unit := do
  Proc.call Query.connect
  Proc.ensure
    (Proc.orElse
      (do
        query .begin
        saveUnderLock statementId processingToken transactions)
      rollbackTransaction)
    (Proc.call Query.release)

/-- The repository over the database: every call but one is a single query. -/
def repository : (op : Call) → QueryProgram op.Answer
  | .request r => Proc.call (Query.request r)
  | .saveTransactionsAndComplete statementId processingToken transactions =>
      saveTransactionsAndComplete statementId processingToken transactions

section Calls

variable {P : Query → Prop} {id token : Uuid}
variable {transactions : List CreateTransactionInput}

theorem calls_insertTransactions (h : ∀ transaction ∈ transactions,
    P (.client (.insertTransaction id transaction))) :
    (insertTransactions id transactions).Calls P := by
  induction transactions with
  | nil => trivial
  | cons transaction rest ih =>
      rw [List.forall_mem_cons] at h
      apply (Proc.Calls.call h.1).bind
      intro _
      exact ih h.2

/-- Its queries are the INSERTs of its transactions and queries without data of
theirs. -/
theorem calls_saveTransactionsAndComplete (hconnect : P .connect)
    (hrelease : P .release) (hinsert : ∀ transaction ∈ transactions,
      P (.client (.insertTransaction id transaction)))
    (hquery : ∀ q, (∀ id transaction, q ≠ .insertTransaction id transaction) →
      P (.client q)) :
    (saveTransactionsAndComplete id token transactions).Calls P := by
  have hcall : ∀ q, (∀ id transaction, q ≠ .insertTransaction id transaction) →
      (query q).Calls P := fun q hq => .call (hquery q hq)
  apply (Proc.Calls.call hconnect).bind
  intro _
  apply Proc.Calls.ensure _ (.call hrelease)
  apply Proc.Calls.orElse
  · apply (hcall _ (by simp)).bind
    intro _
    apply (hcall _ (by simp)).bind
    intro rows
    split
    · trivial
    split
    · trivial
    apply (calls_insertTransactions hinsert).bind
    intro _
    apply (hcall _ (by simp)).bind
    intro completed
    split
    · trivial
    · exact hcall _ (by simp)
  · intro error
    apply (hcall _ (by simp)).andThen
    intro answer
    cases answer <;> trivial

end Calls

/-- Between two queries of thread `t` its session stays or breaks, and a row
that it has locked stays as long as the session does. -/
def SessionRely (t : Tid) (w w' : Store) : Prop :=
  (w'.sessions t = w.sessions t ∧ ∀ id, w.holder id = some t →
    w'.holder id = some t ∧
      (w'.statements id).row = (w.statements id).row) ∨
  (w.sessions t ≠ .closed ∧ w'.sessions t = .lost)

theorem SessionRely.refl (t : Tid) (w : Store) : SessionRely t w w :=
  .inl ⟨rfl, fun _ h => ⟨h, rfl⟩⟩

theorem SessionRely.trans {t : Tid} {w w' w'' : Store}
    (h : SessionRely t w w') (h' : SessionRely t w' w'') :
    SessionRely t w w'' := by
  rcases h with ⟨hsession, hlocks⟩ | ⟨hopen, hlost⟩
  · rcases h' with ⟨hsession', hlocks'⟩ | ⟨hopen', hlost'⟩
    · refine .inl ⟨hsession'.trans hsession, fun id hid => ?_⟩
      obtain ⟨hheld, hrow⟩ := hlocks id hid
      obtain ⟨hheld', hrow'⟩ := hlocks' id hheld
      exact ⟨hheld', hrow'.trans hrow⟩
    · exact .inr ⟨hsession ▸ hopen', hlost'⟩
  · rcases h' with ⟨hsession', _⟩ | ⟨_, hlost'⟩
    · exact .inr ⟨hopen, hsession'.trans hlost⟩
    · exact .inr ⟨hopen, hlost'⟩

/-- A closed session stays closed. -/
theorem SessionRely.closed {t : Tid} {w w' : Store}
    (h : SessionRely t w w') (hclosed : w.sessions t = .closed) :
    w'.sessions t = .closed := by
  rcases h with ⟨hsession, _⟩ | ⟨hopen, _⟩
  · exact hsession.trans hclosed
  · exact absurd hclosed hopen

/-- Another thread ends its transaction. -/
theorem SessionRely.endTransaction {t u : Tid} (hne : t ≠ u) (w : Store)
    (session : Session) : SessionRely t w (w.endTransaction u session) := by
  refine .inl ⟨?_, fun id hid => ⟨?_, rfl⟩⟩
  · simp [Store.endTransaction, Store.setSession, Store.unlock, hne]
  · have hother : w.holder id ≠ some u := by
      rw [hid]
      exact fun h => hne (Option.some.inj h)
    simp [Store.endTransaction, Store.setSession, Store.unlock, hid, hne]

theorem SessionRely.setSession {t u : Tid} (hne : t ≠ u) (w : Store)
    (session : Session) : SessionRely t w (w.setSession u session) := by
  refine .inl ⟨?_, fun id hid => ⟨hid, rfl⟩⟩
  simp [Store.setSession, hne]

theorem SessionRely.statements {t : Tid} {w : Store} {statements : World}
    (h : w.Respects statements) :
    SessionRely t w { w with statements := statements } := by
  refine .inl ⟨rfl, fun id hid => ⟨hid, (h id ?_).1⟩⟩
  rw [hid]
  exact Option.some_ne_none t

/-- What the server does for another thread. -/
theorem SessionRely.serve {t u : Tid} (hne : t ≠ u) {now : Time}
    {w w' : Store} {q : ClientQuery} {answer : Option q.Answer}
    (h : serve u now w q = some (answer, w')) : SessionRely t w w' := by
  cases q with
  | begin =>
      simp only [StatementAnalyzer.serve] at h
      split at h <;> cases h
      exact .setSession hne w _
  | lockStatement id =>
      simp only [StatementAnalyzer.serve] at h
      split at h
      · rename_i hfree
        split at h <;> cases h
        · exact .refl t w
        · have hlock : SessionRely t w (w.lock u id) := by
            refine .inl ⟨rfl, fun other hother => ⟨?_, rfl⟩⟩
            have hid : other ≠ id := by
              rintro rfl
              rw [hfree] at hother
              cases hother
            simpa [Store.lock, hid] using hother
          exact hlock.trans (.setSession hne _ _)
      · cases h
  | insertTransaction id transaction =>
      simp only [StatementAnalyzer.serve] at h
      split at h
      · split at h
        · cases h
        · split at h <;> cases h
          · exact .setSession hne w _
          · exact .endTransaction hne w _
      · cases h
  | completeStatement id token =>
      simp only [StatementAnalyzer.serve] at h
      split at h
      · split at h
        · cases h
        · split at h <;> cases h
          · exact .setSession hne w _
          · exact .refl t w
      · cases h
  | commit =>
      simp only [StatementAnalyzer.serve] at h
      split at h
      · cases h
        exact .endTransaction hne w _
      · cases h
        exact .endTransaction hne w _
      · rename_i draft _
        split at h
        · rename_i token _
          split at h <;> cases h
          rename_i hheld
          have hcommit : SessionRely t w { w with
              statements := w.statements.set draft.id
                (draft.commit u token (w.statements draft.id)) } := by
            refine .inl ⟨rfl, fun other hother => ⟨hother, ?_⟩⟩
            have hid : other ≠ draft.id := by
              rintro rfl
              rw [hheld] at hother
              exact hne (Option.some.inj hother).symm
            exact congrArg Statement.row (World.set_ne _ hid _)
          exact hcommit.trans (.endTransaction hne _ _)
        · split at h <;> cases h
          exact .endTransaction hne w _
      · cases h
  | rollback =>
      simp only [StatementAnalyzer.serve] at h
      split at h <;> cases h
      exact .endTransaction hne w _

theorem SessionRely.exec {t u : Tid} (hne : t ≠ u) {q : Query}
    {w w' : Store} {answer : Except Thrown q.Answer}
    (h : Query.Exec u q w answer w') : SessionRely t w w' := by
  cases h with
  | request _ respects => exact .statements respects
  | connected _ | released => exact .setSession hne w _
  | unavailable => exact .refl t w
  | served h => exact .serve hne h
  | unstorable h => exact .serve hne h
  | failed _ _ | lost _ => exact .endTransaction hne w _
  | unconfirmed h => exact (SessionRely.serve hne h).trans (.endTransaction hne _ _)

theorem SessionRely.drifts {t : Tid} {w w' : Store} (h : w.Drifts w') :
    SessionRely t w w' := by
  cases h with
  | statements _ respects => exact .statements respects
  | @disconnected u hopen =>
      by_cases hut : t = u
      · subst hut
        exact .inr ⟨hopen, by simp [Store.endTransaction, Store.setSession]⟩
      · exact .endTransaction hut w _

/-- The repository as an implementation of the calls. -/
def repositoryImplementation {α : Type} (starts : Program α → World → Prop) :
    Implementation (querySystem repository starts) (callSystem starts) where
  rely := SessionRely
  refl := .refl
  trans := .trans
  exec h hne := .exec hne h
  start h := h.1 ▸ .refl _ _
  crash h _ := by
    cases h
    exact .refl _ _
  env := .drifts
  abs := Store.statements
  impl := repository
  Quiet t w := w.sessions t = .closed
  quiet_rely hclosed h := h.closed hclosed

end StatementAnalyzer
