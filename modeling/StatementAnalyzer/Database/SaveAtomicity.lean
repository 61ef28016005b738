/-
The atomicity of `saveTransactionsAndComplete`: whatever fails and whoever
interferes, it takes effect in the step of its COMMIT or not at all, and it
hands its client back outside any transaction.
-/
import StatementAnalyzer.Database.SaveTransactions

namespace StatementAnalyzer

open Async

theorem sessions_setSession (w : Store) (t : Tid) (session : Session) :
    (w.setSession t session).sessions t = session := by
  simp [Store.setSession]

theorem sessions_endTransaction (w : Store) (t : Tid) (session : Session) :
    (w.endTransaction t session).sessions t = session := by
  simp [Store.endTransaction, Store.setSession]

/-- No query but COMMIT changes what others can see. -/
theorem serve_statements {t : Tid} {now : Time} {w w' : Store}
    {q : ClientQuery} {answer : Option q.Answer} (hq : q ≠ .commit)
    (h : serve t now w q = some (answer, w')) :
    w'.statements = w.statements := by
  cases q with
  | begin | rollback =>
      simp only [serve] at h
      split at h <;> cases h
      rfl
  | lockStatement id =>
      simp only [serve] at h
      split at h
      · split at h <;> cases h <;> rfl
      · cases h
  | insertTransaction id transaction =>
      simp only [serve] at h
      split at h
      · split at h
        · cases h
        · split at h <;> cases h <;> rfl
      · cases h
  | completeStatement id token =>
      simp only [serve] at h
      split at h
      · split at h
        · cases h
        · split at h <;> cases h <;> rfl
      · cases h
  | commit => exact absurd rfl hq

/-- A rejected query other than COMMIT changes nothing that others can see. -/
theorem Query.Exec.rejected {t : Tid} {w w' : Store} {q : ClientQuery}
    {error : Thrown} (hq : q ≠ .commit)
    (h : Query.Exec t (.client q) w (.error error) w') :
    w'.statements = w.statements := by
  cases h with
  | unstorable h => exact serve_statements hq h
  | failed _ _ | lost _ => rfl
  | unconfirmed h =>
      have hsame := serve_statements hq h
      exact hsame

/-- Over a lost connection every query is rejected. -/
theorem Query.Exec.of_lost {t : Tid} {w w' : Store} {q : ClientQuery}
    {answer : Except Thrown q.Answer} (hlost : w.sessions t = .lost)
    (h : Query.Exec t (.client q) w answer w') :
    (∃ error, answer = .error error) ∧ w'.statements = w.statements ∧
      w'.sessions t = .lost := by
  have hnone : ∀ now, serve t now w q = none := by
    intro now
    cases q <;> simp [serve, hlost]
  cases h with
  | served h | unstorable h | unconfirmed h =>
      rw [hnone] at h
      cases h
  | failed _ _ =>
      exact ⟨⟨_, rfl⟩, rfl, by rw [sessions_endTransaction, hlost]; rfl⟩
  | lost _ => exact ⟨⟨_, rfl⟩, rfl, by rw [sessions_endTransaction]⟩

/-- ROLLBACK ends the transaction, or it is rejected over a lost connection. -/
theorem Query.Exec.rollback {t : Tid} {w w' : Store}
    {answer : Except Thrown Unit}
    (h : Query.Exec t (.client .rollback) w answer w') :
    w'.statements = w.statements ∧
      ((answer = .ok () ∧ w'.sessions t = .idle) ∨
        ((∃ error, answer = .error error) ∧ w'.sessions t = .lost)) := by
  have hq : ClientQuery.rollback ≠ .commit := by decide
  cases h with
  | served h =>
      refine ⟨serve_statements hq h, .inl ⟨rfl, ?_⟩⟩
      simp only [serve] at h
      split at h <;> cases h
      exact sessions_endTransaction w t .idle
  | unstorable h =>
      simp only [serve] at h
      split at h <;> cases h
  | failed hq _ => exact absurd rfl hq
  | lost _ =>
      exact ⟨rfl, .inr ⟨⟨_, rfl⟩, sessions_endTransaction w t .lost⟩⟩
  | unconfirmed h =>
      have hsame := serve_statements hq h
      exact ⟨hsame, .inr ⟨⟨_, rfl⟩, sessions_endTransaction _ t .lost⟩⟩

/-- What follows the body of the `try` block: the `catch` and `finally`
blocks. -/
def cleanUp (result : Except Thrown Unit) : QueryProgram Unit :=
  Proc.ensure (Proc.orElse (Proc.settled result) rollbackTransaction)
    (Proc.call Query.release)

theorem saveTransactionsAndComplete_eq (id token : Uuid)
    (transactions : List CreateTransactionInput) :
    saveTransactionsAndComplete id token transactions =
      (Proc.call Query.connect).andThen (Proc.onValue fun _ =>
        (query .begin).andThen fun result =>
          (Proc.onValue
            (fun _ => saveUnderLock id token transactions) result).andThen
              cleanUp) := by
  simp only [saveTransactionsAndComplete, Proc.bind_eq, Proc.ensure,
    Proc.orElse, Proc.andThen_assoc]
  rfl

section Tracks

variable {α : Type} {starts : Program α → World → Prop} {t : Tid}
variable {id token : Uuid} {transactions : List CreateTransactionInput}
variable {w : Store}

/-- The procedure goes on as the save should, in this phase of it. -/
abbrev SaveTracks (starts : Program α → World → Prop) (t : Tid)
    (id token : Uuid) (transactions : List CreateTransactionInput)
    (phase : Phase Thrown Unit)
    (p : QueryProgram
      (Call.saveTransactionsAndComplete id token transactions).Answer)
    (w : Store) : Prop :=
  (repositoryImplementation starts).Tracks t
    (.saveTransactionsAndComplete id token transactions) phase p
    ((repositoryImplementation starts).Finished t) w

/-- Outside any transaction, `release()` gives the client back. -/
theorem tracks_release {result : Except Thrown Unit}
    (hsession : w.sessions t = .idle ∨ w.sessions t = .lost) :
    SaveTracks starts t id token transactions (some result)
      (Proc.ensure (Proc.settled result) (Proc.call Query.release)) w := by
  intro w₁ hrely answer w₂ hexec
  have hsession₁ : w₁.sessions t = .idle ∨ w₁.sessions t = .lost := by
    rcases hrely with ⟨hsame, _⟩ | ⟨_, hlost⟩
    · rwa [hsame]
    · exact .inr hlost
  cases hexec
  refine ⟨some result, ⟨rfl, rfl⟩, fun w₃ hrely' => ⟨rfl, hrely'.closed ?_⟩⟩
  rw [sessions_setSession]
  rcases hsession₁ with h | h <;> rw [h] <;> rfl

/-- A thrown error before the effect: ROLLBACK, release, throw. -/
theorem tracks_cleanUp_error {error : Thrown} :
    SaveTracks starts t id token transactions none (cleanUp (.error error))
      w := by
  intro w₁ hrely answer w₂ hexec
  obtain ⟨hstatements, houtcome⟩ := Query.Exec.rollback hexec
  have hrolledBack : ∀ error, Saves t id token transactions w₁.statements
      (.error error) w₂.statements := by
    intro error
    rw [hstatements]
    exact .rolledBack
  rcases houtcome with ⟨rfl, hidle⟩ | ⟨⟨rollbackError, rfl⟩, hlost⟩
  · exact ⟨some (.error error), hrolledBack error, tracks_release (.inl hidle)⟩
  · exact ⟨some (.error aggregateError), hrolledBack aggregateError,
      tracks_release (.inr hlost)⟩

/-- A connection that broke after COMMIT took effect: ROLLBACK is rejected as
well. -/
theorem tracks_cleanUp_lost {error : Thrown} (hlost : w.sessions t = .lost) :
    SaveTracks starts t id token transactions (some (.error aggregateError))
      (cleanUp (.error error)) w := by
  intro w₁ hrely answer w₂ hexec
  have hlost₁ : w₁.sessions t = .lost := by
    rcases hrely with ⟨hsame, _⟩ | ⟨_, h⟩
    · exact hsame.trans hlost
    · exact h
  obtain ⟨⟨rollbackError, rfl⟩, hstatements, hlost₂⟩ :=
    Query.Exec.of_lost hlost₁ hexec
  exact ⟨_, ⟨rfl, hstatements⟩, tracks_release (.inr hlost₂)⟩

/-- One query before COMMIT: it is served, or the error path is taken. -/
theorem tracks_query {q : ClientQuery} (hq : q ≠ .commit)
    {next : Except Thrown q.Answer → QueryProgram Unit}
    (hserved : ∀ w₁ now answer w₂, SessionRely t w w₁ →
      serve t now w₁ q = some (some answer, w₂) →
        SaveTracks starts t id token transactions none (next (.ok answer)) w₂)
    (hrejected : ∀ error w₂,
      SaveTracks starts t id token transactions none (next (.error error))
        w₂) :
    SaveTracks starts t id token transactions none ((query q).andThen next)
      w := by
  intro w₁ hrely answer w₂ hexec
  cases answer with
  | ok answer =>
      cases hexec with
      | served h =>
          exact ⟨none, serve_statements hq h,
            hserved w₁ _ answer w₂ hrely h⟩
  | error error =>
      exact ⟨none, Query.Exec.rejected hq hexec, hrejected error w₂⟩

/-- The transaction holds the lock of the row that it has drafted changes to,
and the row is still the one it has locked. -/
structure Working (t : Tid) (draft : Draft) (w : Store) : Prop where
  session : w.sessions t = .working draft
  held : w.holder draft.id = some t
  row : (w.statements draft.id).row = some draft.row

theorem Working.rely {draft : Draft} {w' : Store} (h : Working t draft w)
    (hrely : SessionRely t w w') :
    Working t draft w' ∨ w'.sessions t = .lost := by
  rcases hrely with ⟨hsession, hlocks⟩ | ⟨_, hlost⟩
  · obtain ⟨hheld, hrow⟩ := hlocks draft.id h.held
    exact .inl ⟨hsession.trans h.session, hheld, hrow.trans h.row⟩
  · exact .inr hlost

/-- A query that is served finds the transaction as it was left. -/
theorem Working.served {draft : Draft} {w' w'' : Store} {now : Time}
    {q : ClientQuery} {answer : Option q.Answer} (h : Working t draft w)
    (hrely : SessionRely t w w')
    (hserve : serve t now w' q = some (answer, w'')) : Working t draft w' := by
  rcases h.rely hrely with hworking | hlost
  · exact hworking
  · cases q <;> simp [serve, hlost] at hserve

/-- The session moves on within the transaction. -/
theorem Working.setSession {draft draft' : Draft} (h : Working t draft w)
    (hid : draft'.id = draft.id) (hrow : draft'.row = draft.row) :
    Working t draft' (w.setSession t (.working draft')) :=
  ⟨sessions_setSession w t _, hid ▸ h.held, hid ▸ hrow ▸ h.row⟩

/-- COMMIT is the step at which the save takes effect. -/
theorem Working.commit {draft : Draft} {w' : Store} {now : Time}
    {answer : Option Unit} (h : Working t draft w)
    (hcompleted : draft.completedWith = some token)
    (hclaimed : draft.row.claimedBy draft.now token = true)
    (hserve : serve t now w .commit = some (answer, w')) :
    ∃ s, Advance draft.id (.completed t draft.now token draft.inserted)
        (w.statements draft.id) s ∧
      w'.statements = w.statements.set draft.id s ∧
      w'.sessions t = .idle ∧ answer = some () := by
  obtain ⟨row', hrow'⟩ : ∃ row', draft.row.complete draft.now token =
      some row' := by
    simp [StatementRecord.complete, hclaimed]
  simp only [serve, h.session, hcompleted, h.held, if_pos] at hserve
  cases hserve
  refine ⟨draft.commit t token (w.statements draft.id), ?_, rfl,
    sessions_endTransaction _ t .idle, rfl⟩
  rw [Draft.commit, hrow']
  exact .completed h.row hrow'

theorem tracks_commit {draft : Draft} (h : Working t draft w)
    (hid : draft.id = id) (hinserted : draft.inserted = transactions)
    (hcompleted : draft.completedWith = some token)
    (hclaimed : draft.row.claimedBy draft.now token = true) :
    SaveTracks starts t id token transactions none
      ((query .commit).andThen cleanUp) w := by
  subst hid hinserted
  intro w₁ hrely answer w₂ hexec
  cases hexec with
  | served hserve =>
      obtain ⟨s, hs, hset, hidle, _⟩ :=
        (h.served hrely hserve).commit hcompleted hclaimed hserve
      refine ⟨some (.ok ()), ?_, tracks_release (.inl hidle)⟩
      change Saves t draft.id token draft.inserted w₁.statements _ w₂.statements
      rw [hset]
      exact .committed hs
  | unstorable hserve =>
      obtain ⟨_, _, _, _, hanswer⟩ :=
        (h.served hrely hserve).commit hcompleted hclaimed hserve
      cases hanswer
  | failed _ _ | lost _ => exact ⟨none, rfl, tracks_cleanUp_error⟩
  | @unconfirmed _ _ w' _ _ error hserve =>
      obtain ⟨s, hs, hset, _, _⟩ :=
        (h.served hrely hserve).commit hcompleted hclaimed hserve
      refine ⟨some (.error aggregateError), ?_,
        tracks_cleanUp_lost (sessions_endTransaction w' t .lost)⟩
      change Saves t draft.id token draft.inserted w₁.statements _ w'.statements
      rw [hset]
      exact .unconfirmed hs

theorem tracks_complete {draft : Draft} (h : Working t draft w)
    (hid : draft.id = id) (hinserted : draft.inserted = transactions)
    (hcompleted : draft.completedWith = none) :
    SaveTracks starts t id token transactions none
      ((query (.completeStatement id token)).andThen fun result =>
        (Proc.onValue (fun completed : Nat =>
          if completed ≠ 1 then Proc.throwing processingClaimLostError
          else query .commit) result).andThen cleanUp) w := by
  refine tracks_query (by nofun) (fun w₁ now answer w₂ hrely hserve => ?_)
    fun _ _ => tracks_cleanUp_error
  have hworking := h.served hrely hserve
  simp only [serve, hworking.session, hid, ne_eq, not_true_eq_false, ite_false,
    hcompleted, true_and] at hserve
  split at hserve
  · rename_i hclaimed
    cases hserve
    exact tracks_commit (hworking.setSession hid.symm rfl) rfl hinserted rfl
      hclaimed
  · cases hserve
    exact tracks_cleanUp_error

/-- The loop: whatever is left to insert, the draft collects it. -/
theorem tracks_insert {rest : List CreateTransactionInput}
    {d : Draft} (h : Working t d w) (hid : d.id = id)
    (hinserted : d.inserted ++ rest = transactions)
    (hcompleted : d.completedWith = none) :
    SaveTracks starts t id token transactions none
      ((insertTransactions id rest).andThen fun result =>
        (Proc.onValue (fun _ =>
          (query (.completeStatement id token)).andThen
            (Proc.onValue fun completed : Nat =>
              if completed ≠ 1 then Proc.throwing processingClaimLostError
              else query .commit)) result).andThen cleanUp) w := by
  induction rest generalizing d w with
  | nil =>
      rw [List.append_nil] at hinserted
      rw [insertTransactions, Proc.pure_eq, Proc.settled_andThen,
        Proc.onValue_ok, Proc.andThen_assoc]
      exact tracks_complete h hid hinserted hcompleted
  | cons transaction rest ih =>
      rw [insertTransactions, Proc.bind_eq, Proc.andThen_assoc]
      refine tracks_query (by nofun) (fun w₁ now answer w₂ hrely hserve => ?_)
        fun _ _ => tracks_cleanUp_error
      have hworking := h.served hrely hserve
      simp only [serve, hworking.session, hid, ne_eq, not_true_eq_false,
        ite_false] at hserve
      split at hserve
      · cases hserve
        refine ih (hworking.setSession hid.symm rfl) rfl ?_ hcompleted
        rw [List.append_assoc]
        exact hinserted
      · cases hserve

theorem tracks_saveUnderLock {began : Time}
    (hsession : w.sessions t = .begun began) :
    SaveTracks starts t id token transactions none
      ((saveUnderLock id token transactions).andThen cleanUp) w := by
  rw [saveUnderLock, Proc.bind_eq, Proc.andThen_assoc]
  refine tracks_query (by nofun) (fun w₁ now answer w₂ hrely hserve => ?_)
    fun _ _ => tracks_cleanUp_error
  have hsession₁ : w₁.sessions t = .begun began := by
    rcases hrely with ⟨hsame, _⟩ | ⟨_, hlost⟩
    · exact hsame.trans hsession
    · simp [serve, hlost] at hserve
  simp only [serve, hsession₁] at hserve
  split at hserve
  · split at hserve
    · cases hserve
      exact tracks_cleanUp_error
    · rename_i began' _ heq hfree _ row hrow
      cases heq
      cases hserve
      rw [Proc.onValue_ok]
      dsimp only [List.head?_cons]
      split
      · exact tracks_cleanUp_error
      · simp only [Proc.bind_eq, Proc.andThen_assoc]
        refine tracks_insert (d := ⟨began, id, row, [], none⟩) ?_ rfl rfl rfl
        refine ⟨sessions_setSession _ t _, ?_, hrow⟩
        simp [Store.setSession, Store.lock]
  · cases hserve

theorem tracks_begin :
    SaveTracks starts t id token transactions none
      ((query .begin).andThen fun result =>
        (Proc.onValue (fun _ => saveUnderLock id token transactions)
          result).andThen cleanUp) w := by
  refine tracks_query (by nofun) (fun w₁ now answer w₂ hrely hserve => ?_)
    fun _ _ => tracks_cleanUp_error
  simp only [serve] at hserve
  split at hserve <;> cases hserve
  exact tracks_saveUnderLock (sessions_setSession w₁ t _)

variable (starts) in
theorem save_atomic (id token : Uuid)
    (transactions : List CreateTransactionInput) :
    (repositoryImplementation starts).Atomic
      (.saveTransactionsAndComplete id token transactions) := by
  intro t w hquiet
  change SaveTracks starts t id token transactions none
    (saveTransactionsAndComplete id token transactions) w
  rw [saveTransactionsAndComplete_eq]
  intro w₁ hrely answer w₂ hexec
  cases hexec with
  | connected _ =>
      exact ⟨none, rfl, tracks_begin⟩
  | @unavailable _ error =>
      refine ⟨some (.error error), .rolledBack, fun w₃ hrely' => ⟨rfl, ?_⟩⟩
      exact hrely'.closed (hrely.closed hquiet)

variable (starts) in
theorem request_atomic (r : Request) :
    (repositoryImplementation starts).Atomic (.request r) := by
  intro t w hquiet w₁ hrely answer w₂ hexec
  cases hexec with
  | request executes _ =>
      refine ⟨some answer, executes, fun w₃ hrely' => ⟨rfl, ?_⟩⟩
      exact hrely'.closed (hrely.closed hquiet)

end Tracks

/-- The repository over database sessions refines the atomic calls. -/
def repositoryRefinement {α : Type} (starts : Program α → World → Prop) :
    Refinement (querySystem repository starts) (callSystem starts) where
  toImplementation := repositoryImplementation starts
  atomic
    | .request r => request_atomic starts r
    | .saveTransactionsAndComplete id token transactions =>
        save_atomic starts id token transactions
  init h := by
    cases h
    rfl
  starts h := by
    obtain ⟨rfl, hclosed, q, rfl, hstarts⟩ := h
    exact ⟨q, rfl, ⟨hstarts, rfl⟩, hclosed⟩
  crashes h := by
    cases h
    rfl
  environment h := by
    cases h with
    | statements drifts _ => exact .inr drifts
    | disconnected _ => exact .inl rfl

end StatementAnalyzer
