/-
The columns of `transactions`: in every run of the repository each stored line,
and each line of an open transaction, is one that the columns accept.
-/
import StatementAnalyzer.Database.Runs

namespace StatementAnalyzer

open Async

/-- An upsert brings in no line of its own. -/
theorem mem_upsertTransaction {stored : List CreateTransactionInput}
    {transaction line : CreateTransactionInput}
    (h : line ∈ upsertTransaction stored transaction) :
    line ∈ stored ∨ line = transaction.row := by
  rw [upsertTransaction] at h
  split at h
  · obtain ⟨old, hold, rfl⟩ := List.mem_map.mp h
    split
    · exact .inr rfl
    · exact .inl hold
  · rcases List.mem_append.mp h with hstored | hnew
    · exact .inl hstored
    · exact .inr (List.mem_singleton.mp hnew)

theorem mem_foldl_upsertTransaction {transactions : List CreateTransactionInput}
    {line : CreateTransactionInput} :
    ∀ stored, line ∈ transactions.foldl upsertTransaction stored →
      line ∈ stored ∨ ∃ transaction ∈ transactions, line = transaction.row := by
  induction transactions with
  | nil => exact fun _ h => .inl h
  | cons transaction rest ih =>
      intro stored h
      rcases ih _ h with hupserted | hrest
      · rcases mem_upsertTransaction hupserted with hstored | rfl
        · exact .inl hstored
        · exact .inr ⟨_, List.mem_cons_self, rfl⟩
      · obtain ⟨other, hother, rfl⟩ := hrest
        exact .inr ⟨other, List.mem_cons_of_mem _ hother, rfl⟩

/-- Every column of every line accepts its value. -/
def Storable (transactions : List CreateTransactionInput) : Prop :=
  ∀ transaction ∈ transactions, transaction.storable = true

/-- Nothing but a save brings in lines. -/
theorem Advance.transactions_or_nil {id : Uuid} {e : Event} {s s' : Statement}
    (hs : Advance id e s s') (he : e.saved? = none) :
    s'.transactions = s.transactions ∨ s'.transactions = [] := by
  cases hs with
  | completed _ _ => cases he
  | removed _ => exact .inr rfl
  | created _ _ _ _ | updated _ _ _ | refused _ | errored | sent _
  | deliveredLate _ | deleting => exact .inl rfl

/-- The lines of the statements and those of the open transactions. -/
structure Store.Typed (w : Store) : Prop where
  statements : ∀ id, Storable (w.statements id).transactions
  drafts : ∀ t draft, w.sessions t = .working draft → Storable draft.inserted

section Typed

variable {w w' : Store} {t : Tid}

theorem Store.Typed.setSession (h : w.Typed) {session : Session}
    (hsession : ∀ draft, session = .working draft → Storable draft.inserted) :
    (w.setSession t session).Typed := by
  refine ⟨h.statements, fun u draft hworking => ?_⟩
  by_cases hut : u = t
  · subst hut
    rw [sessions_setSession] at hworking
    exact hsession draft hworking
  · have hsame : (w.setSession t session).sessions u = w.sessions u :=
      Function.update_of_ne hut _ _
    rw [hsame] at hworking
    exact h.drafts u draft hworking

theorem Store.Typed.endTransaction (h : w.Typed) {session : Session}
    (hsession : ∀ draft, session ≠ .working draft) :
    (w.endTransaction t session).Typed :=
  Store.Typed.setSession (w := w.unlock t) ⟨h.statements, h.drafts⟩
    fun draft hworking => absurd hworking (hsession draft)

/-- The statements change by events that bring in no lines. -/
theorem Store.Typed.steps (h : w.Typed) {statements : World}
    {P : Uuid → Event → Prop} (hsteps : w.statements.Steps P statements)
    (hP : ∀ id e, P id e → e.saved? = none) :
    Store.Typed { w with statements := statements } := by
  refine ⟨fun id => ?_, h.drafts⟩
  change Storable (statements id).transactions
  rcases hsteps.statement id with hsame | ⟨e, he, hs⟩
  · rw [hsame]
    exact h.statements id
  · rcases hs.transactions_or_nil (hP id e he) with hsame | hnil
    · rw [hsame]
      exact h.statements id
    · rw [hnil]
      exact fun _ hmem => absurd hmem List.not_mem_nil

theorem Store.Typed.commit (h : w.Typed) {draft : Draft} {token : Uuid}
    (hworking : w.sessions t = .working draft) :
    Store.Typed { w with
      statements := w.statements.set draft.id
        (draft.commit t token (w.statements draft.id)) } := by
  refine ⟨World.forall_set (P := fun s => Storable s.transactions) draft.id ?_
    h.statements, h.drafts⟩
  intro line hmem
  rcases mem_foldl_upsertTransaction _ hmem with
    hstored | ⟨transaction, hinserted, rfl⟩
  · exact h.statements draft.id line hstored
  · rw [transaction.storable_row]
    exact h.drafts t draft hworking transaction hinserted

theorem Store.Typed.serve {now : Time} {q : ClientQuery}
    {answer : Option q.Answer} (h : w.Typed)
    (hserve : serve t now w q = some (answer, w')) : w'.Typed := by
  cases q with
  | begin =>
      simp only [StatementAnalyzer.serve] at hserve
      split at hserve
      · cases hserve
        exact h.setSession (by rintro _ ⟨⟩)
      · cases hserve
  | lockStatement id =>
      simp only [StatementAnalyzer.serve] at hserve
      split at hserve
      · split at hserve
        · cases hserve
          exact h
        · cases hserve
          apply Store.Typed.setSession (w := w.lock t id)
            ⟨h.statements, h.drafts⟩
          rintro _ ⟨⟩ _ hmem
          cases hmem
      · cases hserve
  | insertTransaction id transaction =>
      simp only [StatementAnalyzer.serve] at hserve
      split at hserve
      · rename_i draft hworking
        split at hserve
        · cases hserve
        · split at hserve
          · rename_i hstorable
            cases hserve
            apply h.setSession
            rintro _ ⟨⟩
            exact List.forall_mem_append.mpr ⟨h.drafts t draft hworking,
              List.forall_mem_singleton.mpr hstorable⟩
          · cases hserve
            exact h.endTransaction (by simp)
      · cases hserve
  | completeStatement id token =>
      simp only [StatementAnalyzer.serve] at hserve
      split at hserve
      · rename_i draft hworking
        split at hserve
        · cases hserve
        · split at hserve
          · cases hserve
            apply h.setSession
            rintro _ ⟨⟩
            exact h.drafts t draft hworking
          · cases hserve
            exact h
      · cases hserve
  | commit =>
      simp only [StatementAnalyzer.serve] at hserve
      split at hserve
      · cases hserve
        exact h.endTransaction (by simp)
      · cases hserve
        exact h.endTransaction (by simp)
      · rename_i draft hworking
        split at hserve
        · split at hserve
          · cases hserve
            exact (h.commit hworking).endTransaction (by simp)
          · cases hserve
        · split at hserve
          · cases hserve
            exact h.endTransaction (by simp)
          · cases hserve
      · cases hserve
  | rollback =>
      simp only [StatementAnalyzer.serve] at hserve
      split at hserve
      · cases hserve
      · cases hserve
      · cases hserve
        exact h.endTransaction (by simp)

/-- Among the calls only the save brings in lines, and it is none of the
queries. -/
theorem Causes.unsaved {r : Request} {id : Uuid} {e : Event}
    (h : Causes t (.request r) id e) : e.saved? = none := by
  cases h <;> rfl

/-- A failed query leaves no transaction that works on. -/
theorem Session.fail_ne_working (session : Session) (q : ClientQuery)
    (draft : Draft) : session.fail q ≠ .working draft := by
  cases session <;> simp only [Session.fail, ne_eq, reduceCtorEq,
    not_false_eq_true]
  all_goals split <;> simp

theorem Store.Typed.exec {q : Query} {answer : Except Thrown q.Answer}
    (h : w.Typed) (hexec : Query.Exec t q w answer w') : w'.Typed := by
  cases hexec with
  | request executes _ =>
      exact h.steps (@Call.exec_steps _ _ _ (.request _) _ executes)
        fun _ _ hcauses => hcauses.unsaved
  | connected _ => exact h.setSession (by rintro _ ⟨⟩)
  | unavailable => exact h
  | served hserve => exact h.serve hserve
  | unstorable hserve => exact h.serve hserve
  | failed _ _ =>
      exact h.endTransaction (Session.fail_ne_working _ _)
  | lost _ => exact h.endTransaction (by simp)
  | unconfirmed hserve => exact (h.serve hserve).endTransaction (by simp)
  | released =>
      apply h.setSession
      intro draft hworking
      cases hsession : w.sessions t with
      | working kept =>
          rw [hsession] at hworking
          cases hworking
          exact h.drafts t draft hsession
      | closed | idle | begun _ | aborted | lost =>
          rw [hsession] at hworking
          cases hworking

end Typed

/-- Whatever is stored is typed. -/
theorem repository_typed {α : Type} {starts : Program α → World → Prop}
    {c : Config Store Query Query.Answer Thrown α}
    (h : (querySystem repository starts).Reachable c) : c.world.Typed := by
  induction h with
  | init h =>
      cases h
      refine ⟨fun _ _ hmem => absurd hmem List.not_mem_nil, ?_⟩
      rintro _ _ ⟨⟩
  | step _ hstep ih =>
      cases hstep with
      | call _ executes => exact ih.exec executes
      | start _ starts =>
          rw [Config.move_world, starts.1]
          exact ih
      | crash _ crashes =>
          cases crashes
          exact ih
      | env changes =>
          cases changes with
          | statements drifts _ =>
              refine ih.steps drifts.steps fun _ e he => ?_
              cases e <;> first | rfl | cases he
          | disconnected _ => exact ih.endTransaction (by simp)

end StatementAnalyzer

