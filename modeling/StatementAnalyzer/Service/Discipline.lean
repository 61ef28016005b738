/-
What the programs of the service keep to when they touch a statement, and what
follows for it: the scripts of the requests for its analysis, the messages that
may be acknowledged and the lists that may be stored.
-/
import StatementAnalyzer.Service.Enqueue

namespace StatementAnalyzer

open Async

/-- The statement was created, and it is finished or deleted. -/
structure Statement.Settled (s : Statement) : Prop where
  created : ¬s.NeverCreated
  finished : ∀ row, s.row = some row → row.status.isTerminal = true

/-- The row of a settled statement stays as it is until it is deleted, and is
never inserted again. -/
theorem Advance.row_of_settled {id : Uuid} {e : Event} {s s' : Statement}
    (hs : Advance id e s s') (h : s.Settled) :
    s'.row = s.row ∨ s'.row = none := by
  by_cases hremoved : e = .removed
  · subst hremoved
    cases hs
    exact .inr rfl
  · cases hrow : s.row with
    | some row =>
        exact .inl (hs.finished hrow (h.finished row hrow) h.created
          hremoved).1
    | none =>
        cases hs with
        | created fresh _ _ _ => exact absurd fresh h.created
        | updated hsome _ _ | completed hsome _ =>
            rw [hrow] at hsome
            cases hsome
        | refused _ | errored | sent _ | deliveredLate _ | deleting =>
            exact .inr hrow
        | removed _ => exact .inr rfl

/-- A settled statement stays settled, whatever happens to it. -/
theorem Advance.settled {id : Uuid} {e : Event} {s s' : Statement}
    (hs : Advance id e s s') (h : s.Settled) : s'.Settled := by
  refine ⟨fun hnever => h.created (hnever.of_cons hs.history), ?_⟩
  intro row hrow
  rcases hs.row_of_settled h with hsame | hnone
  · exact h.finished row (hsame ▸ hrow)
  · rw [hnone] at hrow
    cases hrow

theorem Evolves.settled {id : Uuid} {P : Event → Prop} {s s' : Statement}
    (hs : Evolves id P s s') (h : s.Settled) :
    s'.Settled ∧ (s'.row = s.row ∨ s'.row = none) := by
  refine hs.preserves (K := fun s₁ => s₁.Settled ∧
    (s₁.row = s.row ∨ s₁.row = none)) (fun _ hadvance hK => ?_) ⟨h, .inl rfl⟩
  refine ⟨hadvance.settled hK.1, ?_⟩
  rcases hadvance.row_of_settled hK.1 with hsame | hnone
  · rw [hsame]
    exact hK.2
  · exact .inr hnone

/-- An attempt to claim the statement, whatever came of it. -/
def Event.claiming : Event → Bool
  | updated _ _ (.claimForProcessing _ _) _ => true
  | refused _ _ (.claimForProcessing _ _) => true
  | errored _ (.claimForProcessing _ _) => true
  | _ => false

def Event.deletes : Event → Bool
  | deleting _ _ _ => true
  | _ => false

/-- What a program may do to the statement.  Requests for the analysis follow
their script, workers claim on a message only and acknowledge settled
statements only, and a stored list numbers its lines without repetition. -/
structure Statement.Allows (s : Statement) (e : Event) : Prop where
  script : ∀ t mark, e.markBy? t = some mark →
    Scripted (mark :: marks t s.history)
  claim : e.claiming = true → s.messages ≠ []
  deletion : e.deletes = true → s.Settled
  save : ∀ transactions, e.saved? = some transactions →
    (transactions.map CreateTransactionInput.lineNumber).Nodup

/-- Only allowed things have happened to the statement. -/
structure Statement.Orderly (s : Statement) : Prop where
  scripts : ∀ t, Scripted (marks t s.history)
  claims : ∀ e ∈ s.history, e.claiming = true → s.messages ≠ []
  deletions : ∀ e ∈ s.history, e.deletes = true → s.Settled
  saves : ∀ transactions ∈ saves s.history,
    (transactions.map CreateTransactionInput.lineNumber).Nodup

theorem Statement.orderly_unused : Statement.unused.Orderly :=
  ⟨fun _ => .nothing, fun _ h => absurd h List.not_mem_nil,
    fun _ h => absurd h List.not_mem_nil, fun _ h => absurd h List.not_mem_nil⟩

/-- Messages are never taken out of the list. -/
theorem Advance.messages_length {id : Uuid} {e : Event} {s s' : Statement}
    (hs : Advance id e s s') : s.messages.length ≤ s'.messages.length := by
  cases hs with
  | @sent _ t reported delivered hreported =>
      cases delivered <;> simp [Statement.log]
  | deliveredLate _ => simp [Statement.log]
  | @deleting _ t index effective =>
      cases effective <;> simp [Statement.log, markDeleted]
  | created _ _ _ _ | updated _ _ _ | refused _ | errored | completed _ _
  | removed _ => exact Nat.le_refl _

theorem Advance.messages_ne_nil {id : Uuid} {e : Event} {s s' : Statement}
    (hs : Advance id e s s') (h : s.messages ≠ []) : s'.messages ≠ [] := by
  have hlength := hs.messages_length
  have hpos := List.length_pos_iff.mpr h
  exact List.length_pos_iff.mp (by omega)

/-- An allowed event keeps the statement orderly. -/
theorem Advance.orderly {id : Uuid} {e : Event} {s s' : Statement}
    (hs : Advance id e s s') (h : s.Orderly) (hallows : s.Allows e) :
    s'.Orderly := by
  refine ⟨fun t => ?_, fun e' hmem hclaiming => ?_, fun e' hmem hdeletes => ?_,
    ?_⟩
  · rw [hs.history, marks_cons]
    cases hmark : e.markBy? t with
    | none => exact h.scripts t
    | some mark => exact hallows.script t mark hmark
  · rw [hs.history] at hmem
    apply hs.messages_ne_nil
    rcases List.mem_cons.mp hmem with rfl | hmem
    · exact hallows.claim hclaiming
    · exact h.claims e' hmem hclaiming
  · rw [hs.history] at hmem
    apply hs.settled
    rcases List.mem_cons.mp hmem with rfl | hmem
    · exact hallows.deletion hdeletes
    · exact h.deletions e' hmem hdeletes
  · intro transactions hmem
    rw [hs.history, saves_cons] at hmem
    rcases List.mem_append.mp hmem with hmem | hmem
    · exact hallows.save transactions (Option.mem_toList.mp hmem)
    · exact h.saves transactions hmem

/-- What happens by itself is allowed. -/
theorem Advance.allows_of_env {id : Uuid} {e : Event} {s s' : Statement}
    (hs : Advance id e s s') (h : s.Orderly) (he : e.thread = none) :
    s.Allows e := by
  refine ⟨fun t mark hmark => ?_, fun hclaiming => ?_, fun hdeletes => ?_,
    fun transactions hsaved => ?_⟩
  · rw [Event.markBy?, he, if_neg (by simp)] at hmark
    cases hmark
  · cases hs with
    | @updated _ t now u late row row' hrow applies hlate =>
        cases late with
        | false => cases he
        | true =>
            -- the call of a late claim has reported an error before
            have hcount := (hlate rfl).2
            have hmem : .errored t u ∈ s.history :=
              List.count_pos_iff.mp (by omega)
            refine h.claims _ hmem ?_
            cases u <;> first | rfl | cases hclaiming
    | refused _ | errored => cases he
    | _ => cases hclaiming
  · cases hs with
    | deleting => cases he
    | _ => cases hdeletes
  · cases hs with
    | completed _ _ => cases he
    | _ => cases hsaved

end StatementAnalyzer
