/-
Fencing by processing tokens.  The claims, the two ways of finishing and the
stored transactions of a statement, read off its history.
-/
import StatementAnalyzer.Database.RowInvariant
import Mathlib.Tactic.Positivity

namespace StatementAnalyzer

open Async

/-- A successful `claimForProcessing`. -/
structure Claim where
  worker : Tid
  token : Uuid
  now : Time
  expires : Time
deriving DecidableEq, Repr

/-- A committed terminal status. -/
structure Verdict where
  worker : Tid
  token : Uuid
deriving DecidableEq, Repr

def Event.claim? : Event → Option Claim
  | updated t now (.claimForProcessing token leaseSeconds) _ =>
      some ⟨t, token, now, now + leaseSeconds * 1000000⟩
  | _ => none

def Event.verdict? : Event → Option Verdict
  | updated t _ (.markFailed token _ _) _ => some ⟨t, token⟩
  | completed t _ token _ => some ⟨t, token⟩
  | _ => none

/-- The lists that a committed save was given. -/
def Event.saved? : Event → Option (List CreateTransactionInput)
  | completed _ _ _ transactions => some transactions
  | _ => none

/-- The successful claims, latest first. -/
def claims (history : List Event) : List Claim :=
  history.filterMap Event.claim?

def verdicts (history : List Event) : List Verdict :=
  history.filterMap Event.verdict?

def saves (history : List Event) : List (List CreateTransactionInput) :=
  history.filterMap Event.saved?

@[simp] theorem claims_cons (e : Event) (older : List Event) :
    claims (e :: older) = e.claim?.toList ++ claims older := by
  cases h : e.claim? <;> simp [claims, h]

@[simp] theorem verdicts_cons (e : Event) (older : List Event) :
    verdicts (e :: older) = e.verdict?.toList ++ verdicts older := by
  cases h : e.verdict? <;> simp [verdicts, h]

@[simp] theorem saves_cons (e : Event) (older : List Event) :
    saves (e :: older) = e.saved?.toList ++ saves older := by
  cases h : e.saved? <;> simp [saves, h]

/-- Claims come after the lease of every earlier one and before any verdict;
the verdict is the only one and carries the token of the last claim. -/
def Fenced : List Event → Prop
  | [] => True
  | e :: older =>
      Fenced older ∧
        (∀ claim, e.claim? = some claim → verdicts older = [] ∧
          ∀ earlier ∈ claims older, earlier.expires < claim.now) ∧
        (∀ verdict, e.verdict? = some verdict → verdicts older = [] ∧
          ∃ claim, (claims older).head? = some claim ∧
            claim.token = verdict.token)

theorem Fenced.of_append {newer older : List Event}
    (h : Fenced (newer ++ older)) : Fenced older := by
  induction newer with
  | nil => exact h
  | cons e newer ih => exact ih h.1

theorem claim_now_le_expires {history : List Event} {claim : Claim}
    (h : claim ∈ claims history) : claim.now ≤ claim.expires := by
  obtain ⟨e, _, he⟩ := List.mem_filterMap.mp h
  cases e with
  | updated t now u late =>
      cases u <;> simp only [Event.claim?, reduceCtorEq, Option.some.injEq] at he
      subst he
      exact Int.le_add_of_nonneg_right (by positivity)
  | _ => simp [Event.claim?] at he

theorem Fenced.claims_pairwise {history : List Event} (h : Fenced history) :
    (claims history).Pairwise fun later earlier =>
      earlier.expires < later.now := by
  induction history with
  | nil => exact .nil
  | cons e older ih =>
      obtain ⟨holder, hclaim, _⟩ := h
      rw [claims_cons]
      cases he : e.claim? with
      | none => exact ih holder
      | some claim => exact .cons (hclaim claim he).2 (ih holder)

theorem Fenced.verdicts_length {history : List Event} (h : Fenced history) :
    (verdicts history).length ≤ 1 := by
  induction history with
  | nil => exact Nat.zero_le 1
  | cons e older ih =>
      obtain ⟨holder, _, hverdict⟩ := h
      rw [verdicts_cons]
      cases he : e.verdict? with
      | none => exact ih holder
      | some verdict =>
          rw [(hverdict verdict he).1]
          exact Nat.le_refl 1

/-- Nothing is claimed after a verdict. -/
theorem Fenced.no_claim_after {newer older : List Event} {e : Event}
    {verdict : Verdict} (h : Fenced (newer ++ e :: older))
    (he : e.verdict? = some verdict) : claims newer = [] := by
  induction newer with
  | nil => rfl
  | cons e' newer ih =>
      obtain ⟨hrest, hclaim, _⟩ := h
      rw [claims_cons, ih hrest]
      cases he' : e'.claim? with
      | none => rfl
      | some claim =>
          have hnone := (hclaim claim he').1
          simp [verdicts, he] at hnone

/-- A verdict carries the token of the last claim of all. -/
theorem Fenced.verdict_claim {history : List Event} (h : Fenced history) :
    ∀ verdict ∈ verdicts history, ∃ claim,
      (claims history).head? = some claim ∧ claim.token = verdict.token := by
  intro verdict hverdict
  obtain ⟨e, hmem, he⟩ := List.mem_filterMap.mp hverdict
  obtain ⟨newer, older, rfl⟩ := List.append_of_mem hmem
  have hafter := h.no_claim_after he
  have hold : Fenced (e :: older) := h.of_append
  have hclaim : e.claim? = none := by
    cases hclaim : e.claim? with
    | none => rfl
    | some claim =>
        obtain ⟨_, last, hhead, _⟩ := hold.2.2 verdict he
        cases e with
        | updated t now u late => cases u <;> simp [Event.claim?, Event.verdict?] at *
        | _ => simp [Event.claim?] at hclaim
  rw [claims] at hafter
  simp only [claims, List.filterMap_append, hafter, List.nil_append,
    List.filterMap_cons_none hclaim]
  exact (hold.2.2 verdict he).2

/-- What the row, the transactions and the history of a statement have to do
with each other. -/
structure Statement.Fenced (s : Statement) : Prop where
  history : StatementAnalyzer.Fenced s.history
  blank : s.NeverCreated → s.row = none ∧ claims s.history = [] ∧
    verdicts s.history = [] ∧ saves s.history = []
  bare : s.row = none → s.transactions = []
  unclaimed : ∀ row, s.row = some row →
    row.status = .uploadPending ∨ row.status = .uploaded ∨
      row.status = .queued → claims s.history = []
  claimed : ∀ row, s.row = some row → row.status = .processing →
    ∃ claim, (claims s.history).head? = some claim ∧
      row.processingToken = some claim.token ∧
      row.processingLeaseExpiresAt = some claim.expires
  undecided : ∀ row, s.row = some row → row.status.isTerminal = false →
    verdicts s.history = []
  unsaved : ∀ row, s.row = some row → row.status ≠ .completed →
    s.transactions = [] ∧ saves s.history = []
  saved : ∀ row, s.row = some row → row.status = .completed →
    ∃ transactions, saves s.history = [transactions] ∧
      s.transactions = transactions.foldl upsertTransaction []

/-- Without a row most of it is void. -/
theorem Statement.Fenced.of_no_row {s : Statement} (hrow : s.row = none)
    (htransactions : s.transactions = [])
    (hhistory : StatementAnalyzer.Fenced s.history)
    (hblank : s.NeverCreated → claims s.history = [] ∧
      verdicts s.history = [] ∧ saves s.history = []) : s.Fenced := by
  have habsurd : ∀ row, s.row ≠ some row := by
    intro row h
    rw [hrow] at h
    cases h
  exact ⟨hhistory, fun hnever => ⟨hrow, hblank hnever⟩, fun _ => htransactions,
    fun row h => absurd h (habsurd row), fun row h => absurd h (habsurd row),
    fun row h => absurd h (habsurd row), fun row h => absurd h (habsurd row),
    fun row h => absurd h (habsurd row)⟩

/-- An event that is neither a claim nor a verdict. -/
def Event.Silent (e : Event) : Prop :=
  e.claim? = none ∧ e.verdict? = none ∧ e.saved? = none

theorem Fenced.cons_silent {e : Event} {older : List Event} (he : e.Silent)
    (h : Fenced older) : Fenced (e :: older) := by
  obtain ⟨hclaim, hverdict, _⟩ := he
  refine ⟨h, fun claim hc => ?_, fun verdict hv => ?_⟩
  · rw [hclaim] at hc
    cases hc
  · rw [hverdict] at hv
    cases hv

theorem Statement.NeverCreated.of_cons {s s' : Statement} {e : Event}
    (hhistory : s'.history = e :: s.history) (h : s'.NeverCreated) :
    s.NeverCreated := by
  intro t now columns hmem
  exact h t now columns (hhistory ▸ List.mem_cons_of_mem e hmem)

/-- A silent event that leaves the row and the transactions alone. -/
theorem Statement.Fenced.silent {s s' : Statement} {e : Event}
    (h : s.Fenced) (hhistory : s'.history = e :: s.history) (he : e.Silent)
    (hrow : s'.row = s.row)
    (htransactions : s'.transactions = s.transactions) : s'.Fenced := by
  have hclaims : claims s'.history = claims s.history := by
    rw [hhistory, claims_cons, he.1]
    rfl
  have hverdicts : verdicts s'.history = verdicts s.history := by
    rw [hhistory, verdicts_cons, he.2.1]
    rfl
  have hsaves : saves s'.history = saves s.history := by
    rw [hhistory, saves_cons, he.2.2]
    rfl
  refine ⟨hhistory ▸ h.history.cons_silent he, fun hnever => ?_, ?_, ?_, ?_, ?_,
    ?_, ?_⟩
  · rw [hrow, hclaims, hverdicts, hsaves]
    exact h.blank (hnever.of_cons hhistory)
  · rw [hrow, htransactions]
    exact h.bare
  · rw [hrow, hclaims]
    exact h.unclaimed
  · rw [hrow, hclaims]
    exact h.claimed
  · rw [hrow, hverdicts]
    exact h.undecided
  · rw [hrow, htransactions, hsaves]
    exact h.unsaved
  · rw [hrow, htransactions, hsaves]
    exact h.saved

/-- A statement with a row was created. -/
theorem Statement.Fenced.not_neverCreated {s : Statement}
    {row : StatementRecord} (h : s.Fenced) (hrow : s.row = some row) :
    ¬s.NeverCreated := by
  intro hnever
  have hnone := (h.blank hnever).1
  rw [hrow] at hnone
  cases hnone

section Steps

variable {s : Statement} {row row' : StatementRecord} {t : Tid} {now : Time}

/-- A status change among the statuses before the first claim. -/
theorem Statement.Fenced.moved {u : Update} {late : Bool} (h : s.Fenced)
    (hrow : s.row = some row)
    (hsilent : (Event.updated t now u late).Silent)
    (hstatus : row.status = .uploadPending ∨ row.status = .uploaded ∨
      row.status = .queued)
    (hstatus' : row'.status = .uploaded ∨ row'.status = .queued) :
    ({ s with row := some row' }.log (.updated t now u late)).Fenced := by
  have hopen : row.status.isTerminal = false := by
    rcases hstatus with h | h | h <;> rw [h] <;> rfl
  have hclaims := h.unclaimed row hrow hstatus
  have hverdicts := h.undecided row hrow hopen
  have hunsaved := h.unsaved row hrow
    (by rcases hstatus with h | h | h <;> rw [h] <;> decide)
  have hnot : row'.status ≠ .processing ∧ row'.status ≠ .completed := by
    rcases hstatus' with h | h <;> rw [h] <;> decide
  refine ⟨h.history.cons_silent hsilent, fun hnever => ?_, nofun, ?_, ?_, ?_,
    ?_, ?_⟩
  · exact absurd (hnever.of_cons rfl) (h.not_neverCreated hrow)
  · intro _ _ _
    simp [Statement.log, hsilent.1, hclaims]
  · rintro _ ⟨⟩ hprocessing
    exact absurd hprocessing hnot.1
  · intro _ _ _
    simp [Statement.log, hsilent.2.1, hverdicts]
  · intro _ _ _
    simp [Statement.log, hsilent.2.2, hunsaved.1, hunsaved.2]
  · rintro _ ⟨⟩ hcompleted
    exact absurd hcompleted hnot.2

theorem Statement.Fenced.claim {token : Uuid} {leaseSeconds : Nat}
    {late : Bool} (h : s.Fenced) (hrow : s.row = some row)
    (hstatus : row.status = .queued ∨ row.status = .processing)
    (hleases : ∀ earlier ∈ claims s.history, earlier.expires < now) :
    ({ s with row := some (row.claim now token leaseSeconds) }.log
      (.updated t now (.claimForProcessing token leaseSeconds) late)).Fenced := by
  have hverdicts := h.undecided row hrow
    (by rcases hstatus with h | h <;> rw [h] <;> rfl)
  have hunsaved := h.unsaved row hrow
    (by rcases hstatus with h | h <;> rw [h] <;> decide)
  refine ⟨⟨h.history, ?_, nofun⟩, fun hnever => ?_, nofun, ?_, ?_, ?_, ?_, ?_⟩
  · rintro _ ⟨⟩
    exact ⟨hverdicts, hleases⟩
  · exact absurd (hnever.of_cons rfl) (h.not_neverCreated hrow)
  · rintro _ ⟨⟩ hbefore
    simp [StatementRecord.claim] at hbefore
  · rintro _ ⟨⟩ _
    exact ⟨⟨t, token, now, now + leaseSeconds * 1000000⟩, rfl, rfl, rfl⟩
  · intro _ _ _
    simp [Statement.log, Event.verdict?, hverdicts]
  · intro _ _ _
    simp [Statement.log, Event.saved?, hunsaved.1, hunsaved.2]
  · rintro _ ⟨⟩ hcompleted
    simp [StatementRecord.claim] at hcompleted

/-- Every earlier lease of a row whose lease has expired has expired too. -/
theorem Statement.Fenced.leases_expired (h : s.Fenced)
    (hrow : s.row = some row) (hstatus : row.status = .processing)
    (hexpired : row.leaseExpired now = true) :
    ∀ earlier ∈ claims s.history, earlier.expires < now := by
  obtain ⟨last, hhead, _, hlease⟩ := h.claimed row hrow hstatus
  have hlast : last.expires < now := by
    simpa [StatementRecord.leaseExpired, hlease] using hexpired
  have hpairwise := h.history.claims_pairwise
  have hle : last.now ≤ last.expires :=
    claim_now_le_expires (List.mem_of_mem_head? hhead)
  cases hclaims : claims s.history with
  | nil => simp
  | cons head rest =>
      rw [hclaims] at hhead hpairwise
      cases hhead
      intro earlier hmem
      rcases List.mem_cons.mp hmem with rfl | hmem
      · exact hlast
      · have hbefore := List.rel_of_pairwise_cons hpairwise hmem
        exact Int.lt_trans hbefore (Int.lt_of_le_of_lt hle hlast)

/-- The token that a committed terminal status carries. -/
theorem Statement.Fenced.verdict_token {token : Uuid} (h : s.Fenced)
    (hrow : s.row = some row) (hclaimed : row.claimedBy now token = true) :
    verdicts s.history = [] ∧ ∃ claim,
      (claims s.history).head? = some claim ∧ claim.token = token := by
  obtain ⟨hstatus, htoken, _⟩ := StatementRecord.claimedBy_iff.mp hclaimed
  obtain ⟨claim, hhead, hclaim, _⟩ := h.claimed row hrow hstatus
  refine ⟨h.undecided row hrow (by rw [hstatus]; rfl), claim, hhead, ?_⟩
  rw [htoken] at hclaim
  exact (Option.some.inj hclaim).symm

theorem Statement.Fenced.markFailed {token : Uuid}
    {failureCode : StatementFailureCode} {failureMessage : JsString}
    {late : Bool} (h : s.Fenced) (hrow : s.row = some row)
    (hclaimed : row.claimedBy now token = true) :
    ({ s with row := some (row.fail now failureCode failureMessage) }.log
      (.updated t now (.markFailed token failureCode failureMessage)
        late)).Fenced := by
  obtain ⟨hverdicts, claim, hhead, htoken⟩ := h.verdict_token hrow hclaimed
  have hstatus := (StatementRecord.claimedBy_iff.mp hclaimed).1
  have hunsaved := h.unsaved row hrow (by rw [hstatus]; decide)
  refine ⟨⟨h.history, nofun, ?_⟩, fun hnever => ?_, nofun, ?_, ?_, ?_, ?_, ?_⟩
  · rintro _ ⟨⟩
    exact ⟨hverdicts, claim, hhead, htoken⟩
  · exact absurd (hnever.of_cons rfl) (h.not_neverCreated hrow)
  · rintro _ ⟨⟩ hbefore
    simp [StatementRecord.fail] at hbefore
  · rintro _ ⟨⟩ hprocessing
    simp [StatementRecord.fail] at hprocessing
  · rintro _ ⟨⟩ hopen
    simp [StatementRecord.fail, StatementStatus.isTerminal] at hopen
  · intro _ _ _
    simp [Statement.log, Event.saved?, hunsaved.1, hunsaved.2]
  · rintro _ ⟨⟩ hcompleted
    simp [StatementRecord.fail] at hcompleted

theorem Statement.Fenced.complete {token : Uuid}
    {transactions : List CreateTransactionInput} (h : s.Fenced)
    (hrow : s.row = some row) (hcomplete : row.complete now token = some row') :
    ({ s with
        row := some row'
        transactions := transactions.foldl upsertTransaction s.transactions
      }.log (.completed t now token transactions)).Fenced := by
  obtain ⟨hclaimed, rfl⟩ := StatementRecord.complete_eq_some_iff.mp hcomplete
  obtain ⟨hverdicts, claim, hhead, htoken⟩ := h.verdict_token hrow hclaimed
  have hstatus := (StatementRecord.claimedBy_iff.mp hclaimed).1
  have hunsaved := h.unsaved row hrow (by rw [hstatus]; decide)
  refine ⟨⟨h.history, nofun, ?_⟩, fun hnever => ?_, nofun, ?_, ?_, ?_, ?_, ?_⟩
  · rintro _ ⟨⟩
    exact ⟨hverdicts, claim, hhead, htoken⟩
  · exact absurd (hnever.of_cons rfl) (h.not_neverCreated hrow)
  · rintro _ ⟨⟩ hbefore
    simp at hbefore
  · rintro _ ⟨⟩ hprocessing
    cases hprocessing
  · rintro _ ⟨⟩ hopen
    cases hopen
  · rintro _ ⟨⟩ hne
    exact absurd rfl hne
  · rintro _ ⟨⟩ _
    exact ⟨transactions, by simp [Statement.log, Event.saved?, hunsaved.2],
      by simp [Statement.log, hunsaved.1]⟩

end Steps

/-- Every event keeps the statement fenced. -/
theorem Advance.fenced {id : Uuid} {e : Event} {s s' : Statement}
    (hs : Advance id e s s') (h : s.Fenced) : s'.Fenced := by
  have hhistory := hs.history
  cases hs with
  | @created _ t now columns row fresh hid hstatus inserts =>
      obtain ⟨hrow, hclaims, hverdicts, hsaves⟩ := h.blank fresh
      obtain ⟨_, rfl⟩ := StatementColumns.insert_eq_some_iff.mp inserts
      refine ⟨h.history.cons_silent ⟨rfl, rfl, rfl⟩, fun hnever => ?_, nofun,
        ?_, ?_, ?_, ?_, ?_⟩
      · exact absurd List.mem_cons_self (hnever t now columns)
      · intro _ _ _
        simp [Statement.log, Event.claim?, hclaims]
      · rintro _ ⟨⟩ hprocessing
        exact absurd (hstatus.symm.trans hprocessing) (by decide)
      · intro _ _ _
        simp [Statement.log, Event.verdict?, hverdicts]
      · intro _ _ _
        simp [Statement.log, Event.saved?, hsaves, h.bare hrow]
      · rintro _ ⟨⟩ hcompleted
        exact absurd (hstatus.symm.trans hcompleted) (by decide)
  | updated hrow applies _ =>
      cases Update.apply_eq_some_iff.mp applies with
      | markUploaded hstatus =>
          exact h.moved hrow ⟨rfl, rfl, rfl⟩
            (.inl hstatus) (.inl rfl)
      | markQueued hstatus =>
          exact h.moved hrow ⟨rfl, rfl, rfl⟩
            (.inr (.inl hstatus)) (.inr rfl)
      | reset hstatus =>
          exact h.moved hrow ⟨rfl, rfl, rfl⟩
            (.inr (.inr hstatus)) (.inl rfl)
      | claim hstatus =>
          refine h.claim hrow (.inl hstatus) ?_
          rw [h.unclaimed _ hrow (.inr (.inr hstatus))]
          exact fun _ hmem => absurd hmem List.not_mem_nil
      | reclaim hstatus expired =>
          exact h.claim hrow (.inr hstatus)
            (h.leases_expired hrow hstatus expired)
      | markFailed hclaimed => exact h.markFailed hrow hclaimed
  | refused _ | errored | sent _ | deliveredLate _ | deleting =>
      exact h.silent hhistory ⟨rfl, rfl, rfl⟩ rfl rfl
  | completed hrow completes => exact h.complete hrow completes
  | removed hrow =>
      have hsilent : Event.removed.Silent := ⟨rfl, rfl, rfl⟩
      exact Statement.Fenced.of_no_row rfl rfl (h.history.cons_silent hsilent)
        fun hnever => absurd (hnever.of_cons hhistory) (h.not_neverCreated hrow)

theorem Genuine.fenced {id : Uuid} {s : Statement} (h : Genuine id s) :
    s.Fenced := by
  induction h with
  | unused =>
      exact Statement.Fenced.of_no_row rfl rfl trivial fun _ => ⟨rfl, rfl, rfl⟩
  | advance _ hs ih => exact hs.fenced ih

end StatementAnalyzer
