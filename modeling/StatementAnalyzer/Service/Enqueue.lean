/-
The part of a statement's history that a request for its analysis writes, and
what follows once every request keeps to its script.
-/
import StatementAnalyzer.Database.Fencing

namespace StatementAnalyzer

open Async

/-- What a request for the analysis does to the statement or learns about
it. -/
inductive Mark where
  | queued
  | queueRefused
  | queueErrored
  | sent
  | unsent
  | reset
  | resetRefused
  | resetErrored
deriving DecidableEq, Repr

/-- The mark of an event, whoever made it.  A late update leaves none: its
request has seen the error only. -/
def Event.mark? : Event → Option Mark
  | updated _ _ .markQueued false => some .queued
  | refused _ _ .markQueued => some .queueRefused
  | errored _ .markQueued => some .queueErrored
  | sent _ reported _ => some (if reported then .sent else .unsent)
  | updated _ _ .resetQueuedToUploaded false => some .reset
  | refused _ _ .resetQueuedToUploaded => some .resetRefused
  | errored _ .resetQueuedToUploaded => some .resetErrored
  | _ => none

/-- The mark of an event, if thread `t` made it. -/
def Event.markBy? (t : Tid) (e : Event) : Option Mark :=
  if e.thread = some t then e.mark? else none

/-- The events that leave a mark of thread `t`. -/
inductive Marks (t : Tid) : Mark → Event → Prop
  | queued (now : Time) : Marks t .queued (.updated t now .markQueued false)
  | queueRefused (now : Time) : Marks t .queueRefused (.refused t now .markQueued)
  | queueErrored : Marks t .queueErrored (.errored t .markQueued)
  | sent (delivered : Bool) : Marks t .sent (.sent t true delivered)
  | unsent (delivered : Bool) : Marks t .unsent (.sent t false delivered)
  | reset (now : Time) :
      Marks t .reset (.updated t now .resetQueuedToUploaded false)
  | resetRefused (now : Time) :
      Marks t .resetRefused (.refused t now .resetQueuedToUploaded)
  | resetErrored : Marks t .resetErrored (.errored t .resetQueuedToUploaded)

theorem Event.markBy?_eq_some_iff {t : Tid} {mark : Mark} {e : Event} :
    e.markBy? t = some mark ↔ Marks t mark e := by
  constructor
  · intro h
    rw [markBy?, Option.ite_none_right_eq_some] at h
    obtain ⟨hthread, hmark⟩ := h
    cases e with
    | updated u now update late =>
        cases update <;> cases late <;> cases hmark <;> cases hthread
        · exact .queued now
        · exact .reset now
    | refused u now update =>
        cases update <;> cases hmark <;> cases hthread
        · exact .queueRefused now
        · exact .resetRefused now
    | errored u update =>
        cases update <;> cases hmark <;> cases hthread
        · exact .queueErrored
        · exact .resetErrored
    | sent u reported delivered =>
        cases reported <;> cases hmark <;> cases hthread
        · exact .unsent delivered
        · exact .sent delivered
    | _ => cases hmark
  · intro h
    cases h <;> exact if_pos rfl

/-- The marks of one thread, latest first. -/
def marks (t : Tid) (history : List Event) : List Mark :=
  history.filterMap (Event.markBy? t)

@[simp] theorem marks_cons (t : Tid) (e : Event) (older : List Event) :
    marks t (e :: older) = (e.markBy? t).toList ++ marks t older := by
  cases h : e.markBy? t <;> simp [marks, h]

theorem mem_marks_iff {t : Tid} {mark : Mark} {history : List Event} :
    mark ∈ marks t history ↔ ∃ e ∈ history, Marks t mark e := by
  simp only [marks, List.mem_filterMap, Event.markBy?_eq_some_iff]

theorem marks_append (t : Tid) (newer older : List Event) :
    marks t (newer ++ older) = marks t newer ++ marks t older :=
  List.filterMap_append

/-- Events of other threads leave no mark of this one. -/
theorem marks_eq_nil {t : Tid} {history : List Event}
    (h : ∀ e ∈ history, e.thread ≠ some t) : marks t history = [] := by
  rw [marks, List.filterMap_eq_nil_iff]
  exact fun e he => if_neg (h e he)

/-- How far a request can have got, latest mark first. -/
inductive Scripted : List Mark → Prop
  | nothing : Scripted []
  | refused : Scripted [.queueRefused]
  | errored : Scripted [.queueErrored]
  | queued : Scripted [.queued]
  | sent : Scripted [.sent, .queued]
  | unsent : Scripted [.unsent, .queued]
  | kept : Scripted [.resetRefused, .unsent, .queued]
  | undone : Scripted [.reset, .unsent, .queued]
  | stuck : Scripted [.resetErrored, .unsent, .queued]

/-- A request that has queued the statement and has still to send its job, or
to take the status back. -/
def Pending (trail : List Mark) : Prop :=
  trail = [.queued] ∨ trail = [.unsent, .queued]

theorem Scripted.tail {mark : Mark} {trail : List Mark}
    (h : Scripted (mark :: trail)) : Scripted trail := by
  cases h <;> constructor

theorem Scripted.of_append {newer older : List Mark}
    (h : Scripted (newer ++ older)) : Scripted older := by
  induction newer with
  | nil => exact h
  | cons mark newer ih => exact ih h.tail

/-- A reset follows a failed send, and that the own queueing. -/
theorem Scripted.before_reset {trail : List Mark}
    (h : Scripted (.reset :: trail)) : trail = [.unsent, .queued] := by
  cases h
  rfl

theorem Scripted.eq_stuck {trail : List Mark} (h : Scripted trail)
    (hmem : .resetErrored ∈ trail) :
    trail = [.resetErrored, .unsent, .queued] := by
  cases h <;> simp_all

/-- A send follows the own queueing and nothing else. -/
theorem Scripted.before_send {trail : List Mark} {reported : Bool}
    (h : Scripted ((if reported then Mark.sent else .unsent) :: trail)) :
    trail = [.queued] := by
  cases reported <;> cases h <;> rfl

/-- What a request can have done since it queued the statement. -/
theorem Scripted.since_queued {newer older : List Mark}
    (h : Scripted (newer ++ .queued :: older)) :
    older = [] ∧ (newer = [] ∨ newer = [.sent] ∨ newer = [.unsent] ∨
      newer = [.resetRefused, .unsent] ∨ newer = [.reset, .unsent] ∨
      newer = [.resetErrored, .unsent]) := by
  generalize htrail : newer ++ .queued :: older = trail at h
  rcases newer with _ | ⟨a, _ | ⟨b, _ | ⟨c, rest⟩⟩⟩ <;> cases h <;>
    simp_all

/-- A status change between UPLOADED and QUEUED. -/
inductive Flip where
  | queued (t : Tid)
  | reset (t : Tid)
deriving DecidableEq, Repr

def Event.flip? : Event → Option Flip
  | updated t _ .markQueued _ => some (.queued t)
  | updated t _ .resetQueuedToUploaded _ => some (.reset t)
  | _ => none

/-- The flips of a statement, latest first. -/
def flips (history : List Event) : List Flip :=
  history.filterMap Event.flip?

@[simp] theorem flips_cons (e : Event) (older : List Event) :
    flips (e :: older) = e.flip?.toList ++ flips older := by
  cases h : e.flip? <;> simp [flips, h]

theorem flips_append (newer older : List Event) :
    flips (newer ++ older) = flips newer ++ flips older :=
  List.filterMap_append

/-- Queueing and resetting take turns, queueing first. -/
def Alternating : List Flip → Prop
  | [] => True
  | .queued _ :: older =>
      (older = [] ∨ ∃ t, older.head? = some (.reset t)) ∧ Alternating older
  | .reset _ :: older =>
      (∃ t, older.head? = some (.queued t)) ∧ Alternating older

/-- Whoever resets has queued before and has not reset yet. -/
def Owned : List Flip → Prop
  | [] => True
  | .queued _ :: older => Owned older
  | .reset t :: older => .queued t ∈ older ∧ .reset t ∉ older ∧ Owned older

theorem Alternating.tail {flip : Flip} {older : List Flip}
    (h : Alternating (flip :: older)) : Alternating older := by
  cases flip <;> exact h.2

theorem Alternating.of_append {newer older : List Flip}
    (h : Alternating (newer ++ older)) : Alternating older := by
  induction newer with
  | nil => exact h
  | cons flip newer ih => exact ih h.tail

theorem Owned.of_append {newer older : List Flip}
    (h : Owned (newer ++ older)) : Owned older := by
  induction newer with
  | nil => exact h
  | cons flip newer ih =>
      apply ih
      cases flip with
      | queued t => exact h
      | reset t => exact h.2.2

/-- A thread that has queued the statement and has not reset it made the last
flip: nobody else can flip in between. -/
theorem last_flip_of_unreset {history : List Flip}
    (halternating : Alternating history) (howned : Owned history) :
    ∀ t, .queued t ∈ history → .reset t ∉ history →
      history.head? = some (.queued t) := by
  induction history with
  | nil =>
      intro t hqueued
      exact absurd hqueued List.not_mem_nil
  | cons flip older ih =>
      intro t hqueued hreset
      have hunreset : .reset t ∉ older :=
        fun h => hreset (List.mem_cons_of_mem flip h)
      cases flip with
      | queued u =>
          by_cases htu : t = u
          · rw [htu]
            rfl
          · exfalso
            have hqueued : .queued t ∈ older := by simpa [htu] using hqueued
            have hhead := ih halternating.2 howned t hqueued hunreset
            rcases halternating.1 with hnil | ⟨v, hlast⟩
            · rw [hnil] at hqueued
              exact absurd hqueued List.not_mem_nil
            · rw [hlast] at hhead
              cases hhead
      | reset u =>
          exfalso
          obtain ⟨howner, honce, howned⟩ := howned
          have hqueued : .queued t ∈ older := by simpa using hqueued
          have hhead := ih halternating.2 howned t hqueued hunreset
          -- the resetting thread made the last flip before as well
          have hhead' := ih halternating.2 howned u howner honce
          rw [hhead] at hhead'
          cases hhead'
          exact hreset List.mem_cons_self

/-- A reset undoes the queueing of its own thread. -/
theorem reset_undoes_own {newer older : List Flip} {t : Tid}
    (halternating : Alternating (newer ++ .reset t :: older))
    (howned : Owned (newer ++ .reset t :: older)) :
    older.head? = some (.queued t) := by
  obtain ⟨howner, honce, hrest⟩ := howned.of_append
  exact last_flip_of_unreset halternating.of_append.tail hrest t howner honce

/-- Every late update had reported an error that it has not landed for. -/
def Outstanding : List Event → Prop
  | [] => True
  | e :: older => Outstanding older ∧ ∀ t u, e.lands t u = true →
      landings t u older < older.count (.errored t u)

theorem Genuine.outstanding {id : Uuid} {s : Statement} (h : Genuine id s) :
    Outstanding s.history := by
  induction h with
  | unused => trivial
  | @advance e s s' h hs ih =>
      rw [hs.history]
      refine ⟨ih, fun t u hlands => ?_⟩
      cases hs with
      | @updated _ t' now u' late row row' hrow applies hlate =>
          cases late with
          | false => simp [Event.lands] at hlands
          | true =>
              simp only [Event.lands, Bool.and_eq_true, decide_eq_true_eq]
                at hlands
              obtain ⟨rfl, rfl⟩ := hlands
              exact (hlate rfl).2
      | _ => simp [Event.lands] at hlands

theorem Outstanding.landings_le {history : List Event}
    (h : Outstanding history) (t : Tid) (u : Update) :
    landings t u history ≤ history.count (.errored t u) := by
  induction history with
  | nil => exact Nat.le_refl 0
  | cons e older ih =>
      have hcount : older.count (.errored t u) ≤
          (e :: older).count (.errored t u) := List.count_le_count_cons
      rw [landings, List.countP_cons]
      by_cases hlands : e.lands t u = true
      · rw [if_pos hlands]
        have hbefore := h.2 t u hlands
        rw [landings] at hbefore
        omega
      · rw [if_neg hlands]
        have hbefore := ih h.1
        rw [landings] at hbefore
        omega

/-- The errors of a reset leave a mark each. -/
theorem count_resetErrored (t : Tid) (history : List Event) :
    (marks t history).count .resetErrored =
      history.count (.errored t .resetQueuedToUploaded) := by
  rw [marks, List.count_filterMap, List.count_eq_countP]
  refine List.countP_congr fun e _ => ?_
  simp only [beq_iff_eq, Event.markBy?_eq_some_iff]
  constructor
  · rintro ⟨⟩
    rfl
  · rintro rfl
    exact .resetErrored

theorem queued_mem_flips {t : Tid} {history : List Event}
    (h : .queued ∈ marks t history) : .queued t ∈ flips history := by
  obtain ⟨e, hmem, hmark⟩ := mem_marks_iff.mp h
  refine List.mem_filterMap.mpr ⟨e, hmem, ?_⟩
  cases hmark
  rfl

/-- A reset that has taken effect was reported or is late. -/
theorem reset_of_mem_flips {t : Tid} {history : List Event}
    (h : .reset t ∈ flips history) : .reset ∈ marks t history ∨
      0 < landings t .resetQueuedToUploaded history := by
  obtain ⟨e, hmem, he⟩ := List.mem_filterMap.mp h
  cases e with
  | updated u now update late =>
      cases update <;> simp only [Event.flip?, reduceCtorEq, Option.some.injEq,
        Flip.reset.injEq] at he
      subst he
      cases late with
      | false => exact .inl (mem_marks_iff.mpr ⟨_, hmem, .reset now⟩)
      | true => exact .inr (List.countP_pos_iff.mpr ⟨_, hmem, by
          simp [Event.lands]⟩)
  | _ => simp [Event.flip?] at he

/-- With every thread on its script, whoever resets has queued before and has
not reset yet. -/
theorem owned_of_scripted {history : List Event}
    (hscripts : ∀ t, Scripted (marks t history))
    (houtstanding : Outstanding history) : Owned (flips history) := by
  induction history with
  | nil => trivial
  | cons e older ih =>
      have hscripts' : ∀ t, Scripted (marks t older) := fun t =>
        Scripted.of_append (marks_cons t e older ▸ hscripts t)
      have howned := ih hscripts' houtstanding.1
      rw [flips_cons]
      cases hflip : e.flip? with
      | none => exact howned
      | some flip =>
          cases flip with
          | queued u => exact howned
          | reset u =>
              -- the request has failed to send, and no reset has worked yet
              have htrail : .queued ∈ marks u older ∧
                  .reset ∉ marks u older ∧
                  landings u .resetQueuedToUploaded older = 0 := by
                cases e with
                | updated v now update late =>
                    cases update <;> simp only [Event.flip?, reduceCtorEq,
                      Option.some.injEq, Flip.reset.injEq] at hflip
                    subst hflip
                    have hle := houtstanding.1.landings_le v
                      .resetQueuedToUploaded
                    rw [← count_resetErrored] at hle
                    cases late with
                    | false =>
                        have hown := hscripts v
                        rw [marks_cons, Event.markBy?_eq_some_iff.mpr
                          (.reset now)] at hown
                        have hbefore : marks v older = [.unsent, .queued] :=
                          Scripted.before_reset hown
                        rw [hbefore] at hle ⊢
                        exact ⟨by decide, by decide, Nat.le_zero.mp hle⟩
                    | true =>
                        have hlands := houtstanding.2 v .resetQueuedToUploaded
                          (by simp [Event.lands])
                        rw [← count_resetErrored] at hlands
                        have hstuck := (hscripts' v).eq_stuck
                          (List.count_pos_iff.mp (by omega))
                        rw [hstuck] at hlands ⊢
                        exact ⟨by decide, by decide, Nat.lt_one_iff.mp hlands⟩
                | _ => simp [Event.flip?] at hflip
              obtain ⟨hqueued, hunreset, hlandings⟩ := htrail
              refine ⟨queued_mem_flips hqueued, fun hreset => ?_, howned⟩
              rcases reset_of_mem_flips hreset with hmark | hlate
              · exact hunreset hmark
              · omega

/-- The status of a row decides what the last flip was. -/
structure Statement.Flipped (s : Statement) : Prop where
  alternating : Alternating (flips s.history)
  blank : s.NeverCreated → s.row = none ∧ flips s.history = []
  pending : ∀ row, s.row = some row → row.status = .uploadPending →
    flips s.history = []
  uploaded : ∀ row, s.row = some row → row.status = .uploaded →
    flips s.history = [] ∨ ∃ t, (flips s.history).head? = some (.reset t)
  queued : ∀ row, s.row = some row → row.status = .queued →
    ∃ t newer older now late, s.history =
        newer ++ .updated t now .markQueued late :: older ∧ flips newer = [] ∧
      ∀ u v, .refused u v .resetQueuedToUploaded ∉ newer

theorem Statement.Flipped.of_no_row {s : Statement} (hrow : s.row = none)
    (halternating : Alternating (flips s.history))
    (hblank : s.NeverCreated → flips s.history = []) : s.Flipped := by
  have habsurd : ∀ row, s.row ≠ some row := by
    intro row h
    rw [hrow] at h
    cases h
  exact ⟨halternating, fun hnever => ⟨hrow, hblank hnever⟩,
    fun row h => absurd h (habsurd row), fun row h => absurd h (habsurd row),
    fun row h => absurd h (habsurd row)⟩

/-- An event that is no flip and leaves the row alone.  Refusing a reset is not
possible while the status is QUEUED. -/
theorem Statement.Flipped.silent {s s' : Statement} {e : Event}
    (h : s.Flipped) (hhistory : s'.history = e :: s.history)
    (he : e.flip? = none) (hrow : s'.row = s.row)
    (hrefused : ∀ row, s.row = some row → row.status = .queued →
      ∀ u v, e ≠ .refused u v .resetQueuedToUploaded) : s'.Flipped := by
  have hflips : flips s'.history = flips s.history := by
    rw [hhistory, flips_cons, he]
    rfl
  refine ⟨hflips ▸ h.alternating, fun hnever => ?_, ?_, ?_, ?_⟩
  · rw [hrow, hflips]
    exact h.blank (hnever.of_cons hhistory)
  · rw [hrow, hflips]
    exact h.pending
  · rw [hrow, hflips]
    exact h.uploaded
  · intro row hrow' hqueued
    rw [hrow] at hrow'
    obtain ⟨t, newer, older, now, late, hsplit, hnone, hno⟩ :=
      h.queued row hrow' hqueued
    refine ⟨t, e :: newer, older, now, late, by rw [hhistory, hsplit]; rfl, ?_, ?_⟩
    · rw [flips_cons, he, hnone]
      rfl
    · intro u v hmem
      rcases List.mem_cons.mp hmem with heq | hmem
      · exact hrefused row hrow' hqueued u v heq.symm
      · exact hno u v hmem

/-- An event after which the status is past QUEUED. -/
theorem Statement.Flipped.past {s s' : Statement} {e : Event}
    {row' : StatementRecord} (h : s.Flipped)
    (hhistory : s'.history = e :: s.history) (he : e.flip? = none)
    (hrow' : s'.row = some row') (hnever : ¬s.NeverCreated)
    (hstatus : row'.status = .processing ∨ row'.status.isTerminal = true) :
    s'.Flipped := by
  have hflips : flips s'.history = flips s.history := by
    rw [hhistory, flips_cons, he]
    rfl
  have hnot : ∀ row, s'.row = some row → row.status ≠ .uploadPending ∧
      row.status ≠ .uploaded ∧ row.status ≠ .queued := by
    intro row hrow
    cases hrow'.symm.trans hrow
    rcases hstatus with h | h
    · rw [h]
      decide
    · cases hs : row'.status <;> simp_all [StatementStatus.isTerminal]
  refine ⟨hflips ▸ h.alternating, fun hblank => ?_, ?_, ?_, ?_⟩
  · exact absurd (hblank.of_cons hhistory) hnever
  · exact fun row hrow hs => absurd hs (hnot row hrow).1
  · exact fun row hrow hs => absurd hs (hnot row hrow).2.1
  · exact fun row hrow hs => absurd hs (hnot row hrow).2.2

theorem Statement.Flipped.last_queued {s : Statement} {row : StatementRecord}
    (h : s.Flipped) (hrow : s.row = some row) (hqueued : row.status = .queued) :
    ∃ t, (flips s.history).head? = some (.queued t) := by
  obtain ⟨t, newer, older, now, late, hsplit, hnone, _⟩ := h.queued row hrow hqueued
  refine ⟨t, ?_⟩
  rw [hsplit, flips, List.filterMap_append]
  change (flips newer ++ flips (Event.updated t now .markQueued late :: older)).head?
    = _
  rw [hnone, flips_cons]
  rfl

theorem Statement.Flipped.markQueued {s : Statement} {row : StatementRecord}
    {t : Tid} {now : Time} {late : Bool} (h : s.Flipped) (hrow : s.row = some row)
    (hstatus : row.status = .uploaded) (hnever : ¬s.NeverCreated) :
    ({ s with row := some { row with status := .queued, updatedAt := now }
      }.log (.updated t now .markQueued late)).Flipped := by
  refine ⟨⟨h.uploaded row hrow hstatus, h.alternating⟩, fun hblank => ?_, ?_,
    ?_, ?_⟩
  · exact absurd (hblank.of_cons rfl) hnever
  · rintro _ ⟨⟩ hs
    cases hs
  · rintro _ ⟨⟩ hs
    cases hs
  · rintro _ ⟨⟩ _
    exact ⟨t, [], s.history, now, late, rfl, rfl, fun _ _ => List.not_mem_nil⟩

theorem Statement.Flipped.reset {s : Statement} {row : StatementRecord}
    {t : Tid} {now : Time} {late : Bool} (h : s.Flipped) (hrow : s.row = some row)
    (hstatus : row.status = .queued) (hnever : ¬s.NeverCreated) :
    ({ s with row := some { row with status := .uploaded, updatedAt := now }
      }.log (.updated t now .resetQueuedToUploaded late)).Flipped := by
  refine ⟨⟨h.last_queued hrow hstatus, h.alternating⟩, fun hblank => ?_, ?_, ?_,
    ?_⟩
  · exact absurd (hblank.of_cons rfl) hnever
  · rintro _ ⟨⟩ hs
    cases hs
  · rintro _ ⟨⟩ _
    exact .inr ⟨t, rfl⟩
  · rintro _ ⟨⟩ hs
    cases hs

theorem Advance.flipped {id : Uuid} {e : Event} {s s' : Statement}
    (hs : Advance id e s s') (h : s.Flipped) (hfenced : s.Fenced) :
    s'.Flipped := by
  have hhistory := hs.history
  cases hs with
  | @created _ t now columns row fresh hid hstatus inserts =>
      obtain ⟨_, hflips⟩ := h.blank fresh
      obtain ⟨_, rfl⟩ := StatementColumns.insert_eq_some_iff.mp inserts
      have hsame : flips (Event.created t now columns :: s.history) = [] := by
        simp [Event.flip?, hflips]
      refine ⟨by rw [hhistory, hsame]; trivial, fun hblank => ?_, ?_, ?_, ?_⟩
      · exact absurd List.mem_cons_self (hblank t now columns)
      · exact fun _ _ _ => hsame
      · exact fun _ _ _ => .inl hsame
      · rintro _ ⟨⟩ hqueued
        exact absurd (hstatus.symm.trans hqueued) (by decide)
  | updated hrow applies _ =>
      have hnever := hfenced.not_neverCreated hrow
      cases Update.apply_eq_some_iff.mp applies with
      | markUploaded hstatus =>
          have hflips := h.pending _ hrow hstatus
          refine ⟨by rw [hhistory, flips_cons, hflips]; trivial,
            fun hblank => ?_, ?_, ?_, ?_⟩
          · exact absurd (hblank.of_cons hhistory) hnever
          · rintro _ ⟨⟩ hs
            cases hs
          · rintro _ ⟨⟩ _
            exact .inl (by rw [hhistory, flips_cons, hflips]; rfl)
          · rintro _ ⟨⟩ hs
            cases hs
      | markQueued hstatus => exact h.markQueued hrow hstatus hnever
      | reset hstatus => exact h.reset hrow hstatus hnever
      | claim _ | reclaim _ _ =>
          exact h.past hhistory rfl rfl hnever (.inl rfl)
      | markFailed _ => exact h.past hhistory rfl rfl hnever (.inr rfl)
  | @refused _ t now u hrow =>
      refine h.silent hhistory rfl rfl ?_
      rintro row hrow' hqueued u v ⟨⟩
      have hnone := hrow row hrow'
      rw [Update.apply, if_pos hqueued] at hnone
      cases hnone
  | errored | sent _ | deliveredLate _ | deleting =>
      refine h.silent hhistory rfl rfl ?_
      rintro _ _ _ _ _ ⟨⟩
  | completed hrow completes =>
      obtain ⟨_, rfl⟩ := StatementRecord.complete_eq_some_iff.mp completes
      exact h.past hhistory rfl rfl (hfenced.not_neverCreated hrow) (.inr rfl)
  | removed hrow =>
      refine .of_no_row rfl ?_ fun hblank => ?_
      · rw [hhistory, flips_cons]
        exact h.alternating
      · exact absurd (hblank.of_cons hhistory) (hfenced.not_neverCreated hrow)

theorem Genuine.flipped {id : Uuid} {s : Statement} (h : Genuine id s) :
    s.Flipped := by
  induction h with
  | unused => exact .of_no_row rfl trivial fun _ => rfl
  | advance h hs ih => exact hs.flipped ih h.fenced

end StatementAnalyzer
