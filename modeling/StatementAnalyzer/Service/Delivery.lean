/-
What the messages of a statement have to do with its status: which events a
message comes from, who still has to send one, and how often one is sent.
-/
import StatementAnalyzer.Service.Discipline

namespace StatementAnalyzer

open Async

def Event.sender? : Event → Option Tid
  | sent t _ _ => some t
  | _ => none

/-- The threads that have tried to send a job, latest first. -/
def senders (history : List Event) : List Tid :=
  history.filterMap Event.sender?

@[simp] theorem senders_cons (e : Event) (older : List Event) :
    senders (e :: older) = e.sender?.toList ++ senders older := by
  cases h : e.sender? <;> simp [senders, h]

theorem mem_senders_iff {t : Tid} {history : List Event} :
    t ∈ senders history ↔
      ∃ reported delivered, .sent t reported delivered ∈ history := by
  rw [senders, List.mem_filterMap]
  constructor
  · rintro ⟨e, hmem, he⟩
    cases e with
    | sent u reported delivered =>
        cases he
        exact ⟨reported, delivered, hmem⟩
    | _ => cases he
  · rintro ⟨reported, delivered, hmem⟩
    exact ⟨_, hmem, rfl⟩

/-- Where the messages of a statement come from. -/
structure Statement.Delivered (s : Statement) : Prop where
  source : s.messages ≠ [] → senders s.history ≠ []
  reported : ∀ t delivered, .sent t true delivered ∈ s.history →
    s.messages ≠ []
  undeleted : (∀ e ∈ s.history, e.deletes = false) →
    ∀ message ∈ s.messages, message.deleted = false
  count : (∀ t delivered, .sent t false delivered ∉ s.history) →
    s.messages.length ≤ (senders s.history).length

/-- An event that has nothing to do with the messages. -/
theorem Statement.Delivered.silent {s s' : Statement} {e : Event}
    (h : s.Delivered) (hhistory : s'.history = e :: s.history)
    (he : e.sender? = none) (hmessages : s'.messages = s.messages) :
    s'.Delivered := by
  have hsenders : senders s'.history = senders s.history := by
    rw [hhistory, senders_cons, he]
    rfl
  refine ⟨?_, fun t delivered hmem => ?_, fun hdeletes => ?_, fun hsent => ?_⟩
  · rw [hmessages, hsenders]
    exact h.source
  · rw [hhistory] at hmem
    rcases List.mem_cons.mp hmem with rfl | hmem
    · cases he
    · rw [hmessages]
      exact h.reported t delivered hmem
  · rw [hmessages]
    exact h.undeleted fun e' hmem =>
      hdeletes e' (hhistory ▸ List.mem_cons_of_mem e hmem)
  · rw [hmessages, hsenders]
    exact h.count fun t delivered hmem =>
      hsent t delivered (hhistory ▸ List.mem_cons_of_mem e hmem)

theorem Advance.delivered {id : Uuid} {e : Event} {s s' : Statement}
    (hs : Advance id e s s') (h : s.Delivered) : s'.Delivered := by
  have hhistory := hs.history
  have hkept := fun t delivered (hmem : .sent t true delivered ∈ s.history) =>
    hs.messages_ne_nil (h.reported t delivered hmem)
  cases hs with
  | @sent _ t reported delivered hreported =>
      refine ⟨fun _ => ?_, fun u delivered' hmem => ?_,
        fun hdeletes message hmem => ?_, fun hsent => ?_⟩
      · simp [hhistory, Event.sender?]
      · rw [hhistory] at hmem
        rcases List.mem_cons.mp hmem with heq | hmem
        · cases heq
          rw [hreported rfl]
          simp [Statement.log]
        · exact hkept u delivered' hmem
      · have hold := h.undeleted fun e' hmem' =>
          hdeletes e' (hhistory ▸ List.mem_cons_of_mem _ hmem')
        cases delivered with
        | false => exact hold message hmem
        | true =>
            rcases List.mem_append.mp hmem with hmem | hmem
            · exact hold message hmem
            · rw [List.mem_singleton.mp hmem]
      · have hold := h.count fun u delivered' hmem =>
          hsent u delivered' (hhistory ▸ List.mem_cons_of_mem _ hmem)
        cases delivered <;> simp [Statement.log, Event.sender?] <;> omega
  | @deliveredLate _ t delivered hsent =>
      refine ⟨fun _ => ?_, fun u delivered' hmem => by simp [Statement.log],
        fun hdeletes message hmem => ?_, fun hnone => ?_⟩
      · have hmem := mem_senders_iff.mpr ⟨false, delivered, hsent⟩
        exact List.ne_nil_of_mem hmem
      · have hold := h.undeleted fun e' hmem' =>
          hdeletes e' (hhistory ▸ List.mem_cons_of_mem _ hmem')
        rcases List.mem_append.mp hmem with hmem | hmem
        · exact hold message hmem
        · rw [List.mem_singleton.mp hmem]
      · exact absurd (List.mem_cons_of_mem _ hsent) (hnone t delivered)
  | @deleting _ t index effective =>
      refine ⟨fun hmessages => ?_, fun u delivered' hmem => ?_,
        fun hdeletes => ?_, fun hsent => ?_⟩
      · apply h.source
        rintro hnil
        cases effective <;> simp [Statement.log, markDeleted, hnil] at hmessages
      · rw [hhistory] at hmem
        rcases List.mem_cons.mp hmem with heq | hmem
        · cases heq
        · exact hkept u delivered' hmem
      · have hdeletes := hdeletes _ (hhistory ▸ List.mem_cons_self)
        cases hdeletes
      · have hold := h.count fun u delivered' hmem =>
          hsent u delivered' (hhistory ▸ List.mem_cons_of_mem _ hmem)
        cases effective <;>
          simpa [Statement.log, markDeleted, Event.sender?] using hold
  | created _ _ _ _ | updated _ _ _ | refused _ | errored | completed _ _
  | removed _ => exact h.silent hhistory rfl rfl

theorem Genuine.delivered {id : Uuid} {s : Statement} (h : Genuine id s) :
    s.Delivered := by
  induction h with
  | unused =>
      exact ⟨fun h => absurd rfl h,
        fun _ _ hmem => absurd hmem List.not_mem_nil,
        fun _ _ hmem => absurd hmem List.not_mem_nil, fun _ => Nat.le_refl 0⟩
  | advance _ hs ih => exact hs.delivered ih

/-- Every event of a genuine statement happened to a genuine statement. -/
theorem Genuine.at_event {id : Uuid} {s : Statement} (h : Genuine id s)
    {newer older : List Event} {e : Event}
    (hsplit : s.history = newer ++ e :: older) :
    ∃ s₀ s₁, Genuine id s₀ ∧ s₀.history = older ∧ Advance id e s₀ s₁ := by
  induction h generalizing newer with
  | unused =>
      have hmem : e ∈ Statement.unused.history := by
        rw [hsplit]
        exact List.mem_append_right _ List.mem_cons_self
      cases hmem
  | @advance e' s s' h hs ih =>
      rw [hs.history] at hsplit
      cases newer with
      | nil =>
          obtain ⟨rfl, hold⟩ := List.cons.inj hsplit
          exact ⟨s, s', h, hold, hs⟩
      | cons e'' newer => exact ih (List.cons.inj hsplit).2

section Orderly

variable {id : Uuid} {s : Statement} {t : Tid}

theorem Scripted.queued_of_sent {trail : List Mark} (h : Scripted trail)
    (hmem : .sent ∈ trail ∨ .unsent ∈ trail) : .queued ∈ trail := by
  cases h <;> simp_all

/-- Whoever sends has queued the statement. -/
theorem Statement.Orderly.sender_queued (h : s.Orderly)
    (hsender : t ∈ senders s.history) : .queued t ∈ flips s.history := by
  obtain ⟨reported, delivered, hmem⟩ := mem_senders_iff.mp hsender
  apply queued_mem_flips
  cases reported with
  | true =>
      exact (h.scripts t).queued_of_sent
        (.inl (mem_marks_iff.mpr ⟨_, hmem, .sent delivered⟩))
  | false =>
      exact (h.scripts t).queued_of_sent
        (.inr (mem_marks_iff.mpr ⟨_, hmem, .unsent delivered⟩))

/-- There are messages only for statements that were created. -/
theorem Statement.Orderly.created (h : s.Orderly) (hgenuine : Genuine id s)
    (hmessages : s.messages ≠ []) : ¬s.NeverCreated := by
  intro hnever
  obtain ⟨u, hsender⟩ :=
    List.exists_mem_of_ne_nil _ (hgenuine.delivered.source hmessages)
  have hflip := h.sender_queued hsender
  rw [(hgenuine.flipped.blank hnever).2] at hflip
  exact absurd hflip List.not_mem_nil

/-- While the statement is not finished, no message for it is deleted. -/
theorem Statement.Orderly.undeleted (h : s.Orderly) (hgenuine : Genuine id s)
    {row : StatementRecord} (hrow : s.row = some row)
    (hopen : row.status.isTerminal = false) (hmessages : s.messages ≠ []) :
    ∃ message ∈ s.messages, message.deleted = false := by
  obtain ⟨message, hmem⟩ := List.exists_mem_of_ne_nil _ hmessages
  refine ⟨message, hmem, hgenuine.delivered.undeleted (fun e he => ?_) message
    hmem⟩
  by_contra hdeletes
  have hsettled := h.deletions e he (by simpa using hdeletes)
  have hterminal := hsettled.finished row hrow
  rw [hopen] at hterminal
  cases hterminal

/-- The request of thread `t` has queued the statement and has still to send its
job or to take the status back, or one of its updates has reported an error. -/
def Statement.Awaits (s : Statement) (t : Tid) : Prop :=
  Pending (marks t s.history) ∨ .errored t .markQueued ∈ s.history ∨
    .errored t .resetQueuedToUploaded ∈ s.history

/-- A QUEUED or PROCESSING statement has an undeleted message, or a request
that still awaits something, or whose updates have failed. -/
theorem Statement.Orderly.carried (h : s.Orderly) (hgenuine : Genuine id s)
    {row : StatementRecord} (hrow : s.row = some row)
    (hstatus : row.status = .queued ∨ row.status = .processing) :
    (∃ message ∈ s.messages, message.deleted = false) ∨ ∃ t, s.Awaits t := by
  have hopen : row.status.isTerminal = false := by
    rcases hstatus with h | h <;> rw [h] <;> rfl
  by_cases hmessages : s.messages = []
  · right
    rcases hstatus with hqueued | hprocessing
    · obtain ⟨t, newer, older, now, late, hsplit, hflips, hrefused⟩ :=
        hgenuine.flipped.queued row hrow hqueued
      refine ⟨t, ?_⟩
      cases late with
      | true =>
          obtain ⟨s₀, s₁, _, rfl, hadvance⟩ := hgenuine.at_event hsplit
          cases hadvance with
          | updated _ _ hlate =>
              have hcount := (hlate rfl).2
              have herrored := List.count_pos_iff.mp
                (Nat.lt_of_le_of_lt (Nat.zero_le _) hcount)
              refine .inr (.inl ?_)
              rw [hsplit]
              exact List.mem_append_right _ (List.mem_cons_of_mem _ herrored)
      | false =>
          -- the script of the queueing request, with its last flip in place
          have hmarks : marks t s.history =
              marks t newer ++ .queued :: marks t older := by
            rw [hsplit, marks_append, marks_cons,
              Event.markBy?_eq_some_iff.mpr (.queued now)]
            rfl
          have hscript := h.scripts t
          rw [hmarks] at hscript
          obtain ⟨hold, hsince⟩ := hscript.since_queued
          rw [hold] at hmarks
          have hnewer : ∀ mark, mark ∈ marks t newer →
              ∃ e ∈ newer, Marks t mark e := fun _ => mem_marks_iff.mp
          rcases hsince with hnone | hsent | hunsent | hkept | hreset | hstuck
          · exact .inl (.inl (by rw [hmarks, hnone]; rfl))
          · obtain ⟨e, he, hmark⟩ := hnewer .sent (by rw [hsent]; decide)
            cases hmark with
            | sent delivered =>
                refine absurd hmessages
                  (hgenuine.delivered.reported t delivered ?_)
                rw [hsplit]
                exact List.mem_append_left _ he
          · exact .inl (.inr (by rw [hmarks, hunsent]; rfl))
          · obtain ⟨e, he, hmark⟩ := hnewer .resetRefused (by rw [hkept]; decide)
            cases hmark
            exact absurd he (hrefused t _)
          · obtain ⟨e, he, hmark⟩ := hnewer .reset (by rw [hreset]; decide)
            have hflip : .reset t ∈ flips newer := by
              cases hmark
              exact List.mem_filterMap.mpr ⟨_, he, rfl⟩
            rw [hflips] at hflip
            exact absurd hflip List.not_mem_nil
          · obtain ⟨e, he, hmark⟩ := hnewer .resetErrored (by rw [hstuck]; decide)
            cases hmark
            refine .inr (.inr ?_)
            rw [hsplit]
            exact List.mem_append_left _ he
    · obtain ⟨claim, hhead, _⟩ := hgenuine.fenced.claimed row hrow hprocessing
      obtain ⟨e, hmem, he⟩ :=
        List.mem_filterMap.mp (List.mem_of_mem_head? hhead)
      exfalso
      refine h.claims e hmem ?_ hmessages
      cases e with
      | updated u now update late =>
          cases update <;> first | rfl | cases he
      | _ => cases he
  · exact .inl (h.undeleted hgenuine hrow hopen hmessages)

theorem Scripted.unsent_of_reset {trail : List Mark} (h : Scripted trail)
    (hmem : .reset ∈ trail ∨ .resetErrored ∈ trail) : .unsent ∈ trail := by
  cases h <;> simp_all

/-- Where no send reports a failure, nothing is reset. -/
theorem Statement.Orderly.no_reset (h : s.Orderly) (hgenuine : Genuine id s)
    (hreported : ∀ u delivered, .sent u false delivered ∉ s.history) :
    .reset t ∉ flips s.history := by
  intro hreset
  have hmark : .reset ∈ marks t s.history ∨
      .resetErrored ∈ marks t s.history := by
    rcases reset_of_mem_flips hreset with hmark | hlate
    · exact .inl hmark
    · have hle := hgenuine.outstanding.landings_le t .resetQueuedToUploaded
      rw [← count_resetErrored] at hle
      exact .inr (List.count_pos_iff.mp (by omega))
  obtain ⟨e, he, hunsent⟩ :=
    mem_marks_iff.mp ((h.scripts t).unsent_of_reset hmark)
  cases hunsent with
  | unsent delivered => exact hreported t delivered he

theorem Alternating.of_no_reset {history : List Flip}
    (h : Alternating history) (hreset : ∀ t, .reset t ∉ history) :
    history = [] ∨ ∃ t, history = [.queued t] := by
  cases history with
  | nil => exact .inl rfl
  | cons flip older =>
      cases flip with
      | reset t => exact absurd List.mem_cons_self (hreset t)
      | queued t =>
          rcases h.1 with rfl | ⟨u, hlast⟩
          · exact .inr ⟨t, rfl⟩
          · exact absurd (List.mem_cons_of_mem _ (List.mem_of_mem_head? hlast))
              (hreset u)

/-- The marks of thread `t` tell how often it has tried to send. -/
theorem count_senders (t : Tid) (history : List Event) :
    (senders history).count t = (marks t history).countP fun mark =>
      mark = .sent || mark = .unsent := by
  induction history with
  | nil => rfl
  | cons e older ih =>
      rw [senders_cons, marks_cons, List.count_append, List.countP_append, ih]
      congr 1
      cases hmark : e.markBy? t with
      | some mark => cases Event.markBy?_eq_some_iff.mp hmark <;>
          simp [Event.sender?]
      | none =>
          cases e with
          | sent u reported delivered =>
              have hne : u ≠ t := by
                rintro rfl
                simp [Event.markBy?, Event.thread, Event.mark?] at hmark
              simp [Event.sender?, hne]
          | _ => rfl

theorem Statement.Orderly.senders_nodup (h : s.Orderly) :
    (senders s.history).Nodup := by
  refine List.nodup_iff_count_le_one.mpr fun u => ?_
  rw [count_senders]
  have hscript := h.scripts u
  generalize marks u s.history = trail at hscript ⊢
  cases hscript <;> decide

theorem mem_senders_of_sent {history : List Event}
    (h : .sent ∈ marks t history) : t ∈ senders history := by
  obtain ⟨e, hmem, hmark⟩ := mem_marks_iff.mp h
  cases hmark with
  | sent delivered => exact mem_senders_iff.mpr ⟨true, delivered, hmem⟩

/-- A request sends right after it has queued the statement, and at no other
time. -/
theorem Statement.Orderly.before_send (h : s.Orderly)
    {newer older : List Event} {reported delivered : Bool}
    (hsplit : s.history = newer ++ .sent t reported delivered :: older) :
    marks t older = [.queued] ∧ t ∉ senders older ∧ t ∉ senders newer := by
  have hscript := h.scripts t
  rw [hsplit, marks_append] at hscript
  have hscript := hscript.of_append
  have hmark : Event.markBy? t (.sent t reported delivered) =
      some (if reported then .sent else .unsent) := if_pos rfl
  rw [marks_cons, hmark] at hscript
  have hbefore : marks t older = [.queued] := Scripted.before_send hscript
  have hsenders : senders s.history =
      senders newer ++ t :: senders older := by
    rw [hsplit, senders, List.filterMap_append]
    rfl
  have hnodup := h.senders_nodup
  rw [hsenders, List.nodup_append] at hnodup
  refine ⟨hbefore, (List.nodup_cons.mp hnodup.2.1).1, fun hnewer => ?_⟩
  exact hnodup.2.2 t hnewer t List.mem_cons_self rfl

/-- Where no send reports a failure, one request queues the statement and it
alone sends, once. -/
theorem Statement.Orderly.one_sender (h : s.Orderly) (hgenuine : Genuine id s)
    (hreported : ∀ u delivered, .sent u false delivered ∉ s.history) :
    (∀ t u, .queued t ∈ flips s.history → .queued u ∈ flips s.history →
      t = u) ∧
    (senders s.history).length ≤ 1 ∧ s.messages.length ≤ 1 := by
  have halternating := hgenuine.flipped.alternating
  have hone : ∀ t u, .queued t ∈ flips s.history →
      .queued u ∈ flips s.history → t = u := by
    intro t u ht hu
    rcases halternating.of_no_reset fun _ => h.no_reset hgenuine hreported
      with hnil | ⟨v, honly⟩
    · rw [hnil] at ht
      exact absurd ht List.not_mem_nil
    · rw [honly, List.mem_singleton] at ht hu
      cases ht
      cases hu
      rfl
  have hsenders : (senders s.history).length ≤ 1 := by
    cases hlist : senders s.history with
    | nil => exact Nat.zero_le 1
    | cons t older =>
        cases older with
        | nil => exact Nat.le_refl 1
        | cons u rest =>
            have hmem : ∀ v, v ∈ t :: u :: rest → .queued v ∈ flips s.history :=
              fun v hv => h.sender_queued (hlist ▸ hv)
            have heq := hone t u (hmem t List.mem_cons_self)
              (hmem u (List.mem_cons_of_mem t List.mem_cons_self))
            have hnodup := h.senders_nodup
            rw [hlist, heq] at hnodup
            exact absurd List.mem_cons_self (List.nodup_cons.mp hnodup).1
  exact ⟨hone, hsenders,
    Nat.le_trans (hgenuine.delivered.count hreported) hsenders⟩

end Orderly

end StatementAnalyzer
