/-
Monthly reports along a run of the service over its pool: while the ROLLBACKs of
the reports succeed, they depend on nothing but the COMPLETED statements with
lines in their days, and their numbers cannot become too large for the service.
-/
import StatementAnalyzer.Api.MonthlyReport
import StatementAnalyzer.Service.Ledger
import StatementAnalyzer.Service.OverPool
import Mathlib.Data.Int.Interval

namespace StatementAnalyzer

open Async Relational

/-- The states of a run of the service over its pool. -/
abbrev PooledRun :=
  Nat → Config (Store × ApiPool) Query Query.Answer Thrown Outcome

/-- The moments at which the pool may hand out a client left inside. -/
def PooledRun.left (run : PooledRun) (n : Nat) : Prop :=
  (run n).world.2.Spoiled

/-- A run of the service, and the tables that its states make up. -/
structure ServiceRun (run : PooledRun) (history : Nat → Tables) : Prop where
  reachable : pooledService.Reachable (run 0)
  leads : ∀ n, pooledService.Leads (run n) (run (n + 1))
  tables : ∀ n, (history n).statements = (run n).world.1.statements

/-- A statement that is completed in between, or deleted, has no line in these
days. -/
def Untouched (run : PooledRun) (days : CalendarDay × CalendarDay)
    (first last : Nat) : Prop :=
  ∀ n, first ≤ n → n < last → ∀ id,
    ((run (n + 1)).world.1.statements id).completed ≠
      ((run n).world.1.statements id).completed →
    ((run n).world.1.statements id).booked days = [] ∧
      ((run (n + 1)).world.1.statements id).booked days = []

theorem Statement.length_booked_le (s : Statement)
    (days : CalendarDay × CalendarDay) :
    (s.booked days).length ≤ s.transactions.length := by
  rw [Statement.booked]
  split
  · exact List.length_filter_le _ _
  · exact Nat.zero_le _

theorem Statement.subset_booked (s : Statement)
    (days : CalendarDay × CalendarDay) : s.booked days ⊆ s.transactions := by
  rw [Statement.booked]
  split
  · exact List.filter_subset_self _
  · exact List.nil_subset _

namespace Tables

variable {db db' : Tables} {days : CalendarDay × CalendarDay}

theorem mem_source_iff_booked {id : Uuid} {line : CreateTransactionInput} :
    (id, line) ∈ db.source days ↔ line ∈ (db.statements id).booked days := by
  rw [source_eq_flatMap, List.mem_flatMap]
  constructor
  · rintro ⟨other, _, hmem⟩
    obtain ⟨_, hline, heq⟩ := List.mem_map.mp hmem
    cases heq
    exact hline
  · intro hline
    have hid : id ∈ db.ids := by
      by_contra hid
      rw [booked_eq_nil hid] at hline
      cases hline
    exact ⟨id, hid, List.mem_map_of_mem hline⟩

theorem source_perm_of_booked
    (h : ∀ id, (db'.statements id).booked days =
      (db.statements id).booked days) :
    (db.source days).Perm (db'.source days) := by
  rw [List.perm_ext_iff_of_nodup (db.source_nodup days) (db'.source_nodup days)]
  rintro ⟨id, line⟩
  rw [mem_source_iff_booked, mem_source_iff_booked, h]

/-- As many lines as the COMPLETED statements hold at most. -/
theorem length_source_le {bound : Nat}
    (h : ∀ id, (db.statements id).transactions.length ≤ bound) :
    (db.source days).length ≤ (db.ids.filter db.completed).length * bound := by
  have hlist : ∀ ids : List Uuid, (ids.flatMap fun id =>
      ((db.statements id).booked days).map (id, ·)).length ≤
        (ids.filter db.completed).length * bound := by
    intro ids
    induction ids with
    | nil => exact Nat.zero_le _
    | cons id rest ih =>
        rw [List.flatMap_cons, List.length_append, List.length_map,
          List.filter_cons]
        by_cases hcompleted : db.completed id = true
        · have hbooked := (db.statements id).length_booked_le days
          have hlines := h id
          rw [if_pos hcompleted, List.length_cons, Nat.add_one_mul]
          omega
        · have hopen : (db.statements id).completed = false :=
            eq_false_of_ne_true hcompleted
          rw [if_neg hcompleted, Statement.booked_of_open hopen, List.length_nil]
          omega
  rw [source_eq_flatMap]
  exact hlist db.ids

end Tables

section Lines

variable {lines : List CreateTransactionInput}

theorem AcceptedLines.bounds (h : AcceptedLines lines) :
    ∀ line ∈ lines, line.amount.natAbs ≤ 100000000 ∧ 1 ≤ line.lineNumber ∧
      line.lineNumber ≤ 100 := by
  obtain ⟨input, result, hresult, rfl⟩ := h
  obtain ⟨_, _, _, _, haccepts, _⟩ := parseOcrToolInput_accepts hresult
  have hbounds := haccepts.imp (S := fun item transaction =>
    (transaction.amount.natAbs ≤ 100000000 ∧ 1 ≤ transaction.lineNumber ∧
      transaction.lineNumber ≤ 100) ∧ Accepts item transaction) (by
    rintro item transaction ⟨reported, htool, hschema⟩
    have hresult := ocrTransactionSchema_resultOf hschema
    exact ⟨⟨hresult.amount.2, hresult.lineNumber⟩, reported, htool, hschema⟩)
  intro line hline
  obtain ⟨transaction, htransaction, rfl⟩ := List.mem_map.mp hline
  exact ((List.forall₂_and_left _ _).mp hbounds.flip).1 transaction htransaction

/-- A statement is filed with a hundred lines at most. -/
theorem Statement.Filed.length_le {s : Statement} (h : s.Filed lines) :
    lines.length ≤ 100 := by
  have hsubset : (lines.map CreateTransactionInput.lineNumber).toFinset ⊆
      Finset.Icc 1 100 := by
    intro number hnumber
    obtain ⟨line, hline, rfl⟩ := List.mem_map.mp (List.mem_toFinset.mp hnumber)
    exact Finset.mem_Icc.mpr (h.accepted.bounds line hline).2
  have hcard := Finset.card_le_card hsubset
  rw [List.toFinset_card_of_nodup h.nodup, List.length_map] at hcard
  exact hcard

end Lines

section Run

variable {run : PooledRun} {history : Nat → Tables}
variable {days : CalendarDay × CalendarDay}

theorem ServiceRun.pooled (h : ServiceRun run history) (n : Nat) :
    pooledService.Reachable (run n) := by
  induction n with
  | zero => exact h.reachable
  | succ n ih => exact ih.leads (h.leads n)

/-- ROLLBACKs that have succeeded until then succeeded before. -/
theorem ServiceRun.rollsBack (h : ServiceRun run history) {n last : Nat}
    (hle : n ≤ last) (hrolls : (run last).world.2.RollsBack) :
    (run n).world.2.RollsBack := by
  induction last, hle using Nat.le_induction with
  | base => exact hrolls
  | succ last _ ih =>
      exact ih (pooled_leads (h.pooled last) (h.leads last) hrolls).1

theorem ServiceRun.reached (h : ServiceRun run history) {n : Nat}
    (hrolls : (run n).world.2.RollsBack) :
    (querySystem repository Serves).Reachable (run n).alone :=
  (pooled_reachable (h.pooled n) hrolls).2

/-- Then a call reads a snapshot that was current while it ran. -/
theorem ServiceRun.readable (h : ServiceRun run history)
    {began ended snapshot : Nat} (hrolls : (run ended).world.2.RollsBack)
    (hreadable : Readable run.left began ended snapshot) :
    began ≤ snapshot ∧ snapshot ≤ ended := by
  refine ⟨hreadable.2 fun now _ hto => ?_, hreadable.1⟩
  exact (pooled_reachable (h.pooled now) (h.rollsBack hto hrolls)).1

theorem ServiceRun.booked_succ (h : ServiceRun run history) {n : Nat} {id : Uuid}
    (hrolls : (run (n + 1)).world.2.RollsBack)
    (huntouched : ((run (n + 1)).world.1.statements id).completed ≠
        ((run n).world.1.statements id).completed →
      ((run n).world.1.statements id).booked days = [] ∧
        ((run (n + 1)).world.1.statements id).booked days = []) :
    ((run (n + 1)).world.1.statements id).booked days =
      ((run n).world.1.statements id).booked days := by
  obtain ⟨hbefore, hleads⟩ := pooled_leads (h.pooled n) (h.leads n) hrolls
  by_cases hsame : ((run (n + 1)).world.1.statements id).completed =
      ((run n).world.1.statements id).completed
  · cases hcompleted : ((run n).world.1.statements id).completed with
    | false =>
        rw [hcompleted] at hsame
        rw [Statement.booked_of_open hsame, Statement.booked_of_open hcompleted]
    | true =>
        rcases service_kept (h.reached hbefore) hleads hcompleted with
          hnone | ⟨_, hkept⟩
        · exact absurd hnone
            (Statement.row_of_completed (hsame.trans hcompleted))
        · exact Statement.booked_congr hsame hkept days
  · obtain ⟨hbefore, hafter⟩ := huntouched hsame
    rw [hbefore, hafter]

theorem ServiceRun.booked (h : ServiceRun run history) {first last : Nat}
    (hle : first ≤ last) (hrolls : (run last).world.2.RollsBack)
    (huntouched : Untouched run days first last) (id : Uuid) :
    ((history last).statements id).booked days =
      ((history first).statements id).booked days := by
  rw [h.tables, h.tables]
  induction last, hle using Nat.le_induction with
  | base => rfl
  | succ last hle ih =>
      rw [h.booked_succ hrolls
        (huntouched last hle (Nat.lt_succ_self last) id)]
      exact ih (h.rollsBack (Nat.le_succ last) hrolls)
        fun n hfirst hlast => huntouched n hfirst (by omega)

theorem ServiceRun.source_perm (h : ServiceRun run history)
    {first last moment moment' : Nat}
    (hrolls : (run last).world.2.RollsBack)
    (huntouched : Untouched run days first last)
    (hmoment : first ≤ moment ∧ moment ≤ last)
    (hmoment' : first ≤ moment' ∧ moment' ≤ last) :
    ((history moment).source days).Perm ((history moment').source days) := by
  have hfrom : ∀ n, first ≤ n → n ≤ last → ∀ id,
      ((history n).statements id).booked days =
        ((history first).statements id).booked days := by
    intro n hfirst hlast
    apply h.booked hfirst (h.rollsBack hlast hrolls)
    intro m hm hm'
    exact huntouched m hm (by omega)
  apply Tables.source_perm_of_booked
  intro id
  rw [hfrom moment hmoment.1 hmoment.2, hfrom moment' hmoment'.1 hmoment'.2]

/-- What one moment of a run leaves for a report. -/
theorem ServiceRun.fits (h : ServiceRun run history) {moment : Nat}
    (hrolls : (run moment).world.2.RollsBack)
    (hfew : ((history moment).ids.filter (history moment).completed).length ≤
      900719) : (history moment).Fits days := by
  have hfiled : ∀ id, ((history moment).statements id).transactions = [] ∨
      ∃ lines, ((history moment).statements id).Filed lines := by
    intro id
    rw [h.tables]
    cases hcompleted : ((run moment).world.1.statements id).completed with
    | false => exact .inl (service_open (h.reached hrolls) hcompleted)
    | true => exact .inr (service_filed (h.reached hrolls) hcompleted)
  have hlines : ∀ id,
      ((history moment).statements id).transactions.length ≤ 100 := by
    intro id
    rcases hfiled id with hnone | ⟨lines, hlines⟩
    · rw [hnone]
      exact Nat.zero_le _
    · rw [hlines.stored, List.length_map]
      exact hlines.length_le
  have hbound : ∀ row ∈ (history moment).source days,
      row.2.amount.natAbs ≤ 100000000 := by
    rintro ⟨id, line⟩ hrow
    have hline := ((history moment).statements id).subset_booked days
      (Tables.mem_source_iff_booked.mp hrow)
    rcases hfiled id with hnone | ⟨lines, hlines⟩
    · rw [hnone] at hline
      cases hline
    · rw [hlines.stored] at hline
      obtain ⟨given, hgiven, rfl⟩ := List.mem_map.mp hline
      exact (hlines.accepted.bounds given hgiven).1
  have hlength : ((history moment).source days).length ≤ _ :=
    Tables.length_source_le hlines
  exact Tables.fits_of_bounded hbound (by decide) (by omega)

end Run

section Endpoint

variable {run : PooledRun} {history : Nat → Tables} {pg : DateCast}
variable {query : MonthlyAnalyticsQuery}
variable {began ended began' ended' : Nat} {trace trace' : ApiTrace}
variable {body body' : MonthlyAnalyticsResponse} {response : ApiResponse}

/-- Two reports of a month are equal, however much the service has done from the
begin of the first to the end of the second, as long as no statement with lines
in the month or in the one before was completed or deleted, and no ROLLBACK of a
report was rejected with its session left inside. -/
theorem service_report_stable (hrun : ServiceRun run history)
    (hrolls : (run (max ended ended')).world.2.RollsBack)
    (h : Gets pg run.left history query began ended trace (.analytics body))
    (h' : Gets pg run.left history query began' ended' trace'
      (.analytics body'))
    (hmonth : Untouched run (monthDays query.index) (min began began')
      (max ended ended'))
    (hbefore : Untouched run (monthDays (query.index - 1)) (min began began')
      (max ended ended')) :
    body' = body := by
  rcases h.answers with ⟨moment, aggregates, hreadable, hcurrent, hprevious,
    heq⟩ | ⟨hnone, _⟩
  · rcases h'.answers with ⟨moment', aggregates', hreadable', hcurrent',
      hprevious', heq'⟩ | ⟨hnone, _⟩
    · cases heq
      cases heq'
      have hmoment := hrun.readable
        (hrun.rollsBack (Nat.le_max_left ended ended') hrolls) hreadable
      have hmoment' := hrun.readable
        (hrun.rollsBack (Nat.le_max_right ended ended') hrolls) hreadable'
      have hfirst : min began began' ≤ moment ∧ moment ≤ max ended ended' := by
        omega
      have hsecond : min began began' ≤ moment' ∧ moment' ≤ max ended ended' := by
        omega
      have hperm := hrun.source_perm hrolls hmonth hfirst hsecond
      have hperm' := hrun.source_perm hrolls hbefore hfirst hsecond
      exact buildMonthlyAnalytics_eq_of_same hcurrent.conserves
        hprevious.conserves ⟨hcurrent.same hcurrent' hperm,
          hprevious.same hprevious' hperm'⟩ _ _
    · cases hnone
  · cases hnone

/-- While at most 900719 statements are COMPLETED and no ROLLBACK of a report was
rejected with its session left inside, a report answers 503 only if one of its
calls has failed: no sum of accepted lines is too large for it. -/
theorem service_report_answers (hrun : ServiceRun run history)
    (hrolls : (run ended).world.2.RollsBack)
    (h : Gets pg run.left history query began ended trace response)
    (hgranted : Proc.Granted trace)
    (hfew : ∀ n, began ≤ n → n ≤ ended →
      ((history n).ids.filter (history n).completed).length ≤ 900719) :
    ∃ (moment : Nat) (aggregates : MonthlyAnalyticsAggregates),
      began ≤ moment ∧ moment ≤ ended ∧
      (history moment).Reports (monthDays query.index) aggregates.current ∧
      (history moment).Reports (monthDays (query.index - 1))
        aggregates.previous ∧
      response = .analytics (buildMonthlyAnalytics query.year query.month
        aggregates.current aggregates.previous) := by
  rcases h.answers with ⟨moment, aggregates, hreadable, hreport⟩ | ⟨_, hlarge⟩
  · obtain ⟨hbegan, hended⟩ := hrun.readable hrolls hreadable
    exact ⟨moment, aggregates, hbegan, hended, hreport⟩
  · obtain ⟨moment, hreadable, hunfit⟩ := hlarge hgranted
    obtain ⟨hbegan, hended⟩ := hrun.readable hrolls hreadable
    have hrolls' := hrun.rollsBack hended hrolls
    have hsmall := hfew moment hbegan hended
    exact absurd ⟨hrun.fits hrolls' hsmall, hrun.fits hrolls' hsmall⟩ hunfit

end Endpoint

section Sample

/-- The service rests in one state, over a pool that nobody uses. -/
def restsAt (c : Config Store Query Query.Answer Thrown Outcome) : PooledRun :=
  fun _ => unpooled c

/-- The tables with this statement alone. -/
theorem ServiceRun.alone {c : Config Store Query Query.Answer Thrown Outcome}
    (h : (querySystem repository Serves).Reachable c) {s : Statement}
    (hworld : c.world = storeOf s) : ∃ db : Tables,
      db.statements = c.world.statements ∧
      (db.ids.filter db.completed).length ≤ 900719 ∧
      ServiceRun (restsAt c) fun _ => db := by
  obtain ⟨db, hdb⟩ := service_tables h
  refine ⟨db, hdb, ?_, reachable_unpooled h, fun _ => .refl, fun _ => hdb⟩
  have hsubset : db.ids.filter db.completed ⊆ [⟨0⟩] := by
    intro id hid
    by_contra hother
    rw [List.mem_singleton] at hother
    have hcompleted := (List.mem_filter.mp hid).2
    have hunused : c.world.statements id = Statement.unused := by
      rw [hworld]
      exact storeOf_unused hother
    rw [Tables.completed, hdb, hunused] at hcompleted
    cases hcompleted
  have hlength := ((db.nodup.filter _).subperm hsubset).length_le
  rw [List.length_singleton] at hlength
  omega

theorem sampleQuery_isYear : (2000 : Int) ≤ 2026 ∧ (2026 : Int) ≤ 2100 := by
  omega

theorem sampleQuery_isMonth : (1 : Int) ≤ 4 ∧ (4 : Int) ≤ 12 := by
  omega

/-- April 2026. -/
def sampleQuery : MonthlyAnalyticsQuery :=
  ⟨2026, 4, sampleQuery_isYear, sampleQuery_isMonth⟩

/-- All reports of one state are equal. -/
theorem service_report_stable_sampleCompleted :
    ∃ c db trace body, ServiceRun (restsAt c) (fun _ => db) ∧
      (c.world.statements ⟨0⟩).completed = true ∧
      Gets isoCast (restsAt c).left (fun _ => db) sampleQuery 0 0 trace
        (.analytics body) ∧
      ∀ began ended trace' body', Gets isoCast (restsAt c).left (fun _ => db)
        sampleQuery began ended trace' (.analytics body') → body' = body := by
  obtain ⟨c, _, h⟩ := at_completed
  obtain ⟨db, hdb, hfew, hrun⟩ := ServiceRun.alone h.reachable h.world
  have hfits : ∀ days, db.Fits days := fun days =>
    @ServiceRun.fits _ _ _ hrun 0 ApiPool.unused_rollsBack hfew
  obtain ⟨trace, body, hgets, _⟩ :=
    exists_gets isoCast (restsAt c).left (fun _ => db) sampleQuery 0 hfits
  refine ⟨c, db, trace, body, hrun, by rw [h.world]; rfl, hgets, ?_⟩
  intro began ended trace' body' hgets'
  apply service_report_stable hrun ApiPool.unused_rollsBack hgets hgets'
  · intro n _ _ id hne
    exact absurd rfl hne
  · intro n _ _ id hne
    exact absurd rfl hne

theorem service_report_answers_sampleCompleted :
    ∃ c db trace response, ServiceRun (restsAt c) (fun _ => db) ∧
      (c.world.statements ⟨0⟩).completed = true ∧
      Gets isoCast (restsAt c).left (fun _ => db) sampleQuery 0 0 trace
        response ∧
      ∃ aggregates, db.Reports (monthDays 24315)
        (MonthlyAnalyticsAggregates.current aggregates) := by
  obtain ⟨c, _, h⟩ := at_completed
  obtain ⟨db, hdb, hfew, hrun⟩ := ServiceRun.alone h.reachable h.world
  have hfits : ∀ days, db.Fits days := fun days =>
    @ServiceRun.fits _ _ _ hrun 0 ApiPool.unused_rollsBack hfew
  obtain ⟨trace, body, hgets, hgranted⟩ :=
    exists_gets isoCast (restsAt c).left (fun _ => db) sampleQuery 0 hfits
  obtain ⟨_, aggregates, _, _, hreports, _⟩ :=
    service_report_answers hrun ApiPool.unused_rollsBack hgets hgranted
      fun _ _ _ => hfew
  exact ⟨c, db, trace, _, hrun, by rw [h.world]; rfl, hgets, aggregates, hreports⟩

end Sample

end StatementAnalyzer
