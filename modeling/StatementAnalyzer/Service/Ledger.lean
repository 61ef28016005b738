/-
The books of the service: what the tables hold in a reachable state, where each
line comes from, and how the totals of a month change along a run.
-/
import StatementAnalyzer.Analytics.SameReport
import StatementAnalyzer.Database.TypedLines
import StatementAnalyzer.Service.Guarantees
import StatementAnalyzer.Service.Vocabulary

namespace StatementAnalyzer

open Async Relational

/-- Whether the statement is there and COMPLETED. -/
def Statement.completed (s : Statement) : Bool :=
  s.row.any fun row => row.status = .completed

/-- The lines that a month takes from the statement. -/
def Statement.booked (days : CalendarDay × CalendarDay) (s : Statement) :
    List CreateTransactionInput :=
  if s.completed then
    s.transactions.filter fun line =>
      (dateParts line.transactionDate).any fun day =>
        CalendarDay.within day days.1 days.2
  else []

/-- The sum of the lines. -/
def lineTotal (lines : List CreateTransactionInput) : Int :=
  (lines.map CreateTransactionInput.amount).sum

namespace Tables

variable {db db' : Tables} {days : CalendarDay × CalendarDay}

/-- The source of the queries, statement by statement. -/
theorem source_eq_flatMap (db : Tables) (days : CalendarDay × CalendarDay) :
    db.source days = db.ids.flatMap fun id =>
      ((db.statements id).booked days).map (id, ·) := by
  rw [source, joined, List.filter_flatMap]
  congr 1
  funext id
  have hcompleted : db.completed id = (db.statements id).completed := rfl
  rw [Statement.booked, hcompleted]
  split
  · rw [List.filter_map]
    rfl
  · rfl

theorem booked_eq_nil {id : Uuid} (h : id ∉ db.ids) :
    (db.statements id).booked days = [] := by
  have hrow : (db.statements id).row = none := by
    by_contra hrow
    exact h (db.listed id hrow)
  rw [Statement.booked, Statement.completed, hrow]
  rfl

/-- The total of the days, statement by statement. -/
theorem amounts_source {S : Finset Uuid} (hS : ∀ id ∈ db.ids, id ∈ S) :
    amounts (db.source days) =
      ∑ id ∈ S, lineTotal ((db.statements id).booked days) := by
  have hids : ∑ id ∈ db.ids.toFinset,
      lineTotal ((db.statements id).booked days) =
        ∑ id ∈ S, lineTotal ((db.statements id).booked days) := by
    apply Finset.sum_subset
    · intro id hid
      exact hS id (List.mem_toFinset.mp hid)
    · intro id _ hid
      rw [booked_eq_nil fun hmem => hid (List.mem_toFinset.mpr hmem)]
      rfl
  rw [← hids, List.sum_toFinset _ db.nodup, source_eq_flatMap, amounts,
    List.map_flatMap, List.flatMap_def, List.sum_flatten, List.map_map]
  congr 1
  apply List.map_congr_left
  intro id _
  rw [Function.comp_apply, List.map_map]
  rfl

end Tables

section Service

variable {c c' : Config Store Query Query.Answer Thrown Outcome}

theorem Statement.completed_iff {s : Statement} : s.completed = true ↔
    ∃ row, s.row = some row ∧ row.status = .completed := by
  rw [Statement.completed, Option.any_eq_true]
  simp

/-- What a COMPLETED statement holds: the list of its only save, which the two
schemas have accepted, in UTF-8. -/
structure Statement.Filed (s : Statement)
    (lines : List CreateTransactionInput) : Prop where
  saved : saves s.history = [lines]
  stored : s.transactions = lines.map CreateTransactionInput.row
  accepted : AcceptedLines lines
  nodup : (lines.map CreateTransactionInput.lineNumber).Nodup

theorem service_filed (h : (querySystem repository Serves).Reachable c)
    {id : Uuid} (hcompleted : (c.world.statements id).completed = true) :
    ∃ lines, (c.world.statements id).Filed lines := by
  obtain ⟨row, hrow, hstatus⟩ := Statement.completed_iff.mp hcompleted
  obtain ⟨lines, hsaves, hstored⟩ :=
    (repository_genuine h id).fenced.saved row hrow hstatus
  have hmem : lines ∈ saves (c.world.statements id).history := by
    rw [hsaves]
    exact List.mem_singleton_self lines
  have hnodup := (service_orderly h id).saves lines hmem
  refine ⟨lines, hsaves, ?_, ?_, hnodup⟩
  · rw [hstored]
    exact foldl_upsertTransaction_eq_append lines [] hnodup
  · obtain ⟨e, he, hsaved⟩ := List.mem_filterMap.mp hmem
    cases service_asked h id e he with
    | completed haccepted =>
        cases hsaved
        exact haccepted
    | created _ | updated _ | refused _ | errored _ | sent | deliveredLate
    | deleting | removed => cases hsaved

theorem service_open (h : (querySystem repository Serves).Reachable c)
    {id : Uuid} (hopen : (c.world.statements id).completed = false) :
    (c.world.statements id).transactions = [] := by
  have hfenced := (repository_genuine h id).fenced
  cases hrow : (c.world.statements id).row with
  | none => exact hfenced.bare hrow
  | some row =>
      apply (hfenced.unsaved row hrow _).1
      intro hstatus
      rw [Statement.completed_iff.mpr ⟨row, hrow, hstatus⟩] at hopen
      cases hopen

/-- A step changes one statement at most. -/
theorem World.Steps.others {P : Uuid → Event → Prop} {w w' : World}
    (h : w.Steps P w') : ∃ other, ∀ id, id ≠ other → w' id = w id := by
  cases h with
  | same => exact ⟨⟨0⟩, fun _ _ => rfl⟩
  | @event other _ s _ _ => exact ⟨other, fun _ hid => World.set_ne w hid s⟩

/-- Finitely many statements have ever been inserted. -/
theorem service_finite (h : (querySystem repository Serves).Reachable c) :
    ∃ ids : List Uuid, ids.Nodup ∧
      ∀ id, (c.world.statements id).row ≠ none → id ∈ ids := by
  have hlisted : ∃ ids : List Uuid,
      ∀ id, (c.world.statements id).row ≠ none → id ∈ ids := by
    induction h with
    | init h =>
        cases h
        exact ⟨[], fun id hrow => absurd rfl hrow⟩
    | step h hstep ih =>
        obtain ⟨ids, hids⟩ := ih
        obtain ⟨_, _, hsteps⟩ := repository_step h hstep
        obtain ⟨other, hothers⟩ := hsteps.others
        refine ⟨other :: ids, fun id hrow => ?_⟩
        by_cases hid : id = other
        · exact hid ▸ List.mem_cons_self
        · rw [hothers id hid] at hrow
          exact List.mem_cons_of_mem other (hids id hrow)
  obtain ⟨ids, hids⟩ := hlisted
  exact ⟨ids.dedup, List.nodup_dedup ids,
    fun id hrow => List.mem_dedup.mpr (hids id hrow)⟩

/-- The tables of a reachable state. -/
theorem service_tables (h : (querySystem repository Serves).Reachable c) :
    ∃ db : Tables, db.statements = c.world.statements := by
  obtain ⟨ids, hnodup, hlisted⟩ := service_finite h
  have hunique : ∀ id, ((c.world.statements id).transactions.map
      CreateTransactionInput.lineNumber).Nodup := by
    intro id
    cases hcompleted : (c.world.statements id).completed with
    | false =>
        rw [service_open h hcompleted]
        exact List.nodup_nil
    | true =>
        obtain ⟨lines, hfiled⟩ := service_filed h hcompleted
        rw [hfiled.stored, List.map_map]
        exact hfiled.nodup
  exact ⟨⟨ids, c.world.statements, hnodup, hlisted,
    (repository_typed h).statements, hunique⟩, rfl⟩

theorem storeOf_unused {s : Statement} {id : Uuid} (hid : id ≠ ⟨0⟩) :
    (storeOf s).statements id = Statement.unused :=
  World.set_ne (fun _ => Statement.unused) hid s

/-- The books of a reachable state.  A report counts a line exactly if it is
dated in its days and is, in UTF-8, one of the list that the one save of a
COMPLETED statement was given, which the two OCR schemas have accepted; and it
counts it once, however often jobs were delivered and saves were tried. -/
theorem service_books (h : (querySystem repository Serves).Reachable c) :
    (∃ db : Tables, db.statements = c.world.statements) ∧
    ∀ db : Tables, db.statements = c.world.statements → ∀ days,
      (db.source days).Nodup ∧
      ∀ id line, (id, line) ∈ db.source days ↔
        (c.world.statements id).completed = true ∧
          Tables.dated days (id, line) = true ∧
          ∃ lines, (c.world.statements id).Filed lines ∧
            line ∈ lines.map CreateTransactionInput.row := by
  refine ⟨service_tables h, fun db hdb days => ⟨db.source_nodup days, ?_⟩⟩
  intro id line
  rw [Tables.source, List.mem_filter, Tables.mem_joined_iff, hdb]
  have hcompleted : db.completed id = (c.world.statements id).completed := by
    rw [Tables.completed, hdb]
    rfl
  rw [hcompleted]
  constructor
  · rintro ⟨⟨hfinished, hmem⟩, hdated⟩
    obtain ⟨lines, hfiled⟩ := service_filed h hfinished
    exact ⟨hfinished, hdated, lines, hfiled, hfiled.stored ▸ hmem⟩
  · rintro ⟨hfinished, hdated, lines, hfiled, hmem⟩
    exact ⟨⟨hfinished, hfiled.stored ▸ hmem⟩, hdated⟩

theorem service_books_sampleCompleted :
    ∃ (c : Config Store Query Query.Answer Thrown Outcome) (db : Tables),
      (querySystem repository Serves).Reachable c ∧
      db.statements = c.world.statements ∧
      ∀ line, (⟨0⟩, line) ∈ db.source ((2026, 4, 1), (2026, 5, 1)) ↔
        line ∈ sampleTransactions := by
  obtain ⟨c, _, h⟩ := at_completed
  obtain ⟨⟨db, hdb⟩, hbooks⟩ := service_books h.reachable
  have hstatement : c.world.statements ⟨0⟩ = sampleCompleted := by
    rw [h.world]
    rfl
  refine ⟨c, db, h.reachable, hdb, fun line => ?_⟩
  rw [(hbooks db hdb ((2026, 4, 1), (2026, 5, 1))).2, hstatement]
  constructor
  · rintro ⟨_, _, lines, hfiled, hline⟩
    rw [← hfiled.stored] at hline
    exact hline
  · intro hline
    obtain rfl := List.mem_singleton.mp hline
    have hcompleted : (c.world.statements ⟨0⟩).completed = true := by
      rw [hstatement]
      rfl
    obtain ⟨lines, hfiled⟩ := service_filed h.reachable hcompleted
    rw [hstatement] at hfiled
    refine ⟨rfl, by decide, lines, hfiled, ?_⟩
    rw [← hfiled.stored]
    exact List.mem_singleton_self _

/-- A COMPLETED statement keeps its lines until it is deleted. -/
theorem service_kept (h : (querySystem repository Serves).Reachable c)
    (hleads : (querySystem repository Serves).Leads c c') {id : Uuid}
    (hcompleted : (c.world.statements id).completed = true) :
    (c'.world.statements id).row = none ∨
      ((c'.world.statements id).completed = true ∧
        (c'.world.statements id).transactions =
          (c.world.statements id).transactions) := by
  have hevolves := repository_leads h hleads id
  obtain ⟨row, hrow, hstatus⟩ := Statement.completed_iff.mp hcompleted
  have hsettled : (c.world.statements id).Settled :=
    (repository_genuine h id).settled_of_row hrow (by rw [hstatus]; rfl)
  rcases (hevolves.settled hsettled).2 with hsame | hnone
  · right
    have hcompleted' : (c'.world.statements id).completed = true := by
      rw [Statement.completed, hsame]
      exact hcompleted
    obtain ⟨lines, hfiled⟩ := service_filed h hcompleted
    obtain ⟨lines', hfiled'⟩ := service_filed (h.leads hleads) hcompleted'
    obtain ⟨newer, hhistory, _⟩ := hevolves.history
    have hsaves : saves newer ++ [lines] = [] ++ [lines'] := by
      rw [← hfiled.saved, List.nil_append, ← hfiled'.saved, hhistory]
      exact (List.filterMap_append ..).symm
    have hlast := List.append_inj_right' hsaves rfl
    refine ⟨hcompleted', ?_⟩
    rw [hfiled.stored, hfiled'.stored, (List.cons.inj hlast).1]
  · exact .inl hnone

theorem Statement.booked_of_open {s : Statement} (h : s.completed = false)
    (days : CalendarDay × CalendarDay) : s.booked days = [] := by
  rw [Statement.booked, h]
  rfl

theorem Statement.booked_congr {s s' : Statement}
    (hcompleted : s'.completed = s.completed)
    (htransactions : s'.transactions = s.transactions)
    (days : CalendarDay × CalendarDay) : s'.booked days = s.booked days := by
  rw [Statement.booked, Statement.booked, hcompleted, htransactions]

theorem Statement.not_completed_of_deleted {s : Statement} (h : s.row = none) :
    s.completed = false := by
  rw [Statement.completed, h]
  rfl

theorem Statement.row_of_completed {s : Statement} (h : s.completed = true) :
    s.row ≠ none := by
  intro hnone
  rw [s.not_completed_of_deleted hnone] at h
  cases h

/-- The books change by completions and deletions only: the total of any days
grows by the lines of the statements completed in between and shrinks by those
of the statements deleted, whatever else has happened. -/
theorem service_books_change (h : (querySystem repository Serves).Reachable c)
    (hleads : (querySystem repository Serves).Leads c c') {db db' : Tables}
    (hdb : db.statements = c.world.statements)
    (hdb' : db'.statements = c'.world.statements)
    (days : CalendarDay × CalendarDay) :
    ∃ added removed : Finset Uuid,
      (∀ id, id ∈ added ↔ (c.world.statements id).completed = false ∧
        (c'.world.statements id).completed = true) ∧
      (∀ id, id ∈ removed ↔ (c.world.statements id).completed = true ∧
        (c'.world.statements id).row = none) ∧
      Tables.amounts (db'.source days) = Tables.amounts (db.source days) +
        ∑ id ∈ added, lineTotal ((c'.world.statements id).booked days) -
        ∑ id ∈ removed, lineTotal ((c.world.statements id).booked days) := by
  let was id := (c.world.statements id).completed
  let is id := (c'.world.statements id).completed
  let before id := lineTotal ((c.world.statements id).booked days)
  let after id := lineTotal ((c'.world.statements id).booked days)
  let S : Finset Uuid := db.ids.toFinset ∪ db'.ids.toFinset
  have hS : ∀ id ∈ db.ids, id ∈ S := fun id hid =>
    Finset.mem_union_left _ (List.mem_toFinset.mpr hid)
  have hS' : ∀ id ∈ db'.ids, id ∈ S := fun id hid =>
    Finset.mem_union_right _ (List.mem_toFinset.mpr hid)
  have hsplit : ∀ id, after id = before id +
      (if was id = false ∧ is id = true then after id else 0) -
      (if was id = true ∧ is id = false then before id else 0) := by
    intro id
    cases hwas : was id with
    | false =>
        have hbefore : before id = 0 := by
          simp only [before, Statement.booked_of_open hwas]
          rfl
        cases his : is id with
        | false =>
            have hafter : after id = 0 := by
              simp only [after, Statement.booked_of_open his]
              rfl
            simp [hbefore, hafter]
        | true => simp [hbefore]
    | true =>
        cases his : is id with
        | false =>
            have hafter : after id = 0 := by
              simp only [after, Statement.booked_of_open his]
              rfl
            simp [hafter]
        | true =>
            have hsame : after id = before id := by
              rcases service_kept h hleads hwas with hnone | ⟨_, hkept⟩
              · exact absurd hnone (Statement.row_of_completed his)
              · have hbooked := Statement.booked_congr (his.trans hwas.symm)
                  hkept days
                simp only [after, before, hbooked]
            simp [hsame]
  refine ⟨S.filter fun id => was id = false ∧ is id = true,
    S.filter fun id => was id = true ∧ is id = false, ?_, ?_, ?_⟩
  · intro id
    rw [Finset.mem_filter]
    refine ⟨fun hadded => hadded.2, fun hadded => ⟨hS' id ?_, hadded⟩⟩
    apply db'.listed
    rw [hdb']
    exact Statement.row_of_completed hadded.2
  · intro id
    rw [Finset.mem_filter]
    constructor
    · rintro ⟨_, hwas, his⟩
      refine ⟨hwas, ?_⟩
      rcases service_kept h hleads hwas with hnone | ⟨hcompleted, _⟩
      · exact hnone
      · exact absurd (his.symm.trans hcompleted) Bool.false_ne_true
    · rintro ⟨hwas, hnone⟩
      refine ⟨hS id ?_, hwas, Statement.not_completed_of_deleted hnone⟩
      apply db.listed
      rw [hdb]
      exact Statement.row_of_completed hwas
  · rw [Tables.amounts_source hS, Tables.amounts_source hS', hdb, hdb',
      Finset.sum_filter, Finset.sum_filter, ← Finset.sum_add_distrib,
      ← Finset.sum_sub_distrib]
    exact Finset.sum_congr rfl fun id _ => hsplit id

/-- From the empty tables to one COMPLETED statement. -/
theorem service_books_change_sampleCompleted :
    ∃ (c c' : Config Store Query Query.Answer Thrown Outcome) (db : Tables),
      (querySystem repository Serves).Reachable c ∧
      (querySystem repository Serves).Leads c c' ∧
      db.statements = c'.world.statements ∧
      Tables.amounts (db.source ((2026, 4, 1), (2026, 5, 1))) = 1200 := by
  obtain ⟨c', _, h⟩ := at_completed
  obtain ⟨w, hinit, hleads⟩ := h.reachable.from_init
  have hreachable : (querySystem repository Serves).Reachable ⟨w, fun _ => .idle⟩ :=
    .init hinit
  obtain ⟨db, hdb⟩ := service_tables hreachable
  obtain ⟨db', hdb'⟩ := service_tables h.reachable
  obtain ⟨added, removed, hadded, hremoved, htotal⟩ := service_books_change
    hreachable hleads hdb hdb' ((2026, 4, 1), (2026, 5, 1))
  have hunused : ∀ id, w.statements id = Statement.unused := by
    intro id
    rw [show w = _ from hinit]
  have hnone : removed = ∅ := by
    apply Finset.eq_empty_of_forall_notMem
    intro id hid
    have hcompleted := ((hremoved id).mp hid).1
    rw [hunused id] at hcompleted
    cases hcompleted
  have hone : added = {⟨0⟩} := by
    ext id
    rw [hadded, Finset.mem_singleton, hunused, h.world]
    constructor
    · rintro ⟨_, hcompleted⟩
      by_contra hid
      rw [storeOf_unused hid] at hcompleted
      cases hcompleted
    · rintro rfl
      exact ⟨rfl, rfl⟩
  have hbefore : Tables.amounts (db.source ((2026, 4, 1), (2026, 5, 1))) = 0 := by
    rw [Tables.amounts_source (S := db.ids.toFinset) fun id hid =>
      List.mem_toFinset.mpr hid, hdb]
    apply Finset.sum_eq_zero
    intro id _
    rw [hunused]
    rfl
  refine ⟨_, c', db', hreachable, hleads, hdb', ?_⟩
  rw [htotal, hnone, hone, Finset.sum_singleton, Finset.sum_empty, hbefore,
    h.world]
  decide

end Service

end StatementAnalyzer
