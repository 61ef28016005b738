/-
The months partition the transactions of COMPLETED statements, so the totals of
consecutive months add up.
-/
import StatementAnalyzer.Analytics.ReturningCalls

namespace StatementAnalyzer

open Async Relational

/-- The days of one month. -/
def monthDays (index : Nat) : CalendarDay × CalendarDay :=
  (monthStart index, monthStart (index + 1))

/-- The month of a stored transaction. -/
def JoinedRow.month (row : JoinedRow) : Nat :=
  ((dateParts row.2.transactionDate).map CalendarDay.monthIndex).getD 0

theorem DateCast.range_month (pg : DateCast) (index : Nat)
    (h : 12000 ≤ index) (h' : index + 1 < 120000) :
    pg.range ⟨monthStartText index, monthStartText (index + 1)⟩ =
      some (monthDays index) := by
  have hfirst := pg.iso _ _ (dateParts_monthStartText h (by omega))
    (isCalendarDay_monthStart index (by omega))
  have hlast := pg.iso _ _ (dateParts_monthStartText (by omega) h')
    (isCalendarDay_monthStart (index + 1) (by omega))
  simp [DateCast.range, hfirst, hlast, monthDays]

namespace Tables

variable {db : Tables} {id : Uuid} {transaction : CreateTransactionInput}

theorem mem_joined_iff : (id, transaction) ∈ db.joined ↔
    db.completed id = true ∧ transaction ∈ (db.statements id).transactions := by
  rw [joined, List.mem_flatMap]
  constructor
  · rintro ⟨other, _, hmem⟩
    split at hmem
    · rename_i hcompleted
      obtain ⟨_, hin, heq⟩ := List.mem_map.mp hmem
      cases heq
      exact ⟨hcompleted, hin⟩
    · cases hmem
  · rintro ⟨hcompleted, hin⟩
    have hrow : (db.statements id).row ≠ none := by
      intro hnone
      rw [completed, hnone] at hcompleted
      cases hcompleted
    refine ⟨id, db.listed id hrow, ?_⟩
    rw [if_pos hcompleted]
    exact List.mem_map_of_mem hin

theorem joined_nodup (db : Tables) : db.joined.Nodup := by
  rw [joined, List.nodup_flatMap]
  constructor
  · intro id _
    split
    · exact (List.Nodup.of_map _ (db.unique id)).map (Prod.mk_right_injective id)
    · exact List.nodup_nil
  · apply db.nodup.imp
    intro id other hne row hrow hother
    dsimp only at hrow hother
    split at hrow
    · split at hother
      · obtain ⟨_, _, rfl⟩ := List.mem_map.mp hrow
        obtain ⟨_, _, heq⟩ := List.mem_map.mp hother
        cases heq
        exact hne rfl
      · cases hother
    · cases hrow

/-- A `date` column holds a day of the calendar. -/
theorem day_of_mem (h : transaction ∈ (db.statements id).transactions) :
    ∃ day, dateParts transaction.transactionDate = some day ∧
      isCalendarDay day.1 day.2.1 day.2.2 = true := by
  have hstorable := db.typed id transaction h
  simp only [CreateTransactionInput.storable, Bool.and_eq_true] at hstorable
  obtain ⟨⟨⟨⟨⟨⟨⟨_, hdate⟩, _⟩, _⟩, _⟩, _⟩, _⟩, _⟩ := hstorable
  exact (Option.any_eq_true _ _).mp hdate

/-- What the three queries aggregate between the starts of two months. -/
theorem mem_source_iff (first last : Nat) :
    (id, transaction) ∈ db.source (monthStart first, monthStart last) ↔
      (db.completed id = true ∧
        transaction ∈ (db.statements id).transactions) ∧
      first ≤ JoinedRow.month (id, transaction) ∧
      JoinedRow.month (id, transaction) < last := by
  rw [source, List.mem_filter, mem_joined_iff]
  apply and_congr_right
  rintro ⟨_, hmem⟩
  obtain ⟨day, hday, hcalendar⟩ := day_of_mem hmem
  simp only [dated, JoinedRow.month, hday, Option.any_some, Option.map_some,
    Option.getD_some]
  exact within_monthStart_iff first last hcalendar

theorem source_nodup (db : Tables) (days : CalendarDay × CalendarDay) :
    (db.source days).Nodup :=
  db.joined_nodup.filter _

theorem month_of_mem (h : transaction ∈ (db.statements id).transactions)
    {day : CalendarDay} (hday : dateParts transaction.transactionDate = some day) :
    1 ≤ day.2.1 ∧ day.2.1 ≤ 12 := by
  obtain ⟨day', hday', hcalendar⟩ := day_of_mem h
  cases hday.symm.trans hday'
  simp only [isCalendarDay, Bool.and_eq_true, decide_eq_true_eq] at hcalendar
  omega

/-- A transaction of a COMPLETED statement is there once in its own month, and
in no other. -/
theorem count_source (db : Tables)
    (h : transaction ∈ (db.statements id).transactions)
    {day : CalendarDay} (hday : dateParts transaction.transactionDate = some day)
    (hcompleted : db.completed id = true) {year month : Nat}
    (hmonth : 1 ≤ month) (hmonth' : month ≤ 12) :
    (db.source (monthDays (12 * year + (month - 1)))).count (id, transaction) =
      if year = day.1 ∧ month = day.2.1 then 1 else 0 := by
  obtain ⟨hone, htwelve⟩ := month_of_mem h hday
  have hown : JoinedRow.month (id, transaction) =
      12 * day.1 + (day.2.1 - 1) := by
    rw [JoinedRow.month, hday]
    rfl
  have hsource : (id, transaction) ∈
      db.source (monthDays (12 * year + (month - 1))) ↔ _ :=
    mem_source_iff _ _
  rw [hown] at hsource
  split
  · rename_i hsame
    apply List.count_eq_one_of_mem (db.source_nodup _)
    exact hsource.mpr ⟨⟨hcompleted, h⟩, by omega⟩
  · rename_i hother
    apply List.count_eq_zero_of_not_mem
    intro hin
    have hmonths := (hsource.mp hin).2
    omega

theorem not_mem_source (db : Tables) (hopen : db.completed id = false)
    (days : CalendarDay × CalendarDay) :
    (id, transaction) ∉ db.source days := by
  intro hin
  have hjoined := (mem_joined_iff.mp (List.mem_filter.mp hin).1).1
  rw [hopen] at hjoined
  cases hjoined

/-- One month of a longer span. -/
theorem fiber_source {first last index : Nat} (h : first ≤ index)
    (h' : index < last) :
    fiber JoinedRow.month (db.source (monthStart first, monthStart last))
      index = db.source (monthDays index) := by
  rw [fiber, source, source, List.filter_filter]
  apply List.filter_congr
  rintro ⟨id, transaction⟩ hrow
  obtain ⟨_, hmem⟩ := mem_joined_iff.mp hrow
  obtain ⟨day, hday, hcalendar⟩ := day_of_mem hmem
  have hspan := within_monthStart_iff first last hcalendar
  have hmonth := within_monthStart_iff index (index + 1) hcalendar
  simp only [dated, JoinedRow.month, hday, Option.any_some, Option.map_some,
    Option.getD_some, monthDays]
  rw [Bool.eq_iff_iff, Bool.and_eq_true, decide_eq_true_eq, hspan, hmonth]
  omega

/-- The months of a span add up to the span. -/
theorem sum_months (db : Tables) (first count : Nat) :
    ((List.range' first count).map fun index =>
      amounts (db.source (monthDays index))).sum =
        amounts (db.source (monthStart first, monthStart (first + count))) := by
  have hcover : ∀ row ∈
      db.source (monthStart first, monthStart (first + count)),
      JoinedRow.month row ∈ List.range' first count := by
    rintro ⟨id, transaction⟩ hrow
    rw [List.mem_range'_1]
    exact ((mem_source_iff _ _).mp hrow).2
  rw [amounts, ← sum_fibers JoinedRow.month _ List.nodup_range' _ hcover]
  congr 1
  apply List.map_congr_left
  intro index hindex
  obtain ⟨hfirst, hlast⟩ := List.mem_range'_1.mp hindex
  rw [fiber_source hfirst hlast, amounts]

end Tables

/-- A call for this month, begun after `began` commits of others, has settled
after `ended` of them. -/
def Settles (pg : DateCast) (left : Nat → Prop) (history : Nat → Tables)
    (year month : Nat) (began ended : Nat) (trace : ApiTrace)
    (result : Except Thrown MonthlyAnalyticsAggregates) : Prop :=
  ∃ ranges session, getMonthlyAnalyticsRanges year month = .ok ranges ∧
    (StatementRepository.findMonthlyAnalytics ranges).Run trace result ∧
    Served SnapshotState.Rely (SnapshotState.Serves pg left history)
      ⟨began, .closed⟩ trace ⟨ended, session⟩

section Settles

variable {pg : DateCast} {left : Nat → Prop} {history : Nat → Tables}
variable {year month began ended : Nat} {trace : ApiTrace}

/-- What a call returns describes one snapshot. -/
theorem Settles.reports (index : Nat) {aggregates : MonthlyAnalyticsAggregates}
    (h : Settles pg left history year month began ended trace (.ok aggregates))
    (hyear : 2000 ≤ year) (hyear' : year ≤ 2100) (hmonth : 1 ≤ month)
    (hmonth' : month ≤ 12) (hindex : index + 1 = 12 * year + (month - 1)) :
    ∃ snapshot, Readable left began ended snapshot ∧
      (history snapshot).Reports (monthDays (index + 1)) aggregates.current ∧
      (history snapshot).Reports (monthDays index) aggregates.previous := by
  obtain ⟨ranges, session, hranges, hrun, hserved⟩ := h
  obtain ⟨snapshot, days, days', hreadable, hcurrent, hprevious, hreports,
    hreports'⟩ := served_findMonthlyAnalytics hrun hserved
  rw [getMonthlyAnalyticsRanges_eq (by omega) hmonth hmonth' hindex] at hranges
  cases hranges
  cases hcurrent.symm.trans (pg.range_month _ (by omega) (by omega))
  cases hprevious.symm.trans (pg.range_month _ (by omega) (by omega))
  exact ⟨snapshot, hreadable, hreports, hreports'⟩

/-- A call whose queries are all served returns if the numbers fit. -/
theorem Settles.returns (index : Nat)
    {result : Except Thrown MonthlyAnalyticsAggregates}
    (h : Settles pg left history year month began ended trace result)
    (hyear : 2000 ≤ year) (hyear' : year ≤ 2100) (hmonth : 1 ≤ month)
    (hmonth' : month ≤ 12) (hindex : index + 1 = 12 * year + (month - 1))
    (hgranted : Proc.Granted trace)
    (hfits : ∀ snapshot, Readable left began ended snapshot →
      (history snapshot).Fits (monthDays (index + 1)) ∧
        (history snapshot).Fits (monthDays index)) :
    ∃ aggregates, result = .ok aggregates := by
  obtain ⟨ranges, session, hranges, hrun, hserved⟩ := h
  rw [getMonthlyAnalyticsRanges_eq (by omega) hmonth hmonth' hindex] at hranges
  cases hranges
  apply served_findMonthlyAnalytics_granted hrun hgranted hserved
  intro snapshot days hreadable hdays
  rcases hdays with hdays | hdays
  · cases hdays.symm.trans (pg.range_month _ (by omega) (by omega))
    exact (hfits snapshot hreadable).1
  · cases hdays.symm.trans (pg.range_month _ (by omega) (by omega))
    exact (hfits snapshot hreadable).2

/-- At any moment at which the numbers fit, a call can be made and returns. -/
theorem exists_settles (pg : DateCast) (left : Nat → Prop) (index : Nat)
    {moment : Nat} (hyear : 2000 ≤ year) (hyear' : year ≤ 2100)
    (hmonth : 1 ≤ month) (hmonth' : month ≤ 12)
    (hindex : index + 1 = 12 * year + (month - 1))
    (hfits : (history moment).Fits (monthDays (index + 1)))
    (hfits' : (history moment).Fits (monthDays index)) :
    ∃ trace aggregates, Proc.Granted trace ∧
      Settles pg left history year month moment moment trace
        (.ok aggregates) := by
  have hcurrent := pg.range_month (index + 1) (by omega) (by omega)
  have hprevious := pg.range_month index (by omega) (by omega)
  obtain ⟨trace, aggregates, hrun, hgranted, hserved⟩ :=
    @exists_findMonthlyAnalytics pg left history ⟨⟨_, _⟩, ⟨_, _⟩⟩ _ _ moment
      hcurrent hprevious hfits hfits'
  refine ⟨trace, aggregates, hgranted, _, _, ?_, hrun, hserved⟩
  exact getMonthlyAnalyticsRanges_eq (by omega) hmonth hmonth' hindex

end Settles

/-- Monthly analytics conserve money.  Every call that returns describes one
snapshot exactly, with distinct names and matching sums; a call that cannot be
exact throws, and one whose queries are all served and whose numbers fit returns.
Among the months, a transaction of a COMPLETED statement is counted once, in its
own, any other transaction never, and the totals of consecutive months are the
total of their days. -/
theorem findMonthlyAnalytics_conserves (pg : DateCast) (left : Nat → Prop)
    (history : Nat → Tables) (db : Tables) :
    (∀ year month began ended trace result index, 2000 ≤ year → year ≤ 2100 →
      1 ≤ month → month ≤ 12 → index + 1 = 12 * year + (month - 1) →
      Settles pg left history year month began ended trace result →
        (∀ aggregates, result = .ok aggregates →
          (∃ snapshot, Readable left began ended snapshot ∧
            (history snapshot).Reports (monthDays (index + 1))
              aggregates.current ∧
            (history snapshot).Reports (monthDays index)
              aggregates.previous) ∧
          aggregates.current.Conserves ∧ aggregates.previous.Conserves) ∧
        ((∀ snapshot, Readable left began ended snapshot →
          ¬((history snapshot).Fits (monthDays (index + 1)) ∧
            (history snapshot).Fits (monthDays index))) →
          ∃ error, result = .error error) ∧
        (Proc.Granted trace → (∀ snapshot, Readable left began ended snapshot →
          (history snapshot).Fits (monthDays (index + 1)) ∧
            (history snapshot).Fits (monthDays index)) →
          ∃ aggregates, result = .ok aggregates)) ∧
    (∀ year month moment index, 2000 ≤ year → year ≤ 2100 → 1 ≤ month →
      month ≤ 12 → index + 1 = 12 * year + (month - 1) →
      (history moment).Fits (monthDays (index + 1)) →
      (history moment).Fits (monthDays index) →
        ∃ trace aggregates, Proc.Granted trace ∧
          Settles pg left history year month moment moment trace
            (.ok aggregates)) ∧
    (∀ id, ∀ transaction ∈ (db.statements id).transactions, ∀ day,
      dateParts transaction.transactionDate = some day →
      2000 ≤ day.1 → day.1 ≤ 2100 →
        (db.completed id = true → (1 ≤ day.2.1 ∧ day.2.1 ≤ 12) ∧
          ∀ year month, 1 ≤ month → month ≤ 12 →
            (db.source (monthDays (12 * year + (month - 1)))).count
              (id, transaction) =
                if year = day.1 ∧ month = day.2.1 then 1 else 0) ∧
        (db.completed id = false →
          ∀ days, (id, transaction) ∉ db.source days)) ∧
    (∀ first count, ∀ aggregates : Nat → MonthlyAnalyticsAggregates,
      12 * 2000 ≤ first → first + count ≤ 12 * 2101 →
      (∀ index, first ≤ index → index < first + count →
        ∃ began ended trace, Settles pg left (fun _ => db) (index / 12)
          (index % 12 + 1) began ended trace (.ok (aggregates index))) →
      ((List.range' first count).map fun index =>
        (aggregates index).current.totalAmount).sum =
          Tables.amounts
            (db.source (monthStart first, monthStart (first + count)))) := by
  refine ⟨?_, ?_, ?_, ?_⟩
  · intro year month began ended trace result index hyear hyear' hmonth hmonth'
      hindex hsettles
    refine ⟨?_, ?_, ?_⟩
    · rintro aggregates rfl
      obtain ⟨snapshot, hreadable, hcurrent, hprevious⟩ :=
        hsettles.reports index hyear hyear' hmonth hmonth' hindex
      exact ⟨⟨snapshot, hreadable, hcurrent, hprevious⟩,
        hcurrent.conserves, hprevious.conserves⟩
    · intro hunfit
      cases result with
      | error error => exact ⟨error, rfl⟩
      | ok aggregates =>
          obtain ⟨snapshot, hreadable, hcurrent, hprevious⟩ :=
            hsettles.reports index hyear hyear' hmonth hmonth' hindex
          exact absurd ⟨hcurrent.fits, hprevious.fits⟩
            (hunfit snapshot hreadable)
    · exact hsettles.returns index hyear hyear' hmonth hmonth' hindex
  · intro year month moment index
    exact exists_settles pg left index
  · intro id transaction hmem day hday hyear hyear'
    refine ⟨fun hcompleted => ?_, db.not_mem_source⟩
    obtain ⟨hone, htwelve⟩ := Tables.month_of_mem hmem hday
    exact ⟨⟨hone, htwelve⟩, fun year month hmonth hmonth' =>
      db.count_source hmem hday hcompleted hmonth hmonth'⟩
  · intro first count aggregates hfirst hlast hreturned
    rw [← db.sum_months first count]
    congr 1
    apply List.map_congr_left
    intro index hindex
    obtain ⟨hfrom, hto⟩ := List.mem_range'_1.mp hindex
    obtain ⟨_, _, _, hsettles⟩ := hreturned index hfrom hto
    obtain ⟨_, _, hreports, _⟩ := hsettles.reports (index - 1)
      (by omega) (by omega) (by omega) (by omega) (by omega)
    have hsame : index - 1 + 1 = index := by omega
    rw [hsame] at hreports
    exact hreports.totalAmount

section Sample

def isoCast : DateCast where
  cast text := (dateParts text).filter fun day =>
    isCalendarDay day.1 day.2.1 day.2.2
  iso := by
    intro text day hday hcalendar
    rw [hday, Option.filter_some, if_pos hcalendar]

def sampleId : Uuid := ⟨1⟩

/-- A purchase and a refund in April, and a purchase in March. -/
def samplePurchases : List CreateTransactionInput :=
  [⟨1, js "2026-04-30", js "A", js "A", 1200, js "食費", none⟩,
    ⟨2, js "2026-04-01", js "B", js "B", -200, js "食費", none⟩,
    ⟨3, js "2026-03-31", js "A", js "A", 500, js "食費", none⟩]

def sampleStatement : Statement where
  row := some {
    id := sampleId
    ownerId := none
    s3Key := js "key"
    targetMonth := js "2026-04-01"
    status := .completed
    contentType := .jpeg
    contentLength := 1
    processingStartedAt := none
    processingLeaseExpiresAt := none
    processingToken := none
    processedAt := some 0
    failureCode := none
    failureMessage := none
    createdAt := 0
    updatedAt := 0 }
  transactions := samplePurchases
  messages := []
  history := []

def sampleTables : Tables where
  ids := [sampleId]
  statements := World.set (fun _ => Statement.unused) sampleId sampleStatement
  nodup := List.nodup_singleton _
  listed := by
    intro id hrow
    by_cases hid : id = sampleId
    · exact List.mem_singleton.mpr hid
    · rw [World.set_ne _ hid] at hrow
      exact absurd rfl hrow
  typed := by
    apply World.forall_set (P := fun s => ∀ transaction ∈ s.transactions,
      transaction.storable = true) sampleId
    · decide
    · intro other transaction hmem
      cases hmem
  unique := by
    apply World.forall_set (P := fun s =>
      (s.transactions.map CreateTransactionInput.lineNumber).Nodup) sampleId
    · decide
    · intro other
      exact List.nodup_nil

def sampleAggregates : MonthlyAnalyticsAggregates :=
  ⟨⟨1000, 2, [⟨js "食費", 1000, 2⟩],
      [⟨js "A", 1200, 1⟩, ⟨js "B", -200, 1⟩]⟩,
    ⟨500, 1, [⟨js "食費", 500, 1⟩], [⟨js "A", 500, 1⟩]⟩⟩

/-- The three queries of one month, and what they answer. -/
def sampleQueries (index : Nat) : ApiTrace :=
  let range := ⟨monthStartText index, monthStartText (index + 1)⟩
  [⟨.client (.selectOverview range),
      .ok [sampleTables.overview (monthDays index)]⟩,
    ⟨.client (.selectCategories range), .ok (sampleTables.buckets
      CreateTransactionInput.category (monthDays index))⟩,
    ⟨.client (.selectMerchants range), .ok (sampleTables.buckets
      CreateTransactionInput.merchantName (monthDays index))⟩]

variable {left : Nat → Prop}

theorem served_sampleQueries {session : SnapshotSession} {index : Nat}
    (hsession : session = .begun ∨ session = .reading 0)
    (hindex : index = 24313 ∨ index = 24314 ∨ index = 24315) :
    Served SnapshotState.Rely
      (SnapshotState.Serves isoCast left fun _ => sampleTables)
      ⟨0, session⟩ (sampleQueries index) ⟨0, .reading 0⟩ := by
  have hrange := isoCast.range_month index (by omega) (by omega)
  have hcategories : Tables.Ordered (sampleTables.buckets
      CreateTransactionInput.category (monthDays index)) _ :=
    ⟨.refl _, by rcases hindex with rfl | rfl | rfl <;> decide⟩
  have hmerchants : Tables.Ordered (sampleTables.buckets
      CreateTransactionInput.merchantName (monthDays index)) _ :=
    ⟨.refl _, by rcases hindex with rfl | rfl | rfl <;> decide⟩
  refine .cons ⟨le_rfl, rfl⟩ ?_ (.cons ⟨le_rfl, rfl⟩ (.next
    (.categories hrange hcategories)) (.cons ⟨le_rfl, rfl⟩ (.next
      (.merchants hrange hmerchants)) .nil))
  rcases hsession with rfl | rfl
  · exact .first (.overview hrange)
  · exact .next (.overview hrange)

/-- A call for the month after the one with this index. -/
def sampleCall (index : Nat) : ApiTrace :=
  [⟨.connect, .ok ()⟩, ⟨.client .beginRepeatableRead, .ok ()⟩] ++
    (sampleQueries (index + 1) ++ (sampleQueries index ++
      [⟨.client .commit, .ok ()⟩, ⟨.release false, .ok ()⟩]))

theorem served_sampleCall {index : Nat} (hindex : index = 24313 ∨ index = 24314) :
    Served SnapshotState.Rely
      (SnapshotState.Serves isoCast left fun _ => sampleTables)
      ⟨0, .closed⟩ (sampleCall index) ⟨0, .closed⟩ := by
  apply served_append_iff.mpr
  refine ⟨_, .cons ⟨le_rfl, rfl⟩ .connected (.cons ⟨le_rfl, rfl⟩ .begun .nil),
    ?_⟩
  apply served_append_iff.mpr
  refine ⟨_, served_sampleQueries (.inl rfl) (by omega), ?_⟩
  apply served_append_iff.mpr
  refine ⟨_, served_sampleQueries (.inr rfl) (by omega), ?_⟩
  exact .cons ⟨le_rfl, rfl⟩ .committed (.cons ⟨le_rfl, rfl⟩ .released .nil)

theorem settles_sampleTables :
    Settles isoCast left (fun _ => sampleTables) 2026 4 0 0 (sampleCall 24314)
      (.ok sampleAggregates) := by
  refine ⟨_, .closed, getMonthlyAnalyticsRanges_eq (by decide) (by decide)
    (by decide) (show 24314 + 1 = 12 * 2026 + (4 - 1) by decide), ?_,
    served_sampleCall (.inr rfl)⟩
  repeat' apply Proc.Run.await
  exact .settled

theorem findMonthlyAnalytics_conserves_sampleTables :
    sampleAggregates.current.Conserves ∧
      Tables.amounts (sampleTables.source (monthStart 24315, monthStart 24316)) =
        1000 ∧
      (sampleTables.source (monthDays 24314)).count
        (sampleId, ⟨1, js "2026-04-30", js "A", js "A", 1200, js "食費", none⟩) =
          0 := by
  obtain ⟨hreturned, _, hcounted, htotals⟩ :=
    findMonthlyAnalytics_conserves isoCast (fun _ => False)
      (fun _ => sampleTables) sampleTables
  refine ⟨?_, ?_, ?_⟩
  · exact ((hreturned 2026 4 0 0 _ _ 24314 (by decide) (by decide) (by decide)
      (by decide) (by decide) settles_sampleTables).1 _ rfl).2.1
  · refine (htotals 24315 1 (fun _ => sampleAggregates) (by decide) (by decide)
      fun index hfirst hlast => ⟨0, 0, sampleCall 24314, ?_⟩).symm
    obtain rfl : index = 24315 := by omega
    exact settles_sampleTables
  · exact ((hcounted sampleId _ (List.mem_cons_self ..) (2026, 4, 30) (by decide)
      (by decide) (by decide)).1 (by decide)).2 2026 3 (by decide) (by decide)

end Sample

end StatementAnalyzer
