/-
Monthly analytics conserve money: what `findMonthlyAnalytics` returns describes
one snapshot of the tables exactly, and the months partition the transactions of
COMPLETED statements.
-/
import StatementAnalyzer.Database.MonthlyTables
import Mathlib.Algebra.BigOperators.Ring.Finset

namespace StatementAnalyzer

open Async Relational

/-- `Number.isSafeInteger`, on an integer. -/
def IsSafeInteger (value : Int) : Prop :=
  value.natAbs ≤ 9007199254740991

section Rows

variable {overview : List AnalyticsOverviewDatabaseRow}
variable {categories merchants rows : List AnalyticsBucketDatabaseRow}

theorem mapAnalyticsInteger_eq_ok {value n : Int}
    (h : mapAnalyticsInteger value = .ok n) : n = value ∧ IsSafeInteger value := by
  rw [mapAnalyticsInteger] at h
  split at h
  · rename_i hsafe
    cases h
    exact ⟨rfl, hsafe⟩
  · cases h

/-- The bucket that `mapAnalyticsBucket` makes of a row of safe integers. -/
def AnalyticsBucketDatabaseRow.bucket (row : AnalyticsBucketDatabaseRow) :
    AnalyticsAggregateBucket :=
  ⟨row.name, row.amount, row.count⟩

def AnalyticsBucketDatabaseRow.Safe (row : AnalyticsBucketDatabaseRow) : Prop :=
  IsSafeInteger row.amount ∧ IsSafeInteger row.count

theorem mapAnalyticsBucket_eq_ok {row : AnalyticsBucketDatabaseRow}
    {bucket : AnalyticsAggregateBucket}
    (h : mapAnalyticsBucket row = .ok bucket) :
    bucket = row.bucket ∧ row.Safe := by
  simp only [mapAnalyticsBucket, bind, Except.bind] at h
  split at h
  · cases h
  rename_i amount hamount
  split at h
  · cases h
  rename_i count hcount
  cases h
  obtain ⟨rfl, hsafe⟩ := mapAnalyticsInteger_eq_ok hamount
  obtain ⟨rfl, hsafe'⟩ := mapAnalyticsInteger_eq_ok hcount
  exact ⟨rfl, hsafe, hsafe'⟩

theorem mapAnalyticsBuckets_eq_ok {buckets : List AnalyticsAggregateBucket}
    (h : mapAnalyticsBuckets rows = .ok buckets) :
    buckets = rows.map AnalyticsBucketDatabaseRow.bucket ∧
      ∀ row ∈ rows, row.Safe := by
  induction rows generalizing buckets with
  | nil =>
      cases h
      exact ⟨rfl, by simp⟩
  | cons row rest ih =>
      simp only [mapAnalyticsBuckets, bind, Except.bind] at h
      split at h
      · cases h
      rename_i bucket hbucket
      split at h
      · cases h
      rename_i others hothers
      cases h
      obtain ⟨rfl, hsafe⟩ := mapAnalyticsBucket_eq_ok hbucket
      obtain ⟨rfl, hrest⟩ := ih hothers
      exact ⟨rfl, List.forall_mem_cons.mpr ⟨hsafe, hrest⟩⟩

/-- An aggregate holds the numbers of the rows as they are, and all of them are
safe. -/
theorem aggregateOfRows_eq_ok {row : AnalyticsOverviewDatabaseRow}
    {aggregate : MonthlyAnalyticsAggregate}
    (h : aggregateOfRows [row] categories merchants = .ok aggregate) :
    aggregate = ⟨row.totalAmount, row.transactionCount,
        categories.map AnalyticsBucketDatabaseRow.bucket,
        merchants.map AnalyticsBucketDatabaseRow.bucket⟩ ∧
      IsSafeInteger row.totalAmount ∧ IsSafeInteger row.transactionCount ∧
      (∀ row ∈ categories, row.Safe) ∧ ∀ row ∈ merchants, row.Safe := by
  simp only [aggregateOfRows, bind, Except.bind] at h
  split at h
  · cases h
  rename_i totalAmount htotal
  split at h
  · cases h
  rename_i transactionCount hcount
  split at h
  · cases h
  rename_i first hfirst
  split at h
  · cases h
  rename_i second hsecond
  cases h
  obtain ⟨rfl, hsafe⟩ := mapAnalyticsInteger_eq_ok htotal
  obtain ⟨rfl, hsafe'⟩ := mapAnalyticsInteger_eq_ok hcount
  obtain ⟨rfl, hcategories⟩ := mapAnalyticsBuckets_eq_ok hfirst
  obtain ⟨rfl, hmerchants⟩ := mapAnalyticsBuckets_eq_ok hsecond
  exact ⟨rfl, hsafe, hsafe', hcategories, hmerchants⟩

end Rows

/-- The rows of one key are distinct in name and add up to the source. -/
structure Splits (rows : List AnalyticsBucketDatabaseRow) (amount : Int)
    (count : Nat) : Prop where
  names : (rows.map AnalyticsBucketDatabaseRow.name).Nodup
  amounts : (rows.map AnalyticsBucketDatabaseRow.amount).sum = amount
  counts : (rows.map AnalyticsBucketDatabaseRow.count).sum = count

namespace Tables

variable (db : Tables) (days : CalendarDay × CalendarDay)

theorem buckets_splits (key : CreateTransactionInput → JsString) :
    Splits (db.buckets key days) (amounts (db.source days))
      (db.source days).length where
  names := by
    rw [buckets, List.map_map]
    exact groups_keys_nodup _ _
  amounts := by
    rw [buckets, List.map_map]
    exact sum_groups _ _ _
  counts := by
    rw [buckets, List.map_map]
    exact length_groups _ _

/-- Every number that the three queries answer fits in a safe integer. -/
structure Fits : Prop where
  amount : IsSafeInteger (amounts (db.source days))
  count : IsSafeInteger (db.source days).length
  categories : ∀ row ∈ db.buckets CreateTransactionInput.category days, row.Safe
  merchants : ∀ row ∈ db.buckets CreateTransactionInput.merchantName days,
    row.Safe

/-- The aggregate is what the tables hold in these days. -/
structure Reports (aggregate : MonthlyAnalyticsAggregate) : Prop where
  totalAmount : aggregate.totalAmount = amounts (db.source days)
  transactionCount : aggregate.transactionCount = (db.source days).length
  categories : aggregate.categories.Perm
    ((db.buckets CreateTransactionInput.category days).map
      AnalyticsBucketDatabaseRow.bucket)
  merchants : aggregate.merchants.Perm
    ((db.buckets CreateTransactionInput.merchantName days).map
      AnalyticsBucketDatabaseRow.bucket)
  fits : db.Fits days

end Tables

/-- Distinct names, and the sums of both lists. -/
structure MonthlyAnalyticsAggregate.Conserves
    (aggregate : MonthlyAnalyticsAggregate) : Prop where
  categoryNames : (aggregate.categories.map AnalyticsAggregateBucket.name).Nodup
  merchantNames : (aggregate.merchants.map AnalyticsAggregateBucket.name).Nodup
  categoryAmounts : (aggregate.categories.map
    AnalyticsAggregateBucket.amount).sum = aggregate.totalAmount
  merchantAmounts : (aggregate.merchants.map
    AnalyticsAggregateBucket.amount).sum = aggregate.totalAmount
  categoryCounts : (aggregate.categories.map
    AnalyticsAggregateBucket.count).sum = aggregate.transactionCount
  merchantCounts : (aggregate.merchants.map
    AnalyticsAggregateBucket.count).sum = aggregate.transactionCount

/-- The buckets of rows that split a total do so as well. -/
theorem Splits.buckets {rows : List AnalyticsBucketDatabaseRow}
    {buckets : List AnalyticsAggregateBucket} {amount : Int} {count : Nat}
    (h : Splits rows amount count)
    (hperm : buckets.Perm (rows.map AnalyticsBucketDatabaseRow.bucket)) :
    (buckets.map AnalyticsAggregateBucket.name).Nodup ∧
      (buckets.map AnalyticsAggregateBucket.amount).sum = amount ∧
      (buckets.map AnalyticsAggregateBucket.count).sum = count := by
  refine ⟨?_, ?_, ?_⟩
  · apply (hperm.map _).nodup_iff.mpr
    rw [List.map_map]
    exact h.names
  · rw [(hperm.map _).sum_eq, List.map_map]
    exact h.amounts
  · rw [(hperm.map _).sum_eq, List.map_map, ← h.counts, Nat.cast_list_sum,
      List.map_map]
    rfl

theorem Tables.Reports.conserves {db : Tables} {days : CalendarDay × CalendarDay}
    {aggregate : MonthlyAnalyticsAggregate} (h : db.Reports days aggregate) :
    aggregate.Conserves := by
  obtain ⟨hnames, hamounts, hcounts⟩ :=
    (db.buckets_splits days CreateTransactionInput.category).buckets h.categories
  obtain ⟨hnames', hamounts', hcounts'⟩ :=
    (db.buckets_splits days CreateTransactionInput.merchantName).buckets
      h.merchants
  rw [← h.totalAmount] at hamounts hamounts'
  rw [← h.transactionCount] at hcounts hcounts'
  exact ⟨hnames, hnames', hamounts, hamounts', hcounts, hcounts'⟩

section Snapshot

variable {pg : DateCast} {left : Nat → Prop} {history : Nat → Tables}
variable {w w' w'' : SnapshotState}
variable {range : AnalyticsDateRange} {ranges : MonthlyAnalyticsRanges}

/-- The calls between the two states have read this snapshot, which was current
at some moment from the first of them on. -/
structure SnapshotState.Reads (snapshot : Nat) (w w' : SnapshotState) : Prop where
  later : w.now ≤ w'.now
  session : w'.session = .reading snapshot
  taken : w.session = .reading snapshot ∨
    (w.session = .begun ∧ w.now ≤ snapshot ∧ snapshot ≤ w'.now)

theorem SnapshotState.Serves.now {op : ApiQuery}
    {answer : Except Thrown op.Answer}
    (h : SnapshotState.Serves pg left history w op answer w') : w'.now = w.now := by
  cases h <;> rfl

/-- The snapshot stays. -/
theorem SnapshotState.Reads.trans {snapshot snapshot' : Nat}
    (h : w.Reads snapshot w') (h' : w'.Reads snapshot' w'') :
    snapshot' = snapshot ∧ w.Reads snapshot w'' := by
  have hlater := h.later.trans h'.later
  rcases h'.taken with hreading | ⟨hbegun, _⟩
  · cases h.session.symm.trans hreading
    refine ⟨rfl, hlater, h'.session, ?_⟩
    rcases h.taken with hreading | ⟨hbegun, hfrom, hto⟩
    · exact .inl hreading
    · exact .inr ⟨hbegun, hfrom, hto.trans h'.later⟩
  · cases h.session.symm.trans hbegun

/-- The three queries that only read. -/
def ApiClientQuery.isSelect : ApiClientQuery → Bool
  | selectOverview _ | selectCategories _ | selectMerchants _ => true
  | _ => false

theorem served_select {q : ApiClientQuery} {rows : q.Answer}
    (hselect : q.isSelect = true)
    (h : Served SnapshotState.Rely (SnapshotState.Serves pg left history) w
      [⟨ApiQuery.client q, .ok rows⟩] w') :
    ∃ snapshot, w.Reads snapshot w' ∧ (history snapshot).Selects pg q rows := by
  obtain ⟨⟨now, session⟩, ⟨hlater, hsession⟩, hserves⟩ := served_single_iff.mp h
  cases hserves with
  | begun | begunInside | committed | rolledBack => cases hselect
  | first hselects =>
      exact ⟨now, ⟨hlater, rfl, .inr ⟨hsession.symm, hlater, le_rfl⟩⟩, hselects⟩
  | @next _ snapshot _ _ hselects =>
      exact ⟨snapshot, ⟨hlater, rfl, .inl hsession.symm⟩, hselects⟩

/-- An aggregate that is made of the rows of the three queries. -/
theorem Tables.Selects.reports {db : Tables}
    {overview : List AnalyticsOverviewDatabaseRow}
    {categories merchants : List AnalyticsBucketDatabaseRow}
    {aggregate : MonthlyAnalyticsAggregate}
    (hoverview : db.Selects pg (.selectOverview range) overview)
    (hcategories : db.Selects pg (.selectCategories range) categories)
    (hmerchants : db.Selects pg (.selectMerchants range) merchants)
    (hrows : aggregateOfRows overview categories merchants = .ok aggregate) :
    ∃ days, pg.range range = some days ∧ db.Reports days aggregate := by
  cases hoverview with
  | @overview _ days hdays =>
  cases hcategories with
  | categories hdays' hcategories =>
  cases hmerchants with
  | merchants hdays'' hmerchants =>
      cases hdays.symm.trans hdays'
      cases hdays.symm.trans hdays''
      refine ⟨days, hdays, ?_⟩
      obtain ⟨rfl, hamount, hcount, hsafe, hsafe'⟩ := aggregateOfRows_eq_ok hrows
      refine ⟨rfl, rfl, hcategories.perm.map _, hmerchants.perm.map _,
        hamount, hcount, ?_, ?_⟩
      · intro row hrow
        exact hsafe row (hcategories.perm.mem_iff.mpr hrow)
      · intro row hrow
        exact hsafe' row (hmerchants.perm.mem_iff.mpr hrow)

/-- Three queries over one snapshot. -/
theorem served_findMonthlyAggregate {trace : ApiTrace}
    {aggregate : MonthlyAnalyticsAggregate}
    (hrun : (StatementRepository.findMonthlyAggregate range).Run trace
      (.ok aggregate))
    (h : Served SnapshotState.Rely (SnapshotState.Serves pg left history) w trace
      w') :
    ∃ snapshot days, w.Reads snapshot w' ∧ pg.range range = some days ∧
      (history snapshot).Reports days aggregate := by
  obtain ⟨overview, t₁, rest₁, rfl, hq₁, hrun₁⟩ := Proc.run_bind_ok hrun
  obtain ⟨categories, t₂, rest₂, rfl, hq₂, hrun₂⟩ := Proc.run_bind_ok hrun₁
  obtain ⟨merchants, t₃, rest₃, rfl, hq₃, hrun₃⟩ := Proc.run_bind_ok hrun₂
  obtain rfl := Proc.run_call_iff.mp hq₁
  obtain rfl := Proc.run_call_iff.mp hq₂
  obtain rfl := Proc.run_call_iff.mp hq₃
  obtain ⟨rfl, hrows⟩ := Proc.run_settled_iff.mp hrun₃
  obtain ⟨w₁, hs₁, h⟩ := served_append_iff.mp h
  obtain ⟨w₂, hs₂, h⟩ := served_append_iff.mp h
  obtain ⟨w₃, hs₃, h⟩ := served_append_iff.mp h
  cases served_nil_iff.mp h
  obtain ⟨snapshot, hreads, hoverview⟩ := served_select rfl hs₁
  obtain ⟨snapshot₂, hreads₂, hcategories⟩ := served_select rfl hs₂
  obtain ⟨snapshot₃, hreads₃, hmerchants⟩ := served_select rfl hs₃
  obtain ⟨rfl, hreads⟩ := hreads.trans hreads₂
  obtain ⟨rfl, hreads⟩ := hreads.trans hreads₃
  obtain ⟨days, hdays, hreports⟩ :=
    hoverview.reports hcategories hmerchants hrows.symm
  exact ⟨snapshot₃, days, hreads, hdays, hreports⟩

/-- The client that a call has got is fresh, or has been left inside. -/
def SnapshotState.Obtained (left : Nat → Prop) (w : SnapshotState) : Prop :=
  w.session = .idle ∨ (left w.now ∧ w.session.Open w.now)

theorem served_connect (h : Served SnapshotState.Rely
    (SnapshotState.Serves pg left history) w [⟨ApiQuery.connect, .ok ()⟩] w') :
    w.now ≤ w'.now ∧ w'.Obtained left := by
  obtain ⟨⟨now, session⟩, ⟨hlater, _⟩, hserves⟩ := served_single_iff.mp h
  cases hserves with
  | connected => exact ⟨hlater, .inl rfl⟩
  | reused hleft hopen => exact ⟨hlater, .inr ⟨hleft, hopen⟩⟩

/-- The transaction has no snapshot yet, or that of a client left inside. -/
def SnapshotState.Begun (left : Nat → Prop) (began : Nat) (w : SnapshotState) :
    Prop :=
  w.session = .begun ∨ ∃ snapshot, w.session = .reading snapshot ∧
    Readable left began w.now snapshot

theorem served_begin (hobtained : w.Obtained left)
    (h : Served SnapshotState.Rely (SnapshotState.Serves pg left history) w
      [⟨ApiQuery.client .beginRepeatableRead, .ok ()⟩] w') :
    w.now ≤ w'.now ∧ w'.Begun left w.now := by
  obtain ⟨⟨now, session⟩, ⟨hlater, hsession⟩, hserves⟩ :=
    served_single_iff.mp h
  dsimp only at hlater hsession
  refine ⟨by rw [hserves.now]; exact hlater, ?_⟩
  cases hserves with
  | begun => exact .inl rfl
  | begunInside hopen =>
      rcases hobtained with hidle | ⟨hleft, _⟩
      · rw [hsession, hidle] at hopen
        exact hopen.elim
      · cases session with
        | begun => exact .inl rfl
        | reading snapshot =>
            refine .inr ⟨snapshot, rfl, hopen, fun hnone => ?_⟩
            exact absurd hleft (hnone w.now le_rfl hlater)
        | closed | idle => exact hopen.elim
  | first hselects | next hselects => cases hselects

/-- What is read after that is readable for the call. -/
theorem SnapshotState.Reads.readable {snapshot began : Nat}
    (h : w.Reads snapshot w') (hbegun : w.Begun left began)
    (hbegan : began ≤ w.now) : Readable left began w'.now snapshot := by
  rcases h.taken with hreading | ⟨_, hfrom, hto⟩
  · rcases hbegun with hbegun | ⟨other, hother, hreadable⟩
    · cases hbegun.symm.trans hreading
    · cases hother.symm.trans hreading
      exact hreadable.mono le_rfl h.later
  · exact ⟨hto, fun _ => hbegan.trans hfrom⟩

/-- Time only passes. -/
theorem served_later {trace : ApiTrace} (h : Served SnapshotState.Rely
    (SnapshotState.Serves pg left history) w trace w') : w.now ≤ w'.now := by
  induction h with
  | nil => exact le_rfl
  | cons hrely hserves _ ih =>
      have hsame := hserves.now
      have hlater := hrely.1
      omega

/-- All six queries describe one snapshot. -/
theorem served_findMonthlyAnalytics {trace : ApiTrace}
    {aggregates : MonthlyAnalyticsAggregates}
    (hrun : (StatementRepository.findMonthlyAnalytics ranges).Run trace
      (.ok aggregates))
    (h : Served SnapshotState.Rely (SnapshotState.Serves pg left history) w trace
      w') :
    ∃ snapshot days days', Readable left w.now w'.now snapshot ∧
      pg.range ranges.current = some days ∧
      pg.range ranges.previous = some days' ∧
      (history snapshot).Reports days aggregates.current ∧
      (history snapshot).Reports days' aggregates.previous := by
  obtain ⟨_, t₁, rest₁, rfl, hconnect, hrun⟩ := Proc.run_bind_ok hrun
  obtain ⟨t₂, rest₂, rfl, hcaught, _⟩ := Proc.run_ensure_ok hrun
  obtain ⟨w₁, hs₁, h⟩ := served_append_iff.mp h
  obtain ⟨w₂, hs₂, hs₃⟩ := served_append_iff.mp h
  obtain rfl := Proc.run_call_iff.mp hconnect
  obtain ⟨hlater₁, hobtained⟩ := served_connect hs₁
  have hlater₃ := served_later hs₃
  rcases Proc.run_orElse_ok hcaught with hbody | ⟨error, _, hhandler⟩
  · obtain ⟨_, t₃, rest₃, rfl, hbegin, hrun₄⟩ := Proc.run_bind_ok hbody
    obtain ⟨current, t₄, rest₄, rfl, hcurrent, hrun₅⟩ := Proc.run_bind_ok hrun₄
    obtain ⟨previous, t₅, rest₅, rfl, hprevious, hrun₆⟩ :=
      Proc.run_bind_ok hrun₅
    obtain ⟨_, t₆, rest₆, rfl, _, hreturn⟩ := Proc.run_bind_ok hrun₆
    obtain ⟨w₃, hs₄, hrest₃⟩ := served_append_iff.mp hs₂
    obtain ⟨w₄, hs₅, hrest₄⟩ := served_append_iff.mp hrest₃
    obtain ⟨w₅, hs₆, hrest₅⟩ := served_append_iff.mp hrest₄
    obtain rfl := Proc.run_call_iff.mp hbegin
    obtain ⟨hlater₂, hbegun⟩ := served_begin hobtained hs₄
    have hlater₅ := served_later hrest₅
    obtain ⟨snapshot, days, hreads, hdays, hreports⟩ :=
      served_findMonthlyAggregate hcurrent hs₅
    obtain ⟨snapshot', days', hreads', hdays', hreports'⟩ :=
      served_findMonthlyAggregate hprevious hs₆
    obtain ⟨rfl, hreads⟩ := hreads.trans hreads'
    obtain ⟨-, hvalue⟩ := Proc.run_settled_iff.mp hreturn
    cases hvalue
    have hreadable := (hreads.readable hbegun hlater₂).mono hlater₁
      (hlater₅.trans hlater₃)
    exact ⟨snapshot', days, days', hreadable, hdays, hdays', hreports, hreports'⟩
  · obtain ⟨_, _, _, _, _, hthrown⟩ := Proc.run_andThen_iff.mp hhandler
    cases (Proc.run_settled_iff.mp hthrown).2

end Snapshot

end StatementAnalyzer
