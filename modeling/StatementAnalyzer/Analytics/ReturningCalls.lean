/-
When `findMonthlyAnalytics` returns: a call whose queries are all served returns
unless a number is too large, and at any moment such a call can be made.
-/
import StatementAnalyzer.Analytics.Conservation

namespace StatementAnalyzer

open Async Relational

section Rows

variable {row : AnalyticsOverviewDatabaseRow}
variable {categories merchants rows : List AnalyticsBucketDatabaseRow}

theorem mapAnalyticsInteger_of_safe {value : Int} (h : IsSafeInteger value) :
    mapAnalyticsInteger value = .ok value :=
  if_pos h

theorem mapAnalyticsBuckets_of_safe :
    (∀ row ∈ rows, row.Safe) → mapAnalyticsBuckets rows =
      .ok (rows.map AnalyticsBucketDatabaseRow.bucket) := by
  induction rows with
  | nil => exact fun _ => rfl
  | cons row rest ih =>
      intro hsafe
      obtain ⟨hrow, hrest⟩ := List.forall_mem_cons.mp hsafe
      simp only [mapAnalyticsBuckets, mapAnalyticsBucket, ih hrest,
        mapAnalyticsInteger_of_safe hrow.1, mapAnalyticsInteger_of_safe hrow.2]
      rfl

theorem aggregateOfRows_of_safe (hamount : IsSafeInteger row.totalAmount)
    (hcount : IsSafeInteger row.transactionCount)
    (hcategories : ∀ row ∈ categories, row.Safe)
    (hmerchants : ∀ row ∈ merchants, row.Safe) :
    ∃ aggregate, aggregateOfRows [row] categories merchants = .ok aggregate := by
  simp only [aggregateOfRows, mapAnalyticsInteger_of_safe hamount,
    mapAnalyticsInteger_of_safe hcount, mapAnalyticsBuckets_of_safe hcategories,
    mapAnalyticsBuckets_of_safe hmerchants]
  exact ⟨_, rfl⟩

end Rows

section Snapshot

variable {pg : DateCast} {left : Nat → Prop} {history : Nat → Tables}
variable {w w' : SnapshotState}
variable {range : AnalyticsDateRange} {ranges : MonthlyAnalyticsRanges}
variable {trace : ApiTrace}

/-- Rows of a snapshot whose numbers fit make an aggregate. -/
theorem Tables.Selects.aggregates {db : Tables}
    {overview : List AnalyticsOverviewDatabaseRow}
    {categories merchants : List AnalyticsBucketDatabaseRow}
    (hoverview : db.Selects pg (.selectOverview range) overview)
    (hcategories : db.Selects pg (.selectCategories range) categories)
    (hmerchants : db.Selects pg (.selectMerchants range) merchants)
    (hfits : ∀ days, pg.range range = some days → db.Fits days) :
    ∃ aggregate, aggregateOfRows overview categories merchants =
      .ok aggregate := by
  cases hoverview with
  | @overview _ days hdays =>
  cases hcategories with
  | categories hdays' hcategories =>
  cases hmerchants with
  | merchants hdays'' hmerchants =>
      cases hdays.symm.trans hdays'
      cases hdays.symm.trans hdays''
      have hfit := hfits days hdays
      apply aggregateOfRows_of_safe hfit.amount hfit.count
      · intro row hrow
        exact hfit.categories row (hcategories.perm.mem_iff.mp hrow)
      · intro row hrow
        exact hfit.merchants row (hmerchants.perm.mem_iff.mp hrow)

theorem served_findMonthlyAggregate_granted
    {result : Except Thrown MonthlyAnalyticsAggregate}
    (hrun : (StatementRepository.findMonthlyAggregate range).Run trace result)
    (hgranted : Proc.Granted trace)
    (h : Served SnapshotState.Rely (SnapshotState.Serves pg left history) w trace
      w')
    (hfits : ∀ snapshot days, w.Reads snapshot w' → pg.range range = some days →
      (history snapshot).Fits days) :
    ∃ aggregate, result = .ok aggregate := by
  obtain ⟨overview, _, rfl, hrun, hgranted⟩ :=
    Proc.run_call_bind_granted hrun hgranted
  obtain ⟨categories, _, rfl, hrun, hgranted⟩ :=
    Proc.run_call_bind_granted hrun hgranted
  obtain ⟨merchants, _, rfl, hrun, hgranted⟩ :=
    Proc.run_call_bind_granted hrun hgranted
  obtain ⟨rfl, rfl⟩ := Proc.run_settled_iff.mp hrun
  rw [← List.singleton_append] at h
  obtain ⟨w₁, hs₁, h⟩ := served_append_iff.mp h
  rw [← List.singleton_append] at h
  obtain ⟨w₂, hs₂, hs₃⟩ := served_append_iff.mp h
  obtain ⟨snapshot, hreads, hoverview⟩ := served_select rfl hs₁
  obtain ⟨snapshot₂, hreads₂, hcategories⟩ := served_select rfl hs₂
  obtain ⟨snapshot₃, hreads₃, hmerchants⟩ := served_select rfl hs₃
  obtain ⟨rfl, hreads⟩ := hreads.trans hreads₂
  obtain ⟨rfl, hreads⟩ := hreads.trans hreads₃
  apply hoverview.aggregates hcategories hmerchants
  intro days hdays
  exact hfits _ days hreads hdays

/-- What the numbers of both ranges have to satisfy while the method runs. -/
def SnapshotState.Bounded (pg : DateCast) (left : Nat → Prop)
    (history : Nat → Tables) (ranges : MonthlyAnalyticsRanges)
    (w w' : SnapshotState) : Prop :=
  ∀ snapshot days, Readable left w.now w'.now snapshot →
    pg.range ranges.current = some days ∨
      pg.range ranges.previous = some days →
    (history snapshot).Fits days

theorem SnapshotState.Bounded.mono {w₁ w₂ : SnapshotState}
    (h : w.Bounded pg left history ranges w') (hbegan : w.now ≤ w₁.now)
    (hended : w₂.now ≤ w'.now) : w₁.Bounded pg left history ranges w₂ :=
  fun snapshot days hreadable => h snapshot days (hreadable.mono hbegan hended)

/-- The transaction of `findMonthlyAnalytics`. -/
theorem served_transaction_granted
    {result : Except Thrown MonthlyAnalyticsAggregates}
    (hrun : Proc.Run (do
      clientQuery .beginRepeatableRead
      let current ← StatementRepository.findMonthlyAggregate ranges.current
      let previous ← StatementRepository.findMonthlyAggregate ranges.previous
      clientQuery .commit
      return ⟨current, previous⟩) trace result)
    (hgranted : Proc.Granted trace) (hobtained : w.Obtained left)
    (h : Served SnapshotState.Rely (SnapshotState.Serves pg left history) w trace
      w') (hfits : w.Bounded pg left history ranges w') :
    ∃ aggregates, result = .ok aggregates := by
  obtain ⟨_, rest, rfl, hrun, hgranted⟩ :=
    Proc.run_call_bind_granted hrun hgranted
  rw [← List.singleton_append] at h
  obtain ⟨w₁, hs₁, h⟩ := served_append_iff.mp h
  obtain ⟨hlater₁, hbegun⟩ := served_begin hobtained hs₁
  have hcurrent : ∀ before after result, rest = before ++ after →
      (StatementRepository.findMonthlyAggregate ranges.current).Run before
        result → ∃ aggregate, result = .ok aggregate := by
    rintro before after result rfl hpart
    obtain ⟨w₂, hs₂, hs₃⟩ := served_append_iff.mp h
    apply served_findMonthlyAggregate_granted hpart
      (Proc.granted_append.mp hgranted).1 hs₂
    intro snapshot days hreads hdays
    have hreadable := hreads.readable hbegun hlater₁
    exact hfits snapshot days (hreadable.mono le_rfl (served_later hs₃))
      (.inl hdays)
  obtain ⟨current, before, rest, rfl, hread, hrun⟩ :=
    Proc.run_bind_of_ok hrun hcurrent
  obtain ⟨_, hgranted⟩ := Proc.granted_append.mp hgranted
  obtain ⟨w₂, hs₂, h⟩ := served_append_iff.mp h
  obtain ⟨first, _, hreads, _⟩ := served_findMonthlyAggregate hread hs₂
  have hprevious : ∀ before after result, rest = before ++ after →
      (StatementRepository.findMonthlyAggregate ranges.previous).Run before
        result → ∃ aggregate, result = .ok aggregate := by
    rintro before after result rfl hpart
    obtain ⟨w₃, hs₃, hs₄⟩ := served_append_iff.mp h
    apply served_findMonthlyAggregate_granted hpart
      (Proc.granted_append.mp hgranted).1 hs₃
    intro snapshot days hreads' hdays
    obtain ⟨rfl, hreads⟩ := hreads.trans hreads'
    have hreadable := hreads.readable hbegun hlater₁
    exact hfits _ days (hreadable.mono le_rfl (served_later hs₄)) (.inr hdays)
  obtain ⟨previous, before, rest, rfl, _, hrun⟩ :=
    Proc.run_bind_of_ok hrun hprevious
  obtain ⟨_, hgranted⟩ := Proc.granted_append.mp hgranted
  obtain ⟨_, _, rfl, hrun, _⟩ := Proc.run_call_bind_granted hrun hgranted
  obtain ⟨_, rfl⟩ := Proc.run_settled_iff.mp hrun
  exact ⟨_, rfl⟩

/-- Only a failed call or a number that is too large makes the method throw. -/
theorem served_findMonthlyAnalytics_granted
    {result : Except Thrown MonthlyAnalyticsAggregates}
    (hrun : (StatementRepository.findMonthlyAnalytics ranges).Run trace result)
    (hgranted : Proc.Granted trace)
    (h : Served SnapshotState.Rely (SnapshotState.Serves pg left history) w trace
      w') (hfits : w.Bounded pg left history ranges w') :
    ∃ aggregates, result = .ok aggregates := by
  obtain ⟨_, _, rfl, hrun, hgranted⟩ := Proc.run_call_bind_granted hrun hgranted
  rw [← List.singleton_append] at h
  obtain ⟨w₁, hs₁, h⟩ := served_append_iff.mp h
  obtain ⟨hlater₁, hobtained⟩ := served_connect hs₁
  obtain ⟨caught, middle, _, rfl, hcaught, hfinal⟩ :=
    Proc.run_andThen_iff.mp hrun
  obtain ⟨htried, hreleased⟩ := Proc.granted_append.mp hgranted
  obtain ⟨w₂, hs₂, hs₃⟩ := served_append_iff.mp h
  have hlater₃ := served_later hs₃
  obtain ⟨_, _, rfl, hdone, _⟩ :=
    Proc.run_call_andThen_granted hfinal hreleased
  obtain ⟨_, rfl⟩ := Proc.run_settled_iff.mp hdone
  obtain ⟨body, tried, after, rfl, hbody, hafter⟩ :=
    Proc.run_andThen_iff.mp hcaught
  obtain ⟨w₃, hs₄, hs₅⟩ := served_append_iff.mp hs₂
  have hlater₅ := served_later hs₅
  obtain ⟨aggregates, rfl⟩ := served_transaction_granted hbody
    (Proc.granted_append.mp htried).1 hobtained hs₄
    (hfits.mono hlater₁ (hlater₅.trans hlater₃))
  obtain ⟨_, rfl⟩ := Proc.run_settled_iff.mp hafter
  exact ⟨aggregates, rfl⟩

/-- Rows in the order of their sums. -/
theorem Tables.exists_ordered (grouped : List AnalyticsBucketDatabaseRow) :
    ∃ rows, Tables.Ordered grouped rows := by
  have htotal : Std.Total fun row row' : AnalyticsBucketDatabaseRow =>
      row'.amount ≤ row.amount := ⟨fun row row' => le_total row'.amount row.amount⟩
  have htrans : IsTrans _ fun row row' : AnalyticsBucketDatabaseRow =>
      row'.amount ≤ row.amount := ⟨fun _ _ _ h h' => h'.trans h⟩
  exact ⟨grouped.insertionSort fun row row' => row'.amount ≤ row.amount,
    List.perm_insertionSort _ grouped, List.pairwise_insertionSort _ grouped⟩

/-- The three queries of a month, over one snapshot. -/
theorem exists_findMonthlyAggregate {snapshot : Nat}
    {range : AnalyticsDateRange} {days : CalendarDay × CalendarDay}
    {session : SnapshotSession}
    (hsession : session = .begun ∨ session = .reading snapshot)
    (hdays : pg.range range = some days) (hfits : (history snapshot).Fits days) :
    ∃ trace aggregate,
      (StatementRepository.findMonthlyAggregate range).Run trace
        (.ok aggregate) ∧ Proc.Granted trace ∧
      Served SnapshotState.Rely (SnapshotState.Serves pg left history)
        ⟨snapshot, session⟩ trace ⟨snapshot, .reading snapshot⟩ := by
  obtain ⟨categories, hcategories⟩ := Tables.exists_ordered
    ((history snapshot).buckets CreateTransactionInput.category days)
  obtain ⟨merchants, hmerchants⟩ := Tables.exists_ordered
    ((history snapshot).buckets CreateTransactionInput.merchantName days)
  have hoverview : (history snapshot).Selects pg (.selectOverview range) _ :=
    .overview hdays
  obtain ⟨aggregate, haggregate⟩ := hoverview.aggregates
    (.categories hdays hcategories) (.merchants hdays hmerchants) (by
      intro days' hdays'
      cases hdays.symm.trans hdays'
      exact hfits)
  refine ⟨_, aggregate, (Proc.Run.of_call _ (.ok _)).followed
    ((Proc.Run.of_call _ (.ok categories)).followed
      ((Proc.Run.of_call _ (.ok merchants)).followed
        (Proc.run_settled_iff.mpr ⟨rfl, haggregate.symm⟩))), ?_, ?_⟩
  · simp [Proc.Granted]
  · refine .cons ⟨le_rfl, rfl⟩ ?_ (.cons ⟨le_rfl, rfl⟩ (.next
      (.categories hdays hcategories)) (.cons ⟨le_rfl, rfl⟩ (.next
        (.merchants hdays hmerchants)) .nil))
    rcases hsession with rfl | rfl
    · exact .first hoverview
    · exact .next hoverview

/-- The aggregates of two months that fit can be had at any moment. -/
theorem exists_findMonthlyAnalytics {ranges : MonthlyAnalyticsRanges}
    {days days' : CalendarDay × CalendarDay} {moment : Nat}
    (hdays : pg.range ranges.current = some days)
    (hdays' : pg.range ranges.previous = some days')
    (hfits : (history moment).Fits days)
    (hfits' : (history moment).Fits days') :
    ∃ trace aggregates,
      (StatementRepository.findMonthlyAnalytics ranges).Run trace
        (.ok aggregates) ∧ Proc.Granted trace ∧
      Served SnapshotState.Rely (SnapshotState.Serves pg left history)
        ⟨moment, .closed⟩ trace ⟨moment, .closed⟩ := by
  obtain ⟨t₁, current, hrun₁, hgranted₁, hs₁⟩ :=
    exists_findMonthlyAggregate (.inl rfl) hdays hfits
  obtain ⟨t₂, previous, hrun₂, hgranted₂, hs₂⟩ :=
    exists_findMonthlyAggregate (.inr rfl) hdays' hfits'
  let body : ApiTrace := ⟨.client .beginRepeatableRead, .ok ()⟩ ::
    (t₁ ++ (t₂ ++ [⟨.client .commit, .ok ()⟩]))
  have hcommit : Proc.Run (do
      clientQuery .commit
      return MonthlyAnalyticsAggregates.mk current previous)
      [⟨.client .commit, .ok ()⟩] (.ok ⟨current, previous⟩) := .await .settled
  have hbody : Proc.Run (do
      clientQuery .beginRepeatableRead
      let current ← StatementRepository.findMonthlyAggregate ranges.current
      let previous ← StatementRepository.findMonthlyAggregate ranges.previous
      clientQuery .commit
      return MonthlyAnalyticsAggregates.mk current previous) body
      (.ok ⟨current, previous⟩) :=
    .await (hrun₁.bind_ok (hrun₂.bind_ok hcommit))
  have hrun : (StatementRepository.findMonthlyAnalytics ranges).Run
      (⟨.connect, .ok ()⟩ :: (body ++ [⟨.release false, .ok ()⟩]))
      (.ok ⟨current, previous⟩) :=
    .await (hbody.orElse_ok.ensure_ok (.of_call _ _))
  have hreads : Served SnapshotState.Rely (SnapshotState.Serves pg left history)
      ⟨moment, .begun⟩ (t₁ ++ (t₂ ++ [⟨.client .commit, .ok ()⟩]))
      ⟨moment, .idle⟩ :=
    served_append_iff.mpr ⟨_, hs₁, served_append_iff.mpr
      ⟨_, hs₂, .cons ⟨le_rfl, rfl⟩ .committed .nil⟩⟩
  refine ⟨_, _, hrun, ?_, .cons ⟨le_rfl, rfl⟩ .connected (.cons ⟨le_rfl, rfl⟩
    .begun (served_append_iff.mpr ⟨_, hreads,
      .cons ⟨le_rfl, rfl⟩ .released .nil⟩))⟩
  have hends : ∀ op : ApiQuery, ∀ value : op.Answer,
      Proc.Granted ([⟨op, .ok value⟩] : ApiTrace) := by
    intro op value answered hanswered
    obtain rfl := List.mem_singleton.mp hanswered
    exact ⟨value, rfl⟩
  have hbody' : Proc.Granted body :=
    Proc.granted_append.mpr ⟨hends _ _, Proc.granted_append.mpr ⟨hgranted₁,
      Proc.granted_append.mpr ⟨hgranted₂, hends _ _⟩⟩⟩
  exact Proc.granted_append.mpr
    ⟨hends _ _, Proc.granted_append.mpr ⟨hbody', hends _ _⟩⟩

end Snapshot

end StatementAnalyzer
