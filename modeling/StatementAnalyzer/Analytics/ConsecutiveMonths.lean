/-
Consecutive monthly reports agree: what one of them says about the previous
month is what the report of that month says about itself.
-/
import StatementAnalyzer.Analytics.MonthlyTotals

namespace StatementAnalyzer

open Async

/-- The month before, with December of the year before in front of January. -/
def monthBefore (year month : Nat) : Nat × Nat :=
  if month = 1 then (year - 1, 12) else (year, month - 1)

section Buckets

variable {buckets previousBuckets : List AnalyticsAggregateBucket}
variable {name : JsString} {amount : Int}

/-- Among distinct names a search by name finds every bucket. -/
theorem find?_name_eq_some_iff
    (hnodup : (buckets.map AnalyticsAggregateBucket.name).Nodup)
    {bucket : AnalyticsAggregateBucket} :
    (buckets.find? fun bucket => bucket.name = name) = some bucket ↔
      bucket ∈ buckets ∧ bucket.name = name := by
  constructor
  · intro h
    have hname := List.find?_some h
    exact ⟨List.mem_of_find?_eq_some h, of_decide_eq_true hname⟩
  · rintro ⟨hmem, rfl⟩
    have hsome : (buckets.find? fun other =>
        other.name = bucket.name).isSome = true :=
      List.find?_isSome.mpr ⟨bucket, hmem, decide_eq_true rfl⟩
    obtain ⟨found, hfound⟩ := Option.isSome_iff_exists.mp hsome
    have hname := List.find?_some hfound
    rw [hfound, List.inj_on_of_nodup_map hnodup (List.mem_of_find?_eq_some hfound)
      hmem (of_decide_eq_true hname)]

/-- So the map holds every bucket under its name. -/
theorem previousByName_eq_some_iff
    (hnodup : (buckets.map AnalyticsAggregateBucket.name).Nodup)
    {bucket : AnalyticsAggregateBucket} :
    previousByName buckets name = some bucket ↔
      bucket ∈ buckets ∧ bucket.name = name := by
  have hreverse : (buckets.reverse.map AnalyticsAggregateBucket.name).Nodup := by
    rw [List.map_reverse]
    exact List.nodup_reverse.mpr hnodup
  rw [previousByName, find?_name_eq_some_iff hreverse, List.mem_reverse]

theorem changePercentage_eq_none_iff {current previous : Int} :
    changePercentage current previous = none ↔ previous = 0 := by
  rw [changePercentage]
  split <;> simp_all

/-- The report lists this amount under this name. -/
def Lists (buckets : List MonthlyAnalyticsBucket) (name : JsString)
    (amount : Int) : Prop :=
  ∃ bucket ∈ buckets, bucket.name = name ∧ bucket.amount = amount

theorem lists_buildResponse_iff {totalAmount : Int} :
    Lists (buildResponse buckets previousBuckets totalAmount) name amount ↔
      ∃ bucket ∈ buckets, bucket.name = name ∧ bucket.amount = amount := by
  constructor
  · rintro ⟨_, hmem, rfl, rfl⟩
    obtain ⟨bucket, hbucket, rfl⟩ := List.mem_map.mp hmem
    exact ⟨bucket, mem_sortBuckets.mp hbucket, rfl, rfl⟩
  · rintro ⟨bucket, hbucket, rfl, rfl⟩
    exact ⟨_, List.mem_map_of_mem (mem_sortBuckets.mpr hbucket), rfl, rfl⟩

/-- What the report says about the previous amount of one of its buckets. -/
theorem previousAmount_buildResponse
    (hnodup : (previousBuckets.map AnalyticsAggregateBucket.name).Nodup)
    {totalAmount : Int} {bucket : MonthlyAnalyticsBucket}
    (h : bucket ∈ buildResponse buckets previousBuckets totalAmount) :
    (∀ amount, bucket.previousAmount = some amount ↔
      ∃ previous ∈ previousBuckets, previous.name = bucket.name ∧
        previous.amount = amount) ∧
      (bucket.amountChangePercentage = none ↔
        bucket.previousAmount = none ∨ bucket.previousAmount = some 0) := by
  obtain ⟨current, _, rfl⟩ := List.mem_map.mp h
  refine ⟨fun amount => ?_, ?_⟩
  · simp only [Option.map_eq_some_iff, previousByName_eq_some_iff hnodup,
      and_assoc]
  · cases previousByName previousBuckets current.name with
    | none => simp
    | some previous => simp [changePercentage_eq_none_iff]

end Buckets

/-- Buckets of the two reports, for the categories or for the merchants. -/
def BucketsAgree (buckets previousBuckets : List MonthlyAnalyticsBucket) :
    Prop :=
  ∀ bucket ∈ buckets,
    (∀ amount, bucket.previousAmount = some amount ↔
      Lists previousBuckets bucket.name amount) ∧
    (bucket.previousAmount = none ↔
      ∀ previous ∈ previousBuckets, previous.name ≠ bucket.name) ∧
    (bucket.amountChangePercentage = none ↔
      bucket.previousAmount = none ∨ bucket.previousAmount = some 0)

theorem bucketsAgree_buildResponse
    {buckets previousBuckets listed others : List AnalyticsAggregateBucket}
    {totalAmount totalAmount' : Int}
    (hnodup : (previousBuckets.map AnalyticsAggregateBucket.name).Nodup)
    (hsame : listed.Perm previousBuckets) :
    BucketsAgree (buildResponse buckets previousBuckets totalAmount)
      (buildResponse listed others totalAmount') := by
  intro bucket hbucket
  obtain ⟨hamount, hchange⟩ := previousAmount_buildResponse hnodup hbucket
  have hlists : ∀ amount, bucket.previousAmount = some amount ↔
      Lists (buildResponse listed others totalAmount') bucket.name amount := by
    intro amount
    rw [hamount, lists_buildResponse_iff]
    simp only [hsame.mem_iff]
  refine ⟨hlists, ?_, hchange⟩
  constructor
  · intro hnone previous hprevious hname
    have hsome := (hlists previous.amount).mpr ⟨previous, hprevious, hname, rfl⟩
    rw [hnone] at hsome
    cases hsome
  · intro hunlisted
    rw [Option.eq_none_iff_forall_ne_some]
    intro amount hsome
    obtain ⟨previous, hprevious, hname, _⟩ := (hlists amount).mp hsome
    exact hunlisted previous hprevious hname

/-- How a report agrees with the report of the month before. -/
structure ReportsAgree (response previous : MonthlyAnalyticsResponse) :
    Prop where
  absent : response.previousMonth = none ↔ previous.transactionCount = 0
  present : ∀ previousMonth, response.previousMonth = some previousMonth →
    previousMonth.totalAmount = previous.totalAmount ∧
      previousMonth.transactionCount = previous.transactionCount ∧
      (previousMonth.amountChangePercentage = none ↔
        previousMonth.totalAmount = 0)
  categories : BucketsAgree response.categories previous.categories
  merchants : BucketsAgree response.merchants previous.merchants

theorem reportsAgree_buildMonthlyAnalytics {year month year' month' : Int}
    {current previous current' previous' : MonthlyAnalyticsAggregate}
    (hconserves : previous.Conserves)
    (htotal : current'.totalAmount = previous.totalAmount)
    (hcount : current'.transactionCount = previous.transactionCount)
    (hcategories : current'.categories.Perm previous.categories)
    (hmerchants : current'.merchants.Perm previous.merchants) :
    ReportsAgree (buildMonthlyAnalytics year month current previous)
      (buildMonthlyAnalytics year' month' current' previous') where
  absent := by simp [buildMonthlyAnalytics, hcount]
  present := by
    intro previousMonth hprevious
    simp only [buildMonthlyAnalytics, Option.ite_none_left_eq_some,
      Option.some.injEq] at hprevious
    obtain ⟨_, rfl⟩ := hprevious
    exact ⟨htotal.symm, hcount.symm, changePercentage_eq_none_iff⟩
  categories := bucketsAgree_buildResponse hconserves.categoryNames hcategories
  merchants := bucketsAgree_buildResponse hconserves.merchantNames hmerchants

theorem getMonthlyAnalyticsRanges_ok {year month : Nat}
    {ranges : MonthlyAnalyticsRanges}
    (h : getMonthlyAnalyticsRanges year month = .ok ranges) :
    1 ≤ year ∧ 1 ≤ month ∧ month ≤ 12 := by
  rw [getMonthlyAnalyticsRanges] at h
  split at h
  · cases h
  · omega

/-- The previous range of a month is the current range of the month before. -/
theorem previous_range_eq {year month : Nat}
    {ranges ranges' : MonthlyAnalyticsRanges}
    (h : getMonthlyAnalyticsRanges year month = .ok ranges)
    (h' : getMonthlyAnalyticsRanges (monthBefore year month).1
      (monthBefore year month).2 = .ok ranges') :
    ranges.previous = ranges'.current := by
  obtain ⟨hyear, hmonth, htwelve⟩ := getMonthlyAnalyticsRanges_ok h
  obtain ⟨hyear', hmonth', htwelve'⟩ := getMonthlyAnalyticsRanges_ok h'
  obtain ⟨index, hindex⟩ : ∃ index, index + 2 = 12 * year + (month - 1) := by
    by_cases hjanuary : month = 1
    · rw [monthBefore, if_pos hjanuary] at hyear'
      exact ⟨12 * year + (month - 1) - 2, by omega⟩
    · exact ⟨12 * year + (month - 1) - 2, by omega⟩
  have hbefore : index + 1 =
      12 * (monthBefore year month).1 + ((monthBefore year month).2 - 1) := by
    by_cases hjanuary : month = 1
    · simp only [monthBefore, if_pos hjanuary] at *
      omega
    · simp only [monthBefore, if_neg hjanuary] at *
      omega
  rw [getMonthlyAnalyticsRanges_eq hyear hmonth htwelve hindex] at h
  rw [getMonthlyAnalyticsRanges_eq hyear' hmonth' htwelve' hbefore] at h'
  cases h
  cases h'
  rfl

/-- Over one state of the tables, the report of a month agrees with the report
of the month before. -/
theorem consecutive_reports_agree {pg : DateCast} {left : Nat → Prop}
    {db : Tables} {year month began ended began' ended' : Nat}
    {trace trace' : ApiTrace}
    {aggregates aggregates' : MonthlyAnalyticsAggregates}
    (hthis : Settles pg left (fun _ => db) year month began ended trace
      (.ok aggregates))
    (hbefore : Settles pg left (fun _ => db) (monthBefore year month).1
      (monthBefore year month).2 began' ended' trace' (.ok aggregates')) :
    ReportsAgree
      (buildMonthlyAnalytics year month aggregates.current aggregates.previous)
      (buildMonthlyAnalytics (monthBefore year month).1
        (monthBefore year month).2 aggregates'.current
        aggregates'.previous) := by
  obtain ⟨ranges, session, hranges, hrun, hserved⟩ := hthis
  obtain ⟨ranges', session', hranges', hrun', hserved'⟩ := hbefore
  obtain ⟨_, _, days, _, _, hdays, _, hreports⟩ :=
    served_findMonthlyAnalytics hrun hserved
  obtain ⟨_, days', _, _, hdays', _, hreports', _⟩ :=
    served_findMonthlyAnalytics hrun' hserved'
  rw [previous_range_eq hranges hranges'] at hdays
  cases hdays.symm.trans hdays'
  exact reportsAgree_buildMonthlyAnalytics hreports.conserves
    (hreports'.totalAmount.trans hreports.totalAmount.symm)
    (hreports'.transactionCount.trans hreports.transactionCount.symm)
    (hreports'.categories.trans hreports.categories.symm)
    (hreports'.merchants.trans hreports.merchants.symm)

section Sample

/-- March, with nothing in February. -/
def sampleMarch : MonthlyAnalyticsAggregates :=
  ⟨sampleAggregates.previous, ⟨0, 0, [], []⟩⟩

theorem settles_sampleMarch {left : Nat → Prop} :
    Settles isoCast left (fun _ => sampleTables) 2026 3 0 0 (sampleCall 24313)
      (.ok sampleMarch) := by
  refine ⟨_, .closed, getMonthlyAnalyticsRanges_eq (by decide) (by decide)
    (by decide) (show 24313 + 1 = 12 * 2026 + (3 - 1) by decide), ?_,
    served_sampleCall (.inl rfl)⟩
  repeat' apply Proc.Run.await
  exact .settled

theorem consecutive_reports_agree_sampleTables :
    ReportsAgree
      (buildMonthlyAnalytics 2026 4 sampleAggregates.current
        sampleAggregates.previous)
      (buildMonthlyAnalytics 2026 3 sampleMarch.current sampleMarch.previous) :=
  @consecutive_reports_agree _ (fun _ => False) _ _ _ _ _ _ _ _ _ _ _
    settles_sampleTables settles_sampleMarch

end Sample

end StatementAnalyzer
