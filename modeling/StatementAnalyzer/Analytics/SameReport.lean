/-
A monthly report does not depend on the order in which the database lists the
buckets.
-/
import StatementAnalyzer.Analytics.ConsecutiveMonths

namespace StatementAnalyzer

/-- The same totals and the same buckets, in any order. -/
structure MonthlyAnalyticsAggregate.Same
    (aggregate aggregate' : MonthlyAnalyticsAggregate) : Prop where
  totalAmount : aggregate'.totalAmount = aggregate.totalAmount
  transactionCount : aggregate'.transactionCount = aggregate.transactionCount
  categories : aggregate'.categories.Perm aggregate.categories
  merchants : aggregate'.merchants.Perm aggregate.merchants

/-- Each name occurs in one category, and in one merchant. -/
structure MonthlyAnalyticsAggregate.NamesUnique
    (aggregate : MonthlyAnalyticsAggregate) : Prop where
  categories : (aggregate.categories.map AnalyticsAggregateBucket.name).Nodup
  merchants : (aggregate.merchants.map AnalyticsAggregateBucket.name).Nodup

structure MonthlyAnalyticsAggregates.Same
    (aggregates aggregates' : MonthlyAnalyticsAggregates) : Prop where
  current : aggregates.current.Same aggregates'.current
  previous : aggregates.previous.Same aggregates'.previous

/-- The larger amount first, and then by name. -/
theorem compareBuckets_nonpos_iff {left right : AnalyticsAggregateBucket} :
    compareBuckets left right ≤ 0 ↔ right.amount < left.amount ∨
      (left.amount = right.amount ∧ left.name ≤ right.name) := by
  rw [compareBuckets]
  split
  · omega
  · rename_i hamount
    have heq : left.amount = right.amount := not_not.mp hamount
    rw [comparison_nonpos_iff]
    constructor
    · intro hle
      exact .inr ⟨heq, hle⟩
    · intro h
      rcases h with hlt | ⟨_, hle⟩
      · omega
      · exact hle

theorem compareBuckets_total (left right : AnalyticsAggregateBucket) :
    compareBuckets left right ≤ 0 ∨ compareBuckets right left ≤ 0 := by
  simp only [compareBuckets_nonpos_iff]
  rcases List.le_total left.name right.name with hle | hle
  · by_cases hlt : right.amount < left.amount
    · exact .inl (.inl hlt)
    · by_cases heq : left.amount = right.amount
      · exact .inl (.inr ⟨heq, hle⟩)
      · exact .inr (.inl (by omega))
  · by_cases hlt : left.amount < right.amount
    · exact .inr (.inl hlt)
    · by_cases heq : right.amount = left.amount
      · exact .inr (.inr ⟨heq, hle⟩)
      · exact .inl (.inl (by omega))

theorem compareBuckets_trans {first second third : AnalyticsAggregateBucket}
    (h : compareBuckets first second ≤ 0) (h' : compareBuckets second third ≤ 0) :
    compareBuckets first third ≤ 0 := by
  rw [compareBuckets_nonpos_iff] at h h' ⊢
  rcases h with hlt | ⟨heq, hle⟩
  · exact .inl (by omega)
  · rcases h' with hlt | ⟨heq', hle'⟩
    · exact .inl (by omega)
    · exact .inr ⟨by omega, List.le_trans hle hle'⟩

section Buckets

variable {buckets buckets' : List AnalyticsAggregateBucket}

theorem pairwise_sortBuckets (buckets : List AnalyticsAggregateBucket) :
    (sortBuckets buckets).Pairwise fun left right =>
      compareBuckets left right ≤ 0 := by
  have htotal : Std.Total fun left right : AnalyticsAggregateBucket =>
      compareBuckets left right ≤ 0 := ⟨compareBuckets_total⟩
  have htrans : IsTrans _ fun left right : AnalyticsAggregateBucket =>
      compareBuckets left right ≤ 0 := ⟨fun _ _ _ => compareBuckets_trans⟩
  exact List.pairwise_insertionSort _ buckets

/-- Among distinct names the sort leaves nothing open. -/
theorem sortBuckets_eq_of_perm
    (hnodup : (buckets.map AnalyticsAggregateBucket.name).Nodup)
    (hperm : buckets'.Perm buckets) : sortBuckets buckets' = sortBuckets buckets := by
  have hsorted : (sortBuckets buckets').Perm (sortBuckets buckets) :=
    (List.perm_insertionSort _ buckets').trans
      (hperm.trans (List.perm_insertionSort _ buckets).symm)
  apply List.Perm.eq_of_pairwise ?_ (pairwise_sortBuckets buckets')
    (pairwise_sortBuckets buckets) hsorted
  intro left right hleft hright hle hge
  rw [compareBuckets_nonpos_iff] at hle hge
  have hname : left.name = right.name := by
    rcases hle with hlt | ⟨heq, hle⟩
    · omega
    · rcases hge with hlt | ⟨_, hge⟩
      · omega
      · exact List.le_antisymm hle hge
  exact List.inj_on_of_nodup_map hnodup
    (hperm.mem_iff.mp (mem_sortBuckets.mp hleft)) (mem_sortBuckets.mp hright) hname

/-- The map by names is the same. -/
theorem previousByName_eq_of_perm
    (hnodup : (buckets.map AnalyticsAggregateBucket.name).Nodup)
    (hperm : buckets'.Perm buckets) (name : JsString) :
    previousByName buckets' name = previousByName buckets name := by
  have hnodup' : (buckets'.map AnalyticsAggregateBucket.name).Nodup :=
    (hperm.map _).nodup_iff.mpr hnodup
  apply Option.ext
  intro bucket
  rw [previousByName_eq_some_iff hnodup, previousByName_eq_some_iff hnodup',
    hperm.mem_iff]

theorem buildResponse_eq_of_perm
    {previousBuckets previousBuckets' : List AnalyticsAggregateBucket}
    (hnodup : (buckets.map AnalyticsAggregateBucket.name).Nodup)
    (hprevious : (previousBuckets.map AnalyticsAggregateBucket.name).Nodup)
    (hperm : buckets'.Perm buckets)
    (hperm' : previousBuckets'.Perm previousBuckets) (totalAmount : Int) :
    buildResponse buckets' previousBuckets' totalAmount =
      buildResponse buckets previousBuckets totalAmount := by
  simp only [buildResponse, sortBuckets_eq_of_perm hnodup hperm,
    previousByName_eq_of_perm hprevious hperm']

end Buckets

/-- The month's own numbers of a bucket of the report. -/
def MonthlyAnalyticsBucket.current (bucket : MonthlyAnalyticsBucket) :
    AnalyticsAggregateBucket :=
  ⟨bucket.name, bucket.amount, bucket.count⟩

/-- The larger amount first, and of equal amounts the smaller name; names are
compared by their code units. -/
def MonthlyAnalyticsBucket.Precedes (left right : MonthlyAnalyticsBucket) :
    Prop :=
  right.amount < left.amount ∨
    (left.amount = right.amount ∧ left.name < right.name)

/-- The report lists the buckets of the month, each once, in the one order. -/
structure Canonical (response : List MonthlyAnalyticsBucket)
    (buckets : List AnalyticsAggregateBucket) : Prop where
  perm : (response.map MonthlyAnalyticsBucket.current).Perm buckets
  strict : response.Pairwise MonthlyAnalyticsBucket.Precedes

section Response

variable {buckets previousBuckets : List AnalyticsAggregateBucket}
variable {totalAmount : Int}

theorem map_current_buildResponse
    (buckets previousBuckets : List AnalyticsAggregateBucket)
    (totalAmount : Int) :
    (buildResponse buckets previousBuckets totalAmount).map
      MonthlyAnalyticsBucket.current = sortBuckets buckets := by
  rw [buildResponse, List.map_map]
  exact List.map_id _

/-- Distinct names leave no two buckets equal in the sort. -/
theorem sortBuckets_strict
    (hnodup : (buckets.map AnalyticsAggregateBucket.name).Nodup) :
    (sortBuckets buckets).Pairwise fun left right =>
      right.amount < left.amount ∨
        (left.amount = right.amount ∧ left.name < right.name) := by
  have hperm : (sortBuckets buckets).Perm buckets :=
    List.perm_insertionSort _ buckets
  have hnames : ((sortBuckets buckets).map
      AnalyticsAggregateBucket.name).Nodup :=
    (hperm.map _).nodup_iff.mpr hnodup
  have hdistinct := List.pairwise_map.mp hnames
  apply ((pairwise_sortBuckets buckets).and hdistinct).imp
  rintro left right ⟨hle, hne⟩
  rcases compareBuckets_nonpos_iff.mp hle with hlt | ⟨heq, hname⟩
  · exact .inl hlt
  · refine .inr ⟨heq, List.not_le.mp fun hge => ?_⟩
    exact hne (List.le_antisymm hname hge)

theorem canonical_buildResponse
    (hnodup : (buckets.map AnalyticsAggregateBucket.name).Nodup) :
    Canonical (buildResponse buckets previousBuckets totalAmount) buckets where
  perm := by
    rw [map_current_buildResponse]
    exact List.perm_insertionSort _ buckets
  strict := by
    have hstrict := sortBuckets_strict hnodup
    rw [← map_current_buildResponse buckets previousBuckets totalAmount,
      List.pairwise_map] at hstrict
    exact hstrict

end Response

section Report

variable {current current' previous previous' : MonthlyAnalyticsAggregate}

/-- Equal months in another order give the same report. -/
theorem buildMonthlyAnalytics_eq_of_perm (hcurrent : current.NamesUnique)
    (hprevious : previous.NamesUnique) (hsame : current.Same current')
    (hsame' : previous.Same previous') (year month : Int) :
    buildMonthlyAnalytics year month current' previous' =
      buildMonthlyAnalytics year month current previous := by
  have hcategories := buildResponse_eq_of_perm hcurrent.categories
    hprevious.categories hsame.categories hsame'.categories
  have hmerchants := buildResponse_eq_of_perm hcurrent.merchants
    hprevious.merchants hsame.merchants hsame'.merchants
  simp only [buildMonthlyAnalytics, buildCategoryResponse, buildMerchantResponse,
    hsame.totalAmount, hsame.transactionCount, hsame'.totalAmount,
    hsame'.transactionCount, hcategories, hmerchants]

theorem buildMonthlyAnalytics_eq_of_same
    {aggregates aggregates' : MonthlyAnalyticsAggregates}
    (hcurrent : aggregates.current.Conserves)
    (hprevious : aggregates.previous.Conserves)
    (hsame : aggregates.Same aggregates') (year month : Int) :
    buildMonthlyAnalytics year month aggregates'.current aggregates'.previous =
      buildMonthlyAnalytics year month aggregates.current aggregates.previous :=
  buildMonthlyAnalytics_eq_of_perm
    ⟨hcurrent.categoryNames, hcurrent.merchantNames⟩
    ⟨hprevious.categoryNames, hprevious.merchantNames⟩ hsame.current
    hsame.previous year month

/-- The report depends on the buckets alone, and its order on nothing but their
amounts and names. -/
theorem buildMonthlyAnalytics_canonical (hcurrent : current.NamesUnique)
    (hprevious : previous.NamesUnique) (year month : Int) :
    (∀ current' previous', current.Same current' → previous.Same previous' →
      buildMonthlyAnalytics year month current' previous' =
        buildMonthlyAnalytics year month current previous) ∧
    Canonical (buildMonthlyAnalytics year month current previous).categories
      current.categories ∧
    Canonical (buildMonthlyAnalytics year month current previous).merchants
      current.merchants :=
  ⟨fun _ _ hsame hsame' => buildMonthlyAnalytics_eq_of_perm hcurrent hprevious
      hsame hsame' year month,
    canonical_buildResponse hcurrent.categories,
    canonical_buildResponse hcurrent.merchants⟩

/-- Two categories of one amount, listed by the database the other way. -/
theorem buildMonthlyAnalytics_canonical_equalAmounts :
    buildMonthlyAnalytics 2026 9
        ⟨1000, 2, [⟨js "日用品", 500, 1⟩, ⟨js "Food", 500, 1⟩], []⟩
        ⟨0, 0, [], []⟩ =
      buildMonthlyAnalytics 2026 9
        ⟨1000, 2, [⟨js "Food", 500, 1⟩, ⟨js "日用品", 500, 1⟩], []⟩
        ⟨0, 0, [], []⟩ := by
  have hnames : MonthlyAnalyticsAggregate.NamesUnique
      ⟨1000, 2, [⟨js "Food", 500, 1⟩, ⟨js "日用品", 500, 1⟩], []⟩ :=
    ⟨by decide, by decide⟩
  have hnone : MonthlyAnalyticsAggregate.NamesUnique ⟨0, 0, [], []⟩ :=
    ⟨by decide, by decide⟩
  exact (buildMonthlyAnalytics_canonical hnames hnone 2026 9).1 _ _
    ⟨rfl, rfl, .swap _ _ _, .refl _⟩ ⟨rfl, rfl, .refl _, .refl _⟩

end Report

end StatementAnalyzer
