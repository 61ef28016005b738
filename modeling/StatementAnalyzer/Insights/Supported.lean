/-
An insight that passes the validation says only what the two months bear out.
-/
import StatementAnalyzer.Insights.MonthlyInsightsService

namespace StatementAnalyzer

/-- Some bucket of the list has the name. -/
def Named (buckets : List AnalyticsAggregateBucket) (name : JsString) : Prop :=
  ∃ bucket ∈ buckets, bucket.name = name

/-- The bucket of that name has grown from a non-zero amount. -/
def Increased (current previous : List AnalyticsAggregateBucket)
    (name : JsString) : Prop :=
  ∃ bucket ∈ current, bucket.name = name ∧
    ∃ previousBucket ∈ previous, previousBucket.name = name ∧
      previousBucket.amount ≠ 0 ∧ previousBucket.amount < bucket.amount

/-- What an insight says holds of the two months. -/
def Insight.Supported (aggregates : MonthlyAnalyticsAggregates) : Insight → Prop
  | categoryIncrease _ category =>
      0 < aggregates.previous.transactionCount ∧
        Increased aggregates.current.categories aggregates.previous.categories
          category
  | merchantIncrease _ merchant =>
      0 < aggregates.previous.transactionCount ∧
        Increased aggregates.current.merchants aggregates.previous.merchants
          merchant
  | notableSpending _ category merchant =>
      (∀ name, category = some name →
        Named aggregates.current.categories name) ∧
      ∀ name, merchant = some name → Named aggregates.current.merchants name

/-- At most five insights, each of them supported. -/
def SupportedInsights (aggregates : MonthlyAnalyticsAggregates)
    (insights : List Insight) : Prop :=
  insights.length ≤ 5 ∧ ∀ insight ∈ insights, insight.Supported aggregates

section Policy

variable {year month : Int} {aggregates : MonthlyAnalyticsAggregates}
variable {buckets previousBuckets : List AnalyticsAggregateBucket}
variable {totalAmount : Int} {name : JsString}

theorem length_of_parseAll {α β : Type} {parse : α → Option β} {items : List α}
    {values : List β} (h : parseAll parse items = some values) :
    values.length = items.length :=
  (parseAll_eq_some_iff.mp h).length_eq.symm

theorem insightsDocumentSchema_length {value : JsValue}
    {document : InsightsDocument}
    (h : insightsDocumentSchema value = some document) :
    document.insights.length ≤ 5 := by
  simp only [insightsDocumentSchema, Option.bind_eq_bind,
    Option.bind_eq_some_iff, Option.ite_none_right_eq_some,
    Option.pure_def, Option.some.injEq] at h
  obtain ⟨_, _, items, _, hlength, insights, hparsed, rfl⟩ := h
  rw [length_of_parseAll hparsed]
  exact hlength

/-- The names of the compact input are those of the aggregates. -/
theorem named_of_contains
    (h : (((buildResponse buckets previousBuckets totalAmount).map mapBucket).map
      CompactInsightsBucket.name).contains name = true) : Named buckets name := by
  rw [List.contains_iff_mem, List.map_map] at h
  obtain ⟨bucket, hbucket, rfl⟩ := List.mem_map.mp h
  obtain ⟨current, hmem, hname, _⟩ := mem_buildResponse hbucket
  exact ⟨current, hmem, hname⟩

/-- A positive rounded change stands for a growth of the amounts. -/
theorem increased_of_hasIncrease
    (h : hasIncrease ((buildResponse buckets previousBuckets totalAmount).map
      mapBucket) name = true) : Increased buckets previousBuckets name := by
  obtain ⟨compact, hfind, hchange⟩ := (Option.any_eq_true _ _).mp h
  have hfound := List.find?_some hfind
  have hname := of_decide_eq_true hfound
  obtain ⟨bucket, hbucket, rfl⟩ :=
    List.mem_map.mp (List.mem_of_find?_eq_some hfind)
  rw [Bool.and_eq_true] at hchange
  obtain ⟨change, hsome, hpos⟩ := (Option.any_eq_true _ _).mp hchange.2
  obtain ⟨current, hmem, hcurrent, hamount, hgrown⟩ := mem_buildResponse hbucket
  obtain ⟨previous, hprevious, hpreviousName, hne, hlt⟩ :=
    hgrown change hsome (of_decide_eq_true hpos)
  subst hname
  exact ⟨current, hmem, hcurrent, previous, hprevious, hpreviousName, hne,
    hamount ▸ hlt⟩

theorem previous_of_isSome
    (hcount : 0 ≤ aggregates.previous.transactionCount)
    (h : (insightsInput year month aggregates).previous.isSome = true) :
    0 < aggregates.previous.transactionCount := by
  by_contra hle
  have hzero : aggregates.previous.transactionCount = 0 := by omega
  simp [insightsInput, createCompactInsightsInput, buildMonthlyAnalytics,
    hzero] at h

theorem supported_of_insightAllowed {insight : Insight}
    (hcount : 0 ≤ aggregates.previous.transactionCount)
    (h : insightAllowed (insightsInput year month aggregates) insight = true) :
    insight.Supported aggregates := by
  cases insight with
  | categoryIncrease text category =>
      simp only [insightAllowed, Bool.and_eq_true] at h
      exact ⟨previous_of_isSome hcount h.1.1, increased_of_hasIncrease h.2⟩
  | merchantIncrease text merchant =>
      simp only [insightAllowed, Bool.and_eq_true] at h
      exact ⟨previous_of_isSome hcount h.1.1, increased_of_hasIncrease h.2⟩
  | notableSpending text category merchant =>
      simp only [insightAllowed, Bool.and_eq_true, Option.all_eq_true] at h
      exact ⟨fun name hname => named_of_contains (h.1 name hname),
        fun name hname => named_of_contains (h.2 name hname)⟩

/-- Whatever passes the validation is supported. -/
theorem parseAndValidateInsights_supported {raw : JsValue}
    {document : InsightsDocument}
    (hcount : 0 ≤ aggregates.previous.transactionCount)
    (h : parseAndValidateInsights raw (insightsInput year month aggregates) =
      .ok document) : SupportedInsights aggregates document.insights := by
  rw [parseAndValidateInsights] at h
  split at h
  · cases h
  · rename_i parsed hparsed
    split at h
    · rename_i hallowed
      cases h
      refine ⟨insightsDocumentSchema_length hparsed, fun insight hinsight => ?_⟩
      exact supported_of_insightAllowed hcount
        (List.all_eq_true.mp hallowed insight hinsight)
    · cases h

end Policy

end StatementAnalyzer
