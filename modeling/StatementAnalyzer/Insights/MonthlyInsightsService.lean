/-
The insights of a month: two lookups in the cache, and the generation between
the second one and the save, under a lock.  Log lines are left out.
-/
import StatementAnalyzer.Database.MonthlyRepository

namespace StatementAnalyzer

open Async

/-- `generatedAt` is the time that the text in the answer denotes. -/
structure MonthlyInsightsResponse where
  year : Int
  month : Int
  insights : List Insight
  generatedAt : Int
  cached : Bool
deriving DecidableEq, Repr

/-- The options that the answers depend on, and the digest of
`getAnalyticsFingerprint`. -/
structure MonthlyInsightsServiceOptions where
  modelId : JsString
  promptVersion : JsString
  digest : CompactInsightsInput → JsString

/-- `toISOString` throws a RangeError for an invalid date. -/
def toISOString (date : JsDate) : Except Thrown Int :=
  match date with
  | some time => .ok time
  | none => .error ⟨.other, some (js "RangeError"), none⟩

def toResponse (year month : Int) (document : InsightsDocument)
    (generatedAt : JsDate) (cached : Bool) :
    Except Thrown MonthlyInsightsResponse := do
  let generatedAt ← toISOString generatedAt
  return ⟨year, month, document.insights, generatedAt, cached⟩

/-- An invalid document counts as missing. -/
def getCachedResponse (year month : Int) (input : CompactInsightsInput)
    (cached : Option MonthlyInsightsCacheRecord) :
    Except Thrown (Option MonthlyInsightsResponse) :=
  match cached with
  | none => .ok none
  | some cached =>
      let response := do
        let validated ← parseAndValidateInsights cached.insights input
        toResponse year month validated cached.generatedAt true
      match response with
      | .ok response => .ok (some response)
      | .error error =>
          if error.errorClass = .invalidInsightsResponse then .ok none
          else .error error

/-- What the response is looked up and made from. -/
def insightsInput (year month : Int) (aggregates : MonthlyAnalyticsAggregates) :
    CompactInsightsInput :=
  createCompactInsightsInput
    (buildMonthlyAnalytics year month aggregates.current aggregates.previous)

def insightsLookup (options : MonthlyInsightsServiceOptions)
    (ranges : MonthlyAnalyticsRanges) (input : CompactInsightsInput) :
    MonthlyInsightsCacheLookup where
  targetMonth := ranges.current.start
  analyticsVersion := getAnalyticsFingerprint options.digest input
  modelId := options.modelId
  promptVersion := options.promptVersion

def insightsLockKey (lookup : MonthlyInsightsCacheLookup) : JsString :=
  lookup.targetMonth ++ js ":" ++ lookup.modelId ++ js ":" ++
    lookup.promptVersion

/-- The callback under the generation lock. -/
def generateInsights (year month : Int) (input : CompactInsightsInput)
    (lookup : MonthlyInsightsCacheLookup)
    (lockedCache : MonthlyInsightsCacheSession) :
    ApiProgram MonthlyInsightsResponse := do
  let cached ← lockedCache.findMonthlyInsights lookup
  match ← Proc.settled (getCachedResponse year month input cached) with
  | some lockedCachedResponse => return lockedCachedResponse
  | none =>
      let generated ← Proc.call (ApiQuery.analyze input)
      let validated ← Proc.settled (parseAndValidateInsights
        (.object [(js "insights", generated)]) input)
      let generatedAt ← Proc.call ApiQuery.now
      lockedCache.saveMonthlyInsights {
        lookup with insights := validated, generatedAt := generatedAt }
      Proc.settled (toResponse year month validated generatedAt false)

theorem calls_generateInsights {P : ApiQuery → Prop} {year month : Int}
    {input : CompactInsightsInput} {lookup : MonthlyInsightsCacheLookup}
    (hselect : P (.client (.selectMonthlyInsights lookup)))
    (hanalyze : P (.analyze input)) (hnow : P .now)
    (hsave : ∀ insights generatedAt, P (.client (.upsertMonthlyInsights {
      lookup with insights := insights, generatedAt := generatedAt }))) :
    (generateInsights year month input lookup
      StatementRepository.lockedCache).Calls P := by
  apply Proc.Calls.bind
  · apply Proc.Calls.bind (Proc.Calls.call hselect)
    intro rows
    trivial
  intro cached
  apply Proc.Calls.bind (by trivial)
  intro found
  cases found with
  | some response => trivial
  | none =>
      apply Proc.Calls.bind (Proc.Calls.call hanalyze)
      intro generated
      apply Proc.Calls.bind (by trivial)
      intro validated
      apply Proc.Calls.bind (Proc.Calls.call hnow)
      intro generatedAt
      apply Proc.Calls.bind (Proc.Calls.call (hsave validated generatedAt))
      intro _
      trivial

def getMonthlyInsights (options : MonthlyInsightsServiceOptions)
    (year month : Int) : ApiProgram MonthlyInsightsResponse := do
  let ranges ← Proc.settled (getMonthlyAnalyticsRanges year month)
  let aggregates ← StatementRepository.findMonthlyAnalytics ranges
  let input := insightsInput year month aggregates
  let lookup := insightsLookup options ranges input
  let cached ← StatementRepository.findMonthlyInsights lookup
  match ← Proc.settled (getCachedResponse year month input cached) with
  | some cachedResponse => return cachedResponse
  | none =>
      StatementRepository.withMonthlyInsightsGenerationLock
        (insightsLockKey lookup) (generateInsights year month input lookup)

end StatementAnalyzer
