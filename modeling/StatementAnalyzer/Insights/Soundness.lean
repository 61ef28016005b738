/-
Insights are sound from the aggregates to the answer, whether they come from the
cache or from the model.
-/
import StatementAnalyzer.Async.Traces
import StatementAnalyzer.Insights.Supported

namespace StatementAnalyzer

open Async

/-- The document that a call saves. -/
def savedInput? :
    Answered ApiQuery ApiQuery.Answer Thrown → Option SaveMonthlyInsightsInput
  | ⟨.client (.upsertMonthlyInsights input), _⟩ => some input
  | _ => none

/-- What a call of the analyzer is answered with. -/
def generation? :
    Answered ApiQuery ApiQuery.Answer Thrown → Option (Except Thrown JsValue)
  | ⟨.analyze _, answer⟩ => some answer
  | _ => none

def savedInputs (trace : ApiTrace) : List SaveMonthlyInsightsInput :=
  trace.filterMap savedInput?

def generations (trace : ApiTrace) : List (Except Thrown JsValue) :=
  trace.filterMap generation?

/-- Neither a generation nor a save. -/
def ApiQuery.Quiet : ApiQuery → Prop
  | analyze _ => False
  | client (.upsertMonthlyInsights _) => False
  | _ => True

def Quiet (trace : ApiTrace) : Prop :=
  ∀ answered ∈ trace, answered.op.Quiet

theorem ApiQuery.Quiet.none {answered : Answered ApiQuery ApiQuery.Answer Thrown}
    (h : answered.op.Quiet) :
    savedInput? answered = Option.none ∧ generation? answered = Option.none := by
  obtain ⟨op, answer⟩ := answered
  cases op with
  | analyze input => exact h.elim
  | client q =>
      cases q with
      | upsertMonthlyInsights input => exact h.elim
      | _ => exact ⟨rfl, rfl⟩
  | _ => exact ⟨rfl, rfl⟩

theorem Quiet.saved {trace : ApiTrace} (h : Quiet trace) :
    savedInputs trace = [] :=
  List.filterMap_eq_nil_iff.mpr fun answered hmem => (h answered hmem).none.1

theorem Quiet.generated {trace : ApiTrace} (h : Quiet trace) :
    generations trace = [] :=
  List.filterMap_eq_nil_iff.mpr fun answered hmem => (h answered hmem).none.2

section Outcome

variable {year month : Int} {input : CompactInsightsInput}
variable {trace before after : ApiTrace}
variable {result : Except Thrown MonthlyInsightsResponse}

theorem quiet_query {q : ApiClientQuery} (hq : (ApiQuery.client q).Quiet) :
    (clientQuery q).Calls ApiQuery.Quiet :=
  ⟨hq, fun _ => trivial⟩

theorem quiet_connect : connect.Calls ApiQuery.Quiet :=
  ⟨trivial, fun _ => trivial⟩

theorem quiet_release {destroy : Bool} :
    (release destroy).Calls ApiQuery.Quiet :=
  ⟨trivial, fun _ => trivial⟩

theorem quiet_findMonthlyAggregate {range : AnalyticsDateRange} :
    (StatementRepository.findMonthlyAggregate range).Calls ApiQuery.Quiet :=
  StatementRepository.calls_findMonthlyAggregate trivial trivial trivial

theorem quiet_findMonthlyAnalytics {ranges : MonthlyAnalyticsRanges} :
    (StatementRepository.findMonthlyAnalytics ranges).Calls ApiQuery.Quiet := by
  apply quiet_connect.bind
  intro _
  apply Proc.Calls.ensure (Proc.Calls.orElse ?_ ?_) quiet_release
  · apply (quiet_query (by trivial)).bind
    intro _
    apply quiet_findMonthlyAggregate.bind
    intro _
    apply quiet_findMonthlyAggregate.bind
    intro _
    apply (quiet_query (by trivial)).bind
    intro _
    trivial
  · intro error
    apply (quiet_query (by trivial)).andThen
    intro _
    trivial

theorem quiet_findMonthlyInsights {lookup : MonthlyInsightsCacheLookup} :
    (StatementRepository.findMonthlyInsights lookup).Calls ApiQuery.Quiet := by
  apply quiet_connect.bind
  intro _
  apply Proc.Calls.ensure ?_ quiet_release
  apply (quiet_query (by trivial)).bind
  intro _
  trivial

theorem quiet_rollbackAndRelease {α : Type} {error : Thrown} :
    (StatementRepository.rollbackAndRelease error : ApiProgram α).Calls
      ApiQuery.Quiet := by
  apply (quiet_query (by trivial)).andThen
  intro result
  cases result with
  | ok _ =>
      apply quiet_release.andThen
      intro _
      trivial
  | error _ =>
      apply quiet_release.andThen
      intro _
      trivial

theorem Quiet.append (hbefore : Quiet before) (hafter : Quiet after) :
    Quiet (before ++ after) :=
  List.forall_mem_append.mpr ⟨hbefore, hafter⟩

/-- What a request has returned and saved: documents that pass the validation,
and no other document than the one generated and returned. -/
structure Validated (year month : Int) (input : CompactInsightsInput)
    (trace : ApiTrace) (result : Except Thrown MonthlyInsightsResponse) : Prop where
  returned : ∀ response, result = .ok response → ∃ raw document,
    parseAndValidateInsights raw input = .ok document ∧
      response.insights = document.insights
  saved : ∀ saved ∈ savedInputs trace, ∃ generated,
    generations trace = [.ok generated] ∧
      parseAndValidateInsights (.object [(js "insights", generated)]) input =
        .ok saved.insights ∧
      ∀ response, result = .ok response → ∃ time,
        saved.generatedAt = some time ∧
          response = ⟨year, month, saved.insights.insights, time, false⟩

theorem Validated.failed {error : Thrown} (h : Quiet trace) :
    Validated year month input trace (.error error) := by
  refine ⟨by rintro _ ⟨⟩, fun saved hsaved => ?_⟩
  rw [h.saved] at hsaved
  cases hsaved

theorem Validated.prepend (hbefore : Quiet before)
    (h : Validated year month input after result) :
    Validated year month input (before ++ after) result := by
  have hsaved : savedInputs (before ++ after) = savedInputs after := by
    rw [savedInputs, List.filterMap_append]
    exact congrArg (· ++ savedInputs after) hbefore.saved
  have hgenerated : generations (before ++ after) = generations after := by
    rw [generations, List.filterMap_append]
    exact congrArg (· ++ generations after) hbefore.generated
  refine ⟨h.returned, ?_⟩
  rw [hsaved, hgenerated]
  exact h.saved

/-- What follows may still make the request fail. -/
theorem Validated.append {result' : Except Thrown MonthlyInsightsResponse}
    (h : Validated year month input before result) (hafter : Quiet after)
    (hresult : ∀ response, result' = .ok response → result = .ok response) :
    Validated year month input (before ++ after) result' := by
  have hsaved : savedInputs (before ++ after) = savedInputs before := by
    rw [savedInputs, List.filterMap_append]
    exact (congrArg (savedInputs before ++ ·) hafter.saved).trans
      (List.append_nil _)
  have hgenerated : generations (before ++ after) = generations before := by
    rw [generations, List.filterMap_append]
    exact (congrArg (generations before ++ ·) hafter.generated).trans
      (List.append_nil _)
  refine ⟨fun response h' => h.returned response (hresult response h'), ?_⟩
  rw [hsaved, hgenerated]
  intro saved hmem
  obtain ⟨generated, honly, hparsed, hsame⟩ := h.saved saved hmem
  exact ⟨generated, honly, hparsed, fun response h' =>
    hsame response (hresult response h')⟩

theorem toResponse_eq_ok {document : InsightsDocument} {generatedAt : JsDate}
    {cached : Bool} {response : MonthlyInsightsResponse}
    (h : toResponse year month document generatedAt cached = .ok response) :
    ∃ time, generatedAt = some time ∧
      response = ⟨year, month, document.insights, time, cached⟩ := by
  cases generatedAt with
  | none => cases h
  | some time =>
      cases h
      exact ⟨time, rfl, rfl⟩

/-- The response of a cached document. -/
theorem getCachedResponse_response {cached : Option MonthlyInsightsCacheRecord}
    {response : MonthlyInsightsResponse}
    (h : getCachedResponse year month input cached = .ok (some response)) :
    ∃ record document time, cached = some record ∧
      parseAndValidateInsights record.insights input = .ok document ∧
      response = ⟨year, month, document.insights, time, true⟩ := by
  cases cached with
  | none => cases h
  | some cached =>
      cases hparsed : parseAndValidateInsights cached.insights input with
      | error error =>
          simp only [getCachedResponse, hparsed, bind, Except.bind] at h
          split at h <;> cases h
      | ok document =>
          simp only [getCachedResponse, hparsed, bind, Except.bind] at h
          split at h
          · rename_i hresponse
            cases h
            obtain ⟨time, _, hresponse⟩ := toResponse_eq_ok hresponse
            exact ⟨cached, document, time, rfl, hparsed, hresponse⟩
          · split at h <;> cases h

/-- Whatever the cache holds, it is validated before it is returned. -/
theorem getCachedResponse_eq_some {cached : Option MonthlyInsightsCacheRecord}
    {response : MonthlyInsightsResponse}
    (h : getCachedResponse year month input cached = .ok (some response)) :
    ∃ raw document, parseAndValidateInsights raw input = .ok document ∧
      response.insights = document.insights := by
  obtain ⟨record, document, _, _, hparsed, rfl⟩ := getCachedResponse_response h
  exact ⟨record.insights, document, hparsed, rfl⟩

/-- A hit asks for nothing more. -/
theorem Validated.cached {cached : Option MonthlyInsightsCacheRecord}
    {response : MonthlyInsightsResponse}
    (h : getCachedResponse year month input cached = .ok (some response)) :
    Validated year month input [] (.ok response) := by
  constructor
  · intro response' heq
    cases heq
    exact getCachedResponse_eq_some h
  · intro saved hsaved
    cases hsaved

/-- The callback of the lock runs at most once, and its result is returned or
lost. -/
theorem run_withMonthlyInsightsGenerationLock {α : Type} {lockKey : JsString}
    {callback : MonthlyInsightsCacheSession → ApiProgram α}
    {result : Except Thrown α}
    (h : (StatementRepository.withMonthlyInsightsGenerationLock lockKey
      callback).Run trace result) :
    (∃ error, result = .error error ∧ Quiet trace) ∨
      ∃ before middle after called, trace = before ++ (middle ++ after) ∧
        Quiet before ∧ Quiet after ∧
        (callback StatementRepository.lockedCache).Run middle called ∧
        ∀ value, result = .ok value → called = .ok value := by
  rcases Proc.run_bind h with ⟨error, rfl, hconnect⟩ |
    ⟨_, first, rest, rfl, hconnect, h⟩
  · exact .inl ⟨error, rfl, hconnect.calls quiet_connect⟩
  have hfirst : Quiet first := hconnect.calls quiet_connect
  obtain ⟨inside, locked, last, rfl, hlocked, hlast⟩ :=
    Proc.run_andThen_iff.mp h
  have hquiet : Quiet last ∧ ∀ value, result = .ok value → locked = .ok value := by
    cases locked with
    | ok value =>
        refine ⟨hlast.calls (quiet_release.andThen fun _ => trivial), ?_⟩
        rintro value' rfl
        obtain ⟨_, _, _, _, _, hsettled⟩ := Proc.run_andThen_iff.mp hlast
        exact (Proc.run_settled_iff.mp hsettled).2.symm
    | error error =>
        refine ⟨hlast.calls quiet_rollbackAndRelease, ?_⟩
        rintro value rfl
        obtain ⟨_, rolledBack, _, _, _, hreleased⟩ :=
          Proc.run_andThen_iff.mp hlast
        cases rolledBack with
        | ok _ =>
            obtain ⟨_, _, _, _, _, hthrown⟩ := Proc.run_andThen_iff.mp hreleased
            cases (Proc.run_settled_iff.mp hthrown).2
        | error _ =>
            obtain ⟨_, _, _, _, _, hthrown⟩ := Proc.run_andThen_iff.mp hreleased
            cases (Proc.run_settled_iff.mp hthrown).2
  -- an error before the callback leaves nothing to return
  have hnone : ∀ {error}, locked = .error error → Quiet inside →
      ∃ error, result = .error error ∧ Quiet (first ++ (inside ++ last)) := by
    rintro error rfl hinside
    cases result with
    | ok value => cases hquiet.2 value rfl
    | error error' =>
        exact ⟨error', rfl, hfirst.append (hinside.append hquiet.1)⟩
  rcases Proc.run_bind hlocked with ⟨error, heq, hbegin⟩ |
    ⟨_, begun, rest, rfl, hbegin, hlocked⟩
  · exact .inl (hnone heq (hbegin.calls (quiet_query (by trivial))))
  have hbegun : Quiet begun := hbegin.calls (quiet_query (by trivial))
  rcases Proc.run_bind hlocked with ⟨error, heq, hlock⟩ |
    ⟨_, waited, rest, rfl, hlock, hlocked⟩
  · exact .inl (hnone heq
      (hbegun.append (hlock.calls (quiet_query (by trivial)))))
  have hwaited : Quiet waited := hlock.calls (quiet_query (by trivial))
  obtain ⟨middle, called, ended, rfl, hcalled, hended⟩ :=
    Proc.run_andThen_iff.mp hlocked
  refine .inr ⟨first ++ (begun ++ waited), middle, ended ++ last, called,
    by simp, hfirst.append (hbegun.append hwaited), ?_, hcalled, ?_⟩
  · refine Quiet.append ?_ hquiet.1
    cases called with
    | error error =>
        rw [(Proc.run_settled_iff.mp hended).1]
        simp [Quiet]
    | ok value =>
        refine hended.calls ((quiet_query (by trivial)).bind fun _ => ?_)
        trivial
  · intro value hvalue
    cases called with
    | error error =>
        have hlocked := (Proc.run_settled_iff.mp hended).2
        cases (hquiet.2 value hvalue).symm.trans hlocked
    | ok value' =>
        rcases Proc.run_bind hended with ⟨error, heq, _⟩ |
          ⟨_, _, _, _, _, hreturned⟩
        · cases (hquiet.2 value hvalue).symm.trans heq
        · cases (hquiet.2 value hvalue).symm.trans
            (Proc.run_settled_iff.mp hreturned).2
          rfl

/-- A validation or a conversion, in the middle of a procedure. -/
theorem run_settled_bind {α β : Type} {checked : Except Thrown α}
    {next : α → ApiProgram β} {result : Except Thrown β}
    (h : (Proc.settled checked >>= next).Run trace result) :
    (∃ error, result = .error error ∧ trace = []) ∨
      ∃ value, checked = .ok value ∧ (next value).Run trace result := by
  cases checked with
  | error error =>
      obtain ⟨htrace, hresult⟩ := Proc.run_settled_iff.mp h
      exact .inl ⟨error, hresult, htrace⟩
  | ok value => exact .inr ⟨value, rfl, h⟩

theorem Quiet.nil : Quiet [] := by
  simp [Quiet]

/-- The callback of the lock: it returns the cached document or the one that it
has generated, validated and saved. -/
theorem run_generateInsights {lookup : MonthlyInsightsCacheLookup}
    (h : (generateInsights year month input lookup
      StatementRepository.lockedCache).Run trace result) :
    Validated year month input trace result := by
  rcases Proc.run_bind h with ⟨error, rfl, hfind⟩ |
    ⟨cached, first, rest, rfl, hfind, hcached⟩
  · exact .failed (hfind.calls ((quiet_query (by trivial)).bind fun _ => trivial))
  refine .prepend
    (hfind.calls ((quiet_query (by trivial)).bind fun _ => trivial)) ?_
  rcases run_settled_bind hcached with ⟨error, rfl, rfl⟩ | ⟨found, hfound, hmiss⟩
  · exact .failed .nil
  cases found with
  | some response =>
      obtain ⟨rfl, rfl⟩ := Proc.run_settled_iff.mp hmiss
      exact .cached hfound
  | none =>
      rcases Proc.run_bind hmiss with ⟨error, rfl, hanalyze⟩ |
        ⟨generated, analyzed, rest, rfl, hanalyze, hgenerated⟩
      · obtain rfl := Proc.run_call_iff.mp hanalyze
        exact ⟨by rintro _ ⟨⟩, by rintro _ ⟨⟩⟩
      obtain rfl := Proc.run_call_iff.mp hanalyze
      rcases run_settled_bind hgenerated with ⟨error, rfl, rfl⟩ |
        ⟨validated, hvalidated, hvalid⟩
      · exact ⟨by rintro _ ⟨⟩, by rintro _ ⟨⟩⟩
      rcases Proc.run_bind hvalid with ⟨error, rfl, hnow⟩ |
        ⟨generatedAt, timed, rest, rfl, hnow, hunsaved⟩
      · obtain rfl := Proc.run_call_iff.mp hnow
        exact ⟨by rintro _ ⟨⟩, by rintro _ ⟨⟩⟩
      obtain rfl := Proc.run_call_iff.mp hnow
      rcases Proc.run_bind hunsaved with ⟨error, rfl, hsave⟩ |
        ⟨_, saved, rest, rfl, hsave, hsaved⟩
      · obtain rfl := Proc.run_call_iff.mp hsave
        refine ⟨by rintro _ ⟨⟩, fun saved hmem => ?_⟩
        obtain rfl := List.mem_singleton.mp hmem
        exact ⟨generated, rfl, hvalidated, by rintro _ ⟨⟩⟩
      · obtain rfl := Proc.run_call_iff.mp hsave
        obtain ⟨rfl, hresult⟩ := Proc.run_settled_iff.mp hsaved
        refine ⟨fun response hresponse => ?_, fun saved hmem => ?_⟩
        · obtain ⟨_, _, rfl⟩ := toResponse_eq_ok (hresult.symm.trans hresponse)
          exact ⟨_, validated, hvalidated, rfl⟩
        · obtain rfl := List.mem_singleton.mp hmem
          exact ⟨generated, rfl, hvalidated, fun _ hresponse =>
            toResponse_eq_ok (hresult.symm.trans hresponse)⟩

/-- What follows once the aggregates have been read. -/
def insightsOfAggregates (options : MonthlyInsightsServiceOptions)
    (year month : Int) (ranges : MonthlyAnalyticsRanges)
    (aggregates : MonthlyAnalyticsAggregates) :
    ApiProgram MonthlyInsightsResponse := do
  let input := insightsInput year month aggregates
  let lookup := insightsLookup options ranges input
  let cached ← StatementRepository.findMonthlyInsights lookup
  match ← Proc.settled (getCachedResponse year month input cached) with
  | some cachedResponse => return cachedResponse
  | none =>
      StatementRepository.withMonthlyInsightsGenerationLock
        (insightsLockKey lookup) (generateInsights year month input lookup)

theorem getMonthlyInsights_eq (options : MonthlyInsightsServiceOptions)
    (year month : Int) : getMonthlyInsights options year month = (do
      let ranges ← Proc.settled (getMonthlyAnalyticsRanges year month)
      let aggregates ← StatementRepository.findMonthlyAnalytics ranges
      insightsOfAggregates options year month ranges aggregates) := rfl

/-- A request fails before it has the aggregates, or goes on with them. -/
theorem run_getMonthlyInsights {options : MonthlyInsightsServiceOptions}
    (h : (getMonthlyInsights options year month).Run trace result) :
    ((∃ error, result = .error error) ∧ Quiet trace) ∨
      ∃ ranges aggregates before after,
        getMonthlyAnalyticsRanges year month = .ok ranges ∧
        trace = before ++ after ∧
        (StatementRepository.findMonthlyAnalytics ranges).Run before
          (.ok aggregates) ∧
        (insightsOfAggregates options year month ranges aggregates).Run after
          result := by
  rw [getMonthlyInsights_eq] at h
  rcases run_settled_bind h with ⟨error, rfl, rfl⟩ | ⟨ranges, hranges, hread⟩
  · exact .inl ⟨⟨error, rfl⟩, .nil⟩
  rcases Proc.run_bind hread with ⟨error, rfl, hfind⟩ |
    ⟨aggregates, before, after, rfl, hfind, hrest⟩
  · exact .inl ⟨⟨error, rfl⟩, hfind.calls quiet_findMonthlyAnalytics⟩
  · exact .inr ⟨ranges, aggregates, before, after, hranges, rfl, hfind, hrest⟩

theorem run_insightsOfAggregates {options : MonthlyInsightsServiceOptions}
    {ranges : MonthlyAnalyticsRanges} {aggregates : MonthlyAnalyticsAggregates}
    (h : (insightsOfAggregates options year month ranges aggregates).Run trace
      result) :
    Validated year month (insightsInput year month aggregates) trace result := by
  rcases Proc.run_bind h with ⟨error, rfl, hlookup⟩ |
    ⟨cached, first, rest, rfl, hlookup, hcached⟩
  · exact .failed (hlookup.calls quiet_findMonthlyInsights)
  refine .prepend (hlookup.calls quiet_findMonthlyInsights) ?_
  rcases run_settled_bind hcached with ⟨error, rfl, rfl⟩ | ⟨found, hfound, hmiss⟩
  · exact .failed .nil
  cases found with
  | some response =>
      obtain ⟨rfl, rfl⟩ := Proc.run_settled_iff.mp hmiss
      exact .cached hfound
  | none =>
      rcases run_withMonthlyInsightsGenerationLock hmiss with
        ⟨error, rfl, hquiet⟩ |
        ⟨_, _, _, called, rfl, hfirst, hlast, hcalled, hreturned⟩
      · exact .failed hquiet
      · exact .prepend hfirst
          ((run_generateInsights hcalled).append hlast hreturned)

/-- The counts of the aggregates come from COUNT(*). -/
theorem aggregateOfRows_count {overview : List AnalyticsOverviewDatabaseRow}
    {categories merchants : List AnalyticsBucketDatabaseRow}
    {aggregate : MonthlyAnalyticsAggregate}
    (h : aggregateOfRows overview categories merchants = .ok aggregate) :
    0 ≤ aggregate.transactionCount := by
  cases overview with
  | nil => cases h
  | cons overviewRow rest =>
      simp only [aggregateOfRows, mapAnalyticsInteger, bind, Except.bind] at h
      split at h
      · cases h
      split at h
      · cases h
      rename_i transactionCount hcount
      split at h
      · cases h
      split at h
      · cases h
      cases h
      split at hcount
      · cases hcount
        exact Int.natCast_nonneg _
      · cases hcount

/-- The calls of one month of `findMonthlyAnalytics`. -/
def aggregateCalls (range : AnalyticsDateRange)
    (overview : List AnalyticsOverviewDatabaseRow)
    (categories merchants : List AnalyticsBucketDatabaseRow) : ApiTrace :=
  [⟨.client (.selectOverview range), .ok overview⟩,
    ⟨.client (.selectCategories range), .ok categories⟩,
    ⟨.client (.selectMerchants range), .ok merchants⟩]

theorem run_findMonthlyAggregate_ok {range : AnalyticsDateRange} {trace : ApiTrace}
    {aggregate : MonthlyAnalyticsAggregate}
    (h : (StatementRepository.findMonthlyAggregate range).Run trace
      (.ok aggregate)) : ∃ overview categories merchants,
        trace = aggregateCalls range overview categories merchants ∧
        aggregateOfRows overview categories merchants = .ok aggregate := by
  obtain ⟨overview, _, _, rfl, hoverview, h₁⟩ := Proc.run_bind_ok h
  obtain ⟨categories, _, _, rfl, hcategories, h₂⟩ := Proc.run_bind_ok h₁
  obtain ⟨merchants, _, _, rfl, hmerchants, h₃⟩ := Proc.run_bind_ok h₂
  obtain rfl := Proc.run_call_iff.mp hoverview
  obtain rfl := Proc.run_call_iff.mp hcategories
  obtain rfl := Proc.run_call_iff.mp hmerchants
  obtain ⟨rfl, haggregate⟩ := Proc.run_settled_iff.mp h₃
  exact ⟨overview, categories, merchants, rfl, haggregate.symm⟩

/-- The aggregates are made of rows that were answered, and no call has
failed. -/
theorem run_findMonthlyAnalytics_ok {ranges : MonthlyAnalyticsRanges}
    {trace : ApiTrace} {aggregates : MonthlyAnalyticsAggregates}
    (h : (StatementRepository.findMonthlyAnalytics ranges).Run trace
      (.ok aggregates)) : ∃ current previous before after,
        (StatementRepository.findMonthlyAggregate ranges.current).Run current
          (.ok aggregates.current) ∧
        (StatementRepository.findMonthlyAggregate ranges.previous).Run previous
          (.ok aggregates.previous) ∧
        trace = before ++ (current ++ (previous ++ after)) ∧
        before = [⟨.connect, .ok ()⟩, ⟨.client .beginRepeatableRead, .ok ()⟩] ∧
        after = [⟨.client .commit, .ok ()⟩, ⟨.release false, .ok ()⟩] := by
  obtain ⟨_, _, _, rfl, hconnect, hensure⟩ := Proc.run_bind_ok h
  obtain ⟨_, _, rfl, hcaught, hrelease⟩ := Proc.run_ensure_ok hensure
  rcases Proc.run_orElse_ok hcaught with hbody | ⟨error, _, hhandler⟩
  · obtain ⟨_, _, _, rfl, hbegin, h₁⟩ := Proc.run_bind_ok hbody
    obtain ⟨current, _, _, rfl, hcurrent, h₂⟩ := Proc.run_bind_ok h₁
    obtain ⟨previous, _, _, rfl, hprevious, h₃⟩ := Proc.run_bind_ok h₂
    obtain ⟨_, _, _, rfl, hcommit, h₄⟩ := Proc.run_bind_ok h₃
    obtain ⟨rfl, haggregates⟩ := Proc.run_settled_iff.mp h₄
    cases haggregates
    obtain rfl := Proc.run_call_iff.mp hconnect
    obtain rfl := Proc.run_call_iff.mp hbegin
    obtain rfl := Proc.run_call_iff.mp hcommit
    obtain rfl := Proc.run_call_iff.mp hrelease
    exact ⟨_, _, _, _, hcurrent, hprevious, by simp, rfl, rfl⟩
  · obtain ⟨_, _, _, _, _, hthrown⟩ := Proc.run_andThen_iff.mp hhandler
    cases (Proc.run_settled_iff.mp hthrown).2

theorem run_findMonthlyAnalytics_count {ranges : MonthlyAnalyticsRanges}
    {aggregates : MonthlyAnalyticsAggregates}
    (h : (StatementRepository.findMonthlyAnalytics ranges).Run trace
      (.ok aggregates)) : 0 ≤ aggregates.previous.transactionCount := by
  obtain ⟨_, _, _, _, _, hprevious, _⟩ := run_findMonthlyAnalytics_ok h
  obtain ⟨_, _, _, _, haggregate⟩ := run_findMonthlyAggregate_ok hprevious
  exact aggregateOfRows_count haggregate

end Outcome

/-- Insights are sound end to end.  Either the request fails before it has the
aggregates, or the aggregates are those of its own `findMonthlyAnalytics` and
bear out what is returned and what is saved; a saved document is the validated
one of the only generation, and the one that is returned. -/
theorem getMonthlyInsights_supported {options : MonthlyInsightsServiceOptions}
    {year month : Int} {trace : ApiTrace}
    {result : Except Thrown MonthlyInsightsResponse}
    (h : (getMonthlyInsights options year month).Run trace result) :
    ((∃ error, result = .error error) ∧ savedInputs trace = []) ∨
    ∃ ranges aggregates before after, trace = before ++ after ∧
      (StatementRepository.findMonthlyAnalytics ranges).Run before
        (.ok aggregates) ∧
      (∀ response, result = .ok response →
        SupportedInsights aggregates response.insights) ∧
      (∀ saved ∈ savedInputs trace,
        SupportedInsights aggregates saved.insights.insights ∧
        ∀ response, result = .ok response →
          response.insights = saved.insights.insights) ∧
      ((∃ error, .error error ∈ generations trace) → savedInputs trace = []) ∧
      ((∃ generated error, .ok generated ∈ generations trace ∧
        parseAndValidateInsights (.object [(js "insights", generated)])
          (insightsInput year month aggregates) = .error error) →
        savedInputs trace = []) := by
  rcases run_getMonthlyInsights h with ⟨⟨error, rfl⟩, hquiet⟩ |
    ⟨ranges, aggregates, before, after, _, rfl, hfind, hrest⟩
  · exact .inl ⟨⟨error, rfl⟩, hquiet.saved⟩
  have hcount := run_findMonthlyAnalytics_count hfind
  have hvalidated : Validated year month (insightsInput year month aggregates)
      (before ++ after) result :=
    .prepend (hfind.calls quiet_findMonthlyAnalytics) (run_insightsOfAggregates hrest)
  refine .inr ⟨ranges, aggregates, before, after, rfl, hfind, ?_, ?_, ?_, ?_⟩
  · intro response hresponse
    obtain ⟨_, document, hparsed, hsame⟩ := hvalidated.returned response hresponse
    rw [hsame]
    exact parseAndValidateInsights_supported hcount hparsed
  · intro saved hsaved
    obtain ⟨_, _, hparsed, hreturned⟩ := hvalidated.saved saved hsaved
    refine ⟨parseAndValidateInsights_supported hcount hparsed,
      fun response hresponse => ?_⟩
    obtain ⟨_, _, rfl⟩ := hreturned response hresponse
    rfl
  · rintro ⟨error, herror⟩
    apply List.eq_nil_iff_forall_not_mem.mpr
    intro saved hsaved
    obtain ⟨generated, honly, _, _⟩ := hvalidated.saved saved hsaved
    rw [honly] at herror
    cases List.mem_singleton.mp herror
  · rintro ⟨generated, error, hgenerated, herror⟩
    apply List.eq_nil_iff_forall_not_mem.mpr
    intro saved hsaved
    obtain ⟨generated', honly, hparsed, _⟩ := hvalidated.saved saved hsaved
    rw [honly] at hgenerated
    cases List.mem_singleton.mp hgenerated
    rw [hparsed] at herror
    cases herror

section Sample

def sampleOptions : MonthlyInsightsServiceOptions :=
  ⟨js "model", js "v1", fun _ => []⟩

def sampleRanges : MonthlyAnalyticsRanges :=
  ⟨⟨js "2026-04-01", js "2026-05-01"⟩, ⟨js "2026-03-01", js "2026-04-01"⟩⟩

/-- Both months have one transaction. -/
def sampleAggregate : MonthlyAnalyticsAggregate :=
  ⟨1200, 1, [⟨js "食費", 1200, 1⟩], []⟩

def sampleMonth (range : AnalyticsDateRange) : ApiTrace :=
  [⟨.client (.selectOverview range), .ok [⟨1200, 1⟩]⟩,
    ⟨.client (.selectCategories range), .ok [⟨js "食費", 1200, 1⟩]⟩,
    ⟨.client (.selectMerchants range), .ok []⟩]

def sampleGenerated : JsValue :=
  .array [.object [
    (js "type", .string (js "NOTABLE_SPENDING")),
    (js "severity", .string (js "info")),
    (js "title", .string (js "食費")),
    (js "description", .string (js "食費が主な支出です。")),
    (js "category", .string (js "食費"))]]

def sampleInsight : Insight :=
  .notableSpending ⟨.info, js "食費", js "食費が主な支出です。"⟩
    (some (js "食費")) none

def sampleInput : CompactInsightsInput :=
  insightsInput 2026 4 ⟨sampleAggregate, sampleAggregate⟩

def sampleLookup : MonthlyInsightsCacheLookup :=
  insightsLookup sampleOptions sampleRanges sampleInput

/-- Two cache misses, a generation and a save. -/
def sampleTrace : ApiTrace :=
  [⟨.connect, .ok ()⟩, ⟨.client .beginRepeatableRead, .ok ()⟩] ++
    sampleMonth sampleRanges.current ++ sampleMonth sampleRanges.previous ++
    [⟨.client .commit, .ok ()⟩, ⟨.release false, .ok ()⟩, ⟨.connect, .ok ()⟩,
      ⟨.client (.selectMonthlyInsights sampleLookup), .ok []⟩,
      ⟨.release false, .ok ()⟩, ⟨.connect, .ok ()⟩, ⟨.client .begin, .ok ()⟩,
      ⟨.client (.advisoryLock (insightsLockKey sampleLookup)), .ok ()⟩,
      ⟨.client (.selectMonthlyInsights sampleLookup), .ok []⟩,
      ⟨.analyze sampleInput, .ok sampleGenerated⟩, ⟨.now, .ok (some 5)⟩,
      ⟨.client (.upsertMonthlyInsights { sampleLookup with
        insights := ⟨[sampleInsight]⟩, generatedAt := some 5 }), .ok ()⟩,
      ⟨.client .commit, .ok ()⟩, ⟨.release false, .ok ()⟩]

theorem run_sampleTrace : (getMonthlyInsights sampleOptions 2026 4).Run
    sampleTrace (.ok ⟨2026, 4, [sampleInsight], 5, false⟩) := by
  repeat' apply Proc.Run.await
  exact .settled

theorem getMonthlyInsights_supported_sampleTrace :
    ∃ aggregates, SupportedInsights aggregates [sampleInsight] ∧
      ∃ saved ∈ savedInputs sampleTrace, saved.insights = ⟨[sampleInsight]⟩ := by
  rcases getMonthlyInsights_supported run_sampleTrace with
    ⟨⟨_, herror⟩, _⟩ | ⟨_, aggregates, _, _, _, _, hreturned, _⟩
  · cases herror
  · exact ⟨aggregates, hreturned _ rfl, _, List.mem_singleton_self _, rfl⟩

end Sample

end StatementAnalyzer
