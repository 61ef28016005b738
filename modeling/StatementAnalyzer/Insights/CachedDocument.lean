/-
A saved document stays a hit: what one request has saved and committed, every
later request of the same month and report returns without the analyzer.
-/
import StatementAnalyzer.Analytics.SameReport
import StatementAnalyzer.Database.InsightsTable
import StatementAnalyzer.Insights.Soundness

namespace StatementAnalyzer

open Async

section Committed

variable {pg : DateCast} {jsonb : Jsonb} {targetMonth : JsString}
variable {s s' : CacheState} {trace : ApiTrace}

/-- The rows of the request are those of the given saves, and the one that it
has committed is still there. -/
structure CacheState.From (pg : DateCast) (jsonb : Jsonb) (targetMonth : JsString)
    (saves : List SaveMonthlyInsightsInput) (s : CacheState) : Prop where
  draft : ∀ day record, s.draft = some (day, record) →
    pg.cast targetMonth = some day ∧
      ∃ input ∈ saves, input.Writes pg jsonb day record
  kept : ∀ record, s.kept = some record →
    s.row pg targetMonth = some record ∧
      ∃ input ∈ saves, ∃ day, input.Writes pg jsonb day record

variable {saves : List SaveMonthlyInsightsInput}

theorem CacheState.From.committed (h : s.From pg jsonb targetMonth saves) :
    s.committed.From pg jsonb targetMonth saves := by
  cases hdraft : s.draft with
  | none =>
      rw [CacheState.committed, hdraft]
      exact h
  | some written =>
      obtain ⟨day, record⟩ := written
      obtain ⟨hcast, input, hinput, hwrites⟩ := h.draft day record hdraft
      rw [CacheState.committed, hdraft]
      refine ⟨by rintro _ _ ⟨⟩, ?_⟩
      rintro _ ⟨⟩
      refine ⟨?_, input, hinput, day, hwrites⟩
      rw [CacheState.row, hcast, Option.bind_some, CacheState.visible, hdraft]
      exact Function.update_self ..

/-- One call keeps it. -/
theorem CacheState.Serves.from {op : ApiQuery} {answer : Except Thrown op.Answer}
    (h : CacheState.Serves pg jsonb s op answer s')
    (hfrom : s.From pg jsonb targetMonth saves)
    (hsaves : ∀ input, savedInput? ⟨op, answer⟩ = some input →
      input ∈ saves ∧ input.targetMonth = targetMonth) :
    s'.From pg jsonb targetMonth saves := by
  cases h with
  | selected _ | rejected | other _ _ _ _ => exact hfrom
  | upserted hwrites =>
      obtain ⟨hinput, hmonth⟩ := hsaves _ rfl
      refine ⟨?_, hfrom.kept⟩
      rintro _ _ ⟨⟩
      refine ⟨?_, _, hinput, hwrites⟩
      cases hwrites with
      | mk cast _ _ => exact hmonth ▸ cast
  | committed => exact hfrom.committed
  | rolledBack => exact ⟨by rintro _ _ ⟨⟩, hfrom.kept⟩

theorem CacheState.Rely.from (h : s.Rely pg targetMonth s')
    (hfrom : s.From pg jsonb targetMonth saves) :
    s'.From pg jsonb targetMonth saves := by
  obtain ⟨hdraft, hkept, hrow⟩ := h
  refine ⟨fun day record hsome => hfrom.draft day record (hdraft ▸ hsome), ?_⟩
  intro record hsome
  rw [hkept] at hsome
  obtain ⟨hthere, hinput⟩ := hfrom.kept record hsome
  exact ⟨(hrow (Option.isSome_of_eq_some hsome)).trans hthere, hinput⟩

/-- A whole run keeps it. -/
theorem served_from (h : Served (CacheState.Rely pg targetMonth)
      (CacheState.Serves pg jsonb) s trace s')
    (hfrom : s.From pg jsonb targetMonth saves)
    (hsaves : ∀ input ∈ savedInputs trace,
      input ∈ saves ∧ input.targetMonth = targetMonth) :
    s'.From pg jsonb targetMonth saves := by
  induction h with
  | nil => exact hfrom
  | cons hrely hserves _ ih =>
      apply ih (hserves.from (hrely.from hfrom) ?_) ?_
      · intro input hinput
        apply hsaves
        exact List.mem_filterMap.mpr ⟨_, List.mem_cons_self .., hinput⟩
      · intro input hinput
        apply hsaves
        obtain ⟨answered, hmem, hsome⟩ := List.mem_filterMap.mp hinput
        exact List.mem_filterMap.mpr ⟨answered, List.mem_cons_of_mem _ hmem, hsome⟩

end Committed

section Lookups

variable {options : MonthlyInsightsServiceOptions} {year month : Int}
variable {ranges : MonthlyAnalyticsRanges}
variable {aggregates : MonthlyAnalyticsAggregates} {trace : ApiTrace}
variable {result : Except Thrown MonthlyInsightsResponse}

/-- Whatever is saved, is saved under the lookup of the request. -/
def ApiQuery.SavesUnder (lookup : MonthlyInsightsCacheLookup) : ApiQuery → Prop
  | client (.upsertMonthlyInsights input) =>
      input.toMonthlyInsightsCacheLookup = lookup
  | _ => True

theorem ApiQuery.Quiet.savesUnder {op : ApiQuery} (h : op.Quiet)
    (lookup : MonthlyInsightsCacheLookup) : op.SavesUnder lookup := by
  cases op with
  | client q =>
      cases q with
      | upsertMonthlyInsights _ => exact h.elim
      | _ => trivial
  | _ => trivial

/-- The lock adds only quiet calls to its callback. -/
theorem calls_withMonthlyInsightsGenerationLock {P : ApiQuery → Prop}
    (hquiet : ∀ op : ApiQuery, op.Quiet → P op) {α : Type} {lockKey : JsString}
    {callback : MonthlyInsightsCacheSession → ApiProgram α}
    (hcallback : (callback StatementRepository.lockedCache).Calls P) :
    (StatementRepository.withMonthlyInsightsGenerationLock lockKey
      callback).Calls P := by
  apply (quiet_connect.mono hquiet).bind
  intro _
  apply Proc.Calls.andThen
  · apply ((quiet_query (q := .begin) (by trivial)).mono hquiet).bind
    intro _
    apply ((quiet_query (q := .advisoryLock lockKey) (by trivial)).mono hquiet).bind
    intro _
    apply hcallback.bind
    intro result
    apply ((quiet_query (q := .commit) (by trivial)).mono hquiet).bind
    intro _
    trivial
  · intro called
    cases called with
    | ok result =>
        apply (quiet_release.mono hquiet).andThen
        intro _
        trivial
    | error error => exact quiet_rollbackAndRelease.mono hquiet

theorem savesUnder_generateInsights {input : CompactInsightsInput}
    {lookup : MonthlyInsightsCacheLookup} :
    (generateInsights year month input lookup
      StatementRepository.lockedCache).Calls (ApiQuery.SavesUnder lookup) :=
  calls_generateInsights trivial trivial trivial fun _ _ => rfl

theorem savesUnder_insightsOfAggregates :
    (insightsOfAggregates options year month ranges aggregates).Calls
      (ApiQuery.SavesUnder (insightsLookup options ranges
        (insightsInput year month aggregates))) := by
  have hquiet : ∀ op : ApiQuery, op.Quiet → op.SavesUnder _ :=
    fun _ h => h.savesUnder (insightsLookup options ranges
      (insightsInput year month aggregates))
  apply (quiet_findMonthlyInsights.mono hquiet).bind
  intro cached
  apply Proc.Calls.bind (by trivial)
  intro found
  cases found with
  | some response => trivial
  | none =>
      apply calls_withMonthlyInsightsGenerationLock hquiet
      exact savesUnder_generateInsights

/-- So is every save of a run. -/
theorem run_saved_lookup
    (h : (insightsOfAggregates options year month ranges aggregates).Run trace
      result) :
    ∀ input ∈ savedInputs trace, input.toMonthlyInsightsCacheLookup =
      insightsLookup options ranges (insightsInput year month aggregates) := by
  intro input hinput
  obtain ⟨⟨op, answer⟩, hmem, hsome⟩ := List.mem_filterMap.mp hinput
  have hunder := h.calls savesUnder_insightsOfAggregates _ hmem
  cases op with
  | client q =>
      cases q with
      | upsertMonthlyInsights saved =>
          cases hsome
          exact hunder
      | _ => cases hsome
  | _ => cases hsome

/-- The run settles with the error of one of its calls. -/
def Rejected {α : Type} (trace : ApiTrace) (result : Except Thrown α) : Prop :=
  ∃ answered ∈ trace, ∃ error, answered.answer = .error error ∧
    result = .error error

/-- A `finally` block that only releases the client. -/
theorem run_ensure_release {α : Type} {p : ApiProgram α}
    {settled : Except Thrown α}
    (h : (p.ensure (release false)).Run trace settled) :
    Rejected trace settled ∨ ∃ before, p.Run before settled ∧
      trace = before ++ [⟨.release false, .ok ()⟩] := by
  obtain ⟨before, middle, after, rfl, hp, hrest⟩ := Proc.run_andThen_iff.mp h
  obtain ⟨released, last, rfl, hdone⟩ := Proc.run_await_iff.mp hrest
  cases released with
  | ok _ =>
      obtain ⟨rfl, rfl⟩ := Proc.run_settled_iff.mp hdone
      exact .inr ⟨before, hp, rfl⟩
  | error error =>
      obtain ⟨rfl, rfl⟩ := Proc.run_settled_iff.mp hdone
      refine .inl ⟨⟨.release false, .error error⟩, ?_, error, rfl, rfl⟩
      exact List.mem_append_right _ (List.mem_singleton_self _)

theorem run_findMonthlyInsights {lookup : MonthlyInsightsCacheLookup}
    {found : Except Thrown (Option MonthlyInsightsCacheRecord)}
    (h : (StatementRepository.findMonthlyInsights lookup).Run trace found) :
    Rejected trace found ∨ ∃ rows, found = .ok rows.head? ∧
      trace = [⟨.connect, .ok ()⟩,
        ⟨.client (.selectMonthlyInsights lookup), .ok rows⟩,
        ⟨.release false, .ok ()⟩] := by
  rcases Proc.run_bind h with ⟨error, rfl, hconnect⟩ |
    ⟨_, connected, rest, rfl, hconnect, hensure⟩
  · obtain rfl := Proc.run_call_iff.mp hconnect
    exact .inl ⟨_, List.mem_singleton_self _, error, rfl, rfl⟩
  obtain rfl := Proc.run_call_iff.mp hconnect
  rcases run_ensure_release hensure with ⟨answered, hmem, hrejected⟩ |
    ⟨before, hselect, rfl⟩
  · exact .inl ⟨answered, List.mem_append_right _ hmem, hrejected⟩
  rcases Proc.run_bind hselect with ⟨error, rfl, hquery⟩ |
    ⟨rows, selected, last, rfl, hquery, hreturn⟩
  · obtain rfl := Proc.run_call_iff.mp hquery
    exact .inl ⟨⟨.client (.selectMonthlyInsights lookup), .error error⟩,
      by simp, error, rfl, rfl⟩
  · obtain rfl := Proc.run_call_iff.mp hquery
    obtain ⟨rfl, rfl⟩ := Proc.run_settled_iff.mp hreturn
    exact .inr ⟨rows, rfl, rfl⟩

end Lookups

section Hit

variable {pg : DateCast} {jsonb : Jsonb} {s s' : CacheState} {trace : ApiTrace}
variable {lookup : MonthlyInsightsCacheLookup}
variable {record : MonthlyInsightsCacheRecord}

/-- The row that the request before has left. -/
structure CacheState.Holds (pg : DateCast) (targetMonth : JsString)
    (record : MonthlyInsightsCacheRecord) (s : CacheState) : Prop where
  draft : s.draft = none
  kept : s.kept = some record
  row : s.row pg targetMonth = some record

theorem CacheState.Rely.holds {targetMonth : JsString}
    (h : s.Rely pg targetMonth s') (hholds : s.Holds pg targetMonth record) :
    s'.Holds pg targetMonth record := by
  obtain ⟨hdraft, hkept, hrow⟩ := h
  refine ⟨hdraft.trans hholds.draft, hkept.trans hholds.kept, ?_⟩
  exact (hrow (Option.isSome_of_eq_some hholds.kept)).trans hholds.row

/-- A matching row is what the SELECT answers. -/
theorem CacheState.Holds.select (h : s.Holds pg lookup.targetMonth record)
    (hmatches : record.matches lookup = true) :
    s.visible.select pg lookup = some [record] := by
  obtain ⟨day, hcast, hrow⟩ := Option.bind_eq_some_iff.mp h.row
  rw [InsightsTable.select, hcast, Option.bind_eq_bind, Option.bind_some,
    CacheState.visible, h.draft]
  change some ((s.table day).filter _).toList = _
  rw [hrow, Option.filter_some, if_pos hmatches]
  rfl

/-- A lookup of the month finds the row. -/
theorem served_findMonthlyInsights {rows : List MonthlyInsightsCacheRecord}
    (h : Served (CacheState.Rely pg lookup.targetMonth)
      (CacheState.Serves pg jsonb) s
      [⟨.connect, .ok ()⟩, ⟨.client (.selectMonthlyInsights lookup), .ok rows⟩,
        ⟨.release false, .ok ()⟩] s')
    (hholds : s.Holds pg lookup.targetMonth record)
    (hmatches : record.matches lookup = true) : rows = [record] := by
  obtain ⟨s₁, s₂, hrely, hconnect, h⟩ := served_cons_iff.mp h
  obtain ⟨s₃, s₄, hrely', hselect, _⟩ := served_cons_iff.mp h
  have hholds₁ := hrely.holds hholds
  have hsame : s₂ = s₁ := by
    cases hconnect
    rfl
  subst hsame
  have hholds₃ := hrely'.holds hholds₁
  cases hselect with
  | selected hselect =>
      rw [hholds₃.select hmatches] at hselect
      exact (Option.some.inj hselect).symm
  | other hnot _ _ _ => exact absurd rfl (hnot lookup)

theorem getCachedResponse_eq_ok {year month time : Int}
    {input : CompactInsightsInput} {document : InsightsDocument}
    (hparse : parseAndValidateInsights record.insights input = .ok document)
    (htime : record.generatedAt = some time) :
    getCachedResponse year month input (some record) =
      .ok (some ⟨year, month, document.insights, time, true⟩) := by
  simp only [getCachedResponse, hparse, htime, bind, Except.bind, toResponse,
    toISOString, pure, Except.pure]

/-- A request that finds a valid row answers from it, or fails with one of its
calls; the analyzer is not called. -/
theorem run_hit {options : MonthlyInsightsServiceOptions} {year month time : Int}
    {ranges : MonthlyAnalyticsRanges} {aggregates : MonthlyAnalyticsAggregates}
    {result : Except Thrown MonthlyInsightsResponse}
    {document : InsightsDocument}
    (hrun : (insightsOfAggregates options year month ranges aggregates).Run trace
      result)
    (hlookup : lookup = insightsLookup options ranges
      (insightsInput year month aggregates))
    (h : Served (CacheState.Rely pg lookup.targetMonth)
      (CacheState.Serves pg jsonb) s trace s')
    (hholds : s.Holds pg lookup.targetMonth record)
    (hmatches : record.matches lookup = true)
    (hparse : parseAndValidateInsights record.insights
      (insightsInput year month aggregates) = .ok document)
    (htime : record.generatedAt = some time) :
    (∀ answered ∈ trace, ∀ input, answered.op ≠ .analyze input) ∧
      (Rejected trace result ∨
        result = .ok ⟨year, month, document.insights, time, true⟩) := by
  subst hlookup
  rcases Proc.run_bind hrun with ⟨error, rfl, hfind⟩ |
    ⟨cached, before, after, rfl, hfind, hrest⟩
  · refine ⟨fun answered hmem input hop => ?_, ?_⟩
    · have hquiet := hfind.calls quiet_findMonthlyInsights answered hmem
      rw [hop] at hquiet
      exact hquiet
    · rcases run_findMonthlyInsights hfind with
        ⟨answered, hmem, error', hanswer, herror⟩ | ⟨_, hok, _⟩
      · cases herror
        exact .inl ⟨answered, hmem, _, hanswer, rfl⟩
      · cases hok
  rcases run_findMonthlyInsights hfind with ⟨_, _, _, _, herror⟩ |
    ⟨rows, hcached, rfl⟩
  · cases herror
  obtain ⟨middle, hfound, _⟩ := served_append_iff.mp h
  obtain rfl := served_findMonthlyInsights hfound hholds hmatches
  cases hcached
  rw [List.head?_cons, getCachedResponse_eq_ok hparse htime] at hrest
  obtain ⟨rfl, rfl⟩ := Proc.run_settled_iff.mp hrest
  refine ⟨fun answered hmem input hop => ?_, .inr rfl⟩
  have hquiet := hfind.calls quiet_findMonthlyInsights answered
    (by simpa using hmem)
  rw [hop] at hquiet
  exact hquiet

end Hit

/-- A request of the month: it reads these aggregates in one snapshot of the
tables, and its further calls are served by the cache. -/
def Requests (pg : DateCast) (jsonb : Jsonb)
    (options : MonthlyInsightsServiceOptions) (year month : Int)
    (ranges : MonthlyAnalyticsRanges) (s : CacheState)
    (aggregates : MonthlyAnalyticsAggregates) (calls : ApiTrace)
    (result : Except Thrown MonthlyInsightsResponse) (s' : CacheState) : Prop :=
  ∃ before left history reading reading',
    (getMonthlyInsights options year month).Run (before ++ calls) result ∧
    (StatementRepository.findMonthlyAnalytics ranges).Run before
      (.ok aggregates) ∧
    Served SnapshotState.Rely (SnapshotState.Serves pg left history) reading
      before reading' ∧
    Served (CacheState.Rely pg ranges.current.start)
      (CacheState.Serves pg jsonb) s calls s'

section Requests

variable {pg : DateCast} {jsonb : Jsonb} {s s' : CacheState} {calls : ApiTrace}
variable {options : MonthlyInsightsServiceOptions} {year month : Int}
variable {ranges : MonthlyAnalyticsRanges}
variable {aggregates : MonthlyAnalyticsAggregates}
variable {result : Except Thrown MonthlyInsightsResponse}

/-- What a request does once it has read the aggregates. -/
theorem Requests.run (hranges : getMonthlyAnalyticsRanges year month = .ok ranges)
    (h : Requests pg jsonb options year month ranges s aggregates calls result
      s') :
    (insightsOfAggregates options year month ranges aggregates).Run calls
      result := by
  obtain ⟨before, _, _, _, _, hrun, hfind, _⟩ := h
  rw [getMonthlyInsights_eq, hranges] at hrun
  change (StatementRepository.findMonthlyAnalytics ranges >>= _).Run _ _ at hrun
  obtain ⟨before', middle, after, htrace, hfind', hrest⟩ :=
    Proc.run_andThen_iff.mp hrun
  obtain ⟨rfl, rfl, rfl⟩ := hfind.unique hfind' htrace
  exact hrest

/-- The names in the aggregates are distinct. -/
theorem Requests.conserves (h : Requests pg jsonb options year month ranges s
    aggregates calls result s') :
    aggregates.current.Conserves ∧ aggregates.previous.Conserves := by
  obtain ⟨_, _, _, _, _, _, hfind, hserved, _⟩ := h
  obtain ⟨_, _, _, _, _, _, hcurrent, hprevious⟩ :=
    served_findMonthlyAnalytics hfind hserved
  exact ⟨hcurrent.conserves, hprevious.conserves⟩

/-- What a request has committed: a document that it has validated, under its
own lookup, and which is still in the table. -/
theorem Requests.saved (hranges : getMonthlyAnalyticsRanges year month = .ok ranges)
    (h : Requests pg jsonb options year month ranges s aggregates calls result s')
    (hdraft : s.draft = none) (hkept : s.kept = none)
    {record : MonthlyInsightsCacheRecord} (hrecord : s'.kept = some record) :
    s'.row pg ranges.current.start = some record ∧
      ∃ input ∈ savedInputs calls, ∃ day, input.Writes pg jsonb day record ∧
        input.toMonthlyInsightsCacheLookup = insightsLookup options ranges
          (insightsInput year month aggregates) ∧
        ∃ raw, parseAndValidateInsights raw (insightsInput year month aggregates) =
          .ok input.insights ∧
          ∀ response, result = .ok response → ∃ time,
            input.generatedAt = some time ∧
              response = ⟨year, month, input.insights.insights, time, false⟩ := by
  have hrun := h.run hranges
  have hlookup := run_saved_lookup hrun
  obtain ⟨_, _, _, _, _, _, _, _, hserved⟩ := h
  have hfrom : s.From pg jsonb ranges.current.start (savedInputs calls) := by
    refine ⟨fun _ _ hsome => ?_, fun _ hsome => ?_⟩
    · rw [hdraft] at hsome
      cases hsome
    · rw [hkept] at hsome
      cases hsome
  have hfrom' := served_from hserved hfrom fun input hinput =>
    ⟨hinput, congrArg MonthlyInsightsCacheLookup.targetMonth (hlookup input hinput)⟩
  obtain ⟨hrow, input, hinput, day, hwrites⟩ := hfrom'.kept record hrecord
  obtain ⟨generated, _, hparse, hreturned⟩ :=
    (run_insightsOfAggregates hrun).saved input hinput
  exact ⟨hrow, input, hinput, day, hwrites, hlookup input hinput, _, hparse,
    hreturned⟩

end Requests

/-- A saved document stays a hit.  What a request has saved and committed, every
later request of the same month returns, if the aggregates are the same up to
their order and no other document was saved in between: it calls no analyzer,
and it returns the same insights with the time of their generation, or fails
with one of its own calls. -/
theorem saved_insights_stay_cached (pg : DateCast) (jsonb : Jsonb)
    (options : MonthlyInsightsServiceOptions) (year month : Int)
    (ranges : MonthlyAnalyticsRanges) (s s₁ s₂ s₃ : CacheState)
    (aggregates aggregates' : MonthlyAnalyticsAggregates)
    (calls calls' : ApiTrace) (result result' : Except Thrown MonthlyInsightsResponse)
    (record : MonthlyInsightsCacheRecord)
    (hranges : getMonthlyAnalyticsRanges year month = .ok ranges)
    (hfirst : Requests pg jsonb options year month ranges s aggregates calls
      result s₁)
    (hdraft : s.draft = none) (hkept : s.kept = none)
    (hrecord : s₁.kept = some record)
    (hbetween : s₂.draft = none ∧ s₂.kept = s₁.kept ∧
      s₂.row pg ranges.current.start = s₁.row pg ranges.current.start)
    (hsame : aggregates.Same aggregates')
    (hsecond : Requests pg jsonb options year month ranges s₂ aggregates' calls'
      result' s₃) :
    ∃ saved ∈ savedInputs calls, ∃ time, saved.generatedAt = some time ∧
      (∀ response, result = .ok response →
        response = ⟨year, month, saved.insights.insights, time, false⟩) ∧
      (∀ answered ∈ calls', ∀ input, answered.op ≠ .analyze input) ∧
      (Rejected calls' result' ∨
        result' = .ok ⟨year, month, saved.insights.insights, time, true⟩) := by
  obtain ⟨hrow, saved, hsaved, day, hwrites, hlookup, raw, hparse, hreturned⟩ :=
    hfirst.saved hranges hdraft hkept hrecord
  obtain ⟨hcurrent, hprevious⟩ := hfirst.conserves
  have hinput : insightsInput year month aggregates' =
      insightsInput year month aggregates := by
    rw [insightsInput, buildMonthlyAnalytics_eq_of_same hcurrent hprevious hsame]
    rfl
  obtain ⟨hdraft', hkept', hrow'⟩ := hbetween
  have hrun := hsecond.run hranges
  obtain ⟨_, _, _, _, _, _, _, _, hserved⟩ := hsecond
  cases hwrites with
  | @mk stored time _ hstore htime =>
      have hstored := parseAndValidateInsights_again hparse
        (jsonb.equal _ _ hstore)
      have hmatches : MonthlyInsightsCacheRecord.matches
          ⟨saved.toMonthlyInsightsCacheLookup, stored, some time⟩
          (insightsLookup options ranges (insightsInput year month aggregates')) =
            true := by
        rw [hinput, ← hlookup]
        simp [MonthlyInsightsCacheRecord.matches]
      obtain ⟨hquiet, hresult⟩ := run_hit hrun rfl hserved
        ⟨hdraft', hkept'.trans hrecord, hrow'.trans hrow⟩ hmatches
        (hinput ▸ hstored) rfl
      refine ⟨saved, hsaved, time, htime, fun response hresponse => ?_, hquiet,
        hresult⟩
      obtain ⟨time', htime', rfl⟩ := hreturned response hresponse
      cases htime.symm.trans htime'
      rfl

section Sample

/-- A column that returns the JSON values as they are. -/
def plainJsonb : Jsonb where
  store value := if value.isJson then some value else none
  equal value stored h := by
    rw [Option.ite_none_right_eq_some, Option.some.injEq] at h
    obtain ⟨hjson, rfl⟩ := h
    exact value.jsonEqual_refl hjson

def cachedRanges : MonthlyAnalyticsRanges :=
  ⟨⟨monthStartText 24315, monthStartText 24316⟩,
    ⟨monthStartText 24314, monthStartText 24315⟩⟩

theorem cachedRanges_eq :
    getMonthlyAnalyticsRanges 2026 4 = .ok cachedRanges :=
  getMonthlyAnalyticsRanges_eq (by decide) (by decide) (by decide)
    (show 24314 + 1 = 12 * 2026 + (4 - 1) by decide)

def cachedInput : CompactInsightsInput :=
  insightsInput 2026 4 sampleAggregates

def cachedLookup : MonthlyInsightsCacheLookup :=
  insightsLookup sampleOptions cachedRanges cachedInput

def cachedSave : SaveMonthlyInsightsInput :=
  { cachedLookup with insights := ⟨[sampleInsight]⟩, generatedAt := some 5 }

def cachedRecord : MonthlyInsightsCacheRecord :=
  { cachedLookup with
    insights := InsightsDocument.toJson ⟨[sampleInsight]⟩
    generatedAt := some 5 }

/-- Two misses, a generation and a save. -/
def missCalls : ApiTrace :=
  [⟨.connect, .ok ()⟩, ⟨.client (.selectMonthlyInsights cachedLookup), .ok []⟩,
    ⟨.release false, .ok ()⟩, ⟨.connect, .ok ()⟩, ⟨.client .begin, .ok ()⟩,
    ⟨.client (.advisoryLock (insightsLockKey cachedLookup)), .ok ()⟩,
    ⟨.client (.selectMonthlyInsights cachedLookup), .ok []⟩,
    ⟨.analyze cachedInput, .ok sampleGenerated⟩, ⟨.now, .ok (some 5)⟩,
    ⟨.client (.upsertMonthlyInsights cachedSave), .ok ()⟩,
    ⟨.client .commit, .ok ()⟩, ⟨.release false, .ok ()⟩]

/-- A hit. -/
def hitCalls : ApiTrace :=
  [⟨.connect, .ok ()⟩,
    ⟨.client (.selectMonthlyInsights cachedLookup), .ok [cachedRecord]⟩,
    ⟨.release false, .ok ()⟩]

def keptTable : InsightsTable :=
  Function.update (fun _ => none) (monthStart 24315) (some cachedRecord)

theorem run_missCalls :
    (insightsOfAggregates sampleOptions 2026 4 cachedRanges
      sampleAggregates).Run missCalls
        (.ok ⟨2026, 4, [sampleInsight], 5, false⟩) := by
  repeat' apply Proc.Run.await
  exact .settled

theorem run_hitCalls :
    (insightsOfAggregates sampleOptions 2026 4 cachedRanges
      sampleAggregates).Run hitCalls
        (.ok ⟨2026, 4, [sampleInsight], 5, true⟩) := by
  repeat' apply Proc.Run.await
  exact .settled

theorem rely_refl (s : CacheState) : s.Rely isoCast cachedRanges.current.start s :=
  ⟨rfl, rfl, fun _ => rfl⟩

theorem cast_april : isoCast.cast cachedLookup.targetMonth =
    some (monthStart 24315) :=
  isoCast.iso _ _ (dateParts_monthStartText (by decide) (by decide))
    (isCalendarDay_monthStart 24315 (by decide))

/-- What the SELECT answers where the request has written nothing. -/
theorem select_april (s : CacheState) (hdraft : s.draft = none) :
    s.visible.select isoCast cachedLookup =
      some ((s.table (monthStart 24315)).filter fun record =>
        record.matches cachedLookup).toList := by
  rw [InsightsTable.select, cast_april, CacheState.visible, hdraft]
  rfl

theorem writes_cachedSave : cachedSave.Writes isoCast plainJsonb
    (monthStart 24315) cachedRecord :=
  .mk cast_april rfl rfl

theorem served_missCalls : Served
    (CacheState.Rely isoCast cachedRanges.current.start)
    (CacheState.Serves isoCast plainJsonb) ⟨fun _ => none, none, none⟩ missCalls
    ⟨keptTable, none, some cachedRecord⟩ := by
  have hselect := select_april ⟨fun _ => none, none, none⟩ rfl
  refine .cons (rely_refl _) (.other nofun nofun nofun nofun) ?_
  refine .cons (rely_refl _) (.selected hselect) ?_
  refine .cons (rely_refl _) (.other nofun nofun nofun nofun) ?_
  refine .cons (rely_refl _) (.other nofun nofun nofun nofun) ?_
  refine .cons (rely_refl _) (.other nofun nofun nofun nofun) ?_
  refine .cons (rely_refl _) (.other nofun nofun nofun nofun) ?_
  refine .cons (rely_refl _) (.selected hselect) ?_
  refine .cons (rely_refl _) (.other nofun nofun nofun nofun) ?_
  refine .cons (rely_refl _) (.other nofun nofun nofun nofun) ?_
  refine .cons (rely_refl _) (.upserted writes_cachedSave) ?_
  refine .cons (rely_refl _) .committed ?_
  exact .cons (rely_refl _) (.other nofun nofun nofun nofun) .nil

theorem served_hitCalls : Served
    (CacheState.Rely isoCast cachedRanges.current.start)
    (CacheState.Serves isoCast plainJsonb) ⟨keptTable, none, some cachedRecord⟩
    hitCalls ⟨keptTable, none, some cachedRecord⟩ := by
  refine .cons (rely_refl _) (.other nofun nofun nofun nofun) ?_
  refine .cons (rely_refl _) (.selected ?_) ?_
  · have hmatches : cachedRecord.matches cachedLookup = true := by
      simp [MonthlyInsightsCacheRecord.matches, cachedRecord]
    rw [select_april _ rfl]
    change some (Option.filter _ (keptTable (monthStart 24315))).toList = _
    rw [keptTable, Function.update_self, Option.filter_some, if_pos hmatches]
    rfl
  exact .cons (rely_refl _) (.other nofun nofun nofun nofun) .nil

theorem run_april {calls : ApiTrace} {result : Except Thrown MonthlyInsightsResponse}
    (hrun : (insightsOfAggregates sampleOptions 2026 4 cachedRanges
      sampleAggregates).Run calls result) :
    (StatementRepository.findMonthlyAnalytics cachedRanges).Run
        (sampleCall 24314) (.ok sampleAggregates) ∧
      (getMonthlyInsights sampleOptions 2026 4).Run (sampleCall 24314 ++ calls)
        result := by
  have hfind : (StatementRepository.findMonthlyAnalytics cachedRanges).Run
      (sampleCall 24314) (.ok sampleAggregates) := by
    repeat' apply Proc.Run.await
    exact .settled
  refine ⟨hfind, ?_⟩
  rw [getMonthlyInsights_eq, cachedRanges_eq]
  change (StatementRepository.findMonthlyAnalytics cachedRanges >>= _).Run _ _
  exact Proc.run_andThen_iff.mpr ⟨_, _, _, rfl, hfind, hrun⟩

theorem requests_april {s s' : CacheState} {calls : ApiTrace}
    {result : Except Thrown MonthlyInsightsResponse}
    (hrun : (insightsOfAggregates sampleOptions 2026 4 cachedRanges
      sampleAggregates).Run calls result)
    (hserved : Served (CacheState.Rely isoCast cachedRanges.current.start)
      (CacheState.Serves isoCast plainJsonb) s calls s') :
    Requests isoCast plainJsonb sampleOptions 2026 4 cachedRanges s
      sampleAggregates calls result s' := by
  obtain ⟨hfind, hrequest⟩ := run_april hrun
  exact ⟨sampleCall 24314, fun _ => False, _, _, _, hrequest, hfind,
    served_sampleCall (.inr rfl), hserved⟩

theorem saved_insights_stay_cached_hitCalls :
    ∃ saved ∈ savedInputs missCalls, saved.generatedAt = some 5 ∧
      ∀ answered ∈ hitCalls, ∀ input, answered.op ≠ .analyze input := by
  obtain ⟨saved, hsaved, time, htime, hreturned, hquiet, _⟩ :=
    saved_insights_stay_cached isoCast plainJsonb sampleOptions 2026 4 cachedRanges
      _ _ _ _ _ _ _ _ _ _ _ cachedRanges_eq
      (requests_april run_missCalls served_missCalls) rfl rfl rfl ⟨rfl, rfl, rfl⟩
      ⟨⟨rfl, rfl, .refl _, .refl _⟩, rfl, rfl, .refl _, .refl _⟩
      (requests_april run_hitCalls served_hitCalls)
  have hsame := congrArg MonthlyInsightsResponse.generatedAt (hreturned _ rfl)
  exact ⟨saved, hsaved, htime.trans (congrArg some hsame.symm), hquiet⟩

end Sample

end StatementAnalyzer
