/-
The insights of a month along a run of the service: what they name and compare
are sums of the lines that the COMPLETED statements held at one moment while the
request ran, and while nothing of the month changes all requests agree.
-/
import StatementAnalyzer.Insights.OneGeneration
import StatementAnalyzer.Service.Reports

namespace StatementAnalyzer

open Async Relational

namespace Tables

variable {db : Tables} {days : CalendarDay × CalendarDay}
variable {key : CreateTransactionInput → JsString} {name : JsString}

/-- The sum of the lines of that name. -/
def spent (key : CreateTransactionInput → JsString) (db : Tables)
    (days : CalendarDay × CalendarDay) (name : JsString) : Int :=
  amounts (fiber (fun row : JoinedRow => key row.2) (db.source days) name)

/-- Some line of that name is dated in these days, and it is, in UTF-8, one of the
list that a COMPLETED statement was filed with. -/
def Billed (key : CreateTransactionInput → JsString) (db : Tables)
    (days : CalendarDay × CalendarDay) (name : JsString) : Prop :=
  ∃ id line lines, (db.statements id).completed = true ∧
    (db.statements id).Filed lines ∧
    line ∈ lines.map CreateTransactionInput.row ∧
    dated days (id, line) = true ∧ key line = name

/-- The lines of that name add up to more than in the month before, where they
did not cancel out. -/
structure Grown (key : CreateTransactionInput → JsString) (db : Tables)
    (month : Nat) (name : JsString) : Prop where
  billed : db.Billed key (monthDays month) name
  before : db.Billed key (monthDays (month - 1)) name
  ne_zero : db.spent key (monthDays (month - 1)) name ≠ 0
  lt : db.spent key (monthDays (month - 1)) name <
    db.spent key (monthDays month) name

/-- A bucket of a report holds the sum of its lines. -/
theorem bucket_spent {buckets : List AnalyticsAggregateBucket}
    (h : buckets.Perm ((db.buckets key days).map
      AnalyticsBucketDatabaseRow.bucket)) {bucket : AnalyticsAggregateBucket}
    (hbucket : bucket ∈ buckets) :
    bucket.amount = db.spent key days bucket.name ∧
      ∃ row ∈ db.source days, key row.2 = bucket.name := by
  obtain ⟨_, hrow, rfl⟩ := List.mem_map.mp (h.mem_iff.mp hbucket)
  obtain ⟨_, hgroup, rfl⟩ := List.mem_map.mp hrow
  obtain ⟨name, hname, rfl⟩ := List.mem_map.mp hgroup
  obtain ⟨row, hsource, hkey⟩ := List.mem_map.mp (List.mem_dedup.mp hname)
  exact ⟨rfl, row, hsource, hkey⟩

end Tables

/-- What an insight says, in terms of the lines of the statements. -/
def Insight.Borne (db : Tables) (month : Nat) : Insight → Prop
  | categoryIncrease _ category =>
      db.Grown CreateTransactionInput.category month category
  | merchantIncrease _ merchant =>
      db.Grown CreateTransactionInput.merchantName month merchant
  | notableSpending _ category merchant =>
      (∀ name, category = some name →
        db.Billed CreateTransactionInput.category (monthDays month) name) ∧
      ∀ name, merchant = some name →
        db.Billed CreateTransactionInput.merchantName (monthDays month) name

section Borne

variable {run : PooledRun} {history : Nat → Tables} {moment month : Nat}
variable {days : CalendarDay × CalendarDay}
variable {key : CreateTransactionInput → JsString} {name : JsString}

theorem ServiceRun.billed (hrun : ServiceRun run history)
    (hrolls : (run moment).world.2.RollsBack) {row : JoinedRow}
    (hrow : row ∈ (history moment).source days) :
    (history moment).Billed key days (key row.2) := by
  obtain ⟨id, line⟩ := row
  obtain ⟨hjoined, hdated⟩ := List.mem_filter.mp hrow
  obtain ⟨hcompleted, hline⟩ := Tables.mem_joined_iff.mp hjoined
  rw [Tables.completed, hrun.tables] at hcompleted
  obtain ⟨lines, hfiled⟩ := service_filed (hrun.reached hrolls) hcompleted
  rw [Config.alone_world] at hfiled
  rw [hrun.tables, hfiled.stored] at hline
  refine ⟨id, line, lines, ?_, ?_, hline, hdated, rfl⟩
  · rw [hrun.tables]
    exact hcompleted
  · rw [hrun.tables]
    exact hfiled

/-- A bucket of that name stands for lines of that name. -/
theorem ServiceRun.named (hrun : ServiceRun run history)
    (hrolls : (run moment).world.2.RollsBack)
    {buckets : List AnalyticsAggregateBucket}
    (hbuckets : buckets.Perm (((history moment).buckets key days).map
      AnalyticsBucketDatabaseRow.bucket)) (h : Named buckets name) :
    (history moment).Billed key days name := by
  obtain ⟨bucket, hbucket, rfl⟩ := h
  obtain ⟨_, row, hrow, hkey⟩ := Tables.bucket_spent hbuckets hbucket
  rw [← hkey]
  exact hrun.billed hrolls hrow

theorem ServiceRun.grown (hrun : ServiceRun run history)
    (hrolls : (run moment).world.2.RollsBack)
    {buckets previousBuckets : List AnalyticsAggregateBucket}
    (hbuckets : buckets.Perm (((history moment).buckets key
      (monthDays month)).map AnalyticsBucketDatabaseRow.bucket))
    (hprevious : previousBuckets.Perm (((history moment).buckets key
      (monthDays (month - 1))).map AnalyticsBucketDatabaseRow.bucket))
    (h : Increased buckets previousBuckets name) :
    (history moment).Grown key month name := by
  obtain ⟨bucket, hbucket, hname, previous, hmem, hname', hne, hlt⟩ := h
  obtain ⟨hamount, _⟩ := Tables.bucket_spent hbuckets hbucket
  obtain ⟨hamount', _⟩ := Tables.bucket_spent hprevious hmem
  rw [hname] at hamount
  rw [hname'] at hamount'
  exact ⟨hrun.named hrolls hbuckets ⟨bucket, hbucket, hname⟩,
    hrun.named hrolls hprevious ⟨previous, hmem, hname'⟩, hamount' ▸ hne,
    hamount ▸ hamount' ▸ hlt⟩

/-- What the two aggregates of one moment bear out, the statements bear out. -/
theorem ServiceRun.borne (hrun : ServiceRun run history)
    (hrolls : (run moment).world.2.RollsBack)
    {aggregates : MonthlyAnalyticsAggregates} {insight : Insight}
    (hcurrent : (history moment).Reports (monthDays month) aggregates.current)
    (hprevious : (history moment).Reports (monthDays (month - 1))
      aggregates.previous) (h : insight.Supported aggregates) :
    insight.Borne (history moment) month := by
  cases insight with
  | categoryIncrease _ category =>
      exact hrun.grown hrolls hcurrent.categories hprevious.categories h.2
  | merchantIncrease _ merchant =>
      exact hrun.grown hrolls hcurrent.merchants hprevious.merchants h.2
  | notableSpending _ category merchant =>
      exact ⟨fun name hname =>
          hrun.named hrolls hcurrent.categories (h.1 name hname),
        fun name hname =>
          hrun.named hrolls hcurrent.merchants (h.2 name hname)⟩

end Borne

/-- The calls that `findMonthlyAnalytics` can make. -/
def ApiQuery.isAnalytics : ApiQuery → Bool
  | connect | release _ => true
  | client .beginRepeatableRead | client .commit | client .rollback => true
  | client q => q.isSelect
  | _ => false

def ApiQuery.Analytics (op : ApiQuery) : Prop :=
  op.isAnalytics = true

theorem analytics_findMonthlyAnalytics {ranges : MonthlyAnalyticsRanges} :
    (StatementRepository.findMonthlyAnalytics ranges).Calls
      ApiQuery.Analytics := by
  have hcall : ∀ op : ApiQuery, op.Analytics →
      (Proc.call op : ApiProgram op.Answer).Calls ApiQuery.Analytics :=
    fun _ hop => Proc.Calls.call hop
  have haggregate : ∀ range, (StatementRepository.findMonthlyAggregate
      range).Calls ApiQuery.Analytics :=
    fun range => StatementRepository.calls_findMonthlyAggregate rfl rfl rfl
  apply (hcall .connect rfl).bind
  intro _
  apply Proc.Calls.ensure (Proc.Calls.orElse ?_ ?_) (hcall (.release false) rfl)
  · apply (hcall (.client .beginRepeatableRead) rfl).bind
    intro _
    apply (haggregate ranges.current).bind
    intro _
    apply (haggregate ranges.previous).bind
    intro _
    apply (hcall (.client .commit) rfl).bind
    intro _
    trivial
  · intro error
    apply (hcall (.client .rollback) rfl).andThen
    intro _
    trivial

/-- How the calls of a request for insights are served.  What the insights
table, the lock and the analyzer answer is left open. -/
inductive SnapshotState.Answers (pg : DateCast) (left : Nat → Prop)
    (history : Nat → Tables) :
    SnapshotState → (op : ApiQuery) → Except Thrown op.Answer →
      SnapshotState → Prop
  | analytics {w w' : SnapshotState} {op : ApiQuery}
      {answer : Except Thrown op.Answer}
      (h : SnapshotState.Serves pg left history w op answer w') :
      Answers pg left history w op answer w'
  | other {w : SnapshotState} {op : ApiQuery} {answer : Except Thrown op.Answer}
      (hop : op.isAnalytics = false) : Answers pg left history w op answer w

/-- A run of `GET /analytics/monthly/insights`, begun after `began` commits of
others and answered after `ended` of them. -/
structure GetsInsights (pg : DateCast) (left : Nat → Prop)
    (history : Nat → Tables)
    (options : MonthlyInsightsServiceOptions) (query : MonthlyAnalyticsQuery)
    (began ended : Nat) (trace : ApiTrace) (response : ApiResponse) :
    Prop where
  run : (getInsights options query).Run trace (.ok response)
  served : ∃ session, Served SnapshotState.Rely
    (SnapshotState.Answers pg left history) ⟨began, .closed⟩ trace ⟨ended, session⟩

section Endpoint

variable {run : PooledRun} {left : Nat → Prop} {history : Nat → Tables}
variable {pg : DateCast} {query : MonthlyAnalyticsQuery}
variable {options : MonthlyInsightsServiceOptions} {began ended : Nat}
variable {trace : ApiTrace} {response : ApiResponse}

theorem answers_later {w w' : SnapshotState} (h : Served SnapshotState.Rely
    (SnapshotState.Answers pg left history) w trace w') : w.now ≤ w'.now := by
  induction h with
  | nil => exact le_rfl
  | cons hrely hserves _ ih =>
      have hlater := hrely.1
      cases hserves with
      | analytics hserves =>
          have hsame := hserves.now
          omega
      | other _ => omega

/-- The endpoint answers as its service has settled. -/
theorem run_getInsights (h : (getInsights options query).Run trace (.ok response)) :
    ∃ result, (getMonthlyInsights options query.year query.month).Run trace
        result ∧
      (∀ insights, result = .ok insights → response = .insights insights) ∧
      ∀ error, result = .error error →
        response = .statement insightsUnavailable := by
  rw [getInsights, Proc.attempt_bind, Proc.run_andThen_iff] at h
  obtain ⟨before, result, after, rfl, hrun, hanswer⟩ := h
  cases result with
  | ok insights =>
      obtain ⟨rfl, hresponse⟩ := Proc.run_settled_iff.mp hanswer
      cases hresponse
      rw [List.append_nil]
      refine ⟨.ok insights, hrun, ?_, by rintro _ ⟨⟩⟩
      rintro _ ⟨⟩
      rfl
  | error error =>
      obtain ⟨rfl, hresponse⟩ := Proc.run_settled_iff.mp hanswer
      cases hresponse
      rw [List.append_nil]
      exact ⟨.error error, hrun, by rintro _ ⟨⟩, fun _ _ => rfl⟩

/-- What the aggregates of a request bear out, the statements bear out. -/
theorem ServiceRun.supported (hrun : ServiceRun run history) {moment : Nat}
    (hrolls : (run moment).world.2.RollsBack)
    {aggregates : MonthlyAnalyticsAggregates} {document : InsightsDocument}
    {raw : JsValue}
    (hcount : 0 ≤ aggregates.previous.transactionCount)
    (hcurrent : (history moment).Reports (monthDays query.index)
      aggregates.current)
    (hprevious : (history moment).Reports (monthDays (query.index - 1))
      aggregates.previous)
    (h : parseAndValidateInsights raw
      (insightsInput query.year query.month aggregates) = .ok document) :
    document.insights.length ≤ 5 ∧ ∀ insight ∈ document.insights,
      insight.Borne (history moment) query.index := by
  obtain ⟨hlength, hsupported⟩ := parseAndValidateInsights_supported hcount h
  exact ⟨hlength, fun insight hinsight =>
    hrun.borne hrolls hcurrent hprevious (hsupported insight hinsight)⟩

/-- The insights of the month are borne out by the statements.  A request for
them has failed without a save, or all that it has answered and all that it has
saved names and compares what the lines of COMPLETED statements add up to, at
one moment while it ran; whatever the model has written and whatever the table
of insights held before, as long as no ROLLBACK of `findMonthlyAnalytics` was
rejected with its session left inside. -/
theorem service_insights (hrun : ServiceRun run history)
    (hrolls : (run ended).world.2.RollsBack)
    (h : GetsInsights pg run.left history options query began ended trace
      response) :
    (response = .statement insightsUnavailable ∧ savedInputs trace = []) ∨
    ∃ moment, began ≤ moment ∧ moment ≤ ended ∧
      (∀ body, response = .insights body → body.insights.length ≤ 5 ∧
        ∀ insight ∈ body.insights,
          insight.Borne (history moment) query.index) ∧
      ∀ saved ∈ savedInputs trace, saved.insights.insights.length ≤ 5 ∧
        ∀ insight ∈ saved.insights.insights,
          insight.Borne (history moment) query.index := by
  obtain ⟨hgets, session, hserved⟩ := h
  obtain ⟨result, hsettled, hok, herror⟩ := run_getInsights hgets
  rcases run_getMonthlyInsights hsettled with ⟨⟨error, rfl⟩, hquiet⟩ |
    ⟨ranges, aggregates, before, after, hranges, rfl, hfind, hrest⟩
  · exact .inl ⟨herror error rfl, hquiet.saved⟩
  right
  obtain ⟨_, hsame, hmonth, hbefore⟩ := query.ranges
  cases hsame.symm.trans hranges
  obtain ⟨w, hread, hlast⟩ := served_append_iff.mp hserved
  have hanalytics : Served SnapshotState.Rely
      (SnapshotState.Serves pg run.left history) ⟨began, .closed⟩ before w := by
    apply hread.mono
    intro answered hanswered s₁ s₂ hanswers
    have hop : answered.op.isAnalytics = true :=
      hfind.calls analytics_findMonthlyAnalytics answered hanswered
    cases hanswers with
    | analytics hserves => exact hserves
    | other hother =>
        rw [hop] at hother
        cases hother
  obtain ⟨moment, days, days', hreadable, hdays, hdays', hcurrent, hprevious⟩ :=
    served_findMonthlyAnalytics hfind hanalytics
  obtain ⟨hbegan, hended⟩ :=
    hrun.readable hrolls (hreadable.mono le_rfl (answers_later hlast))
  have hrolls' := hrun.rollsBack hended hrolls
  cases (hmonth pg).symm.trans hdays
  cases (hbefore pg).symm.trans hdays'
  have hcount := run_findMonthlyAnalytics_count hfind
  have hvalidated : Validated query.year query.month
      (insightsInput query.year query.month aggregates) (before ++ after)
      result :=
    .prepend (hfind.calls quiet_findMonthlyAnalytics)
      (run_insightsOfAggregates hrest)
  refine ⟨moment, hbegan, hended, ?_, ?_⟩
  · rintro body rfl
    cases result with
    | error error => cases herror error rfl
    | ok insights =>
        cases hok insights rfl
        obtain ⟨_, document, hparsed, hdocument⟩ := hvalidated.returned body rfl
        rw [hdocument]
        exact hrun.supported hrolls' hcount hcurrent hprevious hparsed
  · intro saved hsaved
    obtain ⟨_, _, hparsed, _⟩ := hvalidated.saved saved hsaved
    exact hrun.supported hrolls' hcount hcurrent hprevious hparsed

/-- The requests for the insights of a month form this system, where each of
them reads its aggregates at a moment of the run. -/
structure InsightsMonth.Covers (m : InsightsMonth) (pg : DateCast)
    (history : Nat → Tables) (query : MonthlyAnalyticsQuery)
    (moment : Tid → Nat) : Prop where
  cast : m.pg = pg
  year : m.year = query.year
  month : m.month = query.month
  reads : m.reads = fun t => (history (moment t)).Selects pg

/-- While no line of the two months comes or goes, the model gets the same
input. -/
theorem ServiceRun.sameInput (hrun : ServiceRun run history)
    {first last moment moment' : Nat} {ranges : MonthlyAnalyticsRanges}
    (hrolls : (run last).world.2.RollsBack)
    {current previous current' previous' : MonthlyAnalyticsAggregate}
    (hmonth : Untouched run (monthDays query.index) first last)
    (hbefore : Untouched run (monthDays (query.index - 1)) first last)
    (hmoment : first ≤ moment ∧ moment ≤ last)
    (hmoment' : first ≤ moment' ∧ moment' ≤ last)
    (hranges : getMonthlyAnalyticsRanges query.year query.month = .ok ranges)
    (hcurrent : ReadsAggregate ((history moment).Selects pg) ranges.current
      current)
    (hprevious : ReadsAggregate ((history moment).Selects pg) ranges.previous
      previous)
    (hcurrent' : ReadsAggregate ((history moment').Selects pg) ranges.current
      current')
    (hprevious' : ReadsAggregate ((history moment').Selects pg) ranges.previous
      previous') :
    insightsInput query.year query.month ⟨current, previous⟩ =
      insightsInput query.year query.month ⟨current', previous'⟩ := by
  obtain ⟨_, hsame, hthis, hlast⟩ := query.ranges
  cases hsame.symm.trans hranges
  have hreports : ∀ {n range days aggregate},
      ReadsAggregate ((history n).Selects pg) range aggregate →
        pg.range range = some days → (history n).Reports days aggregate := by
    rintro n range days aggregate
      ⟨_, _, _, hoverview, hcategories, hmerchants, hrows⟩ hdays
    obtain ⟨_, hdays', hreport⟩ := hoverview.reports hcategories hmerchants hrows
    cases hdays.symm.trans hdays'
    exact hreport
  have hreport := hreports hcurrent (hthis pg)
  have hreport' := hreports hcurrent' (hthis pg)
  have hold := hreports hprevious (hlast pg)
  have hold' := hreports hprevious' (hlast pg)
  have haggregates : MonthlyAnalyticsAggregates.Same ⟨current, previous⟩
      ⟨current', previous'⟩ :=
    ⟨hreport.same hreport' (hrun.source_perm hrolls hmonth hmoment hmoment'),
      hold.same hold' (hrun.source_perm hrolls hbefore hmoment hmoment')⟩
  rw [insightsInput, insightsInput, buildMonthlyAnalytics_eq_of_same
    hreport.conserves hold.conserves haggregates]

/-- The requests of a month that does not change have one input. -/
theorem ServiceRun.exists_month (hrun : ServiceRun run history)
    {first last : Nat} {moment : Tid → Nat}
    (hrolls : (run last).world.2.RollsBack)
    (hmonth : Untouched run (monthDays query.index) first last)
    (hbefore : Untouched run (monthDays (query.index - 1)) first last)
    (hmoment : ∀ t, first ≤ moment t ∧ moment t ≤ last) (pg : DateCast)
    (jsonb : Jsonb) (options : MonthlyInsightsServiceOptions)
    (initial : InsightsTable) :
    ∃ m : InsightsMonth, m.Covers pg history query moment ∧ m.jsonb = jsonb ∧
      m.options = options ∧ m.initial = initial := by
  obtain ⟨ranges, hranges, _⟩ := query.ranges
  have hinput : ∃ input, ∀ t current previous,
      ReadsAggregate ((history (moment t)).Selects pg) ranges.current current →
        ReadsAggregate ((history (moment t)).Selects pg) ranges.previous
          previous →
          insightsInput query.year query.month ⟨current, previous⟩ = input := by
    by_cases hread : ∃ t current previous,
        ReadsAggregate ((history (moment t)).Selects pg) ranges.current
          current ∧
        ReadsAggregate ((history (moment t)).Selects pg) ranges.previous previous
    · obtain ⟨t, current, previous, hcurrent, hprevious⟩ := hread
      refine ⟨insightsInput query.year query.month ⟨current, previous⟩, ?_⟩
      intro u current' previous' hcurrent' hprevious'
      exact hrun.sameInput hrolls hmonth hbefore (hmoment u) (hmoment t)
        hranges hcurrent' hprevious' hcurrent hprevious
    · refine ⟨⟨[], ⟨⟨0, 0⟩, [], []⟩, none⟩, ?_⟩
      intro t current previous hcurrent hprevious
      exact absurd ⟨t, current, previous, hcurrent, hprevious⟩ hread
  obtain ⟨input, hsame⟩ := hinput
  exact ⟨⟨pg, jsonb, options, query.year, query.month, ranges, hranges,
    fun t => (history (moment t)).Selects pg, input, hsame, initial⟩,
    ⟨rfl, rfl, rfl, rfl⟩, rfl, rfl, rfl⟩

/-- Two responses that can be returned at one state. -/
theorem InsightsMonth.Returned.same {m : InsightsMonth} {t u : Tid}
    {body body' : MonthlyInsightsResponse} {w : InsightsWorld × ApiChronicle}
    (h : m.Returned t body w) (h' : m.Returned u body' w) :
    body.insights = body'.insights := by
  have hsame := h.answer.symm.trans h'.answer
  simp only [Except.ok.injEq, Option.some.injEq,
    MonthlyInsightsResponse.mk.injEq] at hsame
  exact hsame.2.2.1

/-- The insights of a month that does not change.  From the moment of the first
request to that of the last one no statement with lines in the month or in the
one before is completed or deleted.  Then, in any number of processes, with any
of them dying and any query failing other than a ROLLBACK that leaves its
session inside, at most one document is saved, all requests that return insights
return the same ones, and at most one of them has generated them. -/
theorem service_insights_agree (hrun : ServiceRun run history)
    {first last : Nat} {moment : Tid → Nat}
    (hrolls : (run last).world.2.RollsBack)
    (hmonth : Untouched run (monthDays query.index) first last)
    (hbefore : Untouched run (monthDays (query.index - 1)) first last)
    (hmoment : ∀ t, first ≤ moment t ∧ moment t ≤ last) (pg : DateCast)
    (jsonb : Jsonb) (options : MonthlyInsightsServiceOptions)
    (initial : InsightsTable) :
    ∃ m : InsightsMonth, m.Covers pg history query moment ∧ m.jsonb = jsonb ∧
      m.options = options ∧ m.initial = initial ∧
      ∀ c, (overPool m.requests.chronicled).Reachable c →
        c.world.2.RollsBack → c.alone.world.1.saves.length ≤ 1 ∧
          ∀ t u body body', m.Returns c.alone t body →
            m.Returns c.alone u body' → body.insights = body'.insights ∧
              (body.cached = false → body'.cached = false → t = u) := by
  obtain ⟨m, hcovers, hjsonb, hoptions, hinitial⟩ :=
    hrun.exists_month hrolls hmonth hbefore hmoment pg jsonb options initial
  refine ⟨m, hcovers, hjsonb, hoptions, hinitial, fun c hpooled hpool => ?_⟩
  have h := (pooled_reachable hpooled hpool).2
  generalize c.alone = c at h
  have hsaves : c.world.1.saves = [] ∨ ∃ owner, c.world.1.saves = [owner] := by
    cases hsaved : c.world.1.saves with
    | nil => exact .inl rfl
    | cons owner rest =>
        have hrest :=
          ((InsightsMonth.chronicled_sound h).1.sound.saved owner rest hsaved).1
        exact .inr ⟨owner, by rw [hrest]⟩
  constructor
  · rcases hsaves with hnone | ⟨owner, hone⟩
    · rw [hnone]
      exact Nat.zero_le 1
    · rw [hone]
      exact le_rfl
  · intro t u body body' hreturns hreturns'
    have hreturned := hreturns.returned h
    have hreturned' := hreturns'.returned h
    refine ⟨hreturned.same hreturned', fun hnew hnew' => ?_⟩
    have ht := hreturned.saved hnew
    have hu := hreturned'.saved hnew'
    rcases hsaves with hnone | ⟨owner, hone⟩
    · rw [hnone] at ht
      cases ht
    · rw [hone, List.mem_singleton] at ht hu
      exact ht.trans hu.symm

end Endpoint

section Sample

variable {db : Tables} {left : Nat → Prop} {pg : DateCast}
variable {days : CalendarDay × CalendarDay}
variable {options : MonthlyInsightsServiceOptions} {year month : Int}
variable {ranges : MonthlyAnalyticsRanges}
variable {aggregates : MonthlyAnalyticsAggregates}

/-- The category of a line is one that the model is told of. -/
theorem Tables.Reports.mem_categoryNames {row : JoinedRow}
    (h : db.Reports days aggregates.current) (hrow : row ∈ db.source days) :
    row.2.category ∈ categoryNames (insightsInput year month aggregates) := by
  have hgroup : row.2.category ∈ (groups (fun row : JoinedRow =>
      row.2.category) (db.source days)).map Prod.fst := by
    rw [groups_keys, List.mem_dedup]
    exact List.mem_map_of_mem hrow
  obtain ⟨group, hmem, hname⟩ := List.mem_map.mp hgroup
  have hbucket : AnalyticsBucketDatabaseRow.bucket
      ⟨group.1, amounts group.2, group.2.length⟩ ∈
        aggregates.current.categories :=
    h.categories.mem_iff.mpr
      (List.mem_map_of_mem (List.mem_map_of_mem hmem))
  have hlists : Lists (buildResponse aggregates.current.categories
      aggregates.previous.categories aggregates.current.totalAmount)
      row.2.category _ :=
    lists_buildResponse_iff.mpr ⟨_, hbucket, hname, rfl⟩
  obtain ⟨listed, hlisted, hsame, _⟩ := hlists
  rw [← hsame]
  exact List.mem_map.mpr ⟨_, List.mem_map_of_mem hlisted, rfl⟩

/-- A cache miss, a generation and a save. -/
def missed (lookup : MonthlyInsightsCacheLookup) (input : CompactInsightsInput) :
    ApiTrace :=
  [⟨.connect, .ok ()⟩, ⟨.client (.selectMonthlyInsights lookup), .ok []⟩,
    ⟨.release false, .ok ()⟩, ⟨.connect, .ok ()⟩, ⟨.client .begin, .ok ()⟩,
    ⟨.client (.advisoryLock (insightsLockKey lookup)), .ok ()⟩,
    ⟨.client (.selectMonthlyInsights lookup), .ok []⟩,
    ⟨.analyze input, .ok sampleGenerated⟩, ⟨.now, .ok (some 5)⟩,
    ⟨.client (.upsertMonthlyInsights { lookup with
      insights := ⟨[sampleInsight]⟩, generatedAt := some 5 }), .ok ()⟩,
    ⟨.client .commit, .ok ()⟩, ⟨.release false, .ok ()⟩]

theorem parse_sampleGenerated {input : CompactInsightsInput}
    (h : js "食費" ∈ categoryNames input) :
    parseAndValidateInsights (.object [(js "insights", sampleGenerated)]) input =
      .ok ⟨[sampleInsight]⟩ := by
  have hdocument : insightsDocumentSchema
      (.object [(js "insights", sampleGenerated)]) = some ⟨[sampleInsight]⟩ := by
    decide
  have hallowed : insightAllowed input sampleInsight = true := by
    simp [insightAllowed, sampleInsight, h]
  rw [parseAndValidateInsights, hdocument]
  simp [hallowed]

theorem run_generated (lookup : MonthlyInsightsCacheLookup)
    {input : CompactInsightsInput} (h : js "食費" ∈ categoryNames input) :
    (generateInsights year month input lookup
      StatementRepository.lockedCache).Run
      [⟨.client (.selectMonthlyInsights lookup), .ok []⟩,
        ⟨.analyze input, .ok sampleGenerated⟩, ⟨.now, .ok (some 5)⟩,
        ⟨.client (.upsertMonthlyInsights { lookup with
          insights := ⟨[sampleInsight]⟩, generatedAt := some 5 }), .ok ()⟩]
      (.ok ⟨year, month, [sampleInsight], 5, false⟩) := by
  have hfind : (StatementRepository.lockedCache.findMonthlyInsights lookup).Run
      [⟨.client (.selectMonthlyInsights lookup), .ok []⟩] (.ok none) :=
    .await .settled
  have hparse : (Proc.settled (parseAndValidateInsights
      (.object [(js "insights", sampleGenerated)]) input) :
        ApiProgram InsightsDocument).Run [] (.ok ⟨[sampleInsight]⟩) := by
    rw [parse_sampleGenerated h]
    exact .settled
  have hcached : (Proc.settled (getCachedResponse year month input none) :
      ApiProgram _).Run [] (.ok none) := .settled
  have hanalyze : (Proc.call (ApiQuery.analyze input) : ApiProgram JsValue).Run
      [⟨.analyze input, .ok sampleGenerated⟩] (.ok sampleGenerated) :=
    .of_call _ _
  exact hfind.bind_ok (hcached.bind_ok (hanalyze.bind_ok
    (hparse.bind_ok (.await (.await .settled)))))

theorem run_missed (h : js "食費" ∈ categoryNames
      (insightsInput year month aggregates)) :
    (insightsOfAggregates options year month ranges aggregates).Run
      (missed (insightsLookup options ranges (insightsInput year month
        aggregates)) (insightsInput year month aggregates))
      (.ok ⟨year, month, [sampleInsight], 5, false⟩) := by
  let input := insightsInput year month aggregates
  let lookup := insightsLookup options ranges input
  let body : MonthlyInsightsResponse := ⟨year, month, [sampleInsight], 5, false⟩
  have hlookup : (StatementRepository.findMonthlyInsights lookup).Run
      [⟨.connect, .ok ()⟩, ⟨.client (.selectMonthlyInsights lookup), .ok []⟩,
        ⟨.release false, .ok ()⟩] (.ok none) :=
    .await (.await (.await .settled))
  have hcached : (Proc.settled (getCachedResponse year month input none) :
      ApiProgram _).Run [] (.ok none) := .settled
  have hcommit : Proc.Run (do
      clientQuery .commit
      return body) [⟨.client .commit, .ok ()⟩] (.ok body) := .await .settled
  have hlocked : Proc.Run (do
      clientQuery .begin
      clientQuery (.advisoryLock (insightsLockKey lookup))
      let result ← generateInsights year month input lookup
        StatementRepository.lockedCache
      clientQuery .commit
      return result) _ (.ok body) :=
    (Proc.Run.of_call _ (.ok ())).bind_ok ((Proc.Run.of_call _
      (.ok ())).bind_ok ((run_generated lookup h).bind_ok hcommit))
  have hconnect : connect.Run [⟨.connect, .ok ()⟩] (.ok ()) := .of_call _ _
  exact hlookup.bind_ok (hcached.bind_ok (hconnect.bind_ok
    (hlocked.followed (.await .settled))))

/-- A whole request that misses the cache. -/
theorem run_getMonthlyInsights_missed {calls : ApiTrace}
    (hranges : getMonthlyAnalyticsRanges year month = .ok ranges)
    (hfind : (StatementRepository.findMonthlyAnalytics ranges).Run calls
      (.ok aggregates))
    (h : js "食費" ∈ categoryNames (insightsInput year month aggregates)) :
    (getMonthlyInsights options year month).Run
      (calls ++ missed (insightsLookup options ranges (insightsInput year month
        aggregates)) (insightsInput year month aggregates))
      (.ok ⟨year, month, [sampleInsight], 5, false⟩) := by
  rw [getMonthlyInsights_eq, hranges]
  change Proc.Run (StatementRepository.findMonthlyAnalytics ranges >>= _) _ _
  exact hfind.bind_ok (run_missed h)

theorem answers_missed {history : Nat → Tables} (moment : Nat)
    (lookup : MonthlyInsightsCacheLookup) (input : CompactInsightsInput) :
    Served SnapshotState.Rely (SnapshotState.Answers pg left history)
      ⟨moment, .closed⟩ (missed lookup input) ⟨moment, .closed⟩ := by
  have hrely : ∀ w : SnapshotState, w.Rely w := fun w => ⟨le_rfl, rfl⟩
  apply Served.cons (hrely _) (.analytics .connected)
  apply Served.cons (hrely _) (.other rfl)
  apply Served.cons (hrely _) (.analytics .released)
  apply Served.cons (hrely _) (.analytics .connected)
  apply Served.cons (hrely _) (.other rfl)
  apply Served.cons (hrely _) (.other rfl)
  apply Served.cons (hrely _) (.other rfl)
  apply Served.cons (hrely _) (.other rfl)
  apply Served.cons (hrely _) (.other rfl)
  apply Served.cons (hrely _) (.other rfl)
  apply Served.cons (hrely _) (.analytics .committed)
  exact Served.cons (hrely _) (.analytics .released) .nil

/-- The run that both examples take: the report of a completed statement is
read, and insights are made from it. -/
theorem exists_insights : ∃ (c : Config Store Query Query.Answer Thrown Outcome)
    (db : Tables) (ranges : MonthlyAnalyticsRanges)
    (aggregates : MonthlyAnalyticsAggregates) (calls : ApiTrace),
    ServiceRun (restsAt c) (fun _ => db) ∧
    getMonthlyAnalyticsRanges sampleQuery.year sampleQuery.month = .ok ranges ∧
    (isoCast.cast ranges.current.start).isSome = true ∧
    (StatementRepository.findMonthlyAnalytics ranges).Run calls
      (.ok aggregates) ∧
    Served SnapshotState.Rely
      (SnapshotState.Serves isoCast (restsAt c).left fun _ => db)
      ⟨0, .closed⟩ calls ⟨0, .closed⟩ ∧
    js "食費" ∈ categoryNames
      (insightsInput sampleQuery.year sampleQuery.month aggregates) := by
  obtain ⟨c, _, h⟩ := at_completed
  obtain ⟨db, hdb, hfew, hrun⟩ := ServiceRun.alone h.reachable h.world
  have hfits : ∀ days, db.Fits days := fun days =>
    @ServiceRun.fits _ _ _ hrun 0 ApiPool.unused_rollsBack hfew
  obtain ⟨ranges, hranges, hcurrent, hprevious⟩ := sampleQuery.ranges
  obtain ⟨calls, aggregates, hfind, _, hserved⟩ :=
    @exists_findMonthlyAnalytics isoCast (restsAt c).left (fun _ => db) ranges
      _ _ 0 (hcurrent isoCast) (hprevious isoCast) (hfits _) (hfits _)
  obtain ⟨_, _, _, _, hdays, _, hreports, _⟩ :=
    served_findMonthlyAnalytics hfind hserved
  cases (hcurrent isoCast).symm.trans hdays
  have hstatement : db.statements ⟨0⟩ = sampleCompleted := by
    rw [hdb, h.world]
    rfl
  have hline : (⟨0⟩, ⟨1, js "2026-04-01", js "SHOP", js "shop", 1200, js "食費",
      some (js "外食")⟩) ∈ db.source (monthDays sampleQuery.index) := by
    apply Tables.mem_source_iff_booked.mpr
    rw [hstatement]
    decide
  refine ⟨c, db, ranges, aggregates, calls, hrun, hranges, ?_, hfind, hserved,
    hreports.mem_categoryNames hline⟩
  have hrange := hcurrent isoCast
  rw [DateCast.range] at hrange
  obtain ⟨day, hday, _⟩ := Option.bind_eq_some_iff.mp hrange
  rw [hday]
  rfl

theorem service_insights_sampleCompleted :
    ∃ c db trace body, ServiceRun (restsAt c) (fun _ => db) ∧
      GetsInsights isoCast (restsAt c).left (fun _ => db) sampleOptions
        sampleQuery 0 0 trace (.insights body) ∧
      body.insights = [sampleInsight] ∧ sampleInsight.Borne db 24315 := by
  obtain ⟨c, db, ranges, aggregates, calls, hrun, hranges, _, hfind, hserved,
    hname⟩ := exists_insights
  let input := insightsInput sampleQuery.year sampleQuery.month aggregates
  let lookup := insightsLookup sampleOptions ranges input
  let body : MonthlyInsightsResponse :=
    ⟨sampleQuery.year, sampleQuery.month, [sampleInsight], 5, false⟩
  have hsettled : (getMonthlyInsights sampleOptions sampleQuery.year
      sampleQuery.month).Run (calls ++ missed lookup input) (.ok body) :=
    run_getMonthlyInsights_missed hranges hfind hname
  have hanswered : (getInsights sampleOptions sampleQuery).Run
      ((calls ++ missed lookup input) ++ []) (.ok (.insights body)) := by
    rw [getInsights, Proc.attempt_bind]
    exact hsettled.followed .settled
  rw [List.append_nil] at hanswered
  have hgets : GetsInsights isoCast (restsAt c).left (fun _ => db) sampleOptions
      sampleQuery 0 0 (calls ++ missed lookup input) (.insights body) := by
    refine ⟨hanswered, .closed, served_append_iff.mpr ⟨⟨0, .closed⟩, ?_,
      answers_missed 0 lookup input⟩⟩
    exact hserved.mono fun _ _ _ _ hserves => .analytics hserves
  refine ⟨c, db, _, body, hrun, hgets, rfl, ?_⟩
  rcases service_insights hrun ApiPool.unused_rollsBack hgets with ⟨hfailed, _⟩ |
    ⟨_, _, _, hreturned, _⟩
  · cases hfailed
  · exact (hreturned body rfl).2 sampleInsight List.mem_cons_self

/-- What `findMonthlyAnalytics` reads, a request among others reads too. -/
theorem requests_findMonthlyAnalytics {jsonb : Jsonb} {t : Tid}
    {reads : Tid → (q : ApiClientQuery) → q.Answer → Prop}
    (hreads : reads t = db.Selects pg) {w : InsightsWorld}
    (hfree : w.lock = none) {calls : ApiTrace} {s s' : SnapshotState}
    (h : Served SnapshotState.Rely (SnapshotState.Serves pg left fun _ => db) s
      calls s') (hcalls : ∀ answered ∈ calls, answered.op.Analytics) :
    Served Eq (fun w op answer w' =>
      InsightsWorld.Serves pg jsonb reads t w op answer w') w calls w := by
  have hnone : ∀ held, ¬w.Holds t held := by
    rintro held ⟨hheld, _⟩
    rw [hfree] at hheld
    cases hheld
  have hselect : ∀ {q : ApiClientQuery} {rows : q.Answer},
      db.Selects pg q rows → InsightsWorld.Serves pg jsonb reads t w (.client q)
        (.ok rows) w := by
    intro q rows hselects
    have hread : reads t q rows := by
      rw [hreads]
      exact hselects
    cases hselects <;> exact .read rfl hread
  induction h with
  | nil => exact .nil
  | @cons _ _ _ _ op _ _ _ hserves _ ih =>
      obtain ⟨hop, hrest⟩ := List.forall_mem_cons.mp hcalls
      refine .cons rfl ?_ (ih hrest)
      cases hserves with
      | connected | reused | begun | begunInside | released =>
          exact .elsewhere rfl
      | first hselects | next hselects => exact hselect hselects
      | committed => exact .ended (.inl rfl) hnone
      | rolledBack => exact .ended (.inr rfl) hnone
      | rejected =>
          cases op with
          | connect | release _ => exact .elsewhere rfl
          | client q => exact .rejected (.untouched hnone)
          | request _ | analyze _ | now => cases hop

theorem requests_missed {lookup : MonthlyInsightsCacheLookup}
    {reads : Tid → (q : ApiClientQuery) → q.Answer → Prop} {day : CalendarDay}
    (hday : pg.cast lookup.targetMonth = some day) (input : CompactInsightsInput) :
    ∃ table, Served Eq (fun w op answer w' =>
      InsightsWorld.Serves pg plainJsonb reads 0 w op answer w')
      ⟨fun _ => none, none, []⟩ (missed lookup input) ⟨table, none, [0]⟩ := by
  have hselect : InsightsTable.select pg (fun _ => none) lookup = some [] := by
    rw [InsightsTable.select, hday]
    rfl
  let saved : SaveMonthlyInsightsInput :=
    { lookup with insights := ⟨[sampleInsight]⟩, generatedAt := some 5 }
  let record : MonthlyInsightsCacheRecord :=
    { lookup with insights := saved.insights.toJson, generatedAt := some 5 }
  have hwrites : saved.Writes pg plainJsonb day record := .mk hday rfl rfl
  refine ⟨Function.update (fun _ => none) day (some record), ?_⟩
  apply Served.cons rfl (.elsewhere rfl)
  apply Served.cons rfl (.selected hselect)
  apply Served.cons rfl (.elsewhere rfl)
  apply Served.cons rfl (.elsewhere rfl)
  apply Served.cons rfl (.elsewhere rfl)
  apply Served.cons rfl (.locked rfl)
  apply Served.cons rfl (.selected hselect)
  apply Served.cons rfl (.elsewhere rfl)
  apply Served.cons rfl .now
  apply Served.cons rfl (.upserted ⟨rfl, rfl⟩ hwrites)
  apply Served.cons rfl (.committed ⟨rfl, rfl⟩)
  exact Served.cons rfl (.elsewhere rfl) .nil

/-- The first request has saved its insights and returned them, and all others
that return any return the same. -/
theorem service_insights_agree_sampleCompleted :
    ∃ (m : InsightsMonth) (db : Tables), m.Covers isoCast (fun _ => db)
      sampleQuery (fun _ => 0) ∧
      ∃ c, (overPool m.requests.chronicled).Reachable c ∧
        m.Returns c.alone 0 ⟨2026, 4, [sampleInsight], 5, false⟩ ∧
        ∀ u body, m.Returns c.alone u body →
          body.insights = [sampleInsight] := by
  obtain ⟨c, db, ranges, aggregates, calls, hrun, hranges, hcast, hfind, hserved,
    hname⟩ := exists_insights
  have hmonth : Untouched (restsAt c) (monthDays sampleQuery.index) 0 0 := by
    intro n _ hlast
    omega
  have hbefore : Untouched (restsAt c) (monthDays (sampleQuery.index - 1))
      0 0 := by
    intro n _ hlast
    omega
  obtain ⟨m, hcovers, hjsonb, hoptions, hinitial, hagree⟩ :=
    service_insights_agree hrun ApiPool.unused_rollsBack hmonth hbefore
      (fun _ => ⟨le_rfl, le_rfl⟩) isoCast plainJsonb sampleOptions fun _ => none
  let input := insightsInput sampleQuery.year sampleQuery.month aggregates
  let lookup := insightsLookup sampleOptions ranges input
  have hrequest : (getMonthlyInsights m.options m.year m.month).Run
      (calls ++ missed lookup input) (.ok ⟨2026, 4, [sampleInsight], 5, false⟩) := by
    rw [hoptions, hcovers.year, hcovers.month]
    exact run_getMonthlyInsights_missed hranges hfind hname
  obtain ⟨day, hday⟩ := Option.isSome_iff_exists.mp hcast
  have hday' : isoCast.cast lookup.targetMonth = some day := hday
  obtain ⟨table, hmissed⟩ := requests_missed hday' input
  have hserves : Served Eq (fun w op answer w' =>
      m.requests.exec 0 op w answer w') ⟨m.initial, none, []⟩
      (calls ++ missed lookup input) ⟨table, none, [0]⟩ := by
    change Served Eq (fun w op answer w' =>
      InsightsWorld.Serves m.pg m.jsonb m.reads 0 w op answer w') _ _ _
    rw [hcovers.cast, hjsonb, hinitial]
    refine served_append_iff.mpr ⟨_, ?_, hmissed⟩
    apply requests_findMonthlyAnalytics _ rfl hserved
      (hfind.calls analytics_findMonthlyAnalytics)
    rw [hcovers.reads]
  let world : InsightsWorld × ApiChronicle := (⟨m.initial, none, []⟩, [])
  let started : Config (InsightsWorld × ApiChronicle) ApiQuery ApiQuery.Answer
      Thrown MonthlyInsightsResponse :=
    Config.move ⟨world, fun _ => .idle⟩ 0
      (.running (getMonthlyInsights m.options m.year m.month)) world
  have hinit : m.requests.chronicled.Reachable ⟨world, fun _ => .idle⟩ :=
    .init ⟨rfl, rfl⟩
  have hstarted : m.requests.chronicled.Reachable started :=
    hinit.step (.start rfl ⟨⟨rfl, rfl⟩, rfl⟩)
  have hthread : started.threads 0 =
      .running (getMonthlyInsights m.options m.year m.month) :=
    Config.move_threads_self _ _ _ _
  obtain ⟨c', hleads, hworld, _⟩ :=
    System.leads_of_served hthread hrequest hserves
  have hreach := hstarted.leads hleads
  have hfirst : m.Returns c' 0 ⟨2026, 4, [sampleInsight], 5, false⟩ := by
    have hcalled : Chronicle.calls c'.world.2 0 =
        calls ++ missed lookup input := by
      rw [hworld]
      exact Chronicle.calls_map_called _
    rw [InsightsMonth.Returns, hcalled]
    exact hrequest
  refine ⟨m, db, hcovers, unpooled c', reachable_unpooled hreach, hfirst,
    fun u body hreturns => ?_⟩
  have hall := hagree (unpooled c') (reachable_unpooled hreach)
    ApiPool.unused_rollsBack
  exact (hall.2 u 0 body _ hreturns hfirst).1

end Sample

end StatementAnalyzer
