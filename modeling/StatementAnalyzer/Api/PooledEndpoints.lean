/-
The endpoints of the API over its connection pool.  `pool.query` checks out a
client for one statement, and each endpoint gives back every client that it has
checked out.
-/
import StatementAnalyzer.Api.Statements
import StatementAnalyzer.Async.BoundedPool
import StatementAnalyzer.Database.OpenTransactions

namespace StatementAnalyzer

open Async

/-- A `year` and a `month` that `monthlyAnalyticsQuerySchema` accepts. -/
structure MonthlyAnalyticsQuery where
  year : Int
  month : Int
  isYear : 2000 ≤ year ∧ year ≤ 2100
  isMonth : 1 ≤ month ∧ month ≤ 12

inductive ApiResponse where
  | statement (response : Response)
  | analytics (body : MonthlyAnalyticsResponse)
  | insights (body : MonthlyInsightsResponse)

def insightsUnavailable : Response :=
  errorResponse 503 (js "INSIGHTS_UNAVAILABLE")
    (js "支出Insightsを利用できません。")

/-- `GET /analytics/monthly`, once its query is valid. -/
def getMonthlyAnalytics (query : MonthlyAnalyticsQuery) :
    ApiProgram ApiResponse := do
  let ranges ← Proc.settled (getMonthlyAnalyticsRanges query.year query.month)
  match ← (StatementRepository.findMonthlyAnalytics ranges).attempt with
  | .ok aggregates =>
      return .analytics (buildMonthlyAnalytics query.year query.month
        aggregates.current aggregates.previous)
  | .error _ => return .statement dependencyUnavailable

/-- `GET /analytics/monthly/insights`, once its query is valid. -/
def getInsights (options : MonthlyInsightsServiceOptions)
    (query : MonthlyAnalyticsQuery) : ApiProgram ApiResponse := do
  match ← (getMonthlyInsights options query.year query.month).attempt with
  | .ok insights => return .insights insights
  | .error _ => return .statement insightsUnavailable

/-- The calls of the endpoints for statements; none of them stores
transactions. -/
def apiCall : (op : Call) → ApiProgram op.Answer
  | .request r => Proc.call (ApiQuery.request r)
  | .saveTransactionsAndComplete _ _ _ => Proc.throwing plainError

def statementEndpoint (endpoint : Program Response) : ApiProgram ApiResponse := do
  let response ← endpoint.interp apiCall
  return .statement response

/-- What an endpoint awaits where `pool.query` is taken apart. -/
inductive PooledQuery where
  | query (q : ApiQuery)
  /-- The statement of a `pool.query`, over the client checked out for it. -/
  | statement (r : Request)

abbrev PooledQuery.Answer : PooledQuery → Type
  | query q => q.Answer
  | statement r => r.Answer

abbrev PooledProgram : Type → Type :=
  Proc PooledQuery PooledQuery.Answer Thrown

/-- `pool.query`; a client whose statement has failed is destroyed. -/
def pooledStatement (r : Request) : PooledProgram r.Answer := do
  Proc.call (PooledQuery.query .connect)
  (Proc.call (PooledQuery.statement r)).andThen fun answer =>
    (Proc.call (PooledQuery.query (.release (!answer.isOk)))).andThen fun _ =>
      Proc.settled answer

def pooledQuery : (op : ApiQuery) → PooledProgram op.Answer
  | .request r =>
      if r.isStatement then pooledStatement r
      else Proc.call (PooledQuery.query (.request r))
  | op => Proc.call (PooledQuery.query op)

def ApiQuery.use : ApiQuery → PoolUse
  | request r => if r.isStatement then .pooled else .other
  | connect => .acquire
  | client _ => .session
  | release _ => .release
  | analyze _ => .other
  | now => .other

def PooledQuery.use : PooledQuery → PoolUse
  | query (.request _) => .other
  | query q => q.use
  | statement _ => .session

/-- The endpoints that share the pool. -/
inductive ApiEndpoint where
  | monthlyAnalytics
  | monthlyInsights
  | createStatement
  | other
deriving DecidableEq

inductive ApiEndpoint.Runs (options : MonthlyInsightsServiceOptions) :
    ApiEndpoint → PooledProgram ApiResponse → Prop
  | monthlyAnalytics (query : MonthlyAnalyticsQuery) :
      Runs options .monthlyAnalytics
        ((getMonthlyAnalytics query).interp pooledQuery)
  | monthlyInsights (query : MonthlyAnalyticsQuery) :
      Runs options .monthlyInsights
        ((getInsights options query).interp pooledQuery)
  | createStatement (presignedUrlExpiresSeconds : Nat)
      (http : CreateStatementHttpRequest) :
      Runs options .createStatement ((statementEndpoint
        (StatementAnalyzer.createStatement presignedUrlExpiresSeconds
          http)).interp pooledQuery)
  /-- Whatever requests the rest of the endpoints make. -/
  | other (endpoint : Program Response) :
      Runs options .other ((statementEndpoint endpoint).interp pooledQuery)

/-- `GET /analytics/monthly` answers 503 where it gets no client. -/
theorem getMonthlyAnalytics_unavailable (query : MonthlyAnalyticsQuery) :
    ∃ resume, (getMonthlyAnalytics query).interp pooledQuery =
        .await (.query .connect) resume ∧
      ∀ error, resume (.error error) =
        .settled (.ok (.statement dependencyUnavailable)) := by
  obtain ⟨year, month, hyear, hmonth⟩ := query
  have hranges : ∃ ranges, getMonthlyAnalyticsRanges year month = .ok ranges := by
    rw [getMonthlyAnalyticsRanges, if_neg (by omega)]
    exact ⟨_, rfl⟩
  obtain ⟨ranges, hok⟩ := hranges
  rw [getMonthlyAnalytics, hok]
  exact ⟨_, rfl, fun error => rfl⟩

section Balance

/-- The call leaves a client that is held with its procedure. -/
def ApiQuery.InSession (op : ApiQuery) : Prop :=
  op.use = .session ∨ op.use = .other

theorem carries_session {α : Type} {p : ApiProgram α}
    (hp : p.Calls ApiQuery.InSession) :
    p.Carries ApiQuery.use (fun _ held => held = true) true := by
  apply Proc.Carries.of_calls hp
  intro op hop
  rcases hop with huse | huse
  · rw [huse]
    exact ⟨rfl, fun _ => rfl⟩
  · rw [huse]
    exact ⟨rfl, fun _ => rfl⟩

theorem session_query (q : ApiClientQuery) :
    (clientQuery q).Calls ApiQuery.InSession :=
  .call (.inl rfl)

/-- A client that is checked out for `next`. -/
theorem balanced_connect {α : Type} {next : Unit → ApiProgram α}
    (hnext : (next ()).Carries ApiQuery.use (fun _ held => held = false) true) :
    (connect >>= next).Balanced ApiQuery.use := by
  refine ⟨rfl, fun answer => ?_⟩
  cases answer with
  | ok _ => exact hnext
  | error error => exact rfl

theorem carries_releaseThen {α β : Type} {destroy : Bool} {p : ApiProgram α}
    {next : Except Thrown α → Except Thrown Unit → ApiProgram β}
    (hp : p.Calls ApiQuery.InSession)
    (hnext : ∀ result done, (next result done).Balanced ApiQuery.use) :
    (p.andThen fun result => (release destroy).andThen (next result)).Carries
      ApiQuery.use (fun _ held => held = false) true := by
  apply Proc.Carries.andThen
  apply (carries_session hp).mono
  rintro result _ rfl
  exact ⟨rfl, fun done => hnext result done⟩

theorem carries_ensure {α : Type} {p : ApiProgram α}
    (hp : p.Calls ApiQuery.InSession) :
    (Proc.ensure p (release false)).Carries ApiQuery.use
      (fun _ held => held = false) true := by
  apply carries_releaseThen hp
  intro result done
  cases done <;> rfl

theorem balanced_findMonthlyAnalytics (ranges : MonthlyAnalyticsRanges) :
    (StatementRepository.findMonthlyAnalytics ranges).Balanced ApiQuery.use := by
  have haggregate : ∀ range, (StatementRepository.findMonthlyAggregate range).Calls
      ApiQuery.InSession := fun range =>
    StatementRepository.calls_findMonthlyAggregate (.inl rfl) (.inl rfl) (.inl rfl)
  apply balanced_connect
  apply carries_ensure
  apply Proc.Calls.orElse
  · apply (session_query _).bind
    intro _
    apply (haggregate _).bind
    intro _
    apply (haggregate _).bind
    intro _
    apply (session_query _).bind
    intro _
    trivial
  · intro error
    apply (session_query _).andThen
    intro _
    trivial

theorem balanced_findMonthlyInsights (lookup : MonthlyInsightsCacheLookup) :
    (StatementRepository.findMonthlyInsights lookup).Balanced ApiQuery.use := by
  apply balanced_connect
  apply carries_ensure
  apply (session_query _).bind
  intro _
  trivial

theorem balanced_withMonthlyInsightsGenerationLock {α : Type} {lockKey : JsString}
    {callback : MonthlyInsightsCacheSession → ApiProgram α}
    (hcallback : (callback StatementRepository.lockedCache).Calls
      ApiQuery.InSession) :
    (StatementRepository.withMonthlyInsightsGenerationLock lockKey
      callback).Balanced ApiQuery.use := by
  apply balanced_connect
  apply Proc.Carries.andThen
  apply (carries_session ?_).mono
  · rintro called _ rfl
    cases called with
    | ok result => exact ⟨rfl, fun _ => rfl⟩
    | error error =>
        refine ⟨rfl, fun answer => ?_⟩
        cases answer with
        | ok _ => exact ⟨rfl, fun _ => rfl⟩
        | error _ => exact ⟨rfl, fun _ => rfl⟩
  · apply (session_query _).bind
    intro _
    apply (session_query _).bind
    intro _
    apply hcallback.bind
    intro _
    apply (session_query _).bind
    intro _
    trivial

theorem balanced_getMonthlyInsights (options : MonthlyInsightsServiceOptions)
    (year month : Int) :
    (getMonthlyInsights options year month).Balanced ApiQuery.use := by
  apply (Proc.balanced_settled _).bind
  intro ranges
  apply (balanced_findMonthlyAnalytics ranges).bind
  intro aggregates
  apply (balanced_findMonthlyInsights _).bind
  intro cached
  apply (Proc.balanced_settled _).bind
  intro found
  cases found with
  | some response => exact Proc.balanced_settled _
  | none =>
      apply balanced_withMonthlyInsightsGenerationLock
      exact calls_generateInsights (.inl rfl) (.inr rfl) (.inr rfl)
        fun _ _ => .inl rfl

/-- A branch on the outcome of a balanced procedure. -/
theorem balanced_attempt {α β : Type} {p : ApiProgram α}
    {next : Except Thrown α → ApiProgram β} (hp : p.Balanced ApiQuery.use)
    (hnext : ∀ result, (next result).Balanced ApiQuery.use) :
    (p.attempt >>= next).Balanced ApiQuery.use := by
  rw [Proc.attempt_bind]
  exact hp.andThen hnext

theorem balanced_getMonthlyAnalytics (query : MonthlyAnalyticsQuery) :
    (getMonthlyAnalytics query).Balanced ApiQuery.use := by
  apply (Proc.balanced_settled _).bind
  intro ranges
  apply balanced_attempt (balanced_findMonthlyAnalytics ranges)
  intro result
  cases result with
  | ok aggregates => exact Proc.balanced_settled _
  | error error => exact Proc.balanced_settled _

theorem balanced_getInsights (options : MonthlyInsightsServiceOptions)
    (query : MonthlyAnalyticsQuery) :
    (getInsights options query).Balanced ApiQuery.use := by
  apply balanced_attempt (balanced_getMonthlyInsights options _ _)
  intro result
  cases result with
  | ok insights => exact Proc.balanced_settled _
  | error error => exact Proc.balanced_settled _

/-- Requests hold a client only while they run. -/
theorem balanced_statementEndpoint (endpoint : Program Response) :
    (statementEndpoint endpoint).Balanced ApiQuery.use := by
  have hendpoint : (endpoint.interp apiCall).Balanced ApiQuery.use := by
    induction endpoint with
    | settled result => exact rfl
    | await op resume ih =>
        apply Proc.Balanced.andThen _ ih
        cases op with
        | request r =>
            refine ⟨?_, fun answer => ?_⟩
            · rw [ApiQuery.use]
              split <;> rfl
            · rw [ApiQuery.use]
              split <;> rfl
        | saveTransactionsAndComplete _ _ _ => exact rfl
  exact hendpoint.bind fun response => Proc.balanced_settled _

/-- `pool.query` taken apart does with the pool what it does as a whole. -/
theorem carries_pooledQuery (op : ApiQuery) (held : Bool)
    (hallows : op.use.allows held = true) :
    (pooledQuery op).Carries PooledQuery.use
      (fun answer held' => held' = op.use.after held answer.isOk) held := by
  cases op with
  | request r =>
      rw [ApiQuery.use] at hallows ⊢
      rw [pooledQuery]
      by_cases hstatement : r.isStatement = true
      · rw [if_pos hstatement] at hallows ⊢
        rw [if_pos hstatement]
        have hnone : held = false := by
          simpa [PoolUse.allows] using hallows
        rw [hnone]
        refine ⟨rfl, fun connected => ?_⟩
        cases connected with
        | error error => exact rfl
        | ok _ => exact ⟨rfl, fun answer => ⟨rfl, fun _ => rfl⟩⟩
      · rw [if_neg hstatement]
        rw [if_neg hstatement]
        exact ⟨rfl, fun _ => rfl⟩
  | connect => exact ⟨hallows, fun _ => rfl⟩
  | client q => exact ⟨hallows, fun _ => rfl⟩
  | release destroy => exact ⟨hallows, fun _ => rfl⟩
  | analyze input => exact ⟨hallows, fun _ => rfl⟩
  | now => exact ⟨hallows, fun _ => rfl⟩

theorem ApiEndpoint.Runs.balanced {options : MonthlyInsightsServiceOptions}
    {endpoint : ApiEndpoint} {p : PooledProgram ApiResponse}
    (h : endpoint.Runs options p) : p.Balanced PooledQuery.use := by
  cases h with
  | monthlyAnalytics query =>
      exact (balanced_getMonthlyAnalytics query).interp carries_pooledQuery
  | monthlyInsights query =>
      exact (balanced_getInsights options query).interp carries_pooledQuery
  | createStatement seconds http =>
      exact (balanced_statementEndpoint _).interp carries_pooledQuery
  | other endpoint =>
      exact (balanced_statementEndpoint _).interp carries_pooledQuery

end Balance

end StatementAnalyzer
