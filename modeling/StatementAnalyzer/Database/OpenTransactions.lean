/-
Whether a pooled client goes back inside a transaction, for the three methods
that open one.
-/
import StatementAnalyzer.Async.ClientPool
import StatementAnalyzer.Database.SaveTransactions
import StatementAnalyzer.Insights.MonthlyInsightsService

namespace StatementAnalyzer

open Async

/-- The requests that `pool.query` serves. -/
def Request.isStatement : Request → Bool
  | insertStatement _ | selectStatement _ | updateStatement _ _ => true
  | _ => false

def Request.action (r : Request) : ClientAction :=
  if r.isStatement then .pooled else .other

/-- What a query of the worker does with its client. -/
def Query.action : Query → ClientAction
  | request r => r.action
  | connect => .connect
  | client .begin => .begin
  | client .commit => .commit
  | client .rollback => .rollback
  | client _ => .statement
  | release => .release false

/-- What a query of the API does with its client. -/
def ApiQuery.action : ApiQuery → ClientAction
  | request r => r.action
  | connect => .connect
  | client .begin => .begin
  | client .beginRepeatableRead => .begin
  | client .commit => .commit
  | client .rollback => .rollback
  | client _ => .statement
  | release destroy => .release destroy
  | analyze _ => .other
  | now => .other

/-- A client that has gone back inside a transaction comes from a ROLLBACK that
left it there. -/
def OpenAsLeft (s : Play) : Prop :=
  s.releasedOpen = true → s.leftOpen = true

def NeverOpen (s : Play) : Prop :=
  s.releasedOpen = false

/-- The client is back, inside a transaction exactly if the ROLLBACK has left
it there. -/
def ReleasedAsLeft (s : Play) : Prop :=
  ∃ leftOpen, s = ⟨none, leftOpen, leftOpen⟩

theorem ReleasedAsLeft.iff {s : Play} (h : ReleasedAsLeft s) :
    s.releasedOpen = true ↔ s.leftOpen = true := by
  obtain ⟨leftOpen, rfl⟩ := h
  exact Iff.rfl

section Transactions

variable {Op : Type} {Val : Op → Type} {α : Type} {action : Op → ClientAction}
variable {I : Play → Prop} {connection : Connection}

/-- A handler that rolls back and throws. -/
theorem keeps_handler {op : Op} {next : Except Thrown (Val op) →
    Proc Op Val Thrown α} (hop : action op = .rollback)
    (hI : ∀ left, I (Play.abandoned left))
    (hnext : ∀ answer, ∃ error, next answer = Proc.throwing error) :
    ((Proc.call op).andThen next).Keeps action I
      (fun _ s' => ∃ left, s' = Play.abandoned left)
      (Play.fresh.hold connection) := by
  apply Proc.Keeps.andThen
  apply (keeps_rollback hop hI).mono
  rintro answer _ ⟨left, rfl, _⟩
  obtain ⟨error, herror⟩ := hnext answer
  rw [herror]
  exact ⟨left, rfl⟩

/-- A transaction that is rolled back in a `catch` block and whose client is
released in a `finally` block, whatever has become of the ROLLBACK. -/
theorem keeps_transaction {body : Proc Op Val Thrown α}
    {handler : Thrown → Proc Op Val Thrown α} {final : Proc Op Val Thrown Unit}
    (hbody : body.Commits action false)
    (hhandler : ∀ error left, (handler error).Keeps action OpenAsLeft
      (fun _ s' => ∃ left', s' = Play.abandoned left') (Play.fresh.hold left))
    (hfinal : ∀ left, final.Keeps action OpenAsLeft
      (fun answer s' => answer.isOk = true ∧
        s' = (Play.abandoned left).release false left) (Play.abandoned left)) :
    (Proc.ensure (Proc.orElse body handler) final).Keeps action OpenAsLeft
      (fun _ s' => ReleasedAsLeft s') (Play.fresh.hold connection) := by
  have hcaught : (Proc.orElse body handler).Keeps action OpenAsLeft
      (fun _ s' => ∃ left, s' = Play.abandoned left)
      (Play.fresh.hold connection) := by
    apply Proc.Keeps.andThen
    apply (hbody.keeps (by rintro ⟨⟩) (by rintro left ⟨⟩)).mono
    rintro result _ ⟨left, rfl, hok⟩
    cases result with
    | ok value =>
        rw [hok rfl]
        exact ⟨.outside, rfl⟩
    | error error => exact hhandler error left
  apply Proc.Keeps.andThen
  apply hcaught.mono
  rintro result _ ⟨left, rfl⟩
  apply Proc.Keeps.andThen
  apply (hfinal left).mono
  rintro answer _ ⟨hok, rfl⟩
  cases answer with
  | ok _ => exact ⟨left = .inside, by simp [Play.abandoned, Play.release]⟩
  | error _ => cases hok

theorem openAsLeft_abandoned (left : Connection) :
    OpenAsLeft (Play.abandoned left) := by
  rintro ⟨⟩

theorem openAsLeft_release (left : Connection) :
    OpenAsLeft ((Play.abandoned left).release false left) := by
  simp [OpenAsLeft, Play.abandoned, Play.release]

end Transactions

section Api

theorem inner_query {q : ApiClientQuery}
    (hq : (ApiQuery.client q).action.isInner = true) :
    (clientQuery q).Calls fun op => op.action.isInner = true :=
  ⟨hq, fun _ => trivial⟩

theorem inner_findMonthlyAggregate {range : AnalyticsDateRange} :
    (StatementRepository.findMonthlyAggregate range).Calls
      fun op => op.action.isInner = true :=
  StatementRepository.calls_findMonthlyAggregate rfl rfl rfl

/-- `findMonthlyAnalytics` drops the error of its ROLLBACK. -/
theorem keeps_findMonthlyAnalytics (ranges : MonthlyAnalyticsRanges) :
    (StatementRepository.findMonthlyAnalytics ranges).Keeps ApiQuery.action
      OpenAsLeft (fun _ s' => ReleasedAsLeft s') Play.fresh := by
  apply keeps_connect rfl (fun _ => ⟨false, rfl⟩) (by rintro ⟨⟩)
    (by rintro _ ⟨⟩)
  intro _ connection _
  apply keeps_transaction
  · refine Proc.Commits.bind (inner_query rfl) fun _ _ => ?_
    refine Proc.Commits.bind inner_findMonthlyAggregate fun _ _ => ?_
    refine Proc.Commits.bind inner_findMonthlyAggregate fun _ _ => ?_
    exact Proc.commits_call_bind rfl
  · intro error left
    exact keeps_handler rfl openAsLeft_abandoned fun _ => ⟨error, rfl⟩
  · intro left
    exact keeps_release rfl rfl (openAsLeft_release left)

/-- What a callback may do under the generation lock: it sends statements over
its session and calls other services. -/
def UsesSession {α : Type}
    (callback : MonthlyInsightsCacheSession → ApiProgram α) : Prop :=
  (callback StatementRepository.lockedCache).Calls
    fun op => op.action.isInner = true

theorem keeps_apiRelease {destroy : Bool} {left : Connection} {s : Play}
    (hclient : s.client = some left)
    (hsafe : (s.release destroy left).releasedOpen = false) :
    (release destroy).Keeps ApiQuery.action NeverOpen
      (fun answer s' => answer.isOk = true ∧ s' = s.release destroy left) s :=
  keeps_release rfl hclient hsafe

/-- The client is released, and then the call settles. -/
theorem keeps_releaseThen {α : Type} {destroy : Bool} {left : Connection}
    {s : Play} {result : Except Thrown α} (hclient : s.client = some left)
    (hsafe : (s.release destroy left).releasedOpen = false) :
    ((release destroy).andThen fun _ => Proc.settled result).Keeps
      ApiQuery.action NeverOpen
        (fun _ s' => s'.client = none ∧ s'.releasedOpen = false) s := by
  apply Proc.Keeps.andThen
  apply (keeps_apiRelease hclient hsafe).mono
  rintro answer _ ⟨_, rfl⟩
  exact ⟨rfl, hsafe⟩

/-- `withMonthlyInsightsGenerationLock` destroys the client whose ROLLBACK has
failed. -/
theorem keeps_withMonthlyInsightsGenerationLock {α : Type} {lockKey : JsString}
    {callback : MonthlyInsightsCacheSession → ApiProgram α}
    (hcallback : UsesSession callback) :
    (StatementRepository.withMonthlyInsightsGenerationLock lockKey
      callback).Keeps ApiQuery.action NeverOpen
        (fun _ s' => s'.client = none ∧ s'.releasedOpen = false)
        Play.fresh := by
  refine keeps_connect rfl (fun _ => ⟨rfl, rfl⟩) ?_ ?_ fun _ connection _ => ?_
  · rfl
  · intro _
    rfl
  apply Proc.Keeps.andThen
  have hbody : Proc.Commits ApiQuery.action false (do
      clientQuery .begin
      clientQuery (.advisoryLock lockKey)
      let result ← callback StatementRepository.lockedCache
      clientQuery .commit
      return result) := by
    refine Proc.Commits.bind (inner_query rfl) fun _ _ => ?_
    refine Proc.Commits.bind (inner_query rfl) fun _ _ => ?_
    refine Proc.Commits.bind hcallback fun _ _ => ?_
    exact Proc.commits_call_bind rfl
  apply (hbody.keeps (by rintro ⟨⟩) (fun _ => rfl)).mono
  rintro result _ ⟨left, rfl, hok⟩
  cases result with
  | ok value =>
      rw [hok rfl]
      exact keeps_releaseThen rfl rfl
  | error error =>
      have hrollback : (clientQuery .rollback).Keeps ApiQuery.action NeverOpen
          (fun answer s' => ∃ left, s' = Play.abandoned left ∧
            (answer.isOk = true → left ≠ .inside)) (Play.fresh.hold left) :=
        keeps_rollback rfl fun _ => rfl
      apply Proc.Keeps.andThen
      apply hrollback.mono
      rintro answer _ ⟨left', rfl, houtside⟩
      cases answer with
      | ok _ =>
          apply keeps_releaseThen rfl
          simp [Play.release, Play.abandoned, houtside rfl]
      | error _ =>
          apply keeps_releaseThen rfl
          simp [Play.release, Play.abandoned]

theorem keeps_apiStatement {q : ApiClientQuery} {connection : Connection}
    (hq : (ApiQuery.client q).action = .statement)
    (houtside : connection ≠ .inside) :
    (clientQuery q).Keeps ApiQuery.action NeverOpen
      (fun _ s' => ∃ left, s' = Play.fresh.hold left ∧ left ≠ .inside)
      (Play.fresh.hold connection) :=
  keeps_statement hq houtside fun _ => rfl

/-- A client that is checked out for single statements only. -/
theorem keeps_statements {α : Type} {body : ApiProgram α}
    (hbody : ∀ connection, connection ≠ .inside →
      body.Keeps ApiQuery.action NeverOpen
        (fun _ s' => ∃ left, s' = Play.fresh.hold left ∧ left ≠ .inside)
        (Play.fresh.hold connection)) :
    (do connect; Proc.ensure body (release false)).Keeps ApiQuery.action
      NeverOpen (fun _ s' => s'.client = none ∧ s'.releasedOpen = false)
      Play.fresh := by
  refine keeps_connect rfl (fun _ => ⟨rfl, rfl⟩) ?_ ?_ fun _ connection hne => ?_
  · rfl
  · intro _
    rfl
  apply Proc.Keeps.andThen
  apply (hbody connection hne).mono
  rintro result _ ⟨left, rfl, hleft⟩
  have hsafe : ((Play.fresh.hold left).release false left).releasedOpen =
      false := by
    simp [Play.release, Play.hold, Play.fresh, hleft]
  apply Proc.Keeps.andThen
  apply (keeps_apiRelease rfl hsafe).mono
  rintro answer _ ⟨hok, rfl⟩
  cases answer with
  | ok _ => exact ⟨rfl, hsafe⟩
  | error _ => cases hok

theorem keeps_findMonthlyInsights (lookup : MonthlyInsightsCacheLookup) :
    (StatementRepository.findMonthlyInsights lookup).Keeps ApiQuery.action
      NeverOpen (fun _ s' => s'.client = none ∧ s'.releasedOpen = false)
      Play.fresh := by
  apply keeps_statements
  intro connection hne
  apply Proc.Keeps.andThen
  apply (keeps_apiStatement rfl hne).mono
  rintro answer s' hleft
  cases answer <;> exact hleft

theorem keeps_saveMonthlyInsights (input : SaveMonthlyInsightsInput) :
    (StatementRepository.saveMonthlyInsights input).Keeps ApiQuery.action
      NeverOpen (fun _ s' => s'.client = none ∧ s'.releasedOpen = false)
      Play.fresh :=
  keeps_statements fun _ hne => keeps_apiStatement rfl hne

end Api

section Worker

variable {id token : Uuid} {transactions : List CreateTransactionInput}

theorem inner_workerQuery {q : ClientQuery}
    (hq : (Query.client q).action.isInner = true) :
    (query q).Calls fun op => op.action.isInner = true :=
  ⟨hq, fun _ => trivial⟩

theorem inner_insertTransactions :
    (insertTransactions id transactions).Calls
      fun op => op.action.isInner = true :=
  calls_insertTransactions fun _ _ => rfl

theorem commits_saveUnderLock :
    (saveUnderLock id token transactions).Commits Query.action false := by
  refine Proc.Commits.bind (inner_workerQuery rfl) fun rows _ => ?_
  split
  · rintro ⟨⟩
  split
  · rintro ⟨⟩
  refine Proc.Commits.bind inner_insertTransactions fun _ _ => ?_
  refine Proc.Commits.bind (inner_workerQuery rfl) fun completed _ => ?_
  split
  · rintro ⟨⟩
  · exact Proc.commits_call rfl

/-- `saveTransactionsAndComplete` reports the error of its ROLLBACK, and
releases the client all the same. -/
theorem keeps_saveTransactionsAndComplete :
    (saveTransactionsAndComplete id token transactions).Keeps Query.action
      OpenAsLeft (fun _ s' => ReleasedAsLeft s') Play.fresh := by
  apply keeps_connect rfl (fun _ => ⟨false, rfl⟩) (by rintro ⟨⟩)
    (by rintro _ ⟨⟩)
  intro _ connection _
  apply keeps_transaction
  · refine Proc.Commits.bind (inner_workerQuery rfl) fun _ _ => ?_
    exact commits_saveUnderLock
  · intro error left
    apply keeps_handler rfl openAsLeft_abandoned
    intro answer
    cases answer with
    | ok _ => exact ⟨error, rfl⟩
    | error _ => exact ⟨aggregateError, rfl⟩
  · intro left
    exact keeps_release rfl rfl (openAsLeft_release left)

end Worker

/-- The call, whose result its caller alone looks at. -/
def discard {Op : Type} {Val : Op → Type} {α : Type} (p : Proc Op Val Thrown α) :
    Proc Op Val Thrown Unit :=
  p.andThen fun _ => .settled (.ok ())

theorem keeps_discard {Op : Type} {Val : Op → Type} {α : Type}
    {action : Op → ClientAction} {I : Play → Prop} {p : Proc Op Val Thrown α}
    {Q : Except Thrown α → Play → Prop} {s : Play} (h : p.Keeps action I Q s) :
    (discard p).Keeps action I (fun _ _ => True) s :=
  Proc.Keeps.andThen (h.mono fun _ _ _ => trivial)

/-- What uses the pool of the API. -/
inductive ApiMethod where
  | findMonthlyAnalytics
  | findMonthlyInsights
  | saveMonthlyInsights
  | withMonthlyInsightsGenerationLock
  | statement
deriving DecidableEq

inductive ApiMethod.Runs : ApiMethod → ApiProgram Unit → Prop
  | findMonthlyAnalytics (ranges : MonthlyAnalyticsRanges) :
      Runs .findMonthlyAnalytics
        (discard (StatementRepository.findMonthlyAnalytics ranges))
  | findMonthlyInsights (lookup : MonthlyInsightsCacheLookup) :
      Runs .findMonthlyInsights
        (discard (StatementRepository.findMonthlyInsights lookup))
  | saveMonthlyInsights (input : SaveMonthlyInsightsInput) :
      Runs .saveMonthlyInsights
        (discard (StatementRepository.saveMonthlyInsights input))
  | withMonthlyInsightsGenerationLock {α : Type} (lockKey : JsString)
      (callback : MonthlyInsightsCacheSession → ApiProgram α)
      (hcallback : UsesSession callback) :
      Runs .withMonthlyInsightsGenerationLock
        (discard (StatementRepository.withMonthlyInsightsGenerationLock lockKey
          callback))
  | statement (r : Request) :
      Runs .statement (discard (Proc.call (ApiQuery.request r)))

/-- What uses the pool of the worker. -/
inductive WorkerMethod where
  | saveTransactionsAndComplete
  | statement
deriving DecidableEq

inductive WorkerMethod.Runs : WorkerMethod → QueryProgram Unit → Prop
  | saveTransactionsAndComplete (id token : Uuid)
      (transactions : List CreateTransactionInput) :
      Runs .saveTransactionsAndComplete
        (discard (StatementAnalyzer.saveTransactionsAndComplete id token
          transactions))
  | statement (r : Request) :
      Runs .statement (discard (Proc.call (Query.request r)))

/-- The methods whose ROLLBACK must not fail with the session left inside. -/
def ApiMethod.strict : ApiMethod → Bool
  | findMonthlyAnalytics => true
  | _ => false

def WorkerMethod.strict : WorkerMethod → Bool
  | saveTransactionsAndComplete => true
  | statement => false

/-- What a method keeps at each of its calls. -/
def TransactionInvariant (strict : Bool) : Play → Prop :=
  if strict then OpenAsLeft else NeverOpen

theorem TransactionInvariant.closed {strict : Bool} {s : Play}
    (h : TransactionInvariant strict s)
    (hleft : strict = true → s.leftOpen = false) : s.releasedOpen = false := by
  cases strict with
  | true =>
      by_contra hopen
      have hleft' : s.leftOpen = true := h (by simpa using hopen)
      exact Bool.noConfusion ((hleft rfl).symm.trans hleft')
  | false => exact h

/-- In a run in which no ROLLBACK of a strict method is left open, no session of
the pool is. -/
theorem pool_rollsBack {Op Method : Type} {Val : Op → Type} {α : Type}
    {action : Op → ClientAction} {runs : Method → Proc Op Val Thrown α → Prop}
    {strict : Method → Bool} {c : Config (ClientPool Method) Op Val Thrown α}
    (hkeeps : ∀ method p, runs method p →
      TransactionInvariant (strict method) Play.fresh ∧
        p.Keeps action (TransactionInvariant (strict method)) (fun _ _ => True)
          Play.fresh)
    (h : (poolSystem action runs).Reachable c)
    (hrolls : c.world.RollsBack strict) :
    ClientPool.Clean action
      (fun method => TransactionInvariant (strict method)) c :=
  pool_clean hkeeps (fun _ _ => TransactionInvariant.closed) h hrolls

theorem keeps_request {Op : Type} {Val : Op → Type} {action : Op → ClientAction}
    {op : Op} {r : Request} (hop : action op = r.action) :
    (Proc.call op : Proc Op Val Thrown (Val op)).Keeps action NeverOpen
      (fun _ _ => True) Play.fresh := by
  intro answer s' hstep
  rw [hop, Request.action] at hstep
  refine ⟨?_, trivial⟩
  generalize answer.isOk = ok at hstep
  split at hstep
  · cases hstep with
    | fulfilled hsent | rejected hsent => cases hsent
    | other => rfl
  · cases hstep with
    | fulfilled hsent | rejected hsent => cases hsent
    | other => rfl

theorem ApiMethod.Runs.keeps {method : ApiMethod} {p : ApiProgram Unit}
    (h : method.Runs p) : TransactionInvariant method.strict Play.fresh ∧
      p.Keeps ApiQuery.action (TransactionInvariant method.strict)
        (fun _ _ => True) Play.fresh := by
  cases h with
  | findMonthlyAnalytics ranges =>
      exact ⟨by rintro ⟨⟩, keeps_discard (keeps_findMonthlyAnalytics ranges)⟩
  | findMonthlyInsights lookup =>
      exact ⟨rfl, keeps_discard (keeps_findMonthlyInsights lookup)⟩
  | saveMonthlyInsights input =>
      exact ⟨rfl, keeps_discard (keeps_saveMonthlyInsights input)⟩
  | withMonthlyInsightsGenerationLock lockKey callback hcallback =>
      exact ⟨rfl, keeps_discard
        (keeps_withMonthlyInsightsGenerationLock hcallback)⟩
  | statement r => exact ⟨rfl, keeps_discard (keeps_request rfl)⟩

theorem WorkerMethod.Runs.keeps {method : WorkerMethod} {p : QueryProgram Unit}
    (h : method.Runs p) : TransactionInvariant method.strict Play.fresh ∧
      p.Keeps Query.action (TransactionInvariant method.strict)
        (fun _ _ => True) Play.fresh := by
  cases h with
  | saveTransactionsAndComplete id token transactions =>
      exact ⟨by rintro ⟨⟩, keeps_discard keeps_saveTransactionsAndComplete⟩
  | statement r => exact ⟨rfl, keeps_discard (keeps_request rfl)⟩

/-- When a pooled client goes back outside any transaction.  For
`findMonthlyAnalytics` and `saveTransactionsAndComplete` it does exactly unless
the ROLLBACK is rejected with the session alive inside its transaction; for
`withMonthlyInsightsGenerationLock` always.  In every run without such a ROLLBACK
no session of the pool is inside a transaction, and no pooled statement runs
inside one. -/
theorem client_released_outside {α : Type} (ranges : MonthlyAnalyticsRanges)
    (id token : Uuid) (transactions : List CreateTransactionInput)
    (lockKey : JsString) (callback : MonthlyInsightsCacheSession → ApiProgram α)
    (hcallback : UsesSession callback) :
    (∀ result s, Proc.Plays ApiQuery.action
      (StatementRepository.findMonthlyAnalytics ranges) Play.fresh result s →
        (s.releasedOpen = true ↔ s.leftOpen = true)) ∧
    (∀ result s, Proc.Plays Query.action
      (saveTransactionsAndComplete id token transactions) Play.fresh result s →
        (s.releasedOpen = true ↔ s.leftOpen = true)) ∧
    (∀ result s, Proc.Plays ApiQuery.action
      (StatementRepository.withMonthlyInsightsGenerationLock lockKey callback)
        Play.fresh result s → s.releasedOpen = false) ∧
    (∀ c, (poolSystem ApiQuery.action ApiMethod.Runs).Reachable c →
      c.world.RollsBack ApiMethod.strict →
        Connection.inside ∉ c.world.idle ∧ c.world.ranInside = false) ∧
    ∀ c, (poolSystem Query.action WorkerMethod.Runs).Reachable c →
      c.world.RollsBack WorkerMethod.strict →
        Connection.inside ∉ c.world.idle ∧ c.world.ranInside = false := by
  refine ⟨?_, ?_, ?_, ?_, ?_⟩
  · intro result s hplays
    exact ((keeps_findMonthlyAnalytics ranges).plays hplays).iff
  · intro result s hplays
    exact (keeps_saveTransactionsAndComplete.plays hplays).iff
  · intro result s hplays
    exact ((keeps_withMonthlyInsightsGenerationLock hcallback).plays hplays).2
  · intro c hreachable hrolls
    have hclean := pool_rollsBack (fun _ _ hruns => hruns.keeps) hreachable hrolls
    exact ⟨hclean.idle, hclean.ranInside⟩
  · intro c hreachable hrolls
    have hclean := pool_rollsBack (fun _ _ hruns => hruns.keeps) hreachable hrolls
    exact ⟨hclean.idle, hclean.ranInside⟩

section Sample

/-- The first SELECT and the ROLLBACK run into the client-side timeout while the
session waits, alive. -/
theorem plays_findMonthlyAnalytics (ranges : MonthlyAnalyticsRanges) :
    Proc.Plays ApiQuery.action (StatementRepository.findMonthlyAnalytics ranges)
      Play.fresh (.error plainError) ⟨none, true, true⟩ :=
  .fulfilled () (.connected rfl (by decide : Connection.outside ≠ .inside))
    (.fulfilled () (.fulfilled rfl rfl (by decide))
      (.rejected plainError (.rejected rfl rfl (.inl rfl))
        (.rejected plainError (.rejected rfl rfl (.inl rfl))
          (.fulfilled () (.released rfl) .settled))))

theorem plays_saveTransactionsAndComplete (id token : Uuid)
    (transactions : List CreateTransactionInput) :
    Proc.Plays Query.action (saveTransactionsAndComplete id token transactions)
      Play.fresh (.error aggregateError) ⟨none, true, true⟩ :=
  .fulfilled () (.connected rfl (by decide : Connection.outside ≠ .inside))
    (.fulfilled () (.fulfilled rfl rfl (by decide))
      (.rejected plainError (.rejected rfl rfl (.inl rfl))
        (.rejected plainError (.rejected rfl rfl (.inl rfl))
          (.fulfilled () (.released rfl) .settled))))

theorem plays_withMonthlyInsightsGenerationLock {α : Type} (lockKey : JsString)
    (callback : MonthlyInsightsCacheSession → ApiProgram α) :
    Proc.Plays ApiQuery.action
      (StatementRepository.withMonthlyInsightsGenerationLock lockKey callback)
        Play.fresh (.error aggregateError) ⟨none, true, false⟩ :=
  .fulfilled () (.connected rfl (by decide : Connection.outside ≠ .inside))
    (.fulfilled () (.fulfilled rfl rfl (by decide))
      (.rejected plainError (.rejected rfl rfl (.inl rfl))
        (.rejected plainError (.rejected rfl rfl (.inl rfl))
          (.fulfilled () (.released rfl) .settled))))

/-- Two methods release a client inside its transaction, and then `markQueued`
runs inside such a transaction. -/
theorem client_released_inside :
    (∃ ranges result s, Proc.Plays ApiQuery.action
      (StatementRepository.findMonthlyAnalytics ranges) Play.fresh result s ∧
        s.releasedOpen = true) ∧
    (∃ id token transactions result s, Proc.Plays Query.action
      (saveTransactionsAndComplete id token transactions) Play.fresh result s ∧
        s.releasedOpen = true) ∧
    ∃ c, (poolSystem ApiQuery.action ApiMethod.Runs).Reachable c ∧
      c.world.ranInside = true := by
  let ranges : MonthlyAnalyticsRanges :=
    ⟨⟨js "2026-04-01", js "2026-05-01"⟩, ⟨js "2026-03-01", js "2026-04-01"⟩⟩
  refine ⟨⟨ranges, _, _, plays_findMonthlyAnalytics ranges, rfl⟩,
    ⟨⟨0⟩, ⟨1⟩, [], _, _, plays_saveTransactionsAndComplete _ _ _, rfl⟩, ?_⟩
  have h : (poolSystem ApiQuery.action ApiMethod.Runs).Reachable
      ⟨⟨[], fun _ => Play.fresh, fun _ => none, false⟩, fun _ => .idle⟩ :=
    .init rfl
  have h := h.step (.start (t := 0) rfl ⟨_, .findMonthlyAnalytics ranges, rfl⟩)
  have h := pool_fulfilled (t := 0) h () rfl (.opened rfl)
  have h := pool_fulfilled (t := 0) h () rfl
    (.sent rfl (.fulfilled rfl rfl (by decide)))
  have h := pool_rejected (t := 0) h plainError rfl
    (.sent rfl (.rejected rfl rfl (.inl rfl)))
  have h := pool_rejected (t := 0) h plainError rfl
    (.sent rfl (.rejected rfl rfl (.inl rfl)))
  have h := pool_fulfilled (t := 0) h () rfl (.released rfl)
  have h := h.step (.start (t := 1) rfl
    ⟨_, .statement (.updateStatement ⟨0⟩ .markQueued), rfl⟩)
  have h := pool_fulfilled (t := 1) h [] rfl
    (@ClientPool.Exec.pooled _ 1 _ true [] [] [.inside] .inside rfl (.inl rfl))
  exact ⟨_, h, rfl⟩

theorem client_released_outside_destroyed :
    (⟨none, true, false⟩ : Play).releasedOpen = false :=
  (client_released_outside ⟨⟨[], []⟩, ⟨[], []⟩⟩ ⟨0⟩ ⟨1⟩ [] []
    (fun _ => (pure () : ApiProgram Unit)) trivial).2.2.1 _ _
      (plays_withMonthlyInsightsGenerationLock [] _)

end Sample

end StatementAnalyzer
