/-
What requests for insights do to the other endpoints of the API.  Such a request
keeps a client of the pool while it waits for the generation lock and while
Bedrock works for it.
-/
import StatementAnalyzer.Api.PooledEndpoints

namespace StatementAnalyzer

open Async BoundedPool

def connectionTimeoutMillis : Nat := 2000

def query_timeout : Nat := 2000

def MONTHLY_INSIGHTS_LOCK_WAIT_TIMEOUT_MILLIS : Nat := 35000

def MONTHLY_INSIGHTS_GENERATION_TIMEOUT_MILLIS : Nat := 30000

/-- How long a call can take, in milliseconds. -/
def PooledQuery.limit : PooledQuery → Option Nat
  | query .connect => some connectionTimeoutMillis
  | query (.client (.advisoryLock _)) =>
      some MONTHLY_INSIGHTS_LOCK_WAIT_TIMEOUT_MILLIS
  | query (.client _) => some query_timeout
  | query (.analyze _) => some MONTHLY_INSIGHTS_GENERATION_TIMEOUT_MILLIS
  | query (.release _) => some 0
  | query .now => some 0
  | query (.request _) => none
  | statement _ => some query_timeout

/-- The calls that, once fulfilled, have done nothing to the locks. -/
def PooledQuery.keepsLocks : PooledQuery → Bool
  | query (.client (.advisoryLock _)) => false
  | query (.client .commit) => false
  | query (.client .rollback) => false
  | query (.release _) => false
  | _ => true

/-- The advisory lock that the transaction of a thread holds, as a hash of its
key. -/
abbrev AdvisoryLocks := Tid → Option Int

namespace AdvisoryLocks

/-- Nobody else holds the lock. -/
def Free (locks : AdvisoryLocks) (t : Tid) (hash : Int) : Prop :=
  ∀ u, u ≠ t → locks u ≠ some hash

/-- What the calls do to the locks.  The rows that they read may be any; a query
that is rejected may have been executed. -/
inductive Serves (hashtext : JsString → Int) (t : Tid) :
    (op : PooledQuery) → AdvisoryLocks → Except Thrown op.Answer →
      AdvisoryLocks → Prop
  | locked {locks : AdvisoryLocks} {lockKey : JsString}
      {answer : Except Thrown Unit} (hfree : locks.Free t (hashtext lockKey)) :
      Serves hashtext t (.query (.client (.advisoryLock lockKey))) locks answer
        (Function.update locks t (some (hashtext lockKey)))
  | ended {locks : AdvisoryLocks} {q : ApiClientQuery}
      {answer : Except Thrown q.Answer} (hq : q = .commit ∨ q = .rollback) :
      Serves hashtext t (.query (.client q)) locks answer
        (Function.update locks t none)
  | destroyed {locks : AdvisoryLocks} :
      Serves hashtext t (.query (.release true)) locks (.ok ())
        (Function.update locks t none)
  | released {locks : AdvisoryLocks} :
      Serves hashtext t (.query (.release false)) locks (.ok ()) locks
  | rejected {locks : AdvisoryLocks} {op : PooledQuery} {error : Thrown}
      (hop : op.use ≠ .release) :
      Serves hashtext t op locks (.error error) locks
  | other {locks : AdvisoryLocks} {op : PooledQuery} {value : op.Answer}
      (hop : op.keepsLocks = true) :
      Serves hashtext t op locks (.ok value) locks

end AdvisoryLocks

/-- The API with a pool of `size` clients, before its first request.  Nothing is
known of `hashtext`. -/
def apiPool (hashtext : JsString → Int) (options : MonthlyInsightsServiceOptions)
    (size : Nat) : BoundedPool PooledQuery PooledQuery.Answer Thrown ApiResponse
      ApiEndpoint AdvisoryLocks where
  size := size
  use := PooledQuery.use
  limit := PooledQuery.limit
  expired := plainError
  runs := ApiEndpoint.Runs options
  init locks := locks = fun _ => none
  serves := AdvisoryLocks.Serves hashtext

abbrev ApiConfig :=
  PoolConfig PooledQuery PooledQuery.Answer Thrown ApiResponse ApiEndpoint
    AdvisoryLocks

/-- A wait for the generation lock or for Bedrock. -/
def PooledQuery.waitsForInsights : PooledQuery → Bool
  | query (.client (.advisoryLock _)) => true
  | query (.analyze _) => true
  | _ => false

/-- The endpoints that do not depend on Bedrock. -/
def ApiEndpoint.isNumeric : ApiEndpoint → Bool
  | monthlyAnalytics | createStatement => true
  | _ => false

/-- A numeric request is out of time for its client while all clients are with
requests for insights that wait for the lock or for Bedrock. -/
def StarvedByInsights (P : BoundedPool PooledQuery PooledQuery.Answer Thrown
    ApiResponse ApiEndpoint AdvisoryLocks) (c : ApiConfig) (t : Tid) : Prop :=
  (∃ endpoint, c.world.caller t = some endpoint ∧ endpoint.isNumeric = true) ∧
    P.Starved .monthlyInsights PooledQuery.waitsForInsights c t

section Sample

variable {hashtext : JsString → Int} {options : MonthlyInsightsServiceOptions}

def aprilQuery : MonthlyAnalyticsQuery :=
  ⟨2026, 4, by decide, by decide⟩

def aprilRanges : MonthlyAnalyticsRanges :=
  ⟨⟨js "2026-04-01", js "2026-05-01"⟩, ⟨js "2026-03-01", js "2026-04-01"⟩⟩

abbrev PooledTrace := List (Async.Answered PooledQuery PooledQuery.Answer Thrown)

/-- The queries of a month without transactions. -/
def emptyMonth (range : AnalyticsDateRange) : PooledTrace :=
  [⟨.query (.client (.selectOverview range)), .ok [⟨0, 0⟩]⟩,
    ⟨.query (.client (.selectCategories range)), .ok []⟩,
    ⟨.query (.client (.selectMerchants range)), .ok []⟩]

def emptyInput : CompactInsightsInput :=
  insightsInput 2026 4 ⟨⟨0, 0, [], []⟩, ⟨0, 0, [], []⟩⟩

def emptyLookup (options : MonthlyInsightsServiceOptions) :
    MonthlyInsightsCacheLookup :=
  insightsLookup options aprilRanges emptyInput

/-- The calls of a request for insights before it asks for the lock. -/
def missTrace (options : MonthlyInsightsServiceOptions) : PooledTrace :=
  [⟨.query .connect, .ok ()⟩, ⟨.query (.client .beginRepeatableRead), .ok ()⟩] ++
    emptyMonth aprilRanges.current ++ emptyMonth aprilRanges.previous ++
    [⟨.query (.client .commit), .ok ()⟩, ⟨.query (.release false), .ok ()⟩,
      ⟨.query .connect, .ok ()⟩,
      ⟨.query (.client (.selectMonthlyInsights (emptyLookup options))), .ok []⟩,
      ⟨.query (.release false), .ok ()⟩, ⟨.query .connect, .ok ()⟩,
      ⟨.query (.client .begin), .ok ()⟩]

theorem resumes_missTrace (options : MonthlyInsightsServiceOptions) : ∃ resume,
    ((getInsights options aprilQuery).interp pooledQuery).Resumes
      (missTrace options) (.await (.query (.client (.advisoryLock
        (insightsLockKey (emptyLookup options))))) resume) := by
  apply Exists.intro
  iterate 15 apply Proc.Resumes.call
  exact .here

/-- The calls of the request that has got the lock, up to its call of the
analyzer. -/
def lockedTrace (options : MonthlyInsightsServiceOptions) : PooledTrace :=
  missTrace options ++
    [⟨.query (.client (.advisoryLock (insightsLockKey (emptyLookup options)))),
        .ok ()⟩,
      ⟨.query (.client (.selectMonthlyInsights (emptyLookup options))), .ok []⟩]

theorem resumes_lockedTrace (options : MonthlyInsightsServiceOptions) : ∃ resume,
    ((getInsights options aprilQuery).interp pooledQuery).Resumes
      (lockedTrace options) (.await (.query (.analyze emptyInput)) resume) := by
  apply Exists.intro
  iterate 17 apply Proc.Resumes.call
  exact .here

section Served

variable {size : Nat} {w : PoolWorld ApiEndpoint AdvisoryLocks} {t : Tid}

/-- A transaction without a lock ends. -/
theorem serves_commit (hlock : w.rest t = none) :
    AdvisoryLocks.Serves hashtext t (.query (.client .commit)) w.rest (.ok ())
      w.rest := by
  have hended : AdvisoryLocks.Serves hashtext t (.query (.client .commit)) w.rest
      (.ok ()) (Function.update w.rest t none) := .ended (.inl rfl)
  rwa [← hlock, Function.update_eq_self] at hended

theorem served_missTrace (hsince : w.since t = w.now)
    (hfree : w.clients.length < size) (hlock : w.rest t = none) :
    Served Eq (fun w op answer w' =>
        (apiPool hashtext options size).Exec t op w answer w')
      w (missTrace options) (w.hold t) := by
  have hselect : ∀ (q : ApiClientQuery) (rows : q.Answer),
      (PooledQuery.query (.client q)).keepsLocks = true →
        (apiPool hashtext options size).Exec t (.query (.client q))
          (w.hold t) (.ok rows)
          (w.hold t) :=
    fun q rows hkeeps => exec_session hsince rfl (.other hkeeps)
  have hconnect : (apiPool hashtext options size).Exec t (.query .connect) w
      (.ok ()) (w.hold t) :=
    exec_acquired hsince rfl hfree (.other rfl)
  have hrelease : (apiPool hashtext options size).Exec t (.query (.release false))
      (w.hold t) (.ok ()) w :=
    exec_released hsince rfl .released
  have hcommit : (apiPool hashtext options size).Exec t
      (.query (.client .commit)) (w.hold t) (.ok ()) (w.hold t) :=
    exec_session hsince rfl (serves_commit hlock)
  apply Served.cons rfl hconnect
  iterate 7 apply Served.cons rfl (hselect _ _ rfl)
  apply Served.cons rfl hcommit
  apply Served.cons rfl hrelease
  apply Served.cons rfl hconnect
  apply Served.cons rfl (hselect _ _ rfl)
  apply Served.cons rfl hrelease
  apply Served.cons rfl hconnect
  exact Served.cons rfl (hselect _ _ rfl) .nil

/-- The lock is free for the first request. -/
theorem served_lockedTrace (hsince : w.since t = w.now)
    (hfree : w.clients.length < size) (hlocks : ∀ u, w.rest u = none) :
    Served Eq (fun w op answer w' =>
        (apiPool hashtext options size).Exec t op w answer w')
      w (lockedTrace options) { w.hold t with
        rest := Function.update w.rest t
          (some (hashtext (insightsLockKey (emptyLookup options)))) } := by
  have hsame : (w.hold t).since t = (w.hold t).now := hsince
  have hfreeLock : AdvisoryLocks.Free (w.hold t).rest t
      (hashtext (insightsLockKey (emptyLookup options))) := by
    intro u _ hheld
    cases (hlocks u).symm.trans hheld
  apply served_append_iff.mpr
  refine ⟨_, served_missTrace hsince hfree (hlocks t), ?_⟩
  apply Served.cons rfl
    (exec_session hsame rfl (AdvisoryLocks.Serves.locked hfreeLock))
  apply Served.cons rfl _ .nil
  exact exec_session hsince rfl (AdvisoryLocks.Serves.other rfl)

/-- The first request gets to Bedrock, and any other one to the lock. -/
theorem served_wait (hashtext : JsString → Int)
    (options : MonthlyInsightsServiceOptions) (hsince : w.since t = w.now)
    (hfree : w.clients.length < size)
    (hlocks : ∀ u, u ≠ 0 ∨ t = 0 → w.rest u = none) :
    ∃ trace op resume rest, op.waitsForInsights = true ∧
      ((getInsights options aprilQuery).interp pooledQuery).Resumes trace
        (.await op resume) ∧
      Served Eq (fun w op answer w' =>
          (apiPool hashtext options size).Exec t op w answer w')
        w trace { w.hold t with rest } ∧ ∀ u, u ≠ 0 → rest u = none := by
  by_cases hfirst : t = 0
  · obtain ⟨resume, hresumes⟩ := resumes_lockedTrace options
    refine ⟨_, _, resume, _, rfl, hresumes,
      served_lockedTrace hsince hfree fun u => hlocks u (.inr hfirst), ?_⟩
    intro u hu
    rw [hfirst, Function.update_of_ne hu]
    exact hlocks u (.inl hu)
  · obtain ⟨resume, hresumes⟩ := resumes_missTrace options
    exact ⟨_, _, resume, w.rest, rfl, hresumes,
      served_missTrace hsince hfree (hlocks t (.inl hfirst)),
      fun u hu => hlocks u (.inl hu)⟩

end Served

variable {n k m : Nat} {c : ApiConfig}

/-- The first `m` requests for insights of one month, and nothing else: one waits
for Bedrock, under the lock, and the others wait for the lock. -/
structure Stalled (hashtext : JsString → Int)
    (options : MonthlyInsightsServiceOptions) (n k m : Nat) (c : ApiConfig) :
    Prop where
  reaches : (apiPool hashtext options k).Reaches (AtMost n .monthlyInsights) c
  now : c.world.now = 0
  clients : c.world.clients.length = m
  held : ∀ u ∈ c.world.clients, u < m
  waits : ∀ u < m, c.world.caller u = some .monthlyInsights ∧
    c.world.since u = 0 ∧ ∃ op, op.waitsForInsights = true ∧ c.Awaits u op
  idle : ∀ u, m ≤ u → c.threads u = .idle ∧ c.world.caller u = none
  locks : ∀ u, u ≠ 0 ∨ m = 0 → c.world.rest u = none

theorem stalled_zero : ∃ c, Stalled hashtext options n k 0 c := by
  refine ⟨⟨⟨0, [], fun _ => 0, fun _ => none, fun _ => none⟩, fun _ => .idle⟩,
    .init ⟨rfl, rfl⟩ ?_, rfl, rfl, by simp, by simp, fun _ _ => ⟨rfl, rfl⟩,
    fun _ _ => rfl⟩
  apply atMost_of_lt
  rintro t ⟨⟩

/-- A call at which a request for insights waits does not ask for a client, and
it may take 30 seconds. -/
theorem waits_limit {op : PooledQuery} (hwaits : op.waitsForInsights = true) :
    op.use ≠ .acquire ∧ ∃ limit, op.limit = some limit ∧
      MONTHLY_INSIGHTS_GENERATION_TIMEOUT_MILLIS ≤ limit := by
  cases op with
  | statement r => cases hwaits
  | query q =>
      cases q with
      | analyze input => exact ⟨nofun, _, rfl, Nat.le_refl _⟩
      | client q =>
          cases q with
          | advisoryLock lockKey => exact ⟨nofun, _, rfl, by decide⟩
          | _ => cases hwaits
      | _ => cases hwaits

/-- Where the threads of a stalled run are. -/
theorem Stalled.awaits (h : Stalled hashtext options n k m c) {u : Tid}
    {op : PooledQuery} (hawaits : c.Awaits u op) :
    u < m ∧ op.waitsForInsights = true := by
  by_cases hu : u < m
  · obtain ⟨_, _, op', hwaits, hawaits'⟩ := h.waits u hu
    rw [hawaits.unique hawaits']
    exact ⟨hu, hwaits⟩
  · obtain ⟨resume, hrunning⟩ := hawaits
    rw [(h.idle u (Nat.le_of_not_lt hu)).1] at hrunning
    cases hrunning

theorem Stalled.caller (h : Stalled hashtext options n k m c) {u : Tid}
    (hcaller : c.world.caller u = some .monthlyInsights) : u < m := by
  by_contra hu
  rw [(h.idle u (Nat.le_of_not_lt hu)).2] at hcaller
  cases hcaller

theorem Stalled.caller_started (h : Stalled hashtext options n k m c)
    {endpoint : ApiEndpoint} {u : Tid}
    (hcaller : (c.world.started m endpoint).caller u = some .monthlyInsights) :
    u < m ∨ u = m ∧ endpoint = .monthlyInsights := by
  by_cases hu : u = m
  · subst hu
    rw [PoolWorld.started_caller_self, Option.some.injEq] at hcaller
    exact .inr ⟨rfl, hcaller⟩
  · rw [(c.world.started_ne hu _).2] at hcaller
    exact .inl (h.caller hcaller)

/-- A request starts after the stalled ones. -/
theorem Stalled.start (h : Stalled hashtext options n k m c)
    {endpoint : ApiEndpoint} {p : PooledProgram ApiResponse}
    (hruns : endpoint.Runs options p)
    (hload : ∀ u, (c.world.started m endpoint).caller u =
      some .monthlyInsights → u < n) :
    (apiPool hashtext options k).Reaches (AtMost n .monthlyInsights)
      (c.move m (.running p) (c.world.started m endpoint)) := by
  have hidle := (h.idle m (Nat.le_refl m)).1
  apply h.reaches.step (.start hidle ⟨endpoint, hruns, rfl⟩) trivial
  exact atMost_of_lt hload

/-- One more request for insights comes and waits. -/
theorem Stalled.succ (h : Stalled hashtext options n k m c) (hk : m < k)
    (hn : m < n) : ∃ c', Stalled hashtext options n k (m + 1) c' := by
  have hload : ∀ u, (c.world.started m .monthlyInsights).caller u =
      some .monthlyInsights → u < n := by
    intro u hcaller
    rcases h.caller_started hcaller with hu | ⟨hu, _⟩
    · exact Nat.lt_trans hu hn
    · exact hu ▸ hn
  have hstart := h.start (.monthlyInsights aprilQuery) hload
  have hsince := c.world.started_since_self m ApiEndpoint.monthlyInsights
  have hfree : c.world.clients.length < k := h.clients ▸ hk
  obtain ⟨trace, op, resume, rest, hwaits, hresumes, hserved, hrest⟩ :=
    served_wait hashtext options hsince hfree h.locks
  have hreaches := hstart.follow (Config.move_threads_self ..) hresumes hserved
    (by
      rintro u op' hu ⟨resume', hrunning⟩
      rw [Config.move_threads_ne _ hu] at hrunning
      exact (waits_limit (h.awaits ⟨resume', hrunning⟩).2).1)
    (by
      intro thread w hcaller
      rw [Config.move_move]
      apply atMost_of_lt
      intro u hu
      apply hload u
      rw [← hu, Config.move_world, hcaller, Config.move_world])
  rw [Config.move_move] at hreaches
  refine ⟨_, hreaches, h.now, congrArg Nat.succ h.clients, ?_, ?_, ?_, ?_⟩
  · intro u hu
    rcases List.mem_cons.mp hu with hum | hold
    · exact Nat.lt_succ_of_le (Nat.le_of_eq hum)
    · exact Nat.lt_succ_of_lt (h.held u hold)
  · intro u hu
    by_cases hum : u = m
    · subst hum
      refine ⟨PoolWorld.started_caller_self .., hsince.trans h.now, op, hwaits, ?_⟩
      exact ⟨resume, Config.move_threads_self ..⟩
    · obtain ⟨hcaller, hzero, op', hwaits', resume', hrunning⟩ :=
        h.waits u (by omega)
      obtain ⟨hsame, hsame'⟩ := c.world.started_ne hum ApiEndpoint.monthlyInsights
      refine ⟨hsame'.trans hcaller, hsame.trans hzero, op', hwaits', resume', ?_⟩
      rw [Config.move_threads_ne _ hum]
      exact hrunning
  · intro u hu
    have hum : u ≠ m := by omega
    obtain ⟨hidle, hnone⟩ := h.idle u (by omega)
    rw [Config.move_threads_ne _ hum]
    exact ⟨hidle, (c.world.started_ne hum _).2.trans hnone⟩
  · intro u hu
    exact hrest u (hu.resolve_right (Nat.succ_ne_zero m))

theorem stalled (hk : m ≤ k) (hn : m ≤ n) :
    ∃ c, Stalled hashtext options n k m c := by
  induction m with
  | zero => exact stalled_zero
  | succ m ih =>
      obtain ⟨c, h⟩ := ih (Nat.le_of_succ_le hk) (Nat.le_of_succ_le hn)
      exact h.succ hk hn

/-- A request for the numbers has just asked for a client, and all `k` clients
are with requests for insights that wait. -/
structure Asked (hashtext : JsString → Int)
    (options : MonthlyInsightsServiceOptions) (n k : Nat) (c : ApiConfig) :
    Prop where
  reaches : (apiPool hashtext options k).Reaches (AtMost n .monthlyInsights) c
  load : ∀ u, c.world.caller u = some .monthlyInsights → u < n
  now : c.world.now = 0
  clients : c.world.clients.length = k
  held : ∀ u ∈ c.world.clients, u < k
  waits : ∀ u < k, c.world.caller u = some .monthlyInsights ∧
    c.world.since u = 0 ∧ ∃ op, op.waitsForInsights = true ∧ c.Awaits u op
  caller : c.world.caller k = some .monthlyAnalytics
  since : c.world.since k = 0
  asks : c.threads k =
    .running ((getMonthlyAnalytics aprilQuery).interp pooledQuery)
  others : ∀ u op, c.Awaits u op → u ≤ k

theorem exists_asked (h : k ≤ n) : ∃ c, Asked hashtext options n k c := by
  have hstalls : ∃ c, Stalled hashtext options n k k c := stalled (Nat.le_refl k) h
  obtain ⟨c, hstalled⟩ := hstalls
  have hload : ∀ u, (c.world.started k .monthlyAnalytics).caller u =
      some .monthlyInsights → u < n := by
    intro u hcaller
    rcases hstalled.caller_started hcaller with hu | ⟨_, hendpoint⟩
    · exact Nat.lt_of_lt_of_le hu h
    · cases hendpoint
  have hsince := c.world.started_since_self k ApiEndpoint.monthlyAnalytics
  refine ⟨_, hstalled.start (.monthlyAnalytics aprilQuery) hload, hload,
    hstalled.now, hstalled.clients, hstalled.held, ?_,
    PoolWorld.started_caller_self .., hsince.trans hstalled.now,
    Config.move_threads_self .., ?_⟩
  · intro u hu
    obtain ⟨hcaller, hzero, op, hwaits, resume, hrunning⟩ := hstalled.waits u hu
    have huk : u ≠ k := Nat.ne_of_lt hu
    obtain ⟨hsame, hsame'⟩ := c.world.started_ne huk ApiEndpoint.monthlyAnalytics
    refine ⟨hsame'.trans hcaller, hsame.trans hzero, op, hwaits, resume, ?_⟩
    rw [Config.move_threads_ne _ huk]
    exact hrunning
  · rintro u op ⟨resume, hrunning⟩
    by_cases huk : u = k
    · exact Nat.le_of_eq huk
    · rw [Config.move_threads_ne _ huk] at hrunning
      exact Nat.le_of_lt (hstalled.awaits ⟨resume, hrunning⟩).1

theorem Asked.connects (h : Asked hashtext options n k c) :
    c.Awaits k (.query .connect) := by
  obtain ⟨resume, hconnect, _⟩ := getMonthlyAnalytics_unavailable aprilQuery
  exact ⟨resume, hconnect ▸ h.asks⟩

/-- Its timer is the first one to expire. -/
theorem Asked.expires (h : Asked hashtext options n k c) :
    (apiPool hashtext options k).Reaches (AtMost n .monthlyInsights)
      (later c connectionTimeoutMillis) := by
  apply h.reaches.later
  · intro time
    exact atMost_of_lt h.load
  · intro u op _ _
    exact Nat.le_of_eq h.clients.symm
  · intro u op limit hawaits hlimit
    rw [h.now]
    rcases Nat.eq_or_lt_of_le (h.others u op hawaits) with hu | hu
    · subst hu
      rw [hawaits.unique h.connects] at hlimit
      cases hlimit
      rw [h.since]
    · obtain ⟨_, hzero, op', hwaits, hawaits'⟩ := h.waits u hu
      obtain ⟨_, limit', hlimit', hlong⟩ := waits_limit hwaits
      rw [← hawaits.unique hawaits'] at hlimit'
      cases hlimit.symm.trans hlimit'
      rw [hzero]
      exact Nat.add_le_add_left (Nat.le_trans (by decide) hlong) 0

theorem Asked.starved (h : Asked hashtext options n k c) :
    StarvedByInsights (apiPool hashtext options k)
      (later c connectionTimeoutMillis) k := by
  refine ⟨⟨.monthlyAnalytics, h.caller, rfl⟩, ?_,
    Nat.le_of_eq h.clients.symm, ?_⟩
  · refine ⟨_, _, h.connects, rfl, rfl, ?_⟩
    rw [later_since, later_now, h.since, h.now]
  · intro u hu
    obtain ⟨hcaller, _, hwaits⟩ := h.waits u (h.held u hu)
    exact ⟨hcaller, hwaits⟩

/-- Bedrock has not even used up its time. -/
theorem Asked.waited (h : Asked hashtext options n k c) {u : Tid}
    (hu : u ∈ c.world.clients) : c.world.since u ≤ c.world.since k ∧
      c.world.now + connectionTimeoutMillis <
        c.world.since u + MONTHLY_INSIGHTS_GENERATION_TIMEOUT_MILLIS := by
  obtain ⟨_, hzero, _⟩ := h.waits u (h.held u hu)
  rw [h.now, h.since, hzero]
  exact ⟨Nat.le_refl 0, by decide⟩

/-- The request gets no client and answers 503. -/
theorem Asked.fails (h : Asked hashtext options n k c) : ∃ c',
    (apiPool hashtext options k).system.Step (.call k (.query .connect))
      (later c connectionTimeoutMillis) c' ∧
    c'.threads k =
      .running (.settled (.ok (.statement dependencyUnavailable))) := by
  obtain ⟨resume, hconnect, hunavailable⟩ :=
    getMonthlyAnalytics_unavailable aprilQuery
  have hrunning : (later c connectionTimeoutMillis).threads k =
      .running (.await (.query .connect) resume) := hconnect ▸ h.asks
  have htime : (later c connectionTimeoutMillis).world.since k +
      connectionTimeoutMillis ≤ (later c connectionTimeoutMillis).world.now := by
    rw [later_since, later_now, h.since, h.now]
  refine ⟨_, .call hrunning
    (.expired rfl (Nat.le_of_eq h.clients.symm) rfl htime), ?_⟩
  rw [Config.move_threads_self]
  exact congrArg Thread.running (hunavailable _)

end Sample

/-- Insights cannot take the clients of the numeric API away exactly if fewer of
their requests are in flight than the pool has clients. -/
theorem numeric_api_independent_iff (hashtext : JsString → Int)
    (options : MonthlyInsightsServiceOptions) (k n : Nat) :
    (∀ c, (apiPool hashtext options k).Reaches (AtMost n .monthlyInsights) c →
      ∀ t, ¬StarvedByInsights (apiPool hashtext options k) c t) ↔ n < k := by
  constructor
  · intro hserved
    by_contra hn
    have hasks : ∃ c, Asked hashtext options n k c :=
      exists_asked (Nat.le_of_not_lt hn)
    obtain ⟨c, hasked⟩ := hasks
    exact hserved _ hasked.expires k hasked.starved
  · intro hn c hreaches t hstarved
    have hbalanced : ∀ endpoint p, (apiPool hashtext options k).runs endpoint p →
        p.Balanced (apiPool hashtext options k).use :=
      fun endpoint p => ApiEndpoint.Runs.balanced
    exact hreaches.not_starved hbalanced hn hstarved.2

section Starved

def loadOptions : MonthlyInsightsServiceOptions :=
  ⟨js "model", js "v1", fun _ => []⟩

/-- Ten requests for the insights of April 2026 hold the ten clients, one at
Bedrock and nine at the lock.  A request for the numbers of that month comes and
answers 503 two seconds later, while Bedrock still has 28 of its 30. -/
theorem numeric_request_starved :
    ∃ c c', (apiPool (fun _ => 0) loadOptions 10).Reaches
        (AtMost 10 .monthlyInsights) c ∧
      StarvedByInsights (apiPool (fun _ => 0) loadOptions 10) c 10 ∧
      (∀ u ∈ c.world.clients, c.world.since u ≤ c.world.since 10 ∧
        c.world.now < c.world.since u +
          MONTHLY_INSIGHTS_GENERATION_TIMEOUT_MILLIS) ∧
      (apiPool (fun _ => 0) loadOptions 10).system.Step
        (.call 10 (.query .connect)) c c' ∧
      c'.threads 10 =
        .running (.settled (.ok (.statement dependencyUnavailable))) := by
  have hasks : ∃ c, Asked (fun _ => 0) loadOptions 10 10 c :=
    exists_asked (Nat.le_refl 10)
  obtain ⟨c, hasked⟩ := hasks
  obtain ⟨c', hstep, hfailed⟩ := hasked.fails
  exact ⟨_, c', hasked.expires, hasked.starved, fun _ => hasked.waited, hstep,
    hfailed⟩

end Starved

end StatementAnalyzer
