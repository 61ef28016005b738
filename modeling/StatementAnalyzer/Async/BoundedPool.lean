/-
A pool of a fixed number of clients, and a clock.  A procedure that asks for a
client waits until one is free or its timer expires; clients go out in the order
in which they were asked for, and no time passes while a call is overdue.
-/
import StatementAnalyzer.Async.Journal
import Mathlib.Data.List.Perm.Subperm

namespace Async

variable {Op Op' : Type} {Val : Op → Type} {Val' : Op' → Type}
variable {ε α β Method Rest : Type}

/-- What a call does with the pool. -/
inductive PoolUse where
  | acquire
  /-- A call over the client that the procedure holds. -/
  | session
  | release
  /-- A call that acquires a client of its own and releases it. -/
  | pooled
  | other
deriving DecidableEq

namespace PoolUse

/-- Whether the call may be made, by a procedure that holds a client or not. -/
def allows : PoolUse → Bool → Bool
  | acquire, held | pooled, held => !held
  | session, held | release, held => held
  | other, _ => true

/-- Whether the procedure holds a client after the call; `ok` tells whether the
call is fulfilled. -/
def after : PoolUse → Bool → Bool → Bool
  | acquire, _, ok => ok
  | release, _, _ => false
  | _, held, _ => held

end PoolUse

namespace Proc

/-- Every call is one that its procedure may make with the client that it holds
or does not hold, and it settles as `Q` says. -/
def Carries (use : Op → PoolUse) :
    Proc Op Val ε α → (Except ε α → Bool → Prop) → Bool → Prop
  | .settled result, Q, held => Q result held
  | .await op resume, Q, held => (use op).allows held = true ∧
      ∀ answer, Carries use (resume answer) Q ((use op).after held answer.isOk)

/-- The procedure holds no client when it starts, and none when it settles. -/
def Balanced (use : Op → PoolUse) (p : Proc Op Val ε α) : Prop :=
  p.Carries use (fun _ held => held = false) false

variable {use : Op → PoolUse} {p : Proc Op Val ε α}
variable {Q R : Except ε α → Bool → Prop} {held : Bool}

theorem Carries.mono (h : p.Carries use Q held)
    (hQR : ∀ result held', Q result held' → R result held') :
    p.Carries use R held := by
  induction p generalizing held with
  | settled result => exact hQR _ _ h
  | await op resume ih => exact ⟨h.1, fun answer => ih answer (h.2 answer)⟩

theorem Carries.andThen {next : Except ε α → Proc Op Val ε β}
    {Q : Except ε β → Bool → Prop}
    (h : p.Carries use (fun result => (next result).Carries use Q) held) :
    (p.andThen next).Carries use Q held := by
  induction p generalizing held with
  | settled result => exact h
  | await op resume ih => exact ⟨h.1, fun answer => ih answer (h.2 answer)⟩

theorem Balanced.andThen {next : Except ε α → Proc Op Val ε β}
    (hp : p.Balanced use) (hnext : ∀ result, (next result).Balanced use) :
    (p.andThen next).Balanced use := by
  apply Carries.andThen
  apply Carries.mono hp
  rintro result _ rfl
  exact hnext result

theorem Balanced.bind {next : α → Proc Op Val ε β} (hp : p.Balanced use)
    (hnext : ∀ value, (next value).Balanced use) :
    (p >>= next).Balanced use := by
  apply hp.andThen
  intro result
  cases result with
  | ok value => exact hnext value
  | error error => exact rfl

theorem balanced_settled (result : Except ε α) :
    (settled result : Proc Op Val ε α).Balanced use := rfl

/-- Calls that leave the client where it is. -/
theorem Carries.of_calls {C : Op → Prop} (hp : p.Calls C)
    (hC : ∀ op, C op → (use op).allows held = true ∧
      ∀ ok, (use op).after held ok = held) :
    p.Carries use (fun _ held' => held' = held) held := by
  induction p with
  | settled result => exact rfl
  | await op resume ih =>
      obtain ⟨hallows, hafter⟩ := hC op hp.1
      refine ⟨hallows, fun answer => ?_⟩
      rw [hafter]
      exact ih answer (hp.2 answer)

/-- Each call is replaced by a procedure that does the same with the pool. -/
theorem Carries.interp {use' : Op' → PoolUse}
    {impl : (op : Op) → Proc Op' Val' ε (Val op)}
    (himpl : ∀ op held, (use op).allows held = true → (impl op).Carries use'
      (fun answer held' => held' = (use op).after held answer.isOk) held)
    (h : p.Carries use Q held) : (p.interp impl).Carries use' Q held := by
  induction p generalizing held with
  | settled result => exact h
  | await op resume ih =>
      apply Carries.andThen
      apply (himpl op held h.1).mono
      intro answer held' hheld
      rw [hheld]
      exact ih answer (h.2 answer)

end Proc

/-- What a run shows of a pool and its procedures: the time, whom the clients
have gone to, since when each procedure awaits its call, and which method it
runs. -/
structure PoolWorld (Method Rest : Type) where
  now : Nat
  clients : List Tid
  since : Tid → Nat
  caller : Tid → Option Method
  rest : Rest

/-- The call of the thread is answered. -/
def PoolWorld.answer (w : PoolWorld Method Rest) (t : Tid) (clients : List Tid)
    (rest : Rest) : PoolWorld Method Rest :=
  { w with clients, rest, since := Function.update w.since t w.now }

/-- The thread starts to run the method. -/
def PoolWorld.started (w : PoolWorld Method Rest) (t : Tid) (method : Method) :
    PoolWorld Method Rest :=
  { w with
    since := Function.update w.since t w.now
    caller := Function.update w.caller t (some method) }

@[simp] theorem PoolWorld.started_since_self (w : PoolWorld Method Rest) (t : Tid)
    (method : Method) : (w.started t method).since t = w.now := by
  simp [started]

@[simp] theorem PoolWorld.started_caller_self (w : PoolWorld Method Rest)
    (t : Tid) (method : Method) :
    (w.started t method).caller t = some method := by
  simp [started]

theorem PoolWorld.started_ne (w : PoolWorld Method Rest) {t u : Tid} (h : u ≠ t)
    (method : Method) : (w.started t method).since u = w.since u ∧
      (w.started t method).caller u = w.caller u := by
  simp [started, h]

/-- A client has gone to the thread. -/
def PoolWorld.hold (w : PoolWorld Method Rest) (t : Tid) :
    PoolWorld Method Rest :=
  { w with clients := t :: w.clients }

/-- A pool of `size` clients for the procedures of several methods.  A call may
take as long as `limit` says, and asking for a client ends then with `expired`.
`serves` is what the calls do to the rest of the world. -/
structure BoundedPool (Op : Type) (Val : Op → Type) (ε α Method Rest : Type) where
  size : Nat
  use : Op → PoolUse
  limit : Op → Option Nat
  expired : ε
  runs : Method → Proc Op Val ε α → Prop
  init : Rest → Prop
  serves : Tid → (op : Op) → Rest → Except ε (Val op) → Rest → Prop

/-- A configuration of procedures that share a pool. -/
abbrev PoolConfig (Op : Type) (Val : Op → Type) (ε α Method Rest : Type) :=
  Config (PoolWorld Method Rest) Op Val ε α

/-- The thread is at the call. -/
def Config.Awaits {World : Type} (c : Config World Op Val ε α) (t : Tid)
    (op : Op) : Prop :=
  ∃ resume, c.threads t = .running (.await op resume)

theorem Config.Awaits.unique {World : Type} {c : Config World Op Val ε α}
    {t : Tid} {op op' : Op} (h : c.Awaits t op) (h' : c.Awaits t op') :
    op = op' := by
  obtain ⟨resume, hrunning⟩ := h
  obtain ⟨resume', hrunning'⟩ := h'
  rw [hrunning] at hrunning'
  cases hrunning'
  rfl

namespace BoundedPool

/-- The possible answers to a call.  A client that is free is handed out, or
cannot be connected. -/
inductive Exec (P : BoundedPool Op Val ε α Method Rest) (t : Tid) (op : Op)
    (w : PoolWorld Method Rest) :
    Except ε (Val op) → PoolWorld Method Rest → Prop
  | acquired {value : Val op} {rest : Rest} (huse : P.use op = .acquire)
      (hfree : w.clients.length < P.size)
      (hserves : P.serves t op w.rest (.ok value) rest) :
      Exec P t op w (.ok value) (w.answer t (t :: w.clients) rest)
  | refused {error : ε} {rest : Rest} (huse : P.use op = .acquire)
      (hfree : w.clients.length < P.size)
      (hserves : P.serves t op w.rest (.error error) rest) :
      Exec P t op w (.error error) (w.answer t w.clients rest)
  | expired {limit : Nat} (huse : P.use op = .acquire)
      (hfull : P.size ≤ w.clients.length) (hlimit : P.limit op = some limit)
      (htime : w.since t + limit ≤ w.now) :
      Exec P t op w (.error P.expired) (w.answer t w.clients w.rest)
  | released {answer : Except ε (Val op)} {rest : Rest}
      (huse : P.use op = .release) (hserves : P.serves t op w.rest answer rest) :
      Exec P t op w answer (w.answer t (w.clients.erase t) rest)
  | served {answer : Except ε (Val op)} {rest : Rest}
      (huse : P.use op = .session ∨ P.use op = .other)
      (hserves : P.serves t op w.rest answer rest) :
      Exec P t op w answer (w.answer t w.clients rest)

/-- The procedures of the pool.  What happens by itself is that time passes. -/
def system (P : BoundedPool Op Val ε α Method Rest) :
    System (PoolWorld Method Rest) Op Val ε α where
  init w := P.init w.rest ∧ w = ⟨0, [], fun _ => 0, fun _ => none, w.rest⟩
  exec t op w answer w' := P.Exec t op w answer w'
  start t p w w' := ∃ method, P.runs method p ∧ w' = w.started t method
  crash _ _ _ := False
  env w w' := w' = { w with now := w.now + 1 }

/-- A free client goes to whoever has asked first, and time passes only while
no call is overdue and nobody waits for a free client. -/
def Timely (P : BoundedPool Op Val ε α Method Rest) :
    Label Op → PoolConfig Op Val ε α Method Rest → Prop
  | .call t op, c => P.use op = .acquire →
      c.world.clients.length < P.size → ∀ u op', c.Awaits u op' →
        P.use op' = .acquire → c.world.since t ≤ c.world.since u
  | .env, c => ∀ t op, c.Awaits t op →
      (∀ limit, P.limit op = some limit →
        c.world.now < c.world.since t + limit) ∧
      (P.use op = .acquire → P.size ≤ c.world.clients.length)
  | _, _ => True

/-- The configurations of the timely runs that never leave `Load`. -/
inductive Reaches (P : BoundedPool Op Val ε α Method Rest)
    (Load : PoolConfig Op Val ε α Method Rest → Prop) :
    PoolConfig Op Val ε α Method Rest → Prop
  | init {w : PoolWorld Method Rest} (h : P.system.init w)
      (hload : Load ⟨w, fun _ => .idle⟩) : Reaches P Load ⟨w, fun _ => .idle⟩
  | step {c c' : PoolConfig Op Val ε α Method Rest} {l : Label Op}
      (h : Reaches P Load c) (hstep : P.system.Step l c c')
      (htimely : P.Timely l c) (hload : Load c') : Reaches P Load c'

/-- A procedure of the method that has not settled. -/
def InFlight (method : Method) (c : PoolConfig Op Val ε α Method Rest)
    (t : Tid) : Prop :=
  c.world.caller t = some method ∧ ∃ op, c.Awaits t op

/-- No more than `n` procedures of the method are in flight. -/
def AtMost (n : Nat) (method : Method)
    (c : PoolConfig Op Val ε α Method Rest) : Prop :=
  ∀ ts : List Tid, ts.Nodup → (∀ t ∈ ts, InFlight method c t) → ts.length ≤ n

/-- A procedure that has asked for a client has run out of time, and all clients
are with procedures of the method, each at a call of `waits`. -/
structure Starved (P : BoundedPool Op Val ε α Method Rest) (method : Method)
    (waits : Op → Bool) (c : PoolConfig Op Val ε α Method Rest) (t : Tid) :
    Prop where
  expires : ∃ op limit, c.Awaits t op ∧ P.use op = .acquire ∧
    P.limit op = some limit ∧ c.world.since t + limit ≤ c.world.now
  full : P.size ≤ c.world.clients.length
  held : ∀ u ∈ c.world.clients, c.world.caller u = some method ∧
    ∃ op, waits op = true ∧ c.Awaits u op

section Runs

variable {P : BoundedPool Op Val ε α Method Rest}
variable {Load : PoolConfig Op Val ε α Method Rest → Prop}
variable {c c' : PoolConfig Op Val ε α Method Rest} {l : Label Op}
variable {w w' : PoolWorld Method Rest} {t : Tid} {op : Op}
variable {answer : Except ε (Val op)}

theorem Reaches.reachable (h : P.Reaches Load c) : P.system.Reachable c := by
  induction h with
  | init h _ => exact .init h
  | step _ hstep _ _ ih => exact ih.step hstep

theorem Reaches.load (h : P.Reaches Load c) : Load c := by
  cases h with
  | init _ hload => exact hload
  | step _ _ _ hload => exact hload

theorem Exec.caller (h : P.Exec t op w answer w') : w'.caller = w.caller := by
  cases h <;> rfl

/-- A call of one procedure leaves the clients of the others alone. -/
theorem Exec.others (h : P.Exec t op w answer w') {u : Tid} (hut : u ≠ t) :
    u ∈ w'.clients ↔ u ∈ w.clients := by
  cases h with
  | acquired _ _ _ => simp [PoolWorld.answer, hut]
  | released _ _ => exact List.mem_erase_of_ne hut
  | refused _ _ _ | expired _ _ _ _ | served _ _ => exact Iff.rfl

/-- Its own client is where `PoolUse.after` says. -/
theorem Exec.own (h : P.Exec t op w answer w') (hnodup : w.clients.Nodup)
    (hallows : (P.use op).allows (decide (t ∈ w.clients)) = true) :
    w'.clients.Nodup ∧ decide (t ∈ w'.clients) =
      (P.use op).after (decide (t ∈ w.clients)) answer.isOk := by
  cases h with
  | acquired huse _ _ =>
      rw [huse] at hallows
      have hnone : t ∉ w.clients := by simpa [PoolUse.allows] using hallows
      rw [huse]
      refine ⟨List.nodup_cons.mpr ⟨hnone, hnodup⟩, ?_⟩
      exact decide_eq_true List.mem_cons_self
  | refused huse _ _ | expired huse _ _ _ =>
      rw [huse] at hallows
      have hnone : t ∉ w.clients := by simpa [PoolUse.allows] using hallows
      rw [huse]
      exact ⟨hnodup, decide_eq_false hnone⟩
  | released huse _ =>
      rw [huse]
      exact ⟨hnodup.erase t, decide_eq_false hnodup.not_mem_erase⟩
  | served huse _ =>
      refine ⟨hnodup, ?_⟩
      rcases huse with huse | huse
      · rw [huse]
        rfl
      · rw [huse]
        rfl

/-- Each client is with one procedure, and every procedure goes on as the client
that it holds allows. -/
structure Disciplined (P : BoundedPool Op Val ε α Method Rest)
    (c : PoolConfig Op Val ε α Method Rest) : Prop where
  nodup : c.world.clients.Nodup
  holder : ∀ t ∈ c.world.clients, ∃ p, c.threads t = .running p
  running : ∀ t p, c.threads t = .running p →
    p.Carries P.use (fun _ held => held = false) (decide (t ∈ c.world.clients))

/-- A thread that holds a client has not settled. -/
theorem Disciplined.awaits (h : P.Disciplined c) (ht : t ∈ c.world.clients) :
    ∃ op, c.Awaits t op := by
  obtain ⟨p, hp⟩ := h.holder t ht
  have hcarries := h.running t p hp
  cases p with
  | settled result => simp [Proc.Carries, ht] at hcarries
  | await op resume => exact ⟨op, resume, hp⟩

theorem Disciplined.step (hruns : ∀ method p, P.runs method p → p.Balanced P.use)
    (h : P.Disciplined c) (hstep : P.system.Step l c c') :
    P.Disciplined c' := by
  cases hstep with
  | @call _ t op resume answer world running executes =>
      obtain ⟨hallows, hrest⟩ := h.running t _ running
      obtain ⟨hnodup, hown⟩ := executes.own h.nodup hallows
      refine ⟨hnodup, fun u hu => ?_, fun u q hq => ?_⟩
      · by_cases hut : u = t
        · subst hut
          exact ⟨_, Config.move_threads_self _ _ _ _⟩
        · rw [Config.move_threads_ne _ hut]
          exact h.holder u ((executes.others hut).mp hu)
      · by_cases hut : u = t
        · subst hut
          rw [Config.move_threads_self] at hq
          cases hq
          rw [Config.move_world, hown]
          exact hrest answer
        · rw [Config.move_threads_ne _ hut] at hq
          rw [Config.move_world, decide_eq_decide.mpr (executes.others hut)]
          exact h.running u q hq
  | @start _ t p world idle starts =>
      obtain ⟨method, hp, rfl⟩ := starts
      have hnone : t ∉ c.world.clients := by
        intro ht
        obtain ⟨q, hq⟩ := h.holder t ht
        rw [idle] at hq
        cases hq
      refine ⟨h.nodup, fun u hu => ?_, fun u q hq => ?_⟩
      · have hut : u ≠ t := fun hut => hnone (hut ▸ hu)
        rw [Config.move_threads_ne _ hut]
        exact h.holder u hu
      · by_cases hut : u = t
        · subst hut
          rw [Config.move_threads_self] at hq
          cases hq
          have hheld : decide (u ∈ (c.world.started u method).clients) = false :=
            decide_eq_false hnone
          rw [Config.move_world, hheld]
          exact hruns method p hp
        · rw [Config.move_threads_ne _ hut] at hq
          exact h.running u q hq
  | crash _ crashes => exact crashes.elim
  | env changes =>
      cases changes
      exact ⟨h.nodup, h.holder, h.running⟩

theorem disciplined (hruns : ∀ method p, P.runs method p → p.Balanced P.use)
    (h : P.system.Reachable c) : P.Disciplined c := by
  induction h with
  | init h =>
      rw [h.2]
      exact ⟨List.nodup_nil, by simp, nofun⟩
  | step _ hstep ih => exact ih.step hruns hstep

/-- With fewer procedures of the method in flight than there are clients, not
all of the clients are with them. -/
theorem Reaches.exists_other {n : Nat} {method : Method}
    (hruns : ∀ method p, P.runs method p → p.Balanced P.use)
    (h : P.Reaches (AtMost n method) c) (hn : n < P.size)
    (hfull : P.size ≤ c.world.clients.length) :
    ∃ u ∈ c.world.clients, c.world.caller u ≠ some method := by
  have hdisciplined := disciplined hruns h.reachable
  by_contra hall
  have hcount : c.world.clients.length ≤ n := by
    apply h.load _ hdisciplined.nodup
    intro u hu
    refine ⟨?_, hdisciplined.awaits hu⟩
    by_contra hcaller
    exact hall ⟨u, hu, hcaller⟩
  omega

theorem Reaches.not_starved {n : Nat} {method : Method} {waits : Op → Bool}
    (hruns : ∀ method p, P.runs method p → p.Balanced P.use)
    (h : P.Reaches (AtMost n method) c) (hn : n < P.size) :
    ¬P.Starved method waits c t := by
  intro hstarved
  obtain ⟨u, hu, hcaller⟩ := h.exists_other hruns hn hstarved.full
  exact hcaller (hstarved.held u hu).1

/-- A call that is answered at once. -/
theorem answer_eq (h : w.since t = w.now) (clients : List Tid) (rest : Rest) :
    w.answer t clients rest = { w with clients, rest } := by
  rw [PoolWorld.answer, ← h, Function.update_eq_self]

theorem exec_acquired {value : Val op} (hsince : w.since t = w.now)
    (huse : P.use op = .acquire) (hfree : w.clients.length < P.size)
    (hserves : P.serves t op w.rest (.ok value) w.rest) :
    P.Exec t op w (.ok value) (w.hold t) := by
  have hexec : P.Exec t op w (.ok value) _ := .acquired huse hfree hserves
  rwa [answer_eq hsince] at hexec

theorem exec_session {rest : Rest} (hsince : w.since t = w.now)
    (huse : P.use op = .session) (hserves : P.serves t op w.rest answer rest) :
    P.Exec t op w answer { w with rest } := by
  have hexec : P.Exec t op w answer _ := .served (.inl huse) hserves
  rwa [answer_eq hsince] at hexec

/-- The client goes back to where it was. -/
theorem exec_released (hsince : w.since t = w.now) (huse : P.use op = .release)
    (hserves : P.serves t op w.rest answer w.rest) :
    P.Exec t op (w.hold t) answer w := by
  have hexec : P.Exec t op (w.hold t) answer _ := .released huse hserves
  have hback : (w.hold t).clients.erase t = w.clients := List.erase_cons_head ..
  have hsame : (w.hold t).since t = (w.hold t).now := hsince
  rw [hback, answer_eq hsame] at hexec
  exact hexec

/-- Threads above `n` do not count if the method only runs below. -/
theorem atMost_of_lt {n : Nat} {method : Method}
    (h : ∀ t, c.world.caller t = some method → t < n) : AtMost n method c := by
  intro ts hnodup hts
  have hbelow : ts ⊆ List.range n :=
    fun t ht => List.mem_range.mpr (h t (hts t ht).1)
  simpa using (hnodup.subperm hbelow).length_le

/-- A thread goes on by itself while no other one waits for a client. -/
theorem Reaches.follow {p q : Proc Op Val ε α}
    {trace : List (Answered Op Val ε)} (h : P.Reaches Load c)
    (hthread : c.threads t = .running p) (hresumes : p.Resumes trace q)
    (hserved : Served Eq (fun w op answer w' => P.Exec t op w answer w')
      c.world trace w')
    (hothers : ∀ u op, u ≠ t → c.Awaits u op → P.use op ≠ .acquire)
    (hload : ∀ thread w, w.caller = c.world.caller →
      Load (c.move t thread w)) :
    P.Reaches Load (c.move t (.running q) w') := by
  induction hresumes generalizing c with
  | here =>
      cases served_nil_iff.mp hserved
      have hself : c.move t (c.threads t) c.world = c := by
        rw [Config.move, Function.update_eq_self]
      rw [← hthread, hself]
      exact h
  | @call op resume answer trace q _ ih =>
      obtain ⟨_, w₁, rfl, hexec, hrest⟩ := served_cons_iff.mp hserved
      have hmoved : P.Reaches Load (c.move t (.running (resume answer)) w₁) := by
        apply h.step (.call hthread hexec) _ (hload _ _ hexec.caller)
        intro _ _ u op' hawaits huse
        by_cases hut : u = t
        · exact Nat.le_of_eq (congrArg c.world.since hut.symm)
        · exact absurd huse (hothers u op' hut hawaits)
      rw [← Config.move_move c t (.running (resume answer)) _ w₁]
      apply ih hmoved (Config.move_threads_self _ _ _ _) hrest
      · rintro u op' hut ⟨resume', hrunning⟩
        rw [Config.move_threads_ne _ hut] at hrunning
        exact hothers u op' hut ⟨resume', hrunning⟩
      · intro thread w hcaller
        rw [Config.move_move]
        exact hload thread w (hcaller.trans hexec.caller)

/-- The configuration `time` later, with nothing else changed. -/
def later (c : PoolConfig Op Val ε α Method Rest) (time : Nat) :
    PoolConfig Op Val ε α Method Rest :=
  ⟨{ c.world with now := c.world.now + time }, c.threads⟩

@[simp] theorem later_now (c : PoolConfig Op Val ε α Method Rest) (time : Nat) :
    (later c time).world.now = c.world.now + time := rfl

@[simp] theorem later_since (c : PoolConfig Op Val ε α Method Rest)
    (time : Nat) : (later c time).world.since = c.world.since := rfl

/-- Time passes until a call is overdue. -/
theorem Reaches.later (h : P.Reaches Load c) (hload : ∀ time, Load (later c time))
    (hwaits : ∀ u op, c.Awaits u op → P.use op = .acquire →
      P.size ≤ c.world.clients.length) {time : Nat}
    (htime : ∀ u op limit, c.Awaits u op → P.limit op = some limit →
      c.world.now + time ≤ c.world.since u + limit) :
    P.Reaches Load (BoundedPool.later c time) := by
  induction time with
  | zero => exact h
  | succ time ih =>
      have hearlier : P.Reaches Load (BoundedPool.later c time) := by
        apply ih
        intro u op limit hawaits hlimit
        have := htime u op limit hawaits hlimit
        omega
      apply hearlier.step (.env rfl) _ (hload (time + 1))
      intro u op hawaits
      refine ⟨fun limit hlimit => ?_, hwaits u op hawaits⟩
      exact htime u op limit hawaits hlimit

end Runs

end BoundedPool

end Async
