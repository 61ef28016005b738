/-
Clients of a connection pool.  A procedure checks a client out, sends queries
over its session and releases it; any query may be rejected while the session
lives on, with or without the query having been executed.
-/
import StatementAnalyzer.Async.System

namespace Async

/-- What a call does with the client of its procedure. -/
inductive ClientAction where
  | connect
  | begin
  | statement
  | commit
  | rollback
  | release (destroy : Bool)
  /-- A statement that the pool runs over another client. -/
  | pooled
  | other
deriving DecidableEq, Repr

/-- Where the session of a connection stands. -/
inductive Connection where
  | outside
  | inside
  | lost
deriving DecidableEq, Repr

namespace ClientAction

/-- A query over the checked-out client. -/
def isSent : ClientAction → Bool
  | begin | statement | commit | rollback => true
  | _ => false

/-- A call between the check-out and the clean-up. -/
def isInner : ClientAction → Bool
  | connect | rollback | release _ => false
  | _ => true

/-- The session once the server has executed the query. -/
def after : ClientAction → Connection → Connection
  | _, .lost => .lost
  | begin, _ => .inside
  | commit, _ => .outside
  | rollback, _ => .outside
  | _, connection => connection

end ClientAction

/-- What has become of the clients of one procedure: the one it holds, whether
a rejected ROLLBACK has left a session inside its transaction, and whether a
client has gone back to the pool inside one. -/
structure Play where
  client : Option Connection
  leftOpen : Bool
  releasedOpen : Bool
deriving DecidableEq, Repr

namespace Play

/-- No client yet. -/
def fresh : Play := ⟨none, false, false⟩

def hold (s : Play) (connection : Connection) : Play :=
  { s with client := some connection }

/-- A query is rejected and leaves the session at `connection`. -/
def reject (s : Play) (action : ClientAction) (connection : Connection) : Play :=
  ⟨some connection, s.leftOpen || (action = .rollback && connection = .inside),
    s.releasedOpen⟩

def release (s : Play) (destroy : Bool) (connection : Connection) : Play :=
  ⟨none, s.leftOpen, s.releasedOpen || (!destroy && connection = .inside)⟩

end Play

/-- The outcomes of a call, fulfilled or rejected. -/
inductive ClientAction.Step : ClientAction → Play → Bool → Play → Prop
  | connected {s : Play} {connection : Connection} (hnone : s.client = none)
      (hclean : connection ≠ .inside) :
      Step .connect s true (s.hold connection)
  | unavailable {s : Play} : Step .connect s false s
  | fulfilled {a : ClientAction} {s : Play} {connection : Connection}
      (hsent : a.isSent = true) (hclient : s.client = some connection)
      (halive : connection ≠ .lost) :
      Step a s true (s.hold (a.after connection))
  | rejected {a : ClientAction} {s : Play} {connection left : Connection}
      (hsent : a.isSent = true) (hclient : s.client = some connection)
      (hleft : left = connection ∨ left = a.after connection ∨ left = .lost) :
      Step a s false (s.reject a left)
  | released {s : Play} {connection : Connection} {destroy : Bool}
      (hclient : s.client = some connection) :
      Step (.release destroy) s true (s.release destroy connection)
  | other {a : ClientAction} {s : Play} {ok : Bool}
      (hother : a = .pooled ∨ a = .other) : Step a s ok s

variable {Op : Type} {Val : Op → Type} {ε α β : Type}
variable {action : Op → ClientAction}

namespace Proc

/-- A procedure run to its end, with some outcome for every call. -/
inductive Plays (action : Op → ClientAction) :
    Proc Op Val ε α → Play → Except ε α → Play → Prop
  | settled {result : Except ε α} {s : Play} :
      Plays action (.settled result) s result s
  | await {op : Op} {resume : Except ε (Val op) → Proc Op Val ε α}
      {answer : Except ε (Val op)} {s s' s'' : Play} {result : Except ε α}
      (hstep : (action op).Step s answer.isOk s')
      (hrest : Plays action (resume answer) s' result s'') :
      Plays action (.await op resume) s result s''

theorem Plays.fulfilled {op : Op}
    {resume : Except ε (Val op) → Proc Op Val ε α} {s s' s'' : Play}
    {result : Except ε α} (value : Val op) (hstep : (action op).Step s true s')
    (hrest : Plays action (resume (.ok value)) s' result s'') :
    Plays action (.await op resume) s result s'' :=
  .await (by exact hstep) hrest

theorem Plays.rejected {op : Op}
    {resume : Except ε (Val op) → Proc Op Val ε α} {s s' s'' : Play}
    {result : Except ε α} (error : ε) (hstep : (action op).Step s false s')
    (hrest : Plays action (resume (.error error)) s' result s'') :
    Plays action (.await op resume) s result s'' :=
  .await (by exact hstep) hrest

/-- Whatever the outcomes, every call keeps `I` and the procedure settles in
`Q`. -/
def Keeps (action : Op → ClientAction) (I : Play → Prop) :
    Proc Op Val ε α → (Except ε α → Play → Prop) → Play → Prop
  | .settled result, Q => Q result
  | .await op resume, Q => fun s => ∀ answer s',
      (action op).Step s answer.isOk s' → I s' ∧ Keeps action I (resume answer) Q s'

variable {I : Play → Prop} {p : Proc Op Val ε α} {s : Play}
variable {Q R : Except ε α → Play → Prop}

theorem Keeps.plays (h : Keeps action I p Q s) {result : Except ε α} {s' : Play}
    (hplays : Plays action p s result s') : Q result s' := by
  induction hplays with
  | settled => exact h
  | await hstep _ ih => exact ih (h _ _ hstep).2

theorem Keeps.mono (h : Keeps action I p Q s)
    (hQR : ∀ result s', Q result s' → R result s') : Keeps action I p R s := by
  induction p generalizing s with
  | settled result => exact hQR _ _ h
  | await op resume ih =>
      intro answer s' hstep
      obtain ⟨hI, hrest⟩ := h answer s' hstep
      exact ⟨hI, ih answer hrest⟩

theorem Keeps.andThen {next : Except ε α → Proc Op Val ε β}
    {Q : Except ε β → Play → Prop}
    (h : Keeps action I p (fun result => Keeps action I (next result) Q) s) :
    Keeps action I (p.andThen next) Q s := by
  induction p generalizing s with
  | settled result => exact h
  | await op resume ih =>
      intro answer s' hstep
      obtain ⟨hI, hrest⟩ := h answer s' hstep
      exact ⟨hI, ih answer hrest⟩

/-- The procedure makes only inner calls, and it settles with a value only
right after a fulfilled COMMIT; `done` says whether that was the last call. -/
def Commits (action : Op → ClientAction) : Bool → Proc Op Val ε α → Prop
  | done, .settled result => result.isOk = true → done = true
  | _, .await op resume => (action op).isInner = true ∧
      ∀ answer, Commits action (action op = .commit && answer.isOk)
        (resume answer)

theorem Commits.bind {done : Bool} {next : α → Proc Op Val ε β}
    (hp : p.Calls fun op => (action op).isInner = true)
    (hnext : ∀ value done, Commits action done (next value)) :
    Commits action done (p >>= next) := by
  induction p generalizing done with
  | settled result =>
      cases result with
      | ok value => exact hnext value done
      | error error => exact fun hok => by cases hok
  | await op resume ih => exact ⟨hp.1, fun answer => ih answer (hp.2 answer)⟩

/-- A COMMIT whose answer is returned. -/
theorem commits_call {done : Bool} {op : Op} (hop : action op = .commit) :
    Commits action done (call op : Proc Op Val ε (Val op)) := by
  refine ⟨by rw [hop]; rfl, fun answer hok => ?_⟩
  simpa [hop] using hok

/-- A COMMIT and a value to return after it. -/
theorem commits_call_bind {done : Bool} {op : Op} {value : α}
    (hop : action op = .commit) :
    Commits action done
      ((call op : Proc Op Val ε (Val op)) >>= fun _ => pure value) := by
  refine ⟨by rw [hop]; rfl, fun answer => ?_⟩
  cases answer with
  | ok _ => exact fun _ => by simp [hop, Except.isOk, Except.toBool]
  | error _ => exact fun hok => by cases hok

end Proc

namespace Play

/-- The ROLLBACK is over, and nothing released yet. -/
def abandoned (connection : Connection) : Play :=
  ⟨some connection, connection = .inside, false⟩

end Play

section Transactions

variable {I : Play → Prop} {p : Proc Op Val ε α} {connection : Connection}

/-- An inner call leaves the client with its procedure, and only a fulfilled
COMMIT is sure to leave the session outside. -/
theorem ClientAction.Step.inner {a : ClientAction} {s' : Play} {ok : Bool}
    (h : a.Step (Play.fresh.hold connection) ok s') (hinner : a.isInner = true) :
    ∃ left, s' = Play.fresh.hold left ∧
      (a = .commit → ok = true → left = .outside) := by
  cases h with
  | connected | unavailable | released => cases hinner
  | fulfilled hsent hclient halive =>
      cases hclient
      refine ⟨_, rfl, ?_⟩
      rintro rfl _
      cases connection with
      | lost => exact absurd rfl halive
      | outside | inside => rfl
  | @rejected _ _ _ left hsent hclient _ =>
      have hne : a ≠ .rollback := by
        rintro rfl
        cases hinner
      refine ⟨left, by simp [Play.reject, Play.hold, Play.fresh, hne], ?_⟩
      rintro _ ⟨⟩
  | other hother =>
      refine ⟨connection, rfl, ?_⟩
      rintro rfl
      simp at hother

/-- The body of a transaction settles with a value only outside. -/
theorem Proc.Commits.keeps {done : Bool} (h : p.Commits action done)
    (hdone : done = true → connection = .outside)
    (hI : ∀ left, I (Play.fresh.hold left)) :
    p.Keeps action I (fun result s' => ∃ left, s' = Play.fresh.hold left ∧
      (result.isOk = true → left = .outside)) (Play.fresh.hold connection) := by
  induction p generalizing done connection with
  | settled result => exact ⟨connection, rfl, fun hok => hdone (h hok)⟩
  | await op resume ih =>
      intro answer s' hstep
      obtain ⟨left, rfl, hcommit⟩ := hstep.inner h.1
      refine ⟨hI left, ih answer (h.2 answer) fun hlast => ?_⟩
      rw [Bool.and_eq_true, decide_eq_true_eq] at hlast
      exact hcommit hlast.1 hlast.2

/-- A rejected ROLLBACK may leave the session inside its transaction. -/
theorem keeps_rollback {op : Op} (hop : action op = .rollback)
    (hI : ∀ left, I (Play.abandoned left)) :
    (Proc.call op : Proc Op Val ε (Val op)).Keeps action I
      (fun answer s' => ∃ left, s' = Play.abandoned left ∧
        (answer.isOk = true → left ≠ .inside)) (Play.fresh.hold connection) := by
  intro answer s' hstep
  rw [hop] at hstep
  have hleft : ∃ left, s' = Play.abandoned left ∧
      (answer.isOk = true → left ≠ .inside) := by
    generalize answer.isOk = ok at hstep ⊢
    cases hstep with
    | fulfilled _ hclient halive =>
        cases hclient
        refine ⟨.outside, ?_, by simp⟩
        cases connection with
        | lost => exact absurd rfl halive
        | outside | inside => rfl
    | @rejected _ _ _ left _ _ _ =>
        refine ⟨left, by simp [Play.reject, Play.abandoned, Play.hold,
          Play.fresh], ?_⟩
        rintro ⟨⟩
    | other hother => simp at hother
  obtain ⟨left, rfl, hok⟩ := hleft
  exact ⟨hI left, left, rfl, hok⟩

/-- A statement by itself does not open a transaction. -/
theorem keeps_statement {op : Op} (hop : action op = .statement)
    (houtside : connection ≠ .inside)
    (hI : ∀ left, I (Play.fresh.hold left)) :
    (Proc.call op : Proc Op Val ε (Val op)).Keeps action I
      (fun _ s' => ∃ left, s' = Play.fresh.hold left ∧ left ≠ .inside)
      (Play.fresh.hold connection) := by
  intro answer s' hstep
  rw [hop] at hstep
  have hleft : ∃ left, s' = Play.fresh.hold left ∧ left ≠ .inside := by
    generalize answer.isOk = ok at hstep
    cases hstep with
    | fulfilled _ hclient _ =>
        cases hclient
        refine ⟨connection, ?_, houtside⟩
        cases connection <;> rfl
    | @rejected _ _ _ left _ hclient hleft =>
        cases hclient
        refine ⟨left, by simp [Play.reject, Play.hold, Play.fresh], ?_⟩
        rintro rfl
        cases connection <;> simp [ClientAction.after] at hleft houtside
    | other hother => simp at hother
  obtain ⟨left, rfl, hne⟩ := hleft
  exact ⟨hI left, left, rfl, hne⟩

theorem keeps_release {op : Op} {destroy : Bool} {s : Play}
    (hop : action op = .release destroy) (hclient : s.client = some connection)
    (hI : I (s.release destroy connection)) :
    (Proc.call op : Proc Op Val ε (Val op)).Keeps action I
      (fun answer s' => answer.isOk = true ∧ s' = s.release destroy connection)
      s := by
  intro answer s' hstep
  rw [hop] at hstep
  have hreleased : answer.isOk = true ∧ s' = s.release destroy connection := by
    generalize answer.isOk = ok at hstep ⊢
    cases hstep with
    | released hclient' =>
        cases hclient.symm.trans hclient'
        exact ⟨rfl, rfl⟩
    | fulfilled hsent | rejected hsent => cases hsent
    | other hother => simp at hother
  rw [hreleased.2]
  exact ⟨hI, hreleased.1, rfl⟩

theorem keeps_connect {op : Op} {next : Val op → Proc Op Val ε α}
    {Q : Except ε α → Play → Prop} (hop : action op = .connect)
    (hfailed : ∀ error, Q (.error error) Play.fresh) (hfresh : I Play.fresh)
    (hI : ∀ connection, I (Play.fresh.hold connection))
    (hnext : ∀ value connection, connection ≠ .inside →
      (next value).Keeps action I Q (Play.fresh.hold connection)) :
    (Proc.call op >>= next).Keeps action I Q Play.fresh := by
  intro answer s' hstep
  rw [hop] at hstep
  cases answer with
  | ok value =>
      cases hstep with
      | connected _ hclean => exact ⟨hI _, hnext value _ hclean⟩
      | fulfilled hsent => cases hsent
      | other hother => simp at hother
  | error error =>
      cases hstep with
      | unavailable => exact ⟨hfresh, hfailed error⟩
      | rejected hsent => cases hsent
      | other hother => simp at hother

end Transactions

/-- A pool that many procedures share: its idle connections, the clients of each
procedure, the method that each one runs, and whether a pooled statement has
run inside a transaction left over by another procedure. -/
structure ClientPool (Method : Type) where
  idle : List Connection
  play : Tid → Play
  caller : Tid → Option Method
  ranInside : Bool

namespace ClientPool

variable {Method : Type}

def setPlay (w : ClientPool Method) (t : Tid) (s : Play) : ClientPool Method :=
  { w with play := Function.update w.play t s }

@[simp] theorem setPlay_play_self (w : ClientPool Method) (t : Tid) (s : Play) :
    (w.setPlay t s).play t = s := by
  simp [setPlay]

theorem setPlay_play_ne (w : ClientPool Method) {t u : Tid} (h : u ≠ t)
    (s : Play) : (w.setPlay t s).play u = w.play u := by
  simp [setPlay, h]

/-- The idle connections after a release: a destroyed or lost one is gone. -/
def idleAfter (idle : List Connection) (destroy : Bool)
    (connection : Connection) : List Connection :=
  if destroy = true ∨ connection = .lost then idle else connection :: idle

/-- The possible outcomes of a call of a procedure of the pool. -/
inductive Exec (t : Tid) : ClientAction → ClientPool Method → Bool →
    ClientPool Method → Prop
  | reused {w : ClientPool Method} {front back : List Connection}
      {connection : Connection} (hidle : w.idle = front ++ connection :: back)
      (hnone : (w.play t).client = none) :
      Exec t .connect w true
        { w.setPlay t ((w.play t).hold connection) with idle := front ++ back }
  | opened {w : ClientPool Method} (hnone : (w.play t).client = none) :
      Exec t .connect w true (w.setPlay t ((w.play t).hold .outside))
  | unavailable {w : ClientPool Method} : Exec t .connect w false w
  | sent {w : ClientPool Method} {a : ClientAction} {ok : Bool} {s : Play}
      (hsent : a.isSent = true) (hstep : a.Step (w.play t) ok s) :
      Exec t a w ok (w.setPlay t s)
  | released {w : ClientPool Method} {destroy : Bool} {connection : Connection}
      (hclient : (w.play t).client = some connection) :
      Exec t (.release destroy) w true
        { w.setPlay t ((w.play t).release destroy connection) with
          idle := idleAfter w.idle destroy connection }
  | pooled {w : ClientPool Method} {ok : Bool}
      {front back kept : List Connection} {connection : Connection}
      (hidle : w.idle = front ++ connection :: back)
      (hkept : kept = [connection] ∨ kept = []) :
      Exec t .pooled w ok { w with
        idle := front ++ kept ++ back
        ranInside := w.ranInside || connection = .inside }
  | pooledOpened {w : ClientPool Method} {ok : Bool} :
      Exec t .pooled w ok { w with idle := .outside :: w.idle }
  | pooledUnavailable {w : ClientPool Method} : Exec t .pooled w false w
  | other {w : ClientPool Method} {ok : Bool} : Exec t .other w ok w

end ClientPool

/-- The system of procedures that share a pool.  `runs` says which procedures
run which method; an idle connection may break at any time. -/
def poolSystem {Method : Type} (action : Op → ClientAction)
    (runs : Method → Proc Op Val ε α → Prop) :
    System (ClientPool Method) Op Val ε α where
  init w := w = ⟨[], fun _ => Play.fresh, fun _ => none, false⟩
  exec t op w answer w' := ClientPool.Exec t (action op) w answer.isOk w'
  start t p w w' := ∃ method, runs method p ∧ w' =
    { w.setPlay t Play.fresh with
      caller := Function.update w.caller t (some method) }
  crash _ _ _ := False
  env w w' := ∃ front connection back, w.idle = front ++ connection :: back ∧
    w' = { w with idle := front ++ back }

/-- The condition on the states of a run: where `strict` says so, no ROLLBACK of
the method has been rejected with its session left inside. -/
def ClientPool.RollsBack {Method : Type} (strict : Method → Bool)
    (w : ClientPool Method) : Prop :=
  ∀ t method, w.caller t = some method → strict method = true →
    (w.play t).leftOpen = false

/-- Some client has gone back to the pool inside a transaction. -/
def ClientPool.Spoiled {Method : Type} (w : ClientPool Method) : Prop :=
  ∃ t, (w.play t).releasedOpen = true

section Pool

variable {Method : Type} {runs : Method → Proc Op Val ε α → Prop}
variable {strict : Method → Bool} {inv : Method → Play → Prop}
variable {t : Tid} {a : ClientAction} {ok : Bool} {w w' : ClientPool Method}
variable {c c' : Config (ClientPool Method) Op Val ε α}

theorem pool_fulfilled {op : Op} {resume : Except ε (Val op) → Proc Op Val ε α}
    (h : (poolSystem action runs).Reachable c) (value : Val op)
    (hrunning : c.threads t = .running (.await op resume))
    (hexec : ClientPool.Exec t (action op) c.world true w) :
    (poolSystem action runs).Reachable
      (c.move t (.running (resume (.ok value))) w) :=
  h.step (.call hrunning hexec)

theorem pool_rejected {op : Op} {resume : Except ε (Val op) → Proc Op Val ε α}
    (h : (poolSystem action runs).Reachable c) (error : ε)
    (hrunning : c.threads t = .running (.await op resume))
    (hexec : ClientPool.Exec t (action op) c.world false w) :
    (poolSystem action runs).Reachable
      (c.move t (.running (resume (.error error))) w) :=
  h.step (.call hrunning hexec)

/-- A call of one procedure leaves the others alone. -/
theorem ClientPool.Exec.others (h : ClientPool.Exec t a w ok w') :
    w'.caller = w.caller ∧ ∀ u, u ≠ t → w'.play u = w.play u := by
  cases h with
  | pooled _ _ | pooledOpened | pooledUnavailable | other | unavailable =>
      exact ⟨rfl, fun _ _ => rfl⟩
  | reused _ _ | opened _ | sent _ _ | released _ =>
      exact ⟨rfl, fun u hu => w.setPlay_play_ne hu _⟩

theorem ClientAction.Step.leftOpen {s s' : Play} (h : a.Step s ok s')
    (hleft : s.leftOpen = true) : s'.leftOpen = true := by
  cases h with
  | connected _ _ | unavailable | fulfilled _ _ _ | released _ | other _ =>
      exact hleft
  | rejected _ _ _ => simp [Play.reject, hleft]

theorem ClientPool.Exec.leftOpen (h : ClientPool.Exec t a w ok w')
    (hleft : (w.play t).leftOpen = true) : (w'.play t).leftOpen = true := by
  cases h with
  | pooled _ _ | pooledOpened | pooledUnavailable | other | unavailable =>
      exact hleft
  | reused _ _ | opened _ | released _ =>
      simpa [ClientPool.setPlay, Play.hold, Play.release] using hleft
  | sent _ hstep =>
      rw [ClientPool.setPlay_play_self]
      exact hstep.leftOpen hleft

/-- Only the procedure that has moved can have spoiled the pool. -/
theorem ClientPool.Exec.unspoiled (h : ClientPool.Exec t a w ok w')
    (hsafe : ¬w.Spoiled) (hreleased : (w'.play t).releasedOpen = false) :
    ¬w'.Spoiled := by
  rintro ⟨u, hu⟩
  by_cases hut : u = t
  · rw [hut, hreleased] at hu
    cases hu
  · rw [h.others.2 u hut] at hu
    exact hsafe ⟨u, hu⟩

/-- What is idle without one connection was idle with it. -/
theorem mem_before {front back : List Connection}
    {connection other : Connection} (h : other ∈ front ++ back) :
    other ∈ front ++ connection :: back :=
  ((List.sublist_cons_self connection back).append_left front).subset h

/-- While no idle session is inside a transaction, a procedure cannot tell the
pool from fresh connections. -/
theorem ClientPool.Exec.step (h : ClientPool.Exec t a w ok w')
    (hidle : Connection.inside ∉ w.idle) : a.Step (w.play t) ok (w'.play t) := by
  cases h with
  | @reused _ front back connection hsplit hnone =>
      have hclean : connection ≠ .inside := by
        rintro rfl
        exact hidle (by simp [hsplit])
      simpa [ClientPool.setPlay] using ClientAction.Step.connected hnone hclean
  | opened hnone =>
      rw [ClientPool.setPlay_play_self]
      exact .connected hnone (by simp)
  | unavailable => exact .unavailable
  | sent _ hstep =>
      rw [ClientPool.setPlay_play_self]
      exact hstep
  | released hclient =>
      simpa [ClientPool.setPlay] using ClientAction.Step.released hclient
  | pooled _ _ | pooledOpened | pooledUnavailable => exact .other (.inl rfl)
  | other => exact .other (.inr rfl)

/-- Only a release inside a transaction puts such a session into the pool. -/
theorem ClientPool.Exec.idle (h : ClientPool.Exec t a w ok w')
    (hidle : Connection.inside ∉ w.idle) (hran : w.ranInside = false)
    (hreleased : (w'.play t).releasedOpen = false) :
    Connection.inside ∉ w'.idle ∧ w'.ranInside = false := by
  cases h with
  | reused hsplit hnone =>
      rw [hsplit] at hidle
      refine ⟨fun hmem => hidle ?_, hran⟩
      exact mem_before hmem
  | opened _ | sent _ _ | unavailable | other | pooledUnavailable =>
      exact ⟨hidle, hran⟩
  | @released _ destroy connection hclient =>
      refine ⟨?_, hran⟩
      by_cases hgone : destroy = true ∨ connection = .lost
      · simpa [ClientPool.idleAfter, hgone] using hidle
      · have hconnection : connection ≠ .inside := by
          rintro rfl
          simp [ClientPool.setPlay, Play.release] at hreleased
          simp [hreleased.2] at hgone
        simp [ClientPool.idleAfter, hgone, hidle, hconnection.symm]
  | @pooled _ _ front back kept connection hsplit hkept =>
      rw [hsplit] at hidle
      have hconnection : connection ≠ .inside := by
        rintro rfl
        exact hidle (by simp)
      refine ⟨fun hmem => hidle ?_, by simp [hran, hconnection]⟩
      rcases hkept with rfl | rfl
      · simpa using hmem
      · exact mem_before (by simpa using hmem)
  | pooledOpened => exact ⟨by simp [hidle], hran⟩

/-- What a run keeps while its ROLLBACKs succeed: no client has gone back inside
a transaction, no idle session is inside one, nothing has run inside one, and
every procedure keeps the invariant of its method. -/
structure ClientPool.Clean (action : Op → ClientAction)
    (inv : Method → Play → Prop)
    (c : Config (ClientPool Method) Op Val ε α) : Prop where
  unspoiled : ¬c.world.Spoiled
  idle : Connection.inside ∉ c.world.idle
  ranInside : c.world.ranInside = false
  running : ∀ t p, c.threads t = .running p → ∃ method,
    c.world.caller t = some method ∧ inv method (c.world.play t) ∧
      p.Keeps action (inv method) (fun _ _ => True) (c.world.play t)

/-- A procedure that has not started calls no method. -/
theorem pool_caller_idle (h : (poolSystem action runs).Reachable c) :
    c.threads t = .idle → c.world.caller t = none := by
  induction h with
  | init hinit =>
      cases hinit
      exact fun _ => rfl
  | @step c c' l h hstep ih =>
      intro hidle
      obtain ⟨hbefore, hnot⟩ := hstep.idle hidle
      have hnone := ih hbefore
      cases hstep with
      | call _ executes => exact (congrFun executes.others.1 t).trans hnone
      | start _ starts =>
          obtain ⟨_, _, rfl⟩ := starts
          have hne : t ≠ _ := fun h => hnot (congrArg some h.symm)
          simpa [ClientPool.setPlay, hne] using hnone
      | crash _ crashes => exact crashes.elim
      | env changes =>
          obtain ⟨_, _, _, _, rfl⟩ := changes
          exact hnone

/-- A ROLLBACK that was rejected stays rejected. -/
theorem ClientPool.RollsBack.before {l : Label Op}
    (h : (poolSystem action runs).Reachable c)
    (hstep : (poolSystem action runs).Step l c c')
    (hrolls : c'.world.RollsBack strict) : c.world.RollsBack strict := by
  intro u method hcaller hstrict
  cases hstep with
  | @call _ t _ _ _ _ _ executes =>
      have hothers := executes.others
      have hafter := hrolls u method
        ((congrFun hothers.1 u).trans hcaller) hstrict
      by_cases hut : u = t
      · subst hut
        by_contra hleft
        have hleft' := executes.leftOpen (by simpa using hleft)
        exact Bool.noConfusion (hafter.symm.trans hleft')
      · exact (congrArg Play.leftOpen (hothers.2 u hut)).symm.trans hafter
  | @start _ t _ _ idle starts =>
      obtain ⟨method', _, rfl⟩ := starts
      have hut : u ≠ t := by
        rintro rfl
        cases (pool_caller_idle h idle).symm.trans hcaller
      have hafter := hrolls u method
        (by simpa [ClientPool.setPlay, hut] using hcaller) hstrict
      simpa [ClientPool.setPlay, hut] using hafter
  | crash _ crashes => exact crashes.elim
  | env changes =>
      obtain ⟨_, _, _, _, rfl⟩ := changes
      exact hrolls u method hcaller hstrict

/-- If every method keeps its invariant from a fresh start, and the invariant
excludes a release inside a transaction where ROLLBACKs succeed, then every run
in which they do is clean. -/
theorem pool_clean
    (hkeeps : ∀ method p, runs method p → inv method Play.fresh ∧
      p.Keeps action (inv method) (fun _ _ => True) Play.fresh)
    (hinv : ∀ method s, inv method s →
      (strict method = true → s.leftOpen = false) → s.releasedOpen = false)
    (h : (poolSystem action runs).Reachable c)
    (hrolls : c.world.RollsBack strict) : ClientPool.Clean action inv c := by
  induction h with
  | init hinit =>
      cases hinit
      refine ⟨?_, List.not_mem_nil, rfl, fun _ _ hp => by cases hp⟩
      rintro ⟨_, ⟨⟩⟩
  | @step c c' l hreachable hstep ih =>
      have hclean := ih (hrolls.before hreachable hstep)
      cases hstep with
      | @call _ t op resume answer world running executes =>
          obtain ⟨method, hcaller, hI, hp⟩ := hclean.running t _ running
          have hothers := executes.others
          have hkept := hp answer (world.play t) (executes.step hclean.idle)
          have hreleased := hinv method _ hkept.1 fun hstrict =>
            hrolls t method ((congrFun hothers.1 t).trans hcaller) hstrict
          obtain ⟨hidle, hran⟩ :=
            executes.idle hclean.idle hclean.ranInside hreleased
          refine ⟨executes.unspoiled hclean.unspoiled hreleased, hidle, hran,
            fun u q hq => ?_⟩
          by_cases hut : u = t
          · subst hut
            rw [Config.move_threads_self] at hq
            cases hq
            exact ⟨method, (congrFun hothers.1 u).trans hcaller, hkept⟩
          · rw [Config.move_threads_ne _ hut] at hq
            obtain ⟨method', hcaller', hkept'⟩ := hclean.running u q hq
            refine ⟨method', (congrFun hothers.1 u).trans hcaller', ?_⟩
            rw [Config.move_world, hothers.2 u hut]
            exact hkept'
      | @start _ t p world idle starts =>
          obtain ⟨method, hruns, rfl⟩ := starts
          refine ⟨?_, hclean.idle, hclean.ranInside, fun u q hq => ?_⟩
          · rintro ⟨u, hu⟩
            by_cases hut : u = t
            · subst hut
              simp [Play.fresh] at hu
            · exact hclean.unspoiled ⟨u, by simpa [ClientPool.setPlay, hut] using hu⟩
          by_cases hut : u = t
          · subst hut
            rw [Config.move_threads_self] at hq
            cases hq
            exact ⟨method, by simp, by simpa using hkeeps method p hruns⟩
          · rw [Config.move_threads_ne _ hut] at hq
            obtain ⟨method', hcaller', hkept'⟩ := hclean.running u q hq
            exact ⟨method', by simpa [hut] using hcaller',
              by simpa [ClientPool.setPlay, hut] using hkept'⟩
      | crash _ crashes => exact crashes.elim
      | env changes =>
          obtain ⟨front, connection, back, hsplit, rfl⟩ := changes
          refine ⟨hclean.unspoiled, fun hmem => hclean.idle ?_, hclean.ranInside,
            hclean.running⟩
          rw [hsplit]
          exact mem_before hmem

end Pool

end Async
