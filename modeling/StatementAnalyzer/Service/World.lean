/-
What the database and the queue do with a request, and the systems of programs
that run against them.  A dependency may report an error whether or not the
request has taken effect, and NOW() is any time.
-/
import StatementAnalyzer.Async.RelyGuarantee
import StatementAnalyzer.Database.Lifecycle
import StatementAnalyzer.Service.Interface

namespace StatementAnalyzer

open Async

/-- The statements by id. -/
abbrev World := Uuid → Statement

/-- Replace one statement. -/
def World.set (w : World) (id : Uuid) (s : Statement) : World :=
  Function.update w id s

@[simp] theorem World.set_self (w : World) (id : Uuid) (s : Statement) :
    w.set id s id = s := by
  simp [World.set]

theorem World.set_ne (w : World) {id other : Uuid} (h : other ≠ id)
    (s : Statement) : w.set id s other = w other := by
  simp [World.set, h]

/-- What holds of every statement still does when one is replaced. -/
theorem World.forall_set {w : World} {P : Statement → Prop} (id : Uuid)
    {s : Statement} (hs : P s) (h : ∀ other, P (w other)) (other : Uuid) :
    P (w.set id s other) := by
  by_cases hother : other = id
  · subst hother
    rw [World.set_self]
    exact hs
  · rw [World.set_ne w hother]
    exact h other

/-- Every statement came about by events that satisfy `P`. -/
def World.Moves (P : Event → Prop) (w w' : World) : Prop :=
  ∀ id, Evolves id P (w id) (w' id)

theorem World.Moves.refl (P : Event → Prop) (w : World) : w.Moves P w :=
  fun _ => .refl

theorem World.Moves.trans {P : Event → Prop} {w w' w'' : World}
    (h : w.Moves P w') (h' : w'.Moves P w'') : w.Moves P w'' :=
  fun id => (h id).trans (h' id)

/-- One statement moves by a run of events. -/
theorem World.Moves.set {P : Event → Prop} {w : World} {id : Uuid}
    {s : Statement} (h : Evolves id P (w id) s) : w.Moves P (w.set id s) := by
  intro other
  by_cases hother : other = id
  · subst hother
    rw [World.set_self]
    exact h
  · rw [World.set_ne w hother]
    exact .refl

/-- An UPDATE in a transaction of its own, over a client outside any other.
Where it reports an error it may still take effect, late. -/
inductive Updates (t : Tid) (id : Uuid) (u : Update) (w : World) :
    Except Thrown (List u.Returned) → World → Prop
  | served {now : Time} {row : StatementRecord} {s : Statement}
      (hstorable : u.storable = true)
      (hs : Advance id (.updated t now u false) (w id) s)
      (hrow : s.row = some row) :
      Updates t id u w (.ok [u.returning now row]) (w.set id s)
  | refused {now : Time} {s : Statement}
      (hs : Advance id (.refused t now u) (w id) s) :
      Updates t id u w (.ok []) (w.set id s)
  | failed {error : Thrown} {s : Statement}
      (hs : Advance id (.errored t u) (w id) s) :
      Updates t id u w (.error error) (w.set id s)

/-- The INSERT of `create`.  `id` and `s3_key` are unique. -/
inductive Inserts (t : Tid) (columns : StatementColumns) (w : World) :
    Except Thrown (List StatementRecord) → World → Prop
  | served {now : Time} {row : StatementRecord} {s : Statement}
      (hunique : ∀ id other, (w id).row = some other →
        other.s3Key ≠ columns.s3Key)
      (hs : Advance columns.id (.created t now columns) (w columns.id) s)
      (hrow : s.row = some row) :
      Inserts t columns w (.ok [row]) (w.set columns.id s)
  | failed {error : Thrown} : Inserts t columns w (.error error) w
  | unconfirmed {now : Time} {error : Thrown} {s : Statement}
      (hunique : ∀ id other, (w id).row = some other →
        other.s3Key ≠ columns.s3Key)
      (hs : Advance columns.id (.created t now columns) (w columns.id) s) :
      Inserts t columns w (.error error) (w.set columns.id s)

/-- What serving a request may answer and leave behind, where its statement goes
over a client outside any transaction. -/
def Request.exec (t : Tid) : (r : Request) → World →
    Except Thrown r.Answer → World → Prop
  | insertStatement columns => Inserts t columns
  | selectStatement id => fun w answer w' =>
      w' = w ∧ ∀ rows, answer = .ok rows → rows = (w id).row.toList
  | updateStatement id u => Updates t id u
  | sendMessage id => fun w answer w' => ∃ delivered s,
      Advance id (.sent t answer.isOk delivered) (w id) s ∧ w' = w.set id s
  | deleteMessage receiptHandle => fun w answer w' => ∃ effective s,
      Advance receiptHandle.statementId
        (.deleting t receiptHandle.index effective)
        (w receiptHandle.statementId) s ∧
      (answer.isOk = true → effective = true) ∧
      w' = w.set receiptHandle.statementId s
  | randomUUID => fun w answer w' => w' = w ∧ answer.isOk = true
  | shutdownTimeout => fun w answer w' => w' = w ∧ answer.isOk = true
  | createPresignedPutUrl _ _ _ => fun w _ w' => w' = w
  | headObject _ => fun w _ w' => w' = w
  | getObject _ => fun w _ w' => w' = w
  | converse _ => fun w _ w' => w' = w

/-- The transaction of `saveTransactionsAndComplete` as a whole. -/
inductive Saves (t : Tid) (id token : Uuid)
    (transactions : List CreateTransactionInput) (w : World) :
    Except Thrown Unit → World → Prop
  | committed {now : Time} {s : Statement}
      (hs : Advance id (.completed t now token transactions) (w id) s) :
      Saves t id token transactions w (.ok ()) (w.set id s)
  | rolledBack {error : Thrown} :
      Saves t id token transactions w (.error error) w
  | unconfirmed {now : Time} {error : Thrown} {s : Statement}
      (hs : Advance id (.completed t now token transactions) (w id) s) :
      Saves t id token transactions w (.error error) (w.set id s)

def Call.exec (t : Tid) : (op : Call) → World → Except Thrown op.Answer →
    World → Prop
  | request r => r.exec t
  | saveTransactionsAndComplete id token transactions =>
      Saves t id token transactions

/-- What happens by itself: a row is deleted by hand, or an update or a message
arrives whose call had reported an error. -/
def World.Drifts (w w' : World) : Prop :=
  ∃ id e s, e.thread = none ∧ Advance id e (w id) s ∧ w' = w.set id s

/-- A system of programs over the calls, started as `starts` allows. -/
def callSystem {α : Type} (starts : Program α → World → Prop) :
    System World Call Call.Answer Thrown α where
  init w := w = fun _ => Statement.unused
  exec := Call.exec
  start _ p w w' := starts p w ∧ w' = w
  crash _ w w' := w' = w
  env := World.Drifts

/-- The events that a call of thread `t` can cause. -/
inductive Causes (t : Tid) : Call → Uuid → Event → Prop
  | created {columns : StatementColumns} {now : Time} :
      Causes t (.request (.insertStatement columns)) columns.id
        (.created t now columns)
  | updated {id : Uuid} {u : Update} {now : Time} :
      Causes t (.request (.updateStatement id u)) id (.updated t now u false)
  | refused {id : Uuid} {u : Update} {now : Time} :
      Causes t (.request (.updateStatement id u)) id (.refused t now u)
  | errored {id : Uuid} {u : Update} :
      Causes t (.request (.updateStatement id u)) id (.errored t u)
  | sent {id : Uuid} {reported delivered : Bool} :
      Causes t (.request (.sendMessage id)) id (.sent t reported delivered)
  | deleting {receiptHandle : ReceiptHandle} {effective : Bool} :
      Causes t (.request (.deleteMessage receiptHandle))
        receiptHandle.statementId
        (.deleting t receiptHandle.index effective)
  | completed {id token : Uuid} {transactions : List CreateTransactionInput}
      {now : Time} :
      Causes t (.saveTransactionsAndComplete id token transactions) id
        (.completed t now token transactions)

/-- At most one event of one statement. -/
inductive World.Steps (P : Uuid → Event → Prop) (w : World) : World → Prop
  | same : Steps P w w
  | event {id : Uuid} {e : Event} {s : Statement} (he : P id e)
      (hs : Advance id e (w id) s) : Steps P w (w.set id s)

section Steps

variable {t : Tid} {w w' : World} {P : Uuid → Event → Prop}

theorem Causes.thread {op : Call} {id : Uuid} {e : Event}
    (h : Causes t op id e) : e.thread = some t := by
  cases h <;> rfl

theorem World.Steps.mono {P' : Uuid → Event → Prop} (h : w.Steps P w')
    (hP : ∀ id e, P id e → P' id e) : w.Steps P' w' := by
  cases h with
  | same => exact .same
  | event he hs => exact .event (hP _ _ he) hs

theorem World.Steps.moves {Q : Event → Prop} (h : w.Steps P w')
    (hPQ : ∀ id e, P id e → Q e) : w.Moves Q w' := by
  cases h with
  | same => exact .refl Q w
  | event he hs => exact .set (.single ⟨_, hPQ _ _ he, hs⟩)

/-- A step, as one statement sees it. -/
theorem World.Steps.statement (h : w.Steps P w') (id : Uuid) :
    w' id = w id ∨ ∃ e, P id e ∧ Advance id e (w id) (w' id) := by
  cases h with
  | same => exact .inl rfl
  | @event other e s he hs =>
      by_cases hother : id = other
      · subst hother
        rw [World.set_self]
        exact .inr ⟨e, he, hs⟩
      · exact .inl (World.set_ne w hother s)

/-- What a call can do to the statements. -/
theorem Call.exec_steps {op : Call} {answer : Except Thrown op.Answer}
    (h : op.exec t w answer w') : w.Steps (Causes t op) w' := by
  cases op with
  | saveTransactionsAndComplete id token transactions =>
      cases h with
      | committed hs | unconfirmed hs => exact .event .completed hs
      | rolledBack => exact .same
  | request r =>
      cases r with
      | insertStatement columns =>
          cases h with
          | served _ hs _ | unconfirmed _ hs => exact .event .created hs
          | failed => exact .same
      | updateStatement id u =>
          cases h with
          | served _ hs _ => exact .event .updated hs
          | refused hs => exact .event .refused hs
          | failed hs => exact .event .errored hs
      | sendMessage id =>
          obtain ⟨_, s, hs, rfl⟩ := h
          exact .event .sent hs
      | deleteMessage receiptHandle =>
          obtain ⟨_, s, hs, _, rfl⟩ := h
          exact .event .deleting hs
      | selectStatement _ | randomUUID | shutdownTimeout =>
          obtain ⟨rfl, _⟩ := h
          exact .same
      | createPresignedPutUrl _ _ _ | headObject _ | getObject _
      | converse _ =>
          cases h
          exact .same

theorem World.Drifts.steps (h : w.Drifts w') :
    w.Steps (fun _ e => e.thread = none) w' := by
  obtain ⟨id, e, s, he, hs, rfl⟩ := h
  exact .event he hs

end Steps

theorem Event.thread_ne {e : Event} {t u : Tid} (he : e.thread = some u)
    (hne : t ≠ u) : e.thread ≠ some t := by
  rw [he]
  exact fun h => hne (Option.some.inj h).symm

/-- Between two calls of thread `t` the statements change by events of other
threads only. -/
def callInterference {α : Type} (starts : Program α → World → Prop) :
    Interference (callSystem starts) where
  rely t w w' := w.Moves (fun e => e.thread ≠ some t) w'
  refl t w := .refl _ w
  trans h h' := h.trans h'
  exec h hne := (Call.exec_steps h).moves fun _ _ hcauses =>
    Event.thread_ne hcauses.thread hne
  start h := h.2 ▸ .refl _ _
  crash h _ := by
    cases h
    exact .refl _ _
  env h := (World.Drifts.steps h).moves fun _ _ he => he ▸ nofun

/-- One step of the system: what happens to a statement is caused by the call of
some thread, or happens by itself. -/
theorem callSystem_step {α : Type} {starts : Program α → World → Prop}
    {c c' : Config World Call Call.Answer Thrown α} {l : Label Call}
    (hstep : (callSystem starts).Step l c c') :
    c.world.Steps (fun id e => e.thread = none ∨ ∃ t op resume,
      c.threads t = .running (.await op resume) ∧ Causes t op id e)
      c'.world := by
  cases hstep with
  | @call _ t op resume answer world running executes =>
      exact (Call.exec_steps executes).mono fun _ _ hcauses =>
        .inr ⟨t, op, resume, running, hcauses⟩
  | start _ starts =>
      rw [Config.move_world, starts.2]
      exact .same
  | crash _ crashes =>
      cases crashes
      exact .same
  | env changes =>
      exact (World.Drifts.steps changes).mono fun _ _ he => .inl he

/-- Every statement of a reachable world is genuine. -/
theorem reachable_genuine {α : Type} {starts : Program α → World → Prop}
    {c : Config World Call Call.Answer Thrown α}
    (h : (callSystem starts).Reachable c) : ∀ id, Genuine id (c.world id) := by
  induction h with
  | init h =>
      cases h
      exact fun _ => .unused
  | step _ hstep ih =>
      intro id
      rcases (callSystem_step hstep).statement id with hsame | ⟨e, _, hs⟩
      · rw [hsame]
        exact ih id
      · exact (ih id).advance hs

end StatementAnalyzer
