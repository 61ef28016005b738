/-
The service as a system: requests and workers that run against the database and
the queue, and the rules by which one of its programs is followed while the
others run.
-/
import StatementAnalyzer.Api.Statements
import StatementAnalyzer.Service.Delivery
import StatementAnalyzer.Service.World
import StatementAnalyzer.Worker.AnalyzeJobHandler

namespace StatementAnalyzer

open Async

/-- What a program of the service settles with. -/
inductive Outcome where
  | responded (response : Response)
  | processed
deriving DecidableEq, Repr

/-- A request that a dependency serves without changing a statement. -/
def Request.Silent : Request → Prop
  | insertStatement _ | updateStatement _ _ | sendMessage _
  | deleteMessage _ => False
  | _ => True

def Call.Silent : Call → Prop
  | request r => r.Silent
  | saveTransactionsAndComplete _ _ _ => False

/-- An endpoint as a program of the service. -/
def respond (endpoint : Program Response) : Program Outcome := do
  let response ← endpoint
  return .responded response

/-- The programs that the service starts: the endpoints, the worker on a job it
has received, and anything that only reads.  A job may be received any number
of times. -/
inductive Serves : Program Outcome → World → Prop
  | createStatement {w : World} (presignedUrlExpiresSeconds : Nat)
      (http : CreateStatementHttpRequest) :
      Serves (respond (createStatement presignedUrlExpiresSeconds http)) w
  | completeUpload {w : World} (id : Option Uuid) :
      Serves (respond (completeUpload id)) w
  | analyzeStatement {w : World} (id : Option Uuid) :
      Serves (respond (analyzeStatement id)) w
  | processJob {w : World} (leaseSeconds : Option ℚ) (job : ReceivedAnalyzeJob)
      (hnames : job.receiptHandle.statementId = job.statementId)
      (hsent : job.receiptHandle.index <
        (w job.statementId).messages.length) :
      Serves (do processJob leaseSeconds job; return .processed) w
  | reading {w : World} (p : Program Unit) (hreads : p.Calls Call.Silent) :
      Serves (do p; return .processed) w

theorem Call.Silent.exec {op : Call} (h : op.Silent) {t : Tid} {w w' : World}
    {answer : Except Thrown op.Answer} (hexec : op.exec t w answer w') :
    w' = w := by
  cases op with
  | saveTransactionsAndComplete _ _ _ => exact h.elim
  | request r =>
      cases r with
      | insertStatement _ | updateStatement _ _ | sendMessage _
      | deleteMessage _ => exact h.elim
      | selectStatement _ | randomUUID | shutdownTimeout => exact hexec.1
      | createPresignedPutUrl _ _ _ | headObject _ | getObject _
      | converse _ => exact hexec

/-- An allowed event of one statement keeps all of them orderly. -/
theorem World.orderly_set {w : World} {id : Uuid} {e : Event} {s : Statement}
    (h : ∀ other, (w other).Orderly) (hs : Advance id e (w id) s)
    (hallows : (w id).Allows e) (other : Uuid) : (w.set id s other).Orderly :=
  World.forall_set id (hs.orderly (h id) hallows) h other

/-- The protocol of the service: every statement stays orderly. -/
def serviceProtocol : Protocol (callSystem Serves) where
  toInterference := callInterference Serves
  Known w := ∀ id, Genuine id (w id)
  Inv w := ∀ id, (w id).Orderly
  known h := reachable_genuine h
  inv_init h := by
    cases h
    exact fun _ => Statement.orderly_unused
  inv_crash _ h hcrash := by
    cases hcrash
    exact h
  inv_env _ h henv := by
    obtain ⟨id, e, s, he, hs, rfl⟩ := henv
    exact World.orderly_set h hs (hs.allows_of_env (h id) he)

/-- `serviceProtocol.wp`: thread `t` runs `p` from `w` to the end by the
protocol and settles in `Q`. -/
abbrev Follows {β : Type} (t : Tid) (p : Program β)
    (Q : Except Thrown β → World → Prop) (w : World) : Prop :=
  serviceProtocol.wp t p Q w

/-- What the events of other threads cannot change. -/
def Stable (t : Tid) (K : World → Prop) : Prop :=
  ∀ w w', w.Moves (fun e => e.thread ≠ some t) w' → K w → K w'

theorem Stable.and {t : Tid} {K L : World → Prop} (hK : Stable t K)
    (hL : Stable t L) : Stable t fun w => K w ∧ L w :=
  fun w w' hmoves h => ⟨hK w w' hmoves h.1, hL w w' hmoves h.2⟩

/-- Thread `t` has left these marks, all of them at one statement. -/
def Trail (t : Tid) (id : Uuid) (trail : List Mark) (w : World) : Prop :=
  ∀ other, marks t (w other).history = if other = id then trail else []

/-- Thread `t` has left no mark. -/
def Unmarked (t : Tid) (w : World) : Prop :=
  ∀ id, marks t (w id).history = []

theorem Unmarked.trail {t : Tid} {w : World} (h : Unmarked t w) (id : Uuid) :
    Trail t id [] w := by
  intro other
  rw [h other, ite_self]

theorem marks_of_moves {t : Tid} {w w' : World}
    (h : w.Moves (fun e => e.thread ≠ some t) w') (id : Uuid) :
    marks t (w' id).history = marks t (w id).history := by
  obtain ⟨newer, hhistory, hnewer⟩ := (h id).history
  rw [hhistory, marks_append, marks_eq_nil hnewer, List.nil_append]

theorem Trail.stable (t : Tid) (id : Uuid) (trail : List Mark) :
    Stable t (Trail t id trail) :=
  fun _ _ hmoves h other => (marks_of_moves hmoves other).trans (h other)

theorem Unmarked.stable (t : Tid) : Stable t (Unmarked t) :=
  fun _ _ hmoves h id => (marks_of_moves hmoves id).trans (h id)

/-- A message for the statement has been received. -/
def Received (id : Uuid) (w : World) : Prop :=
  (w id).messages ≠ []

theorem Received.stable (t : Tid) (id : Uuid) : Stable t (Received id) :=
  fun _ _ hmoves h => (hmoves id).preserves
    (fun _ hadvance => hadvance.messages_ne_nil) h

theorem settled_stable (t : Tid) (id : Uuid) :
    Stable t fun w => (w id).Settled :=
  fun _ _ hmoves h => ((hmoves id).settled h).1

/-- One event of thread `t` adds its mark. -/
theorem Trail.set {t : Tid} {id : Uuid} {trail : List Mark} {w : World}
    {e : Event} {s : Statement} (h : Trail t id trail w)
    (hs : Advance id e (w id) s) :
    Trail t id ((e.markBy? t).toList ++ trail) (w.set id s) := by
  intro other
  by_cases hother : other = id
  · subst hother
    rw [World.set_self, if_pos rfl, hs.history, marks_cons, h, if_pos rfl]
  · rw [World.set_ne w hother, if_neg hother, h, if_neg hother]

theorem Trail.mark {t : Tid} {id : Uuid} {trail : List Mark} {w : World}
    {e : Event} {mark : Mark} {s : Statement} (h : Trail t id trail w)
    (hs : Advance id e (w id) s) (he : Marks t mark e) :
    Trail t id (mark :: trail) (w.set id s) := by
  have htrail := h.set hs
  rw [Event.markBy?_eq_some_iff.mpr he] at htrail
  exact htrail

theorem Unmarked.set {t : Tid} {id : Uuid} {w : World} {e : Event}
    {s : Statement} (h : Unmarked t w) (hs : Advance id e (w id) s)
    (he : e.markBy? t = none) : Unmarked t (w.set id s) := by
  intro other
  have htrail := (h.trail id).set hs other
  rw [he] at htrail
  simpa using htrail

section Rules

variable {β : Type} {t : Tid} {id : Uuid} {w : World} {K : World → Prop}
variable {Q : Except Thrown β → World → Prop}

/-- Any call: its own step keeps the statements orderly. -/
theorem follows_call {op : Call}
    {next : Except Thrown op.Answer → Program β} (hK : Stable t K) (hw : K w)
    (h : ∀ w' answer w'', K w' → serviceProtocol.Known w' →
      serviceProtocol.Inv w' → op.exec t w' answer w'' →
        serviceProtocol.Known w'' →
          serviceProtocol.Inv w'' ∧ Follows t (next answer) Q w'') :
    Follows t ((Proc.call op).andThen next) Q w :=
  Protocol.wp.await fun w' hrely hknown hinv answer w'' hexec hknown' =>
    h w' answer w'' (hK w w' hrely hw) hknown hinv hexec hknown'

/-- A call that changes nothing. -/
theorem follows_silent {op : Call}
    {next : Except Thrown op.Answer → Program β} (hsilent : op.Silent)
    (hK : Stable t K) (hw : K w)
    (h : ∀ w' answer, K w' → serviceProtocol.Known w' →
      serviceProtocol.Inv w' → op.exec t w' answer w' →
        Follows t (next answer) Q w') :
    Follows t ((Proc.call op).andThen next) Q w := by
  refine Protocol.wp.await fun w' hrely hknown hinv answer w'' hexec _ => ?_
  obtain rfl := hsilent.exec hexec
  exact ⟨hinv, h w'' answer (hK w w'' hrely hw) hknown hinv hexec⟩

/-- A program that changes nothing. -/
theorem follows_calls {p : Program β} (hcalls : p.Calls Call.Silent)
    (hK : Stable t K) (hw : K w) : Follows t p (fun _ w' => K w') w := by
  induction p generalizing w with
  | settled result =>
      exact Protocol.wp.settled fun w' hrely _ _ => hK w w' hrely hw
  | await op resume ih =>
      have hcall : Follows t ((Proc.call op).andThen resume)
          (fun _ w' => K w') w :=
        follows_silent hcalls.1 hK hw fun w' answer hw' _ _ _ =>
          ih answer (hcalls.2 answer) hw'
      exact hcall

/-- The outcomes of an UPDATE as events. -/
inductive Attempt (t : Tid) (u : Update) : Event → Prop
  | updated (now : Time) : Attempt t u (.updated t now u false)
  | refused (now : Time) : Attempt t u (.refused t now u)
  | errored : Attempt t u (.errored t u)

theorem follows_update {u : Update}
    {next : Except Thrown (List u.Returned) → Program β}
    (hK : Stable t K) (hw : K w)
    (hallows : ∀ w', K w' → ∀ e, Attempt t u e → (w' id).Allows e)
    (hserved : ∀ w' now row s, K w' → Genuine id s →
      Advance id (.updated t now u false) (w' id) s → s.row = some row →
        Follows t (next (.ok [u.returning now row])) Q (w'.set id s))
    (hrefused : ∀ w' now s, K w' → Advance id (.refused t now u) (w' id) s →
      Follows t (next (.ok [])) Q (w'.set id s))
    (herrored : ∀ w' error s, K w' → Advance id (.errored t u) (w' id) s →
      Follows t (next (.error error)) Q (w'.set id s)) :
    Follows t ((request (.updateStatement id u)).andThen next) Q w := by
  refine follows_call hK hw fun w' answer w'' hw' _ hinv hexec hknown' => ?_
  have hallowed := hallows w' hw'
  cases hexec with
  | @served now row s _ hs hrow =>
      have hgenuine := hknown' id
      rw [World.set_self] at hgenuine
      exact ⟨World.orderly_set hinv hs (hallowed _ (.updated now)),
        hserved w' now row s hw' hgenuine hs hrow⟩
  | @refused now s hs =>
      exact ⟨World.orderly_set hinv hs (hallowed _ (.refused now)),
        hrefused w' now s hw' hs⟩
  | @failed error s hs =>
      exact ⟨World.orderly_set hinv hs (hallowed _ .errored),
        herrored w' error s hw' hs⟩

end Rules

end StatementAnalyzer
