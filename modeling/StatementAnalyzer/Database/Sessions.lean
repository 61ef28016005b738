/-
Database sessions, query by query.  A thread checks out a client, runs one
transaction over it and releases it, while other threads do the same and single
statements run in transactions of their own.  The pool of the worker has no
client-side timeout, so a query is rejected by the server or because the
connection is lost.
-/
import StatementAnalyzer.Service.World

namespace StatementAnalyzer

open Async

/-- The queries that `saveTransactionsAndComplete` sends over its client. -/
inductive ClientQuery where
  | begin
  | lockStatement (id : Uuid)
  | insertTransaction (id : Uuid) (transaction : CreateTransactionInput)
  | completeStatement (id token : Uuid)
  | commit
  | rollback
deriving DecidableEq, Repr

/-- The columns of the row that SELECT .. FOR UPDATE answers. -/
structure LockedStatement where
  status : StatementStatus
  processingToken : Option Uuid
  processingLeaseExpiresAt : Option Time
  leaseValid : Bool
deriving DecidableEq, Repr

/-- Rows for SELECT, the row count for the last UPDATE. -/
abbrev ClientQuery.Answer : ClientQuery → Type
  | lockStatement _ => List LockedStatement
  | completeStatement _ _ => Nat
  | _ => Unit

inductive Query where
  | request (r : Request)
  | connect
  | client (q : ClientQuery)
  | release

abbrev Query.Answer : Query → Type
  | request r => r.Answer
  | connect => Unit
  | client q => q.Answer
  | release => Unit

/-- What a transaction has done to the statement that it has locked. -/
structure Draft where
  now : Time
  id : Uuid
  row : StatementRecord
  inserted : List CreateTransactionInput
  completedWith : Option Uuid

/-- The session of a thread.  `idle` is outside any transaction; NOW() is fixed
when the transaction begins. -/
inductive Session where
  | closed
  | idle
  | begun (now : Time)
  | working (draft : Draft)
  | aborted
  | lost

/-- The statements, the sessions and the row locks. -/
structure Store where
  statements : World
  sessions : Tid → Session
  holder : Uuid → Option Tid

namespace Store

def setSession (w : Store) (t : Tid) (session : Session) : Store :=
  { w with sessions := Function.update w.sessions t session }

/-- Give up every row lock of the thread. -/
def unlock (w : Store) (t : Tid) : Store :=
  { w with holder := fun id =>
      if w.holder id = some t then none else w.holder id }

def lock (w : Store) (t : Tid) (id : Uuid) : Store :=
  { w with holder := Function.update w.holder id (some t) }

/-- End the transaction of the thread, leaving its session as `session`. -/
def endTransaction (w : Store) (t : Tid) (session : Session) : Store :=
  (w.unlock t).setSession t session

/-- Rows that some transaction has locked stay as they are: whoever wants to
change them waits. -/
def Respects (w : Store) (statements : World) : Prop :=
  ∀ id, w.holder id ≠ none →
    (statements id).row = (w.statements id).row ∧
      (statements id).transactions = (w.statements id).transactions

end Store

/-- The statement after the transaction that drafted its completion. -/
def Draft.commit (t : Tid) (token : Uuid) (draft : Draft) (s : Statement) :
    Statement :=
  { s with
      row := draft.row.complete draft.now token
      transactions := draft.inserted.foldl upsertTransaction s.transactions
    }.log (.completed t draft.now token draft.inserted)

/-- What the server makes of a query.  `none` where it does not answer: it
waits for a row lock, or the session is not one the query is sent in.  A query
that its own data make fail aborts the transaction and has no answer. -/
def serve (t : Tid) (now : Time) (w : Store) :
    (q : ClientQuery) → Option (Option q.Answer × Store)
  | .begin =>
      match w.sessions t with
      | .idle => some (some (), w.setSession t (.begun now))
      | _ => none
  | .lockStatement id =>
      match w.sessions t, w.holder id with
      | .begun began, none =>
          match (w.statements id).row with
          | none => some (some [], w)
          | some row =>
              some (some [⟨row.status, row.processingToken,
                  row.processingLeaseExpiresAt, row.leaseValid began⟩],
                (w.lock t id).setSession t
                  (.working ⟨began, id, row, [], none⟩))
      | _, _ => none
  | .insertTransaction id transaction =>
      match w.sessions t with
      | .working draft =>
          if draft.id ≠ id then none
          else if transaction.storable then
            some (some (), w.setSession t (.working
              { draft with inserted := draft.inserted ++ [transaction] }))
          else some (none, w.endTransaction t .aborted)
      | _ => none
  | .completeStatement id token =>
      match w.sessions t with
      | .working draft =>
          if draft.id ≠ id then none
          else if draft.completedWith = none ∧
              draft.row.claimedBy draft.now token then
            some (some (1 : Nat), w.setSession t (.working
              { draft with completedWith := some token }))
          else some (some (0 : Nat), w)
      | _ => none
  | .commit =>
      match w.sessions t with
      | .begun _ => some (some (), w.endTransaction t .idle)
      | .aborted => some (some (), w.endTransaction t .idle)
      | .working draft =>
          match draft.completedWith with
          | some token =>
              -- a transaction holds its row lock to the end
              if w.holder draft.id = some t then
                some (some (), { w with
                  statements := w.statements.set draft.id
                    (draft.commit t token (w.statements draft.id))
                  }.endTransaction t .idle)
              else none
          | none =>
              if draft.inserted = [] then
                some (some (), w.endTransaction t .idle)
              else none
      | _ => none
  | .rollback =>
      match w.sessions t with
      | .closed | .lost => none
      | _ => some (some (), w.endTransaction t .idle)

/-- The session after the server has reported an error of its own: a failed
COMMIT ends the transaction, any other query leaves it aborted. -/
def Session.fail (q : ClientQuery) : Session → Session
  | begun _ | working _ => if q = .commit then idle else aborted
  | session => session

/-- The session in the pool after `release()` without an argument. -/
def Session.release : Session → Session
  | idle | lost => closed
  | session => session

/-- The possible outcomes of a query. -/
inductive Query.Exec (t : Tid) :
    (q : Query) → Store → Except Thrown q.Answer → Store → Prop
  | request {r : Request} {w : Store} {answer : Except Thrown r.Answer}
      {statements : World} (executes : r.exec t w.statements answer statements)
      (respects : w.Respects statements) :
      Exec t (.request r) w answer { w with statements := statements }
  | connected {w : Store} (h : w.sessions t = .closed) :
      Exec t .connect w (.ok ()) (w.setSession t .idle)
  | unavailable {w : Store} {error : Thrown} :
      Exec t .connect w (.error error) w
  | served {q : ClientQuery} {w w' : Store} {now : Time} {answer : q.Answer}
      (h : serve t now w q = some (some answer, w')) :
      Exec t (.client q) w (.ok answer) w'
  | unstorable {q : ClientQuery} {w w' : Store} {now : Time} {error : Thrown}
      (h : serve t now w q = some (none, w')) :
      Exec t (.client q) w (.error error) w'
  | failed {q : ClientQuery} {w : Store} {error : Thrown}
      (hq : q ≠ .rollback) (h : w.sessions t ≠ .closed) :
      Exec t (.client q) w (.error error)
        (w.endTransaction t ((w.sessions t).fail q))
  | lost {q : ClientQuery} {w : Store} {error : Thrown}
      (h : w.sessions t ≠ .closed) :
      Exec t (.client q) w (.error error) (w.endTransaction t .lost)
  | unconfirmed {q : ClientQuery} {w w' : Store} {now : Time}
      {answer : q.Answer} {error : Thrown}
      (h : serve t now w q = some (some answer, w')) :
      Exec t (.client q) w (.error error) (w'.endTransaction t .lost)
  | released {w : Store} :
      Exec t .release w (.ok ()) (w.setSession t (w.sessions t).release)

/-- The environment of the sessions: the statements drift, as far as the locks
let them, or a connection breaks. -/
inductive Store.Drifts : Store → Store → Prop
  | statements {w : Store} {statements : World}
      (drifts : w.statements.Drifts statements)
      (respects : w.Respects statements) :
      Drifts w { w with statements := statements }
  | disconnected {w : Store} {t : Tid} (h : w.sessions t ≠ .closed) :
      Drifts w (w.endTransaction t .lost)

/-- A procedure over the queries. -/
abbrev QueryProgram : Type → Type := Proc Query Query.Answer Thrown

/-- The system that runs programs with every call implemented by `impl`. -/
def querySystem {α : Type} (impl : (op : Call) → QueryProgram op.Answer)
    (starts : Program α → World → Prop) :
    System Store Query Query.Answer Thrown α where
  init w := w = ⟨fun _ => Statement.unused, fun _ => .closed, fun _ => none⟩
  exec := Query.Exec
  start t p w w' := w' = w ∧ w.sessions t = .closed ∧
    ∃ q, p = q.interp impl ∧ starts q w.statements
  crash _ w w' := w' = w
  env := Store.Drifts

end StatementAnalyzer
