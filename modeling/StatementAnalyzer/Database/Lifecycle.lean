/-
The life of one statement: its row, its transactions and its queue messages,
together with the record of everything that ever happened to them.  The record
is only kept for reasoning; no program reads it.
-/
import StatementAnalyzer.Async.System
import StatementAnalyzer.Database.Statements

namespace StatementAnalyzer

open Async

/-- A queue message that names the statement.  Messages are never taken out of
the list; moving one to the dead-letter queue leaves it undeleted. -/
structure Message where
  sender : Tid
  deleted : Bool
deriving DecidableEq, Repr

/-- What can happen to a statement, and in which thread.  An update is late
where its call had already reported an error. -/
inductive Event where
  | created (t : Tid) (now : Time) (columns : StatementColumns)
  | updated (t : Tid) (now : Time) (u : Update) (late : Bool)
  | refused (t : Tid) (now : Time) (u : Update)
  | errored (t : Tid) (u : Update)
  | completed (t : Tid) (now : Time) (token : Uuid)
      (transactions : List CreateTransactionInput)
  | sent (t : Tid) (reported delivered : Bool)
  | deliveredLate (t : Tid)
  | deleting (t : Tid) (index : Nat) (effective : Bool)
  | removed
deriving DecidableEq, Repr

/-- The thread whose call the event belongs to, unless it is late. -/
def Event.thread : Event → Option Tid
  | updated t _ _ late => if late then none else some t
  | created t _ _ | refused t _ _ | errored t _ | completed t _ _ _
  | sent t _ _ | deleting t _ _ => some t
  | deliveredLate _ | removed => none

/-- A late effect of this update of thread `t`. -/
def Event.lands (t : Tid) (u : Update) (e : Event) : Bool :=
  match e with
  | updated t' _ u' true => t' = t && u' = u
  | _ => false

/-- How often this update of thread `t` has taken effect late. -/
def landings (t : Tid) (u : Update) (history : List Event) : Nat :=
  history.countP (Event.lands t u)

structure Statement where
  row : Option StatementRecord
  transactions : List CreateTransactionInput
  messages : List Message
  history : List Event
deriving DecidableEq, Repr

namespace Statement

/-- An id that nothing has happened to yet. -/
def unused : Statement := ⟨none, [], [], []⟩

/-- Put an event in front of the history. -/
def log (s : Statement) (e : Event) : Statement :=
  { s with history := e :: s.history }

/-- Ids are never inserted twice. -/
def NeverCreated (s : Statement) : Prop :=
  ∀ t now columns, Event.created t now columns ∉ s.history

end Statement

def markDeleted (messages : List Message) (index : Nat) : List Message :=
  messages.modify index fun message => { message with deleted := true }

/-- How an event changes the statement with this id. -/
inductive Advance (id : Uuid) : Event → Statement → Statement → Prop
  | created {s : Statement} {t : Tid} {now : Time} {columns : StatementColumns}
      {row : StatementRecord} (fresh : s.NeverCreated)
      (hid : columns.id = id) (hstatus : columns.status = .uploadPending)
      (inserts : columns.insert now = some row) :
      Advance id (.created t now columns) s
        ({ s with row := some row }.log (.created t now columns))
  | updated {s : Statement} {t : Tid} {now : Time} {u : Update}
      {late : Bool} {row row' : StatementRecord} (hrow : s.row = some row)
      (applies : u.apply now row = some row')
      (hlate : late = true → u.storable = true ∧
        landings t u s.history < s.history.count (.errored t u)) :
      Advance id (.updated t now u late) s
        ({ s with row := some row' }.log (.updated t now u late))
  | refused {s : Statement} {t : Tid} {now : Time} {u : Update}
      (hrow : ∀ row, s.row = some row → u.apply now row = none) :
      Advance id (.refused t now u) s (s.log (.refused t now u))
  | errored {s : Statement} {t : Tid} {u : Update} :
      Advance id (.errored t u) s (s.log (.errored t u))
  | completed {s : Statement} {t : Tid} {now : Time} {token : Uuid}
      {transactions : List CreateTransactionInput}
      {row row' : StatementRecord} (hrow : s.row = some row)
      (completes : row.complete now token = some row') :
      Advance id (.completed t now token transactions) s
        ({ s with
            row := some row'
            transactions := transactions.foldl upsertTransaction s.transactions
          }.log (.completed t now token transactions))
  | sent {s : Statement} {t : Tid} {reported delivered : Bool}
      (hreported : reported = true → delivered = true) :
      Advance id (.sent t reported delivered) s
        ({ s with
            messages :=
              if delivered then s.messages ++ [Message.mk t false]
              else s.messages
          }.log (.sent t reported delivered))
  | deliveredLate {s : Statement} {t : Tid} {delivered : Bool}
      (hsent : .sent t false delivered ∈ s.history) :
      Advance id (.deliveredLate t) s
        ({ s with messages := s.messages ++ [Message.mk t false] }.log
          (.deliveredLate t))
  | deleting {s : Statement} {t : Tid} {index : Nat} {effective : Bool} :
      Advance id (.deleting t index effective) s
        ({ s with
            messages :=
              if effective then markDeleted s.messages index else s.messages
          }.log (.deleting t index effective))
  | removed {s : Statement} {row : StatementRecord} (hrow : s.row = some row) :
      Advance id .removed s
        ({ s with row := none, transactions := [] }.log .removed)

theorem Advance.history {id : Uuid} {e : Event} {s s' : Statement}
    (h : Advance id e s s') : s'.history = e :: s.history := by
  cases h <;> rfl

/-- A statement that came about by events only. -/
inductive Genuine (id : Uuid) : Statement → Prop
  | unused : Genuine id Statement.unused
  | advance {e : Event} {s s' : Statement} (h : Genuine id s)
      (hs : Advance id e s s') : Genuine id s'

/-- `s'` came about from `s` by events that satisfy `P`. -/
def Evolves (id : Uuid) (P : Event → Prop) : Statement → Statement → Prop :=
  Relation.ReflTransGen fun s s' => ∃ e, P e ∧ Advance id e s s'

theorem Evolves.history {id : Uuid} {P : Event → Prop} {s s' : Statement}
    (h : Evolves id P s s') :
    ∃ newer, s'.history = newer ++ s.history ∧ ∀ e ∈ newer, P e := by
  induction h with
  | refl => exact ⟨[], rfl, nofun⟩
  | tail _ hstep ih =>
      obtain ⟨newer, hhistory, hnewer⟩ := ih
      obtain ⟨e, hP, hadvance⟩ := hstep
      refine ⟨e :: newer, by rw [hadvance.history, hhistory]; rfl, ?_⟩
      intro e' he'
      rcases List.mem_cons.mp he' with rfl | he'
      · exact hP
      · exact hnewer e' he'

/-- What every event preserves is preserved. -/
theorem Evolves.preserves {id : Uuid} {P : Event → Prop}
    {K : Statement → Prop}
    (hK : ∀ {e s s'}, P e → Advance id e s s' → K s → K s')
    {s s' : Statement} (h : Evolves id P s s') (hs : K s) : K s' := by
  induction h with
  | refl => exact hs
  | tail _ hstep ih =>
      obtain ⟨e, hP, hadvance⟩ := hstep
      exact hK hP hadvance ih

end StatementAnalyzer
