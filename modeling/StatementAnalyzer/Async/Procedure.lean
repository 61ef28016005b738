/-
Asynchronous procedures as trees of awaited calls.  A procedure has settled,
with a value or with a thrown error, or it awaits one call and goes on with
whatever that call answers.
-/
import Mathlib.Logic.Basic

namespace Async

/-- A procedure over the calls `Op`, where `op` answers a value of `Val op` or
throws an error of `ε`. -/
inductive Proc (Op : Type) (Val : Op → Type) (ε α : Type) : Type where
  | settled (result : Except ε α) : Proc Op Val ε α
  | await (op : Op) (resume : Except ε (Val op) → Proc Op Val ε α) :
      Proc Op Val ε α

namespace Proc

variable {Op Op' : Type} {Val : Op → Type} {Val' : Op' → Type}
variable {ε α β γ : Type}

/-- Go on with `next` once the procedure has settled, whichever way. -/
def andThen : Proc Op Val ε α → (Except ε α → Proc Op Val ε β) →
    Proc Op Val ε β
  | settled result, next => next result
  | await op resume, next => await op fun answer => (resume answer).andThen next

/-- Await one call and settle with its answer. -/
def call (op : Op) : Proc Op Val ε (Val op) :=
  await op settled

def throwing (error : ε) : Proc Op Val ε α :=
  settled (.error error)

/-- The continuation of a sequential composition: an error skips it. -/
def onValue (next : α → Proc Op Val ε β) : Except ε α → Proc Op Val ε β
  | .ok value => next value
  | .error error => throwing error

instance : Monad (Proc Op Val ε) where
  pure value := settled (.ok value)
  bind p next := p.andThen (onValue next)

/-- Settle with the outcome of `p` as a value, so that the caller can branch on
a thrown error. -/
def attempt (p : Proc Op Val ε α) : Proc Op Val ε (Except ε α) :=
  p.andThen fun result => settled (.ok result)

/-- A `catch` block. -/
def orElse (p : Proc Op Val ε α) (handler : ε → Proc Op Val ε α) :
    Proc Op Val ε α :=
  p.andThen fun
    | .ok value => settled (.ok value)
    | .error error => handler error

/-- A `finally` block: `final` runs in both cases and its own error wins. -/
def ensure (p : Proc Op Val ε α) (final : Proc Op Val ε Unit) :
    Proc Op Val ε α :=
  p.andThen fun result => final.andThen fun
    | .ok _ => settled result
    | .error error => throwing error

@[simp] theorem settled_andThen (result : Except ε α)
    (next : Except ε α → Proc Op Val ε β) :
    (settled result : Proc Op Val ε α).andThen next = next result := rfl

@[simp] theorem await_andThen (op : Op)
    (resume : Except ε (Val op) → Proc Op Val ε α)
    (next : Except ε α → Proc Op Val ε β) :
    (await op resume).andThen next =
      await op fun answer => (resume answer).andThen next := rfl

@[simp] theorem onValue_ok (next : α → Proc Op Val ε β) (value : α) :
    onValue next (.ok value) = next value := rfl

@[simp] theorem onValue_error (next : α → Proc Op Val ε β) (error : ε) :
    onValue next (.error error) = throwing error := rfl

theorem bind_eq (p : Proc Op Val ε α) (next : α → Proc Op Val ε β) :
    p >>= next = p.andThen (onValue next) := rfl

theorem pure_eq (value : α) :
    (pure value : Proc Op Val ε α) = settled (.ok value) := rfl

theorem andThen_settled (p : Proc Op Val ε α) : p.andThen settled = p := by
  induction p with
  | settled result => rfl
  | await op resume ih =>
      simp only [await_andThen]
      exact congrArg (await op) (funext ih)

theorem andThen_assoc (p : Proc Op Val ε α) (next : Except ε α → Proc Op Val ε β)
    (last : Except ε β → Proc Op Val ε γ) :
    (p.andThen next).andThen last =
      p.andThen fun result => (next result).andThen last := by
  induction p with
  | settled result => rfl
  | await op resume ih =>
      simp only [await_andThen]
      exact congrArg (await op) (funext ih)

/-- Branching on the outcome of `p` is going on with it. -/
theorem attempt_bind (p : Proc Op Val ε α)
    (next : Except ε α → Proc Op Val ε β) :
    (p.attempt >>= next) = p.andThen next := by
  rw [bind_eq, attempt, andThen_assoc]
  rfl

/-- Replace every call by a procedure that implements it. -/
def interp (impl : (op : Op) → Proc Op' Val' ε (Val op)) :
    Proc Op Val ε α → Proc Op' Val' ε α
  | settled result => settled result
  | await op resume =>
      (impl op).andThen fun answer => (resume answer).interp impl

@[simp] theorem interp_settled (impl : (op : Op) → Proc Op' Val' ε (Val op))
    (result : Except ε α) :
    (settled result : Proc Op Val ε α).interp impl = settled result := rfl

@[simp] theorem interp_await (impl : (op : Op) → Proc Op' Val' ε (Val op))
    (op : Op) (resume : Except ε (Val op) → Proc Op Val ε α) :
    (await op resume).interp impl =
      (impl op).andThen fun answer => (resume answer).interp impl := rfl

theorem interp_andThen (impl : (op : Op) → Proc Op' Val' ε (Val op))
    (p : Proc Op Val ε α) (next : Except ε α → Proc Op Val ε β) :
    (p.andThen next).interp impl =
      (p.interp impl).andThen fun result => (next result).interp impl := by
  induction p with
  | settled result => rfl
  | await op resume ih =>
      simp only [await_andThen, interp_await, andThen_assoc]
      exact congrArg (impl op).andThen (funext ih)

/-- Every call the procedure can ever make satisfies `P`. -/
def Calls (P : Op → Prop) : Proc Op Val ε α → Prop
  | settled _ => True
  | await op resume => P op ∧ ∀ answer, (resume answer).Calls P

@[simp] theorem calls_settled (P : Op → Prop) (result : Except ε α) :
    (settled result : Proc Op Val ε α).Calls P := trivial

@[simp] theorem calls_throwing (P : Op → Prop) (error : ε) :
    (throwing error : Proc Op Val ε α).Calls P := trivial

@[simp] theorem calls_await (P : Op → Prop) (op : Op)
    (resume : Except ε (Val op) → Proc Op Val ε α) :
    (await op resume).Calls P ↔ P op ∧ ∀ answer, (resume answer).Calls P :=
  Iff.rfl

theorem Calls.call {P : Op → Prop} {op : Op} (h : P op) :
    (call op : Proc Op Val ε (Val op)).Calls P :=
  ⟨h, fun _ => trivial⟩

theorem Calls.andThen {P : Op → Prop} {p : Proc Op Val ε α}
    {next : Except ε α → Proc Op Val ε β} (hp : p.Calls P)
    (hnext : ∀ result, (next result).Calls P) : (p.andThen next).Calls P := by
  induction p with
  | settled result => exact hnext result
  | await op resume ih => exact ⟨hp.1, fun answer => ih answer (hp.2 answer)⟩

theorem Calls.bind {P : Op → Prop} {p : Proc Op Val ε α}
    {next : α → Proc Op Val ε β} (hp : p.Calls P)
    (hnext : ∀ value, (next value).Calls P) : (p >>= next).Calls P := by
  refine hp.andThen fun result => ?_
  cases result with
  | ok value => exact hnext value
  | error error => trivial

theorem Calls.orElse {P : Op → Prop} {p : Proc Op Val ε α}
    {handler : ε → Proc Op Val ε α} (hp : p.Calls P)
    (hhandler : ∀ error, (handler error).Calls P) :
    (p.orElse handler).Calls P := by
  refine hp.andThen fun result => ?_
  cases result with
  | ok value => trivial
  | error error => exact hhandler error

theorem Calls.ensure {P : Op → Prop} {p : Proc Op Val ε α}
    {final : Proc Op Val ε Unit} (hp : p.Calls P) (hfinal : final.Calls P) :
    (p.ensure final).Calls P := by
  refine hp.andThen fun result => hfinal.andThen fun done => ?_
  cases done <;> trivial

theorem Calls.interp {P : Op → Prop} {Q : Op' → Prop}
    {impl : (op : Op) → Proc Op' Val' ε (Val op)} {p : Proc Op Val ε α}
    (hp : p.Calls P) (himpl : ∀ op, P op → (impl op).Calls Q) :
    (p.interp impl).Calls Q := by
  induction p with
  | settled result => trivial
  | await op resume ih =>
      exact (himpl op hp.1).andThen fun answer => ih answer (hp.2 answer)

theorem Calls.mono {P Q : Op → Prop} (hPQ : ∀ op, P op → Q op)
    {p : Proc Op Val ε α} (hp : p.Calls P) : p.Calls Q := by
  induction p with
  | settled result => trivial
  | await op resume ih =>
      exact ⟨hPQ op hp.1, fun answer => ih answer (hp.2 answer)⟩

end Proc

end Async
