/-
Interleaved runs of asynchronous procedures over one shared world.  A thread
runs one procedure; a step executes the awaited call of one thread, starts or
kills a thread, or lets the environment change the world.
-/
import StatementAnalyzer.Async.Procedure
import Mathlib.Logic.Function.Basic
import Mathlib.Logic.Relation

namespace Async

/-- Threads are numbered and a number is never used twice. -/
abbrev Tid := Nat

/-- A system: which worlds a run may begin in, what executing a call can do to
the world and answer, and what the environment can do by itself. -/
structure System (World Op : Type) (Val : Op → Type) (ε α : Type) where
  init : World → Prop
  exec : Tid → (op : Op) → World → Except ε (Val op) → World → Prop
  start : Tid → Proc Op Val ε α → World → World → Prop
  crash : Tid → World → World → Prop
  env : World → World → Prop

inductive Thread (Op : Type) (Val : Op → Type) (ε α : Type) : Type where
  | idle
  | running (p : Proc Op Val ε α)
  | crashed

structure Config (World Op : Type) (Val : Op → Type) (ε α : Type) where
  world : World
  threads : Tid → Thread Op Val ε α

/-- What kind of step was taken, and by which thread. -/
inductive Label (Op : Type) : Type where
  | call (t : Tid) (op : Op)
  | start (t : Tid)
  | crash (t : Tid)
  | env

/-- The thread that took the step, unless it was the environment. -/
def Label.thread {Op : Type} : Label Op → Option Tid
  | call t _ => some t
  | start t => some t
  | crash t => some t
  | env => none

variable {World Op : Type} {Val : Op → Type} {ε α : Type}

namespace Config

/-- The configuration after thread `t` moved to `thread`. -/
def move (c : Config World Op Val ε α) (t : Tid) (thread : Thread Op Val ε α)
    (world : World) : Config World Op Val ε α :=
  ⟨world, Function.update c.threads t thread⟩

@[simp] theorem move_world (c : Config World Op Val ε α) (t : Tid)
    (thread : Thread Op Val ε α) (world : World) :
    (c.move t thread world).world = world := rfl

@[simp] theorem move_threads_self (c : Config World Op Val ε α) (t : Tid)
    (thread : Thread Op Val ε α) (world : World) :
    (c.move t thread world).threads t = thread := by
  simp [move]

theorem move_threads_ne (c : Config World Op Val ε α) {t u : Tid} (h : u ≠ t)
    (thread : Thread Op Val ε α) (world : World) :
    (c.move t thread world).threads u = c.threads u := by
  simp [move, h]

@[simp] theorem move_move (c : Config World Op Val ε α) (t : Tid)
    (thread thread' : Thread Op Val ε α) (world world' : World) :
    (c.move t thread world).move t thread' world' = c.move t thread' world' := by
  simp [move]

end Config

namespace System

/-- One step of the system. -/
inductive Step (S : System World Op Val ε α) :
    Label Op → Config World Op Val ε α → Config World Op Val ε α → Prop
  | call {c : Config World Op Val ε α} {t : Tid} {op : Op}
      {resume : Except ε (Val op) → Proc Op Val ε α}
      {answer : Except ε (Val op)} {world : World}
      (running : c.threads t = .running (.await op resume))
      (executes : S.exec t op c.world answer world) :
      Step S (.call t op) c (c.move t (.running (resume answer)) world)
  | start {c : Config World Op Val ε α} {t : Tid} {p : Proc Op Val ε α}
      {world : World} (idle : c.threads t = .idle)
      (starts : S.start t p c.world world) :
      Step S (.start t) c (c.move t (.running p) world)
  | crash {c : Config World Op Val ε α} {t : Tid} {p : Proc Op Val ε α}
      {world : World} (running : c.threads t = .running p)
      (crashes : S.crash t c.world world) :
      Step S (.crash t) c (c.move t .crashed world)
  | env {c : Config World Op Val ε α} {world : World}
      (changes : S.env c.world world) :
      Step S .env c ⟨world, c.threads⟩

inductive Reachable (S : System World Op Val ε α) :
    Config World Op Val ε α → Prop
  | init {world : World} (h : S.init world) :
      Reachable S ⟨world, fun _ => .idle⟩
  | step {c c' : Config World Op Val ε α} {l : Label Op}
      (h : Reachable S c) (hstep : S.Step l c c') : Reachable S c'

/-- `c'` is reached from `c` by any number of steps. -/
def Leads (S : System World Op Val ε α) :
    Config World Op Val ε α → Config World Op Val ε α → Prop :=
  Relation.ReflTransGen fun c c' => ∃ l, S.Step l c c'

theorem Reachable.leads {S : System World Op Val ε α}
    {c c' : Config World Op Val ε α} (h : S.Reachable c)
    (hleads : S.Leads c c') : S.Reachable c' := by
  induction hleads with
  | refl => exact h
  | tail _ hstep ih =>
      obtain ⟨l, hstep⟩ := hstep
      exact ih.step hstep

/-- A reachable configuration has been reached from an initial one. -/
theorem Reachable.from_init {S : System World Op Val ε α}
    {c : Config World Op Val ε α} (h : S.Reachable c) :
    ∃ world, S.init world ∧ S.Leads ⟨world, fun _ => .idle⟩ c := by
  induction h with
  | init h => exact ⟨_, h, .refl⟩
  | step _ hstep ih =>
      obtain ⟨world, hinit, hleads⟩ := ih
      exact ⟨world, hinit, hleads.tail ⟨_, hstep⟩⟩

/-- Where a running thread comes from: it was running already and did not
move, it executed the call it awaited, or it has just started. -/
theorem Step.running {S : System World Op Val ε α}
    {c c' : Config World Op Val ε α} {l : Label Op} (hstep : S.Step l c c')
    {u : Tid} {q : Proc Op Val ε α} (hq : c'.threads u = .running q) :
    (c.threads u = .running q ∧ l.thread ≠ some u) ∨
      (∃ op resume answer, c.threads u = .running (.await op resume) ∧
        q = resume answer ∧ S.exec u op c.world answer c'.world) ∨
      (c.threads u = .idle ∧ S.start u q c.world c'.world) := by
  cases hstep with
  | @call _ t op resume answer world running executes =>
      by_cases hut : u = t
      · subst hut
        rw [Config.move_threads_self] at hq
        cases hq
        exact .inr (.inl ⟨op, resume, answer, running, rfl, executes⟩)
      · rw [Config.move_threads_ne _ hut] at hq
        exact .inl ⟨hq, fun h => hut (Option.some.inj h).symm⟩
  | @start _ t p world idle starts =>
      by_cases hut : u = t
      · subst hut
        rw [Config.move_threads_self] at hq
        cases hq
        exact .inr (.inr ⟨idle, starts⟩)
      · rw [Config.move_threads_ne _ hut] at hq
        exact .inl ⟨hq, fun h => hut (Option.some.inj h).symm⟩
  | @crash _ t p world _ _ =>
      by_cases hut : u = t
      · subst hut
        rw [Config.move_threads_self] at hq
        cases hq
      · rw [Config.move_threads_ne _ hut] at hq
        exact .inl ⟨hq, fun h => hut (Option.some.inj h).symm⟩
  | env _ => exact .inl ⟨hq, nofun⟩

/-- A thread that is idle was idle before and took no part in the step. -/
theorem Step.idle {S : System World Op Val ε α}
    {c c' : Config World Op Val ε α} {l : Label Op} (hstep : S.Step l c c')
    {u : Tid} (hidle : c'.threads u = .idle) :
    c.threads u = .idle ∧ l.thread ≠ some u := by
  have hmoved : ∀ {t thread world}, thread ≠ .idle →
      (c.move t thread world).threads u = .idle → c.threads u = .idle ∧
        u ≠ t := by
    intro t thread world hthread h
    by_cases hut : u = t
    · subst hut
      rw [Config.move_threads_self] at h
      exact absurd h hthread
    · rw [Config.move_threads_ne _ hut] at h
      exact ⟨h, hut⟩
  have hother : ∀ {t}, u ≠ t → some t ≠ some u :=
    fun hut h => hut (Option.some.inj h).symm
  cases hstep with
  | call _ _ =>
      obtain ⟨h, hut⟩ := hmoved (by simp) hidle
      exact ⟨h, hother hut⟩
  | start _ _ =>
      obtain ⟨h, hut⟩ := hmoved (by simp) hidle
      exact ⟨h, hother hut⟩
  | crash _ _ =>
      obtain ⟨h, hut⟩ := hmoved (by simp) hidle
      exact ⟨h, hother hut⟩
  | env _ => exact ⟨hidle, by simp [Label.thread]⟩

/-- A system whose procedures are those of `S` over a more detailed world: with
an invariant of the details, every step of it is a step of `S` or none. -/
structure Projection {World' : Type} (F : System World' Op Val ε α)
    (S : System World Op Val ε α) where
  abs : World' → World
  Inv : World' → Prop
  init : ∀ {w}, F.init w → S.init (abs w) ∧ Inv w
  exec : ∀ {t op w answer w'}, Inv w → F.exec t op w answer w' →
    S.exec t op (abs w) answer (abs w') ∧ Inv w'
  start : ∀ {t p w w'}, Inv w → F.start t p w w' →
    S.start t p (abs w) (abs w') ∧ Inv w'
  crash : ∀ {t w w'}, Inv w → F.crash t w w' →
    S.crash t (abs w) (abs w') ∧ Inv w'
  env : ∀ {w w'}, Inv w → F.env w w' →
    (abs w' = abs w ∨ S.env (abs w) (abs w')) ∧ Inv w'

/-- Without the details every configuration is one of `S`. -/
theorem Projection.reachable {World' : Type} {F : System World' Op Val ε α}
    {S : System World Op Val ε α} (R : Projection F S)
    {c : Config World' Op Val ε α} (h : F.Reachable c) :
    S.Reachable ⟨R.abs c.world, c.threads⟩ ∧ R.Inv c.world := by
  induction h with
  | init h => exact ⟨.init (R.init h).1, (R.init h).2⟩
  | step _ hstep ih =>
      obtain ⟨hreachable, hinv⟩ := ih
      cases hstep with
      | call running executes =>
          obtain ⟨hexec, hinv'⟩ := R.exec hinv executes
          exact ⟨hreachable.step (.call running hexec), hinv'⟩
      | start idle starts =>
          obtain ⟨hstart, hinv'⟩ := R.start hinv starts
          exact ⟨hreachable.step (.start idle hstart), hinv'⟩
      | crash running crashes =>
          obtain ⟨hcrash, hinv'⟩ := R.crash hinv crashes
          exact ⟨hreachable.step (.crash running hcrash), hinv'⟩
      | env changes =>
          obtain ⟨hsame | henv, hinv'⟩ := R.env hinv changes
          · rw [hsame]
            exact ⟨hreachable, hinv'⟩
          · exact ⟨hreachable.step (.env henv), hinv'⟩

end System

end Async
