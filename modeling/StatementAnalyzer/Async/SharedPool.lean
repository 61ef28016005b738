/-
A system whose calls need a resource that the procedures of another system use.
While the resource is sound the system does what it does alone; once it has been
spoiled nothing is said about it any more.
-/
import StatementAnalyzer.Async.System

namespace Async

variable {World Op : Type} {Val : Op → Type} {ε α : Type}
variable {Resource Op' : Type} {Val' : Op' → Type} {ε' α' : Type}

/-- The states of the resource that are sound: none of them is spoiled, and they
were sound all the time. -/
structure System.Safeguard (P : System Resource Op' Val' ε' α')
    (spoiled sound : Resource → Prop) : Prop where
  safe : ∀ {d}, P.Reachable d → sound d.world → ¬spoiled d.world
  before : ∀ {d d' l}, P.Reachable d → P.Step l d d' → sound d'.world →
    sound d.world

/-- The system over the resource of `P`. -/
def System.over (S : System World Op Val ε α)
    (P : System Resource Op' Val' ε' α') (spoiled : Resource → Prop) :
    System (World × Config Resource Op' Val' ε' α') Op Val ε α where
  init w := S.init w.1 ∧
    ∃ resource, P.init resource ∧ w.2 = ⟨resource, fun _ => .idle⟩
  exec t op w answer w' := w'.2 = w.2 ∧
    (spoiled w.2.world ∨ S.exec t op w.1 answer w'.1)
  start t p w w' := w'.2 = w.2 ∧ S.start t p w.1 w'.1
  crash t w w' := w'.2 = w.2 ∧ S.crash t w.1 w'.1
  env w w' := (w'.2 = w.2 ∧ (spoiled w.2.world ∨ S.env w.1 w'.1)) ∨
    (w'.1 = w.1 ∧ ∃ l, P.Step l w.2 w'.2)

namespace Config

/-- Without the resource. -/
def alone (c : Config (World × Config Resource Op' Val' ε' α') Op Val ε α) :
    Config World Op Val ε α :=
  ⟨c.world.1, c.threads⟩

@[simp] theorem alone_world
    (c : Config (World × Config Resource Op' Val' ε' α') Op Val ε α) :
    c.alone.world = c.world.1 := rfl

@[simp] theorem alone_threads
    (c : Config (World × Config Resource Op' Val' ε' α') Op Val ε α) :
    c.alone.threads = c.threads := rfl

end Config

namespace System

variable {S : System World Op Val ε α} {P : System Resource Op' Val' ε' α'}
variable {spoiled sound : Resource → Prop}
variable {c c' : Config (World × Config Resource Op' Val' ε' α') Op Val ε α}

/-- The resource moves by its own steps only. -/
theorem over_moves {l : Label Op} (hstep : (S.over P spoiled).Step l c c') :
    c'.world.2 = c.world.2 ∨ ∃ l', P.Step l' c.world.2 c'.world.2 := by
  cases hstep with
  | call _ executes => exact .inl executes.1
  | start _ starts => exact .inl starts.1
  | crash _ crashes => exact .inl crashes.1
  | env changes =>
      rcases changes with ⟨hsame, _⟩ | ⟨_, hmoved⟩
      · exact .inl hsame
      · exact .inr hmoved

/-- While the resource is not spoiled, a step is one of the system alone, or none
of it. -/
theorem over_step {l : Label Op} (hsafe : ¬spoiled c.world.2.world)
    (hstep : (S.over P spoiled).Step l c c') :
    S.Step l c.alone c'.alone ∨ c'.alone = c.alone := by
  cases hstep with
  | call running executes =>
      obtain ⟨_, hspoiled | hexec⟩ := executes
      · exact absurd hspoiled hsafe
      · exact .inl (.call running hexec)
  | start idle starts => exact .inl (.start idle starts.2)
  | crash running crashes => exact .inl (.crash running crashes.2)
  | env changes =>
      rcases changes with ⟨_, hspoiled | henv⟩ | ⟨hsame, _⟩
      · exact absurd hspoiled hsafe
      · exact .inl (.env henv)
      · right
        rw [Config.alone, hsame]
        rfl

/-- A resource that is sound in the end was sound before. -/
theorem over_before (hguard : Safeguard P spoiled sound) {l : Label Op}
    (h : P.Reachable c.world.2) (hstep : (S.over P spoiled).Step l c c') :
    P.Reachable c'.world.2 ∧
      (sound c'.world.2.world → sound c.world.2.world) := by
  rcases over_moves hstep with hsame | ⟨l', hmoved⟩
  · rw [hsame]
    exact ⟨h, id⟩
  · exact ⟨h.step hmoved, hguard.before h hmoved⟩

/-- A run that ends with a sound resource is a run of the system alone. -/
theorem over_leads (hguard : Safeguard P spoiled sound)
    (h : P.Reachable c.world.2) (hleads : (S.over P spoiled).Leads c c') :
    P.Reachable c'.world.2 ∧ (sound c'.world.2.world →
      sound c.world.2.world ∧ S.Leads c.alone c'.alone) := by
  induction hleads with
  | refl => exact ⟨h, fun hsound => ⟨hsound, .refl⟩⟩
  | tail _ hstep ih =>
      obtain ⟨l, hstep⟩ := hstep
      obtain ⟨hreachable, hrun⟩ := ih
      obtain ⟨hreachable', hbefore⟩ := over_before hguard hreachable hstep
      refine ⟨hreachable', fun hsound => ?_⟩
      have hsound' := hbefore hsound
      obtain ⟨hfirst, hleads⟩ := hrun hsound'
      refine ⟨hfirst, ?_⟩
      rcases over_step (hguard.safe hreachable hsound') hstep with hstep | hsame
      · exact hleads.tail ⟨l, hstep⟩
      · rw [hsame]
        exact hleads

theorem over_reachable (hguard : Safeguard P spoiled sound)
    (h : (S.over P spoiled).Reachable c) :
    P.Reachable c.world.2 ∧ (sound c.world.2.world → S.Reachable c.alone) := by
  obtain ⟨world, ⟨hinit, resource, hresource, hworld⟩, hleads⟩ := h.from_init
  have hstart : P.Reachable world.2 := by
    rw [hworld]
    exact .init hresource
  obtain ⟨hreachable, hrun⟩ := over_leads hguard hstart hleads
  exact ⟨hreachable, fun hsound =>
    (Reachable.init hinit).leads (hrun hsound).2⟩

/-- What the system does alone it can do over a resource that nobody uses. -/
theorem alone_leads {c c' : Config World Op Val ε α}
    (hleads : S.Leads c c') (d : Config Resource Op' Val' ε' α') :
    (S.over P spoiled).Leads ⟨(c.world, d), c.threads⟩
      ⟨(c'.world, d), c'.threads⟩ := by
  induction hleads with
  | refl => exact .refl
  | tail _ hstep ih =>
      obtain ⟨l, hstep⟩ := hstep
      refine ih.tail ⟨l, ?_⟩
      cases hstep with
      | @call _ t _ _ _ _ running executes =>
          exact .call (c := ⟨(_, d), _⟩) running ⟨rfl, .inr executes⟩
      | start idle starts => exact .start idle ⟨rfl, starts⟩
      | crash running crashes => exact .crash running ⟨rfl, crashes⟩
      | env changes => exact .env (.inl ⟨rfl, .inr changes⟩)

theorem alone_reachable {c : Config World Op Val ε α} (h : S.Reachable c)
    {resource : Resource} (hresource : P.init resource) :
    (S.over P spoiled).Reachable
      ⟨(c.world, ⟨resource, fun _ => .idle⟩), c.threads⟩ := by
  obtain ⟨world, hinit, hleads⟩ := h.from_init
  have hstart : (S.over P spoiled).Reachable
      ⟨(world, ⟨resource, fun _ => .idle⟩), fun _ => .idle⟩ :=
    .init ⟨hinit, resource, hresource, rfl⟩
  exact hstart.leads (alone_leads hleads _)

end System

end Async
