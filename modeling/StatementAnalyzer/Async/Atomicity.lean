/-
Atomicity of calls that are themselves implemented by procedures.  Every run of
the implementing procedure takes effect at one of its steps, as one call of the
abstract system; a system of interleaved implementations then refines the
system of atomic calls.
-/
import StatementAnalyzer.Async.RelyGuarantee

namespace Async

variable {World World' Op Op' : Type} {Val : Op → Type} {Val' : Op' → Type}
variable {ε α β γ : Type}

/-- `none` before the call has taken effect, then the answer it has taken
effect with. -/
abbrev Phase (ε β : Type) := Option (Except ε β)

/-- What one step of the implementation means for the abstract world. -/
def PhaseStep (S : System World Op Val ε α) (t : Tid) (op : Op) :
    Phase ε (Val op) → Phase ε (Val op) → World → World → Prop
  | none, none, w, w' => w' = w
  | none, some result, w, w' => S.exec t op w result w'
  | some result, phase, w, w' => phase = some result ∧ w' = w

/-- An implementation of the calls of `S` by procedures over the calls of `F`.
A thread is quiet when it is between two calls of `S`. -/
structure Implementation (F : System World' Op' Val' ε α)
    (S : System World Op Val ε α) extends Interference F where
  abs : World' → World
  impl : (op : Op) → Proc Op' Val' ε (Val op)
  Quiet : Tid → World' → Prop
  quiet_rely : ∀ {t w w'}, Quiet t w → rely t w w' → Quiet t w'

namespace Implementation

variable {F : System World' Op' Val' ε α} {S : System World Op Val ε α}
variable (R : Implementation F S)

/-- Every step of the procedure respects the phase of the call `op`, and it
settles in `Q`. -/
def Tracks (t : Tid) (op : Op) : Phase ε (Val op) → Proc Op' Val' ε β →
    (Except ε β → Phase ε (Val op) → World' → Prop) → World' → Prop
  | phase, .settled result, Q => fun w => ∀ w', R.rely t w w' → Q result phase w'
  | phase, .await o resume, Q => fun w =>
      ∀ w', R.rely t w w' → ∀ answer w'', F.exec t o w' answer w'' →
        ∃ phase', PhaseStep S t op phase phase' (R.abs w') (R.abs w'') ∧
          Tracks t op phase' (resume answer) Q w''

/-- The procedure settles with the answer the call took effect with. -/
def Finished (t : Tid) {op : Op} (result : Except ε (Val op))
    (phase : Phase ε (Val op)) (w : World') : Prop :=
  phase = some result ∧ R.Quiet t w

/-- The implementation of `op` takes effect at exactly one of its steps. -/
def Atomic (op : Op) : Prop :=
  ∀ t w, R.Quiet t w → R.Tracks t op none (R.impl op) (R.Finished t) w

variable {R} {t : Tid} {op : Op} {phase : Phase ε (Val op)}
variable {p : Proc Op' Val' ε β} {w : World'}
variable {Q : Except ε β → Phase ε (Val op) → World' → Prop}

theorem Tracks.stable (h : R.Tracks t op phase p Q w) {w' : World'}
    (hrely : R.rely t w w') : R.Tracks t op phase p Q w' := by
  cases p with
  | settled result => exact fun w₁ h₁ => h w₁ (R.trans hrely h₁)
  | await o resume => exact fun w₁ h₁ => h w₁ (R.trans hrely h₁)

/-- What is left of the abstract procedure in a phase of its first call. -/
def residual (phase : Phase ε (Val op))
    (resume : Except ε (Val op) → Proc Op Val ε β) : Proc Op Val ε β :=
  match phase with
  | none => .await op resume
  | some result => resume result

variable (R) in
/-- A thread of the implementation against the thread it implements. -/
inductive Simulates (t : Tid) :
    Proc Op' Val' ε β → Proc Op Val ε β → World' → Prop
  | done {result : Except ε β} {w : World'} :
      Simulates t (.settled result) (.settled result) w
  | inside {op : Op} {phase : Phase ε (Val op)}
      {m : Proc Op' Val' ε (Val op)}
      {resume : Except ε (Val op) → Proc Op Val ε β} {w : World'}
      (h : R.Tracks t op phase m (R.Finished t) w) :
      Simulates t (m.andThen fun answer => (resume answer).interp R.impl)
        (residual phase resume) w

variable {q : Proc Op Val ε β}

theorem Simulates.stable (h : R.Simulates t p q w) {w' : World'}
    (hrely : R.rely t w w') : R.Simulates t p q w' := by
  cases h with
  | done => exact .done
  | inside h => exact .inside (h.stable hrely)

theorem Simulates.of_quiet (hatomic : ∀ op, R.Atomic op) (hw : R.Quiet t w) :
    R.Simulates t (q.interp R.impl) q w := by
  cases q with
  | settled result => exact .done
  | await op resume =>
      change R.Simulates t _ (residual none resume) w
      exact .inside (hatomic op t w hw)

/-- An atomic implementation cannot settle without having taken effect. -/
theorem Atomic.awaits (h : R.Atomic op) (hw : R.Quiet t w) :
    ∃ o resume, R.impl op = .await o resume := by
  have htracks := h t w hw
  cases himpl : R.impl op with
  | settled result =>
      rw [himpl] at htracks
      exact nomatch (htracks w (R.refl t w)).1
  | await o resume => exact ⟨o, resume, rfl⟩

/-- A settled implementation implements a procedure settled with the same
result. -/
theorem Simulates.settled (hatomic : ∀ op, R.Atomic op) {result : Except ε β}
    (h : R.Simulates t (.settled result) q w) : q = .settled result := by
  generalize hp : (Proc.settled result : Proc Op' Val' ε β) = p at h
  cases h with
  | done =>
      cases hp
      rfl
  | @inside op phase m resume _ h =>
      cases m with
      | await o _ => cases hp
      | settled answer =>
          obtain ⟨rfl, hquiet⟩ := h w (R.refl t w)
          change Proc.settled result = (resume answer).interp R.impl at hp
          change resume answer = Proc.settled result
          cases hr : resume answer with
          | settled result' =>
              rw [hr] at hp
              cases hp
              rfl
          | await op' resume' =>
              obtain ⟨o, k, himpl⟩ := (hatomic op').awaits hquiet
              rw [hr, Proc.interp_await, himpl] at hp
              cases hp

/-- An implementing thread that awaits a call is inside the implementation of
the abstract call it is residual to. -/
theorem Simulates.awaiting (hatomic : ∀ op, R.Atomic op) {o : Op'}
    {resume : Except ε (Val' o) → Proc Op' Val' ε β}
    (h : R.Simulates t (.await o resume) q w) :
    ∃ (op : Op) (phase : Phase ε (Val op))
      (m : Except ε (Val' o) → Proc Op' Val' ε (Val op))
      (k : Except ε (Val op) → Proc Op Val ε β),
      q = residual phase k ∧
      (resume = fun answer =>
        (m answer).andThen fun result => (k result).interp R.impl) ∧
      R.Tracks t op phase (.await o m) (R.Finished t) w := by
  generalize hp : (Proc.await o resume : Proc Op' Val' ε β) = p at h
  cases h with
  | done => cases hp
  | @inside op phase m k _ h =>
      cases m with
      | await o' m =>
          cases hp
          exact ⟨op, phase, m, k, rfl, rfl, h⟩
      | settled answer =>
          -- the effect is behind, so this is the first call of the next one
          obtain ⟨rfl, hquiet⟩ := h w (R.refl t w)
          change Proc.await o resume = (k answer).interp R.impl at hp
          change ∃ op phase m k', k answer = residual phase k' ∧ _
          cases hr : k answer with
          | settled result =>
              rw [hr] at hp
              cases hp
          | await op' k' =>
              have htracks := hatomic op' t w hquiet
              obtain ⟨o', m, himpl⟩ := (hatomic op').awaits hquiet
              rw [hr, Proc.interp_await, himpl] at hp
              rw [himpl] at htracks
              cases hp
              exact ⟨op', none, m, k', rfl, rfl, htracks⟩

/-- One step of an implementing thread is a step of the implemented thread or
leaves the abstract world alone. -/
theorem Simulates.step (hatomic : ∀ op, R.Atomic op) {o : Op'}
    {resume : Except ε (Val' o) → Proc Op' Val' ε β}
    (h : R.Simulates t (.await o resume) q w) {answer : Except ε (Val' o)}
    {w' : World'} (hexec : F.exec t o w answer w') :
    (R.abs w' = R.abs w ∧ R.Simulates t (resume answer) q w') ∨
      ∃ op k result, q = .await op k ∧ S.exec t op (R.abs w) result (R.abs w') ∧
        R.Simulates t (resume answer) (k result) w' := by
  obtain ⟨op, phase, m, k, rfl, rfl, htracks⟩ := h.awaiting hatomic
  obtain ⟨phase', hphase, hrest⟩ := htracks w (R.refl t w) answer w' hexec
  match phase, phase', hphase with
  | none, none, hsame => exact .inl ⟨hsame, .inside hrest⟩
  | none, some result, heffect =>
      exact .inr ⟨op, k, result, rfl, heffect, .inside hrest⟩
  | some result, _, hsame =>
      obtain ⟨rfl, hsame⟩ := hsame
      exact .inl ⟨hsame, .inside hrest⟩

variable (R) in
inductive ThreadRefines (t : Tid) (w : World') :
    Thread Op' Val' ε α → Thread Op Val ε α → Prop
  | idle : ThreadRefines t w .idle .idle
  | crashed : ThreadRefines t w .crashed .crashed
  | running {p : Proc Op' Val' ε α} {q : Proc Op Val ε α}
      (h : R.Simulates t p q w) : ThreadRefines t w (.running p) (.running q)

theorem ThreadRefines.stable {thread' : Thread Op' Val' ε α}
    {thread : Thread Op Val ε α} (h : R.ThreadRefines t w thread' thread)
    {w' : World'} (hrely : R.rely t w w') :
    R.ThreadRefines t w' thread' thread := by
  cases h with
  | idle => exact .idle
  | crashed => exact .crashed
  | running h => exact .running (h.stable hrely)

variable (R) in
/-- The implementing configuration against the abstract one. -/
structure Refines (c' : Config World' Op' Val' ε α)
    (c : Config World Op Val ε α) : Prop where
  world : c.world = R.abs c'.world
  threads : ∀ t, R.ThreadRefines t c'.world (c'.threads t) (c.threads t)

theorem Refines.running {c' : Config World' Op' Val' ε α}
    {c : Config World Op Val ε α} (h : R.Refines c' c) {t : Tid}
    {p : Proc Op' Val' ε α} (hrunning : c'.threads t = .running p) :
    ∃ q, c.threads t = .running q ∧ R.Simulates t p q c'.world := by
  have ht := h.threads t
  rw [hrunning] at ht
  generalize c.threads t = thread at ht ⊢
  cases ht with
  | @running _ q hsim => exact ⟨q, rfl, hsim⟩

theorem Refines.idle {c' : Config World' Op' Val' ε α}
    {c : Config World Op Val ε α} (h : R.Refines c' c) {t : Tid}
    (hidle : c'.threads t = .idle) : c.threads t = .idle := by
  have ht := h.threads t
  rw [hidle] at ht
  generalize c.threads t = thread at ht ⊢
  cases ht with
  | idle => rfl

/-- Replacing one thread on both sides. -/
theorem Refines.move {c' : Config World' Op' Val' ε α}
    {c : Config World Op Val ε α} (h : R.Refines c' c) {t : Tid} {w' : World'}
    {thread' : Thread Op' Val' ε α} {thread : Thread Op Val ε α}
    (hrely : ∀ u, u ≠ t → R.rely u c'.world w')
    (hthread : R.ThreadRefines t w' thread' thread) :
    R.Refines (c'.move t thread' w') (c.move t thread (R.abs w')) := by
  refine ⟨rfl, fun u => ?_⟩
  by_cases hut : u = t
  · subst hut
    rw [Config.move_threads_self, Config.move_threads_self]
    exact hthread
  · rw [Config.move_threads_ne _ hut, Config.move_threads_ne _ hut]
    exact (h.threads u).stable (hrely u hut)

end Implementation

/-- An implementation whose runs, crashes and environment are those of the
abstract system. -/
structure Refinement (F : System World' Op' Val' ε α)
    (S : System World Op Val ε α) extends Implementation F S where
  atomic : ∀ op, toImplementation.Atomic op
  init : ∀ {w}, F.init w → S.init (abs w)
  starts : ∀ {t p w w'}, F.start t p w w' →
    ∃ q, p = Proc.interp impl q ∧ S.start t q (abs w) (abs w') ∧ Quiet t w'
  crashes : ∀ {t w w'}, F.crash t w w' → S.crash t (abs w) (abs w')
  environment : ∀ {w w'}, F.env w w' → abs w' = abs w ∨ S.env (abs w) (abs w')

namespace Refinement

open Implementation

variable {F : System World' Op' Val' ε α} {S : System World Op Val ε α}
variable (R : Refinement F S)

/-- Every step of the implementation is at most one step of the abstract
system. -/
theorem step {c' c₁' : Config World' Op' Val' ε α}
    {c : Config World Op Val ε α} {l : Label Op'}
    (h : R.Refines c' c) (hstep : F.Step l c' c₁') :
    ∃ c₁, (c₁ = c ∨ ∃ l, S.Step l c c₁) ∧ R.Refines c₁' c₁ := by
  cases hstep with
  | @call _ t o resume answer w' running executes =>
      have hrely := fun u (hu : u ≠ t) => R.exec executes hu
      obtain ⟨q, hq, hsim⟩ := h.running running
      obtain ⟨hworld, hthreads⟩ := h
      rcases hsim.step R.atomic executes with
        ⟨hsame, hsim'⟩ | ⟨op, k, result, rfl, heffect, hsim'⟩
      · refine ⟨c, .inl rfl, hworld.trans hsame.symm, fun u => ?_⟩
        by_cases hut : u = t
        · subst hut
          rw [Config.move_threads_self, hq]
          exact .running hsim'
        · rw [Config.move_threads_ne _ hut]
          exact (hthreads u).stable (hrely u hut)
      · rw [← hworld] at heffect
        exact ⟨_, .inr ⟨_, .call hq heffect⟩,
          Refines.move ⟨hworld, hthreads⟩ hrely (.running hsim')⟩
  | @start _ t p w' idle starts =>
      obtain ⟨q, rfl, hstarts, hquiet⟩ := R.starts starts
      rw [← h.world] at hstarts
      exact ⟨_, .inr ⟨_, .start (h.idle idle) hstarts⟩,
        h.move (fun u _ => R.start starts)
          (.running (.of_quiet R.atomic hquiet))⟩
  | @crash _ t p w' running crashes =>
      obtain ⟨q, hq, _⟩ := h.running running
      have hcrashes := R.crashes crashes
      rw [← h.world] at hcrashes
      exact ⟨_, .inr ⟨_, .crash hq hcrashes⟩,
        h.move (fun u hu => R.crash crashes hu) .crashed⟩
  | @env _ w' changes =>
      have hstable : ∀ t, R.ThreadRefines t w' (c'.threads t) (c.threads t) :=
        fun t => (h.threads t).stable (R.env changes)
      rcases R.environment changes with hsame | hchanges
      · exact ⟨c, .inl rfl, h.world.trans hsame.symm, hstable⟩
      · rw [← h.world] at hchanges
        exact ⟨⟨_, c.threads⟩, .inr ⟨_, .env hchanges⟩, rfl, hstable⟩

/-- Every reachable configuration of the implementation refines a reachable
one of the abstract system. -/
theorem reachable {c' : Config World' Op' Val' ε α} (h : F.Reachable c') :
    ∃ c, S.Reachable c ∧ R.Refines c' c := by
  induction h with
  | init h => exact ⟨_, .init (R.init h), rfl, fun _ => .idle⟩
  | step _ hstep ih =>
      obtain ⟨c, hc, hrefines⟩ := ih
      obtain ⟨c₁, hsteps, hrefines'⟩ := R.step hrefines hstep
      refine ⟨c₁, ?_, hrefines'⟩
      rcases hsteps with rfl | ⟨l, hl⟩
      · exact hc
      · exact hc.step hl

end Refinement

end Async
