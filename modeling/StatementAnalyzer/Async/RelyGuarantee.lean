/-
Rely-guarantee reasoning for interleaved procedures.  A protocol says what the
other threads can do to the world between two calls of a thread and which
invariant every step keeps; weakest preconditions then follow one procedure at
a time.
-/
import StatementAnalyzer.Async.System

namespace Async

variable {World Op : Type} {Val : Op → Type} {ε α β γ : Type}

/-- How the steps of the other threads and of the environment look to a
thread. -/
structure Interference (S : System World Op Val ε α) where
  rely : Tid → World → World → Prop
  refl : ∀ t w, rely t w w
  trans : ∀ {t w w' w''}, rely t w w' → rely t w' w'' → rely t w w''
  exec : ∀ {t u op w answer w'}, S.exec u op w answer w' → t ≠ u → rely t w w'
  start : ∀ {t u p w w'}, S.start u p w w' → rely t w w'
  crash : ∀ {t u w w'}, S.crash u w w' → t ≠ u → rely t w w'
  env : ∀ {t w w'}, S.env w w' → rely t w w'

theorem Interference.step {S : System World Op Val ε α} (I : Interference S)
    {c c' : Config World Op Val ε α} {l : Label Op} (hstep : S.Step l c c')
    {t : Tid} (ht : l.thread ≠ some t) : I.rely t c.world c'.world := by
  cases hstep with
  | call _ executes => exact I.exec executes fun h => ht (by rw [h]; rfl)
  | start _ starts => exact I.start starts
  | crash _ crashes => exact I.crash crashes fun h => ht (by rw [h]; rfl)
  | env changes => exact I.env changes

/-- An invariant to establish by following the threads.  `Known` is what has
already been proved of every reachable world. -/
structure Protocol (S : System World Op Val ε α) extends Interference S where
  Known : World → Prop
  Inv : World → Prop
  known : ∀ {c}, S.Reachable c → Known c.world
  inv_init : ∀ {w}, S.init w → Inv w
  inv_crash : ∀ {t w w'}, Known w → Inv w → S.crash t w w' → Inv w'
  inv_env : ∀ {w w'}, Known w → Inv w → S.env w w' → Inv w'

namespace Protocol

variable {S : System World Op Val ε α} (P : Protocol S)

/-- The weakest precondition for thread `t` to keep the invariant at each of
its calls and to settle in `Q`, whatever the others do in between. -/
def wp (t : Tid) : Proc Op Val ε β → (Except ε β → World → Prop) → World → Prop
  | .settled result, Q => fun w =>
      ∀ w', P.rely t w w' → P.Known w' → P.Inv w' → Q result w'
  | .await op resume, Q => fun w =>
      ∀ w', P.rely t w w' → P.Known w' → P.Inv w' →
        ∀ answer w'', S.exec t op w' answer w'' → P.Known w'' →
          P.Inv w'' ∧ wp t (resume answer) Q w''

variable {P} {t : Tid} {p : Proc Op Val ε β} {Q R : Except ε β → World → Prop}
variable {w : World}

theorem wp.stable (h : P.wp t p Q w) {w' : World} (hrely : P.rely t w w') :
    P.wp t p Q w' := by
  cases p with
  | settled result => exact fun w₁ h₁ => h w₁ (P.trans hrely h₁)
  | await op resume => exact fun w₁ h₁ => h w₁ (P.trans hrely h₁)

/-- A precondition may be established after the others have moved, in a world
where the invariant holds. -/
theorem wp.of_rely
    (h : ∀ w', P.rely t w w' → P.Known w' → P.Inv w' → P.wp t p Q w') :
    P.wp t p Q w := by
  cases p with
  | settled result =>
      intro w' hrely hknown hinv
      exact h w' hrely hknown hinv w' (P.refl t w') hknown hinv
  | await op resume =>
      intro w' hrely hknown hinv
      exact h w' hrely hknown hinv w' (P.refl t w') hknown hinv

theorem wp.mono (h : P.wp t p Q w) (hQR : ∀ result w', Q result w' → R result w') :
    P.wp t p R w := by
  induction p generalizing w with
  | settled result =>
      exact fun w' hrely hknown hinv => hQR _ _ (h w' hrely hknown hinv)
  | await op resume ih =>
      intro w' hrely hknown hinv answer w'' hexec hknown'
      obtain ⟨hinv', hrest⟩ := h w' hrely hknown hinv answer w'' hexec hknown'
      exact ⟨hinv', ih answer hrest⟩

theorem wp.andThen {next : Except ε β → Proc Op Val ε γ}
    {Q : Except ε γ → World → Prop}
    (h : P.wp t p (fun result => P.wp t (next result) Q) w) :
    P.wp t (p.andThen next) Q w := by
  induction p generalizing w with
  | settled result => exact wp.of_rely h
  | await op resume ih =>
      intro w' hrely hknown hinv answer w'' hexec hknown'
      obtain ⟨hinv', hrest⟩ := h w' hrely hknown hinv answer w'' hexec hknown'
      exact ⟨hinv', ih answer hrest⟩

/-- A settled procedure is judged in every world the others can lead to. -/
theorem wp.settled {result : Except ε β}
    (h : ∀ w', P.rely t w w' → P.Known w' → P.Inv w' → Q result w') :
    P.wp t (.settled result) Q w := h

/-- One call: its own step keeps the invariant and the rest goes on from
there. -/
theorem wp.await {op : Op} {resume : Except ε (Val op) → Proc Op Val ε β}
    (h : ∀ w', P.rely t w w' → P.Known w' → P.Inv w' →
      ∀ answer w'', S.exec t op w' answer w'' → P.Known w'' →
        P.Inv w'' ∧ P.wp t (resume answer) Q w'') :
    P.wp t (.await op resume) Q w := h

/-- If every procedure starts in its weakest precondition, the invariant holds
in every reachable world and every running thread still satisfies its own. -/
theorem sound {Q : Tid → Except ε α → World → Prop}
    (hstart : ∀ {c : Config World Op Val ε α} {t p w'}, S.Reachable c →
      c.threads t = .idle → P.Inv c.world → S.start t p c.world w' →
      P.Known w' → P.Inv w' ∧ P.wp t p (Q t) w')
    {c : Config World Op Val ε α} (h : S.Reachable c) :
    P.Inv c.world ∧
      ∀ t p, c.threads t = .running p → P.wp t p (Q t) c.world := by
  induction h with
  | init h => exact ⟨P.inv_init h, nofun⟩
  | @step c c' l h hstep ih =>
      obtain ⟨hinv, hwp⟩ := ih
      have hknown := P.known h
      have hknown' : P.Known c'.world := P.known (h.step hstep)
      refine ⟨?_, fun u q hq => ?_⟩
      · cases hstep with
        | call running executes =>
            exact (hwp _ _ running _ (P.refl _ _) hknown hinv _ _ executes
              hknown').1
        | start idle starts => exact (hstart h idle hinv starts hknown').1
        | crash _ crashes => exact P.inv_crash hknown hinv crashes
        | env changes => exact P.inv_env hknown hinv changes
      · rcases hstep.running hq with ⟨hsame, hne⟩ |
          ⟨op, resume, answer, hawait, rfl, hexec⟩ | ⟨hidle, hstarts⟩
        · exact (hwp u q hsame).stable (P.step hstep hne)
        · exact (hwp u _ hawait _ (P.refl _ _) hknown hinv _ _ hexec
            hknown').2
        · exact (hstart h hidle hinv hstarts hknown').2

end Protocol

end Async
