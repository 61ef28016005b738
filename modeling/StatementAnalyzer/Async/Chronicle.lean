/-
Runs of a system that keep a chronicle: the calls of all threads with their
answers, and the crashes, in the order in which they happen.  The chronicle is
only kept for reasoning; no procedure reads it.
-/
import StatementAnalyzer.Async.Journal
import StatementAnalyzer.Async.RelyGuarantee

namespace Async

variable {World Op : Type} {Val : Op → Type} {ε α β : Type}

inductive Occurrence (Op : Type) (Val : Op → Type) (ε : Type) where
  | called (t : Tid) (answered : Answered Op Val ε)
  | crashed (t : Tid)

abbrev Chronicle (Op : Type) (Val : Op → Type) (ε : Type) :=
  List (Occurrence Op Val ε)

/-- The call, if the thread has made it. -/
def Occurrence.callOf (t : Tid) :
    Occurrence Op Val ε → Option (Answered Op Val ε)
  | called u answered => if u = t then some answered else none
  | crashed _ => none

namespace Chronicle

/-- What one thread has called. -/
def calls (chronicle : Chronicle Op Val ε) (t : Tid) :
    List (Answered Op Val ε) :=
  chronicle.filterMap (Occurrence.callOf t)

variable {chronicle : Chronicle Op Val ε} {t u : Tid}
variable {answered : Answered Op Val ε}

@[simp] theorem calls_nil : calls ([] : Chronicle Op Val ε) t = [] := rfl

@[simp] theorem calls_called_self :
    calls (chronicle ++ [.called t answered]) t =
      calls chronicle t ++ [answered] := by
  simp [calls, Occurrence.callOf]

theorem calls_called_ne (h : t ≠ u) :
    calls (chronicle ++ [.called u answered]) t = calls chronicle t := by
  simp [calls, Occurrence.callOf, h.symm]

@[simp] theorem calls_crashed :
    calls (chronicle ++ [.crashed u]) t = calls chronicle t := by
  simp [calls, Occurrence.callOf]

theorem calls_map_called (trace : List (Answered Op Val ε)) :
    calls (trace.map (.called t) : Chronicle Op Val ε) t = trace := by
  induction trace with
  | nil => rfl
  | cons answered rest ih =>
      rw [List.map_cons, calls, List.filterMap_cons, Occurrence.callOf,
        if_pos rfl]
      exact congrArg (answered :: ·) ih

theorem mem_calls_iff :
    answered ∈ calls chronicle t ↔ .called t answered ∈ chronicle := by
  rw [calls, List.mem_filterMap]
  constructor
  · rintro ⟨occurrence, hmem, hcall⟩
    cases occurrence with
    | called u other =>
        by_cases hut : u = t
        · rw [Occurrence.callOf, if_pos hut, Option.some.injEq] at hcall
          rw [← hut, ← hcall]
          exact hmem
        · rw [Occurrence.callOf, if_neg hut] at hcall
          cases hcall
    | crashed u => cases hcall
  · intro hmem
    exact ⟨_, hmem, by simp [Occurrence.callOf]⟩

end Chronicle

/-- A procedure that has run to a result has nothing left to call. -/
theorem Proc.Resumes.settled_of_run {p q : Proc Op Val ε α}
    {trace : List (Answered Op Val ε)} {result : Except ε α}
    (h : p.Resumes trace q) (hrun : p.Run trace result) :
    q = .settled result := by
  induction h with
  | @here p =>
      cases hrun
      rfl
  | call _ ih =>
      cases hrun with
      | await hrest => exact ih hrest

namespace System

variable {S : System World Op Val ε α}

/-- The system with a chronicle beside its world. -/
def chronicled (S : System World Op Val ε α) :
    System (World × Chronicle Op Val ε) Op Val ε α where
  init w := S.init w.1 ∧ w.2 = []
  exec t op w answer w' :=
    S.exec t op w.1 answer w'.1 ∧ w'.2 = w.2 ++ [.called t ⟨op, answer⟩]
  start t p w w' := S.start t p w.1 w'.1 ∧ w'.2 = w.2
  crash t w w' := S.crash t w.1 w'.1 ∧ w'.2 = w.2 ++ [.crashed t]
  env w w' := S.env w.1 w'.1 ∧ w'.2 = w.2

variable {c c' : Config (World × Chronicle Op Val ε) Op Val ε α}
variable {l : Label Op} {t : Tid} {prog : Proc Op Val ε α}

/-- What the chronicle tells about a thread that runs `prog`. -/
structure Follows (prog : Proc Op Val ε α)
    (c : Config (World × Chronicle Op Val ε) Op Val ε α) (t : Tid) : Prop where
  idle : c.threads t = .idle → c.world.2.calls t = []
  running : ∀ q, c.threads t = .running q →
    prog.Resumes (c.world.2.calls t) q
  crashed : .crashed t ∈ c.world.2 → c.threads t = .crashed

/-- A step of another thread, or of the environment, tells nothing new. -/
theorem Follows.of_eq (h : Follows prog c t)
    (hcalls : c'.world.2.calls t = c.world.2.calls t)
    (hcrashed : .crashed t ∈ c'.world.2 → .crashed t ∈ c.world.2)
    (hthread : c'.threads t = c.threads t) : Follows prog c' t := by
  refine ⟨fun hidle => ?_, fun q hq => ?_, fun hmem => ?_⟩
  · rw [hcalls]
    exact h.idle (hthread ▸ hidle)
  · rw [hcalls]
    exact h.running q (hthread ▸ hq)
  · rw [hthread]
    exact h.crashed (hcrashed hmem)

theorem Follows.step (hstart : ∀ {t p w w'}, S.start t p w w' → p = prog)
    (h : Follows prog c t) (hstep : S.chronicled.Step l c c') :
    Follows prog c' t := by
  cases hstep with
  | @call _ u op resume answer world running executes =>
      by_cases htu : t = u
      · subst htu
        have hcalls : world.2.calls t = c.world.2.calls t ++ [⟨op, answer⟩] := by
          rw [executes.2, Chronicle.calls_called_self]
        refine ⟨fun hidle => ?_, fun q hq => ?_, fun hmem => ?_⟩
        · rw [Config.move_threads_self] at hidle
          cases hidle
        · rw [Config.move_threads_self] at hq
          cases hq
          rw [Config.move_world, hcalls]
          exact (h.running _ running).concat answer
        · rw [Config.move_world, executes.2] at hmem
          have hold := h.crashed (by simpa using hmem)
          rw [running] at hold
          cases hold
      · apply h.of_eq
        · rw [Config.move_world, executes.2, Chronicle.calls_called_ne htu]
        · rw [Config.move_world, executes.2]
          simp
        · exact Config.move_threads_ne _ htu _ _
  | @start _ u p world idle starts =>
      by_cases htu : t = u
      · subst htu
        refine ⟨fun hidle => ?_, fun q hq => ?_, fun hmem => ?_⟩
        · rw [Config.move_threads_self] at hidle
          cases hidle
        · rw [Config.move_threads_self] at hq
          cases hq
          rw [Config.move_world, starts.2, h.idle idle, hstart starts.1]
          exact .here
        · rw [Config.move_world, starts.2] at hmem
          have hold := h.crashed hmem
          rw [idle] at hold
          cases hold
      · apply h.of_eq
        · rw [Config.move_world, starts.2]
        · rw [Config.move_world, starts.2]
          exact id
        · exact Config.move_threads_ne _ htu _ _
  | @crash _ u p world running crashes =>
      by_cases htu : t = u
      · subst htu
        refine ⟨fun hidle => ?_, fun q hq => ?_, fun _ => ?_⟩
        · rw [Config.move_threads_self] at hidle
          cases hidle
        · rw [Config.move_threads_self] at hq
          cases hq
        · exact Config.move_threads_self _ _ _ _
      · apply h.of_eq
        · rw [Config.move_world, crashes.2, Chronicle.calls_crashed]
        · rw [Config.move_world, crashes.2]
          simp [htu]
        · exact Config.move_threads_ne _ htu _ _
  | env changes =>
      apply h.of_eq
      · rw [changes.2]
      · rw [changes.2]
        exact id
      · rfl

theorem chronicled_follows (hstart : ∀ {t p w w'}, S.start t p w w' → p = prog)
    (h : S.chronicled.Reachable c) (t : Tid) : Follows prog c t := by
  induction h with
  | init h =>
      refine ⟨fun _ => ?_, nofun, fun hmem => ?_⟩
      · rw [h.2, Chronicle.calls_nil]
      · rw [h.2] at hmem
        cases hmem
  | step _ hstep ih => exact ih.step hstart hstep

/-- A thread that has crashed was started, and it calls nothing any more. -/
theorem chronicled_crashed (hstep : S.chronicled.Step l c c')
    (hcrashed : c'.threads t = .crashed) :
    c.threads t ≠ .idle ∧ c'.world.2.calls t = c.world.2.calls t := by
  cases hstep with
  | @call _ u _ _ _ _ _ executes =>
      by_cases htu : t = u
      · rw [htu, Config.move_threads_self] at hcrashed
        cases hcrashed
      · rw [Config.move_threads_ne _ htu] at hcrashed
        rw [hcrashed, Config.move_world, executes.2,
          Chronicle.calls_called_ne htu]
        exact ⟨nofun, rfl⟩
  | @start _ u _ _ _ starts =>
      by_cases htu : t = u
      · rw [htu, Config.move_threads_self] at hcrashed
        cases hcrashed
      · rw [Config.move_threads_ne _ htu] at hcrashed
        rw [hcrashed, Config.move_world, starts.2]
        exact ⟨nofun, rfl⟩
  | @crash _ u _ _ running crashes =>
      rw [Config.move_world, crashes.2, Chronicle.calls_crashed]
      by_cases htu : t = u
      · rw [htu, running]
        exact ⟨nofun, rfl⟩
      · rw [Config.move_threads_ne _ htu] at hcrashed
        rw [hcrashed]
        exact ⟨nofun, rfl⟩
  | env changes =>
      rw [hcrashed, changes.2]
      exact ⟨nofun, rfl⟩

/-- A chronicle only grows. -/
theorem chronicled_grows (hleads : S.chronicled.Leads c c') :
    c.world.2 <+: c'.world.2 := by
  induction hleads with
  | refl => exact List.prefix_rfl
  | tail _ hstep ih =>
      obtain ⟨l, hstep⟩ := hstep
      apply ih.trans
      cases hstep with
      | call _ executes =>
          rw [Config.move_world, executes.2]
          exact List.prefix_append ..
      | start _ starts =>
          exact ⟨[], by rw [List.append_nil, Config.move_world, starts.2]⟩
      | crash _ crashes =>
          rw [Config.move_world, crashes.2]
          exact List.prefix_append ..
      | env changes =>
          exact ⟨[], by rw [List.append_nil, changes.2]⟩

/-- A thread that runs alone makes its calls one after the other. -/
theorem leads_of_served {p : Proc Op Val ε α} {trace : List (Answered Op Val ε)}
    {result : Except ε α} {w' : World} (hthread : c.threads t = .running p)
    (hrun : p.Run trace result)
    (hserved : Served Eq (fun w op answer w' => S.exec t op w answer w') c.world.1
      trace w') :
    ∃ c', S.chronicled.Leads c c' ∧
      c'.world = (w', c.world.2 ++ trace.map (.called t)) ∧
      c'.threads t = .running (.settled result) := by
  induction trace generalizing c p with
  | nil =>
      cases served_nil_iff.mp hserved
      cases hrun with
      | settled => exact ⟨c, .refl, by simp, hthread⟩
  | cons answered rest ih =>
      obtain ⟨_, w₁, rfl, hexec, hrest⟩ := served_cons_iff.mp hserved
      cases hrun with
      | @await op resume answer _ _ hresume =>
          have hstep : S.chronicled.Step (.call t op) c
              (c.move t (.running (resume answer))
                (w₁, c.world.2 ++ [.called t ⟨op, answer⟩])) :=
            .call hthread ⟨hexec, rfl⟩
          generalize hnext : c.move t (.running (resume answer))
            (w₁, c.world.2 ++ [.called t ⟨op, answer⟩]) = next at hstep
          have hworld : next.world =
              (w₁, c.world.2 ++ [.called t ⟨op, answer⟩]) := by
            rw [← hnext, Config.move_world]
          have hrunning : next.threads t = .running (resume answer) := by
            rw [← hnext, Config.move_threads_self]
          obtain ⟨c', hleads, hworld', hsettled⟩ :=
            ih hrunning hresume (by rw [hworld]; exact hrest)
          refine ⟨c', .head ⟨_, hstep⟩ hleads, ?_, hsettled⟩
          rw [hworld', hworld]
          simp

end System

namespace Protocol

variable {S : System World Op Val ε α}

/-- A part of a procedure whose calls need no care: the chronicle tells
afterwards how it has run. -/
theorem wp.of_run {P : Protocol S.chronicled} {t : Tid} {C : Op → Prop}
    {K : World × Chronicle Op Val ε → Prop} {p : Proc Op Val ε β}
    {Q : Except ε β → World × Chronicle Op Val ε → Prop}
    {w : World × Chronicle Op Val ε}
    (hrely : ∀ {w w'}, P.rely t w w' → P.Inv w' → K w →
      K w' ∧ w'.2.calls t = w.2.calls t)
    (hcall : ∀ {w w' op answer}, C op → P.Inv w → K w →
      S.chronicled.exec t op w answer w' → P.Inv w' ∧ K w')
    (hp : p.Calls C) (hK : K w)
    (hQ : ∀ {w' made result}, p.Run made result →
      (∀ answered ∈ made, ∃ u u', S.exec t answered.op u answered.answer u') →
      w'.2.calls t = w.2.calls t ++ made → P.Inv w' → K w' → Q result w') :
    P.wp t p Q w := by
  induction p generalizing w with
  | settled result =>
      intro w' hrel _ hinv
      obtain ⟨hK', hcalls⟩ := hrely hrel hinv hK
      exact hQ .settled (by simp) (by simpa using hcalls) hinv hK'
  | await op resume ih =>
      intro w₁ hrel _ hinv₁ answer w₂ hexec _
      obtain ⟨hK₁, hcalls⟩ := hrely hrel hinv₁ hK
      obtain ⟨hinv₂, hK₂⟩ := hcall hp.1 hinv₁ hK₁ hexec
      refine ⟨hinv₂, ih answer (hp.2 answer) hK₂ ?_⟩
      intro w' made result hrun hserved hmade hinv' hK'
      apply hQ (.await hrun) _ _ hinv' hK'
      · rw [List.forall_mem_cons]
        exact ⟨⟨_, _, hexec.1⟩, hserved⟩
      · rw [hmade, hexec.2, Chronicle.calls_called_self, hcalls,
          List.append_assoc, List.singleton_append]

/-- What a protocol proves of the results: a thread whose calls are a whole run
of its program has settled as the postcondition says, even if it has crashed
since. -/
theorem returned {P : Protocol S.chronicled} {prog : Proc Op Val ε α}
    {Q : Tid → Except ε α → World × Chronicle Op Val ε → Prop}
    (hprog : ∀ {t p w w'}, S.start t p w w' → p = prog)
    (hsound : ∀ {c}, S.chronicled.Reachable c → P.Inv c.world ∧
      ∀ t p, c.threads t = .running p → P.wp t p (Q t) c.world)
    (hstable : ∀ {c c' l t result}, S.chronicled.Reachable c →
      S.chronicled.Step l c c' → Q t result c.world → Q t result c'.world)
    {c : Config (World × Chronicle Op Val ε) Op Val ε α}
    (h : S.chronicled.Reachable c) {t : Tid} {result : Except ε α}
    (hstarted : c.threads t ≠ .idle)
    (hrun : prog.Run (c.world.2.calls t) result) : Q t result c.world := by
  induction h with
  | init h => exact absurd rfl hstarted
  | @step c c' l hreach hstep ih =>
      have hreach' := hreach.step hstep
      cases hthread : c'.threads t with
      | idle => exact absurd hthread hstarted
      | running q =>
          have hresumes :=
            (System.chronicled_follows hprog hreach' t).running q hthread
          obtain rfl := hresumes.settled_of_run hrun
          obtain ⟨hinv, hwp⟩ := hsound hreach'
          exact hwp t _ hthread _ (P.refl _ _) (P.known hreach') hinv
      | crashed =>
          obtain ⟨hbefore, hcalls⟩ := System.chronicled_crashed hstep hthread
          exact hstable hreach hstep (ih hbefore (hcalls ▸ hrun))

end Protocol

end Async
