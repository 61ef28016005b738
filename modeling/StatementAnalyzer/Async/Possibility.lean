/-
What a procedure may do, the counterpart of a weakest precondition: there are
answers that the system can give and that take the procedure to its end.  A
system in which every thread may crash can always be brought to a halt first.
-/
import StatementAnalyzer.Async.System

namespace Async

variable {World World' Op Op' : Type} {Val : Op → Type} {Val' : Op' → Type}
variable {ε α β : Type}

namespace Proc

/-- Some answers to its calls let the procedure settle in `Q`. -/
def May (exec : (op : Op) → World → Except ε (Val op) → World → Prop) :
    Proc Op Val ε α → (Except ε α → World → Prop) → World → Prop
  | .settled result, Q => Q result
  | .await op resume, Q => fun w =>
      ∃ answer w', exec op w answer w' ∧ May exec (resume answer) Q w'

section Rules

variable {exec : (op : Op) → World → Except ε (Val op) → World → Prop}
variable {exec' : (op : Op') → World' → Except ε (Val' op) → World' → Prop}
variable {p : Proc Op Val ε α} {Q R : Except ε α → World → Prop} {w : World}

theorem May.mono (h : p.May exec Q w)
    (hQR : ∀ result w', Q result w' → R result w') : p.May exec R w := by
  induction p generalizing w with
  | settled result => exact hQR result w h
  | await op resume ih =>
      obtain ⟨answer, w', hexec, hrest⟩ := h
      exact ⟨answer, w', hexec, ih answer hrest⟩

theorem May.andThen {next : Except ε α → Proc Op Val ε β}
    {Q : Except ε β → World → Prop}
    (h : p.May exec (fun result => (next result).May exec Q) w) :
    (p.andThen next).May exec Q w := by
  induction p generalizing w with
  | settled result => exact h
  | await op resume ih =>
      obtain ⟨answer, w', hexec, hrest⟩ := h
      exact ⟨answer, w', hexec, ih answer hrest⟩

/-- One call with this answer, and then the rest. -/
theorem May.call {op : Op} {next : Except ε (Val op) → Proc Op Val ε β}
    {Q : Except ε β → World → Prop} {answer : Except ε (Val op)} {w' : World}
    (hexec : exec op w answer w') (h : (next answer).May exec Q w') :
    ((call op).andThen next).May exec Q w :=
  ⟨answer, w', hexec, h⟩

/-- If every call may be implemented so that related worlds stay related, the
procedure over the implementations may do the same. -/
theorem May.interp {impl : (op : Op) → Proc Op' Val' ε (Val op)}
    {abs : World → World' → Prop}
    (himpl : ∀ op w answer w', exec op w answer w' → ∀ v, abs w v →
      (impl op).May exec' (fun result v' => result = answer ∧ abs w' v') v)
    (h : p.May exec Q w) {v : World'} (habs : abs w v) :
    (p.interp impl).May exec' (fun result v' => ∃ w', abs w' v' ∧ Q result w')
      v := by
  induction p generalizing w v with
  | settled result => exact ⟨w, habs, h⟩
  | await op resume ih =>
      obtain ⟨answer, w', hexec, hrest⟩ := h
      apply May.andThen
      apply (himpl op w answer w' hexec v habs).mono
      intro result v' hresult
      obtain ⟨rfl, habs'⟩ := hresult
      exact ih result hrest habs'

/-- A thread can do what its procedure may do, while the others stand still. -/
theorem May.leads {S : System World Op Val ε α} {t : Tid}
    {c : Config World Op Val ε α} (hrunning : c.threads t = .running p)
    (h : p.May (S.exec t) Q c.world) :
    ∃ result c', S.Leads c c' ∧ c'.threads t = .running (.settled result) ∧
      Q result c'.world ∧ ∀ u, u ≠ t → c'.threads u = c.threads u := by
  induction p generalizing c with
  | settled result => exact ⟨result, c, .refl, hrunning, h, fun _ _ => rfl⟩
  | await op resume ih =>
      obtain ⟨answer, w', hexec, hrest⟩ := h
      obtain ⟨result, c', hleads, hsettled, hresult, hothers⟩ :=
        ih answer (c := c.move t (.running (resume answer)) w')
          (Config.move_threads_self c t _ w') hrest
      refine ⟨result, c', .head ⟨_, .call hrunning hexec⟩ hleads, hsettled,
        hresult, fun u hu => ?_⟩
      rw [hothers u hu, Config.move_threads_ne c hu]

end Rules

end Proc

section Outage

variable {S : System World Op Val ε α} {c : Config World Op Val ε α}

/-- A thread that has crashed takes no further step. -/
theorem System.Step.crashed {c' : Config World Op Val ε α} {l : Label Op}
    (hstep : S.Step l c c') {t : Tid} (hcrashed : c.threads t = .crashed) :
    c'.threads t = .crashed := by
  have hother : ∀ {u thread world}, c.threads u ≠ .crashed →
      (c.move u thread world).threads t = .crashed := by
    intro u thread world hu
    have hne : t ≠ u := by
      rintro rfl
      exact hu hcrashed
    rw [Config.move_threads_ne c hne]
    exact hcrashed
  cases hstep with
  | call running _ | crash running _ =>
      apply hother
      rw [running]
      nofun
  | start idle _ =>
      apply hother
      rw [idle]
      nofun
  | env _ => exact hcrashed

end Outage

end Async
