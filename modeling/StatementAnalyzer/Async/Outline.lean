/-
Procedures that run alone: from which state to which, and outlines that say in
which states a procedure makes its calls and settles.
-/
import StatementAnalyzer.Async.Traces

namespace Async

namespace Proc

variable {Op : Type} {Val : Op → Type} {ε α β S : Type}
variable {serves : S → (op : Op) → Except ε (Val op) → S → Prop}

/-- The procedure makes the calls of the trace from `s` on, one after the other,
and settles in `s'`. -/
structure Executes (serves : S → (op : Op) → Except ε (Val op) → S → Prop)
    (p : Proc Op Val ε α) (s : S) (trace : List (Answered Op Val ε))
    (result : Except ε α) (s' : S) : Prop where
  run : p.Run trace result
  served : Served Eq serves s trace s'

/-- The procedure has made the calls of the trace and is cut off in `s'`. -/
structure Interrupted (serves : S → (op : Op) → Except ε (Val op) → S → Prop)
    (p : Proc Op Val ε α) (s : S) (trace : List (Answered Op Val ε)) (s' : S) :
    Prop where
  run : ∃ rest result, p.Run (trace ++ rest) result
  served : Served Eq serves s trace s'

/-- Some run of the procedure leads from `s` to `s'`. -/
def Reaches (serves : S → (op : Op) → Except ε (Val op) → S → Prop)
    (p : Proc Op Val ε α) (s : S) (result : Except ε α) (s' : S) : Prop :=
  ∃ trace, Executes serves p s trace result s'

section Reaches

variable {p : Proc Op Val ε α} {s s₁ s' : S}

theorem Reaches.settled {result : Except ε α} :
    Reaches serves (.settled result) s result s :=
  ⟨[], .settled, .nil⟩

theorem Reaches.await {op : Op} {resume : Except ε (Val op) → Proc Op Val ε α}
    {answer : Except ε (Val op)} {result : Except ε α}
    (hserves : serves s op answer s₁)
    (h : Reaches serves (resume answer) s₁ result s') :
    Reaches serves (.await op resume) s result s' := by
  obtain ⟨trace, hrun, hserved⟩ := h
  exact ⟨⟨op, answer⟩ :: trace, .await hrun, .cons rfl hserves hserved⟩

theorem Reaches.andThen {next : Except ε α → Proc Op Val ε β}
    {middle : Except ε α} {result : Except ε β}
    (h : Reaches serves p s middle s₁)
    (hnext : Reaches serves (next middle) s₁ result s') :
    Reaches serves (p.andThen next) s result s' := by
  obtain ⟨before, hrun, hserved⟩ := h
  obtain ⟨after, hrun', hserved'⟩ := hnext
  exact ⟨before ++ after,
    run_andThen_iff.mpr ⟨before, middle, after, rfl, hrun, hrun'⟩,
    served_append_iff.mpr ⟨s₁, hserved, hserved'⟩⟩

theorem Reaches.bind {next : α → Proc Op Val ε β} {value : α}
    {result : Except ε β} (h : Reaches serves p s (.ok value) s₁)
    (hnext : Reaches serves (next value) s₁ result s') :
    Reaches serves (p >>= next) s result s' :=
  h.andThen hnext

theorem Reaches.orElse {handler : ε → Proc Op Val ε α} {value : α}
    (h : Reaches serves p s (.ok value) s') :
    Reaches serves (p.orElse handler) s (.ok value) s' :=
  h.andThen .settled

theorem Reaches.ensure {final : Proc Op Val ε Unit} {result : Except ε α}
    (h : Reaches serves p s result s₁)
    (hfinal : Reaches serves final s₁ (.ok ()) s') :
    Reaches serves (p.ensure final) s result s' :=
  h.andThen (hfinal.andThen .settled)

end Reaches

section Outline

variable {call : S → Op → Prop} {post : S → Except ε α → Prop}
variable {p : Proc Op Val ε α} {s : S}

/-- From `s` on, each call is made in a state that `call` allows and the
procedure settles in a state that `post` allows. -/
def Outline (serves : S → (op : Op) → Except ε (Val op) → S → Prop)
    (call : S → Op → Prop) (post : S → Except ε α → Prop) :
    Proc Op Val ε α → S → Prop
  | .settled result, s => post s result
  | .await op resume, s =>
      call s op ∧ ∀ answer s', serves s op answer s' →
        Outline serves call post (resume answer) s'

theorem Outline.mono {post' : S → Except ε α → Prop}
    (h : Outline serves call post p s)
    (hpost : ∀ s' result, post s' result → post' s' result) :
    Outline serves call post' p s := by
  induction p generalizing s with
  | settled result => exact hpost s result h
  | await op resume ih =>
      exact ⟨h.1, fun answer s' hserves => ih answer (h.2 answer s' hserves)⟩

theorem Outline.andThen {next : Except ε α → Proc Op Val ε β}
    {post : S → Except ε β → Prop}
    (h : Outline serves call
      (fun s' result => Outline serves call post (next result) s') p s) :
    Outline serves call post (p.andThen next) s := by
  induction p generalizing s with
  | settled result => exact h
  | await op resume ih =>
      exact ⟨h.1, fun answer s' hserves => ih answer (h.2 answer s' hserves)⟩

/-- In a sequential composition an error settles at once. -/
theorem Outline.bind {next : α → Proc Op Val ε β} {post : S → Except ε β → Prop}
    (h : Outline serves call (fun s' result =>
      (∀ value, result = .ok value → Outline serves call post (next value) s') ∧
        ∀ error, result = .error error → post s' (.error error)) p s) :
    Outline serves call post (p >>= next) s := by
  apply Outline.andThen
  apply h.mono
  intro s' result hresult
  cases result with
  | ok value => exact hresult.1 value rfl
  | error error => exact hresult.2 error rfl

theorem Outline.orElse {handler : ε → Proc Op Val ε α}
    (h : Outline serves call (fun s' result =>
      (∀ value, result = .ok value → post s' (.ok value)) ∧
        ∀ error, result = .error error →
          Outline serves call post (handler error) s') p s) :
    Outline serves call post (p.orElse handler) s := by
  apply Outline.andThen
  apply h.mono
  intro s' result hresult
  cases result with
  | ok value => exact hresult.1 value rfl
  | error error => exact hresult.2 error rfl

theorem Outline.ensure {final : Proc Op Val ε Unit}
    (h : Outline serves call (fun s' result => Outline serves call
      (fun s'' done => (done = .ok () → post s'' result) ∧
        ∀ error, done = .error error → post s'' (.error error)) final s') p s) :
    Outline serves call post (p.ensure final) s := by
  apply Outline.andThen
  apply h.mono
  intro s' result hresult
  apply Outline.andThen
  apply hresult.mono
  intro s'' done hdone
  cases done with
  | ok _ => exact hdone.1 rfl
  | error error => exact hdone.2 error rfl

/-- Where a procedure with an outline can be cut off. -/
theorem Outline.interrupted {before after : List (Answered Op Val ε)}
    {result : Except ε α} {s' : S} (h : Outline serves call post p s)
    (hrun : p.Run (before ++ after) result) (hserved : Served Eq serves s before s') :
    (∀ answered rest, after = answered :: rest → call s' answered.op) ∧
      (after = [] → post s' result) := by
  induction before generalizing p s with
  | nil =>
      cases served_nil_iff.mp hserved
      rw [List.nil_append] at hrun
      cases hrun with
      | settled => exact ⟨nofun, fun _ => h⟩
      | await hrest =>
          refine ⟨?_, nofun⟩
          rintro answered rest hcons
          cases hcons
          exact h.1
  | cons answered before ih =>
      obtain ⟨_, s₂, rfl, hserves, hrest⟩ := served_cons_iff.mp hserved
      rw [List.cons_append] at hrun
      cases hrun with
      | await hresume => exact ih (h.2 _ _ hserves) hresume hrest

theorem Outline.settles {trace : List (Answered Op Val ε)}
    {result : Except ε α} {s' : S} (h : Outline serves call post p s)
    (hexec : Executes serves p s trace result s') : post s' result := by
  have hrun := hexec.run
  rw [← List.append_nil trace] at hrun
  exact (h.interrupted hrun hexec.served).2 rfl

/-- Each call of a trace was made in a state that the outline allows. -/
theorem Outline.calls {trace : List (Answered Op Val ε)}
    {result : Except ε α} {s' : S} (h : Outline serves call post p s)
    (hexec : Executes serves p s trace result s') :
    ∀ answered ∈ trace, ∃ s, call s answered.op := by
  intro answered hmem
  obtain ⟨before, after, rfl⟩ := List.append_of_mem hmem
  obtain ⟨middle, hbefore, _⟩ := served_append_iff.mp hexec.served
  exact ⟨middle, (h.interrupted hexec.run hbefore).1 answered after rfl⟩

end Outline

end Proc

end Async
