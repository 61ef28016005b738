/-
What a procedure does by itself: the calls that it makes, one after the other,
with an answer to each, and how it settles.
-/
import StatementAnalyzer.Async.Procedure
import Mathlib.Data.List.Forall2

namespace Async

/-- A call and its answer. -/
structure Answered (Op : Type) (Val : Op → Type) (ε : Type) where
  op : Op
  answer : Except ε (Val op)

namespace Proc

variable {Op : Type} {Val : Op → Type} {ε α β : Type}

/-- The procedure makes the calls of the trace and settles. -/
inductive Run : Proc Op Val ε α → List (Answered Op Val ε) → Except ε α → Prop
  | settled {result : Except ε α} : Run (.settled result) [] result
  | await {op : Op} {resume : Except ε (Val op) → Proc Op Val ε α}
      {answer : Except ε (Val op)} {trace : List (Answered Op Val ε)}
      {result : Except ε α} (h : Run (resume answer) trace result) :
      Run (.await op resume) (⟨op, answer⟩ :: trace) result

variable {p : Proc Op Val ε α} {trace : List (Answered Op Val ε)}

theorem run_settled_iff {result result' : Except ε α} :
    Run (.settled result : Proc Op Val ε α) trace result' ↔
      trace = [] ∧ result' = result := by
  constructor
  · intro h
    cases h
    exact ⟨rfl, rfl⟩
  · rintro ⟨rfl, rfl⟩
    exact .settled

theorem run_await_iff {op : Op} {resume : Except ε (Val op) → Proc Op Val ε α}
    {result : Except ε α} : Run (.await op resume) trace result ↔
      ∃ answer rest, trace = ⟨op, answer⟩ :: rest ∧
        Run (resume answer) rest result := by
  constructor
  · intro h
    cases h with
    | await h => exact ⟨_, _, rfl, h⟩
  · rintro ⟨answer, rest, rfl, h⟩
    exact .await h

theorem run_call_iff {op : Op} {result : Except ε (Val op)} :
    Run (call op) trace result ↔ trace = [⟨op, result⟩] := by
  rw [call, run_await_iff]
  constructor
  · rintro ⟨answer, rest, rfl, h⟩
    obtain ⟨rfl, rfl⟩ := run_settled_iff.mp h
    rfl
  · rintro rfl
    exact ⟨result, [], rfl, .settled⟩

/-- A procedure that looks at the answer of its first call. -/
theorem run_call_attempt_iff {op : Op}
    {next : Except ε (Val op) → Proc Op Val ε α} {result : Except ε α} :
    Run ((call op).attempt >>= next) trace result ↔
      ∃ answer rest, trace = ⟨op, answer⟩ :: rest ∧
        Run (next answer) rest result :=
  run_await_iff

/-- A run of a composition is a run of its first part and then one of the
rest. -/
theorem run_andThen_iff {next : Except ε α → Proc Op Val ε β}
    {result : Except ε β} : Run (p.andThen next) trace result ↔
      ∃ before middle after, trace = before ++ after ∧ Run p before middle ∧
        Run (next middle) after result := by
  induction p generalizing trace with
  | settled done =>
      rw [settled_andThen]
      constructor
      · intro h
        exact ⟨[], done, trace, rfl, .settled, h⟩
      · rintro ⟨before, middle, after, rfl, hdone, h⟩
        obtain ⟨rfl, rfl⟩ := run_settled_iff.mp hdone
        exact h
  | await op resume ih =>
      rw [await_andThen, run_await_iff]
      constructor
      · rintro ⟨answer, rest, rfl, h⟩
        obtain ⟨before, middle, after, rfl, hfirst, hnext⟩ := (ih answer).mp h
        exact ⟨⟨op, answer⟩ :: before, middle, after, rfl, .await hfirst, hnext⟩
      · rintro ⟨before, middle, after, rfl, hfirst, hnext⟩
        obtain ⟨answer, rest, rfl, hrest⟩ := run_await_iff.mp hfirst
        exact ⟨answer, rest ++ after, rfl,
          (ih answer).mpr ⟨rest, middle, after, rfl, hrest, hnext⟩⟩

theorem Run.of_call (op : Op) (answer : Except ε (Val op)) :
    Run (call op) [⟨op, answer⟩] answer :=
  run_call_iff.mpr rfl

theorem Run.followed {next : Except ε α → Proc Op Val ε β}
    {before after : List (Answered Op Val ε)} {middle : Except ε α}
    {result : Except ε β} (h : Run p before middle)
    (hnext : Run (next middle) after result) :
    Run (p.andThen next) (before ++ after) result :=
  run_andThen_iff.mpr ⟨before, middle, after, rfl, h, hnext⟩

theorem Run.bind_ok {next : α → Proc Op Val ε β} {value : α}
    {before after : List (Answered Op Val ε)} {result : Except ε β}
    (h : Run p before (.ok value)) (hnext : Run (next value) after result) :
    Run (p >>= next) (before ++ after) result :=
  h.followed hnext

theorem Run.orElse_ok {handler : ε → Proc Op Val ε α} {value : α}
    (h : Run p trace (.ok value)) : Run (p.orElse handler) trace (.ok value) := by
  have hdone : Run (p.orElse handler) (trace ++ []) (.ok value) :=
    h.followed .settled
  rwa [List.append_nil] at hdone

theorem Run.ensure_ok {final : Proc Op Val ε Unit} {value : α}
    {before after : List (Answered Op Val ε)} (h : Run p before (.ok value))
    (hfinal : Run final after (.ok ())) :
    Run (p.ensure final) (before ++ after) (.ok value) := by
  apply h.followed
  exact run_andThen_iff.mpr
    ⟨after, .ok (), [], (List.append_nil after).symm, hfinal, .settled⟩

/-- A sequential composition settles with the error of its first part, or goes
on with its value. -/
theorem run_bind {next : α → Proc Op Val ε β} {result : Except ε β}
    (h : Run (p >>= next) trace result) :
    (∃ error, result = .error error ∧ Run p trace (.error error)) ∨
      ∃ value before after, trace = before ++ after ∧
        Run p before (.ok value) ∧ Run (next value) after result := by
  obtain ⟨before, middle, after, rfl, hfirst, hnext⟩ := run_andThen_iff.mp h
  cases middle with
  | ok value => exact .inr ⟨value, before, after, rfl, hfirst, hnext⟩
  | error error =>
      obtain ⟨rfl, rfl⟩ := run_settled_iff.mp hnext
      rw [List.append_nil]
      exact .inl ⟨error, rfl, hfirst⟩

theorem run_bind_ok {next : α → Proc Op Val ε β} {value : β}
    (h : Run (p >>= next) trace (.ok value)) :
    ∃ first before after, trace = before ++ after ∧ Run p before (.ok first) ∧
      Run (next first) after (.ok value) := by
  rcases run_bind h with ⟨error, herror, _⟩ | hok
  · cases herror
  · exact hok

theorem run_ensure_ok {final : Proc Op Val ε Unit} {value : α}
    (h : Run (p.ensure final) trace (.ok value)) :
    ∃ before after, trace = before ++ after ∧ Run p before (.ok value) ∧
      Run final after (.ok ()) := by
  obtain ⟨before, middle, after, rfl, hp, hrest⟩ := run_andThen_iff.mp h
  obtain ⟨first, done, last, rfl, hfinal, hdone⟩ := run_andThen_iff.mp hrest
  cases done with
  | ok _ =>
      obtain ⟨rfl, rfl⟩ := run_settled_iff.mp hdone
      exact ⟨before, _, rfl, hp, (List.append_nil first).symm ▸ hfinal⟩
  | error error => cases (run_settled_iff.mp hdone).2

theorem run_orElse_ok {handler : ε → Proc Op Val ε α} {value : α}
    (h : Run (p.orElse handler) trace (.ok value)) :
    Run p trace (.ok value) ∨
      ∃ error after, Run (handler error) after (.ok value) := by
  obtain ⟨before, middle, after, rfl, hp, hrest⟩ := run_andThen_iff.mp h
  cases middle with
  | ok value' =>
      obtain ⟨rfl, hvalue⟩ := run_settled_iff.mp hrest
      rw [List.append_nil]
      exact .inl (hvalue ▸ hp)
  | error error => exact .inr ⟨error, after, hrest⟩

/-- Of two runs neither settles while the other goes on. -/
theorem Run.unique {before before' after after' : List (Answered Op Val ε)}
    {result result' : Except ε α} (h : Run p before result)
    (h' : Run p before' result') (htrace : before ++ after = before' ++ after') :
    before = before' ∧ result = result' ∧ after = after' := by
  induction h generalizing before' with
  | settled =>
      obtain ⟨rfl, rfl⟩ := run_settled_iff.mp h'
      exact ⟨rfl, rfl, htrace⟩
  | await _ ih =>
      obtain ⟨answer, rest, rfl, hrest⟩ := run_await_iff.mp h'
      obtain ⟨hhead, htail⟩ := List.cons_eq_cons.mp htrace
      cases hhead
      obtain ⟨rfl, rfl, rfl⟩ := ih hrest htail
      exact ⟨rfl, rfl, rfl⟩

/-- A run of the implementation is a run of the procedure, with a run of the
implementation of each of its calls in it. -/
theorem Run.of_interp {Op' : Type} {Val' : Op' → Type}
    {impl : (op : Op) → Proc Op' Val' ε (Val op)} {result : Except ε α}
    {inner : List (Answered Op' Val' ε)} (h : Run (p.interp impl) inner result) :
    ∃ trace, Run p trace result ∧ ∀ answered ∈ trace, ∃ part,
      Run (impl answered.op) part answered.answer ∧ part ⊆ inner := by
  induction p generalizing inner with
  | settled done =>
      rw [interp_settled] at h
      obtain ⟨_, rfl⟩ := run_settled_iff.mp h
      exact ⟨[], .settled, by simp⟩
  | await op resume ih =>
      rw [interp_await] at h
      obtain ⟨before, answer, after, rfl, hfirst, hrest⟩ := run_andThen_iff.mp h
      obtain ⟨trace, hrun, hparts⟩ := ih answer hrest
      refine ⟨⟨op, answer⟩ :: trace, .await hrun, ?_⟩
      intro answered hanswered
      rcases List.mem_cons.mp hanswered with rfl | hlater
      · exact ⟨before, hfirst, List.subset_append_left before after⟩
      · obtain ⟨part, hpart, hsubset⟩ := hparts answered hlater
        exact ⟨part, hpart, List.subset_append_of_subset_right before hsubset⟩

/-- Where each call is implemented by one call, the two runs go along with each
other, call by call. -/
theorem Run.of_interp_single {Op' : Type} {Val' : Op' → Type}
    {impl : (op : Op) → Proc Op' Val' ε (Val op)}
    {R : Answered Op Val ε → Answered Op' Val' ε → Prop}
    (himpl : ∀ op part answer, Run (impl op) part answer →
      ∃ inner, part = [inner] ∧ R ⟨op, answer⟩ inner) {result : Except ε α}
    {inner : List (Answered Op' Val' ε)} (h : Run (p.interp impl) inner result) :
    ∃ trace, Run p trace result ∧ List.Forall₂ R trace inner := by
  induction p generalizing inner with
  | settled done =>
      rw [interp_settled] at h
      obtain ⟨rfl, rfl⟩ := run_settled_iff.mp h
      exact ⟨[], .settled, .nil⟩
  | await op resume ih =>
      rw [interp_await] at h
      obtain ⟨before, answer, after, rfl, hfirst, hrest⟩ := run_andThen_iff.mp h
      obtain ⟨trace, hrun, hrelated⟩ := ih answer hrest
      obtain ⟨first, rfl, hrelates⟩ := himpl op before answer hfirst
      exact ⟨⟨op, answer⟩ :: trace, .await hrun, .cons hrelates hrelated⟩

/-- A run makes only calls that the procedure can make. -/
theorem Run.calls {P : Op → Prop} {result : Except ε α}
    (h : Run p trace result) (hcalls : p.Calls P) :
    ∀ answered ∈ trace, P answered.op := by
  induction h with
  | settled => simp
  | await _ ih =>
      rw [List.forall_mem_cons]
      exact ⟨hcalls.1, ih (hcalls.2 _)⟩

/-- Every call of the trace is answered with a value. -/
def Granted (trace : List (Answered Op Val ε)) : Prop :=
  ∀ answered ∈ trace, ∃ value, answered.answer = .ok value

theorem granted_append {before after : List (Answered Op Val ε)} :
    Granted (before ++ after) ↔ Granted before ∧ Granted after :=
  List.forall_mem_append

theorem Run.granted_call {op : Op} {result : Except ε (Val op)}
    (h : Run (call op) trace result) (hgranted : Granted trace) :
    ∃ value, result = .ok value := by
  obtain rfl := run_call_iff.mp h
  exact hgranted _ (List.mem_singleton_self _)

/-- A composition goes on where its first part does not throw. -/
theorem run_bind_of_ok {next : α → Proc Op Val ε β} {result : Except ε β}
    (h : Run (p >>= next) trace result)
    (hfirst : ∀ before after result, trace = before ++ after →
      Run p before result → ∃ value, result = .ok value) :
    ∃ value before after, trace = before ++ after ∧ Run p before (.ok value) ∧
      Run (next value) after result := by
  rcases run_bind h with ⟨error, _, herror⟩ | hok
  · obtain ⟨_, hvalue⟩ := hfirst trace [] _ (List.append_nil trace).symm herror
    cases hvalue
  · exact hok

theorem run_call_andThen_granted {op : Op}
    {next : Except ε (Val op) → Proc Op Val ε β} {result : Except ε β}
    (h : Run ((call op).andThen next) trace result) (hgranted : Granted trace) :
    ∃ value rest, trace = ⟨op, .ok value⟩ :: rest ∧
      Run (next (.ok value)) rest result ∧ Granted rest := by
  obtain ⟨before, middle, after, rfl, hcall, hnext⟩ := run_andThen_iff.mp h
  obtain ⟨hbefore, hafter⟩ := granted_append.mp hgranted
  obtain ⟨value, rfl⟩ := hcall.granted_call hbefore
  obtain rfl := run_call_iff.mp hcall
  exact ⟨value, after, rfl, hnext, hafter⟩

/-- Where all calls are granted, a composition gets past its first call. -/
theorem run_call_bind_granted {op : Op} {next : Val op → Proc Op Val ε β}
    {result : Except ε β} (h : Run (call op >>= next) trace result)
    (hgranted : Granted trace) :
    ∃ value rest, trace = ⟨op, .ok value⟩ :: rest ∧
      Run (next value) rest result ∧ Granted rest :=
  run_call_andThen_granted h hgranted

section Lawful

variable {call : List (Answered Op Val ε) → Op → Prop}
variable {settle : List (Answered Op Val ε) → Except ε α → Prop}
variable {earlier : List (Answered Op Val ε)}

/-- Each call is one that the answers before it allow, and so is the result. -/
def Lawful (call : List (Answered Op Val ε) → Op → Prop)
    (settle : List (Answered Op Val ε) → Except ε α → Prop) :
    List (Answered Op Val ε) → Proc Op Val ε α → Prop
  | earlier, .settled result => settle earlier result
  | earlier, .await op resume =>
      call earlier op ∧
        ∀ answer, Lawful call settle (earlier ++ [⟨op, answer⟩]) (resume answer)

@[simp] theorem lawful_settled (result : Except ε α) :
    Lawful call settle earlier (.settled result) ↔ settle earlier result :=
  Iff.rfl

theorem lawful_call_attempt (op : Op)
    (next : Except ε (Val op) → Proc Op Val ε α) :
    Lawful call settle earlier ((Proc.call op).attempt >>= next) ↔
      call earlier op ∧
        ∀ answer, Lawful call settle (earlier ++ [⟨op, answer⟩]) (next answer) :=
  Iff.rfl

theorem lawful_call_bind (op : Op) (next : Val op → Proc Op Val ε α) :
    Lawful call settle earlier (Proc.call op >>= next) ↔ call earlier op ∧
      (∀ error, settle (earlier ++ [⟨op, .error error⟩]) (.error error)) ∧
      ∀ value, Lawful call settle (earlier ++ [⟨op, .ok value⟩]) (next value) := by
  constructor
  · rintro ⟨hop, hnext⟩
    exact ⟨hop, fun error => hnext (.error error), fun value => hnext (.ok value)⟩
  · rintro ⟨hop, herror, hok⟩
    refine ⟨hop, fun answer => ?_⟩
    cases answer with
    | error error => exact herror error
    | ok value => exact hok value

theorem Run.lawful {result : Except ε α} (h : Run p trace result)
    (hp : Lawful call settle earlier p) :
    (∀ before answered after, trace = before ++ answered :: after →
      call (earlier ++ before) answered.op) ∧ settle (earlier ++ trace) result := by
  induction h generalizing earlier with
  | settled => exact ⟨fun before answered after h => by simp at h, by simpa using hp⟩
  | await _ ih =>
      obtain ⟨hop, hnext⟩ := hp
      obtain ⟨hcalls, hsettle⟩ := ih (hnext _)
      refine ⟨fun before answered after htrace => ?_, by simpa using hsettle⟩
      cases before with
      | nil =>
          rw [List.nil_append, List.cons_eq_cons] at htrace
          rw [← htrace.1, List.append_nil]
          exact hop
      | cons first before =>
          rw [List.cons_append, List.cons_eq_cons] at htrace
          obtain ⟨rfl, htrace⟩ := htrace
          simpa using hcalls before answered after htrace

end Lawful

end Proc

section Served

variable {Op : Type} {Val : Op → Type} {ε S : Type} {rely : S → S → Prop}
variable {serves : S → (op : Op) → Except ε (Val op) → S → Prop}

/-- The calls of the trace are served one after the other.  Before each of them
the state may change as `rely` allows. -/
inductive Served (rely : S → S → Prop)
    (serves : S → (op : Op) → Except ε (Val op) → S → Prop) :
    S → List (Answered Op Val ε) → S → Prop
  | nil {s : S} : Served rely serves s [] s
  | cons {s s₁ s₂ s' : S} {op : Op} {answer : Except ε (Val op)}
      {rest : List (Answered Op Val ε)} (hrely : rely s s₁)
      (hserves : serves s₁ op answer s₂)
      (hrest : Served rely serves s₂ rest s') :
      Served rely serves s (⟨op, answer⟩ :: rest) s'

variable {s s' : S} {before after : List (Answered Op Val ε)}

theorem served_nil_iff :
    Served rely serves s ([] : List (Answered Op Val ε)) s' ↔ s' = s := by
  constructor
  · intro h
    cases h
    rfl
  · rintro rfl
    exact .nil

theorem served_cons_iff {answered : Answered Op Val ε} :
    Served rely serves s (answered :: after) s' ↔ ∃ s₁ s₂, rely s s₁ ∧
      serves s₁ answered.op answered.answer s₂ ∧
      Served rely serves s₂ after s' := by
  constructor
  · intro h
    cases h with
    | cons hrely hserves hrest => exact ⟨_, _, hrely, hserves, hrest⟩
  · rintro ⟨s₁, s₂, hrely, hserves, hrest⟩
    exact .cons hrely hserves hrest

/-- A trace is served in one go or in two. -/
theorem served_append_iff : Served rely serves s (before ++ after) s' ↔
    ∃ middle, Served rely serves s before middle ∧
      Served rely serves middle after s' := by
  induction before generalizing s with
  | nil => simp [served_nil_iff]
  | cons answered rest ih =>
      rw [List.cons_append, served_cons_iff]
      constructor
      · rintro ⟨s₁, s₂, hrely, hserves, hrest⟩
        obtain ⟨middle, hbefore, hafter⟩ := ih.mp hrest
        exact ⟨middle, .cons hrely hserves hbefore, hafter⟩
      · rintro ⟨middle, hbefore, hafter⟩
        obtain ⟨s₁, s₂, hrely, hserves, hrest⟩ := served_cons_iff.mp hbefore
        exact ⟨s₁, s₂, hrely, hserves, ih.mpr ⟨middle, hrest, hafter⟩⟩

theorem served_single_iff {answered : Answered Op Val ε} :
    Served rely serves s [answered] s' ↔
      ∃ s₁, rely s s₁ ∧ serves s₁ answered.op answered.answer s' := by
  rw [served_cons_iff]
  constructor
  · rintro ⟨s₁, s₂, hrely, hserves, hrest⟩
    cases served_nil_iff.mp hrest
    exact ⟨s₁, hrely, hserves⟩
  · rintro ⟨s₁, hrely, hserves⟩
    exact ⟨s₁, s', hrely, hserves, .nil⟩

/-- The calls of the trace are served by other rules that do the same for
them. -/
theorem Served.mono {trace : List (Answered Op Val ε)}
    {serves' : S → (op : Op) → Except ε (Val op) → S → Prop}
    (h : Served rely serves s trace s')
    (hserves : ∀ answered ∈ trace, ∀ s₁ s₂,
      serves s₁ answered.op answered.answer s₂ →
        serves' s₁ answered.op answered.answer s₂) :
    Served rely serves' s trace s' := by
  induction h with
  | nil => exact .nil
  | cons hrely hserved _ ih =>
      obtain ⟨hfirst, hrest⟩ := List.forall_mem_cons.mp hserves
      exact .cons hrely (hfirst _ _ hserved) (ih hrest)

end Served

end Async
