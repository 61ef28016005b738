/-
Runs of a system that keep a journal: for every thread the procedure that it
was started with and the calls that it has made, with their answers.  The
journal is only kept for reasoning; no procedure reads it.
-/
import StatementAnalyzer.Async.System
import StatementAnalyzer.Async.Traces

namespace Async

variable {World Op : Type} {Val : Op → Type} {ε α : Type}

section Each

variable {A : Type} {P Q : List A → A → Prop} {xs : List A} {x : A}

/-- Every entry satisfies `P` with the entries before it. -/
def Each (P : List A → A → Prop) (xs : List A) : Prop :=
  ∀ before x after, xs = before ++ x :: after → P before x

theorem each_nil : Each P [] := by
  intro before x after h
  simp at h

theorem Each.concat (h : Each P xs) (hx : P xs x) : Each P (xs ++ [x]) := by
  intro before y after hsplit
  rcases List.eq_nil_or_concat after with rfl | ⟨rest, last, rfl⟩
  · obtain ⟨rfl, hlast⟩ := List.append_inj' hsplit rfl
    cases hlast
    exact hx
  · apply h before y rest
    have hsplit : xs ++ [x] = (before ++ y :: rest) ++ [last] := by
      simpa using hsplit
    exact (List.append_inj' hsplit rfl).1

theorem Each.mono (h : Each P xs) (hPQ : ∀ before x, P before x → Q before x) :
    Each Q xs :=
  fun before x after hsplit => hPQ before x (h before x after hsplit)

theorem Each.of_mem (h : Each P xs) (hx : x ∈ xs) : ∃ before, P before x := by
  obtain ⟨before, after, hsplit⟩ := List.append_of_mem hx
  exact ⟨before, h before x after hsplit⟩

end Each

namespace Proc

variable {p q : Proc Op Val ε α} {trace : List (Answered Op Val ε)}

/-- `p` goes on with `q` once it has made the calls of the trace. -/
inductive Resumes : Proc Op Val ε α → List (Answered Op Val ε) →
    Proc Op Val ε α → Prop
  | here {p : Proc Op Val ε α} : Resumes p [] p
  | call {op : Op} {resume : Except ε (Val op) → Proc Op Val ε α}
      {answer : Except ε (Val op)} {trace : List (Answered Op Val ε)}
      {q : Proc Op Val ε α} (h : Resumes (resume answer) trace q) :
      Resumes (.await op resume) (⟨op, answer⟩ :: trace) q

theorem Resumes.concat {op : Op} {resume : Except ε (Val op) → Proc Op Val ε α}
    (h : Resumes p trace (.await op resume)) (answer : Except ε (Val op)) :
    Resumes p (trace ++ [⟨op, answer⟩]) (resume answer) := by
  generalize hq : Proc.await op resume = q at h
  induction h with
  | here =>
      subst hq
      exact .call .here
  | call _ ih => exact .call (ih hq)

theorem Resumes.run {result : Except ε α}
    (h : Resumes p trace (.settled result)) : p.Run trace result := by
  generalize hq : Proc.settled result = q at h
  induction h with
  | here =>
      subst hq
      exact .settled
  | call _ ih => exact .await (ih hq)

/-- A procedure makes only calls that it can make. -/
theorem Resumes.calls {P : Op → Prop} (h : Resumes p trace q)
    (hp : p.Calls P) : ∀ answered ∈ trace, P answered.op := by
  induction h with
  | here => simp
  | call _ ih =>
      rw [List.forall_mem_cons]
      exact ⟨hp.1, ih (hp.2 _)⟩

variable {call : List (Answered Op Val ε) → Op → Prop}
variable {settle : List (Answered Op Val ε) → Except ε α → Prop}

/-- Whatever a lawful procedure has done so far was allowed. -/
theorem Resumes.lawful {earlier : List (Answered Op Val ε)}
    (h : Resumes p trace q) (hp : Lawful call settle earlier p) :
    Each (fun before answered => call (earlier ++ before) answered.op) trace ∧
      Lawful call settle (earlier ++ trace) q := by
  induction h generalizing earlier with
  | here => exact ⟨each_nil, by simpa using hp⟩
  | call _ ih =>
      obtain ⟨hop, hnext⟩ := hp
      obtain ⟨heach, hq⟩ := ih (hnext _)
      refine ⟨fun before answered after hsplit => ?_, by simpa using hq⟩
      cases before with
      | nil =>
          rw [List.nil_append, List.cons_eq_cons] at hsplit
          rw [← hsplit.1, List.append_nil]
          exact hop
      | cons first before =>
          rw [List.cons_append, List.cons_eq_cons] at hsplit
          obtain ⟨rfl, hsplit⟩ := hsplit
          simpa using heach before answered after hsplit

end Proc

/-- What a thread has done since it was started. -/
structure Record (Op : Type) (Val : Op → Type) (ε α : Type) where
  program : Proc Op Val ε α
  trace : List (Answered Op Val ε)

/-- The records of the threads that have started. -/
abbrev Journal (Op : Type) (Val : Op → Type) (ε α : Type) :=
  Tid → Option (Record Op Val ε α)

namespace Journal

/-- The thread has started. -/
def opened (journal : Journal Op Val ε α) (t : Tid) (p : Proc Op Val ε α) :
    Journal Op Val ε α :=
  Function.update journal t (some ⟨p, []⟩)

/-- The thread has made one more call. -/
def add (journal : Journal Op Val ε α) (t : Tid) (answered : Answered Op Val ε) :
    Journal Op Val ε α :=
  Function.update journal t ((journal t).map fun record =>
    { record with trace := record.trace ++ [answered] })

variable {journal : Journal Op Val ε α} {t u : Tid}

@[simp] theorem opened_self (p : Proc Op Val ε α) :
    journal.opened t p t = some ⟨p, []⟩ := by
  simp [opened]

theorem opened_ne (h : u ≠ t) (p : Proc Op Val ε α) :
    journal.opened t p u = journal u := by
  simp [opened, h]

theorem add_self {record : Record Op Val ε α} (h : journal t = some record)
    (answered : Answered Op Val ε) : journal.add t answered t =
      some { record with trace := record.trace ++ [answered] } := by
  simp [add, h]

theorem add_ne (h : u ≠ t) (answered : Answered Op Val ε) :
    journal.add t answered u = journal u := by
  simp [add, h]

end Journal

namespace System

variable {S : System World Op Val ε α}

/-- The system with a journal beside its world. -/
def journaled (S : System World Op Val ε α) :
    System (World × Journal Op Val ε α) Op Val ε α where
  init w := S.init w.1 ∧ w.2 = fun _ => none
  exec t op w answer w' :=
    S.exec t op w.1 answer w'.1 ∧ w'.2 = w.2.add t ⟨op, answer⟩
  start t p w w' := S.start t p w.1 w'.1 ∧ w'.2 = w.2.opened t p
  crash t w w' := S.crash t w.1 w'.1 ∧ w'.2 = w.2
  env w w' := S.env w.1 w'.1 ∧ w'.2 = w.2

variable {c c' : Config (World × Journal Op Val ε α) Op Val ε α}
variable {l : Label Op} {t : Tid}

/-- The configuration without the journal. -/
abbrev forget (c : Config (World × Journal Op Val ε α) Op Val ε α) :
    Config World Op Val ε α :=
  ⟨c.world.1, c.threads⟩

theorem journaled_step (h : S.journaled.Step l c c') :
    S.Step l (forget c) (forget c') := by
  cases h with
  | call running executes => exact .call running executes.1
  | start idle starts => exact .start idle starts.1
  | crash running crashes => exact .crash running crashes.1
  | env changes => exact .env changes.1

theorem journaled_reachable (h : S.journaled.Reachable c) :
    S.Reachable (forget c) := by
  induction h with
  | init h => exact .init h.1
  | step _ hstep ih => exact ih.step (journaled_step hstep)

/-- Every step of the system is one of the system with a journal. -/
theorem step_journaled {b b' : Config World Op Val ε α} (h : S.Step l b b')
    (journal : Journal Op Val ε α) : ∃ journal',
      S.journaled.Step l ⟨(b.world, journal), b.threads⟩
        ⟨(b'.world, journal'), b'.threads⟩ := by
  cases h with
  | @call _ t op resume answer world running executes =>
      exact ⟨journal.add t ⟨op, answer⟩, .call running ⟨executes, rfl⟩⟩
  | @start _ t p world idle starts =>
      exact ⟨journal.opened t p, .start idle ⟨starts, rfl⟩⟩
  | crash running crashes => exact ⟨journal, .crash running ⟨crashes, rfl⟩⟩
  | env changes => exact ⟨journal, .env ⟨changes, rfl⟩⟩

/-- Every run can be recorded. -/
theorem reachable_journaled {b : Config World Op Val ε α}
    (h : S.Reachable b) :
    ∃ journal, S.journaled.Reachable ⟨(b.world, journal), b.threads⟩ := by
  induction h with
  | init h => exact ⟨fun _ => none, .init ⟨h, rfl⟩⟩
  | step _ hstep ih =>
      obtain ⟨journal, hjournal⟩ := ih
      obtain ⟨journal', hstep'⟩ := step_journaled hstep journal
      exact ⟨journal', hjournal.step hstep'⟩

/-- The record of a thread after a step: its own call is added at the end, its
start opens it, and any other step leaves it. -/
theorem journaled_record (h : S.journaled.Step l c c') :
    (c'.world.2 t = c.world.2 t) ∨
    (∃ p, c.threads t = .idle ∧ S.start t p c.world.1 c'.world.1 ∧
      c'.threads t = .running p ∧ c'.world.2 t = some ⟨p, []⟩) ∨
    ∃ op resume answer, c.threads t = .running (.await op resume) ∧
      S.exec t op c.world.1 answer c'.world.1 ∧
      c'.threads t = .running (resume answer) ∧
      c'.world.2 = c.world.2.add t ⟨op, answer⟩ := by
  cases h with
  | @call _ u op resume answer world running executes =>
      by_cases htu : t = u
      · subst htu
        exact .inr (.inr ⟨op, resume, answer, running, executes.1,
          Config.move_threads_self _ _ _ _, executes.2⟩)
      · left
        rw [Config.move_world, executes.2, Journal.add_ne htu]
  | @start _ u p world idle starts =>
      by_cases htu : t = u
      · subst htu
        refine .inr (.inl ⟨p, idle, starts.1, Config.move_threads_self _ _ _ _, ?_⟩)
        rw [Config.move_world, starts.2, Journal.opened_self]
      · left
        rw [Config.move_world, starts.2, Journal.opened_ne htu]
  | crash running crashes =>
      left
      rw [Config.move_world, crashes.2]
  | env changes => exact .inl (congrFun changes.2 t)

/-- The record of a thread tells what the thread is doing. -/
structure Records (S : System World Op Val ε α)
    (c : Config (World × Journal Op Val ε α) Op Val ε α) (t : Tid) : Prop where
  idle : c.threads t = .idle → c.world.2 t = none
  started : ∀ record, c.world.2 t = some record →
    (∃ w w', S.start t record.program w w') ∧
      ∃ q, record.program.Resumes record.trace q
  running : ∀ q, c.threads t = .running q → ∃ record,
    c.world.2 t = some record ∧ record.program.Resumes record.trace q

theorem Records.step (h : Records S c t) (hstep : S.journaled.Step l c c') :
    Records S c' t := by
  rcases journaled_record (t := t) hstep with hsame |
    ⟨p, _, hstart, hthread, hrecord⟩ |
    ⟨op, resume, answer, hawait, _, hthread, hjournal⟩
  · refine ⟨fun hidle => ?_,
      fun record hrecord => h.started record (hsame ▸ hrecord), fun q hq => ?_⟩
    · rw [hsame]
      exact h.idle (hstep.idle hidle).1
    rw [hsame]
    rcases hstep.running hq with ⟨hthread, _⟩ |
      ⟨op, resume, answer, hawait, rfl, hexec⟩ | ⟨_, hstart⟩
    · exact h.running q hthread
    · obtain ⟨record, hrecord, _⟩ := h.running _ hawait
      rw [hexec.2, Journal.add_self hrecord, hrecord, Option.some.injEq,
        Record.mk.injEq] at hsame
      simp at hsame
    · rw [hstart.2, Journal.opened_self] at hsame
      exact ⟨_, hsame.symm, .here⟩
  · refine ⟨fun hidle => ?_, fun record hsome => ?_, fun q hq => ?_⟩
    · rw [hthread] at hidle
      cases hidle
    · rw [hrecord] at hsome
      cases hsome
      exact ⟨⟨_, _, hstart⟩, p, .here⟩
    · rw [hthread] at hq
      cases hq
      exact ⟨_, hrecord, .here⟩
  · obtain ⟨record, hrecord, hresumes⟩ := h.running _ hawait
    have hadded := Journal.add_self hrecord ⟨op, answer⟩
    rw [← hjournal] at hadded
    refine ⟨fun hidle => ?_, fun record' hsome => ?_, fun q hq => ?_⟩
    · rw [hthread] at hidle
      cases hidle
    · rw [hadded] at hsome
      cases hsome
      exact ⟨(h.started record hrecord).1, resume answer,
        hresumes.concat answer⟩
    · rw [hthread] at hq
      cases hq
      exact ⟨_, hadded, hresumes.concat answer⟩

theorem journaled_records (h : S.journaled.Reachable c) (t : Tid) :
    Records S c t := by
  induction h with
  | init h =>
      refine ⟨fun _ => by rw [h.2], fun record hrecord => ?_, nofun⟩
      simp [h.2] at hrecord
  | step _ hstep ih => exact ih.step hstep

/-- A record only grows. -/
theorem journaled_grows (h : S.journaled.Reachable c)
    (hstep : S.journaled.Step l c c') {record : Record Op Val ε α}
    (hrecord : c.world.2 t = some record) : ∃ record',
      c'.world.2 t = some record' ∧ record'.program = record.program ∧
        record.trace <+: record'.trace := by
  rcases journaled_record (t := t) hstep with hsame | ⟨p, hidle, _⟩ |
    ⟨op, resume, answer, _, _, _, hjournal⟩
  · exact ⟨record, hsame.trans hrecord, rfl, List.prefix_rfl⟩
  · rw [(journaled_records h t).idle hidle] at hrecord
    cases hrecord
  · have hadded := Journal.add_self hrecord ⟨op, answer⟩
    rw [← hjournal] at hadded
    exact ⟨_, hadded, rfl, List.prefix_append record.trace [⟨op, answer⟩]⟩

/-- What the answers that a thread has got say about the world.  `P` is said of
an answer and of the answers before it; no step takes it back, and each call
establishes it of its own answer. -/
theorem journaled_each {P : World → List (Answered Op Val ε) →
      Answered Op Val ε → Prop}
    (hstable : ∀ {b b' : Config World Op Val ε α} {l before answered},
      S.Reachable b → S.Step l b b' → P b.world before answered →
        P b'.world before answered)
    (hcall : ∀ {b b' : Config World Op Val ε α} {l t op answer before},
      S.Reachable b → S.Step l b b' → S.exec t op b.world answer b'.world →
        Each (P b'.world) before → P b'.world before ⟨op, answer⟩)
    (h : S.journaled.Reachable c) {record : Record Op Val ε α}
    (hrecord : c.world.2 t = some record) :
    Each (P c.world.1) record.trace := by
  induction h generalizing record with
  | init h => simp [h.2] at hrecord
  | @step c c' l hreach hstep ih =>
      have hforget := journaled_reachable hreach
      have hkept : ∀ {old : Record Op Val ε α}, c.world.2 t = some old →
          Each (P c'.world.1) old.trace := fun hold =>
        (ih hold).mono fun _ _ => hstable hforget (journaled_step hstep)
      rcases journaled_record (t := t) hstep with hsame |
        ⟨p, _, _, _, hopened⟩ | ⟨op, resume, answer, hawait, hexec, _, hjournal⟩
      · exact hkept (hsame ▸ hrecord)
      · rw [hopened] at hrecord
        cases hrecord
        exact each_nil
      · obtain ⟨old, hold, _⟩ := (journaled_records hreach t).running _ hawait
        rw [hjournal, Journal.add_self hold] at hrecord
        cases hrecord
        exact (hkept hold).concat
          (hcall hforget (journaled_step hstep) hexec (hkept hold))

end System

end Async
