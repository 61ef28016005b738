/-
The protocol of the worker loop, over whole runs.  Whatever the loop does is
allowed by what has happened before, and once a shutdown is requested nothing
is awaited beyond the one deadline.
-/
import StatementAnalyzer.Async.Journal
import StatementAnalyzer.Worker.AnalyzeWorker
import Mathlib.Algebra.Order.Ring.Nat

namespace StatementAnalyzer

open Async

/-- The receive that an event belongs to. -/
def WorkerEvent.receive? : WorkerEvent → Option Nat
  | receiveOne receive | received receive _ | handleJob receive _
  | handlerSettled receive _ | handlerResult receive _
  | deleteMessage receive _ | deleteSettled receive _
  | deleteResult receive _ => some receive
  | sleep _ | requestShutdown | stopped => none

def WorkerPhase.receive? : WorkerPhase → Option Nat
  | receiving receive | received receive _ | sleeping receive | slept receive
  | starting receive _ _ | handling receive _ _ _ | confirming receive _
  | deleting receive _ _ => some receive
  | created | stopped => none

/-- The job is to be deleted. -/
def acknowledges : ShutdownOperationResult HandlerValue → Bool
  | .completed value => value ≠ some .retry
  | _ => false

/-- Receive failures since the last receive that brought a job or nothing.  An
invalid message does not count and does not reset the count. -/
def countFailure (n : Nat) : WorkerEvent → Nat
  | .received _ .failed => n + 1
  | .received _ .invalidMessage => n
  | .received _ _ => 0
  | _ => n

def failures (log : List WorkerEvent) : Nat :=
  log.foldl countFailure 0

/-- The wait after a failure that `n` others precede. -/
def backoffAfter (n : Nat) : Nat :=
  min (1000 * 2 ^ n) 30000

/-- What happened to one receive and to its job. -/
def lifeOf (receive : Nat) (log : List WorkerEvent) : List WorkerEvent :=
  log.filter fun e => e.receive? = some receive

/-- The job was handed over, and nothing of it is awaited any more. -/
def Attended (log : List WorkerEvent) (receive : Nat)
    (job : ReceivedAnalyzeJob) : Prop :=
  .handleJob receive job ∈ log ∧ ∃ result,
    .handlerResult receive result ∈ log ∧
      (acknowledges result = true → ∃ done, .deleteResult receive done ∈ log)

/-- What may happen next, after what has happened before. -/
def Allowed (before : List WorkerEvent) : WorkerEvent → Prop
  | .receiveOne _ => .requestShutdown ∉ before ∧
      ∀ other job, .received other (.job job) ∈ before →
        Attended before other job
  | .received receive _ => .receiveOne receive ∈ before ∧
      ∀ outcome, .received receive outcome ∉ before
  | .sleep milliseconds => .requestShutdown ∉ before ∧
      ∃ n, failures before = n + 1 ∧ milliseconds = backoffAfter n
  | .handleJob receive job => .received receive (.job job) ∈ before ∧
      ∀ other, .handleJob receive other ∉ before
  | .handlerSettled _ _ | .deleteSettled _ _ => True
  | .handlerResult receive result => (∃ job, .handleJob receive job ∈ before) ∧
      (∀ other, .handlerResult receive other ∉ before) ∧
      (∀ value, result = .completed value →
        .handlerSettled receive (.ok value) ∈ before) ∧
      (result = .timedOut → .requestShutdown ∈ before)
  | .deleteMessage receive receiptHandle => ∃ job value,
      .received receive (.job job) ∈ before ∧
      receiptHandle = job.receiptHandle ∧
      .handlerSettled receive (.ok value) ∈ before ∧ value ≠ some .retry ∧
      .handlerResult receive (.completed value) ∈ before ∧
      .handlerResult receive .timedOut ∉ before ∧
      ∀ other, .deleteMessage receive other ∉ before
  | .deleteResult receive result =>
      (∃ receiptHandle, .deleteMessage receive receiptHandle ∈ before) ∧
      (result = .timedOut → .requestShutdown ∈ before)
  | .requestShutdown => .requestShutdown ∉ before
  | .stopped => .requestShutdown ∈ before

section Log

variable {log : List WorkerEvent} {e : WorkerEvent} {receive : Nat}
variable {job : ReceivedAnalyzeJob}

@[simp] theorem failures_concat (log : List WorkerEvent) (e : WorkerEvent) :
    failures (log ++ [e]) = countFailure (failures log) e := by
  simp [failures]

theorem lifeOf_concat_self (h : e.receive? = some receive) :
    lifeOf receive (log ++ [e]) = lifeOf receive log ++ [e] := by
  simp [lifeOf, h]

theorem lifeOf_concat_ne (h : e.receive? ≠ some receive) :
    lifeOf receive (log ++ [e]) = lifeOf receive log := by
  simp [lifeOf, h]

theorem mem_lifeOf_iff : e ∈ lifeOf receive log ↔
    e ∈ log ∧ e.receive? = some receive := by
  simp [lifeOf]

/-- An event of a receive, looked up in its life. -/
theorem mem_log_iff (h : e.receive? = some receive) :
    e ∈ log ↔ e ∈ lifeOf receive log := by
  rw [mem_lifeOf_iff, and_iff_left h]

theorem Attended.concat (h : Attended log receive job) (e : WorkerEvent) :
    Attended (log ++ [e]) receive job := by
  obtain ⟨hhandled, result, hresult, hdone⟩ := h
  refine ⟨List.mem_append_left _ hhandled, result,
    List.mem_append_left _ hresult, fun hacknowledged => ?_⟩
  obtain ⟨done, hmem⟩ := hdone hacknowledged
  exact ⟨done, List.mem_append_left _ hmem⟩

theorem backoffAfter_succ (n : Nat) :
    min (backoffAfter n * RECEIVE_BACKOFF_MULTIPLIER) MAX_RECEIVE_BACKOFF_MS =
      backoffAfter (n + 1) := by
  rw [backoffAfter, backoffAfter, RECEIVE_BACKOFF_MULTIPLIER,
    MAX_RECEIVE_BACKOFF_MS, Nat.pow_succ]
  omega

end Log

namespace AnalyzeWorker

/-- The part of the invariant that does not look at the phase. -/
structure Recorded (w : AnalyzeWorker) : Prop where
  each : Each Allowed w.log
  fresh : ∀ e ∈ w.log, ∀ receive, e.receive? = some receive →
    receive < w.controllers
  shutdown : w.shutdownRequested = true ↔ .requestShutdown ∈ w.log

/-- No job is awaited. -/
structure Ready (w : AnalyzeWorker) : Prop extends Recorded w where
  backoff : w.receiveBackoffMs = backoffAfter (failures w.log)
  attended : ∀ receive job, .received receive (.job job) ∈ w.log →
    Attended w.log receive job

/-- The backoff, after how the receive has come out. -/
def BackoffDue (log : List WorkerEvent) (receiveBackoffMs : Nat) :
    ReceiveOutcome → Prop
  | .failed => ∃ n, failures log = n + 1 ∧ receiveBackoffMs = backoffAfter n
  | .invalidMessage => receiveBackoffMs = backoffAfter (failures log)
  | .job _ | .empty => failures log = 0

/-- The life of a job that is to be deleted, up to the delete. -/
def acknowledgedLife (receive : Nat) (job : ReceivedAnalyzeJob)
    (value : HandlerValue) : List WorkerEvent :=
  [.receiveOne receive, .received receive (.job job), .handleJob receive job,
    .handlerSettled receive (.ok value),
    .handlerResult receive (.completed value)]

/-- What the phase says about the current receive and the backoff. -/
def Current (log : List WorkerEvent) (receiveBackoffMs : Nat) :
    WorkerPhase → Prop
  | .created => receiveBackoffMs = backoffAfter (failures log)
  | .receiving receive => lifeOf receive log = [.receiveOne receive] ∧
      receiveBackoffMs = backoffAfter (failures log)
  | .received receive outcome =>
      lifeOf receive log = [.receiveOne receive, .received receive outcome] ∧
      BackoffDue log receiveBackoffMs outcome
  | .sleeping receive | .slept receive =>
      lifeOf receive log = [.receiveOne receive, .received receive .failed] ∧
      BackoffDue log receiveBackoffMs .failed
  | .starting receive job _ =>
      lifeOf receive log =
        [.receiveOne receive, .received receive (.job job)] ∧
      receiveBackoffMs = backoffAfter (failures log)
  | .handling receive job _ race =>
      lifeOf receive log =
        [.receiveOne receive, .received receive (.job job),
          .handleJob receive job] ++
          (race.settled.map (.handlerSettled receive)).toList ∧
      receiveBackoffMs = backoffAfter (failures log)
  | .confirming receive job => ∃ value, value ≠ some .retry ∧
      lifeOf receive log = acknowledgedLife receive job value ∧
      receiveBackoffMs = backoffAfter (failures log)
  | .deleting receive job race => ∃ value, value ≠ some .retry ∧
      lifeOf receive log = acknowledgedLife receive job value ++
        [.deleteMessage receive job.receiptHandle] ++
          (race.settled.map (.deleteSettled receive)).toList ∧
      receiveBackoffMs = backoffAfter (failures log)
  | .stopped => True

theorem BackoffDue.congr {log log' : List WorkerEvent} {receiveBackoffMs : Nat}
    {outcome : ReceiveOutcome} (h : BackoffDue log receiveBackoffMs outcome)
    (hfailures : failures log' = failures log) :
    BackoffDue log' receiveBackoffMs outcome := by
  cases outcome <;> simpa only [BackoffDue, hfailures] using h

/-- Only the life of the current receive and the failures count. -/
theorem Current.congr {log log' : List WorkerEvent} {receiveBackoffMs : Nat}
    {phase : WorkerPhase} (h : Current log receiveBackoffMs phase)
    (hlife : ∀ receive, phase.receive? = some receive →
      lifeOf receive log' = lifeOf receive log)
    (hfailures : failures log' = failures log) :
    Current log' receiveBackoffMs phase := by
  cases phase with
  | created =>
      rw [Current, hfailures]
      exact h
  | receiving | starting | handling | confirming | deleting =>
      simp only [Current, hfailures, hlife _ rfl] at h ⊢
      exact h
  | received | sleeping | slept =>
      simp only [Current, hlife _ rfl] at h ⊢
      exact ⟨h.1, h.2.congr hfailures⟩
  | stopped => trivial

/-- The invariant of the loop. -/
structure Keeps (w : AnalyzeWorker) : Prop extends Recorded w where
  attended : ∀ receive job, .received receive (.job job) ∈ w.log →
    w.phase.receive? ≠ some receive → Attended w.log receive job
  current : Current w.log w.receiveBackoffMs w.phase

variable {w w' : AnalyzeWorker} {e : WorkerEvent} {shutdownTimeoutMs : Nat}

theorem Recorded.record (h : Recorded w) (hallowed : Allowed w.log e)
    (hfresh : ∀ receive, e.receive? = some receive → receive < w.controllers)
    (he : e ≠ .requestShutdown) : Recorded (w.record e) := by
  refine ⟨h.each.concat hallowed, fun e' hmem receive hreceive => ?_, ?_⟩
  · rcases List.mem_append.mp hmem with hmem | hmem
    · exact h.fresh e' hmem receive hreceive
    · rw [List.mem_singleton.mp hmem] at hreceive
      exact hfresh receive hreceive
  · rw [AnalyzeWorker.record, List.mem_append, List.mem_singleton,
      or_iff_left he.symm]
    exact h.shutdown

/-- Nothing has happened to a receive that has not been made yet. -/
theorem Recorded.lifeOf_controllers (h : Recorded w) :
    lifeOf w.controllers w.log = [] := by
  rw [lifeOf, List.filter_eq_nil_iff]
  intro e hmem hreceive
  have hfresh := h.fresh e hmem w.controllers (by simpa using hreceive)
  omega

/-- The loop ends after a shutdown. -/
theorem Recorded.stops (h : Recorded w)
    (hattended : ∀ receive job, .received receive (.job job) ∈ w.log →
      Attended w.log receive job)
    (hshutdown : w.shutdownRequested = true) : Keeps w.whileRunning := by
  rw [AnalyzeWorker.whileRunning, if_pos hshutdown]
  have hstopped : Allowed w.log .stopped := h.shutdown.mp hshutdown
  have hmoved : Recorded (w.move .stopped) := ⟨h.each, h.fresh, h.shutdown⟩
  refine ⟨hmoved.record hstopped (by simp [WorkerEvent.receive?]) (by simp),
    fun receive job hmem _ => ?_, trivial⟩
  have hmem : .received receive (.job job) ∈ w.log := by
    simpa [AnalyzeWorker.record, AnalyzeWorker.move] using hmem
  exact (hattended receive job hmem).concat _

/-- The loop goes on, or ends after a shutdown. -/
theorem Ready.whileRunning (h : Ready w) : Keeps w.whileRunning := by
  by_cases hshutdown : w.shutdownRequested = true
  · exact h.stops h.attended hshutdown
  · rw [AnalyzeWorker.whileRunning, if_neg hshutdown]
    have hreceive : Allowed w.log (.receiveOne w.controllers) :=
      ⟨fun hmem => hshutdown (h.shutdown.mpr hmem), h.attended⟩
    have hlife := h.lifeOf_controllers
    have hbegun : Recorded
        { w with
          receiveAbortController := some w.controllers
          controllers := w.controllers + 1
          phase := .receiving w.controllers } := by
      refine ⟨h.each, fun e hmem receive hsome => ?_, h.shutdown⟩
      exact Nat.lt_succ_of_lt (h.fresh e hmem receive hsome)
    refine ⟨hbegun.record hreceive (by simp [WorkerEvent.receive?]) (by simp),
      fun receive job hmem _ => ?_, ?_, ?_⟩
    · have hmem : .received receive (.job job) ∈ w.log := by
        simpa [AnalyzeWorker.record] using hmem
      exact (h.attended receive job hmem).concat _
    · change lifeOf w.controllers (w.log ++ [.receiveOne w.controllers]) = _
      rw [lifeOf_concat_self rfl, hlife]
      rfl
    · change w.receiveBackoffMs =
        backoffAfter (failures (w.log ++ [.receiveOne w.controllers]))
      rw [failures_concat]
      exact h.backoff

/-- A step that adds an event of the current receive. -/
theorem Keeps.advance (h : Keeps w) {phase : WorkerPhase} {receive : Nat}
    (hold : w.phase.receive? = some receive)
    (hnew : phase.receive? = some receive) (he : e.receive? = some receive)
    (hlife : lifeOf receive w.log ≠ []) (hallowed : Allowed w.log e)
    (hcurrent : Current (w.log ++ [e]) w.receiveBackoffMs phase) :
    Keeps ((w.move phase).record e) := by
  have hmoved : Recorded (w.move phase) := ⟨h.each, h.fresh, h.shutdown⟩
  refine ⟨hmoved.record hallowed ?_ ?_, fun other job hmem hne => ?_, hcurrent⟩
  · intro other hother
    obtain ⟨e', hmem⟩ := List.exists_mem_of_ne_nil _ hlife
    obtain ⟨hmem, hreceive⟩ := mem_lifeOf_iff.mp hmem
    cases he.symm.trans hother
    exact h.fresh e' hmem receive hreceive
  · rintro rfl
    cases he
  · have hne : some receive ≠ some other := fun heq => hne (hnew.trans heq)
    rcases List.mem_append.mp hmem with hmem | hmem
    · exact (h.attended other job hmem (hold ▸ hne)).concat e
    · rw [← he, ← List.mem_singleton.mp hmem] at hne
      exact absurd rfl hne

/-- A step that adds no event and stays with the receive. -/
theorem Keeps.rephase (h : Keeps w) {phase : WorkerPhase}
    (hphase : phase.receive? = w.phase.receive?)
    (hcurrent : Current w.log w.receiveBackoffMs phase) :
    Keeps (w.move phase) :=
  ⟨⟨h.each, h.fresh, h.shutdown⟩, fun receive job hmem hne =>
    h.attended receive job hmem (hphase ▸ hne), hcurrent⟩

/-- The current receive has brought no job, or its job is attended to. -/
theorem Keeps.ready (h : Keeps w) {w' : AnalyzeWorker}
    (hlog : w'.log = w.log) (hcontrollers : w'.controllers = w.controllers)
    (hshutdown : w'.shutdownRequested = w.shutdownRequested)
    (hbackoff : w'.receiveBackoffMs = backoffAfter (failures w.log))
    (hattended : ∀ receive job, w.phase.receive? = some receive →
      .received receive (.job job) ∈ w.log → Attended w.log receive job) :
    Ready w' := by
  refine ⟨⟨hlog ▸ h.each, ?_, ?_⟩, ?_, ?_⟩
  · rw [hlog, hcontrollers]
    exact h.fresh
  · rw [hlog, hshutdown]
    exact h.shutdown
  · rw [hlog]
    exact hbackoff
  · rw [hlog]
    intro receive job hmem
    by_cases hreceive : w.phase.receive? = some receive
    · exact hattended receive job hreceive hmem
    · exact h.attended receive job hmem hreceive

section Steps

variable {receive controller : Nat} {job : ReceivedAnalyzeJob}

theorem keeps_receiveSettles (h : Keeps w)
    (hphase : w.phase = .receiving receive) (outcome : ReceiveOutcome) :
    Keeps ((w.move (.received receive outcome)).record
      (.received receive outcome)) := by
  have hcurrent := h.current
  rw [hphase] at hcurrent
  obtain ⟨hlife, hbackoff⟩ := hcurrent
  have hone : .receiveOne receive ∈ lifeOf receive w.log := by simp [hlife]
  apply h.advance (by rw [hphase]; rfl) rfl rfl (by simp [hlife])
  · refine ⟨(mem_lifeOf_iff.mp hone).1, fun other hmem => ?_⟩
    rw [mem_log_iff rfl, hlife] at hmem
    simp at hmem
  · refine ⟨?_, ?_⟩
    · rw [lifeOf_concat_self rfl, hlife]
      rfl
    · cases outcome with
      | failed => exact ⟨_, failures_concat _ _, hbackoff⟩
      | invalidMessage =>
          rw [BackoffDue, failures_concat]
          exact hbackoff
      | job _ | empty => exact failures_concat _ _

theorem keeps_afterReceive (h : Keeps w) {outcome : ReceiveOutcome}
    (hphase : w.phase = .received receive outcome) :
    Keeps (w.afterReceive receive outcome) := by
  have hcurrent := h.current
  rw [hphase] at hcurrent
  obtain ⟨hlife, hdue⟩ := hcurrent
  have hnone : (∀ job, outcome ≠ .job job) → ∀ other job,
      w.phase.receive? = some other → .received other (.job job) ∈ w.log →
        Attended w.log other job := by
    intro hother other job hsome hmem
    rw [hphase] at hsome
    cases hsome
    rw [mem_log_iff rfl, hlife] at hmem
    simp at hmem
    exact absurd hmem.symm (hother job)
  cases outcome with
  | empty =>
      have hdue : failures w.log = 0 := hdue
      apply Ready.whileRunning
      refine h.ready rfl rfl rfl ?_ (hnone (by simp))
      rw [hdue]
      rfl
  | invalidMessage =>
      apply Ready.whileRunning
      exact h.ready rfl rfl rfl hdue (hnone (by simp))
  | failed =>
      obtain ⟨n, hfailures, hbackoff⟩ := hdue
      rw [afterReceive]
      by_cases hshutdown : w.shutdownRequested = true
      · rw [if_pos hshutdown]
        have hcleared : Recorded (w.clearReceive receive) :=
          ⟨h.each, h.fresh, h.shutdown⟩
        apply hcleared.stops _ hshutdown
        intro other job hmem
        by_cases hother : w.phase.receive? = some other
        · exact hnone (by simp) other job hother hmem
        · exact h.attended other job hmem hother
      · rw [if_neg hshutdown]
        have hsleep : Allowed w.log (.sleep w.receiveBackoffMs) :=
          ⟨fun hmem => hshutdown (h.shutdown.mpr hmem), n, hfailures, hbackoff⟩
        have hmoved : Recorded (w.move (.sleeping receive)) :=
          ⟨h.each, h.fresh, h.shutdown⟩
        refine ⟨hmoved.record hsleep (by simp [WorkerEvent.receive?]) (by simp),
          fun other job hmem hne => ?_, ?_, n, ?_, hbackoff⟩
        · have hmem : .received other (.job job) ∈ w.log := by
            simpa [AnalyzeWorker.record, AnalyzeWorker.move] using hmem
          refine (h.attended other job hmem ?_).concat _
          rw [hphase]
          exact hne
        · change lifeOf receive (w.log ++ [.sleep w.receiveBackoffMs]) = _
          rw [lifeOf_concat_ne (by simp [WorkerEvent.receive?]), hlife]
        · change failures (w.log ++ [.sleep w.receiveBackoffMs]) = _
          rw [failures_concat]
          exact hfailures
  | job job =>
      have hdue : failures w.log = 0 := hdue
      refine ⟨⟨h.each, fun e hmem other hsome => ?_, h.shutdown⟩,
        fun other job' hmem hne => ?_, hlife, ?_⟩
      · exact Nat.lt_succ_of_lt (h.fresh e hmem other hsome)
      · apply h.attended other job' hmem
        rw [hphase]
        exact hne
      · change INITIAL_RECEIVE_BACKOFF_MS = backoffAfter (failures w.log)
        rw [hdue]
        rfl

theorem keeps_afterSleep (h : Keeps w) (hphase : w.phase = .slept receive) :
    Keeps (w.afterSleep receive) := by
  have hcurrent := h.current
  rw [hphase] at hcurrent
  obtain ⟨hlife, n, hfailures, hbackoff⟩ := hcurrent
  apply Ready.whileRunning
  refine h.ready rfl rfl rfl ?_ ?_
  · change min (w.receiveBackoffMs * RECEIVE_BACKOFF_MULTIPLIER)
      MAX_RECEIVE_BACKOFF_MS = _
    rw [hbackoff, hfailures, backoffAfter_succ]
  · intro other job hsome hmem
    rw [hphase] at hsome
    cases hsome
    rw [mem_log_iff rfl, hlife] at hmem
    simp at hmem

theorem keeps_startHandler (h : Keeps w)
    (hphase : w.phase = .starting receive job controller) :
    Keeps (w.startHandler receive job controller) := by
  have hcurrent := h.current
  rw [hphase] at hcurrent
  obtain ⟨hlife, hbackoff⟩ := hcurrent
  have hreceived : .received receive (.job job) ∈ lifeOf receive w.log := by
    simp [hlife]
  apply h.advance (by rw [hphase]; rfl) rfl rfl (by simp [hlife])
  · refine ⟨(mem_lifeOf_iff.mp hreceived).1, fun other hmem => ?_⟩
    rw [mem_log_iff rfl, hlife] at hmem
    simp at hmem
  · refine ⟨?_, ?_⟩
    · rw [lifeOf_concat_self rfl, hlife]
      rfl
    · rw [failures_concat]
      exact hbackoff

theorem keeps_handlerSettles (h : Keeps w)
    {race : ShutdownRace HandlerValue}
    (hphase : w.phase = .handling receive job controller race)
    (hpending : race.settled = none) (outcome : Except Thrown HandlerValue) :
    Keeps ((w.move (.handling receive job controller (race.settle outcome))).record
      (.handlerSettled receive outcome)) := by
  have hcurrent := h.current
  rw [hphase] at hcurrent
  obtain ⟨hlife, hbackoff⟩ := hcurrent
  rw [hpending] at hlife
  have hallowed : Allowed w.log (.handlerSettled receive outcome) := trivial
  apply h.advance (by rw [hphase]; rfl) rfl rfl (by simp [hlife]) hallowed
  refine ⟨?_, ?_⟩
  · rw [lifeOf_concat_self rfl, hlife]
    rfl
  · rw [failures_concat]
    exact hbackoff

/-- Neither the timer nor a fired timer shows in the record. -/
theorem keeps_handlerTimer (h : Keeps w) {race race' : ShutdownRace HandlerValue}
    (hphase : w.phase = .handling receive job controller race)
    (hsettled : race'.settled = race.settled) :
    Keeps (w.move (.handling receive job controller race')) := by
  apply h.rephase (by rw [hphase]; rfl)
  have hcurrent := h.current
  rw [hphase] at hcurrent
  rw [Current, hsettled]
  exact hcurrent

theorem keeps_deleteTimer (h : Keeps w) {race race' : ShutdownRace Unit}
    (hphase : w.phase = .deleting receive job race)
    (hsettled : race'.settled = race.settled) :
    Keeps (w.move (.deleting receive job race')) := by
  apply h.rephase (by rw [hphase]; rfl)
  have hcurrent := h.current
  rw [hphase] at hcurrent
  rw [Current, hsettled]
  exact hcurrent

theorem keeps_afterHandler (h : Keeps w) {race : ShutdownRace HandlerValue}
    {result : ShutdownOperationResult HandlerValue}
    (hphase : w.phase = .handling receive job controller race)
    (hdecides : race.Decides result)
    (hfired : race.fired = true → w.shutdownRequested = true) :
    Keeps (w.afterHandler receive job controller result) := by
  have hcurrent := h.current
  rw [hphase] at hcurrent
  obtain ⟨hlife, hbackoff⟩ := hcurrent
  have hhandled : .handleJob receive job ∈ lifeOf receive w.log := by
    simp [hlife]
  have hallowed : Allowed w.log (.handlerResult receive result) := by
    refine ⟨⟨job, (mem_lifeOf_iff.mp hhandled).1⟩, fun other hmem => ?_,
      ?_, ?_⟩
    · rw [mem_log_iff rfl, hlife] at hmem
      cases hsettled : race.settled <;> simp [hsettled] at hmem
    · rintro value rfl
      cases hdecides with
      | completed hsettled =>
          rw [mem_log_iff rfl, hlife, hsettled]
          simp
    · rintro rfl
      cases hdecides with
      | timedOut hfires => exact h.shutdown.mp (hfired hfires)
  have hrecorded : Recorded
      ((w.clearHandler controller).record (.handlerResult receive result)) := by
    have hcleared : Recorded (w.clearHandler controller) :=
      ⟨h.each, h.fresh, h.shutdown⟩
    apply hcleared.record hallowed _ (by simp)
    intro other hother
    cases hother
    exact h.fresh _ (mem_lifeOf_iff.mp hhandled).1 receive rfl
  have hsame : ∀ other, .received receive (.job other) ∈ w.log → other = job := by
    intro other hmem
    rw [mem_log_iff rfl, hlife] at hmem
    cases hsettled : race.settled <;> simpa [hsettled] using hmem
  have hothers : ∀ other job',
      .received other (.job job') ∈ w.log ++ [.handlerResult receive result] →
        other ≠ receive →
          Attended (w.log ++ [.handlerResult receive result]) other job' := by
    intro other job' hmem hne
    have hmem : .received other (.job job') ∈ w.log := by simpa using hmem
    refine (h.attended other job' hmem ?_).concat _
    rw [hphase]
    exact fun heq => hne (Option.some.inj heq).symm
  -- where the job is not to be deleted it is done with
  have hready : acknowledges result = false →
      Ready ((w.clearHandler controller).record
        (.handlerResult receive result)) := by
    intro hrefused
    refine ⟨hrecorded, ?_, fun other job' hmem => ?_⟩
    · change w.receiveBackoffMs =
        backoffAfter (failures (w.log ++ [.handlerResult receive result]))
      rw [failures_concat]
      exact hbackoff
    · by_cases hother : other = receive
      · subst hother
        have hmem : .received other (.job job') ∈ w.log := by
          simpa [AnalyzeWorker.record, AnalyzeWorker.clearHandler] using hmem
        cases hsame job' hmem
        refine ⟨List.mem_append_left _ (mem_lifeOf_iff.mp hhandled).1, result,
          List.mem_append_right _ (List.mem_singleton_self _), ?_⟩
        rw [hrefused]
        nofun
      · exact hothers other job' hmem hother
  cases result with
  | failed error => exact (hready rfl).whileRunning
  | timedOut =>
      have hgone := hready rfl
      apply Ready.whileRunning
      exact ⟨⟨hgone.each, hgone.fresh, hgone.shutdown⟩, hgone.backoff,
        hgone.attended⟩
  | completed value =>
      rw [afterHandler]
      by_cases hretry : value = some .retry
      · rw [if_pos hretry]
        apply Ready.whileRunning
        exact hready (by simp [acknowledges, hretry])
      · rw [if_neg hretry]
        have hsettled : race.settled = some (.ok value) := by
          cases hdecides with
          | completed hsettled => exact hsettled
        refine ⟨⟨hrecorded.each, hrecorded.fresh, hrecorded.shutdown⟩,
          fun other job' hmem hne => ?_, value, hretry, ?_, ?_⟩
        · apply hothers other job' hmem
          rintro rfl
          exact hne rfl
        · change lifeOf receive
            (w.log ++ [.handlerResult receive (.completed value)]) = _
          rw [lifeOf_concat_self rfl, hlife, hsettled]
          rfl
        · change w.receiveBackoffMs = backoffAfter (failures
            (w.log ++ [.handlerResult receive (.completed value)]))
          rw [failures_concat]
          exact hbackoff

theorem keeps_startDelete (h : Keeps w)
    (hphase : w.phase = .confirming receive job) :
    Keeps (w.startDelete receive job) := by
  have hcurrent := h.current
  rw [hphase] at hcurrent
  obtain ⟨value, hretry, hlife, hbackoff⟩ := hcurrent
  have hallowed : Allowed w.log
      (.deleteMessage receive job.receiptHandle) := by
    refine ⟨job, value, ?_, rfl, ?_, hretry, ?_, ?_, fun other => ?_⟩
    all_goals rw [mem_log_iff rfl, hlife]
    all_goals simp [acknowledgedLife]
  apply h.advance (by rw [hphase]; rfl) rfl rfl
    (by simp [hlife, acknowledgedLife]) hallowed
  refine ⟨value, hretry, ?_, ?_⟩
  · rw [lifeOf_concat_self rfl, hlife]
    rfl
  · rw [failures_concat]
    exact hbackoff

theorem keeps_deleteSettles (h : Keeps w) {race : ShutdownRace Unit}
    (hphase : w.phase = .deleting receive job race)
    (hpending : race.settled = none) (outcome : Except Thrown Unit) :
    Keeps ((w.move (.deleting receive job (race.settle outcome))).record
      (.deleteSettled receive outcome)) := by
  have hcurrent := h.current
  rw [hphase] at hcurrent
  obtain ⟨value, hretry, hlife, hbackoff⟩ := hcurrent
  rw [hpending] at hlife
  have hallowed : Allowed w.log (.deleteSettled receive outcome) := trivial
  apply h.advance (by rw [hphase]; rfl) rfl rfl
    (by simp [hlife, acknowledgedLife]) hallowed
  refine ⟨value, hretry, ?_, ?_⟩
  · rw [lifeOf_concat_self rfl, hlife]
    rfl
  · rw [failures_concat]
    exact hbackoff

theorem keeps_afterDelete (h : Keeps w) {race : ShutdownRace Unit}
    {result : ShutdownOperationResult Unit}
    (hphase : w.phase = .deleting receive job race)
    (hdecides : race.Decides result)
    (hfired : race.fired = true → w.shutdownRequested = true) :
    Keeps (w.afterDelete receive result) := by
  have hcurrent := h.current
  rw [hphase] at hcurrent
  obtain ⟨value, hretry, hlife, hbackoff⟩ := hcurrent
  have hdeleted : .deleteMessage receive job.receiptHandle ∈ w.log := by
    rw [mem_log_iff rfl, hlife]
    simp
  have hallowed : Allowed w.log (.deleteResult receive result) := by
    refine ⟨⟨_, hdeleted⟩, ?_⟩
    rintro rfl
    cases hdecides with
    | timedOut hfires => exact h.shutdown.mp (hfired hfires)
  apply Ready.whileRunning
  refine ⟨h.record hallowed ?_ (by simp), ?_, fun other job' hmem => ?_⟩
  · intro other hother
    cases hother
    exact h.fresh _ hdeleted receive rfl
  · change w.receiveBackoffMs =
      backoffAfter (failures (w.log ++ [.deleteResult receive result]))
    rw [failures_concat]
    exact hbackoff
  · have hreceived : .received other (.job job') ∈ w.log := by
      simpa [AnalyzeWorker.record] using hmem
    by_cases hother : other = receive
    · subst hother
      have hjob : job' = job := by
        rw [mem_log_iff rfl, hlife] at hreceived
        cases hsettled : race.settled <;>
          simpa [acknowledgedLife, hsettled] using hreceived
      subst hjob
      have hmem : ∀ e, e ∈ acknowledgedLife other job' value → e ∈ w.log := by
        intro e he
        apply (mem_lifeOf_iff.mp (_ : e ∈ lifeOf other w.log)).1
        rw [hlife]
        exact List.mem_append_left _ (List.mem_append_left _ he)
      refine ⟨List.mem_append_left _ (hmem _ (by simp [acknowledgedLife])), _,
        List.mem_append_left _ (hmem (.handlerResult other (.completed value))
          (by simp [acknowledgedLife])), fun _ => ⟨result, ?_⟩⟩
      exact List.mem_append_right _ (List.mem_singleton_self _)
    · refine (h.attended other job' hreceived ?_).concat _
      rw [hphase]
      exact fun heq => hother (Option.some.inj heq).symm

/-- What a promise does that the loop has given up on changes nothing. -/
theorem keeps_late (h : Keeps w) (hallowed : Allowed w.log e)
    (he : e.receive? = some receive) (hcount : ∀ n, countFailure n e = n)
    (hreceived : ∀ other job, e ≠ .received other (.job job))
    (hmem : ∃ e' ∈ w.log, e'.receive? = some receive)
    (hcurrent : w.phase.receive? ≠ some receive) : Keeps (w.record e) := by
  refine ⟨h.record hallowed ?_ ?_, fun other job hjob hne => ?_, ?_⟩
  · intro other hother
    cases he.symm.trans hother
    obtain ⟨e', hmem, hreceive⟩ := hmem
    exact h.fresh e' hmem receive hreceive
  · rintro rfl
    cases he
  · rcases List.mem_append.mp hjob with hjob | hjob
    · exact (h.attended other job hjob hne).concat e
    · exact absurd (List.mem_singleton.mp hjob).symm (hreceived other job)
  · apply h.current.congr _ ((failures_concat _ _).trans (hcount _))
    intro other hother
    apply lifeOf_concat_ne
    intro hsame
    exact hcurrent (hother.trans (hsame.symm.trans he))

theorem keeps_requestShutdown (h : Keeps w) :
    Keeps (w.requestShutdown shutdownTimeoutMs) := by
  rw [AnalyzeWorker.requestShutdown]
  by_cases hshutdown : w.shutdownRequested = true
  · rw [if_pos hshutdown]
    exact h
  · rw [if_neg hshutdown]
    have hallowed : Allowed w.log .requestShutdown :=
      fun hmem => hshutdown (h.shutdown.mpr hmem)
    refine ⟨⟨h.each.concat hallowed, fun e hmem other hother => ?_, ?_⟩,
      fun other job hmem hne => ?_, ?_⟩
    · rcases List.mem_append.mp hmem with hmem | hmem
      · exact h.fresh e hmem other hother
      · rw [List.mem_singleton.mp hmem] at hother
        cases hother
    · exact ⟨fun _ => List.mem_append_right _ (List.mem_singleton_self _),
        fun _ => rfl⟩
    · have hmem : .received other (.job job) ∈ w.log := by
        simpa [AnalyzeWorker.record] using hmem
      exact (h.attended other job hmem hne).concat _
    · apply h.current.congr _ (failures_concat _ _)
      intro other _
      exact lifeOf_concat_ne (by simp [WorkerEvent.receive?])

end Steps

/-- When a race began, and its timer. -/
structure RaceClock where
  startedAt : Nat
  timer : Option Nat
  fired : Bool

def clockOf {T : Type} (race : ShutdownRace T) : RaceClock :=
  ⟨race.startedAt, race.timer, race.fired⟩

/-- The race that the loop awaits. -/
def clock? : WorkerPhase → Option RaceClock
  | .handling _ _ _ race => some (clockOf race)
  | .deleting _ _ race => some (clockOf race)
  | _ => none

/-- The timer of a race, against the clock of the worker and the deadline. -/
structure Timed (w : AnalyzeWorker) (clock : RaceClock) : Prop where
  set : clock.timer.isSome = true → w.shutdownRequested = true
  fired : clock.fired = true → clock.timer.isSome = true
  due : ∀ due deadline, clock.timer = some due →
    w.shutdownDeadlineAt = some deadline → due = deadline ∨ due ≤ w.now
  punctual : w.late = false → ∀ deadline, w.shutdownDeadlineAt = some deadline →
    w.now ≤ max deadline clock.startedAt ∧ ∀ due, clock.timer = some due →
      due ≤ max deadline clock.startedAt ∧ w.now ≤ due

/-- Whatever is awaited after a shutdown is awaited with the deadline. -/
structure Bounded (w : AnalyzeWorker) : Prop where
  deadline : w.shutdownRequested = true ↔ w.shutdownDeadlineAt.isSome = true
  timed : ∀ clock, clock? w.phase = some clock → Timed w clock

section Time

variable {clock : RaceClock} {T : Type} {race : ShutdownRace T}

theorem Timed.start (now : Nat) (h : w.now = now) :
    Timed w (clockOf (ShutdownRace.start now : ShutdownRace T)) := by
  refine ⟨nofun, nofun, nofun, fun _ deadline _ => ⟨?_, nofun⟩⟩
  rw [h]
  exact le_max_right deadline now

theorem Timed.arm (h : Timed w (clockOf race)) {deadline : Nat}
    (hdeadline : w.shutdownDeadlineAt = some deadline)
    (hrequested : w.shutdownRequested = true) :
    Timed w (clockOf (race.arm w.now w.shutdownDeadlineAt)) := by
  have hdue : (race.arm w.now w.shutdownDeadlineAt).timer =
      some (w.now + (deadline - w.now)) := by
    rw [ShutdownRace.arm, hdeadline]
    rfl
  refine ⟨fun _ => hrequested, fun _ => ?_, fun due deadline' hset hsome => ?_,
    fun hlate deadline' hsome => ?_⟩
  · rw [clockOf, hdue]
    rfl
  · rw [clockOf, hdue] at hset
    cases hset
    rw [hdeadline] at hsome
    cases hsome
    omega
  · obtain ⟨hnow, _⟩ := h.punctual hlate deadline' hsome
    refine ⟨hnow, fun due hset => ?_⟩
    rw [clockOf, hdue] at hset
    cases hset
    rw [hdeadline] at hsome
    cases hsome
    change w.now ≤ max deadline race.startedAt at hnow
    change _ ≤ max deadline race.startedAt ∧ _
    omega

theorem Timed.fire (h : Timed w (clockOf race))
    (hset : race.timer.isSome = true) : Timed w (clockOf race.fire) :=
  ⟨h.set, fun _ => hset, h.due, h.punctual⟩

theorem Timed.wait (h : Timed w clock)
    (hdeadline : w.shutdownRequested = true ↔
      w.shutdownDeadlineAt.isSome = true) (milliseconds : Nat)
    (hoverdue : w.overdue (w.now + milliseconds) = false →
      (w.shutdownRequested = true → clock.timer.isSome = true) ∧
        ∀ due, clock.timer = some due → w.now + milliseconds ≤ due) :
    Timed (w.wait milliseconds) clock := by
  refine ⟨h.set, h.fired, fun due deadline hset hsome => ?_,
    fun hlate deadline hsome => ?_⟩
  · rcases h.due due deadline hset hsome with hdue | hdue
    · exact .inl hdue
    · exact .inr (Nat.le_trans hdue (Nat.le_add_right _ _))
  · obtain ⟨hlate, hready⟩ := Bool.or_eq_false_iff.mp hlate
    obtain ⟨hset, hdue⟩ := hoverdue hready
    have hsome' : w.shutdownDeadlineAt = some deadline := hsome
    obtain ⟨_, htimer⟩ := h.punctual hlate deadline hsome
    have hrequested : w.shutdownRequested = true := by
      rw [hdeadline, hsome']
      rfl
    obtain ⟨due, hdue'⟩ := Option.isSome_iff_exists.mp (hset hrequested)
    have hbound := (htimer due hdue').1
    refine ⟨Nat.le_trans (hdue due hdue') hbound, fun other hother => ?_⟩
    exact ⟨(htimer other hother).1, hdue other hother⟩

theorem ShutdownRace.overdue_eq_false {requested : Bool} {now : Nat}
    (h : race.overdue requested now = false) :
    (requested = true → race.timer.isSome = true) ∧
      ∀ due, race.timer = some due → now ≤ due := by
  rw [ShutdownRace.overdue, Bool.or_eq_false_iff, Bool.or_eq_false_iff] at h
  obtain ⟨⟨_, hunset⟩, hdue⟩ := h
  refine ⟨fun hrequested => ?_, fun due hset => ?_⟩
  · rw [hrequested, Bool.true_and] at hunset
    rwa [Option.isNone_eq_false_iff] at hunset
  · rw [hset] at hdue
    simpa using hdue

/-- No race is awaited any more, or not yet. -/
theorem Bounded.leave (h : Bounded w)
    (hrequested : w'.shutdownRequested = w.shutdownRequested)
    (hdeadline : w'.shutdownDeadlineAt = w.shutdownDeadlineAt)
    (hclock : clock? w'.phase = none) : Bounded w' := by
  refine ⟨?_, fun clock hsome => ?_⟩
  · rw [hrequested, hdeadline]
    exact h.deadline
  · rw [hclock] at hsome
    cases hsome

theorem bounded_whileRunning
    (h : w.shutdownRequested = true ↔ w.shutdownDeadlineAt.isSome = true) :
    Bounded w.whileRunning := by
  rw [AnalyzeWorker.whileRunning]
  split <;> exact ⟨h, nofun⟩

theorem Bounded.afterReceive (h : Bounded w) (receive : Nat)
    (outcome : ReceiveOutcome) : Bounded (w.afterReceive receive outcome) := by
  cases outcome with
  | job job => exact h.leave rfl rfl rfl
  | empty | invalidMessage => exact bounded_whileRunning h.deadline
  | failed =>
      rw [AnalyzeWorker.afterReceive]
      split
      · exact bounded_whileRunning h.deadline
      · exact h.leave rfl rfl rfl

theorem Bounded.afterHandler (h : Bounded w) (receive : Nat)
    (job : ReceivedAnalyzeJob) (controller : Nat)
    (result : ShutdownOperationResult HandlerValue) :
    Bounded (w.afterHandler receive job controller result) := by
  cases result with
  | failed error => exact bounded_whileRunning h.deadline
  | timedOut => exact bounded_whileRunning h.deadline
  | completed value =>
      rw [AnalyzeWorker.afterHandler]
      split
      · exact bounded_whileRunning h.deadline
      · exact h.leave rfl rfl rfl

theorem Bounded.record (h : Bounded w) (e : WorkerEvent) :
    Bounded (w.record e) := by
  refine ⟨h.deadline, fun clock hsome => ?_⟩
  have htimed := h.timed clock hsome
  exact ⟨htimed.set, htimed.fired, htimed.due, htimed.punctual⟩

/-- A race goes on. -/
theorem Bounded.stay (h : Bounded w) {phase : WorkerPhase} {clock : RaceClock}
    (hclock : clock? phase = some clock) (htimed : Timed w clock)
    (hrequested : w'.shutdownRequested = w.shutdownRequested)
    (hdeadline : w'.shutdownDeadlineAt = w.shutdownDeadlineAt)
    (hnow : w'.now = w.now) (hlate : w'.late = w.late)
    (hphase : w'.phase = phase) : Bounded w' := by
  refine ⟨?_, fun other hother => ?_⟩
  · rw [hrequested, hdeadline]
    exact h.deadline
  · rw [hphase, hclock] at hother
    cases hother
    refine ⟨?_, htimed.fired, ?_, ?_⟩
    · rw [hrequested]
      exact htimed.set
    · rw [hdeadline, hnow]
      exact htimed.due
    · rw [hdeadline, hnow, hlate]
      exact htimed.punctual

theorem Bounded.wait (h : Bounded w) (milliseconds : Nat) :
    Bounded (w.wait milliseconds) := by
  refine ⟨h.deadline, fun clock hsome => ?_⟩
  have hsome : clock? w.phase = some clock := hsome
  apply (h.timed clock hsome).wait h.deadline
  intro hready
  rw [AnalyzeWorker.overdue] at hready
  generalize w.phase = phase at hsome hready
  cases phase with
  | handling receive job controller race =>
      cases hsome
      exact ShutdownRace.overdue_eq_false hready
  | deleting receive job race =>
      cases hsome
      exact ShutdownRace.overdue_eq_false hready
  | _ => cases hsome

theorem Bounded.requestShutdown (h : Bounded w) :
    Bounded (w.requestShutdown shutdownTimeoutMs) := by
  rw [AnalyzeWorker.requestShutdown]
  by_cases hshutdown : w.shutdownRequested = true
  · rw [if_pos hshutdown]
    exact h
  · rw [if_neg hshutdown]
    refine ⟨by simp [AnalyzeWorker.record], fun clock hsome => ?_⟩
    have htimed := h.timed clock hsome
    have hunset : ∀ due, clock.timer ≠ some due := by
      intro due hset
      exact hshutdown (htimed.set (by rw [hset]; rfl))
    refine ⟨fun hset => rfl, htimed.fired, fun due _ hset => ?_,
      fun _ deadline hdeadline => ⟨?_, fun due hset => ?_⟩⟩
    · exact absurd hset (hunset due)
    · cases hdeadline
      change w.now ≤ max (w.now + shutdownTimeoutMs) clock.startedAt
      omega
    · exact absurd hset (hunset due)

theorem Bounded.step (h : Bounded w) (hstep : Step shutdownTimeoutMs w w') :
    Bounded w' := by
  cases hstep with
  | run _ => exact bounded_whileRunning h.deadline
  | requestShutdown => exact h.requestShutdown
  | wait milliseconds => exact h.wait milliseconds
  | receiveSettles _ _ | sleepSettles _ => exact h.leave rfl rfl rfl
  | receiveResumes _ => exact h.afterReceive _ _
  | sleepResumes _ => exact bounded_whileRunning h.deadline
  | handlerStarts _ | deleteStarts _ =>
      exact h.stay rfl (.start w.now rfl) rfl rfl rfl rfl rfl
  | handlerSettles hphase _ _ | deleteSettles hphase _ _ =>
      have htimed := h.timed _ (by rw [hphase]; rfl)
      exact h.stay rfl htimed rfl rfl rfl rfl rfl
  | handlerArms hphase hrequested _ | deleteArms hphase hrequested _ =>
      have htimed := h.timed _ (by rw [hphase]; rfl)
      obtain ⟨deadline, hdeadline⟩ :=
        Option.isSome_iff_exists.mp (h.deadline.mp hrequested)
      exact h.stay rfl (htimed.arm hdeadline hrequested) rfl rfl rfl rfl rfl
  | handlerFires hphase hset _ | deleteFires hphase hset _ =>
      have htimed := h.timed _ (by rw [hphase]; rfl)
      exact h.stay rfl (htimed.fire (by rw [hset]; rfl)) rfl rfl rfl rfl rfl
  | handlerResumes _ _ => exact h.afterHandler _ _ _ _
  | deleteResumes _ _ => exact bounded_whileRunning h.deadline
  | handlerSettlesLate _ _ | deleteSettlesLate _ _ => exact h.record _

end Time

/-- Nothing of the current receive has been given up. -/
theorem Current.open {log : List WorkerEvent} {receiveBackoffMs receive : Nat}
    {phase : WorkerPhase} (h : Current log receiveBackoffMs phase)
    (hreceive : phase.receive? = some receive) (hmem : e ∈ lifeOf receive log) :
    e ≠ .handlerResult receive .timedOut ∧
      ∀ result, e ≠ .deleteResult receive result := by
  cases phase with
  | created | stopped => cases hreceive
  | receiving | received | sleeping | slept | starting =>
      cases hreceive
      rw [h.1] at hmem
      simp only [List.mem_cons, List.not_mem_nil, or_false] at hmem
      rcases hmem with rfl | rfl <;> simp
  | handling _ job _ race =>
      cases hreceive
      rw [h.1] at hmem
      cases hsettled : race.settled <;> simp [hsettled] at hmem
      · rcases hmem with rfl | rfl | rfl <;> simp
      · rcases hmem with rfl | rfl | rfl | rfl <;> simp
  | confirming _ job =>
      cases hreceive
      obtain ⟨value, _, hlife, _⟩ := h
      rw [hlife, acknowledgedLife] at hmem
      simp only [List.mem_cons, List.not_mem_nil, or_false] at hmem
      rcases hmem with rfl | rfl | rfl | rfl | rfl <;> simp
  | deleting _ job race =>
      cases hreceive
      obtain ⟨value, _, hlife, _⟩ := h
      rw [hlife, acknowledgedLife] at hmem
      cases hsettled : race.settled <;> simp [hsettled] at hmem
      · rcases hmem with rfl | rfl | rfl | rfl | rfl | rfl <;> simp
      · rcases hmem with rfl | rfl | rfl | rfl | rfl | rfl | rfl <;> simp

/-- A fired timer was set by a shutdown. -/
theorem Bounded.requested (h : Bounded w) {T : Type} {race : ShutdownRace T}
    (hclock : clock? w.phase = some (clockOf race))
    (hfired : race.fired = true) : w.shutdownRequested = true := by
  have htimed := h.timed _ hclock
  exact htimed.set (htimed.fired hfired)

theorem Keeps.step (h : Keeps w) (hbounded : Bounded w)
    (hstep : Step shutdownTimeoutMs w w') : Keeps w' := by
  cases hstep with
  | run hphase =>
      have hcurrent := h.current
      rw [hphase] at hcurrent
      apply Ready.whileRunning
      refine h.ready rfl rfl rfl hcurrent ?_
      rw [hphase]
      nofun
  | requestShutdown => exact keeps_requestShutdown h
  | wait milliseconds => exact ⟨⟨h.each, h.fresh, h.shutdown⟩, h.attended, h.current⟩
  | receiveSettles hphase outcome => exact keeps_receiveSettles h hphase outcome
  | receiveResumes hphase => exact keeps_afterReceive h hphase
  | sleepSettles hphase =>
      apply h.rephase (by rw [hphase]; rfl)
      have hcurrent := h.current
      rw [hphase] at hcurrent
      exact hcurrent
  | sleepResumes hphase => exact keeps_afterSleep h hphase
  | handlerStarts hphase => exact keeps_startHandler h hphase
  | handlerSettles hphase hpending outcome =>
      exact keeps_handlerSettles h hphase hpending outcome
  | handlerArms hphase _ _ | handlerFires hphase _ _ =>
      exact keeps_handlerTimer h hphase rfl
  | handlerResumes hphase hdecides =>
      exact keeps_afterHandler h hphase hdecides
        (hbounded.requested (by rw [hphase]; rfl))
  | @handlerSettlesLate receive hmem outcome =>
      have hallowed : Allowed w.log (.handlerSettled receive outcome) := trivial
      refine keeps_late h hallowed rfl (fun _ => rfl) (by simp)
        ⟨_, hmem, rfl⟩ fun hreceive => ?_
      exact (h.current.open hreceive (mem_lifeOf_iff.mpr ⟨hmem, rfl⟩)).1 rfl
  | deleteStarts hphase => exact keeps_startDelete h hphase
  | deleteSettles hphase hpending outcome =>
      exact keeps_deleteSettles h hphase hpending outcome
  | deleteArms hphase _ _ | deleteFires hphase _ _ =>
      exact keeps_deleteTimer h hphase rfl
  | deleteResumes hphase hdecides =>
      exact keeps_afterDelete h hphase hdecides
        (hbounded.requested (by rw [hphase]; rfl))
  | @deleteSettlesLate receive hmem outcome =>
      have hallowed : Allowed w.log (.deleteSettled receive outcome) := trivial
      refine keeps_late h hallowed rfl (fun _ => rfl) (by simp)
        ⟨_, hmem, rfl⟩ fun hreceive => ?_
      exact (h.current.open hreceive (mem_lifeOf_iff.mpr ⟨hmem, rfl⟩)).2 _ rfl

theorem Reachable.keeps (h : Reachable shutdownTimeoutMs w) :
    Keeps w ∧ Bounded w := by
  induction h with
  | create now =>
      refine ⟨⟨⟨each_nil, ?_, ?_⟩, ?_, rfl⟩, ?_, nofun⟩ <;>
        simp [AnalyzeWorker.create]
  | step _ hstep ih => exact ⟨ih.1.step ih.2 hstep, ih.2.step hstep⟩

/-- A job that was received and not handed over yet is about to be. -/
theorem Keeps.pending (h : Keeps w) {receive : Nat} {job : ReceivedAnalyzeJob}
    (hmem : .received receive (.job job) ∈ w.log) :
    .handleJob receive job ∈ w.log ∨ w.phase = .received receive (.job job) ∨
      ∃ controller, w.phase = .starting receive job controller := by
  by_cases hreceive : w.phase.receive? = some receive
  · have hcurrent := h.current
    rw [mem_log_iff rfl] at hmem ⊢
    generalize w.phase = phase at hreceive hcurrent ⊢
    cases phase with
    | created | stopped => cases hreceive
    | receiving | sleeping | slept =>
        cases hreceive
        rw [hcurrent.1] at hmem
        simp at hmem
    | received _ outcome =>
        cases hreceive
        rw [hcurrent.1] at hmem
        simp at hmem
        exact .inr (.inl (by rw [hmem]))
    | starting _ other controller =>
        cases hreceive
        rw [hcurrent.1] at hmem
        simp at hmem
        exact .inr (.inr ⟨controller, by rw [hmem]⟩)
    | handling _ other _ race =>
        cases hreceive
        rw [hcurrent.1] at hmem ⊢
        left
        cases hsettled : race.settled <;> simp [hsettled] at hmem ⊢ <;>
          exact hmem
    | confirming _ other =>
        cases hreceive
        obtain ⟨value, _, hlife, _⟩ := hcurrent
        rw [hlife, acknowledgedLife] at hmem ⊢
        simp at hmem ⊢
        exact hmem
    | deleting _ other race =>
        cases hreceive
        obtain ⟨value, _, hlife, _⟩ := hcurrent
        rw [hlife, acknowledgedLife] at hmem ⊢
        left
        cases hsettled : race.settled <;> simp [hsettled] at hmem ⊢ <;>
          exact hmem
  · exact .inl (h.attended receive job hmem hreceive).1

/-- It is handed over by the next steps of the loop, which wait for nothing. -/
theorem handsOver {receive : Nat} {job : ReceivedAnalyzeJob}
    (h : w.phase = .received receive (.job job) ∨
      ∃ controller, w.phase = .starting receive job controller) :
    ∃ w', Relation.ReflTransGen (Step shutdownTimeoutMs) w w' ∧
      w'.now = w.now ∧ .handleJob receive job ∈ w'.log := by
  rcases h with hreceived | ⟨controller, hstarting⟩
  · refine ⟨_, .tail (.single (.receiveResumes hreceived))
      (.handlerStarts rfl), rfl, ?_⟩
    exact List.mem_append_right _ (List.mem_singleton_self _)
  · refine ⟨_, .single (.handlerStarts hstarting), rfl, ?_⟩
    exact List.mem_append_right _ (List.mem_singleton_self _)

/-- A job whose handler was given up on is never deleted. -/
theorem Recorded.given_up (h : Recorded w) {receive : Nat}
    (hmem : .handlerResult receive .timedOut ∈ w.log)
    (receiptHandle : ReceiptHandle) :
    .deleteMessage receive receiptHandle ∉ w.log := by
  intro hdelete
  obtain ⟨before, after, hsplit⟩ := List.append_of_mem hdelete
  obtain ⟨_, value, _, _, _, _, hcompleted, hnever, _⟩ :=
    h.each before _ after hsplit
  rw [hsplit, List.mem_append, List.mem_cons] at hmem
  rcases hmem with hmem | heq | hmem
  · exact hnever hmem
  · cases heq
  · -- a second result, after the first
    obtain ⟨middle, rest, hrest⟩ := List.append_of_mem hmem
    obtain ⟨_, hfirst, _⟩ := h.each
      (before ++ .deleteMessage receive receiptHandle :: middle)
      (.handlerResult receive .timedOut) rest (by rw [hsplit, hrest]; simp)
    exact hfirst _ (List.mem_append_left _ hcompleted)

theorem whileRunning_stops (h : w.shutdownRequested = true) :
    w.whileRunning.phase = .stopped ∧ w.whileRunning.now = w.now := by
  rw [AnalyzeWorker.whileRunning, if_pos h]
  exact ⟨rfl, rfl⟩

theorem givesUp_handler (hrequested : w.shutdownRequested = true)
    {receive controller due : Nat} {job : ReceivedAnalyzeJob}
    {race : ShutdownRace HandlerValue}
    (hphase : w.phase = .handling receive job controller race)
    (hset : race.timer = some due) (hdue : due ≤ w.now) :
    ∃ w', Relation.ReflTransGen (Step shutdownTimeoutMs) w w' ∧
      w'.now = w.now ∧ w'.phase = .stopped := by
  have hfires : Step shutdownTimeoutMs w _ := .handlerFires hphase hset hdue
  refine ⟨_, .tail (.single hfires) (.handlerResumes rfl (.timedOut rfl)), ?_⟩
  exact And.symm (whileRunning_stops (by exact hrequested))

theorem givesUp_delete (hrequested : w.shutdownRequested = true)
    {receive due : Nat} {job : ReceivedAnalyzeJob} {race : ShutdownRace Unit}
    (hphase : w.phase = .deleting receive job race)
    (hset : race.timer = some due) (hdue : due ≤ w.now) :
    ∃ w', Relation.ReflTransGen (Step shutdownTimeoutMs) w w' ∧
      w'.now = w.now ∧ w'.phase = .stopped := by
  have hfires : Step shutdownTimeoutMs w _ := .deleteFires hphase hset hdue
  refine ⟨_, .tail (.single hfires) (.deleteResumes rfl (.timedOut rfl)), ?_⟩
  exact And.symm (whileRunning_stops (by exact hrequested))

/-- Once the deadline has passed, the loop ends by its own next steps, whatever
the handler or the delete does. -/
theorem Bounded.givesUp (h : Bounded w) {clock : RaceClock} {deadline : Nat}
    (hclock : clock? w.phase = some clock)
    (hdeadline : w.shutdownDeadlineAt = some deadline)
    (hpassed : deadline ≤ w.now) :
    ∃ w', Relation.ReflTransGen (Step shutdownTimeoutMs) w w' ∧
      w'.now = w.now ∧ w'.phase = .stopped := by
  have hrequested : w.shutdownRequested = true := by
    rw [h.deadline, hdeadline]
    rfl
  have htimed := h.timed clock hclock
  have hdue : ∀ due, clock.timer = some due → due ≤ w.now := by
    intro due hset
    rcases htimed.due due deadline hset hdeadline with rfl | hdue
    · exact hpassed
    · exact hdue
  have harmed : ∀ now, w.now + (w.shutdownDeadlineAt.getD now - w.now) ≤ w.now := by
    intro now
    rw [hdeadline, Option.getD_some]
    omega
  cases hphase : w.phase with
  | handling receive job controller race =>
      rw [hphase] at hclock
      cases hclock
      cases htimer : race.timer with
      | some due =>
          exact givesUp_handler hrequested hphase htimer (hdue due htimer)
      | none =>
          have harms : Step shutdownTimeoutMs w _ :=
            .handlerArms hphase hrequested htimer
          obtain ⟨w', hleads, hnow, hstopped⟩ : ∃ w',
              Relation.ReflTransGen (Step shutdownTimeoutMs)
                (w.move (.handling receive job controller
                  (race.arm w.now w.shutdownDeadlineAt))) w' ∧
              w'.now = w.now ∧ w'.phase = .stopped :=
            givesUp_handler hrequested rfl rfl (harmed w.now)
          exact ⟨w', .head harms hleads, hnow, hstopped⟩
  | deleting receive job race =>
      rw [hphase] at hclock
      cases hclock
      cases htimer : race.timer with
      | some due =>
          exact givesUp_delete hrequested hphase htimer (hdue due htimer)
      | none =>
          have harms : Step shutdownTimeoutMs w _ :=
            .deleteArms hphase hrequested htimer
          obtain ⟨w', hleads, hnow, hstopped⟩ : ∃ w',
              Relation.ReflTransGen (Step shutdownTimeoutMs)
                (w.move (.deleting receive job
                  (race.arm w.now w.shutdownDeadlineAt))) w' ∧
              w'.now = w.now ∧ w'.phase = .stopped :=
            givesUp_delete hrequested rfl rfl (harmed w.now)
          exact ⟨w', .head harms hleads, hnow, hstopped⟩
  | _ =>
      rw [hphase] at hclock
      cases hclock

theorem whileRunning_deadline (w : AnalyzeWorker) :
    w.whileRunning.shutdownDeadlineAt = w.shutdownDeadlineAt := by
  rw [AnalyzeWorker.whileRunning]
  split <;> rfl

/-- The deadline is set once. -/
theorem Step.deadline (h : Step shutdownTimeoutMs w w') (hbounded : Bounded w)
    {deadline : Nat} (hdeadline : w.shutdownDeadlineAt = some deadline) :
    w'.shutdownDeadlineAt = some deadline := by
  rw [← hdeadline]
  cases h with
  | run _ | sleepResumes _ | deleteResumes _ _ => exact whileRunning_deadline _
  | requestShutdown =>
      have hrequested : w.shutdownRequested = true := by
        rw [hbounded.deadline, hdeadline]
        rfl
      rw [AnalyzeWorker.requestShutdown, if_pos hrequested]
  | @receiveResumes _ outcome _ =>
      cases outcome with
      | job job => rfl
      | empty | invalidMessage => exact whileRunning_deadline _
      | failed =>
          rw [afterReceive]
          split
          · exact whileRunning_deadline _
          · rfl
  | @handlerResumes _ _ _ _ result _ _ =>
      cases result with
      | failed _ | timedOut => exact whileRunning_deadline _
      | completed value =>
          rw [afterHandler]
          split
          · exact whileRunning_deadline _
          · rfl
  | wait _ | receiveSettles _ _ | sleepSettles _ | handlerStarts _
  | handlerSettles _ _ _ | handlerArms _ _ _ | handlerFires _ _ _
  | handlerSettlesLate _ _ | deleteStarts _ | deleteSettles _ _ _
  | deleteArms _ _ _ | deleteFires _ _ _ | deleteSettlesLate _ _ => rfl

theorem whileRunning_requested (w : AnalyzeWorker)
    (h : w.whileRunning.phase = .stopped) :
    w.whileRunning.shutdownRequested = true := by
  by_cases hrequested : w.shutdownRequested = true
  · rw [AnalyzeWorker.whileRunning, if_pos hrequested]
    exact hrequested
  · rw [AnalyzeWorker.whileRunning, if_neg hrequested] at h
    cases h

/-- Only a shutdown ends the loop. -/
theorem Step.stopped (h : Step shutdownTimeoutMs w w')
    (hw : w.phase = .stopped → w.shutdownRequested = true) :
    w'.phase = .stopped → w'.shutdownRequested = true := by
  cases h with
  | run _ | sleepResumes _ | deleteResumes _ _ => exact whileRunning_requested _
  | requestShutdown =>
      rw [AnalyzeWorker.requestShutdown]
      split
      · exact hw
      · exact fun _ => rfl
  | @receiveResumes _ outcome _ =>
      cases outcome with
      | job job => nofun
      | empty | invalidMessage => exact whileRunning_requested _
      | failed =>
          rw [afterReceive]
          split
          · exact whileRunning_requested _
          · nofun
  | @handlerResumes _ _ _ _ result _ _ =>
      cases result with
      | failed _ | timedOut => exact whileRunning_requested _
      | completed value =>
          rw [afterHandler]
          split
          · exact whileRunning_requested _
          · nofun
  | receiveSettles _ _ | sleepSettles _ | handlerStarts _
  | handlerSettles _ _ _ | handlerArms _ _ _ | handlerFires _ _ _
  | deleteStarts _ | deleteSettles _ _ _ | deleteArms _ _ _
  | deleteFires _ _ _ => nofun
  | wait _ | handlerSettlesLate _ _ | deleteSettlesLate _ _ => exact hw

theorem Reachable.stopped (h : Reachable shutdownTimeoutMs w) :
    w.phase = .stopped → w.shutdownRequested = true := by
  induction h with
  | create now => nofun
  | step _ hstep ih => exact hstep.stopped ih

/-- The protocol of the loop, at any moment of a run. -/
structure LoopProtocol (shutdownTimeoutMs : Nat) (w : AnalyzeWorker) : Prop where
  allowed : Each Allowed w.log
  handedOver : ∀ receive job, .received receive (.job job) ∈ w.log →
    .handleJob receive job ∈ w.log ∨ w.phase = .received receive (.job job) ∨
      ∃ controller, w.phase = .starting receive job controller
  handsOver : ∀ receive job, (w.phase = .received receive (.job job) ∨
      ∃ controller, w.phase = .starting receive job controller) →
    ∃ w', Relation.ReflTransGen (Step shutdownTimeoutMs) w w' ∧
      w'.now = w.now ∧ .handleJob receive job ∈ w'.log
  givenUp : ∀ receive, .handlerResult receive .timedOut ∈ w.log →
    ∀ receiptHandle, .deleteMessage receive receiptHandle ∉ w.log
  stopped : w.phase = .stopped → w.shutdownRequested = true
  requested : w.shutdownRequested = true ↔ .requestShutdown ∈ w.log
  deadline : w.shutdownRequested = true ↔ w.shutdownDeadlineAt.isSome = true
  shared : ∀ deadline w', w.shutdownDeadlineAt = some deadline →
    Step shutdownTimeoutMs w w' → w'.shutdownDeadlineAt = some deadline
  timer : ∀ clock due deadline, clock? w.phase = some clock →
    clock.timer = some due → w.shutdownDeadlineAt = some deadline →
      due = deadline ∨ due ≤ w.now
  waits : w.late = false → ∀ clock deadline, clock? w.phase = some clock →
    w.shutdownDeadlineAt = some deadline →
      w.now ≤ max deadline clock.startedAt
  givesUp : ∀ clock deadline, clock? w.phase = some clock →
    w.shutdownDeadlineAt = some deadline → deadline ≤ w.now →
      ∃ w', Relation.ReflTransGen (Step shutdownTimeoutMs) w w' ∧
        w'.now = w.now ∧ w'.phase = .stopped

/-- Whatever receives, handlers and deletes come to, and whenever a shutdown is
requested, the loop keeps its protocol. -/
theorem run_protocol (h : Reachable shutdownTimeoutMs w) :
    LoopProtocol shutdownTimeoutMs w := by
  obtain ⟨hkeeps, hbounded⟩ := h.keeps
  exact {
    allowed := hkeeps.each
    handedOver := fun _ _ hmem => hkeeps.pending hmem
    handsOver := fun _ _ hphase => AnalyzeWorker.handsOver hphase
    givenUp := fun _ hmem => hkeeps.given_up hmem
    stopped := h.stopped
    requested := hkeeps.shutdown
    deadline := hbounded.deadline
    shared := fun _ _ hdeadline hstep => hstep.deadline hbounded hdeadline
    timer := fun clock due deadline hclock hset hdeadline =>
      (hbounded.timed clock hclock).due due deadline hset hdeadline
    waits := fun hlate clock deadline hclock hdeadline =>
      ((hbounded.timed clock hclock).punctual hlate deadline hdeadline).1
    givesUp := fun _ _ hclock hdeadline hpassed =>
      hbounded.givesUp hclock hdeadline hpassed }

/-- The first job is handled and its message deleted. -/
theorem run_protocol_deleted : ∃ w, Reachable 30000 w ∧
    .deleteMessage 0 ⟨⟨0⟩, 0⟩ ∈ w.log ∧ ∃ value : HandlerValue,
      .handlerSettled 0 (.ok value) ∈ w.log ∧ value ≠ some .retry := by
  have hcreated : Reachable 30000 (AnalyzeWorker.create 0) := .create 0
  have hreceived := (hcreated.step (.run rfl)).step
    (.receiveSettles rfl (.job ⟨⟨0⟩, ⟨⟨0⟩, 0⟩⟩))
  have hhandling := (hreceived.step (.receiveResumes rfl)).step
    (.handlerStarts rfl)
  have hsettled := hhandling.step (.handlerSettles rfl rfl (.ok none))
  have hconfirming := hsettled.step (.handlerResumes rfl (.completed rfl))
  have hdeleting := hconfirming.step (.deleteStarts rfl)
  have hmem : WorkerEvent.deleteMessage 0 ⟨⟨0⟩, 0⟩ ∈
      [WorkerEvent.receiveOne 0, .received 0 (.job ⟨⟨0⟩, ⟨⟨0⟩, 0⟩⟩),
        .handleJob 0 ⟨⟨0⟩, ⟨⟨0⟩, 0⟩⟩, .handlerSettled 0 (.ok none),
        .handlerResult 0 (.completed none), .deleteMessage 0 ⟨⟨0⟩, 0⟩] := by
    simp
  obtain ⟨before, after, hsplit⟩ := List.append_of_mem hmem
  obtain ⟨_, value, _, _, hvalue, hretry, _⟩ :=
    (run_protocol hdeleting).allowed before _ after hsplit
  have hsettled' : WorkerEvent.handlerSettled 0 (.ok value) ∈
      before ++ .deleteMessage 0 ⟨⟨0⟩, 0⟩ :: after :=
    List.mem_append_left _ hvalue
  rw [← hsplit] at hsettled'
  exact ⟨_, hdeleting, hmem, value, hsettled', hretry⟩

end AnalyzeWorker

/-- The result of a handler that always answers ACK or RETRY. -/
def ShutdownOperationResult.disposed :
    ShutdownOperationResult AnalyzeJobDisposition →
      ShutdownOperationResult HandlerValue
  | .completed disposition => .completed (some disposition)
  | .failed error => .failed error
  | .timedOut => .timedOut

/-- `processJob` with the handler of the service deletes exactly where the loop
does. -/
theorem processJob_eq (leaseSeconds : Option ℚ) (job : ReceivedAnalyzeJob) :
    processJob leaseSeconds job = (do
      let result ←
        runWithShutdownTimeout (createAnalyzeJobHandler leaseSeconds job)
      if acknowledges result.disposed then
        let _ ← runWithShutdownTimeout
          (request (.deleteMessage job.receiptHandle))
        return
      else return) := by
  rw [processJob]
  congr 1
  funext result
  rcases result with (_ | _) | _ | _ <;> rfl

theorem AnalyzeWorker.afterHandler_confirming_iff (w : AnalyzeWorker)
    (receive controller : Nat) (job : ReceivedAnalyzeJob)
    (result : ShutdownOperationResult HandlerValue) :
    (w.afterHandler receive job controller result).phase =
      .confirming receive job ↔ acknowledges result = true := by
  have hloop : ∀ w : AnalyzeWorker,
      w.whileRunning.phase ≠ .confirming receive job := by
    intro w
    rw [AnalyzeWorker.whileRunning]
    split <;> nofun
  cases result with
  | failed _ | timedOut =>
      exact ⟨fun h => absurd h (hloop _), nofun⟩
  | completed value =>
      rw [AnalyzeWorker.afterHandler]
      by_cases hretry : value = some .retry
      · rw [if_pos hretry]
        refine ⟨fun h => absurd h (hloop _), fun h => ?_⟩
        simp [acknowledges, hretry] at h
      · rw [if_neg hretry]
        simp [acknowledges, hretry, AnalyzeWorker.move]

end StatementAnalyzer
