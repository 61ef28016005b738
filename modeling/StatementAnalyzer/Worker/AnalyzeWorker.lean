/-
The loop of the worker as a machine that steps from one awaited promise to the
next.  Promises settle, `requestShutdown` is called and time passes between any
two steps.  The record of what has happened, and whether a callback that was
ready had to wait, are only kept for reasoning.
-/
import StatementAnalyzer.Worker.AnalyzeJobHandler

namespace StatementAnalyzer

open Async

def INITIAL_RECEIVE_BACKOFF_MS : Nat := 1000

def MAX_RECEIVE_BACKOFF_MS : Nat := 30000

def RECEIVE_BACKOFF_MULTIPLIER : Nat := 2

/-- What `receiveOne` settles with. -/
inductive ReceiveOutcome where
  | job (job : ReceivedAnalyzeJob)
  | empty
  | invalidMessage
  | failed

/-- What `handleJob` fulfils with: nothing, ACK or RETRY. -/
abbrev HandlerValue : Type := Option AnalyzeJobDisposition

/-- What happens in a run.  A receive is named by its AbortController, and what
happens to the job that it brought by that receive. -/
inductive WorkerEvent where
  | receiveOne (receive : Nat)
  | received (receive : Nat) (outcome : ReceiveOutcome)
  | sleep (milliseconds : Nat)
  | handleJob (receive : Nat) (job : ReceivedAnalyzeJob)
  | handlerSettled (receive : Nat) (outcome : Except Thrown HandlerValue)
  | handlerResult (receive : Nat)
      (result : ShutdownOperationResult HandlerValue)
  | deleteMessage (receive : Nat) (receiptHandle : ReceiptHandle)
  | deleteSettled (receive : Nat) (outcome : Except Thrown Unit)
  | deleteResult (receive : Nat) (result : ShutdownOperationResult Unit)
  | requestShutdown
  | stopped

/-- The race in `runWithShutdownTimeout`: how the operation has settled, when
the timer is due, if it is set, and whether it has fired. -/
structure ShutdownRace (T : Type) where
  startedAt : Nat
  settled : Option (Except Thrown T)
  timer : Option Nat
  fired : Bool

namespace ShutdownRace

variable {T : Type}

def start (now : Nat) : ShutdownRace T := ⟨now, none, none, false⟩

def settle (race : ShutdownRace T) (outcome : Except Thrown T) :
    ShutdownRace T :=
  { race with settled := some outcome }

/-- `setTimeout` for what remains until the deadline. -/
def arm (race : ShutdownRace T) (now : Nat) (shutdownDeadlineAt : Option Nat) :
    ShutdownRace T :=
  let remainingMs := shutdownDeadlineAt.getD now - now
  { race with timer := some (now + remainingMs) }

def fire (race : ShutdownRace T) : ShutdownRace T :=
  { race with fired := true }

/-- How the race may come out.  Where the operation has settled and the timer
has fired before the race is looked at, either may have won. -/
inductive Decides (race : ShutdownRace T) : ShutdownOperationResult T → Prop
  | completed {value : T} (h : race.settled = some (.ok value)) :
      Decides race (.completed value)
  | failed {error : Thrown} (h : race.settled = some (.error error)) :
      Decides race (.failed error)
  | timedOut (h : race.fired = true) : Decides race .timedOut

/-- A callback of the race is ready to run, or will be before `now`. -/
def overdue (race : ShutdownRace T) (shutdownRequested : Bool) (now : Nat) :
    Bool :=
  race.settled.isSome || race.fired ||
    (shutdownRequested && race.timer.isNone) ||
    race.timer.any fun due => due < now

end ShutdownRace

/-- Where `run` stands: the promise that it awaits, or a settled one that it
has not looked at yet. -/
inductive WorkerPhase where
  | created
  | receiving (receive : Nat)
  | received (receive : Nat) (outcome : ReceiveOutcome)
  | sleeping (receive : Nat)
  | slept (receive : Nat)
  | starting (receive : Nat) (job : ReceivedAnalyzeJob) (controller : Nat)
  | handling (receive : Nat) (job : ReceivedAnalyzeJob) (controller : Nat)
      (race : ShutdownRace HandlerValue)
  | confirming (receive : Nat) (job : ReceivedAnalyzeJob)
  | deleting (receive : Nat) (job : ReceivedAnalyzeJob)
      (race : ShutdownRace Unit)
  | stopped

structure AnalyzeWorker where
  now : Nat
  shutdownRequested : Bool
  shutdownDeadlineAt : Option Nat
  receiveAbortController : Option Nat
  activeHandlerAbortController : Option Nat
  controllers : Nat
  aborted : List Nat
  receiveBackoffMs : Nat
  phase : WorkerPhase
  late : Bool
  log : List WorkerEvent

namespace AnalyzeWorker

/-- A new worker. -/
def create (now : Nat) : AnalyzeWorker :=
  ⟨now, false, none, none, none, 0, [], INITIAL_RECEIVE_BACKOFF_MS, .created,
    false, []⟩

def record (w : AnalyzeWorker) (e : WorkerEvent) : AnalyzeWorker :=
  { w with log := w.log ++ [e] }

def move (w : AnalyzeWorker) (phase : WorkerPhase) : AnalyzeWorker :=
  { w with phase := phase }

def requestShutdown (shutdownTimeoutMs : Nat) (w : AnalyzeWorker) :
    AnalyzeWorker :=
  if w.shutdownRequested then w
  else
    { w with
      shutdownRequested := true
      shutdownDeadlineAt := some (w.now + shutdownTimeoutMs)
      aborted := w.aborted ++ w.receiveAbortController.toList ++
        w.activeHandlerAbortController.toList }.record .requestShutdown

/-- `while (!this.shutdownRequested)`, and the receive that begins its body. -/
def whileRunning (w : AnalyzeWorker) : AnalyzeWorker :=
  if w.shutdownRequested then (w.move .stopped).record .stopped
  else
    { w with
      receiveAbortController := some w.controllers
      controllers := w.controllers + 1
      phase := .receiving w.controllers }.record (.receiveOne w.controllers)

/-- The `finally` block of the receive. -/
def clearReceive (w : AnalyzeWorker) (receive : Nat) : AnalyzeWorker :=
  { w with
    receiveAbortController :=
      if w.receiveAbortController = some receive then none
      else w.receiveAbortController }

/-- A receive that brought no error resets the backoff. -/
def resetBackoff (w : AnalyzeWorker) : AnalyzeWorker :=
  { w with receiveBackoffMs := INITIAL_RECEIVE_BACKOFF_MS }

/-- `processJob` up to the call of `handleJob`, which is made one microtask
later. -/
def processJob (w : AnalyzeWorker) (receive : Nat) (job : ReceivedAnalyzeJob) :
    AnalyzeWorker :=
  { w with
    activeHandlerAbortController := some w.controllers
    controllers := w.controllers + 1
    phase := .starting receive job w.controllers }

/-- What follows `await receiveOne`. -/
def afterReceive (w : AnalyzeWorker) (receive : Nat) :
    ReceiveOutcome → AnalyzeWorker
  | .job job => (w.clearReceive receive).resetBackoff.processJob receive job
  | .empty => (w.clearReceive receive).resetBackoff.whileRunning
  | .invalidMessage => (w.clearReceive receive).whileRunning
  | .failed =>
      if w.shutdownRequested then (w.clearReceive receive).whileRunning
      else (w.move (.sleeping receive)).record (.sleep w.receiveBackoffMs)

/-- What follows `await waitForRetry`. -/
def afterSleep (w : AnalyzeWorker) (receive : Nat) : AnalyzeWorker :=
  { w.clearReceive receive with
    receiveBackoffMs := min (w.receiveBackoffMs * RECEIVE_BACKOFF_MULTIPLIER)
      MAX_RECEIVE_BACKOFF_MS }.whileRunning

def startHandler (w : AnalyzeWorker) (receive : Nat) (job : ReceivedAnalyzeJob)
    (controller : Nat) : AnalyzeWorker :=
  (w.move (.handling receive job controller (.start w.now))).record
    (.handleJob receive job)

/-- The `finally` block of the handler. -/
def clearHandler (w : AnalyzeWorker) (controller : Nat) : AnalyzeWorker :=
  { w with
    activeHandlerAbortController :=
      if w.activeHandlerAbortController = some controller then none
      else w.activeHandlerAbortController }

/-- What `processJob` does once the race of the handler is decided. -/
def afterHandler (w : AnalyzeWorker) (receive : Nat) (job : ReceivedAnalyzeJob)
    (controller : Nat) (result : ShutdownOperationResult HandlerValue) :
    AnalyzeWorker :=
  let w := (w.clearHandler controller).record (.handlerResult receive result)
  match result with
  | .failed _ => w.whileRunning
  | .timedOut => { w with aborted := w.aborted ++ [controller] }.whileRunning
  | .completed value =>
      if value = some .retry then w.whileRunning
      else w.move (.confirming receive job)

def startDelete (w : AnalyzeWorker) (receive : Nat) (job : ReceivedAnalyzeJob) :
    AnalyzeWorker :=
  (w.move (.deleting receive job (.start w.now))).record
    (.deleteMessage receive job.receiptHandle)

/-- However the delete comes out, the loop goes on. -/
def afterDelete (w : AnalyzeWorker) (receive : Nat)
    (result : ShutdownOperationResult Unit) : AnalyzeWorker :=
  (w.record (.deleteResult receive result)).whileRunning

/-- A callback is ready to run, or will be before `now`. -/
def overdue (w : AnalyzeWorker) (now : Nat) : Bool :=
  match w.phase with
  | .created | .receiving _ | .stopped => false
  | .received _ _ | .slept _ | .starting _ _ _ | .confirming _ _ => true
  | .sleeping _ => w.shutdownRequested
  | .handling _ _ _ race => race.overdue w.shutdownRequested now
  | .deleting _ _ race => race.overdue w.shutdownRequested now

/-- Time passes. -/
def wait (w : AnalyzeWorker) (milliseconds : Nat) : AnalyzeWorker :=
  { w with
    now := w.now + milliseconds
    late := w.late || w.overdue (w.now + milliseconds) }

/-- One step of the worker, or of what it waits for.  A handler that the worker
has given up on may still settle. -/
inductive Step (shutdownTimeoutMs : Nat) (w : AnalyzeWorker) :
    AnalyzeWorker → Prop
  | run (h : w.phase = .created) : Step shutdownTimeoutMs w w.whileRunning
  | requestShutdown :
      Step shutdownTimeoutMs w (w.requestShutdown shutdownTimeoutMs)
  | wait (milliseconds : Nat) : Step shutdownTimeoutMs w (w.wait milliseconds)
  | receiveSettles {receive : Nat} (h : w.phase = .receiving receive)
      (outcome : ReceiveOutcome) :
      Step shutdownTimeoutMs w
        ((w.move (.received receive outcome)).record
          (.received receive outcome))
  | receiveResumes {receive : Nat} {outcome : ReceiveOutcome}
      (h : w.phase = .received receive outcome) :
      Step shutdownTimeoutMs w (w.afterReceive receive outcome)
  | sleepSettles {receive : Nat} (h : w.phase = .sleeping receive) :
      Step shutdownTimeoutMs w (w.move (.slept receive))
  | sleepResumes {receive : Nat} (h : w.phase = .slept receive) :
      Step shutdownTimeoutMs w (w.afterSleep receive)
  | handlerStarts {receive : Nat} {job : ReceivedAnalyzeJob} {controller : Nat}
      (h : w.phase = .starting receive job controller) :
      Step shutdownTimeoutMs w (w.startHandler receive job controller)
  | handlerSettles {receive : Nat} {job : ReceivedAnalyzeJob}
      {controller : Nat} {race : ShutdownRace HandlerValue}
      (h : w.phase = .handling receive job controller race)
      (pending : race.settled = none) (outcome : Except Thrown HandlerValue) :
      Step shutdownTimeoutMs w
        ((w.move (.handling receive job controller (race.settle outcome))).record
          (.handlerSettled receive outcome))
  | handlerArms {receive : Nat} {job : ReceivedAnalyzeJob}
      {controller : Nat} {race : ShutdownRace HandlerValue}
      (h : w.phase = .handling receive job controller race)
      (requested : w.shutdownRequested = true) (unset : race.timer = none) :
      Step shutdownTimeoutMs w
        (w.move (.handling receive job controller
          (race.arm w.now w.shutdownDeadlineAt)))
  | handlerFires {receive : Nat} {job : ReceivedAnalyzeJob}
      {controller due : Nat} {race : ShutdownRace HandlerValue}
      (h : w.phase = .handling receive job controller race)
      (set : race.timer = some due) (hdue : due ≤ w.now) :
      Step shutdownTimeoutMs w
        (w.move (.handling receive job controller race.fire))
  | handlerResumes {receive : Nat} {job : ReceivedAnalyzeJob}
      {controller : Nat} {race : ShutdownRace HandlerValue}
      {result : ShutdownOperationResult HandlerValue}
      (h : w.phase = .handling receive job controller race)
      (decides : race.Decides result) :
      Step shutdownTimeoutMs w (w.afterHandler receive job controller result)
  | handlerSettlesLate {receive : Nat}
      (h : .handlerResult receive .timedOut ∈ w.log)
      (outcome : Except Thrown HandlerValue) :
      Step shutdownTimeoutMs w (w.record (.handlerSettled receive outcome))
  | deleteStarts {receive : Nat} {job : ReceivedAnalyzeJob}
      (h : w.phase = .confirming receive job) :
      Step shutdownTimeoutMs w (w.startDelete receive job)
  | deleteSettles {receive : Nat} {job : ReceivedAnalyzeJob}
      {race : ShutdownRace Unit} (h : w.phase = .deleting receive job race)
      (pending : race.settled = none) (outcome : Except Thrown Unit) :
      Step shutdownTimeoutMs w
        ((w.move (.deleting receive job (race.settle outcome))).record
          (.deleteSettled receive outcome))
  | deleteArms {receive : Nat} {job : ReceivedAnalyzeJob}
      {race : ShutdownRace Unit} (h : w.phase = .deleting receive job race)
      (requested : w.shutdownRequested = true) (unset : race.timer = none) :
      Step shutdownTimeoutMs w
        (w.move (.deleting receive job (race.arm w.now w.shutdownDeadlineAt)))
  | deleteFires {receive due : Nat} {job : ReceivedAnalyzeJob}
      {race : ShutdownRace Unit} (h : w.phase = .deleting receive job race)
      (set : race.timer = some due) (hdue : due ≤ w.now) :
      Step shutdownTimeoutMs w (w.move (.deleting receive job race.fire))
  | deleteResumes {receive : Nat} {job : ReceivedAnalyzeJob}
      {race : ShutdownRace Unit} {result : ShutdownOperationResult Unit}
      (h : w.phase = .deleting receive job race)
      (decides : race.Decides result) :
      Step shutdownTimeoutMs w (w.afterDelete receive result)
  | deleteSettlesLate {receive : Nat}
      (h : .deleteResult receive .timedOut ∈ w.log)
      (outcome : Except Thrown Unit) :
      Step shutdownTimeoutMs w (w.record (.deleteSettled receive outcome))

inductive Reachable (shutdownTimeoutMs : Nat) : AnalyzeWorker → Prop
  | create (now : Nat) : Reachable shutdownTimeoutMs (create now)
  | step {w w' : AnalyzeWorker} (h : Reachable shutdownTimeoutMs w)
      (hstep : Step shutdownTimeoutMs w w') : Reachable shutdownTimeoutMs w'

end AnalyzeWorker

end StatementAnalyzer
