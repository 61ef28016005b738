/-
Every program of the service follows the protocol, so in every run the
statements are orderly and every program that settles has done its part.
-/
import StatementAnalyzer.Database.Runs
import StatementAnalyzer.Service.Jobs

namespace StatementAnalyzer

open Async

/-- What a program of the service has done once it has settled. -/
structure Concluded (t : Tid) (result : Except Thrown Outcome) (w : World) :
    Prop where
  finished : ∀ id, ¬Pending (marks t (w id).history)
  accepted : ∀ response, result = .ok (.responded response) →
    response.status = 202 → ∃ id, response.body = .uploadStatus id .queued ∧
      marks t (w id).history = [.sent, .queued]

theorem Unmarked.not_pending {t : Tid} {w : World} (h : Unmarked t w)
    (id : Uuid) : ¬Pending (marks t (w id).history) := by
  rw [h id]
  exact not_pending_nil

theorem follows_respond {t : Tid} {w : World} {endpoint : Program Response}
    (h : Follows t endpoint (Answered t) w) :
    Follows t (respond endpoint) (Concluded t) w := by
  rw [respond, Proc.bind_eq]
  refine Protocol.wp.andThen (Protocol.wp.mono h fun result w₁ hanswered => ?_)
  have hstable : ∀ w₂, w₁.Moves (fun e => e.thread ≠ some t) w₂ →
      ∀ id, ¬Pending (marks t (w₂ id).history) := by
    intro w₂ hmoves id
    rw [marks_of_moves hmoves id]
    exact hanswered.finished id
  cases result with
  | error error =>
      exact Protocol.wp.settled fun w₂ hrely _ _ =>
        ⟨hstable w₂ hrely, by rintro _ ⟨⟩⟩
  | ok response =>
      refine Protocol.wp.settled fun w₂ hrely _ _ => ⟨hstable w₂ hrely, ?_⟩
      rintro _ ⟨⟩ hstatus
      obtain ⟨id, hbody, hmarks⟩ := hanswered.accepted response rfl hstatus
      exact ⟨id, hbody, (marks_of_moves hrely id).trans hmarks⟩

theorem follows_processed {t : Tid} {w : World} {p : Program Unit}
    (h : Follows t p (fun _ w' => Unmarked t w') w) :
    Follows t (do p; return .processed) (Concluded t) w := by
  rw [Proc.bind_eq]
  refine Protocol.wp.andThen (Protocol.wp.mono h fun result w₁ hunmarked => ?_)
  cases result with
  | error error =>
      exact Protocol.wp.settled fun w₂ hrely _ _ =>
        ⟨(Unmarked.stable t w₁ w₂ hrely hunmarked).not_pending, by rintro _ ⟨⟩⟩
  | ok value =>
      exact Protocol.wp.settled fun w₂ hrely _ _ =>
        ⟨(Unmarked.stable t w₁ w₂ hrely hunmarked).not_pending, by rintro _ ⟨⟩⟩

/-- Every program of the service follows the protocol. -/
theorem Serves.follows {t : Tid} {w : World} {p : Program Outcome}
    (h : Serves p w) (hunmarked : Unmarked t w) :
    Follows t p (Concluded t) w := by
  cases h with
  | createStatement _ _ =>
      exact follows_respond (follows_createStatement hunmarked)
  | completeUpload _ => exact follows_respond (follows_completeUpload hunmarked)
  | analyzeStatement _ =>
      exact follows_respond (follows_analyzeStatement hunmarked)
  | processJob leaseSeconds job hnames hsent =>
      have hreceived : Received job.statementId w := by
        intro hnil
        rw [hnil] at hsent
        exact absurd hsent (Nat.not_lt_zero _)
      exact follows_processed (follows_processJob hnames hunmarked hreceived)
  | reading p hreads =>
      exact follows_processed
        (follows_calls hreads (Unmarked.stable t) hunmarked)

section CallSystem

variable {a : Config World Call Call.Answer Thrown Outcome}

/-- A thread that has not started has done nothing. -/
theorem idle_unmarked (h : (callSystem Serves).Reachable a) {t : Tid}
    (hidle : a.threads t = .idle) : Unmarked t a.world := by
  induction h with
  | init h =>
      cases h
      exact fun _ => rfl
  | step _ hstep ih =>
      obtain ⟨hbefore, hother⟩ := hstep.idle hidle
      exact Unmarked.stable t _ _
        ((callInterference Serves).step hstep hother) (ih hbefore)

/-- In every reachable configuration the statements are orderly, and every
thread follows the protocol to its end. -/
theorem service_sound (h : (callSystem Serves).Reachable a) :
    (∀ id, (a.world id).Orderly) ∧ ∀ t p, a.threads t = .running p →
      Follows t p (Concluded t) a.world := by
  refine serviceProtocol.sound (Q := Concluded) ?_ h
  rintro c t p w hc hidle hinv ⟨hserves, rfl⟩ _
  exact ⟨hinv, hserves.follows (idle_unmarked hc hidle)⟩

theorem service_concluded (h : (callSystem Serves).Reachable a) {t : Tid}
    {result : Except Thrown Outcome}
    (hsettled : a.threads t = .running (.settled result)) :
    Concluded t result a.world := by
  obtain ⟨horderly, hfollows⟩ := service_sound h
  exact hfollows t _ hsettled a.world (.refl _ _) (reachable_genuine h)
    horderly

end CallSystem

section Service

variable {c : Config Store Query Query.Answer Thrown Outcome}

theorem service_orderly (h : (querySystem repository Serves).Reachable c)
    (id : Uuid) : (c.world.statements id).Orderly := by
  obtain ⟨a, ha, hrefines⟩ := (repositoryRefinement Serves).reachable h
  have hworld : a.world = c.world.statements := hrefines.world
  rw [← hworld]
  exact (service_sound ha).1 id

/-- A settled thread has done what it had to. -/
theorem service_settled (h : (querySystem repository Serves).Reachable c)
    {t : Tid} {result : Except Thrown Outcome}
    (hsettled : c.threads t = .running (.settled result)) :
    Concluded t result c.world.statements := by
  obtain ⟨a, ha, hrefines⟩ := (repositoryRefinement Serves).reachable h
  have hworld : a.world = c.world.statements := hrefines.world
  have hthread := hrefines.threads t
  rw [hsettled] at hthread
  generalize hq : a.threads t = thread at hthread
  cases hthread with
  | running hsim =>
      rw [hsim.settled (repositoryRefinement Serves).atomic] at hq
      exact hworld ▸ service_concluded ha hq

/-- A thread with a pending request is running or has crashed. -/
theorem service_threads (h : (querySystem repository Serves).Reachable c)
    {t : Tid} {id : Uuid}
    (hpending : Pending (marks t (c.world.statements id).history)) :
    (∃ p, c.threads t = .running p ∧ ∀ result, p ≠ .settled result) ∨
      c.threads t = .crashed := by
  cases hthread : c.threads t with
  | crashed => exact .inr rfl
  | running p =>
      refine .inl ⟨p, rfl, ?_⟩
      rintro result rfl
      exact (service_settled h hthread).finished id hpending
  | idle =>
      exfalso
      obtain ⟨a, ha, hrefines⟩ := (repositoryRefinement Serves).reachable h
      have hworld : a.world = c.world.statements := hrefines.world
      have hidle := hrefines.threads t
      rw [hthread] at hidle
      generalize hq : a.threads t = thread at hidle
      cases hidle
      exact (hworld ▸ idle_unmarked ha hq).not_pending id hpending

end Service

end StatementAnalyzer
