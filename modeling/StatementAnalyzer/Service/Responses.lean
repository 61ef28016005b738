/-
The statuses that the responses of the service show: each of them was the status
of the statement at some moment while the request ran, and the requests that
follow show nothing older.
-/
import StatementAnalyzer.Async.Spans
import StatementAnalyzer.Service.Polling

namespace StatementAnalyzer

open Async

/-- What a body tells about a statement. -/
inductive ResponseBody.Tells (id : Uuid) (status : StatementStatus) :
    ResponseBody → Prop
  | uploadStatus : Tells id status (.uploadStatus id status)
  | created {url : JsString} {contentType : ContentType}
      {expiresInSeconds : Nat} :
      Tells id status (.created id status url contentType expiresInSeconds)

/-- What a program has called, with the answers. -/
abbrev CallTrace := List (Async.Answered Call Call.Answer Thrown)

/-- The answer to the request holds the row, as it is after the request. -/
inductive Reveals (row : StatementRecord) :
    Async.Answered Call Call.Answer Thrown → Prop
  | inserted {columns : StatementColumns} {rows : List StatementRecord}
      (h : row ∈ rows) :
      Reveals row ⟨.request (.insertStatement columns), .ok rows⟩
  | selected {id : Uuid} {rows : List StatementRecord} (h : row ∈ rows) :
      Reveals row ⟨.request (.selectStatement id), .ok rows⟩
  | uploaded {id : Uuid} {rows : List StatementRecord} (h : row ∈ rows) :
      Reveals row ⟨.request (.updateStatement id .markUploaded), .ok rows⟩
  | queued {id : Uuid} {rows : List StatementRecord} (h : row ∈ rows) :
      Reveals row ⟨.request (.updateStatement id .markQueued), .ok rows⟩

/-- Some answer of the trace holds the row. -/
def Revealed (row : StatementRecord) (trace : CallTrace) : Prop :=
  ∃ answered ∈ trace, Reveals row answered

section Programs

variable {row : StatementRecord} {id : Uuid} {status : StatementStatus}
variable {response : Response}
variable {trace before after : CallTrace}

theorem Revealed.left (h : Revealed row before) :
    Revealed row (before ++ after) := by
  obtain ⟨answered, hanswered, hreveals⟩ := h
  exact ⟨answered, List.mem_append_left after hanswered, hreveals⟩

theorem Revealed.right (h : Revealed row after) :
    Revealed row (before ++ after) := by
  obtain ⟨answered, hanswered, hreveals⟩ := h
  exact ⟨answered, List.mem_append_right before hanswered, hreveals⟩

/-- A body that shows a row tells its status. -/
theorem tells_toUploadStatus {code : Nat}
    (h : (toUploadStatus row code).body.Tells id status) :
    row.id = id ∧ row.status = status := by
  cases h
  exact ⟨rfl, rfl⟩

theorem not_tells_errorResponse {code : Nat} {error message : JsString} :
    ¬(errorResponse code error message).body.Tells id status := by
  rintro ⟨⟩

/-- A query for rows, of which the first is taken. -/
theorem revealed_head {r : Request} (list : r.Answer → List StatementRecord)
    (hreveals : ∀ rows, row ∈ list rows →
      Reveals row ⟨.request r, .ok rows⟩) {found : Option StatementRecord}
    (h : Proc.Run (do
      let rows ← request r
      return (list rows).head?) trace (.ok found))
    (hrow : found = some row) : Revealed row trace := by
  obtain ⟨rows, before, after, rfl, hcall, hafter⟩ := Proc.run_bind_ok h
  obtain rfl := Proc.run_call_iff.mp hcall
  cases (Proc.run_settled_iff.mp hafter).2
  exact .left ⟨_, List.mem_singleton_self _,
    hreveals rows (List.mem_of_head? hrow)⟩

theorem revealed_findById {found : Option StatementRecord}
    (h : (StatementRepository.findById id).Run trace (.ok found)) :
    found = some row → Revealed row trace :=
  revealed_head (r := .selectStatement id) (fun rows => rows)
    (fun _ => .selected) h

theorem revealed_markUploaded {found : Option StatementRecord}
    (h : (StatementRepository.markUploaded id).Run trace (.ok found)) :
    found = some row → Revealed row trace :=
  revealed_head (r := .updateStatement id .markUploaded) (fun rows => rows)
    (fun _ => .uploaded) h

theorem revealed_markQueued {found : Option StatementRecord}
    (h : (StatementRepository.markQueued id).Run trace (.ok found)) :
    found = some row → Revealed row trace :=
  revealed_head (r := .updateStatement id .markQueued) (fun rows => rows)
    (fun _ => .queued) h

/-- The body tells of a row that the request was answered with. -/
def Backed (response : Response) (trace : CallTrace) : Prop :=
  ∀ id status, response.body.Tells id status →
    ∃ row, Revealed row trace ∧ row.id = id ∧ row.status = status

theorem backed_error {code : Nat} {error message : JsString} :
    Backed (errorResponse code error message) trace :=
  fun _ _ htells => absurd htells not_tells_errorResponse

theorem backed_toUploadStatus {code : Nat} (h : Revealed row trace) :
    Backed (toUploadStatus row code) trace :=
  fun _ _ htells => ⟨row, h, tells_toUploadStatus htells⟩

theorem Backed.right (h : Backed response after) :
    Backed response (before ++ after) := by
  intro id status htells
  obtain ⟨row, hrevealed, hrow⟩ := h id status htells
  exact ⟨row, hrevealed.right, hrow⟩

theorem backed_markUploadedOrFind {found : Option StatementRecord}
    (h : (markUploadedOrFind id).Run trace (.ok found)) :
    found = some row → Revealed row trace := by
  intro hrow
  obtain ⟨uploaded, before, after, rfl, hupdate, hafter⟩ := Proc.run_bind_ok h
  cases uploaded with
  | some uploaded =>
      cases (Proc.run_settled_iff.mp hafter).2
      cases hrow
      exact (revealed_markUploaded hupdate rfl).left
  | none => exact (revealed_findById hafter hrow).right

/-- The next part of a program that branches on an outcome. -/
theorem run_attempt {α β : Type} {p : Program α}
    {next : Except Thrown α → Program β} {result : Except Thrown β}
    (h : Proc.Run (p.attempt >>= next) trace result) :
    ∃ before outcome after, trace = before ++ after ∧
      p.Run before outcome ∧ (next outcome).Run after result := by
  rw [Proc.attempt_bind, Proc.run_andThen_iff] at h
  obtain ⟨before, outcome, after, htrace, hfirst, hnext⟩ := h
  exact ⟨before, outcome, after, htrace, hfirst, hnext⟩

theorem backed_completeUpload {id : Option Uuid}
    (h : (completeUpload id).Run trace (.ok response)) :
    Backed response trace := by
  cases id with
  | none =>
      cases (Proc.run_settled_iff.mp h).2
      exact backed_error
  | some id =>
      obtain ⟨before, found, after, rfl, hfound, h⟩ := run_attempt h
      rcases found with error | (_ | statement)
      · cases (Proc.run_settled_iff.mp h).2
        exact backed_error
      · cases (Proc.run_settled_iff.mp h).2
        exact backed_error
      dsimp only at h
      split at h
      · cases (Proc.run_settled_iff.mp h).2
        exact backed_error
      split at h
      · cases (Proc.run_settled_iff.mp h).2
        exact backed_toUploadStatus (revealed_findById hfound rfl).left
      apply Backed.right
      obtain ⟨_, metadata, after, rfl, _, h⟩ := run_attempt h
      apply Backed.right
      cases metadata with
      | error error =>
          dsimp only at h
          split at h <;> cases (Proc.run_settled_iff.mp h).2 <;>
            exact backed_error
      | ok objectMetadata =>
          dsimp only at h
          split at h
          · cases (Proc.run_settled_iff.mp h).2
            exact backed_error
          obtain ⟨before, uploaded, after, rfl, hupdate, h⟩ := run_attempt h
          rcases uploaded with error | (_ | uploaded)
          · cases (Proc.run_settled_iff.mp h).2
            exact backed_error
          · cases (Proc.run_settled_iff.mp h).2
            exact backed_error
          · cases (Proc.run_settled_iff.mp h).2
            rw [uploadedResponse]
            split
            · exact backed_error
            · exact backed_toUploadStatus
                (backed_markUploadedOrFind hupdate rfl).left

theorem backed_sendQueuedJob {queued : StatementRecord}
    (hqueued : Revealed queued before)
    (h : (sendQueuedJob queued).Run after (.ok response)) :
    Backed response (before ++ after) := by
  obtain ⟨_, sent, rest, rfl, _, h⟩ := run_attempt h
  cases sent with
  | ok _ =>
      cases (Proc.run_settled_iff.mp h).2
      exact backed_toUploadStatus hqueued.left
  | error _ =>
      obtain ⟨_, _, _, rfl, _, h⟩ := run_attempt h
      cases (Proc.run_settled_iff.mp h).2
      exact backed_error

theorem backed_unqueuedResponse {found : Option StatementRecord}
    (h : ∀ row, found = some row → Revealed row trace) :
    Backed (unqueuedResponse found) trace := by
  cases found with
  | none => exact backed_error
  | some statement =>
      rw [unqueuedResponse]
      split
      · exact backed_toUploadStatus (h statement rfl)
      · exact backed_error

theorem backed_queueStatement {statement : StatementRecord}
    (h : (queueStatement statement).Run trace (.ok response)) :
    Backed response trace := by
  obtain ⟨before, queued, after, rfl, hupdate, h⟩ := run_attempt h
  rcases queued with error | (_ | queued)
  · cases (Proc.run_settled_iff.mp h).2
    exact backed_error
  · obtain ⟨_, found, _, rfl, hfound, h⟩ := run_attempt h
    cases found with
    | error error =>
        cases (Proc.run_settled_iff.mp h).2
        exact backed_error
    | ok found =>
        cases (Proc.run_settled_iff.mp h).2
        apply Backed.right
        apply backed_unqueuedResponse
        intro row hrow
        exact (revealed_findById hfound hrow).left
  · exact backed_sendQueuedJob (revealed_markQueued hupdate rfl) h

theorem backed_analyzeStatement {id : Option Uuid}
    (h : (analyzeStatement id).Run trace (.ok response)) :
    Backed response trace := by
  cases id with
  | none =>
      cases (Proc.run_settled_iff.mp h).2
      exact backed_error
  | some id =>
      obtain ⟨before, found, after, rfl, hfound, h⟩ := run_attempt h
      rcases found with error | (_ | statement)
      · cases (Proc.run_settled_iff.mp h).2
        exact backed_error
      · cases (Proc.run_settled_iff.mp h).2
        exact backed_error
      dsimp only at h
      have hshown : Backed (toUploadStatus statement 200) (before ++ after) :=
        backed_toUploadStatus (revealed_findById hfound rfl).left
      split at h
      · cases (Proc.run_settled_iff.mp h).2
        exact backed_error
      · cases (Proc.run_settled_iff.mp h).2
        exact backed_error
      · exact (backed_queueStatement h).right
      · cases (Proc.run_settled_iff.mp h).2
        exact hshown

/-- The INSERT of `create`, from when the id is known. -/
theorem revealed_inserted {targetMonth : Except Thrown JsString}
    {columns : JsString → StatementColumns}
    (h : Proc.Run (do
      let targetMonth ← Proc.settled targetMonth
      let rows ← request (.insertStatement (columns targetMonth))
      getFirstRow rows) trace (.ok row)) : Revealed row trace := by
  obtain ⟨targetMonth, _, _, rfl, _, h⟩ := Proc.run_bind_ok h
  apply Revealed.right
  obtain ⟨rows, _, _, rfl, hinsert, hfirst⟩ := Proc.run_bind_ok h
  apply Revealed.left
  obtain rfl := Proc.run_call_iff.mp hinsert
  cases rows with
  | nil => cases (Proc.run_settled_iff.mp hfirst).2
  | cons first rest =>
      cases (Proc.run_settled_iff.mp hfirst).2
      exact ⟨_, List.mem_singleton_self _, .inserted List.mem_cons_self⟩

/-- `create` returns the row that its INSERT has returned. -/
theorem revealed_create {input : CreateStatementInput}
    (h : (StatementRepository.create input).Run trace (.ok row)) :
    Revealed row trace := by
  obtain ⟨id, _, targetMonth, _, _, _, _⟩ := input
  obtain ⟨before, created, after, rfl, hcreate, h⟩ := Proc.run_andThen_iff.mp h
  cases created with
  | error error =>
      dsimp only at h
      split at h <;> cases (Proc.run_settled_iff.mp h).2
  | ok created =>
      cases (Proc.run_settled_iff.mp h).2
      apply Revealed.left
      cases id with
      | some id => exact revealed_inserted hcreate
      | none =>
          obtain ⟨_, _, _, rfl, _, h⟩ := Proc.run_bind_ok hcreate
          exact (revealed_inserted h).right

theorem backed_insertStatement {presignedUrlExpiresSeconds : Nat}
    {input : CreateStatementInput}
    (h : (insertStatement presignedUrlExpiresSeconds input).Run trace
      (.ok response)) : Backed response trace := by
  obtain ⟨uploadUrl, before, after, rfl, _, h⟩ := Proc.run_bind_ok h
  apply Backed.right
  obtain ⟨statement, before, after, rfl, hcreate, h⟩ := Proc.run_bind_ok h
  cases (Proc.run_settled_iff.mp h).2
  intro id status htells
  cases htells
  exact ⟨statement, (revealed_create hcreate).left, rfl, rfl⟩

theorem backed_createStatement {presignedUrlExpiresSeconds : Nat}
    {http : CreateStatementHttpRequest}
    (h : (createStatement presignedUrlExpiresSeconds http).Run trace
      (.ok response)) : Backed response trace := by
  rw [createStatement] at h
  split at h
  · cases (Proc.run_settled_iff.mp h).2
    exact backed_error
  split at h
  · cases (Proc.run_settled_iff.mp h).2
    exact backed_error
  split at h
  · cases (Proc.run_settled_iff.mp h).2
    exact backed_error
  split at h
  · cases (Proc.run_settled_iff.mp h).2
    exact backed_error
  split at h
  · cases (Proc.run_settled_iff.mp h).2
    exact backed_error
  obtain ⟨_, _, after, rfl, _, h⟩ := Proc.run_bind_ok h
  apply Backed.right
  obtain ⟨_, created, _, rfl, hcreate, h⟩ := run_attempt h
  cases (Proc.run_settled_iff.mp h).2
  cases created with
  | ok response =>
      intro id status htells
      obtain ⟨row, hrevealed, hrow⟩ :=
        backed_insertStatement hcreate id status htells
      exact ⟨row, hrevealed.left, hrow⟩
  | error error =>
      rw [createdResponse]
      split <;> exact backed_error

/-- Every program that responds shows only rows that its requests were
answered with. -/
theorem backed_serves {p : Program Outcome} {w : World} (hp : Serves p w)
    (h : p.Run trace (.ok (.responded response))) : Backed response trace := by
  have hrespond : ∀ {endpoint : Program Response} {trace : CallTrace},
      (respond endpoint).Run trace (.ok (.responded response)) →
      endpoint.Run trace (.ok response) := by
    intro endpoint trace h
    obtain ⟨answer, before, after, rfl, hrun, hdone⟩ := Proc.run_bind_ok h
    obtain ⟨rfl, hanswer⟩ := Proc.run_settled_iff.mp hdone
    cases hanswer
    rwa [List.append_nil]
  cases hp with
  | createStatement _ _ => exact backed_createStatement (hrespond h)
  | completeUpload _ => exact backed_completeUpload (hrespond h)
  | analyzeStatement _ => exact backed_analyzeStatement (hrespond h)
  | processJob _ _ _ _ =>
      obtain ⟨_, _, _, rfl, _, hdone⟩ := Proc.run_bind_ok h
      cases (Proc.run_settled_iff.mp hdone).2
  | reading _ _ =>
      obtain ⟨_, _, _, rfl, _, hdone⟩ := Proc.run_bind_ok h
      cases (Proc.run_settled_iff.mp hdone).2

end Programs

section Service

variable {timestamp : TimestampReader} {row : StatementRecord}
variable {c c' d d' : Config (Store × ApiPool) Query Query.Answer Thrown Outcome}
variable {id : Uuid} {status status' : StatementStatus} {t : Tid}

/-- The row that an answer holds is the row of the statement. -/
theorem Reveals.exec {answered : Async.Answered Call Call.Answer Thrown}
    {w w' : World} (h : Reveals row answered)
    (hexec : answered.op.exec t w answered.answer w')
    (hgenuine : ∀ id, Genuine id (w' id)) : (w' row.id).row = some row := by
  have hfound : ∀ id, (w' id).row = some row → (w' row.id).row = some row := by
    intro id hrow
    rwa [((hgenuine id).belongs row hrow).id]
  cases h with
  | @inserted columns rows hmem =>
      cases hexec with
      | served _ _ hrow =>
          obtain rfl := List.mem_singleton.mp hmem
          exact hfound columns.id (by rw [World.set_self, hrow])
  | @selected id rows hmem =>
      obtain ⟨rfl, hrows⟩ := hexec
      rw [hrows rows rfl, Option.mem_toList] at hmem
      exact hfound id hmem
  | @uploaded id rows hmem =>
      cases hexec with
      | served _ _ hrow =>
          obtain rfl := List.mem_singleton.mp hmem
          exact hfound id (by rw [World.set_self, hrow])
      | refused _ => cases hmem
  | @queued id rows hmem =>
      cases hexec with
      | served _ _ hrow =>
          obtain rfl := List.mem_singleton.mp hmem
          exact hfound id (by rw [World.set_self, hrow])
      | refused _ => cases hmem

/-- The query that serves a request, as the request. -/
theorem executes_request {r : Request} {answer : Except Thrown r.Answer}
    {part : List (Async.Answered Query Query.Answer Thrown)}
    (h : (repository (.request r)).Run part answer) :
    ∃ query ∈ part, ∀ w w', Query.Exec t query.op w query.answer w' →
      r.exec t w.statements answer w'.statements := by
  obtain rfl := Proc.run_call_iff.mp h
  refine ⟨_, List.mem_singleton_self _, fun w w' hexec => ?_⟩
  cases hexec with
  | request executes _ => exact executes

/-- The row that an answer holds was in the table right after some query. -/
theorem Reveals.query {answered : Async.Answered Call Call.Answer Thrown}
    {part : List (Async.Answered Query Query.Answer Thrown)}
    (h : Reveals row answered)
    (hpart : (repository answered.op).Run part answered.answer) :
    ∃ query ∈ part, ∀ w w', Query.Exec t query.op w query.answer w' →
      (∀ id, Genuine id (w'.statements id)) →
      (w'.statements row.id).row = some row := by
  have hrequest : ∃ r answer, answered = ⟨.request r, answer⟩ := by
    cases h <;> exact ⟨_, _, rfl⟩
  obtain ⟨r, answer, rfl⟩ := hrequest
  obtain ⟨query, hmem, hexec⟩ := executes_request (t := t) hpart
  exact ⟨query, hmem, fun w w' hquery hgenuine =>
    h.exec (hexec w w' hquery) hgenuine⟩

/-- The statement had the status at some moment between `c` and `c'`. -/
def Had (c c' : Config (Store × ApiPool) Query Query.Answer Thrown Outcome)
    (id : Uuid) (status : StatementStatus) : Prop :=
  ∃ c₁ row, pooledService.Leads c c₁ ∧ pooledService.Leads c₁ c' ∧
    (c₁.world.1.statements id).row = some row ∧ row.status = status

/-- A request that was sent at `c` has shown the status by `c'`. -/
inductive Told (timestamp : TimestampReader)
    (c c' : Config (Store × ApiPool) Query Query.Answer Thrown Outcome)
    (id : Uuid) : StatementStatus → Prop
  | responded {t : Tid} {response : Response} {status : StatementStatus}
      (idle : c.threads t = .idle) (leads : pooledService.Leads c c')
      (settled : c'.threads t =
        .running (.settled (.ok (.responded response))))
      (tells : response.body.Tells id status) : Told timestamp c c' id status
  | viewed
      {c₁ : Config (Store × ApiPool) Query Query.Answer Thrown Outcome}
      {view : PublicStatement} (first : pooledService.Leads c c₁)
      (last : pooledService.Leads c₁ c')
      (shows : Shows timestamp c₁ id (.statement view)) :
      Told timestamp c c' id view.status

theorem Told.leads (h : Told timestamp c c' id status) :
    pooledService.Leads c c' := by
  cases h with
  | responded _ leads _ _ => exact leads
  | viewed first last _ => exact first.trans last

theorem Told.had (h : pooledService.Reachable c)
    (hrolls : c'.world.2.RollsBack) (htold : Told timestamp c c' id status) :
    Had c c' id status := by
  cases htold with
  | @viewed c₁ view first last shows =>
      have hpooled := h.leads first
      have hsafe := (pooled_reachable hpooled
        (pooled_leads hpooled last hrolls).1).1
      obtain ⟨row, hrow, rfl⟩ := row_of_shows hsafe shows
      exact ⟨c₁, row, first, last, hrow, rfl⟩
  | @responded t response status idle leads settled tells =>
      obtain ⟨p, _, _, trace, hstart, hresumes, hexecuted⟩ :=
        leads.span idle _ settled
      obtain ⟨_, _, _, q, rfl, hserves⟩ := hstart
      obtain ⟨calls, hrun, hparts⟩ := hresumes.run.of_interp
      obtain ⟨row, ⟨answered, hmem, hreveals⟩, rfl, rfl⟩ :=
        backed_serves hserves hrun id status tells
      obtain ⟨part, hpart, hsubset⟩ := hparts answered hmem
      obtain ⟨query, hquery, hrow⟩ := hreveals.query (t := t) hpart
      obtain ⟨before, after, hspan⟩ := hexecuted query (hsubset hquery)
      -- the pool was sound right after the query, and so when it was served
      have hpooled := h.leads hspan.first
      have hrolls₂ := (pooled_leads (hpooled.leads hspan.step) hspan.last
        hrolls).1
      have hrolls₁ := (pooled_leads hpooled hspan.step hrolls₂).1
      have hsafe := (pooled_reachable hpooled hrolls₁).1
      have hreachable := (pooled_reachable (hpooled.leads hspan.step) hrolls₂).2
      rcases hspan.executes.2 with hspoiled | hexec
      · exact absurd hspoiled hsafe
      · exact ⟨after, row, hspan.first.trans hspan.step, hspan.last,
          hrow _ _ hexec fun id => repository_genuine hreachable id, rfl⟩

theorem Had.before (h : pooledService.Reachable c)
    (hhad : Had c c' id status) (hleads : pooledService.Leads c' d)
    (hrolls : d'.world.2.RollsBack) (hhad' : Had d d' id status') :
    Relation.ReflTransGen StatusChange status status' := by
  obtain ⟨c₁, row, hfirst, hlast, hrow, rfl⟩ := hhad
  obtain ⟨d₁, row', hfirst', hlast', hrow', rfl⟩ := hhad'
  have hpooled := h.leads hfirst
  have hleads' := (hlast.trans hleads).trans hfirst'
  have hrolls₂ := (pooled_leads (hpooled.leads hleads') hlast' hrolls).1
  obtain ⟨hrolls₁, halone⟩ := pooled_leads hpooled hleads' hrolls₂
  have hreachable := (pooled_reachable hpooled hrolls₁).2
  have hnever :=
    (repository_genuine hreachable id).fenced.not_neverCreated hrow
  obtain ⟨_, hlater⟩ :=
    (repository_leads hreachable halone id).precedes hrow hnever
  rcases hlater with hnone | ⟨_, hrow₂, hprecedes⟩
  · rw [Config.alone_world, hrow'] at hnone
    cases hnone
  · cases hrow₂.symm.trans hrow'
    exact hprecedes.status

/-- What the answers of the service say about a statement.  The status in an
answer was that of the statement at some moment while the request ran, and an
answer to a request that was sent later shows the same status or one that
follows it; as long as no ROLLBACK of `findMonthlyAnalytics` has been rejected
with its session left inside. -/
theorem service_tells (h : pooledService.Reachable c)
    (hrolls : c'.world.2.RollsBack) (htold : Told timestamp c c' id status) :
    Had c c' id status ∧
    ∀ d d' status', pooledService.Leads c' d → d'.world.2.RollsBack →
      Told timestamp d d' id status' →
      Relation.ReflTransGen StatusChange status status' := by
  have hhad := htold.had h hrolls
  refine ⟨hhad, fun d d' status' hleads hrolls' htold' => ?_⟩
  have hreachable := (h.leads htold.leads).leads hleads
  exact hhad.before h hleads hrolls' (htold'.had hreachable hrolls')

/-- The third request is answered with 202, and then the statement is read. -/
theorem service_tells_sampleSent :
    ∃ c c' : Config (Store × ApiPool) Query Query.Answer Thrown Outcome,
      pooledService.Reachable c ∧ Had c c' ⟨0⟩ .queued ∧
      Relation.ReflTransGen StatusChange .queued .queued := by
  obtain ⟨c', h⟩ := at_sent
  obtain ⟨world, hinit, hleads⟩ := h.reachable.from_init
  have hrow : ∃ row, (c'.world.statements ⟨0⟩).row = some row ∧
      row.status = .queued := by
    rw [h.world]
    exact ⟨_, rfl, rfl⟩
  obtain ⟨row, hrow, hstatus⟩ := hrow
  let timestamp : TimestampReader := fun _ => ⟨0, by decide⟩
  let first : Config Store Query Query.Answer Thrown Outcome :=
    ⟨world, fun _ => .idle⟩
  have hfirst := reachable_unpooled (System.Reachable.init hinit)
  have hlast := reachable_unpooled h.reachable
  have hrolls : (unpooled c').world.2.RollsBack := ApiPool.unused_rollsBack
  have htold : Told timestamp (unpooled first) (unpooled c') ⟨0⟩ .queued :=
    .responded rfl (leads_unpooled hleads) h.running .uploadStatus
  have hviewed : Told timestamp (unpooled c') (unpooled c') ⟨0⟩ row.status :=
    .viewed .refl .refl ((shows_iff (pooled_reachable hlast hrolls).1).mpr
      (.inr (.inr ⟨row, hrow, rfl⟩)))
  rw [hstatus] at hviewed
  obtain ⟨hhad, hlater⟩ := service_tells hfirst hrolls htold
  exact ⟨_, _, hfirst, hhad, hlater _ _ .queued .refl hrolls hviewed⟩

end Service

end StatementAnalyzer
