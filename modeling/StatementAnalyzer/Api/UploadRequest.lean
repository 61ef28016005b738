/-
`POST /statements/:id/upload/complete` as a sequence of queries: what it may
call after which answers, and what it may answer.  No other program of the
service sends `markUploaded`.
-/
import StatementAnalyzer.Async.Journal
import StatementAnalyzer.Database.SaveTransactions
import StatementAnalyzer.Service.Protocol

namespace StatementAnalyzer

open Async

/-- A query and its answer. -/
abbrev AnsweredQuery : Type := Async.Answered Query Query.Answer Thrown

abbrev AnsweredQuery.findById (id : Uuid)
    (answer : Except Thrown (List StatementRecord)) : AnsweredQuery :=
  ⟨.request (.selectStatement id), answer⟩

abbrev AnsweredQuery.headObject (key : JsString)
    (answer : Except Thrown ObjectMetadata) : AnsweredQuery :=
  ⟨.request (.headObject key), answer⟩

abbrev AnsweredQuery.markUploaded (id : Uuid)
    (answer : Except Thrown (List StatementRecord)) : AnsweredQuery :=
  ⟨.request (.updateStatement id .markUploaded), answer⟩

/-- The endpoint as the queries that it sends. -/
def uploadRequest (id : Uuid) : QueryProgram Outcome :=
  (respond (completeUpload (some id))).interp repository

/-- The object is the one that was registered. -/
structure ObjectMetadata.Matches (metadata : ObjectMetadata)
    (statement : StatementRecord) : Prop where
  contentType : metadata.contentType = some statement.contentType.text
  contentLength : metadata.contentLength = statement.contentLength

/-- The first read found an UPLOAD_PENDING statement, and HeadObject answered
with the registered metadata. -/
inductive Verified (id : Uuid) (statement : StatementRecord) :
    List AnsweredQuery → Prop
  | verified {rows : List StatementRecord} {metadata : ObjectMetadata}
      (hread : rows.head? = some statement)
      (hpending : statement.status = .uploadPending)
      (hmatches : metadata.Matches statement) :
      Verified id statement [.findById id (.ok rows),
        .headObject statement.s3Key (.ok metadata)]

/-- What an upload request on `id` may call after these answers. -/
inductive UploadCall (id : Uuid) : List AnsweredQuery → Query → Prop
  | findById : UploadCall id [] (.request (.selectStatement id))
  | headObject {rows : List StatementRecord} {statement : StatementRecord}
      (hread : rows.head? = some statement)
      (hpending : statement.status = .uploadPending) :
      UploadCall id [.findById id (.ok rows)]
        (.request (.headObject statement.s3Key))
  | markUploaded {statement : StatementRecord} {earlier : List AnsweredQuery}
      (hverified : Verified id statement earlier) :
      UploadCall id earlier
        (.request (.updateStatement statement.id .markUploaded))
  | findAgain {statement : StatementRecord} {earlier : List AnsweredQuery}
      (hverified : Verified id statement earlier) :
      UploadCall id (earlier ++ [.markUploaded statement.id (.ok [])])
        (.request (.selectStatement statement.id))

/-- An answer without a write. -/
inductive Unwritten : AnsweredQuery → Prop
  | findById {id : Uuid} {answer : Except Thrown (List StatementRecord)} :
      Unwritten (.findById id answer)
  | headObject {key : JsString} {answer : Except Thrown ObjectMetadata} :
      Unwritten (.headObject key answer)
  | refused {id : Uuid} : Unwritten (.markUploaded id (.ok []))

/-- Where the statement comes from that a 200 reports. -/
inductive Reported (id : Uuid) (found : StatementRecord) :
    List AnsweredQuery → Prop
  | read {rows : List StatementRecord} (hread : rows.head? = some found)
      (hpending : found.status ≠ .uploadPending) :
      Reported id found [.findById id (.ok rows)]
  | marked {statement : StatementRecord} {rows : List StatementRecord}
      {earlier : List AnsweredQuery} (hverified : Verified id statement earlier)
      (hmarked : rows.head? = some found) :
      Reported id found (earlier ++ [.markUploaded statement.id (.ok rows)])
  | readAgain {statement : StatementRecord} {rows : List StatementRecord}
      {earlier : List AnsweredQuery} (hverified : Verified id statement earlier)
      (hread : rows.head? = some found) :
      Reported id found (earlier ++ [.markUploaded statement.id (.ok []),
        .findById statement.id (.ok rows)])

/-- What an upload request on `id` may answer in the end. -/
structure UploadAnswer (id : Uuid) (trace : List AnsweredQuery)
    (result : Except Thrown Outcome) : Prop where
  refusal : ∀ response, result = .ok (.responded response) →
    response.status = 404 ∨ response.status = 409 →
      (∀ answered ∈ trace, Unwritten answered) ∨
      ∃ (other : Uuid) (rows : List StatementRecord) (row : StatementRecord),
        .markUploaded other (.ok rows) ∈ trace ∧ row ∈ rows ∧
          row.status = .failed
  success : ∀ response, result = .ok (.responded response) →
    response.status = 200 → ∃ found : StatementRecord,
      response.body = .uploadStatus found.id found.status ∧
      found.status ≠ .failed ∧ Reported id found trace

section Answers

variable {id : Uuid} {trace : List AnsweredQuery} {response : Response}
variable {statement : StatementRecord}

/-- Neither 200 nor 404 nor 409. -/
theorem UploadAnswer.other (h : response.status ≠ 200 ∧
      response.status ≠ 404 ∧ response.status ≠ 409) :
    UploadAnswer id trace (.ok (.responded response)) := by
  constructor
  · rintro _ ⟨⟩ hstatus
    omega
  · rintro _ ⟨⟩ hstatus
    omega

theorem UploadAnswer.refused (h : response.status ≠ 200)
    (hunwritten : ∀ answered ∈ trace, Unwritten answered) :
    UploadAnswer id trace (.ok (.responded response)) := by
  constructor
  · intro _ _ _
    exact .inl hunwritten
  · rintro _ ⟨⟩ hstatus
    exact absurd hstatus h

theorem UploadAnswer.reported {found : StatementRecord}
    (hstatus : found.status ≠ .failed) (hreported : Reported id found trace) :
    UploadAnswer id trace (.ok (.responded (toUploadStatus found 200))) := by
  constructor
  · rintro _ ⟨⟩ h
    simp [toUploadStatus] at h
  · rintro _ ⟨⟩ _
    exact ⟨found, rfl, hstatus, hreported⟩

theorem Verified.unwritten (h : Verified id statement trace) :
    ∀ answered ∈ trace, Unwritten answered := by
  cases h with
  | verified _ _ _ => simp [Unwritten.findById, Unwritten.headObject]

/-- `markUploaded` has answered with a row. -/
theorem UploadAnswer.marked {found : StatementRecord}
    (h : Verified id statement trace) (rest : List StatementRecord) :
    UploadAnswer id (trace ++ [.markUploaded statement.id (.ok (found :: rest))])
      (.ok (.responded (uploadedResponse (some found)))) := by
  rw [uploadedResponse]
  by_cases hfailed : found.status = .failed
  · rw [if_pos hfailed]
    constructor
    · intro _ _ _
      exact .inr ⟨statement.id, found :: rest, found, by simp, by simp, hfailed⟩
    · rintro _ ⟨⟩ hstatus
      simp [notUploadable, errorResponse] at hstatus
  · rw [if_neg hfailed]
    exact .reported hfailed (.marked h rfl)

/-- The statement was read again after `markUploaded` had matched no row. -/
theorem UploadAnswer.readAgain (h : Verified id statement trace)
    (rows : List StatementRecord) :
    UploadAnswer id (trace ++ [.markUploaded statement.id (.ok []),
        .findById statement.id (.ok rows)])
      (.ok (.responded (uploadedResponse rows.head?))) := by
  have hunwritten : ∀ answered ∈ trace ++ [.markUploaded statement.id (.ok []),
      .findById statement.id (.ok rows)], Unwritten answered := by
    intro answered hmem
    rcases List.mem_append.mp hmem with hmem | hmem
    · exact h.unwritten answered hmem
    · simp only [List.mem_cons, List.not_mem_nil, or_false] at hmem
      rcases hmem with rfl | rfl
      · exact .refused
      · exact .findById
  cases hfound : rows.head? with
  | none => exact .refused (by decide) hunwritten
  | some found =>
      rw [uploadedResponse]
      by_cases hfailed : found.status = .failed
      · rw [if_pos hfailed]
        exact .refused (by decide) hunwritten
      · rw [if_neg hfailed]
        exact .reported hfailed (.readAgain h hfound)

/-- An upload request keeps to the calls and the answers above. -/
theorem uploadRequest_lawful (id : Uuid) :
    Proc.Lawful (UploadCall id) (UploadAnswer id) [] (uploadRequest id) := by
  refine ⟨.findById, fun answer => ?_⟩
  rcases answer with error | (_ | ⟨statement, rest⟩)
  · exact .other (by decide)
  · exact .refused (by decide) (by simp [Unwritten.findById])
  change Proc.Lawful _ _ [AnsweredQuery.findById id (.ok (statement :: rest))]
    (Proc.interp repository (respond (if statement.status = .failed then _
      else if statement.status ≠ .uploadPending then _ else _)))
  by_cases hfailed : statement.status = .failed
  · rw [if_pos hfailed]
    exact .refused (by decide) (by simp [Unwritten.findById])
  by_cases hpending : statement.status = .uploadPending
  · rw [if_neg hfailed, if_neg (not_not_intro hpending)]
    refine ⟨.headObject rfl hpending, fun answer => ?_⟩
    rcases answer with error | metadata
    · change Proc.Lawful _ _ _ (Proc.interp repository (respond
        (if error.errorClass = .objectNotFound ∨
          (error.errorClass ≠ .notError ∧
            error.name = some (js "ObjectNotFoundError")) then _ else _)))
      by_cases hmissing : error.errorClass = .objectNotFound ∨
          (error.errorClass ≠ .notError ∧
            error.name = some (js "ObjectNotFoundError"))
      · rw [if_pos hmissing]
        apply UploadAnswer.refused (by decide)
        simp [Unwritten.findById, Unwritten.headObject]
      · rw [if_neg hmissing]
        exact .other (by decide)
    · change Proc.Lawful _ _ _ (Proc.interp repository (respond
        (if metadata.contentType ≠ some statement.contentType.text ∨
          metadata.contentLength ≠ statement.contentLength then _ else _)))
      by_cases hmismatch :
          metadata.contentType ≠ some statement.contentType.text ∨
            metadata.contentLength ≠ statement.contentLength
      · rw [if_pos hmismatch]
        apply UploadAnswer.refused (by decide)
        simp [Unwritten.findById, Unwritten.headObject]
      · rw [if_neg hmismatch]
        rw [not_or, not_not, not_not] at hmismatch
        have hverified : Verified id statement
            [.findById id (.ok (statement :: rest)),
              .headObject statement.s3Key (.ok metadata)] :=
          .verified rfl hpending ⟨hmismatch.1, hmismatch.2⟩
        refine ⟨.markUploaded hverified, fun answer => ?_⟩
        rcases answer with error | (_ | ⟨found, others⟩)
        · exact .other (by decide)
        · refine ⟨.findAgain hverified, fun answer => ?_⟩
          rcases answer with error | rows
          · exact .other (by decide)
          · exact .readAgain hverified rows
        · exact .marked hverified others
  · rw [if_neg hfailed, if_pos hpending]
    exact .reported hfailed (.read rfl hpending)

end Answers

section Others

def Call.MarksUploaded (op : Call) : Prop :=
  ∃ id, op = .request (.updateStatement id .markUploaded)

def Query.MarksUploaded (q : Query) : Prop :=
  ∃ id, q = .request (.updateStatement id .markUploaded)

/-- The procedure never sends `markUploaded`. -/
abbrev KeepsUpload {α : Type} (p : Program α) : Prop :=
  p.Calls fun op => ¬op.MarksUploaded

variable {α : Type}

theorem keepsUpload_request {r : Request}
    (h : ∀ id, r ≠ .updateStatement id .markUploaded) :
    KeepsUpload (request r) := by
  apply Proc.Calls.call
  rintro ⟨id, hr⟩
  exact h id (Call.request.inj hr)

theorem KeepsUpload.attempt {p : Program α} (h : KeepsUpload p) :
    KeepsUpload p.attempt :=
  h.andThen fun _ => trivial

theorem keepsUpload_findById (id : Uuid) :
    KeepsUpload (StatementRepository.findById id) :=
  (keepsUpload_request (by simp)).bind fun _ => trivial

theorem keepsUpload_update {id : Uuid} {u : Update} (h : u ≠ .markUploaded)
    {next : (Request.updateStatement id u).Answer → Program α}
    (hnext : ∀ rows, KeepsUpload (next rows)) :
    KeepsUpload (request (.updateStatement id u) >>= next) := by
  apply (keepsUpload_request _).bind hnext
  rintro _ ⟨⟩
  exact h rfl

theorem keepsUpload_createStatement (presignedUrlExpiresSeconds : Nat)
    (http : CreateStatementHttpRequest) :
    KeepsUpload (createStatement presignedUrlExpiresSeconds http) := by
  rw [createStatement]
  split
  · trivial
  split
  · trivial
  split
  · trivial
  split
  · trivial
  split
  · trivial
  · apply (keepsUpload_request (by simp)).bind
    intro statementId
    refine Proc.Calls.bind (KeepsUpload.attempt ?_) fun _ => trivial
    apply (keepsUpload_request (by simp)).bind
    intro uploadUrl
    refine Proc.Calls.bind ?_ fun _ => trivial
    apply Proc.Calls.orElse
    · apply Proc.Calls.bind (Proc.calls_settled _ _)
      intro id
      apply Proc.Calls.bind (Proc.calls_settled _ _)
      intro targetMonth
      apply (keepsUpload_request (by simp)).bind
      intro rows
      cases rows <;> trivial
    · intro error
      split <;> trivial

theorem keepsUpload_analyzeStatement (id : Option Uuid) :
    KeepsUpload (analyzeStatement id) := by
  cases id with
  | none => trivial
  | some id =>
      apply (keepsUpload_findById id).attempt.bind
      intro found
      rcases found with error | (_ | statement)
      · trivial
      · trivial
      · dsimp only
        split
        · trivial
        · trivial
        · apply (KeepsUpload.attempt _).bind
          · intro queued
            rcases queued with error | (_ | queued)
            · trivial
            · apply (keepsUpload_findById _).attempt.bind
              intro found
              cases found <;> trivial
            · apply (keepsUpload_request (by simp)).attempt.bind
              intro sent
              cases sent with
              | ok _ => trivial
              | error error =>
                  refine Proc.Calls.bind (KeepsUpload.attempt ?_)
                    fun _ => trivial
                  exact keepsUpload_update (by simp) fun _ => trivial
          · exact keepsUpload_update (by simp) fun _ => trivial
        · trivial

theorem keepsUpload_failJob (claim : ProcessingClaim)
    (stage : AnalyzeJobErrorStage) (error : Thrown) :
    KeepsUpload (failJob claim stage error) := by
  rw [failJob]
  split
  · trivial
  · refine Proc.Calls.bind (keepsUpload_update (by simp) fun _ => ?_)
      fun markedFailed => ?_
    · trivial
    · cases markedFailed <;> trivial

theorem keepsUpload_analyze (input : OcrImageInput) :
    KeepsUpload (analyze input) := by
  refine Proc.Calls.bind (Proc.calls_settled _ _) fun _ => ?_
  apply (keepsUpload_request (by simp)).bind
  intro response
  refine Proc.Calls.bind (Proc.calls_settled _ _) fun toolUse => ?_
  split <;> trivial

theorem keepsUpload_processClaim (claim : ProcessingClaim) :
    KeepsUpload (processClaim claim) := by
  apply (keepsUpload_request (by simp)).attempt.bind
  intro object
  cases object with
  | error error => exact keepsUpload_failJob claim _ error
  | ok object =>
      dsimp only
      split
      · exact keepsUpload_failJob claim _ _
      · apply (keepsUpload_analyze _).attempt.bind
        intro analysis
        cases analysis with
        | error error => exact keepsUpload_failJob claim _ error
        | ok analysis =>
            refine Proc.Calls.bind (KeepsUpload.attempt
              (Proc.Calls.call ?_)) fun saved => ?_
            · rintro ⟨id, ⟨⟩⟩
            · cases saved with
              | error error => exact keepsUpload_failJob claim _ error
              | ok _ => trivial

theorem keepsUpload_createAnalyzeJobHandler (leaseSeconds : Option ℚ)
    (job : ReceivedAnalyzeJob) :
    KeepsUpload (createAnalyzeJobHandler leaseSeconds job) := by
  apply (keepsUpload_request (by simp)).bind
  intro processingToken
  refine Proc.Calls.bind (KeepsUpload.attempt ?_) fun claimed => ?_
  · rw [StatementRepository.claimForProcessing]
    split
    · trivial
    · exact keepsUpload_update (by simp) fun _ => trivial
  · rcases claimed with error | (_ | claim)
    · trivial
    · refine Proc.Calls.bind (KeepsUpload.attempt ?_) fun resolved => ?_
      · apply (keepsUpload_findById _).bind
        intro found
        cases found with
        | none => trivial
        | some statement =>
            dsimp only
            split <;> trivial
      · cases resolved <;> trivial
    · exact keepsUpload_processClaim claim

theorem keepsUpload_runWithShutdownTimeout {T : Type} {operation : Program T}
    (h : KeepsUpload operation) :
    KeepsUpload (runWithShutdownTimeout operation) := by
  apply h.attempt.bind
  intro result
  apply (keepsUpload_request (by simp)).bind
  intro timedOut
  cases timedOut <;> cases result <;> trivial

theorem keepsUpload_processJob (leaseSeconds : Option ℚ)
    (job : ReceivedAnalyzeJob) : KeepsUpload (processJob leaseSeconds job) := by
  refine Proc.Calls.bind (keepsUpload_runWithShutdownTimeout
    (keepsUpload_createAnalyzeJobHandler leaseSeconds job)) fun result => ?_
  split
  · trivial
  · trivial
  · trivial
  · refine Proc.Calls.bind (keepsUpload_runWithShutdownTimeout
      (keepsUpload_request ?_)) fun _ => trivial
    simp

/-- A program of the service is an upload request or never sends
`markUploaded`. -/
theorem Serves.upload_or_keeps {p : Program Outcome} {w : World}
    (h : Serves p w) :
    (∃ id, p = respond (StatementAnalyzer.completeUpload (some id))) ∨
      KeepsUpload p := by
  cases h with
  | createStatement seconds http =>
      exact .inr ((keepsUpload_createStatement seconds http).bind
        fun _ => trivial)
  | completeUpload id =>
      cases id with
      | none => exact .inr trivial
      | some id => exact .inl ⟨id, rfl⟩
  | analyzeStatement id =>
      exact .inr ((keepsUpload_analyzeStatement id).bind fun _ => trivial)
  | processJob leaseSeconds job _ _ =>
      exact .inr ((keepsUpload_processJob leaseSeconds job).bind
        fun _ => trivial)
  | reading p hreads =>
      refine .inr (Proc.Calls.bind (hreads.mono ?_) fun _ => trivial)
      rintro _ hsilent ⟨id, rfl⟩
      exact hsilent

theorem calls_repository {P : Query → Prop} (hclient : ∀ q, P (.client q))
    (hconnect : P .connect) (hrelease : P .release) {op : Call}
    (hrequest : ∀ r, op = .request r → P (.request r)) :
    (repository op).Calls P := by
  cases op with
  | request r => exact .call (hrequest r rfl)
  | saveTransactionsAndComplete id token transactions =>
      exact calls_saveTransactionsAndComplete hconnect hrelease
        (fun _ _ => hclient _) fun q _ => hclient q

theorem KeepsUpload.interp {p : Program α} (h : KeepsUpload p) :
    (p.interp repository).Calls fun q => ¬q.MarksUploaded := by
  apply Proc.Calls.interp h
  intro op hop
  apply calls_repository
  · rintro q ⟨_, ⟨⟩⟩
  · rintro ⟨_, ⟨⟩⟩
  · rintro ⟨_, ⟨⟩⟩
  · rintro _ rfl ⟨id, ⟨⟩⟩
    exact hop ⟨id, rfl⟩

end Others

end StatementAnalyzer
