/-
What the service can still do for a statement.  From every reachable state an
unfinished statement can be brought to COMPLETED, unless it is QUEUED without a
message; and after an outage such a statement can be moved only if a send for it
has failed.
-/
import StatementAnalyzer.Database.Outage
import StatementAnalyzer.Service.Guarantees

namespace StatementAnalyzer

open Async

/-- Thread `t` has the database to itself, and the other dependencies can answer
so that `p` settles in `Q`. -/
abbrev Can {β : Type} (t : Tid) (p : Program β)
    (Q : Except Thrown β → World → Prop) (w : World) : Prop :=
  p.May (Call.Healthy t) Q w

section Rules

variable {β : Type} {t : Tid} {id : Uuid} {w : World}
variable {Q : Except Thrown β → World → Prop}

/-- A request that leaves the statements as they are. -/
theorem can_silent (r : Request) (answer : Except Thrown r.Answer)
    {next : Except Thrown r.Answer → Program β} (hexec : r.exec t w answer w)
    (h : Can t (next answer) Q w) :
    Can t ((request r).andThen next) Q w := by
  have hhealthy : Call.Healthy t (.request r) w answer w := .request hexec
  exact Proc.May.call hhealthy h

theorem can_findById {next : Except Thrown (Option StatementRecord) → Program β}
    (h : Can t (next (.ok (w id).row)) Q w) :
    Can t ((StatementRepository.findById id).andThen next) Q w := by
  rw [StatementRepository.findById, Proc.bind_eq, Proc.andThen_assoc]
  apply can_silent (.selectStatement id) (.ok (w id).row.toList)
  · refine ⟨rfl, ?_⟩
    rintro _ ⟨⟩
    rfl
  · rw [Proc.onValue_ok, Proc.pure_eq, Proc.settled_andThen, Option.head?_toList]
    exact h

/-- An UPDATE that matches its row. -/
theorem can_update {u : Update} {row row' : StatementRecord} (now : Time)
    {next : Except Thrown (List u.Returned) → Program β}
    (hrow : (w id).row = some row) (happlies : u.apply now row = some row')
    (hstorable : u.storable = true)
    (h : Can t (next (.ok [u.returning now row'])) Q
      (w.set id ((w id).update t now u))) :
    Can t ((request (.updateStatement id u)).andThen next) Q w := by
  have hupdate : (w id).update t now u =
      { w id with row := some row' }.log (.updated t now u false) := by
    rw [Statement.update, hrow, Option.bind_some, happlies]
  rw [hupdate] at h
  have hhealthy : Call.Healthy t (.request (.updateStatement id u)) w
      (.ok [u.returning now row'])
      (w.set id ({ w id with row := some row' }.log (.updated t now u false))) :=
    .request (.served hstorable (.updated hrow happlies (by simp)) rfl)
  exact Proc.May.call hhealthy h

theorem Statement.update_row {s : Statement} {u : Update}
    {row row' : StatementRecord} {now : Time} (t : Tid)
    (hrow : s.row = some row) (happlies : u.apply now row = some row') :
    (s.update t now u).row = some row' := by
  change (s.row.bind fun row => u.apply now row) = some row'
  rw [hrow]
  exact happlies

/-- A race that the operation wins. -/
theorem can_race {T : Type} {operation : Program T} {R : Except Thrown T → World → Prop}
    {next : Except Thrown (ShutdownOperationResult T) → Program β}
    (h : Can t operation R w)
    (hnext : ∀ result w', R result w' →
      ∃ value, result = .ok value ∧ Can t (next (.ok (.completed value))) Q w') :
    Can t ((runWithShutdownTimeout operation).andThen next) Q w := by
  rw [runWithShutdownTimeout, Proc.attempt_bind, Proc.andThen_assoc]
  apply Proc.May.andThen
  apply h.mono
  intro result w' hresult
  obtain ⟨value, rfl, hcan⟩ := hnext result w' hresult
  rw [Proc.bind_eq, Proc.andThen_assoc]
  exact can_silent .shutdownTimeout (.ok false) ⟨rfl, rfl⟩ hcan

end Rules

/-- One statement has moved on to a row with this status. -/
structure World.Reaches (w : World) (id : Uuid) (status : StatementStatus)
    (w' : World) : Prop where
  row : ∃ row, (w' id).row = some row ∧ row.status = status
  others : ∀ other, other ≠ id → w' other = w other

section Programs

variable {t : Tid} {id : Uuid} {w : World} {row : StatementRecord}

theorem World.Reaches.of_set {s : Statement} {status : StatementStatus}
    {w' : World} (h : (w.set id s).Reaches id status w') :
    w.Reaches id status w' :=
  ⟨h.row, fun other hother => (h.others other hother).trans
    (World.set_ne w hother s)⟩

theorem World.reaches_set {s : Statement} {row' : StatementRecord}
    (hrow : s.row = some row') : w.Reaches id row'.status (w.set id s) := by
  refine ⟨⟨row', ?_, rfl⟩, fun other hother => World.set_ne w hother s⟩
  rw [World.set_self]
  exact hrow

/-- The upload is confirmed. -/
theorem can_completeUpload (hrow : (w id).row = some row) (hid : row.id = id)
    (hstatus : row.status = .uploadPending) :
    Can t (completeUpload (some id)) (fun _ w' => w.Reaches id .uploaded w')
      w := by
  have happlies : Update.markUploaded.apply 0 row =
      some { row with status := .uploaded, updatedAt := 0 } :=
    Update.apply_eq_some_iff.mpr (.markUploaded hstatus)
  rw [completeUpload, Proc.attempt_bind]
  apply can_findById
  rw [hrow]
  simp only [hstatus, reduceCtorEq, if_false, ne_eq, not_true_eq_false]
  rw [Proc.attempt_bind]
  apply can_silent (.headObject row.s3Key)
    (.ok ⟨some row.contentType.text, row.contentLength⟩) rfl
  simp only [not_true_eq_false, or_self, if_false]
  rw [Proc.attempt_bind, markUploadedOrFind, Proc.bind_eq, Proc.andThen_assoc,
    StatementRepository.markUploaded, Proc.bind_eq, Proc.andThen_assoc, hid]
  apply can_update 0 hrow happlies rfl
  exact World.reaches_set (Statement.update_row t hrow happlies)

/-- The analysis is requested, and its job is sent. -/
theorem can_analyzeStatement (hrow : (w id).row = some row) (hid : row.id = id)
    (hstatus : row.status = .uploaded) :
    Can t (analyzeStatement (some id)) (fun _ w' =>
      w.Reaches id .queued w' ∧ (w' id).messages ≠ []) w := by
  have happlies : Update.markQueued.apply 0 row =
      some { row with status := .queued, updatedAt := 0 } :=
    Update.apply_eq_some_iff.mpr (.markQueued hstatus)
  rw [analyzeStatement, Proc.attempt_bind]
  apply can_findById
  rw [hrow]
  simp only [hstatus]
  rw [queueStatement, Proc.attempt_bind, StatementRepository.markQueued,
    Proc.bind_eq, Proc.andThen_assoc, hid]
  apply can_update 0 hrow happlies rfl
  rw [Proc.onValue_ok, Proc.pure_eq, Proc.settled_andThen, List.head?_cons]
  dsimp only [Update.returning]
  rw [sendQueuedJob, Proc.attempt_bind, hid]
  have hsent : Call.Healthy t (.request (.sendMessage id))
      (w.set id ((w id).update t 0 .markQueued)) (.ok ()) _ :=
    .request ⟨true, _, .sent fun _ => rfl, rfl⟩
  apply Proc.May.call hsent
  refine ⟨⟨⟨{ row with status := .queued, updatedAt := 0 }, ?_, rfl⟩,
    fun other hother => ?_⟩, ?_⟩
  · rw [World.set_self, World.set_self]
    exact Statement.update_row t hrow happlies
  · rw [World.set_ne _ hother, World.set_ne _ hother]
  · rw [World.set_self]
    simp [Statement.log]

/-- The image is analyzed with this tool input. -/
theorem can_analyze {β : Type} {Q : Except Thrown β → World → Prop}
    {image : OcrImageInput} {next : Except Thrown OcrResult → Program β}
    {input : JsValue} {result : OcrResult} (hnonempty : image.bytes ≠ [])
    (hmost : image.bytes.length ≤ MAX_OCR_IMAGE_BYTES)
    (hparse : parseOcrToolInput input = .ok result)
    (h : Can t (next (.ok result)) Q w) :
    Can t ((analyze image).andThen next) Q w := by
  have hvalid : validateImage image = .ok () := by
    rw [validateImage, if_neg (List.length_pos_iff.mpr hnonempty).ne',
      if_neg (Nat.not_lt.mpr hmost)]
  rw [analyze, hvalid, Proc.bind_eq, Proc.settled_andThen, Proc.onValue_ok,
    Proc.bind_eq, Proc.andThen_assoc]
  apply can_silent (.converse image) (.ok ⟨some (js "tool_use"),
    some [.toolUse (some ⟨some OCR_TOOL_NAME, input⟩)]⟩) rfl
  have hinput : input ≠ .undefined := by
    rintro rfl
    cases hparse
  have htool : getToolUse ⟨some (js "tool_use"),
      some [.toolUse (some ⟨some OCR_TOOL_NAME, input⟩)]⟩ =
        .ok ⟨some OCR_TOOL_NAME, input⟩ := by
    cases input <;> first | rfl | exact absurd rfl hinput
  rw [Proc.onValue_ok, htool, Proc.bind_eq, Proc.settled_andThen,
    Proc.onValue_ok, hparse]
  exact h

/-- A claimed job is done: its list is stored and it is acknowledged. -/
theorem can_processClaim {claim : ProcessingClaim} {now : Time}
    {input : JsValue} {result : OcrResult} (hclaim : claim.statementId = id)
    (hrow : (w id).row = some row)
    (hclaimed : row.claimedBy now claim.processingToken = true)
    (hlength : contentLengthCheck claim.contentLength = true)
    (hempty : (w id).transactions = [])
    (hparse : parseOcrToolInput input = .ok result)
    (hnul : ∀ text ∈ input.merchantTexts, nul ∉ text) :
    Can t (processClaim claim) (fun disposition w' => disposition = .ok .ack ∧
      w.Reaches id .completed w' ∧
      (w' id).transactions = (toCreateTransactionInputs result).map
        CreateTransactionInput.row) w := by
  subst hclaim
  simp only [contentLengthCheck, Bool.and_eq_true, decide_eq_true_eq] at hlength
  let object : DownloadedObject := ⟨some claim.contentType.text,
    claim.contentLength, List.replicate claim.contentLength.toNat 0⟩
  have hbytes : object.bytes.length = claim.contentLength.toNat :=
    List.length_replicate
  have hmatches : objectMatchesClaim object claim = true := by
    simp only [objectMatchesClaim, hbytes, Bool.and_eq_true, decide_eq_true_eq]
    refine ⟨⟨rfl, rfl⟩, ?_⟩
    omega
  rw [processClaim, Proc.attempt_bind]
  apply can_silent (.getObject claim.s3Key) (.ok object) rfl
  dsimp only
  rw [hmatches, Bool.not_true, if_neg Bool.false_ne_true, Proc.attempt_bind]
  refine can_analyze ?_ ?_ hparse ?_
  · rw [← List.length_pos_iff, hbytes]
    omega
  · rw [hbytes, MAX_OCR_IMAGE_BYTES]
    omega
  · dsimp only
    rw [Proc.attempt_bind, StatementRepository.saveTransactionsAndComplete]
    have hstorable := (parseOcrToolInput_storable_iff hparse).mpr hnul
    apply Proc.May.call (.save hrow hclaimed hstorable)
    obtain ⟨row', hrow'⟩ : ∃ row', row.complete now claim.processingToken =
        some row' := ⟨_, if_pos hclaimed⟩
    obtain ⟨_, hcompleted⟩ := StatementRecord.complete_eq_some_iff.mp hrow'
    have hreached : w.Reaches claim.statementId row'.status
        (w.set claim.statementId (Draft.commit t claim.processingToken
          ⟨now, claim.statementId, row, toCreateTransactionInputs result,
            some claim.processingToken⟩ (w claim.statementId))) :=
      World.reaches_set hrow'
    have hstatus : row'.status = .completed := by
      rw [hcompleted]
    rw [hstatus] at hreached
    refine ⟨rfl, hreached, ?_⟩
    rw [World.set_self]
    change (toCreateTransactionInputs result).foldl upsertTransaction
      (w claim.statementId).transactions = _
    rw [hempty]
    exact foldl_upsertTransaction_eq_append _ []
      (parseOcrToolInput_nodup hparse)

/-- A QUEUED statement can be claimed, and a PROCESSING one in time. -/
theorem Genuine.exists_claim {s : Statement} (h : Genuine id s)
    (hrow : s.row = some row)
    (hstatus : row.status = .queued ∨ row.status = .processing) :
    ∃ now, ∀ token leaseSeconds,
      (Update.claimForProcessing token leaseSeconds).apply now row =
        some (row.claim now token leaseSeconds) := by
  rcases hstatus with hqueued | hprocessing
  · exact ⟨0, fun token leaseSeconds =>
      Update.claim_queued 0 token leaseSeconds hqueued⟩
  · have hconsistent := (h.belongs row hrow).consistent
    obtain ⟨expires, hlease⟩ :=
      Option.isSome_iff_exists.mp (hconsistent.lease.mp hprocessing)
    refine ⟨expires + 1, fun token leaseSeconds => ?_⟩
    rw [Update.claim_processing _ token leaseSeconds hprocessing hlease,
      if_pos (Int.lt_succ expires)]

theorem default_lease :
    ¬(¬DEFAULT_PROCESSING_LEASE_SECONDS.isInt ∨
      DEFAULT_PROCESSING_LEASE_SECONDS ≤ 0) ∧
    DEFAULT_PROCESSING_LEASE_SECONDS.num.toNat = 600 := by
  have hdefault : DEFAULT_PROCESSING_LEASE_SECONDS = ((600 : Nat) : ℚ) := by
    norm_num [DEFAULT_PROCESSING_LEASE_SECONDS]
  rw [hdefault]
  simp [Rat.isInt]

/-- What a done job leaves at its statement. -/
structure World.Stores (w : World) (id : Uuid) (result : OcrResult)
    (w' : World) : Prop where
  reaches : w.Reaches id .completed w'
  transactions : (w' id).transactions =
    (toCreateTransactionInputs result).map CreateTransactionInput.row

theorem World.Stores.set {result : OcrResult} {w' : World} {s : Statement}
    (h : w.Stores id result w') (hrow : s.row = (w' id).row)
    (htransactions : s.transactions = (w' id).transactions) :
    w.Stores id result (w'.set id s) := by
  refine ⟨⟨?_, fun other hother => ?_⟩, ?_⟩
  · rw [World.set_self, hrow]
    exact h.reaches.row
  · rw [World.set_ne w' hother]
    exact h.reaches.others other hother
  · rw [World.set_self, htransactions]
    exact h.transactions

theorem Genuine.contentLength {s : Statement} (h : Genuine id s)
    (hrow : s.row = some row) : contentLengthCheck row.contentLength = true := by
  obtain ⟨_, columns, first, _, hinsert, hsame⟩ := (h.belongs row hrow).created
  obtain ⟨hchecks, rfl⟩ := StatementColumns.insert_eq_some_iff.mp hinsert
  rw [hsame.contentLength]
  simp only [Bool.and_eq_true] at hchecks
  exact hchecks.2

/-- The claim, and what it leads to. -/
theorem can_createAnalyzeJobHandler {job : ReceivedAnalyzeJob} {input : JsValue}
    {result : OcrResult} (hgenuine : Genuine job.statementId (w job.statementId))
    (hrow : (w job.statementId).row = some row)
    (hstatus : row.status = .queued ∨ row.status = .processing)
    (hparse : parseOcrToolInput input = .ok result)
    (hnul : ∀ text ∈ input.merchantTexts, nul ∉ text) :
    Can t (createAnalyzeJobHandler none job) (fun disposition w' =>
      disposition = .ok .ack ∧ w.Stores job.statementId result w') w := by
  obtain ⟨now, happlies⟩ := hgenuine.exists_claim hrow hstatus
  have hid : row.id = job.statementId := (hgenuine.belongs row hrow).id
  have hlength := hgenuine.contentLength hrow
  have hopen : row.status ≠ .completed := by
    rcases hstatus with h | h <;> rw [h] <;> decide
  have hempty := (hgenuine.fenced.unsaved row hrow hopen).1
  have hclaim := Statement.update_row t hrow (happlies ⟨0⟩ 600)
  have hclaimed : (row.claim now ⟨0⟩ 600).claimedBy now ⟨0⟩ = true :=
    StatementRecord.claimedBy_iff.mpr ⟨rfl, rfl, _, rfl,
      Int.lt_add_of_pos_right now (by decide)⟩
  rw [createAnalyzeJobHandler, Proc.bind_eq]
  apply can_silent .randomUUID (.ok ⟨0⟩) ⟨rfl, rfl⟩
  rw [Proc.onValue_ok, Proc.attempt_bind,
    StatementRepository.claimForProcessing]
  dsimp only [Option.getD_none]
  rw [if_neg default_lease.1, default_lease.2, Proc.bind_eq,
    Proc.andThen_assoc]
  apply can_update now hrow (happlies _ _) rfl
  rw [Proc.onValue_ok, Proc.pure_eq, Proc.settled_andThen, List.head?_cons]
  let w₁ := w.set job.statementId ((w job.statementId).update t now
    (.claimForProcessing ⟨0⟩ 600))
  have hset : w₁ job.statementId = (w job.statementId).update t now
      (.claimForProcessing ⟨0⟩ 600) := World.set_self _ _ _
  have hprocess : Can t (processClaim (Update.returning now
      (row.claim now ⟨0⟩ 600) (.claimForProcessing ⟨0⟩ 600))) _ w₁ :=
    can_processClaim hid (hset ▸ hclaim) hclaimed hlength (hset ▸ hempty) hparse
      hnul
  exact hprocess.mono fun disposition w' hdone =>
    ⟨hdone.1, hdone.2.1.of_set, hdone.2.2⟩

/-- The worker does a job for the statement. -/
theorem can_processJob {job : ReceivedAnalyzeJob} {input : JsValue}
    {result : OcrResult}
    (hnames : job.receiptHandle.statementId = job.statementId)
    (hgenuine : Genuine job.statementId (w job.statementId))
    (hrow : (w job.statementId).row = some row)
    (hstatus : row.status = .queued ∨ row.status = .processing)
    (hparse : parseOcrToolInput input = .ok result)
    (hnul : ∀ text ∈ input.merchantTexts, nul ∉ text) :
    Can t (processJob none job)
      (fun _ w' => w.Stores job.statementId result w') w := by
  rw [processJob, Proc.bind_eq]
  apply can_race (can_createAnalyzeJobHandler hgenuine hrow hstatus hparse hnul)
  rintro _ w' ⟨rfl, hstores⟩
  refine ⟨.ack, rfl, ?_⟩
  rw [Proc.onValue_ok]
  dsimp only
  rw [Proc.bind_eq]
  have hdeleting : Advance job.receiptHandle.statementId
      (.deleting t job.receiptHandle.index true)
      (w' job.receiptHandle.statementId) _ := .deleting
  have hhealthy : Call.Healthy t (.request (.deleteMessage job.receiptHandle))
      w' (.ok ()) _ := .request ⟨true, _, hdeleting, fun _ => rfl, rfl⟩
  have hdelete : Can t (request (.deleteMessage job.receiptHandle))
      (fun deleted w'' => deleted = .ok () ∧
        w.Stores job.statementId result w'') w' := by
    refine ⟨_, _, hhealthy, rfl, ?_⟩
    rw [hnames]
    exact hstores.set rfl rfl
  apply can_race hdelete
  rintro _ w'' ⟨rfl, hstores'⟩
  exact ⟨(), rfl, hstores'⟩

theorem can_respond {endpoint : Program Response} {K : World → Prop}
    (h : Can t endpoint (fun _ => K) w) :
    Can t (respond endpoint) (fun _ => K) w := by
  rw [respond, Proc.bind_eq]
  apply Proc.May.andThen
  apply h.mono
  intro result w' hK
  cases result <;> exact hK

theorem can_processed {p : Program Unit} {K : World → Prop}
    (h : Can t p (fun _ => K) w) :
    Can t (do p; return Outcome.processed) (fun _ => K) w := by
  rw [Proc.bind_eq]
  apply Proc.May.andThen
  apply h.mono
  intro result w' hK
  cases result <;> exact hK

end Programs

theorem Event.claiming_of_claim? {e : Event} {claim : Claim}
    (h : e.claim? = some claim) : e.claiming = true := by
  cases e with
  | updated t now u late => cases u <;> first | rfl | cases h
  | _ => cases h

/-- A statement is claimed on a message for it. -/
theorem Statement.Orderly.messages_of_processing {id : Uuid} {s : Statement}
    {row : StatementRecord} (h : s.Orderly) (hgenuine : Genuine id s)
    (hrow : s.row = some row) (hstatus : row.status = .processing) :
    s.messages ≠ [] := by
  obtain ⟨claim, hhead, _⟩ := hgenuine.fenced.claimed row hrow hstatus
  obtain ⟨e, hmem, he⟩ := List.mem_filterMap.mp (List.mem_of_mem_head? hhead)
  exact h.claims e hmem (Event.claiming_of_claim? he)

section Recovery

variable {c : Config Store Query Query.Answer Thrown Outcome} {n : Nat}
variable {id : Uuid} {row : StatementRecord} {input : JsValue}
variable {result : OcrResult}

theorem World.Reaches.stores {w w' w'' : World} {status : StatementStatus}
    (h : w.Reaches id status w') (h' : w'.Stores id result w'') :
    w.Stores id result w'' :=
  ⟨⟨h'.reaches.row, fun other hother =>
    (h'.reaches.others other hother).trans (h.others other hother)⟩,
    h'.transactions⟩

/-- A worker completes a statement that has a message. -/
theorem Ready.processed (h : Ready c n)
    (hreachable : (querySystem repository Serves).Reachable c)
    (hrow : (c.world.statements id).row = some row)
    (hstatus : row.status = .queued ∨ row.status = .processing)
    (hmessages : (c.world.statements id).messages ≠ [])
    (hparse : parseOcrToolInput input = .ok result)
    (hnul : ∀ text ∈ input.merchantTexts, nul ∉ text) :
    ∃ c', (querySystem repository Serves).Leads c c' ∧
      c.world.statements.Stores id result c'.world.statements := by
  have hserves : Serves (do processJob none ⟨id, ⟨id, 0⟩⟩; return .processed)
      c.world.statements :=
    .processJob none ⟨id, ⟨id, 0⟩⟩ rfl (List.length_pos_iff.mpr hmessages)
  have hcan : Can n (processJob none ⟨id, ⟨id, 0⟩⟩) _ c.world.statements :=
    can_processJob rfl (repository_genuine hreachable id) hrow hstatus hparse hnul
  obtain ⟨_, c', hleads, hstores, _⟩ := h.run hserves (can_processed hcan)
  exact ⟨c', hleads, hstores⟩

/-- A request queues an uploaded statement, and a worker completes it. -/
theorem Ready.analyzed (h : Ready c n)
    (hreachable : (querySystem repository Serves).Reachable c)
    (hrow : (c.world.statements id).row = some row)
    (hstatus : row.status = .uploaded)
    (hparse : parseOcrToolInput input = .ok result)
    (hnul : ∀ text ∈ input.merchantTexts, nul ∉ text) :
    ∃ c', (querySystem repository Serves).Leads c c' ∧
      c.world.statements.Stores id result c'.world.statements := by
  have hid := ((repository_genuine hreachable id).belongs row hrow).id
  obtain ⟨_, c₁, hleads, ⟨hreaches, hmessages⟩, hready, _⟩ :=
    h.run (Serves.analyzeStatement (some id))
      (can_respond (can_analyzeStatement (t := n) hrow hid hstatus))
  obtain ⟨row₁, hrow₁, hqueued⟩ := hreaches.row
  obtain ⟨c₂, hleads', hstores⟩ := hready.processed (hreachable.leads hleads)
    hrow₁ (.inl hqueued) hmessages hparse hnul
  exact ⟨c₂, hleads.trans hleads', hreaches.stores hstores⟩

/-- A statement whose upload is pending is uploaded, queued and completed. -/
theorem Ready.uploaded (h : Ready c n)
    (hreachable : (querySystem repository Serves).Reachable c)
    (hrow : (c.world.statements id).row = some row)
    (hstatus : row.status = .uploadPending)
    (hparse : parseOcrToolInput input = .ok result)
    (hnul : ∀ text ∈ input.merchantTexts, nul ∉ text) :
    ∃ c', (querySystem repository Serves).Leads c c' ∧
      c.world.statements.Stores id result c'.world.statements := by
  have hid := ((repository_genuine hreachable id).belongs row hrow).id
  obtain ⟨_, c₁, hleads, hreaches, hready, _⟩ :=
    h.run (Serves.completeUpload (some id))
      (can_respond (can_completeUpload (t := n) hrow hid hstatus))
  obtain ⟨row₁, hrow₁, huploaded⟩ := hreaches.row
  obtain ⟨c₂, hleads', hstores⟩ := hready.analyzed (hreachable.leads hleads)
    hrow₁ huploaded hparse hnul
  exact ⟨c₂, hleads.trans hleads', hreaches.stores hstores⟩

theorem Ready.completed (h : Ready c n)
    (hreachable : (querySystem repository Serves).Reachable c)
    (hrow : (c.world.statements id).row = some row)
    (hopen : row.status.isTerminal = false)
    (hmessages : row.status = .queued → (c.world.statements id).messages ≠ [])
    (hparse : parseOcrToolInput input = .ok result)
    (hnul : ∀ text ∈ input.merchantTexts, nul ∉ text) :
    ∃ c', (querySystem repository Serves).Leads c c' ∧
      c.world.statements.Stores id result c'.world.statements := by
  cases hstatus : row.status with
  | uploadPending => exact h.uploaded hreachable hrow hstatus hparse hnul
  | uploaded => exact h.analyzed hreachable hrow hstatus hparse hnul
  | queued =>
      exact h.processed hreachable hrow (.inl hstatus) (hmessages hstatus)
        hparse hnul
  | processing =>
      have hreceived := (service_orderly hreachable id).messages_of_processing
        (repository_genuine hreachable id) hrow hstatus
      exact h.processed hreachable hrow (.inr hstatus) hreceived hparse hnul
  | completed | failed =>
      rw [hstatus] at hopen
      cases hopen

end Recovery

end StatementAnalyzer
