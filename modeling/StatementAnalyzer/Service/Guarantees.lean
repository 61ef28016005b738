/-
What the service guarantees in every run, whatever fails and however requests,
workers and messages interleave.
-/
import StatementAnalyzer.Database.HealthyRun
import StatementAnalyzer.Service.Soundness

namespace StatementAnalyzer

open Async

/-- The store with one statement, while no client is checked out. -/
def storeOf (s : Statement) : Store :=
  ⟨World.set (fun _ => Statement.unused) ⟨0⟩ s, fun _ => .closed, fun _ => none⟩

theorem storeOf_set (s s' : Statement) :
    (storeOf s).statements.set ⟨0⟩ s' = (storeOf s').statements := by
  simp [storeOf, World.set]

/-- Thread `t` is about to go on with `p`, and the later threads have not
started. -/
structure At (c : Config Store Query Query.Answer Thrown Outcome) (t : Tid)
    (s : Statement) (p : Program Outcome) : Prop where
  reachable : (querySystem repository Serves).Reachable c
  world : c.world = storeOf s
  running : c.threads t = .running (p.interp repository)
  idle : ∀ u, t < u → c.threads u = .idle

section Sample

variable {c : Config Store Query Query.Answer Thrown Outcome} {t : Tid}
variable {s : Statement}

theorem At.first {p : Program Outcome}
    (hp : Serves p (storeOf Statement.unused).statements) :
    ∃ c, At c 0 Statement.unused p := by
  have hworld : storeOf Statement.unused =
      ⟨fun _ => Statement.unused, fun _ => .closed, fun _ => none⟩ := by
    simp [storeOf, World.set]
  have hinit : (querySystem repository Serves).Reachable
      ⟨storeOf Statement.unused, fun _ => .idle⟩ := .init hworld
  refine ⟨_, hinit.step (.start (t := 0) rfl ⟨rfl, rfl, p, rfl, hp⟩), rfl,
    Config.move_threads_self _ _ _ _, fun u hu => ?_⟩
  rw [Config.move_threads_ne _ (Nat.ne_of_gt hu)]

/-- The next thread starts. -/
theorem At.next {p q : Program Outcome} (h : At c t s p)
    (hq : Serves q (storeOf s).statements) : ∃ c', At c' (t + 1) s q := by
  obtain ⟨hreachable, hworld, hrunning, hidle⟩ := h
  refine ⟨_, hreachable.step (.start (hidle (t + 1) (Nat.lt_succ_self t))
    ⟨rfl, by rw [hworld]; rfl, q, rfl, by rw [hworld]; exact hq⟩), hworld,
    Config.move_threads_self _ _ _ _, fun u hu => ?_⟩
  rw [Config.move_threads_ne _ (Nat.ne_of_gt hu)]
  exact hidle u (Nat.lt_trans (Nat.lt_succ_self t) hu)

/-- The awaited request is served and leaves the statement as `s'`. -/
theorem At.request (r : Request) (answer : Except Thrown r.Answer)
    (s' : Statement) {resume : Except Thrown r.Answer → Program Outcome}
    (h : At c t s (.await (.request r) resume)) {w : World}
    (hexec : r.exec t (storeOf s).statements answer w)
    (hw : w = (storeOf s').statements) : ∃ c', At c' t s' (resume answer) := by
  obtain ⟨hreachable, hworld, hrunning, hidle⟩ := h
  rw [← hworld] at hexec
  have hnext := reachable_request hreachable hrunning
    (by rw [hworld]; exact fun _ => rfl) hexec
  refine ⟨_, hnext, by rw [Config.move_world, hworld, hw]; rfl,
    Config.move_threads_self _ _ _ _, fun u hu => ?_⟩
  rw [Config.move_threads_ne _ (Nat.ne_of_gt hu)]
  exact hidle u hu

/-- The awaited request changes nothing. -/
theorem At.silent (r : Request) (answer : Except Thrown r.Answer)
    {resume : Except Thrown r.Answer → Program Outcome}
    (h : At c t s (.await (.request r) resume))
    (hexec : r.exec t (storeOf s).statements answer (storeOf s).statements) :
    ∃ c', At c' t s (resume answer) :=
  At.request r answer s h hexec rfl

/-- A save that is alone with the database. -/
theorem At.save (now : Time) (s' : Statement) {id token : Uuid}
    (transactions : List CreateTransactionInput) {row : StatementRecord}
    {resume : Except Thrown Unit → Program Outcome}
    (h : At c t s
      (.await (.saveTransactionsAndComplete id token transactions) resume))
    (hrow : ((storeOf s).statements id).row = some row)
    (hclaimed : row.claimedBy now token = true)
    (hstorable : ∀ transaction ∈ transactions, transaction.storable = true)
    (hset : (storeOf s).statements.set id
      (Draft.commit t token ⟨now, id, row, transactions, some token⟩
        ((storeOf s).statements id)) = (storeOf s').statements) :
    ∃ c', At c' t s' (resume (.ok ())) := by
  obtain ⟨hreachable, hworld, hrunning, hidle⟩ := h
  have halone : runAlone t now plainError
      (saveTransactionsAndComplete id token transactions) c.world =
        some (.ok (), storeOf s') := by
    rw [hworld, runAlone_save_storable rfl (by rintro _ ⟨⟩) rfl hrow hclaimed
      transactions hstorable, hset]
    rfl
  obtain ⟨c', hreachable', hworld', hrunning', hothers⟩ :=
    runAlone_reachable hreachable
      (k := fun answer => (resume answer).interp repository) hrunning halone
  refine ⟨c', hreachable', hworld', hrunning', fun u hu => ?_⟩
  rw [hothers u (Nat.ne_of_gt hu)]
  exact hidle u hu

def sampleHttp : CreateStatementHttpRequest :=
  ⟨false, some (js "application/json"), some (.object [
    (js "targetMonth", .string (js "2026-04")),
    (js "fileName", .string (js "a.png")),
    (js "contentType", .string (js "image/png")),
    (js "contentLength", .number 1)])⟩

def sampleToolInput : JsValue :=
  .object [(js "transactions", .array [.object [
    (js "transactionDate", .string (js "2026-04-01")),
    (js "merchantRaw", .string (js "SHOP")),
    (js "merchantName", .string (js "shop")),
    (js "amount", .number 1200),
    (js "category", .string (js "食費")),
    (js "subcategory", .string (js "外食")),
    (js "lineNumber", .number 1)]])]

def sampleTransactions : List CreateTransactionInput :=
  [⟨1, js "2026-04-01", js "SHOP", js "shop", 1200, js "食費",
    some (js "外食")⟩]

/-- The statement after an update by thread `t`. -/
def Statement.update (s : Statement) (t : Tid) (now : Time) (u : Update) :
    Statement :=
  { s with row := s.row.bind fun row => u.apply now row }.log
    (.updated t now u false)

def sampleCreated : Statement :=
  { Statement.unused with row := some sampleRow }.log
    (.created 0 0 sampleColumns)

def sampleQueued : Statement :=
  (sampleCreated.update 1 1 .markUploaded).update 2 2 .markQueued

def sampleSent : Statement :=
  { sampleQueued with messages := [⟨2, false⟩] }.log (.sent 2 true true)

def sampleClaimed : Statement :=
  sampleSent.update 3 3 (.claimForProcessing ⟨1⟩ 600)

def sampleCompleted : Statement :=
  { sampleClaimed with
    row := sampleClaimed.row.bind (StatementRecord.complete 4 ⟨1⟩)
    transactions := sampleTransactions }.log
      (.completed 3 4 ⟨1⟩ sampleTransactions)

theorem at_created : ∃ c response,
    At c 0 sampleCreated (.settled response) := by
  obtain ⟨_, h⟩ := At.first (.createStatement 900 sampleHttp)
  obtain ⟨_, h⟩ := At.silent .randomUUID (.ok ⟨0⟩) h ⟨rfl, rfl⟩
  obtain ⟨_, h⟩ := At.silent (.createPresignedPutUrl _ _ _) (.ok []) h rfl
  have hnone : ∀ id, ((storeOf Statement.unused).statements id).row = none := by
    simp [storeOf, World.set, Statement.unused]
  have hfresh : ∀ id other, ((storeOf Statement.unused).statements id).row =
      some other → other.s3Key ≠ sampleColumns.s3Key := by
    intro id other hother
    rw [hnone] at hother
    cases hother
  obtain ⟨_, h⟩ := At.request (.insertStatement sampleColumns)
    (.ok [sampleRow]) sampleCreated h
    (@Inserts.served _ _ _ 0 _ _ hfresh
      (.created (by rintro _ _ _ ⟨⟩) rfl rfl sampleColumns_insert) rfl)
    (storeOf_set _ _)
  exact ⟨_, _, h⟩

theorem at_queued : ∃ c, At c 2 sampleQueued (respond
    (sendQueuedJob { sampleRow with status := .queued, updatedAt := 2 })) := by
  obtain ⟨_, _, h⟩ := at_created
  obtain ⟨_, h⟩ := h.next (.completeUpload (some ⟨0⟩))
  obtain ⟨_, h⟩ := At.silent (.selectStatement _) (.ok [sampleRow]) h
    ⟨rfl, by rintro _ ⟨⟩; rfl⟩
  obtain ⟨_, h⟩ := At.silent (.headObject _)
    (.ok ⟨some (js "image/png"), 1⟩) h rfl
  obtain ⟨_, h⟩ := At.request (.updateStatement _ _) _ _ h
    (@Updates.served _ _ _ _ 1 _ _ rfl (.updated rfl rfl (by simp)) rfl)
    (storeOf_set _ (sampleCreated.update 1 1 .markUploaded))
  obtain ⟨_, h⟩ := h.next (.analyzeStatement (some ⟨0⟩))
  obtain ⟨_, h⟩ := At.silent (.selectStatement _)
    (.ok [{ sampleRow with status := .uploaded, updatedAt := 1 }]) h
    ⟨rfl, by rintro _ ⟨⟩; rfl⟩
  obtain ⟨_, h⟩ := At.request (.updateStatement _ _) _ _ h
    (@Updates.served _ _ _ _ 2 _ _ rfl (.updated rfl rfl (by simp)) rfl)
    (storeOf_set _ sampleQueued)
  exact ⟨_, h⟩

theorem at_sent : ∃ c, At c 2 sampleSent
    (.settled (.ok (.responded ⟨202, .uploadStatus ⟨0⟩ .queued⟩))) := by
  obtain ⟨_, h⟩ := at_queued
  obtain ⟨_, h⟩ := At.request (.sendMessage _) (.ok ()) _ h
    ⟨true, _, .sent fun _ => rfl, rfl⟩ (storeOf_set _ sampleSent)
  exact ⟨_, h⟩

theorem at_completed : ∃ c resume, At c 3 sampleCompleted
    (.await (.request (.deleteMessage ⟨⟨0⟩, 0⟩)) resume) := by
  obtain ⟨_, h⟩ := at_sent
  obtain ⟨_, h⟩ := h.next
    (.processJob (some 600) ⟨⟨0⟩, ⟨⟨0⟩, 0⟩⟩ rfl (by decide))
  obtain ⟨_, h⟩ := At.silent .randomUUID (.ok ⟨1⟩) h ⟨rfl, rfl⟩
  obtain ⟨_, h⟩ := At.request (.updateStatement _ _) _ _ h
    (@Updates.served _ _ _ _ 3 _ _ rfl (.updated rfl rfl (by simp)) rfl)
    (storeOf_set _ sampleClaimed)
  obtain ⟨_, h⟩ := At.silent (.getObject _)
    (.ok ⟨some (js "image/png"), 1, [0]⟩) h rfl
  obtain ⟨_, h⟩ := At.silent (.converse _)
    (.ok ⟨some (js "tool_use"),
      some [.toolUse (some ⟨some OCR_TOOL_NAME, sampleToolInput⟩)]⟩) h rfl
  obtain ⟨_, h⟩ : ∃ c', At c' 3 sampleCompleted _ :=
    At.save 4 sampleCompleted sampleTransactions h rfl
      (by decide) (by decide) (storeOf_set _ sampleCompleted)
  obtain ⟨_, h⟩ := At.silent .shutdownTimeout (.ok false) h ⟨rfl, rfl⟩
  exact ⟨_, _, h⟩

end Sample

section Service

variable {c : Config Store Query Query.Answer Thrown Outcome}

/-- No job is lost.  A QUEUED or PROCESSING statement has an undeleted message,
or a request that has queued it and is about to send its job or to take the
status back, or one that crashed in between, or one whose update has reported an
error. -/
theorem service_carries (h : (querySystem repository Serves).Reachable c)
    (id : Uuid) {row : StatementRecord}
    (hrow : (c.world.statements id).row = some row)
    (hstatus : row.status = .queued ∨ row.status = .processing) :
    (∃ message ∈ (c.world.statements id).messages,
      message.deleted = false) ∨
    (∃ t, Pending (marks t (c.world.statements id).history) ∧
      ((∃ p, c.threads t = .running p ∧ ∀ result, p ≠ .settled result) ∨
        c.threads t = .crashed)) ∨
    ∃ t, .errored t .markQueued ∈ (c.world.statements id).history ∨
      .errored t .resetQueuedToUploaded ∈
        (c.world.statements id).history := by
  rcases (service_orderly h id).carried (repository_genuine h id) hrow hstatus
    with hmessage | ⟨t, hpending | herrored⟩
  · exact .inl hmessage
  · exact .inr (.inl ⟨t, hpending, service_threads h hpending⟩)
  · exact .inr (.inr ⟨t, herrored⟩)

/-- The deletion of a message does not settle a statement. -/
theorem Advance.settled_before {id : Uuid} {t : Tid} {index : Nat}
    {effective : Bool} {s s' : Statement}
    (hs : Advance id (.deleting t index effective) s s') (h : s'.Settled) :
    s.Settled := by
  cases hs
  refine ⟨fun hnever => h.created fun u now columns hmem => ?_, h.finished⟩
  rcases List.mem_cons.mp hmem with heq | hmem
  · cases heq
  · exact hnever u now columns hmem

/-- Right after `markQueued`, before the send. -/
theorem service_carries_sampleQueued :
    ∃ c : Config Store Query Query.Answer Thrown Outcome,
      (querySystem repository Serves).Reachable c ∧
      ∃ t, Pending (marks t (c.world.statements ⟨0⟩).history) := by
  obtain ⟨c, h⟩ := at_queued
  have hstatement : c.world.statements ⟨0⟩ = sampleQueued := by
    rw [h.world]
    rfl
  refine ⟨c, h.reachable, ?_⟩
  rcases service_carries h.reachable ⟨0⟩ (by rw [hstatement]; rfl) (.inl rfl)
    with ⟨message, hmem, _⟩ | ⟨t, hpending, _⟩ | ⟨t, herrored | herrored⟩
  · rw [hstatement] at hmem
    cases hmem
  · exact ⟨t, hpending⟩
  · rw [hstatement] at herrored
    simp [sampleQueued, sampleCreated, Statement.update, Statement.log,
      Statement.unused] at herrored
  · rw [hstatement] at herrored
    simp [sampleQueued, sampleCreated, Statement.update, Statement.log,
      Statement.unused] at herrored

/-- Only finished work is acknowledged.  Where `deleteMessage` is called the
statement is COMPLETED, FAILED or gone, and its row stays as it is until it is
deleted by hand. -/
theorem service_acknowledges (h : (querySystem repository Serves).Reachable c)
    {c' : Config Store Query Query.Answer Thrown Outcome} {t : Tid}
    {receiptHandle : ReceiptHandle}
    (hstep : (querySystem repository Serves).Step
      (.call t (.request (.deleteMessage receiptHandle))) c c') :
    let id := receiptHandle.statementId
    (∀ row, (c.world.statements id).row = some row →
      row.status = .completed ∨ row.status = .failed) ∧
    ∀ c₁, (querySystem repository Serves).Leads c c₁ →
      (c₁.world.statements id).row = (c.world.statements id).row ∨
        (c₁.world.statements id).row = none := by
  intro id
  have horderly := service_orderly (h.step hstep) id
  have hsettled : (c.world.statements id).Settled := by
    cases hstep with
    | call _ executes =>
        cases executes with
        | request executes _ =>
            obtain ⟨effective, s, hs, _, rfl⟩ := executes
            have hset : (c.world.statements.set id s id) = s :=
              World.set_self _ id s
            have hafter := horderly.deletions
              (.deleting t receiptHandle.index effective)
              (by
                change _ ∈ (c.world.statements.set id s id).history
                rw [hset, hs.history]
                exact List.mem_cons_self) rfl
            change (c.world.statements.set id s id).Settled at hafter
            exact hs.settled_before (hset ▸ hafter)
  refine ⟨fun row hrow => ?_, fun c₁ hleads => ?_⟩
  · exact StatementStatus.isTerminal_iff.mp (hsettled.finished row hrow)
  · exact ((repository_leads h hleads id).settled hsettled).2

/-- The first message is deleted after the statement is completed. -/
theorem service_acknowledges_sampleCompleted :
    ∃ c : Config Store Query Query.Answer Thrown Outcome,
      (querySystem repository Serves).Reachable c ∧
      ∃ row, (c.world.statements ⟨0⟩).row = some row ∧
        (row.status = .completed ∨ row.status = .failed) := by
  obtain ⟨c, resume, h⟩ := at_completed
  obtain ⟨hreachable, hworld, hrunning, _⟩ := h
  have hexec : Query.Exec 3 (.request (.deleteMessage ⟨⟨0⟩, 0⟩)) c.world
      (.error plainError) _ :=
    .request ⟨false, _, .deleting, by rintro ⟨⟩, rfl⟩
      (by rw [hworld]; exact fun _ hid => absurd rfl hid)
  have hacknowledges :=
    service_acknowledges hreachable (.call (t := 3) hrunning hexec)
  have hrow : (c.world.statements ⟨0⟩).row = sampleCompleted.row := by
    rw [hworld]
    rfl
  exact ⟨c, hreachable, _, hrow, hacknowledges.1 _ hrow⟩

/-- Exactly the list of the winning save is stored, in UTF-8: as it is where its
texts are well-formed, and only then.  A save is recorded only by a step of a
thread inside the call with that list. -/
theorem service_stores (h : (querySystem repository Serves).Reachable c)
    (id : Uuid) :
    let s := c.world.statements id
    (s.row = none → s.transactions = []) ∧
    (∀ row, s.row = some row → row.status ≠ .completed →
      s.transactions = []) ∧
    (∀ row, s.row = some row → row.status = .completed →
      ∃ transactions, saves s.history = [transactions] ∧
        s.transactions = transactions.map CreateTransactionInput.row ∧
        (s.transactions = transactions ↔
          ∀ transaction ∈ transactions, transaction.isWellFormed = true) ∧
        (transactions.map CreateTransactionInput.lineNumber).Nodup) ∧
    (∀ l c', (querySystem repository Serves).Step l c c' →
      saves (c'.world.statements id).history = saves s.history ∨
      ∃ a t token transactions resume,
        (repositoryRefinement Serves).Refines c a ∧
        a.threads t = .running
          (.await (.saveTransactionsAndComplete id token transactions)
            resume) ∧
        saves (c'.world.statements id).history =
          transactions :: saves s.history) := by
  intro s
  have hfenced := (repository_genuine h id).fenced
  have horderly := service_orderly h id
  refine ⟨hfenced.bare, fun row hrow hopen => ?_, fun row hrow hcompleted => ?_,
    fun l c' hstep => ?_⟩
  · exact (hfenced.unsaved row hrow hopen).1
  · obtain ⟨transactions, hsaves, hstored⟩ := hfenced.saved row hrow hcompleted
    have hnodup := horderly.saves transactions
      (hsaves ▸ List.mem_singleton_self transactions)
    have hrows : s.transactions =
        transactions.map CreateTransactionInput.row := by
      rw [hstored, foldl_upsertTransaction_eq_append transactions [] hnodup,
        List.nil_append]
    refine ⟨transactions, hsaves, hrows, ?_, hnodup⟩
    rw [hrows]
    exact map_row_eq_self_iff
  · obtain ⟨a, hrefines, hsteps⟩ := repository_step h hstep
    rcases hsteps.statement id with hsame | ⟨e, hcause, hs⟩
    · exact .inl (by rw [hsame])
    · rw [hs.history, saves_cons]
      rcases hcause with hnone | ⟨t, op, resume, hthread, hcauses⟩
      · left
        cases e <;> first | rfl | cases hnone
      · cases hcauses with
        | completed => exact .inr ⟨a, t, _, _, resume, hrefines, hthread, rfl⟩
        | created | updated | refused | errored | sent | deleting =>
            exact .inl rfl

theorem service_stores_sampleCompleted :
    ∃ c : Config Store Query Query.Answer Thrown Outcome,
      (querySystem repository Serves).Reachable c ∧
      saves (c.world.statements ⟨0⟩).history = [sampleTransactions] ∧
      (c.world.statements ⟨0⟩).transactions = sampleTransactions := by
  obtain ⟨c, _, h⟩ := at_completed
  have hstatement : c.world.statements ⟨0⟩ = sampleCompleted := by
    rw [h.world]
    rfl
  obtain ⟨transactions, hsaves, _, hstored, _⟩ :=
    (service_stores h.reachable ⟨0⟩).2.2.1 _ (by rw [hstatement]; rfl) rfl
  have hlist : saves sampleCompleted.history = [sampleTransactions] := rfl
  rw [hstatement, hlist] at hsaves
  cases hsaves
  exact ⟨c, h.reachable, by rw [hstatement]; exact hlist,
    hstored.mpr (by decide)⟩

/-- A merchant that ends in a surrogate without its partner. -/
def loneSurrogateToolInput : JsValue :=
  .object [(js "transactions", .array [.object [
    (js "transactionDate", .string (js "2026-04-01")),
    (js "merchantRaw", .string (js "SHOP" ++ [0xD800])),
    (js "merchantName", .string (js "shop")),
    (js "amount", .number 1200),
    (js "category", .string (js "食費")),
    (js "subcategory", .string (js "外食")),
    (js "lineNumber", .number 1)]])]

def loneSurrogateTransactions : List CreateTransactionInput :=
  [⟨1, js "2026-04-01", js "SHOP" ++ [0xD800], js "shop", 1200, js "食費",
    some (js "外食")⟩]

def loneSurrogateCompleted : Statement :=
  { sampleClaimed with
    row := sampleClaimed.row.bind (StatementRecord.complete 4 ⟨1⟩)
    transactions := [⟨1, js "2026-04-01", js "SHOP\uFFFD", js "shop", 1200,
      js "食費", some (js "外食")⟩] }.log
      (.completed 3 4 ⟨1⟩ loneSurrogateTransactions)

/-- The parser admits the merchant, the one save commits, and the row differs
from what the save was given. -/
theorem service_stores_loneSurrogate :
    (∃ result, parseOcrToolInput loneSurrogateToolInput = .ok result ∧
      toCreateTransactionInputs result = loneSurrogateTransactions) ∧
    ∃ c : Config Store Query Query.Answer Thrown Outcome,
      (querySystem repository Serves).Reachable c ∧
      (∃ row, (c.world.statements ⟨0⟩).row = some row ∧
        row.status = .completed) ∧
      saves (c.world.statements ⟨0⟩).history = [loneSurrogateTransactions] ∧
      (c.world.statements ⟨0⟩).transactions ≠ loneSurrogateTransactions := by
  obtain ⟨_, h⟩ := at_sent
  obtain ⟨_, h⟩ := h.next
    (.processJob (some 600) ⟨⟨0⟩, ⟨⟨0⟩, 0⟩⟩ rfl (by decide))
  obtain ⟨_, h⟩ := At.silent .randomUUID (.ok ⟨1⟩) h ⟨rfl, rfl⟩
  obtain ⟨_, h⟩ := At.request (.updateStatement _ _) _ _ h
    (@Updates.served _ _ _ _ 3 _ _ rfl (.updated rfl rfl (by simp)) rfl)
    (storeOf_set _ sampleClaimed)
  obtain ⟨_, h⟩ := At.silent (.getObject _)
    (.ok ⟨some (js "image/png"), 1, [0]⟩) h rfl
  obtain ⟨_, h⟩ := At.silent (.converse _)
    (.ok ⟨some (js "tool_use"),
      some [.toolUse (some ⟨some OCR_TOOL_NAME, loneSurrogateToolInput⟩)]⟩) h
    rfl
  obtain ⟨c, h⟩ : ∃ c', At c' 3 loneSurrogateCompleted _ :=
    At.save 4 loneSurrogateCompleted loneSurrogateTransactions h rfl
      (by decide) (by decide) (storeOf_set _ loneSurrogateCompleted)
  have hstatement : c.world.statements ⟨0⟩ = loneSurrogateCompleted := by
    rw [h.world]
    rfl
  refine ⟨⟨_, rfl, rfl⟩, c, h.reachable, ⟨_, by rw [hstatement]; rfl, rfl⟩,
    by rw [hstatement]; rfl, ?_⟩
  rw [hstatement]
  decide

/-- The request of thread `t` has answered 202 for the statement. -/
def Accepted (c : Config Store Query Query.Answer Thrown Outcome) (id : Uuid)
    (t : Tid) : Prop :=
  ∃ status, c.threads t =
    .running (.settled (.ok (.responded ⟨202, .uploadStatus id status⟩)))

/-- The discipline of enqueueing.  A request sends only after its own
`markQueued`, and once; queueing and resetting take turns; a reset undoes the
queueing of its own request, before any claim; and where no send reports a
failure there is at most one send, one message and one 202. -/
theorem service_enqueues (h : (querySystem repository Serves).Reachable c)
    (id : Uuid) :
    let s := c.world.statements id
    (∀ newer older t reported delivered,
      s.history = newer ++ .sent t reported delivered :: older →
        marks t older = [.queued] ∧ t ∉ senders older ∧ t ∉ senders newer) ∧
    Alternating (flips s.history) ∧
    (∀ newer older t now late,
      s.history = newer ++ .updated t now .resetQueuedToUploaded late :: older →
        (flips older).head? = some (.queued t) ∧ claims older = []) ∧
    ((∀ t delivered, .sent t false delivered ∉ s.history) →
      (senders s.history).length ≤ 1 ∧ s.messages.length ≤ 1 ∧
        ∀ t, Accepted c id t → senders s.history = [t]) := by
  intro s
  have hgenuine : Genuine id s := repository_genuine h id
  have horderly : s.Orderly := service_orderly h id
  have halternating := hgenuine.flipped.alternating
  have howned := owned_of_scripted horderly.scripts hgenuine.outstanding
  refine ⟨?_, halternating, ?_, ?_⟩
  · intro newer older t reported delivered hsplit
    exact horderly.before_send hsplit
  · intro newer older t now late hsplit
    rw [hsplit, flips_append, flips_cons] at halternating howned
    refine ⟨reset_undoes_own halternating howned, ?_⟩
    obtain ⟨s₀, s₁, hgenuine₀, rfl, hs⟩ := hgenuine.at_event hsplit
    cases hs with
    | updated hrow applies _ =>
        cases Update.apply_eq_some_iff.mp applies with
        | reset hqueued =>
            exact hgenuine₀.fenced.unclaimed _ hrow (.inr (.inr hqueued))
  · intro hreported
    obtain ⟨hone, hsenders, hmessages⟩ :=
      horderly.one_sender hgenuine hreported
    refine ⟨hsenders, hmessages, ?_⟩
    rintro t ⟨status, haccepted⟩
    obtain ⟨_, hbody, hmarks⟩ :=
      (service_settled h haccepted).accepted _ rfl rfl
    cases hbody
    have hmem : t ∈ senders s.history :=
      mem_senders_of_sent (hmarks ▸ List.mem_cons_self)
    obtain ⟨u, hu⟩ : ∃ u, senders s.history = [u] := by
      have hpos := List.length_pos_of_mem hmem
      exact List.length_eq_one_iff.mp (by omega)
    rw [hu, List.mem_singleton] at hmem
    rw [hu, hmem]

theorem service_enqueues_sampleSent :
    ∃ c : Config Store Query Query.Answer Thrown Outcome,
      (querySystem repository Serves).Reachable c ∧ Accepted c ⟨0⟩ 2 ∧
      senders (c.world.statements ⟨0⟩).history = [2] := by
  obtain ⟨c, h⟩ := at_sent
  have hstatement : c.world.statements ⟨0⟩ = sampleSent := by
    rw [h.world]
    rfl
  have haccepted : Accepted c ⟨0⟩ 2 := ⟨.queued, h.running⟩
  refine ⟨c, h.reachable, haccepted, ?_⟩
  refine ((service_enqueues h.reachable ⟨0⟩).2.2.2 ?_).2.2 2 haccepted
  intro t delivered hmem
  rw [hstatement] at hmem
  simp [sampleSent, sampleQueued, sampleCreated, Statement.update,
    Statement.log, Statement.unused] at hmem

end Service

end StatementAnalyzer
