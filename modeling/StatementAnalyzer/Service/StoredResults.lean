/-
Whether an OCR result that the worker has accepted can be stored.
-/
import StatementAnalyzer.Service.Guarantees

namespace StatementAnalyzer

open Async

/-- The data of the query never make it fail, whatever state it meets. -/
def Query.Harmless : Query → Prop
  | client q => ∀ t now w w', serve t now w q ≠ some (none, w')
  | _ => True

theorem harmless_insertTransaction (id : Uuid)
    {transaction : CreateTransactionInput}
    (hstorable : transaction.storable = true) :
    (Query.client (.insertTransaction id transaction)).Harmless := by
  intro t now w w' hserve
  simp only [serve, hstorable, if_true] at hserve
  split at hserve
  · split at hserve <;> cases hserve
  · cases hserve

/-- Only an INSERT carries data that its columns can refuse. -/
theorem harmless_of_not_insert {q : ClientQuery}
    (hq : ∀ id transaction, q ≠ .insertTransaction id transaction) :
    (Query.client q).Harmless := by
  intro t now w w' hserve
  cases q with
  | insertTransaction id transaction => exact hq id transaction rfl
  | begin | rollback =>
      simp only [serve] at hserve
      split at hserve <;> cases hserve
  | lockStatement id =>
      simp only [serve] at hserve
      split at hserve
      · split at hserve <;> cases hserve
      · cases hserve
  | completeStatement id token =>
      simp only [serve] at hserve
      split at hserve
      · split at hserve
        · cases hserve
        · split at hserve <;> cases hserve
      · cases hserve
  | commit =>
      simp only [serve] at hserve
      split at hserve
      · cases hserve
      · cases hserve
      · split at hserve
        · split at hserve <;> cases hserve
        · split at hserve <;> cases hserve
      · cases hserve

section Save

variable {q : ClientQuery} {id token : Uuid}
variable {transactions : List CreateTransactionInput} {now : Time}

/-- Whatever the queries of the save answer, none of them is refused because of
its data. -/
theorem harmless_saveTransactionsAndComplete
    (hstorable : ∀ transaction ∈ transactions, transaction.storable = true) :
    (saveTransactionsAndComplete id token transactions).Calls Query.Harmless :=
  calls_saveTransactionsAndComplete trivial trivial
    (fun transaction hmem =>
      harmless_insertTransaction id (hstorable transaction hmem))
    fun _ hq => harmless_of_not_insert hq

/-- Every error of the database is taken for one that may pass. -/
theorem failJob_database (claim : ProcessingClaim) (error : Thrown) :
    failJob claim .database error = pure .retry := by
  have hretryable : classifyAnalyzeJobError .database error = .retryable := by
    simp [classifyAnalyzeJobError]
  rw [failJob, hretryable]

/-- Exactly when an accepted OCR result can be stored.  Then no query of its
save is ever refused because of its data, and a save that is alone with a
PROCESSING row of its claim succeeds.  Otherwise that save fails and leaves the
row PROCESSING, and the job is retried. -/
theorem acceptedResult_stored_iff {input : JsValue} {result : OcrResult}
    (haccepted : parseOcrToolInput input = .ok result) {t : Tid}
    {refusal : Thrown} {w : Store} {row : StatementRecord}
    (hclosed : w.sessions t = .closed)
    (hheld : ∀ other, w.holder other ≠ some t) (hfree : w.holder id = none)
    (hrow : (w.statements id).row = some row)
    (hclaimed : row.claimedBy now token = true) :
    let save := saveTransactionsAndComplete id token
      (toCreateTransactionInputs result)
    ((save.Calls Query.Harmless ∧
        ∃ w', runAlone t now refusal save w = some (.ok (), w')) ↔
      ∀ text ∈ input.merchantTexts, nul ∉ text) ∧
    ((∃ text ∈ input.merchantTexts, nul ∈ text) →
      runAlone t now refusal save w = some (.error refusal, w) ∧
      ∀ claim, failJob claim .database refusal = pure .retry) := by
  intro save
  have hstorable := parseOcrToolInput_storable_iff haccepted
  have hrefused : (∃ text ∈ input.merchantTexts, nul ∈ text) →
      runAlone t now refusal save w = some (.error refusal, w) := by
    rintro ⟨text, htext, hnul⟩
    apply runAlone_save_refused hclosed hheld hfree hrow hclaimed
    by_contra hall
    refine absurd hnul (hstorable.mp (fun transaction hmem => ?_) text htext)
    by_contra hfalse
    exact hall ⟨transaction, hmem, Bool.eq_false_of_not_eq_true hfalse⟩
  refine ⟨⟨fun hsaved text htext hnul => ?_, fun hnone => ?_⟩,
    fun hnul => ⟨hrefused hnul, fun claim => ?_⟩⟩
  · obtain ⟨_, w', hok⟩ := hsaved
    rw [hrefused ⟨text, htext, hnul⟩] at hok
    cases hok
  · have hall := hstorable.mpr hnone
    exact ⟨harmless_saveTransactionsAndComplete hall, _,
      runAlone_save_storable hclosed hheld hfree hrow hclaimed _ hall⟩
  · exact failJob_database claim refusal

/-- A save that is alone with the database, where the data are refused. -/
theorem At.refuse {c : Config Store Query Query.Answer Thrown Outcome} {t : Tid}
    {s : Statement} {resume : Except Thrown Unit → Program Outcome}
    (refusal : Thrown) (h : At c t s
      (.await (.saveTransactionsAndComplete id token transactions) resume))
    (halone : runAlone t now refusal
      (saveTransactionsAndComplete id token transactions) (storeOf s) =
        some (.error refusal, storeOf s)) :
    ∃ c', At c' t s (resume (.error refusal)) := by
  obtain ⟨hreachable, hworld, hrunning, hidle⟩ := h
  rw [← hworld] at halone
  obtain ⟨c', hreachable', hworld', hrunning', hothers⟩ :=
    runAlone_reachable hreachable
      (k := fun answer => (resume answer).interp repository) hrunning halone
  refine ⟨c', hreachable', hworld'.trans hworld, hrunning', fun u hu => ?_⟩
  rw [hothers u (Nat.ne_of_gt hu)]
  exact hidle u hu

/-- A merchant that ends in U+0000. -/
def nulToolInput : JsValue :=
  .object [(js "transactions", .array [.object [
    (js "transactionDate", .string (js "2026-04-01")),
    (js "merchantRaw", .string (js "SHOP" ++ [nul])),
    (js "merchantName", .string (js "shop")),
    (js "amount", .number 1200),
    (js "category", .string (js "食費")),
    (js "subcategory", .string (js "外食")),
    (js "lineNumber", .number 1)]])]

def nulResult : OcrResult :=
  ⟨[⟨js "2026-04-01", js "SHOP" ++ [nul], js "shop", 1200, .food,
    some (js "外食"), 1⟩]⟩

/-- The result is accepted and the claim holds, yet the save fails because of
its data, the job is retried, and the statement stays as it is. -/
theorem acceptedResult_refused :
    parseOcrToolInput nulToolInput = .ok nulResult ∧
    (∃ row, sampleClaimed.row = some row ∧ row.claimedBy 4 ⟨1⟩ = true) ∧
    (∃ c resume, At c 3 sampleClaimed
      (.await (.saveTransactionsAndComplete ⟨0⟩ ⟨1⟩
        (toCreateTransactionInputs nulResult)) resume) ∧
      runAlone 3 4 plainError (saveTransactionsAndComplete ⟨0⟩ ⟨1⟩
        (toCreateTransactionInputs nulResult)) c.world =
          some (.error plainError, c.world)) ∧
    ∃ c, At c 3 sampleClaimed (.settled (.ok .processed)) := by
  obtain ⟨_, h⟩ := at_sent
  obtain ⟨_, h⟩ := h.next
    (.processJob (some 600) ⟨⟨0⟩, ⟨⟨0⟩, 0⟩⟩ rfl (by decide))
  obtain ⟨_, h⟩ := At.silent .randomUUID (.ok ⟨1⟩) h ⟨rfl, rfl⟩
  obtain ⟨_, h⟩ := At.request (.updateStatement _ _) _ _ h
    (@Updates.served _ _ _ _ 3 _ _ rfl (.updated rfl rfl (by simp)) rfl)
    (storeOf_set _ sampleClaimed)
  obtain ⟨_, h⟩ := At.silent (.getObject _)
    (.ok ⟨some (js "image/png"), 1, [0]⟩) h rfl
  obtain ⟨c, h⟩ := At.silent (.converse _)
    (.ok ⟨some (js "tool_use"),
      some [.toolUse (some ⟨some OCR_TOOL_NAME, nulToolInput⟩)]⟩) h rfl
  have halone : runAlone 3 4 plainError
      (saveTransactionsAndComplete ⟨0⟩ ⟨1⟩
        (toCreateTransactionInputs nulResult)) (storeOf sampleClaimed) =
          some (.error plainError, storeOf sampleClaimed) :=
    runAlone_save_refused rfl (by rintro _ ⟨⟩) rfl rfl (by decide)
      _ ⟨_, List.mem_singleton_self _, by decide⟩
  refine ⟨rfl, ⟨_, rfl, by decide⟩, ⟨c, _, h, ?_⟩, ?_⟩
  · rw [h.world]
    exact halone
  · obtain ⟨_, h⟩ : ∃ c', At c' 3 sampleClaimed _ :=
      At.refuse plainError h halone
    exact At.silent .shutdownTimeout (.ok false) h ⟨rfl, rfl⟩

theorem acceptedResult_stored_iff_sampleClaimed :
    (∀ text ∈ sampleToolInput.merchantTexts, nul ∉ text) ∧
    ∃ w', runAlone 3 4 plainError (saveTransactionsAndComplete ⟨0⟩ ⟨1⟩
      sampleTransactions) (storeOf sampleClaimed) = some (.ok (), w') := by
  have hnone : ∀ text ∈ sampleToolInput.merchantTexts, nul ∉ text := by decide
  have hiff := @acceptedResult_stored_iff ⟨0⟩ ⟨1⟩ 4 sampleToolInput
    ⟨[⟨js "2026-04-01", js "SHOP", js "shop", 1200, .food,
      some (js "外食"), 1⟩]⟩ rfl 3 plainError (storeOf sampleClaimed) _ rfl
    (by rintro _ ⟨⟩) rfl rfl (by decide)
  exact ⟨hnone, (hiff.1.mpr hnone).2⟩

end Save

end StatementAnalyzer
