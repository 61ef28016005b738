/-
What the two OCR schemas promise about a result that they accept: the columns
of `transactions` take every value of it, unless a merchant contains U+0000.
-/
import StatementAnalyzer.Ai.OcrGrammar
import StatementAnalyzer.Worker.AnalyzeJobHandler

namespace StatementAnalyzer

namespace JsValue

/-- The merchants of one item, before they are trimmed. -/
def itemMerchantTexts : JsValue → List JsString
  | object properties =>
      [js "merchantRaw", js "merchantName"].filterMap fun key =>
        (property properties key).string?
  | _ => []

/-- The merchants of every item of a tool input. -/
def merchantTexts : JsValue → List JsString
  | object properties =>
      match property properties (js "transactions") with
      | array items => items.flatMap itemMerchantTexts
      | _ => []
  | _ => []

end JsValue

section Fields

variable {value : JsString}

/-- An accepted date is a calendar day. -/
theorem dateCheck_of_transactionDateSchema {date : JsString}
    (h : transactionDateSchema value = some date) : dateCheck date = true := by
  obtain ⟨rfl, year, month, day, hparts, _, hcalendar⟩ :=
    transactionDateSchema_eq_some_iff.mp h
  rw [dateCheck, hparts]
  exact hcalendar

/-- Trimming keeps every U+0000. -/
theorem textCheck_of_merchantSchema {merchant : JsString}
    (h : merchantSchema value = some merchant) :
    textCheck merchant = textCheck value := by
  obtain ⟨rfl, _⟩ := merchantSchema_eq_some_iff.mp h
  simp [textCheck, nul_mem_trim_iff]

theorem textCheck_iff : textCheck value = true ↔ nul ∉ value := by
  simp [textCheck]

theorem textCheck_category (category : OcrCategory) :
    textCheck category.text = true := by
  cases category <;> decide

theorem textCheck_subcategory (subcategory : OcrSubcategory) :
    textCheck subcategory.text = true := by
  cases subcategory <;> decide

end Fields

/-- The two schemas take an item for this transaction. -/
def Accepts (item : JsValue) (transaction : OcrTransaction) : Prop :=
  ∃ reported, ocrToolTransactionSchema item = some reported ∧
    ocrTransactionSchema reported.toTransaction = some transaction

/-- The merchants of an item that the tool schema takes. -/
theorem ocrToolTransactionSchema_merchants {item : JsValue}
    {reported : OcrToolTransaction}
    (h : ocrToolTransactionSchema item = some reported) :
    ∃ merchantRaw merchantName,
      item.itemMerchantTexts = [merchantRaw, merchantName] ∧
      merchantSchema merchantRaw = some reported.merchantRaw ∧
      merchantSchema merchantName = some reported.merchantName := by
  simp only [ocrToolTransactionSchema, Option.bind_eq_bind,
    Option.bind_eq_some_iff, Option.pure_def, Option.ite_none_right_eq_some,
    Option.some.injEq] at h
  obtain ⟨properties, hitem, _, _, raw, ⟨merchantRaw, hraw, hraw'⟩, name,
    ⟨merchantName, hname, hname'⟩, _, _, _, _, _, _, _, _, _, rfl⟩ := h
  obtain ⟨rfl, _⟩ := JsValue.strictObject?_eq_some_iff.mp hitem
  refine ⟨merchantRaw, merchantName, ?_, hraw', hname'⟩
  simp [JsValue.itemMerchantTexts, hraw, hname]

/-- What the second schema leaves of a transaction. -/
structure ResultOf (reported : OcrToolTransaction)
    (transaction : OcrTransaction) : Prop where
  date : dateCheck transaction.transactionDate = true
  merchantRaw : merchantSchema reported.merchantRaw =
    some transaction.merchantRaw
  merchantName : merchantSchema reported.merchantName =
    some transaction.merchantName
  amount : transaction.amount ≠ 0 ∧ transaction.amount.natAbs ≤ 100000000
  subcategory : transaction.subcategory.all textCheck = true
  lineNumber : 0 < transaction.lineNumber ∧
    transaction.lineNumber ≤ MAX_OCR_TRANSACTIONS

theorem ocrTransactionSchema_resultOf {reported : OcrToolTransaction}
    {transaction : OcrTransaction}
    (h : ocrTransactionSchema reported.toTransaction = some transaction) :
    ResultOf reported transaction := by
  simp only [ocrTransactionSchema, Option.bind_eq_bind,
    Option.bind_eq_some_iff, Option.pure_def, Option.ite_none_right_eq_some,
    Option.some.injEq] at h
  obtain ⟨date, hdate, raw, hraw, name, hname, amount, hamount, lineNumber,
    hlineNumber, _, rfl⟩ := h
  obtain ⟨rfl, hisAmount⟩ := amountSchema_eq_some_iff.mp hamount
  obtain ⟨rfl, hisLine⟩ := lineNumberSchema_eq_some_iff.mp hlineNumber
  have hsubcategory :
      reported.toTransaction.subcategory.all textCheck = true := by
    by_cases hnone : reported.subcategory = .none
    · simp [OcrToolTransaction.toTransaction, hnone]
    · simp [OcrToolTransaction.toTransaction, hnone, textCheck_subcategory]
  exact ⟨dateCheck_of_transactionDateSchema hdate, hraw, hname, hisAmount,
    hsubcategory, hisLine⟩

/-- The merchants are the only values of an accepted transaction that its
columns can refuse. -/
theorem Accepts.storable_iff {item : JsValue} {transaction : OcrTransaction}
    (h : Accepts item transaction) :
    transaction.toCreateTransactionInput.storable = true ↔
      ∀ text ∈ item.itemMerchantTexts, nul ∉ text := by
  obtain ⟨reported, htool, hschema⟩ := h
  obtain ⟨merchantRaw, merchantName, htexts, hraw, hname⟩ :=
    ocrToolTransactionSchema_merchants htool
  have hresult := ocrTransactionSchema_resultOf hschema
  have hraw' : textCheck transaction.merchantRaw = textCheck merchantRaw :=
    (textCheck_of_merchantSchema hresult.merchantRaw).trans
      (textCheck_of_merchantSchema hraw)
  have hname' : textCheck transaction.merchantName = textCheck merchantName :=
    (textCheck_of_merchantSchema hresult.merchantName).trans
      (textCheck_of_merchantSchema hname)
  have hline : integerRange transaction.lineNumber = true := by
    have hpositive := hresult.lineNumber.1
    have hmost := hresult.lineNumber.2
    simp only [MAX_OCR_TRANSACTIONS] at hmost
    simp only [integerRange, Bool.and_eq_true, decide_eq_true_eq]
    omega
  have hamount : bigintRange transaction.amount = true := by
    have hmost := hresult.amount.2
    simp only [bigintRange, Bool.and_eq_true, decide_eq_true_eq]
    omega
  simp [OcrTransaction.toCreateTransactionInput, CreateTransactionInput.storable,
    hline, hamount, hraw', hname', htexts, hresult.date, hresult.subcategory,
    hresult.lineNumber.1, hresult.amount.1, textCheck_category, textCheck_iff]

theorem Accepts.all_storable_iff {items : List JsValue}
    {transactions : List OcrTransaction}
    (h : List.Forall₂ Accepts items transactions) :
    (∀ transaction ∈ transactions,
      transaction.toCreateTransactionInput.storable = true) ↔
      ∀ text ∈ items.flatMap JsValue.itemMerchantTexts, nul ∉ text := by
  induction h with
  | nil => simp
  | cons haccepts _ ih =>
      rw [List.forall_mem_cons, haccepts.storable_iff, ih, List.flatMap_cons,
        List.forall_mem_append]

theorem ocrResultSchema_forall₂ {transactions : List OcrTransaction}
    {result : OcrResult} (h : ocrResultSchema transactions = some result) :
    List.Forall₂ (fun transaction checked =>
      ocrTransactionSchema transaction = some checked)
        transactions result.transactions ∧
      (result.transactions.map OcrTransaction.lineNumber).Nodup := by
  simp only [ocrResultSchema, Option.bind_eq_bind, Option.bind_eq_some_iff,
    Option.pure_def, Option.ite_none_right_eq_some, Option.some.injEq,
    validLineNumbers, decide_eq_true_eq] at h
  obtain ⟨counted, hcounted, _, hparsed, hnodup, rfl⟩ := h
  obtain ⟨rfl, _⟩ := itemCountSchema_eq_some_iff.mp hcounted
  exact ⟨parseAll_eq_some_iff.mp hparsed, hnodup⟩

/-- The two passes over the list, item by item. -/
theorem forall₂_accepts {items : List JsValue}
    {reported : List OcrToolTransaction} {transactions : List OcrTransaction}
    (htool : List.Forall₂ (fun item transaction =>
      ocrToolTransactionSchema item = some transaction) items reported)
    (hresult : List.Forall₂ (fun transaction checked =>
      ocrTransactionSchema transaction = some checked)
        (reported.map OcrToolTransaction.toTransaction) transactions) :
    List.Forall₂ Accepts items transactions := by
  induction htool generalizing transactions with
  | nil =>
      cases hresult
      exact .nil
  | cons hitem _ ih =>
      cases hresult with
      | cons hchecked hrest => exact .cons ⟨_, hitem, hchecked⟩ (ih hrest)

theorem parseOcrToolInput_accepts {input : JsValue} {result : OcrResult}
    (h : parseOcrToolInput input = .ok result) :
    ∃ properties items, input = .object properties ∧
      JsValue.property properties (js "transactions") = .array items ∧
      List.Forall₂ Accepts items result.transactions ∧
      (result.transactions.map OcrTransaction.lineNumber).Nodup := by
  rw [parseOcrToolInput] at h
  split at h
  · cases h
  · rename_i hreported
    split at h
    · cases h
    · rename_i hresult
      cases h
      obtain ⟨properties, items, hinput, _, hitems, _, htool, _⟩ :=
        ocrToolInputSchema_eq_some_iff.mp hreported
      obtain ⟨hchecked, hnodup⟩ := ocrResultSchema_forall₂ hresult
      exact ⟨properties, items, hinput, hitems,
        forall₂_accepts htool hchecked, hnodup⟩

/-- An accepted OCR result numbers its lines without repetition. -/
theorem parseOcrToolInput_nodup {input : JsValue} {result : OcrResult}
    (h : parseOcrToolInput input = .ok result) :
    ((toCreateTransactionInputs result).map
      CreateTransactionInput.lineNumber).Nodup := by
  obtain ⟨_, _, _, _, _, hnodup⟩ := parseOcrToolInput_accepts h
  rw [toCreateTransactionInputs, List.map_map]
  exact hnodup

/-- An accepted OCR result can be stored if and only if no merchant of the tool
input contains U+0000. -/
theorem parseOcrToolInput_storable_iff {input : JsValue} {result : OcrResult}
    (h : parseOcrToolInput input = .ok result) :
    (∀ transaction ∈ toCreateTransactionInputs result,
      transaction.storable = true) ↔
      ∀ text ∈ input.merchantTexts, nul ∉ text := by
  obtain ⟨properties, items, rfl, hitems, haccepts, _⟩ :=
    parseOcrToolInput_accepts h
  rw [toCreateTransactionInputs, List.forall_mem_map,
    Accepts.all_storable_iff haccepts]
  simp only [JsValue.merchantTexts, hitems]

end StatementAnalyzer
