/-
The grammar of the OCR tool input, and that `parseOcrToolInput` accepts exactly
it: the second schema never refuses or changes what the first one lets through.
-/
import StatementAnalyzer.Ai.OcrSchema

namespace StatementAnalyzer

section Values

variable {value : JsValue}

theorem safeInteger?_eq_some_iff {n : Int} : value.safeInteger? = some n ↔
    value = .number n ∧ n.natAbs ≤ 9007199254740991 := by
  cases value with
  | number q =>
      simp only [JsValue.safeInteger?, Option.ite_none_right_eq_some,
        Bool.and_eq_true, decide_eq_true_eq, Option.some.injEq,
        JsValue.number.injEq]
      constructor
      · rintro ⟨⟨hint, hsafe⟩, rfl⟩
        exact ⟨(Rat.eq_num_of_isInt hint).symm ▸ rfl, hsafe⟩
      · rintro ⟨rfl, hsafe⟩
        exact ⟨⟨rfl, hsafe⟩, rfl⟩
  | _ => simp [JsValue.safeInteger?]

theorem category?_eq_some_iff {category : OcrCategory} :
    value.category? = some category ↔ value = .string category.text := by
  constructor
  · intro h
    cases value with
    | string text =>
        have htext := List.find?_some h
        rw [of_decide_eq_true htext]
    | _ => cases h
  · rintro rfl
    cases category <;> rfl

theorem subcategory?_eq_some_iff {subcategory : OcrSubcategory} :
    value.subcategory? = some subcategory ↔
      value = .string subcategory.text := by
  constructor
  · intro h
    cases value with
    | string text =>
        have htext := List.find?_some h
        rw [of_decide_eq_true htext]
    | _ => cases h
  · rintro rfl
    cases subcategory <;> rfl

theorem string?_bind_eq_some_iff {α : Type} {schema : JsString → Option α}
    {parsed : α} : value.string?.bind schema = some parsed ↔
      ∃ text, value = .string text ∧ schema text = some parsed := by
  rw [Option.bind_eq_some_iff]
  simp only [JsValue.string?_eq_some_iff]

/-- A property that is not `undefined` is there. -/
theorem mem_keys_of_property {properties : List (JsString × JsValue)}
    {key : JsString} (h : JsValue.property properties key = value)
    (hvalue : value ≠ .undefined) : key ∈ properties.map Prod.fst := by
  rw [JsValue.property] at h
  cases hfind : properties.find? fun entry => entry.1 = key with
  | none =>
      rw [hfind] at h
      exact absurd h.symm hvalue
  | some entry =>
      have hkey := List.find?_some hfind
      rw [← of_decide_eq_true hkey]
      exact List.mem_map_of_mem (List.mem_of_find?_eq_some hfind)

end Values

section Fields

variable {value : JsString}

/-- `Date.UTC` moves the years below 100 into the twentieth century. -/
theorem utcDate_eq_self_iff {year month day : Nat} :
    utcDate year month day = (year, month, day) ↔
      100 ≤ year ∧ day ≤ daysInMonth year month := by
  by_cases hyear : year ≤ 99
  · simp only [utcDate, hyear, if_true]
    split
    · simp only [Prod.mk.injEq]
      omega
    · split <;> simp only [Prod.mk.injEq] <;> omega
  · simp only [utcDate, hyear, if_false]
    split
    · simp only [true_iff]
      omega
    · split <;> simp only [Prod.mk.injEq] <;> omega

/-- `YYYY-MM-DD` names a day of the calendar, in the year 100 or later. -/
def IsTransactionDate (value : JsString) : Prop :=
  ∃ year month day, dateParts value = some (year, month, day) ∧ 100 ≤ year ∧
    isCalendarDay year month day = true

theorem daysInMonth_le (year month : Nat) : daysInMonth year month ≤ 31 := by
  unfold daysInMonth
  split
  · split <;> decide
  all_goals decide

theorem transactionDateSchema_eq_some_iff {date : JsString} :
    transactionDateSchema value = some date ↔
      date = value ∧ IsTransactionDate value := by
  rw [transactionDateSchema, Option.ite_none_right_eq_some, Option.some.injEq]
  simp only [Bool.and_eq_true, isDateText, isValidCalendarDate,
    Option.any_eq_true, Prod.exists, decide_eq_true_eq, utcDate_eq_self_iff,
    IsTransactionDate, isCalendarDay]
  constructor
  · rintro ⟨⟨⟨year, month, day, hparts, hrange⟩,
      ⟨year', month', day', hparts', hcalendar⟩⟩, rfl⟩
    cases hparts.symm.trans hparts'
    exact ⟨rfl, year, month, day, hparts, by omega, by omega⟩
  · rintro ⟨rfl, year, month, day, hparts, hyear, hcalendar⟩
    have hmost := daysInMonth_le year month
    exact ⟨⟨⟨year, month, day, hparts, by omega⟩,
      ⟨year, month, day, hparts, by omega⟩⟩, rfl⟩

/-- Between 1 and 200 code points after trimming. -/
def IsMerchant (value : JsString) : Prop :=
  1 ≤ codePointLength (trim value) ∧ codePointLength (trim value) ≤ 200

theorem merchantSchema_eq_some_iff {merchant : JsString} :
    merchantSchema value = some merchant ↔
      merchant = trim value ∧ IsMerchant value := by
  simp only [merchantSchema, Option.ite_none_right_eq_some, Bool.and_eq_true,
    decide_eq_true_eq, Option.some.injEq, IsMerchant]
  constructor
  · rintro ⟨hlength, rfl⟩
    exact ⟨rfl, hlength⟩
  · rintro ⟨rfl, hlength⟩
    exact ⟨hlength, rfl⟩

/-- What is left of a merchant passes again, as it is. -/
theorem merchantSchema_merchantSchema {merchant : JsString}
    (h : merchantSchema value = some merchant) :
    merchantSchema merchant = some merchant := by
  obtain ⟨rfl, hmerchant⟩ := merchantSchema_eq_some_iff.mp h
  apply merchantSchema_eq_some_iff.mpr
  rw [IsMerchant, trim_trim]
  exact ⟨rfl, hmerchant⟩

theorem amountSchema_eq_some_iff {value amount : Int} :
    amountSchema value = some amount ↔
      amount = value ∧ value ≠ 0 ∧ value.natAbs ≤ 100000000 := by
  simp only [amountSchema, Option.ite_none_right_eq_some, Bool.and_eq_true,
    decide_eq_true_eq, Option.some.injEq]
  constructor
  · rintro ⟨hamount, rfl⟩
    exact ⟨rfl, hamount⟩
  · rintro ⟨rfl, hamount⟩
    exact ⟨hamount, rfl⟩

theorem lineNumberSchema_eq_some_iff {value lineNumber : Int} :
    lineNumberSchema value = some lineNumber ↔
      lineNumber = value ∧ 1 ≤ value ∧ value ≤ MAX_OCR_TRANSACTIONS := by
  simp only [lineNumberSchema, Option.ite_none_right_eq_some, Bool.and_eq_true,
    decide_eq_true_eq, Option.some.injEq]
  constructor
  · rintro ⟨hline, rfl⟩
    exact ⟨rfl, by omega⟩
  · rintro ⟨rfl, hline⟩
    exact ⟨by omega, rfl⟩

theorem itemCountSchema_eq_some_iff {α : Type} {items counted : List α} :
    itemCountSchema items = some counted ↔ counted = items ∧
      1 ≤ items.length ∧ items.length ≤ MAX_OCR_TRANSACTIONS := by
  simp only [itemCountSchema, Option.ite_none_right_eq_some, Bool.and_eq_true,
    decide_eq_true_eq, Option.some.injEq]
  constructor
  · rintro ⟨hcount, rfl⟩
    exact ⟨rfl, hcount⟩
  · rintro ⟨rfl, hcount⟩
    exact ⟨hcount, rfl⟩

/-- A subcategory of the category, or `なし` where the category has none. -/
def IsPair (category : OcrCategory) (subcategory : OcrSubcategory) : Prop :=
  subcategory.text ∈ subcategoriesByCategory category ∨
    (subcategoriesByCategory category = [] ∧ subcategory = .none)

theorem validCategoryAndSubcategory_iff {category : OcrCategory}
    {subcategory : OcrSubcategory} :
    validCategoryAndSubcategory category subcategory = true ↔
      IsPair category subcategory := by
  cases category <;> cases subcategory <;>
    simp [validCategoryAndSubcategory, IsPair, subcategoriesByCategory] <;>
    decide

end Fields

/-- The grammar of one item, and the transaction that it denotes. -/
inductive OcrItem : JsValue → OcrTransaction → Prop
  | mk {properties : List (JsString × JsValue)}
      {date merchantRaw merchantName : JsString} {amount lineNumber : Int}
      {category : OcrCategory} {subcategory : OcrSubcategory}
      (keys : ∀ key, key ∈ properties.map Prod.fst ↔ key ∈ transactionKeys)
      (transactionDate : JsValue.property properties (js "transactionDate") =
        .string date)
      (raw : JsValue.property properties (js "merchantRaw") =
        .string merchantRaw)
      (name : JsValue.property properties (js "merchantName") =
        .string merchantName)
      (amounts : JsValue.property properties (js "amount") = .number amount)
      (categories : JsValue.property properties (js "category") =
        .string category.text)
      (subcategories : JsValue.property properties (js "subcategory") =
        .string subcategory.text)
      (lines : JsValue.property properties (js "lineNumber") =
        .number lineNumber)
      (isDate : IsTransactionDate date)
      (isRaw : IsMerchant merchantRaw) (isName : IsMerchant merchantName)
      (isAmount : amount ≠ 0 ∧ amount.natAbs ≤ 100000000)
      (isPair : IsPair category subcategory)
      (isLine : 1 ≤ lineNumber ∧ lineNumber ≤ 100) :
      OcrItem (.object properties) {
        transactionDate := date
        merchantRaw := trim merchantRaw
        merchantName := trim merchantName
        amount := amount
        category := category
        subcategory :=
          if subcategory = .none then none else some subcategory.text
        lineNumber := lineNumber }

/-- The grammar of the tool input, and the result that it denotes. -/
inductive OcrInput : JsValue → OcrResult → Prop
  | mk {properties : List (JsString × JsValue)} {items : List JsValue}
      {transactions : List OcrTransaction}
      (keys : ∀ key, key ∈ properties.map Prod.fst ↔ key = js "transactions")
      (array : JsValue.property properties (js "transactions") = .array items)
      (count : 1 ≤ items.length ∧ items.length ≤ 100)
      (denote : List.Forall₂ OcrItem items transactions)
      (distinct : (transactions.map OcrTransaction.lineNumber).Nodup) :
      OcrInput (.object properties) ⟨transactions⟩

section Items

variable {item : JsValue} {reported : OcrToolTransaction}

theorem keys_iff {properties : List (JsString × JsValue)}
    {keys : List JsString}
    (hall : (properties.all fun entry => entry.1 ∈ keys) = true)
    (hthere : ∀ key ∈ keys, key ∈ properties.map Prod.fst) (key : JsString) :
    key ∈ properties.map Prod.fst ↔ key ∈ keys := by
  constructor
  · intro hkey
    obtain ⟨entry, hentry, rfl⟩ := List.mem_map.mp hkey
    exact of_decide_eq_true (List.all_eq_true.mp hall entry hentry)
  · exact hthere key

theorem all_keys {properties : List (JsString × JsValue)}
    {keys : List JsString}
    (h : ∀ key, key ∈ properties.map Prod.fst ↔ key ∈ keys) :
    (properties.all fun entry => entry.1 ∈ keys) = true := by
  rw [List.all_eq_true]
  intro entry hentry
  exact decide_eq_true ((h entry.1).mp (List.mem_map_of_mem hentry))

/-- What the first schema takes is in the grammar. -/
theorem ocrItem_of_schema (h : ocrToolTransactionSchema item = some reported) :
    OcrItem item reported.toTransaction := by
  simp only [ocrToolTransactionSchema, Option.bind_eq_bind, Option.pure_def] at h
  obtain ⟨properties, hitem, h⟩ := Option.bind_eq_some_iff.mp h
  obtain ⟨date, hdate, h⟩ := Option.bind_eq_some_iff.mp h
  obtain ⟨raw, hraw, h⟩ := Option.bind_eq_some_iff.mp h
  obtain ⟨name, hname, h⟩ := Option.bind_eq_some_iff.mp h
  obtain ⟨amount, hamount, h⟩ := Option.bind_eq_some_iff.mp h
  obtain ⟨category, hcategory, h⟩ := Option.bind_eq_some_iff.mp h
  obtain ⟨subcategory, hsubcategory, h⟩ := Option.bind_eq_some_iff.mp h
  obtain ⟨lineNumber, hline, h⟩ := Option.bind_eq_some_iff.mp h
  rw [Option.ite_none_right_eq_some, Option.some.injEq] at h
  obtain ⟨hpair, rfl⟩ := h
  obtain ⟨rfl, hkeys⟩ := JsValue.strictObject?_eq_some_iff.mp hitem
  obtain ⟨date', hdateText, hdate⟩ := string?_bind_eq_some_iff.mp hdate
  obtain ⟨raw', hrawText, hraw⟩ := string?_bind_eq_some_iff.mp hraw
  obtain ⟨name', hnameText, hname⟩ := string?_bind_eq_some_iff.mp hname
  obtain ⟨amount', hamountValue, hamount⟩ := Option.bind_eq_some_iff.mp hamount
  obtain ⟨line', hlineValue, hline⟩ := Option.bind_eq_some_iff.mp hline
  obtain ⟨rfl, hisDate⟩ := transactionDateSchema_eq_some_iff.mp hdate
  obtain ⟨rfl, hisRaw⟩ := merchantSchema_eq_some_iff.mp hraw
  obtain ⟨rfl, hisName⟩ := merchantSchema_eq_some_iff.mp hname
  obtain ⟨rfl, hisAmount⟩ := amountSchema_eq_some_iff.mp hamount
  obtain ⟨rfl, hisLine⟩ := lineNumberSchema_eq_some_iff.mp hline
  have hamountNumber := (safeInteger?_eq_some_iff.mp hamountValue).1
  have hlineNumber := (safeInteger?_eq_some_iff.mp hlineValue).1
  have hcategoryText := category?_eq_some_iff.mp hcategory
  have hsubcategoryText := subcategory?_eq_some_iff.mp hsubcategory
  have hthere : ∀ key ∈ transactionKeys, key ∈ properties.map Prod.fst := by
    simp only [transactionKeys, List.forall_mem_cons]
    exact ⟨mem_keys_of_property hdateText (by simp),
      mem_keys_of_property hrawText (by simp),
      mem_keys_of_property hnameText (by simp),
      mem_keys_of_property hamountNumber (by simp),
      mem_keys_of_property hcategoryText (by simp),
      mem_keys_of_property hsubcategoryText (by simp),
      mem_keys_of_property hlineNumber (by simp), by simp⟩
  exact .mk (keys_iff hkeys hthere) hdateText hrawText hnameText hamountNumber
    hcategoryText hsubcategoryText hlineNumber hisDate hisRaw hisName hisAmount
    (validCategoryAndSubcategory_iff.mp hpair) hisLine

/-- What is in the grammar, the first schema takes. -/
theorem OcrItem.schema {transaction : OcrTransaction}
    (h : OcrItem item transaction) :
    ∃ reported, ocrToolTransactionSchema item = some reported ∧
      reported.toTransaction = transaction := by
  cases h with
  | @mk properties date merchantRaw merchantName amount lineNumber category
      subcategory keys transactionDate raw name amounts categories
      subcategories lines isDate isRaw isName isAmount isPair isLine =>
      have hobject := JsValue.strictObject?_eq_some_iff.mpr
        ⟨rfl, all_keys keys⟩
      have hdate := string?_bind_eq_some_iff.mpr ⟨date, transactionDate,
        transactionDateSchema_eq_some_iff.mpr ⟨rfl, isDate⟩⟩
      have hraw := string?_bind_eq_some_iff.mpr ⟨merchantRaw, raw,
        merchantSchema_eq_some_iff.mpr ⟨rfl, isRaw⟩⟩
      have hname := string?_bind_eq_some_iff.mpr ⟨merchantName, name,
        merchantSchema_eq_some_iff.mpr ⟨rfl, isName⟩⟩
      have hamount := Option.bind_eq_some_iff.mpr ⟨amount,
        safeInteger?_eq_some_iff.mpr ⟨amounts, by omega⟩,
        amountSchema_eq_some_iff.mpr ⟨rfl, isAmount⟩⟩
      have hline := Option.bind_eq_some_iff.mpr ⟨lineNumber,
        safeInteger?_eq_some_iff.mpr ⟨lines, by omega⟩,
        lineNumberSchema_eq_some_iff.mpr ⟨rfl, isLine⟩⟩
      refine ⟨⟨date, trim merchantRaw, trim merchantName, amount, category,
        subcategory, lineNumber⟩, ?_, rfl⟩
      simp only [ocrToolTransactionSchema, hobject, hdate, hraw, hname, hamount,
        category?_eq_some_iff.mpr categories,
        subcategory?_eq_some_iff.mpr subcategories, hline,
        validCategoryAndSubcategory_iff.mpr isPair, Option.bind_eq_bind,
        Option.bind_some, if_true]
      rfl

/-- The second schema leaves what the first one has let through. -/
theorem ocrTransactionSchema_toTransaction
    (h : ocrToolTransactionSchema item = some reported) :
    ocrTransactionSchema reported.toTransaction =
      some reported.toTransaction := by
  have hitem := ocrItem_of_schema h
  generalize reported.toTransaction = transaction at hitem
  cases hitem with
  | @mk properties date merchantRaw merchantName amount lineNumber category
      subcategory keys transactionDate raw name amounts categories
      subcategories lines isDate isRaw isName isAmount isPair isLine =>
      have hdate := transactionDateSchema_eq_some_iff.mpr ⟨rfl, isDate⟩
      have hraw := merchantSchema_merchantSchema
        (merchantSchema_eq_some_iff.mpr ⟨rfl, isRaw⟩)
      have hname := merchantSchema_merchantSchema
        (merchantSchema_eq_some_iff.mpr ⟨rfl, isName⟩)
      have hamount := amountSchema_eq_some_iff.mpr ⟨rfl, isAmount⟩
      have hline := lineNumberSchema_eq_some_iff.mpr ⟨rfl, isLine⟩
      have hpair : (if subcategory = .none then none
          else some subcategory.text).all
            (subcategoriesByCategory category).contains = true := by
        rcases isPair with hlisted | ⟨_, hnone⟩
        · split
          · rfl
          · exact List.contains_iff_mem.mpr hlisted
        · rw [if_pos hnone]
          rfl
      simp only [ocrTransactionSchema, hdate, hraw, hname, hamount, hline, hpair,
        Option.bind_eq_bind, Option.bind_some, if_true]
      rfl

theorem forall₂_schema {items : List JsValue}
    {transactions : List OcrTransaction}
    (h : List.Forall₂ OcrItem items transactions) :
    ∃ reported, List.Forall₂ (fun item transaction =>
        ocrToolTransactionSchema item = some transaction) items reported ∧
      reported.map OcrToolTransaction.toTransaction = transactions := by
  induction h with
  | nil => exact ⟨[], .nil, rfl⟩
  | cons hitem _ ih =>
      obtain ⟨first, hfirst, rfl⟩ := hitem.schema
      obtain ⟨rest, hrest, rfl⟩ := ih
      exact ⟨first :: rest, .cons hfirst hrest, rfl⟩

theorem forall₂_ocrItem {items : List JsValue}
    {reported : List OcrToolTransaction}
    (h : List.Forall₂ (fun item transaction =>
      ocrToolTransactionSchema item = some transaction) items reported) :
    List.Forall₂ OcrItem items
      (reported.map OcrToolTransaction.toTransaction) := by
  induction h with
  | nil => exact .nil
  | cons hitem _ ih => exact .cons (ocrItem_of_schema hitem) ih

theorem forall₂_toTransaction {items : List JsValue}
    {reported : List OcrToolTransaction}
    (h : List.Forall₂ (fun item transaction =>
      ocrToolTransactionSchema item = some transaction) items reported) :
    List.Forall₂ (fun transaction checked =>
      ocrTransactionSchema transaction = some checked)
        (reported.map OcrToolTransaction.toTransaction)
        (reported.map OcrToolTransaction.toTransaction) := by
  induction h with
  | nil => exact .nil
  | cons hitem _ ih => exact .cons (ocrTransactionSchema_toTransaction hitem) ih

end Items

section Input

variable {input : JsValue} {reported : List OcrToolTransaction}

theorem ocrToolInputSchema_eq_some_iff :
    ocrToolInputSchema input = some reported ↔
      ∃ properties items, input = .object properties ∧
        (∀ key, key ∈ properties.map Prod.fst ↔ key = js "transactions") ∧
        JsValue.property properties (js "transactions") = .array items ∧
        (1 ≤ items.length ∧ items.length ≤ MAX_OCR_TRANSACTIONS) ∧
        List.Forall₂ (fun item transaction =>
          ocrToolTransactionSchema item = some transaction) items reported ∧
        (reported.map OcrToolTransaction.lineNumber).Nodup := by
  constructor
  · intro h
    simp only [ocrToolInputSchema, Option.bind_eq_bind, Option.pure_def] at h
    obtain ⟨properties, hobject, h⟩ := Option.bind_eq_some_iff.mp h
    obtain ⟨items, harray, h⟩ := Option.bind_eq_some_iff.mp h
    obtain ⟨counted, hcounted, h⟩ := Option.bind_eq_some_iff.mp h
    obtain ⟨parsed, hparsed, h⟩ := Option.bind_eq_some_iff.mp h
    rw [Option.ite_none_right_eq_some, Option.some.injEq] at h
    obtain ⟨hnodup, rfl⟩ := h
    obtain ⟨rfl, hkeys⟩ := JsValue.strictObject?_eq_some_iff.mp hobject
    obtain ⟨rfl, hcount⟩ := itemCountSchema_eq_some_iff.mp hcounted
    have harray := JsValue.array?_eq_some_iff.mp harray
    have hthere : ∀ key ∈ [js "transactions"],
        key ∈ properties.map Prod.fst := by
      rw [List.forall_mem_singleton]
      exact mem_keys_of_property harray (by simp)
    refine ⟨properties, counted, rfl, fun key => ?_, harray, hcount,
      parseAll_eq_some_iff.mp hparsed, of_decide_eq_true hnodup⟩
    rw [keys_iff hkeys hthere, List.mem_singleton]
  · rintro ⟨properties, items, rfl, hkeys, harray, hcount, hparsed, hnodup⟩
    have hobject := JsValue.strictObject?_eq_some_iff.mpr ⟨rfl,
      all_keys fun key => (hkeys key).trans List.mem_singleton.symm⟩
    have hcounted := itemCountSchema_eq_some_iff.mpr ⟨rfl, hcount⟩
    simp only [ocrToolInputSchema, hobject, JsValue.array?_eq_some_iff.mpr harray,
      hcounted, parseAll_eq_some_iff.mpr hparsed, Option.bind_eq_bind,
      Option.bind_some, validLineNumbers, decide_eq_true hnodup, if_true]
    rfl

/-- The second pass neither refuses nor changes anything. -/
theorem ocrResultSchema_toTransaction
    (h : ocrToolInputSchema input = some reported) :
    ocrResultSchema (reported.map OcrToolTransaction.toTransaction) =
      some ⟨reported.map OcrToolTransaction.toTransaction⟩ := by
  obtain ⟨_, items, _, _, _, hcount, hparsed, hnodup⟩ :=
    ocrToolInputSchema_eq_some_iff.mp h
  have hlength : (reported.map OcrToolTransaction.toTransaction).length =
      items.length := by
    rw [List.length_map]
    exact hparsed.length_eq.symm
  have hcounted := itemCountSchema_eq_some_iff.mpr ⟨rfl, hlength ▸ hcount⟩
  have hlines : ((reported.map OcrToolTransaction.toTransaction).map
      OcrTransaction.lineNumber).Nodup := by
    rw [List.map_map]
    exact hnodup
  simp only [ocrResultSchema, hcounted,
    parseAll_eq_some_iff.mpr (forall₂_toTransaction hparsed),
    Option.bind_eq_bind, Option.bind_some, validLineNumbers,
    decide_eq_true hlines, if_true]
  rfl

/-- `parseOcrToolInput` takes exactly the grammar, and answers what a value of it
denotes. -/
theorem parseOcrToolInput_iff (input : JsValue) :
    (∀ result, parseOcrToolInput input = .ok result ↔ OcrInput input result) ∧
      ∀ reported, ocrToolInputSchema input = some reported →
        ocrResultSchema (reported.map OcrToolTransaction.toTransaction) =
          some ⟨reported.map OcrToolTransaction.toTransaction⟩ := by
  refine ⟨fun result => ⟨fun h => ?_, fun h => ?_⟩,
    fun reported h => ocrResultSchema_toTransaction h⟩
  · cases hreported : ocrToolInputSchema input with
    | none =>
        rw [parseOcrToolInput, hreported] at h
        cases h
    | some reported =>
        rw [parseOcrToolInput, hreported] at h
        simp only [ocrResultSchema_toTransaction hreported] at h
        cases h
        obtain ⟨properties, items, rfl, hkeys, harray, hcount, hparsed,
          hnodup⟩ := ocrToolInputSchema_eq_some_iff.mp hreported
        apply OcrInput.mk hkeys harray hcount (forall₂_ocrItem hparsed)
        rw [List.map_map]
        exact hnodup
  · cases h with
    | mk keys array count denote distinct =>
        obtain ⟨reported, hparsed, rfl⟩ := forall₂_schema denote
        rw [List.map_map] at distinct
        have hreported := ocrToolInputSchema_eq_some_iff.mpr
          ⟨_, _, rfl, keys, array, count, hparsed, distinct⟩
        rw [parseOcrToolInput, hreported]
        simp only [ocrResultSchema_toTransaction hreported]

end Input

section Sample

/-- A leap day, a merchant to trim, and a category without subcategories. -/
def sampleOcrInput : JsValue :=
  .object [(js "transactions", .array [.object [
    (js "transactionDate", .string (js "2024-02-29")),
    (js "merchantRaw", .string (js " A ")),
    (js "merchantName", .string (js "A")),
    (js "amount", .number (-300)),
    (js "category", .string (js "旅行")),
    (js "subcategory", .string (js "なし")),
    (js "lineNumber", .number 1)]])]

theorem parseOcrToolInput_iff_sampleOcrInput :
    OcrInput sampleOcrInput
      ⟨[⟨js "2024-02-29", js "A", js "A", -300, .travel, none, 1⟩]⟩ :=
  ((parseOcrToolInput_iff sampleOcrInput).1 _).mp (by decide +kernel)

/-- 101 code points, in 201 units. -/
def emojiMerchant : JsString :=
  (List.replicate 100 (js "😀")).flatten ++ js "a"

def emojiOcrInput : JsValue :=
  .object [(js "transactions", .array [.object [
    (js "transactionDate", .string (js "2024-02-29")),
    (js "merchantRaw", .string emojiMerchant),
    (js "merchantName", .string (js "A")),
    (js "amount", .number (-300)),
    (js "category", .string (js "旅行")),
    (js "subcategory", .string (js "なし")),
    (js "lineNumber", .number 1)]])]

/-- A merchant of more than 200 units passes: the schema counts code points. -/
theorem parseOcrToolInput_emojiMerchant :
    parseOcrToolInput emojiOcrInput = .ok
        ⟨[⟨js "2024-02-29", emojiMerchant, js "A", -300, .travel, none, 1⟩]⟩ ∧
      trim emojiMerchant = emojiMerchant ∧ emojiMerchant.length = 201 := by
  decide +kernel

end Sample

end StatementAnalyzer
