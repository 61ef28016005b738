/-
The grammar of an insights document: which values the schema takes, and the
document that such a value denotes.
-/
import StatementAnalyzer.Ai.OcrGrammar
import StatementAnalyzer.Insights.MonthlyInsights

namespace StatementAnalyzer

def InsightSeverity.text : InsightSeverity → JsString
  | info => js "info"
  | warning => js "warning"

/-- A string that is this text after trimming, and not too long. -/
def IsBoundedText (limit : Nat) (value : JsValue) (text : JsString) : Prop :=
  ∃ raw, value = .string raw ∧ text = trim raw ∧
    1 ≤ codePointLength text ∧ codePointLength text ≤ limit

/-- The fields that all insights have. -/
structure IsInsightText (literal : JsString)
    (properties : List (JsString × JsValue)) (text : InsightText) : Prop where
  type : JsValue.property properties (js "type") = .string literal
  severity : JsValue.property properties (js "severity") =
    .string text.severity.text
  title : IsBoundedText 80 (JsValue.property properties (js "title")) text.title
  description : IsBoundedText 300
    (JsValue.property properties (js "description")) text.description

/-- An optional text is left out or bounded. -/
def IsOptionalText (limit : Nat) (value : JsValue) : Option JsString → Prop
  | none => value = .undefined
  | some text => IsBoundedText limit value text

section Schemas

variable {value : JsValue} {limit : Nat}

theorem boundedText_eq_some_iff {text : JsString} :
    boundedText limit value = some text ↔ IsBoundedText limit value text := by
  simp only [boundedText, Option.bind_eq_bind, Option.bind_eq_some_iff,
    JsValue.string?_eq_some_iff, Option.ite_none_right_eq_some, Option.pure_def,
    Option.some.injEq, Bool.and_eq_true, decide_eq_true_eq, IsBoundedText]
  constructor
  · rintro ⟨raw, hraw, hlength, rfl⟩
    exact ⟨raw, hraw, rfl, hlength⟩
  · rintro ⟨raw, hraw, rfl, hlength⟩
    exact ⟨raw, hraw, hlength, rfl⟩

theorem optionalText_eq_some_iff {text : Option JsString} :
    optionalText limit value = some text ↔ IsOptionalText limit value text := by
  cases value with
  | undefined =>
      cases text with
      | none => simp [optionalText, IsOptionalText]
      | some text => simp [optionalText, IsOptionalText, IsBoundedText]
  | _ =>
      cases text <;>
        simp [optionalText, IsOptionalText, boundedText_eq_some_iff]

theorem isOptionalText_undefined_iff {text : Option JsString} :
    IsOptionalText limit .undefined text ↔ text = none := by
  cases text with
  | none => simp [IsOptionalText]
  | some text => simp [IsOptionalText, IsBoundedText]

theorem isOptionalText_string_iff {spelled : JsString}
    {text : Option JsString} : IsOptionalText limit (.string spelled) text ↔
      text = some (trim spelled) ∧ 1 ≤ codePointLength (trim spelled) ∧
        codePointLength (trim spelled) ≤ limit := by
  cases text with
  | none => simp [IsOptionalText]
  | some text =>
      simp only [IsOptionalText, IsBoundedText, JsValue.string.injEq,
        exists_eq_left', Option.some.injEq]
      constructor
      · rintro ⟨rfl, hlength⟩
        exact ⟨rfl, hlength⟩
      · rintro ⟨rfl, hlength⟩
        exact ⟨rfl, hlength⟩

theorem severitySchema_eq_some_iff {severity : InsightSeverity} :
    severitySchema value = some severity ↔ value = .string severity.text := by
  constructor
  · intro h
    obtain ⟨text, htext, hchoice⟩ := Option.bind_eq_some_iff.mp h
    obtain rfl := JsValue.string?_eq_some_iff.mp htext
    split at hchoice
    · rename_i hinfo
      cases hchoice
      exact congrArg JsValue.string hinfo
    · split at hchoice
      · rename_i hwarning
        cases hchoice
        exact congrArg JsValue.string hwarning
      · cases hchoice
  · rintro rfl
    cases severity <;> rfl

theorem insightTextSchema_eq_some_iff {literal : JsString}
    {properties : List (JsString × JsValue)} {text : InsightText} :
    insightTextSchema literal properties = some text ↔
      IsInsightText literal properties text := by
  constructor
  · intro h
    simp only [insightTextSchema, Option.bind_eq_bind, Option.pure_def] at h
    obtain ⟨type, htype, h⟩ := Option.bind_eq_some_iff.mp h
    obtain ⟨severity, hseverity, h⟩ := Option.bind_eq_some_iff.mp h
    obtain ⟨title, htitle, h⟩ := Option.bind_eq_some_iff.mp h
    obtain ⟨description, hdescription, h⟩ := Option.bind_eq_some_iff.mp h
    rw [Option.ite_none_right_eq_some, Option.some.injEq] at h
    obtain ⟨rfl, rfl⟩ := h
    exact ⟨JsValue.string?_eq_some_iff.mp htype,
      severitySchema_eq_some_iff.mp hseverity,
      boundedText_eq_some_iff.mp htitle,
      boundedText_eq_some_iff.mp hdescription⟩
  · rintro ⟨htype, hseverity, htitle, hdescription⟩
    simp only [insightTextSchema, JsValue.string?_eq_some_iff.mpr htype,
      severitySchema_eq_some_iff.mpr hseverity,
      boundedText_eq_some_iff.mpr htitle,
      boundedText_eq_some_iff.mpr hdescription, Option.bind_eq_bind,
      Option.bind_some, if_true]
    rfl

/-- The properties of an object without any other keys. -/
def HasKeys (keys : List JsString) (properties : List (JsString × JsValue)) :
    Prop :=
  ∀ entry ∈ properties, entry.1 ∈ keys

theorem strictObject?_eq_some_iff_hasKeys {value : JsValue}
    {keys : List JsString} {properties : List (JsString × JsValue)} :
    value.strictObject? keys = some properties ↔
      value = .object properties ∧ HasKeys keys properties := by
  simp only [JsValue.strictObject?_eq_some_iff, List.all_eq_true,
    decide_eq_true_eq, HasKeys]

/-- A key that the object does not have. -/
theorem property_eq_undefined {keys : List JsString} {other : JsString}
    {properties : List (JsString × JsValue)}
    (hkeys : HasKeys keys properties) (hother : other ∉ keys) :
    JsValue.property properties other = .undefined := by
  apply JsValue.property_eq_undefined_of_not_mem
  intro hmem
  obtain ⟨entry, hentry, rfl⟩ := List.mem_map.mp hmem
  exact hother (hkeys entry hentry)

/-- The grammar of one insight. -/
inductive IsInsight : JsValue → Insight → Prop
  | categoryIncrease {properties : List (JsString × JsValue)}
      {text : InsightText} {category : JsString}
      (keys : HasKeys (insightTextKeys ++ [js "category"]) properties)
      (isText : IsInsightText (js "CATEGORY_INCREASE") properties text)
      (isName : IsBoundedText 100
        (JsValue.property properties (js "category")) category) :
      IsInsight (.object properties) (.categoryIncrease text category)
  | merchantIncrease {properties : List (JsString × JsValue)}
      {text : InsightText} {merchant : JsString}
      (keys : HasKeys (insightTextKeys ++ [js "merchant"]) properties)
      (isText : IsInsightText (js "MERCHANT_INCREASE") properties text)
      (isName : IsBoundedText 100
        (JsValue.property properties (js "merchant")) merchant) :
      IsInsight (.object properties) (.merchantIncrease text merchant)
  | notableSpending {properties : List (JsString × JsValue)}
      {text : InsightText} {category merchant : Option JsString}
      (keys : HasKeys (insightTextKeys ++ [js "category", js "merchant"])
        properties)
      (isText : IsInsightText (js "NOTABLE_SPENDING") properties text)
      (isCategory : IsOptionalText 100
        (JsValue.property properties (js "category")) category)
      (isMerchant : IsOptionalText 100
        (JsValue.property properties (js "merchant")) merchant)
      (named : category.isSome = true ∨ merchant.isSome = true) :
      IsInsight (.object properties) (.notableSpending text category merchant)

theorem categoryIncreaseSchema_eq_some_iff {insight : Insight} :
    categoryIncreaseSchema value = some insight ↔
      ∃ properties text category, value = .object properties ∧
        HasKeys (insightTextKeys ++ [js "category"]) properties ∧
        IsInsightText (js "CATEGORY_INCREASE") properties text ∧
        IsBoundedText 100 (JsValue.property properties (js "category"))
          category ∧
        insight = .categoryIncrease text category := by
  simp only [categoryIncreaseSchema, Option.bind_eq_bind, Option.pure_def,
    Option.bind_eq_some_iff, strictObject?_eq_some_iff_hasKeys,
    insightTextSchema_eq_some_iff, boundedText_eq_some_iff, Option.some.injEq]
  constructor
  · rintro ⟨properties, ⟨hvalue, hkeys⟩, text, htext, category, hname, rfl⟩
    exact ⟨properties, text, category, hvalue, hkeys, htext, hname, rfl⟩
  · rintro ⟨properties, text, category, hvalue, hkeys, htext, hname, rfl⟩
    exact ⟨properties, ⟨hvalue, hkeys⟩, text, htext, category, hname, rfl⟩

theorem merchantIncreaseSchema_eq_some_iff {insight : Insight} :
    merchantIncreaseSchema value = some insight ↔
      ∃ properties text merchant, value = .object properties ∧
        HasKeys (insightTextKeys ++ [js "merchant"]) properties ∧
        IsInsightText (js "MERCHANT_INCREASE") properties text ∧
        IsBoundedText 100 (JsValue.property properties (js "merchant"))
          merchant ∧
        insight = .merchantIncrease text merchant := by
  simp only [merchantIncreaseSchema, Option.bind_eq_bind, Option.pure_def,
    Option.bind_eq_some_iff, strictObject?_eq_some_iff_hasKeys,
    insightTextSchema_eq_some_iff, boundedText_eq_some_iff, Option.some.injEq]
  constructor
  · rintro ⟨properties, ⟨hvalue, hkeys⟩, text, htext, merchant, hname, rfl⟩
    exact ⟨properties, text, merchant, hvalue, hkeys, htext, hname, rfl⟩
  · rintro ⟨properties, text, merchant, hvalue, hkeys, htext, hname, rfl⟩
    exact ⟨properties, ⟨hvalue, hkeys⟩, text, htext, merchant, hname, rfl⟩

theorem notableSpendingSchema_eq_some_iff {insight : Insight} :
    notableSpendingSchema value = some insight ↔
      ∃ properties text category merchant, value = .object properties ∧
        HasKeys (insightTextKeys ++ [js "category", js "merchant"])
          properties ∧
        IsInsightText (js "NOTABLE_SPENDING") properties text ∧
        IsOptionalText 100 (JsValue.property properties (js "category"))
          category ∧
        IsOptionalText 100 (JsValue.property properties (js "merchant"))
          merchant ∧
        (category.isSome = true ∨ merchant.isSome = true) ∧
        insight = .notableSpending text category merchant := by
  simp only [notableSpendingSchema, Option.bind_eq_bind, Option.pure_def,
    Option.bind_eq_some_iff, strictObject?_eq_some_iff_hasKeys,
    insightTextSchema_eq_some_iff, optionalText_eq_some_iff,
    Option.ite_none_right_eq_some, Option.some.injEq, Bool.or_eq_true]
  constructor
  · rintro ⟨properties, ⟨hvalue, hkeys⟩, text, htext, category, hcategory,
      merchant, hmerchant, hnamed, rfl⟩
    exact ⟨properties, text, category, merchant, hvalue, hkeys, htext, hcategory,
      hmerchant, hnamed, rfl⟩
  · rintro ⟨properties, text, category, merchant, hvalue, hkeys, htext,
      hcategory, hmerchant, hnamed, rfl⟩
    exact ⟨properties, ⟨hvalue, hkeys⟩, text, htext, category, hcategory,
      merchant, hmerchant, hnamed, rfl⟩

/-- The literal in `type` decides between the three schemas. -/
theorem IsInsightText.literal_unique {literal literal' : JsString}
    {properties : List (JsString × JsValue)} {text text' : InsightText}
    (h : IsInsightText literal properties text)
    (h' : IsInsightText literal' properties text') : literal = literal' :=
  JsValue.string.inj (h.type.symm.trans h'.type)

/-- An insight of another `type` is no increase of a category. -/
theorem categoryIncreaseSchema_eq_none {literal : JsString}
    {properties : List (JsString × JsValue)} {text : InsightText}
    (htext : IsInsightText literal properties text)
    (hne : literal ≠ js "CATEGORY_INCREASE") :
    categoryIncreaseSchema (.object properties) = none := by
  rw [Option.eq_none_iff_forall_ne_some]
  intro insight hinsight
  obtain ⟨_, _, _, ⟨⟩, _, htext', _, _⟩ :=
    categoryIncreaseSchema_eq_some_iff.mp hinsight
  exact hne (htext.literal_unique htext')

theorem merchantIncreaseSchema_eq_none {literal : JsString}
    {properties : List (JsString × JsValue)} {text : InsightText}
    (htext : IsInsightText literal properties text)
    (hne : literal ≠ js "MERCHANT_INCREASE") :
    merchantIncreaseSchema (.object properties) = none := by
  rw [Option.eq_none_iff_forall_ne_some]
  intro insight hinsight
  obtain ⟨_, _, _, ⟨⟩, _, htext', _, _⟩ :=
    merchantIncreaseSchema_eq_some_iff.mp hinsight
  exact hne (htext.literal_unique htext')

theorem insightSchema_eq_some_iff {insight : Insight} :
    insightSchema value = some insight ↔ IsInsight value insight := by
  rw [insightSchema]
  constructor
  · intro h
    cases hcategory : categoryIncreaseSchema value with
    | some first =>
        rw [hcategory] at h
        cases h
        obtain ⟨_, _, _, rfl, hkeys, htext, hname, rfl⟩ :=
          categoryIncreaseSchema_eq_some_iff.mp hcategory
        exact .categoryIncrease hkeys htext hname
    | none =>
        rw [hcategory] at h
        cases hmerchant : merchantIncreaseSchema value with
        | some second =>
            rw [hmerchant] at h
            cases h
            obtain ⟨_, _, _, rfl, hkeys, htext, hname, rfl⟩ :=
              merchantIncreaseSchema_eq_some_iff.mp hmerchant
            exact .merchantIncrease hkeys htext hname
        | none =>
            rw [hmerchant] at h
            obtain ⟨_, _, _, _, rfl, hkeys, htext, hcategory, hmerchant, hnamed,
              rfl⟩ := notableSpendingSchema_eq_some_iff.mp h
            exact .notableSpending hkeys htext hcategory hmerchant hnamed
  · intro h
    cases h with
    | categoryIncrease keys isText isName =>
        rw [categoryIncreaseSchema_eq_some_iff.mpr
          ⟨_, _, _, rfl, keys, isText, isName, rfl⟩]
        rfl
    | merchantIncrease keys isText isName =>
        rw [categoryIncreaseSchema_eq_none isText (by decide),
          merchantIncreaseSchema_eq_some_iff.mpr
            ⟨_, _, _, rfl, keys, isText, isName, rfl⟩]
        rfl
    | notableSpending keys isText isCategory isMerchant named =>
        rw [categoryIncreaseSchema_eq_none isText (by decide),
          merchantIncreaseSchema_eq_none isText (by decide),
          notableSpendingSchema_eq_some_iff.mpr ⟨_, _, _, _, rfl, keys, isText,
            isCategory, isMerchant, named, rfl⟩]
        rfl

theorem insightsDocumentSchema_eq_some_iff {document : InsightsDocument} :
    insightsDocumentSchema value = some document ↔
      ∃ properties items, value = .object properties ∧
        HasKeys [js "insights"] properties ∧
        JsValue.property properties (js "insights") = .array items ∧
        items.length ≤ 5 ∧
        List.Forall₂ IsInsight items document.insights := by
  simp only [insightsDocumentSchema, Option.bind_eq_bind, Option.pure_def,
    Option.bind_eq_some_iff, strictObject?_eq_some_iff_hasKeys,
    JsValue.array?_eq_some_iff, Option.ite_none_right_eq_some,
    parseAll_eq_some_iff, insightSchema_eq_some_iff, Option.some.injEq]
  constructor
  · rintro ⟨properties, ⟨hvalue, hkeys⟩, items, hitems, hlength, insights,
      hinsights, rfl⟩
    exact ⟨properties, items, hvalue, hkeys, hitems, hlength, hinsights⟩
  · rintro ⟨properties, items, hvalue, hkeys, hitems, hlength, hinsights⟩
    exact ⟨properties, ⟨hvalue, hkeys⟩, items, hitems, hlength, _, hinsights, rfl⟩

end Schemas

theorem parseAndValidateInsights_eq_ok_iff {raw : JsValue}
    {input : CompactInsightsInput} {document : InsightsDocument} :
    parseAndValidateInsights raw input = .ok document ↔
      insightsDocumentSchema raw = some document ∧
        ∀ insight ∈ document.insights, insightAllowed input insight = true := by
  rw [parseAndValidateInsights]
  constructor
  · intro h
    split at h
    · cases h
    · rename_i parsed hparsed
      split at h
      · rename_i hallowed
        cases h
        exact ⟨hparsed, List.all_eq_true.mp hallowed⟩
      · cases h
  · rintro ⟨hparsed, hallowed⟩
    rw [hparsed]
    exact if_pos (List.all_eq_true.mpr hallowed)

end StatementAnalyzer
