/-
A validated document survives its storage as JSON: the validation takes what it
has returned, and returns the same.
-/
import StatementAnalyzer.Insights.InsightsGrammar
import StatementAnalyzer.Js.Json

namespace StatementAnalyzer

/-- The properties of `insightTextSchema`, behind the type. -/
def InsightText.properties (text : InsightText) (type : JsString) :
    List (JsString × JsValue) :=
  [(js "type", .string type),
    (js "severity", .string text.severity.text),
    (js "title", .string text.title),
    (js "description", .string text.description)]

/-- A property that JSON leaves out where it is undefined. -/
def optionalProperty (key : JsString) (text : Option JsString) :
    List (JsString × JsValue) :=
  (text.map fun text => (key, JsValue.string text)).toList

/-- What JSON.stringify writes of an insight. -/
def Insight.toJson : Insight → JsValue
  | categoryIncrease text category =>
      .object (text.properties (js "CATEGORY_INCREASE") ++
        [(js "category", .string category)])
  | merchantIncrease text merchant =>
      .object (text.properties (js "MERCHANT_INCREASE") ++
        [(js "merchant", .string merchant)])
  | notableSpending text category merchant =>
      .object (text.properties (js "NOTABLE_SPENDING") ++
        (optionalProperty (js "category") category ++
          optionalProperty (js "merchant") merchant))

def InsightsDocument.toJson (document : InsightsDocument) : JsValue :=
  .object [(js "insights", .array (document.insights.map Insight.toJson))]

section Normal

variable {value : JsValue} {limit : Nat}

/-- A bounded text is bounded once more. -/
theorem IsBoundedText.again {text : JsString} (h : IsBoundedText limit value text) :
    IsBoundedText limit (.string text) text := by
  obtain ⟨raw, _, rfl, hlength⟩ := h
  exact ⟨trim raw, rfl, (trim_trim raw).symm, hlength⟩

theorem IsOptionalText.again {text : Option JsString}
    (h : IsOptionalText limit value text) :
    IsOptionalText limit ((text.map JsValue.string).getD .undefined) text := by
  cases text with
  | none => rfl
  | some text => exact IsBoundedText.again h

theorem IsInsightText.again {type : JsString}
    {properties more : List (JsString × JsValue)} {text : InsightText}
    (h : IsInsightText type properties text) :
    IsInsightText type (text.properties type ++ more) text :=
  ⟨rfl, rfl, h.title.again, h.description.again⟩

theorem hasKeys_properties (text : InsightText) (type : JsString) :
    HasKeys insightTextKeys (text.properties type) := by
  intro entry hentry
  simp only [InsightText.properties, List.mem_cons, List.not_mem_nil,
    or_false] at hentry
  rcases hentry with rfl | rfl | rfl | rfl <;> simp [insightTextKeys]

theorem hasKeys_append {keys : List JsString} {text : InsightText}
    {type : JsString} {properties : List (JsString × JsValue)}
    (h : HasKeys keys properties) : HasKeys (insightTextKeys ++ keys)
      (text.properties type ++ properties) := by
  intro entry hentry
  rcases List.mem_append.mp hentry with htext | hmore
  · exact List.mem_append_left _ (hasKeys_properties text type entry htext)
  · exact List.mem_append_right _ (h entry hmore)

/-- The names stand behind the text. -/
theorem property_properties_append {text : InsightText} {type key : JsString}
    {properties : List (JsString × JsValue)} (hkey : key ∉ insightTextKeys) :
    JsValue.property (text.properties type ++ properties) key =
      JsValue.property properties key := by
  have hnone : (text.properties type).find? (fun entry => entry.1 = key) =
      none := by
    rw [List.find?_eq_none]
    intro entry hentry hname
    rw [decide_eq_true_eq] at hname
    exact hkey (hname ▸ hasKeys_properties text type entry hentry)
  rw [JsValue.property, List.find?_append, hnone, Option.none_or]
  rfl

theorem hasKeys_optionalProperty {category merchant : Option JsString} :
    HasKeys [js "category", js "merchant"]
      (optionalProperty (js "category") category ++
        optionalProperty (js "merchant") merchant) := by
  intro entry hentry
  cases category <;> cases merchant <;>
    simp_all [optionalProperty]
  rcases hentry with rfl | rfl <;> simp

theorem property_optionalProperty {category merchant : Option JsString} :
    JsValue.property (optionalProperty (js "category") category ++
        optionalProperty (js "merchant") merchant) (js "category") =
      (category.map JsValue.string).getD .undefined ∧
    JsValue.property (optionalProperty (js "category") category ++
        optionalProperty (js "merchant") merchant) (js "merchant") =
      (merchant.map JsValue.string).getD .undefined := by
  cases category <;> cases merchant <;> exact ⟨rfl, rfl⟩

/-- The JSON of an insight denotes the insight. -/
theorem IsInsight.toJson {insight : Insight} (h : IsInsight value insight) :
    IsInsight insight.toJson insight := by
  cases h with
  | categoryIncrease _ isText isName =>
      apply IsInsight.categoryIncrease
      · exact hasKeys_append (by simp [HasKeys])
      · exact isText.again
      · rw [property_properties_append (by decide)]
        exact isName.again
  | merchantIncrease _ isText isName =>
      apply IsInsight.merchantIncrease
      · exact hasKeys_append (by simp [HasKeys])
      · exact isText.again
      · rw [property_properties_append (by decide)]
        exact isName.again
  | notableSpending _ isText isCategory isMerchant named =>
      apply IsInsight.notableSpending
      · exact hasKeys_append hasKeys_optionalProperty
      · exact isText.again
      · rw [property_properties_append (by decide), property_optionalProperty.1]
        exact isCategory.again
      · rw [property_properties_append (by decide), property_optionalProperty.2]
        exact isMerchant.again
      · exact named

end Normal

namespace JsValue.SameProperties

variable {properties properties' : List (JsString × JsValue)}

/-- A text or nothing is the same in an equal object. -/
theorem isOptionalText (h : SameProperties properties properties')
    {key : JsString} {limit : Nat} {text : Option JsString}
    (htext : IsOptionalText limit (property properties key) text) :
    IsOptionalText limit (property properties' key) text := by
  by_cases hkey : key ∈ properties.map Prod.fst
  · have hvalue := h.values key hkey
    cases text with
    | none =>
        rw [show property properties key = .undefined from htext] at hvalue
        cases hvalue
    | some text =>
        obtain ⟨raw, hraw, htext⟩ := htext
        rw [hraw, jsonEqual_string_iff] at hvalue
        exact ⟨raw, hvalue, htext⟩
  · rw [property_eq_undefined_of_not_mem hkey] at htext
    rw [property_eq_undefined_of_not_mem (mt (h.keys key).mp hkey)]
    exact htext

theorem isBoundedText (h : SameProperties properties properties')
    {key text : JsString} {limit : Nat}
    (htext : IsBoundedText limit (property properties key) text) :
    IsBoundedText limit (property properties' key) text := by
  have htext' : IsOptionalText limit (property properties key) (some text) :=
    htext
  exact h.isOptionalText htext'

theorem property_string (h : SameProperties properties properties')
    {key text : JsString} (htext : property properties key = .string text) :
    property properties' key = .string text := by
  have hvalue := h.values key (mem_keys_of_property htext (by simp))
  rw [htext, jsonEqual_string_iff] at hvalue
  exact hvalue

theorem isInsightText (h : SameProperties properties properties')
    {type : JsString} {text : InsightText}
    (htext : IsInsightText type properties text) :
    IsInsightText type properties' text where
  type := h.property_string htext.type
  severity := h.property_string htext.severity
  title := h.isBoundedText htext.title
  description := h.isBoundedText htext.description

theorem hasKeys (h : SameProperties properties properties')
    {keys : List JsString} (hkeys : HasKeys keys properties) :
    HasKeys keys properties' := by
  intro entry hentry
  have hmem := (h.keys entry.1).mp (List.mem_map_of_mem hentry)
  obtain ⟨other, hother, hname⟩ := List.mem_map.mp hmem
  exact hname ▸ hkeys other hother

end JsValue.SameProperties

/-- Equal values denote the same insight. -/
theorem IsInsight.of_equal {value value' : JsValue} {insight : Insight}
    (h : IsInsight value insight) (hequal : JsValue.JsonEqual value value') :
    IsInsight value' insight := by
  cases h with
  | categoryIncrease keys isText isName =>
      obtain ⟨_, rfl, hsame⟩ := JsValue.jsonEqual_object_iff.mp hequal
      exact .categoryIncrease (hsame.hasKeys keys) (hsame.isInsightText isText)
        (hsame.isBoundedText isName)
  | merchantIncrease keys isText isName =>
      obtain ⟨_, rfl, hsame⟩ := JsValue.jsonEqual_object_iff.mp hequal
      exact .merchantIncrease (hsame.hasKeys keys) (hsame.isInsightText isText)
        (hsame.isBoundedText isName)
  | notableSpending keys isText isCategory isMerchant named =>
      obtain ⟨_, rfl, hsame⟩ := JsValue.jsonEqual_object_iff.mp hequal
      exact .notableSpending (hsame.hasKeys keys) (hsame.isInsightText isText)
        (hsame.isOptionalText isCategory) (hsame.isOptionalText isMerchant) named

theorem forall₂_isInsight_again {items items' : List JsValue}
    {insights : List Insight} (h : List.Forall₂ IsInsight items insights)
    (hequal : List.Forall₂ JsValue.JsonEqual (insights.map Insight.toJson)
      items') : List.Forall₂ IsInsight items' insights := by
  induction h generalizing items' with
  | nil =>
      cases hequal
      exact .nil
  | cons hinsight _ ih =>
      cases hequal with
      | cons hitem hrest =>
          exact .cons (hinsight.toJson.of_equal hitem) (ih hrest)

/-- The validation is idempotent, through JSON and back. -/
theorem parseAndValidateInsights_again {raw stored : JsValue}
    {input : CompactInsightsInput} {document : InsightsDocument}
    (h : parseAndValidateInsights raw input = .ok document)
    (hequal : JsValue.JsonEqual document.toJson stored) :
    parseAndValidateInsights stored input = .ok document := by
  obtain ⟨hschema, hallowed⟩ := parseAndValidateInsights_eq_ok_iff.mp h
  obtain ⟨_, items, rfl, _, _, hlength, hinsights⟩ :=
    insightsDocumentSchema_eq_some_iff.mp hschema
  obtain ⟨properties, rfl, hsame⟩ := JsValue.jsonEqual_object_iff.mp hequal
  obtain ⟨items', hitems, hitems'⟩ := JsValue.jsonEqual_array_iff.mp
    (hsame.values (js "insights") (List.mem_singleton.mpr rfl))
  have hinsights' := forall₂_isInsight_again hinsights hitems'
  apply parseAndValidateInsights_eq_ok_iff.mpr
  refine ⟨insightsDocumentSchema_eq_some_iff.mpr ⟨properties, items', rfl, ?_,
    hitems, ?_, hinsights'⟩, hallowed⟩
  · exact hsame.hasKeys (by simp [HasKeys])
  · rw [hinsights'.length_eq, ← hinsights.length_eq]
    exact hlength

end StatementAnalyzer
