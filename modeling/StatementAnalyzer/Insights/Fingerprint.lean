/-
The fingerprint of the analytics.  Two inputs share it exactly where they are
the same analytics, with their lists in any order.
-/
import StatementAnalyzer.Insights.MonthlyInsights
import StatementAnalyzer.Js.Stringify

namespace StatementAnalyzer

/-- A bucket as the source holds it: each number is the double nearest to the
exact one, and `none` where that is not finite. -/
structure BucketFields where
  name : JsString
  amount : Option ℚ
  count : Option ℚ
  percentage : Option (Option ℚ)
  previousAmount : Option (Option ℚ)
  amountChangePercentage : Option (Option ℚ)
deriving DecidableEq, Repr

structure TotalsFields where
  totalAmount : Option ℚ
  transactionCount : Option ℚ
deriving DecidableEq, Repr

def CompactInsightsBucket.fields (bucket : CompactInsightsBucket) :
    BucketFields where
  name := bucket.name
  amount := toDouble bucket.amount
  count := toDouble bucket.count
  percentage := bucket.percentage.map toDouble
  previousAmount := bucket.previousAmount.map fun amount : Int => toDouble amount
  amountChangePercentage := bucket.amountChangePercentage.map toDouble

def CompactInsightsTotals.fields (totals : CompactInsightsTotals) :
    TotalsFields :=
  ⟨toDouble totals.totalAmount, toDouble totals.transactionCount⟩

/-- A number in JSON; one that is not finite is written as null. -/
def jsonNumber : Option ℚ → JsValue
  | some value => .number value
  | none => .null

def jsonNullable : Option (Option ℚ) → JsValue
  | some value => jsonNumber value
  | none => .null

def BucketFields.json (fields : BucketFields) : JsValue :=
  .object [(js "name", .string fields.name),
    (js "amount", jsonNumber fields.amount),
    (js "count", jsonNumber fields.count),
    (js "percentage", jsonNullable fields.percentage),
    (js "previousAmount", jsonNullable fields.previousAmount),
    (js "amountChangePercentage", jsonNullable fields.amountChangePercentage)]

def TotalsFields.json (fields : TotalsFields) : JsValue :=
  .object [(js "totalAmount", jsonNumber fields.totalAmount),
    (js "transactionCount", jsonNumber fields.transactionCount)]

def jsonTotals : Option CompactInsightsTotals → JsValue
  | some totals => totals.fields.json
  | none => .null

/-- The input as a JavaScript value. -/
def CompactInsightsInput.json (input : CompactInsightsInput) : JsValue :=
  let current := input.current.toCompactInsightsTotals.fields
  .object [(js "month", .string input.month),
    (js "current", .object [
      (js "totalAmount", jsonNumber current.totalAmount),
      (js "transactionCount", jsonNumber current.transactionCount),
      (js "categories", .array (input.current.categories.map fun bucket =>
        bucket.fields.json)),
      (js "merchants", .array (input.current.merchants.map fun bucket =>
        bucket.fields.json))]),
    (js "previous", jsonTotals input.previous)]

/-- `JSON.stringify(input)`. -/
def CompactInsightsInput.stringify (input : CompactInsightsInput) : String :=
  String.ofList (jsonText input.json)

/-- Each number of the input. -/
def CompactInsightsBucket.numbers (bucket : CompactInsightsBucket) : List ℚ :=
  [(bucket.amount : ℚ), (bucket.count : ℚ)] ++ bucket.percentage.toList ++
    (bucket.previousAmount.toList.map fun amount : Int => (amount : ℚ)) ++
    bucket.amountChangePercentage.toList

def CompactInsightsTotals.numbers (totals : CompactInsightsTotals) : List ℚ :=
  [(totals.totalAmount : ℚ), (totals.transactionCount : ℚ)]

def CompactInsightsInput.numbers (input : CompactInsightsInput) : List ℚ :=
  input.current.toCompactInsightsTotals.numbers ++
    input.previous.toList.flatMap CompactInsightsTotals.numbers ++
    input.current.categories.flatMap CompactInsightsBucket.numbers ++
    input.current.merchants.flatMap CompactInsightsBucket.numbers

/-- Distinct names in each list, and finite numbers. -/
structure CompactInsightsInput.WellFormed (input : CompactInsightsInput) :
    Prop where
  categoryNames : (categoryNames input).Nodup
  merchantNames : (merchantNames input).Nodup
  finite : ∀ x ∈ input.numbers, (toDouble x).isSome = true

/-- The same month, totals and sets of buckets. -/
structure SameAnalytics (input input' : CompactInsightsInput) : Prop where
  month : input.month = input'.month
  current : input.current.toCompactInsightsTotals.fields =
    input'.current.toCompactInsightsTotals.fields
  previous : input.previous.map CompactInsightsTotals.fields =
    input'.previous.map CompactInsightsTotals.fields
  categories : ∀ fields,
    fields ∈ input.current.categories.map CompactInsightsBucket.fields ↔
      fields ∈ input'.current.categories.map CompactInsightsBucket.fields
  merchants : ∀ fields,
    fields ∈ input.current.merchants.map CompactInsightsBucket.fields ↔
      fields ∈ input'.current.merchants.map CompactInsightsBucket.fields

section Sorted

variable {buckets buckets' : List CompactInsightsBucket}

theorem compareByName_nonpos_iff {left right : CompactInsightsBucket} :
    compareByName left right ≤ 0 ↔ left.name ≤ right.name :=
  comparison_nonpos_iff

theorem pairwise_sortByName (buckets : List CompactInsightsBucket) :
    (sortByName buckets).Pairwise fun left right => left.name ≤ right.name := by
  have htotal : Std.Total fun left right : CompactInsightsBucket =>
      compareByName left right ≤ 0 := by
    refine ⟨fun left right => ?_⟩
    rw [compareByName_nonpos_iff, compareByName_nonpos_iff]
    exact List.le_total _ _
  have htrans : IsTrans _ fun left right : CompactInsightsBucket =>
      compareByName left right ≤ 0 := by
    refine ⟨fun first second third h h' => ?_⟩
    rw [compareByName_nonpos_iff] at h h' ⊢
    exact List.le_trans h h'
  have hsorted := List.pairwise_insertionSort
    (fun left right => compareByName left right ≤ 0) buckets
  exact hsorted.imp fun hle => compareByName_nonpos_iff.mp hle

theorem perm_sortByName (buckets : List CompactInsightsBucket) :
    (sortByName buckets).Perm buckets :=
  List.perm_insertionSort _ buckets

theorem nodup_fields
    (hnodup : (buckets.map CompactInsightsBucket.name).Nodup) :
    (buckets.map CompactInsightsBucket.fields).Nodup := by
  have hnames : buckets.map CompactInsightsBucket.name =
      (buckets.map CompactInsightsBucket.fields).map BucketFields.name := by
    rw [List.map_map]
    rfl
  rw [hnames] at hnodup
  exact hnodup.of_map

/-- Sorting by distinct names is a canonical form. -/
theorem map_fields_sortByName_eq
    (hnodup : (buckets.map CompactInsightsBucket.name).Nodup)
    (hnodup' : (buckets'.map CompactInsightsBucket.name).Nodup)
    (hsame : ∀ fields, fields ∈ buckets.map CompactInsightsBucket.fields ↔
      fields ∈ buckets'.map CompactInsightsBucket.fields) :
    (sortByName buckets).map CompactInsightsBucket.fields =
      (sortByName buckets').map CompactInsightsBucket.fields := by
  have hperm : (buckets.map CompactInsightsBucket.fields).Perm
      (buckets'.map CompactInsightsBucket.fields) :=
    (List.perm_ext_iff_of_nodup (nodup_fields hnodup)
      (nodup_fields hnodup')).mpr hsame
  have hsorted : ∀ buckets : List CompactInsightsBucket,
      ((sortByName buckets).map CompactInsightsBucket.fields).Pairwise
        fun left right => left.name ≤ right.name :=
    fun buckets => List.pairwise_map.mpr (pairwise_sortByName buckets)
  apply List.Perm.eq_of_pairwise ?_ (hsorted buckets) (hsorted buckets')
    (((perm_sortByName buckets).map _).trans
      (hperm.trans ((perm_sortByName buckets').map _).symm))
  intro left right hleft hright hle hge
  obtain ⟨bucket, hbucket, rfl⟩ := List.mem_map.mp hleft
  rw [((perm_sortByName buckets').map _).mem_iff, ← hsame] at hright
  obtain ⟨other, hother, rfl⟩ := List.mem_map.mp hright
  rw [(perm_sortByName buckets).mem_iff] at hbucket
  have hname : bucket.name = other.name := List.le_antisymm hle hge
  rw [List.inj_on_of_nodup_map hnodup hbucket hother hname]

end Sorted

section Json

theorem isFinite_jsonNumber (x : ℚ) :
    (jsonNumber (toDouble x)).isFinite = true := by
  cases hx : toDouble x with
  | none => rfl
  | some value =>
      obtain ⟨hdouble, -⟩ := toDouble_eq_some hx
      exact decide_eq_true hdouble

theorem isFinite_jsonNullable (x : Option ℚ) :
    (jsonNullable (x.map toDouble)).isFinite = true := by
  cases x with
  | none => rfl
  | some x => exact isFinite_jsonNumber x

theorem isFinite_bucket (bucket : CompactInsightsBucket) :
    bucket.fields.json.isFinite = true := by
  have hprevious : (jsonNullable (bucket.previousAmount.map
      fun amount : Int => toDouble amount)).isFinite = true := by
    cases bucket.previousAmount with
    | none => rfl
    | some amount => exact isFinite_jsonNumber amount
  simp [BucketFields.json, CompactInsightsBucket.fields, JsValue.isFinite,
    JsValue.allFiniteProperties, isFinite_jsonNumber, isFinite_jsonNullable,
    hprevious]

theorem isFinite_buckets (buckets : List CompactInsightsBucket) :
    JsValue.allFinite (buckets.map fun bucket => bucket.fields.json) = true := by
  induction buckets with
  | nil => rfl
  | cons bucket others ih =>
      rw [List.map_cons, JsValue.allFinite, isFinite_bucket, ih]
      rfl

theorem isFinite_json (input : CompactInsightsInput) :
    input.json.isFinite = true := by
  have hprevious : (jsonTotals input.previous).isFinite = true := by
    cases input.previous with
    | none => rfl
    | some previous =>
        simp [jsonTotals, TotalsFields.json, CompactInsightsTotals.fields,
          JsValue.isFinite, JsValue.allFiniteProperties, isFinite_jsonNumber]
  simp [CompactInsightsInput.json, CompactInsightsTotals.fields,
    JsValue.isFinite, JsValue.allFiniteProperties, isFinite_jsonNumber,
    isFinite_buckets, hprevious]

theorem jsonNumber_inj {x y : Option ℚ} (hx : x ≠ none) (hy : y ≠ none)
    (h : jsonNumber x = jsonNumber y) : x = y := by
  cases x with
  | none => exact absurd rfl hx
  | some x =>
      cases y with
      | none => exact absurd rfl hy
      | some y =>
          cases h
          rfl

theorem jsonNullable_inj {x y : Option (Option ℚ)} (hx : x ≠ some none)
    (hy : y ≠ some none) (h : jsonNullable x = jsonNullable y) : x = y := by
  rcases x with _ | _ | x
  · rcases y with _ | _ | y
    · rfl
    · exact absurd rfl hy
    · cases h
  · exact absurd rfl hx
  · rcases y with _ | _ | y
    · cases h
    · exact absurd rfl hy
    · cases h
      rfl

/-- The numbers of a bucket are finite. -/
structure BucketFields.Finite (fields : BucketFields) : Prop where
  amount : fields.amount ≠ none
  count : fields.count ≠ none
  percentage : fields.percentage ≠ some none
  previousAmount : fields.previousAmount ≠ some none
  amountChangePercentage : fields.amountChangePercentage ≠ some none

theorem bucketJson_inj {fields fields' : BucketFields} (h : fields.Finite)
    (h' : fields'.Finite) (heq : fields.json = fields'.json) :
    fields = fields' := by
  simp only [BucketFields.json, JsValue.object.injEq, List.cons.injEq,
    Prod.mk.injEq, JsValue.string.injEq, true_and, and_true] at heq
  obtain ⟨hname, hamount, hcount, hpercentage, hprevious, hchange⟩ := heq
  rw [BucketFields.mk.injEq]
  exact ⟨hname, jsonNumber_inj h.amount h'.amount hamount,
    jsonNumber_inj h.count h'.count hcount,
    jsonNullable_inj h.percentage h'.percentage hpercentage,
    jsonNullable_inj h.previousAmount h'.previousAmount hprevious,
    jsonNullable_inj h.amountChangePercentage h'.amountChangePercentage hchange⟩

end Json

section Input

variable {input input' : CompactInsightsInput}

theorem toDouble_ne_none (h : input.WellFormed) {x : ℚ}
    (hx : x ∈ input.numbers) : toDouble x ≠ none :=
  Option.isSome_iff_ne_none.mp (h.finite x hx)

theorem map_toDouble_ne {x : Option ℚ}
    (h : ∀ value ∈ x, toDouble value ≠ none) : x.map toDouble ≠ some none := by
  intro hmap
  obtain ⟨value, hvalue, hnone⟩ := Option.map_eq_some_iff.mp hmap
  exact h value hvalue hnone

theorem finite_fields {bucket : CompactInsightsBucket}
    (h : ∀ x ∈ bucket.numbers, toDouble x ≠ none) : bucket.fields.Finite where
  amount := h _ (by simp [CompactInsightsBucket.numbers])
  count := h _ (by simp [CompactInsightsBucket.numbers])
  percentage := map_toDouble_ne fun x hx => h x (by
    simp [CompactInsightsBucket.numbers, Option.mem_def.mp hx])
  previousAmount := by
    intro hmap
    obtain ⟨amount, hamount, hnone⟩ := Option.map_eq_some_iff.mp hmap
    exact h amount (by simp [CompactInsightsBucket.numbers, hamount]) hnone
  amountChangePercentage := map_toDouble_ne fun x hx => h x (by
    simp [CompactInsightsBucket.numbers, Option.mem_def.mp hx])

theorem finite_totals {totals : CompactInsightsTotals}
    (h : ∀ x ∈ totals.numbers, toDouble x ≠ none) :
    totals.fields.totalAmount ≠ none ∧ totals.fields.transactionCount ≠ none :=
  ⟨h _ (by simp [CompactInsightsTotals.numbers]),
    h _ (by simp [CompactInsightsTotals.numbers])⟩

theorem totalsJson_inj {totals totals' : CompactInsightsTotals}
    (h : ∀ x ∈ totals.numbers, toDouble x ≠ none)
    (h' : ∀ x ∈ totals'.numbers, toDouble x ≠ none)
    (hamount : jsonNumber totals.fields.totalAmount =
      jsonNumber totals'.fields.totalAmount)
    (hcount : jsonNumber totals.fields.transactionCount =
      jsonNumber totals'.fields.transactionCount) :
    totals.fields = totals'.fields := by
  obtain ⟨hamount₁, hcount₁⟩ := finite_totals h
  obtain ⟨hamount₂, hcount₂⟩ := finite_totals h'
  rw [TotalsFields.mk.injEq]
  exact ⟨jsonNumber_inj hamount₁ hamount₂ hamount,
    jsonNumber_inj hcount₁ hcount₂ hcount⟩

/-- Equal texts of two lists mean equal sets of buckets. -/
theorem mem_fields_iff {buckets buckets' : List CompactInsightsBucket}
    (h : ∀ bucket ∈ buckets, bucket.fields.Finite)
    (h' : ∀ bucket ∈ buckets', bucket.fields.Finite)
    (heq : (sortByName buckets).map (fun bucket => bucket.fields.json) =
      (sortByName buckets').map fun bucket => bucket.fields.json)
    (fields : BucketFields) :
    fields ∈ buckets.map CompactInsightsBucket.fields ↔
      fields ∈ buckets'.map CompactInsightsBucket.fields := by
  have hsubset : ∀ {buckets buckets' : List CompactInsightsBucket},
      (∀ bucket ∈ buckets, bucket.fields.Finite) →
      (∀ bucket ∈ buckets', bucket.fields.Finite) →
      (sortByName buckets).map (fun bucket => bucket.fields.json) =
        (sortByName buckets').map (fun bucket => bucket.fields.json) →
      fields ∈ buckets.map CompactInsightsBucket.fields →
      fields ∈ buckets'.map CompactInsightsBucket.fields := by
    intro buckets buckets' h h' heq hmem
    obtain ⟨bucket, hbucket, rfl⟩ := List.mem_map.mp hmem
    have hjson : bucket.fields.json ∈
        (sortByName buckets').map fun bucket => bucket.fields.json := by
      rw [← heq]
      exact List.mem_map_of_mem ((perm_sortByName buckets).mem_iff.mpr hbucket)
    obtain ⟨other, hother, hsame⟩ := List.mem_map.mp hjson
    rw [(perm_sortByName buckets').mem_iff] at hother
    rw [← bucketJson_inj (h' other hother) (h bucket hbucket) hsame]
    exact List.mem_map_of_mem hother
  exact ⟨hsubset h h' heq, hsubset h' h heq.symm⟩

theorem CompactInsightsInput.WellFormed.current (h : input.WellFormed) :
    ∀ x ∈ input.current.toCompactInsightsTotals.numbers, toDouble x ≠ none := by
  intro x hx
  apply toDouble_ne_none h
  simp only [CompactInsightsInput.numbers, List.mem_append]
  exact .inl (.inl (.inl hx))

theorem CompactInsightsInput.WellFormed.previous (h : input.WellFormed)
    {totals : CompactInsightsTotals} (htotals : input.previous = some totals) :
    ∀ x ∈ totals.numbers, toDouble x ≠ none := by
  intro x hx
  apply toDouble_ne_none h
  simp only [CompactInsightsInput.numbers, List.mem_append]
  exact .inl (.inl (.inr (by simpa [htotals] using hx)))

theorem CompactInsightsInput.WellFormed.categories (h : input.WellFormed) :
    ∀ bucket ∈ input.current.categories, bucket.fields.Finite := by
  intro bucket hbucket
  apply finite_fields fun x hx => toDouble_ne_none h ?_
  simp only [CompactInsightsInput.numbers, List.mem_append]
  exact .inl (.inr (List.mem_flatMap.mpr ⟨bucket, hbucket, hx⟩))

theorem CompactInsightsInput.WellFormed.merchants (h : input.WellFormed) :
    ∀ bucket ∈ input.current.merchants, bucket.fields.Finite := by
  intro bucket hbucket
  apply finite_fields fun x hx => toDouble_ne_none h ?_
  simp only [CompactInsightsInput.numbers, List.mem_append]
  exact .inr (List.mem_flatMap.mpr ⟨bucket, hbucket, hx⟩)

/-- Both months have no previous one, or the same. -/
theorem map_fields_previous (h : input.WellFormed) (h' : input'.WellFormed)
    (heq : jsonTotals input.previous = jsonTotals input'.previous) :
    input.previous.map CompactInsightsTotals.fields =
      input'.previous.map CompactInsightsTotals.fields := by
  cases hprevious : input.previous with
  | none =>
      cases hprevious' : input'.previous with
      | none => rfl
      | some totals' =>
          rw [hprevious, hprevious'] at heq
          cases heq
  | some totals =>
      cases hprevious' : input'.previous with
      | none =>
          rw [hprevious, hprevious'] at heq
          cases heq
      | some totals' =>
          rw [hprevious, hprevious'] at heq
          simp only [jsonTotals, TotalsFields.json, JsValue.object.injEq,
            List.cons.injEq, Prod.mk.injEq, true_and, and_true] at heq
          exact congrArg some (totalsJson_inj (h.previous hprevious)
            (h'.previous hprevious') heq.1 heq.2)

/-- The canonical text is that of the same analytics alone. -/
theorem stringify_canonicalizeInput_iff (h : input.WellFormed)
    (h' : input'.WellFormed) :
    (canonicalizeInput input).stringify = (canonicalizeInput input').stringify ↔
      SameAnalytics input input' := by
  constructor
  · intro heq
    have hjson := JsValue.jsonText_injective (isFinite_json _) (isFinite_json _)
      (String.ofList_injective heq)
    simp only [CompactInsightsInput.json, canonicalizeInput,
      JsValue.object.injEq, List.cons.injEq, Prod.mk.injEq,
      JsValue.string.injEq, JsValue.array.injEq, true_and, and_true] at hjson
    obtain ⟨hmonth, ⟨hamount, hcount, hcategories, hmerchants⟩, hprevious⟩ :=
      hjson
    exact {
      month := hmonth
      current := totalsJson_inj h.current h'.current hamount hcount
      previous := map_fields_previous h h' hprevious
      categories := mem_fields_iff h.categories h'.categories hcategories
      merchants := mem_fields_iff h.merchants h'.merchants hmerchants }
  · intro hsame
    have hmap : ∀ {buckets buckets' : List CompactInsightsBucket},
        buckets.map CompactInsightsBucket.fields =
          buckets'.map CompactInsightsBucket.fields →
        (buckets.map fun bucket => bucket.fields.json) =
          buckets'.map fun bucket => bucket.fields.json := by
      intro buckets buckets' hfields
      have hjson := congrArg (List.map BucketFields.json) hfields
      rw [List.map_map, List.map_map] at hjson
      exact hjson
    have hcategories := hmap (map_fields_sortByName_eq h.categoryNames
      h'.categoryNames hsame.categories)
    have hmerchants := hmap (map_fields_sortByName_eq h.merchantNames
      h'.merchantNames hsame.merchants)
    have hprevious : jsonTotals input.previous = jsonTotals input'.previous := by
      have hjson := hsame.previous
      cases hprevious : input.previous <;>
        cases hprevious' : input'.previous <;>
        rw [hprevious, hprevious'] at hjson <;> simp_all [jsonTotals]
    simp only [CompactInsightsInput.stringify, CompactInsightsInput.json,
      canonicalizeInput, hsame.month, hsame.current, hcategories, hmerchants,
      hprevious]

end Input

/-- The digest that `getAnalyticsFingerprint` takes of the canonical input. -/
def jsonDigest (sha256 : String → JsString) (canonical : CompactInsightsInput) :
    JsString :=
  sha256 canonical.stringify

/-- The fingerprint identifies the analytics, as far as SHA-256 has no
collisions. -/
theorem getAnalyticsFingerprint_eq_iff {sha256 : String → JsString}
    (hsha256 : Function.Injective sha256) {input input' : CompactInsightsInput}
    (h : input.WellFormed) (h' : input'.WellFormed) :
    ((canonicalizeInput input).stringify =
        (canonicalizeInput input').stringify ↔ SameAnalytics input input') ∧
    (getAnalyticsFingerprint (jsonDigest sha256) input =
        getAnalyticsFingerprint (jsonDigest sha256) input' ↔
      SameAnalytics input input') := by
  have hcanonical := stringify_canonicalizeInput_iff h h'
  refine ⟨hcanonical, ?_⟩
  rw [← hcanonical, getAnalyticsFingerprint, getAnalyticsFingerprint,
    List.append_right_inj]
  exact hsha256.eq_iff

section Sample

/-- A month of two categories. -/
def sampleMonthlyReport (categories : List MonthlyAnalyticsBucket) :
    MonthlyAnalyticsResponse :=
  ⟨2026, 9, 1500, 3, none, categories, []⟩

def sampleFood : MonthlyAnalyticsBucket :=
  ⟨js "Food", 1000, 2, some (667 / 10), none, none⟩

def sampleGoods : MonthlyAnalyticsBucket :=
  ⟨js "日用品", 500, 1, some (333 / 10), none, none⟩

def sampleCanonicalJson : String :=
  "\x7b\"month\":\"2026-09\",\"current\":\x7b\"totalAmount\":1500," ++
  "\"transactionCount\":3,\"categories\":[\x7b\"name\":\"Food\"," ++
  "\"amount\":1000,\"count\":2,\"percentage\":66.7," ++
  "\"previousAmount\":null,\"amountChangePercentage\":null\x7d," ++
  "\x7b\"name\":\"日用品\",\"amount\":500,\"count\":1," ++
  "\"percentage\":33.3,\"previousAmount\":null," ++
  "\"amountChangePercentage\":null\x7d],\"merchants\":[]\x7d," ++
  "\"previous\":null\x7d"

example : (canonicalizeInput (createCompactInsightsInput
    (sampleMonthlyReport [sampleGoods, sampleFood]))).stringify =
      sampleCanonicalJson := by decide +kernel

/-- A digest that is SHA-256 on the text of the sample. -/
def sampleSha256 (text : String) : JsString :=
  if text = sampleCanonicalJson then
    js "29123c926ba2771ab0650c19a1cf0020" ++
      js "d2477354f2fb3aa8f38b939f8dbd5240"
  else js "#" ++ text.toByteArray.data.toList.map UInt8.toUInt16

theorem sampleSha256_injective : Function.Injective sampleSha256 := by
  have hother : ∀ text : String, js "#" ++
      text.toByteArray.data.toList.map UInt8.toUInt16 ≠
        js "29123c926ba2771ab0650c19a1cf0020" ++
          js "d2477354f2fb3aa8f38b939f8dbd5240" := by
    intro text heq
    exact absurd (List.cons.inj heq).1 (by decide)
  intro text text' heq
  simp only [sampleSha256] at heq
  split at heq
  · rename_i htext
    split at heq
    · rename_i htext'
      rw [htext, htext']
    · exact absurd heq.symm (hother text')
  · split at heq
    · exact absurd heq (hother text)
    · have hbytes := List.append_cancel_left heq
      have hunits : Function.Injective UInt8.toUInt16 := by
        intro byte byte' hbyte
        have hnat := congrArg UInt16.toNat hbyte
        simpa [UInt8.toNat_inj] using hnat
      have hlist := List.map_injective_iff.mpr hunits hbytes
      apply String.toByteArray_inj.mp
      exact ByteArray.ext (Array.toList_inj.mp hlist)

/-- The order of the categories does not count. -/
theorem getAnalyticsFingerprint_eq_iff_sample :
    getAnalyticsFingerprint (jsonDigest sampleSha256)
        (createCompactInsightsInput
          (sampleMonthlyReport [sampleFood, sampleGoods])) =
      getAnalyticsFingerprint (jsonDigest sampleSha256)
        (createCompactInsightsInput
          (sampleMonthlyReport [sampleGoods, sampleFood])) := by
  refine (getAnalyticsFingerprint_eq_iff sampleSha256_injective
    ⟨by decide, by decide, by decide +kernel⟩
    ⟨by decide, by decide, by decide +kernel⟩).2.mpr
    ⟨rfl, rfl, rfl, fun fields => ?_, fun fields => Iff.rfl⟩
  exact (List.Perm.swap _ _ []).mem_iff

end Sample

end StatementAnalyzer
