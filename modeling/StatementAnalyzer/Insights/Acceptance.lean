/-
Which truthful insights are accepted: a well-formed document that names one
category or merchant of the current month.
-/
import StatementAnalyzer.Analytics.ConsecutiveMonths
import StatementAnalyzer.Insights.InsightsGrammar
import StatementAnalyzer.Insights.MonthlyInsightsService
import StatementAnalyzer.Worker.AcceptedResult

namespace StatementAnalyzer

/-- What an insight names. -/
inductive Subject where
  | category
  | merchant

namespace Subject

def key : Subject → JsString
  | category => js "category"
  | merchant => js "merchant"

/-- The type of an insight about its growth. -/
def increase : Subject → JsString
  | category => js "CATEGORY_INCREASE"
  | merchant => js "MERCHANT_INCREASE"

def buckets : Subject → MonthlyAnalyticsAggregate → List AnalyticsAggregateBucket
  | category => MonthlyAnalyticsAggregate.categories
  | merchant => MonthlyAnalyticsAggregate.merchants

def compact : Subject → CompactInsightsInput → List CompactInsightsBucket
  | category => fun input => input.current.categories
  | merchant => fun input => input.current.merchants

end Subject

/-- A document of one insight, of this type and with one name, well formed up to
the length of the name. -/
def NamesOne (literal key name : JsString) (raw : JsValue) : Prop :=
  ∃ document properties text spelled, raw = .object document ∧
    HasKeys [js "insights"] document ∧
    JsValue.property document (js "insights") = .array [.object properties] ∧
    HasKeys (insightTextKeys ++ [key]) properties ∧
    IsInsightText literal properties text ∧
    JsValue.property properties key = .string spelled ∧ trim spelled = name

def AcceptsInsights (raw : JsValue) (input : CompactInsightsInput) : Prop :=
  ∃ document, parseAndValidateInsights raw input = .ok document

/-- `((current - previous) / Math.abs(previous)) * 100`, before it is rounded. -/
def growth (current previous : Int) : ℚ :=
  percentOf (nearestDouble ((current - previous : Int) : ℚ)) (|previous| : Int)

section Rounding

variable {current previous : Int}

theorem nearestDouble_tenth_pos : 0 < nearestDouble (1 / 10) := by
  decide +kernel

/-- A positive value survives the rounding from one twentieth on. -/
theorem roundToOneDecimal_pos_iff {value : ℚ} :
    0 < roundToOneDecimal value ↔ 1 / 20 ≤ value := by
  constructor
  · intro h
    have hpos := roundToOneDecimal_pos h
    rw [roundToOneDecimal, abs_of_pos hpos] at h
    split at h
    · linarith
    rw [if_neg (not_lt.mpr hpos.le)] at h
    have htenths := pos_of_nearestDouble_pos h
    have hcast : (0 : ℚ) < (⌊value * 10 + 1 / 2⌋ : ℤ) := by linarith
    have hfloor : 1 ≤ ⌊value * 10 + 1 / 2⌋ := by
      have hfloor : 0 < ⌊value * 10 + 1 / 2⌋ := by exact_mod_cast hcast
      omega
    have hle := Int.le_floor.mp hfloor
    push_cast at hle
    linarith
  · intro h
    have hpos : 0 < value := by linarith
    rw [roundToOneDecimal]
    split
    · exact hpos
    rw [if_neg (not_lt.mpr hpos.le)]
    have hfloor : 1 ≤ ⌊value * 10 + 1 / 2⌋ := by
      apply Int.le_floor.mpr
      push_cast
      linarith
    have hcast : (1 : ℚ) ≤ (⌊value * 10 + 1 / 2⌋ : ℤ) := by exact_mod_cast hfloor
    apply nearestDouble_tenth_pos.trans_le
    exact nearestDouble_mono (by norm_num) (by linarith)

/-- The reported change is positive from a twentieth of a percent on. -/
theorem changePercentage_any_pos_iff (hprevious : previous ≠ 0) :
    (changePercentage current previous).any (0 < ·) = true ↔
      1 / 20 ≤ growth current previous := by
  rw [changePercentage, if_neg hprevious, Option.any_some, decide_eq_true_eq,
    roundToOneDecimal_pos_iff]
  rfl

/-- What grows by one part in two thousand grows by a twentieth of a percent,
however the numbers are rounded. -/
theorem growth_ge (hprevious : previous ≠ 0) (hmost : |previous| ≤ 2 ^ 50)
    (h : |previous| ≤ 2000 * (current - previous)) :
    1 / 20 ≤ growth current previous := by
  have habs : (0 : ℚ) < (|previous| : Int) := by
    exact_mod_cast abs_pos.mpr hprevious
  have hpositive : 0 < |previous| := abs_pos.mpr hprevious
  -- beyond fifty-three bits the difference is rounded
  have hdifference : ((min (current - previous) (2 ^ 53) : Int) : ℚ) ≤
      nearestDouble ((current - previous : Int) : ℚ) := by
    rw [← nearestDouble_intCast (n := min (current - previous) (2 ^ 53))
      (by omega)]
    apply nearestDouble_mono
    · exact_mod_cast (by omega : 0 ≤ min (current - previous) (2 ^ 53))
    · exact Int.cast_le.mpr (min_le_left _ _)
  have hscaled : ((|previous| : Int) : ℚ) ≤
      2000 * ((min (current - previous) (2 ^ 53) : Int) : ℚ) := by
    exact_mod_cast (by omega :
      |previous| ≤ 2000 * min (current - previous) (2 ^ 53))
  have hquotient : 1 / 2000 ≤
      nearestDouble ((current - previous : Int) : ℚ) / (|previous| : Int) := by
    rw [le_div_iff₀ habs]
    linarith
  have hleast : 1 / 20 ≤ nearestDouble (nearestDouble (1 / 2000) * 100) := by
    decide +kernel
  have hnonneg : 0 ≤ nearestDouble (1 / 2000) := by decide +kernel
  apply hleast.trans
  apply nearestDouble_mono (by linarith)
  have hrounded := nearestDouble_mono (by norm_num) hquotient
  linarith

/-- A smaller growth is seen as one of less than a twentieth of a percent. -/
theorem growth_lt (hless : previous < current) (hmost : |previous| ≤ 2 ^ 50)
    (h : 2000 * (current - previous) < |previous|) :
    growth current previous < 1 / 20 := by
  have hpositive : 0 < |previous| := by omega
  have habs : (0 : ℚ) < (|previous| : Int) := by exact_mod_cast hpositive
  have hdifference : nearestDouble ((current - previous : Int) : ℚ) =
      ((current - previous : Int) : ℚ) :=
    nearestDouble_intCast (by omega)
  have hpos : (0 : ℚ) < ((current - previous : Int) : ℚ) := by
    exact_mod_cast (by omega : 0 < current - previous)
  have hone : (1 : ℚ) ≤ ((current - previous : Int) : ℚ) := by
    exact_mod_cast (by omega : 1 ≤ current - previous)
  have hmost' : ((|previous| : Int) : ℚ) ≤ 2 ^ (50 : Nat) := by
    exact_mod_cast hmost
  have hbelow : 2000 * ((current - previous : Int) : ℚ) + 1 ≤
      ((|previous| : Int) : ℚ) := by
    exact_mod_cast (by omega : 2000 * (current - previous) + 1 ≤ |previous|)
  set quotient : ℚ :=
    ((current - previous : Int) : ℚ) / (|previous| : Int) with hquotient
  have hquotientPos : 0 < quotient := div_pos hpos habs
  have hnormal : ∀ x : ℚ, 1 / 2 ^ (50 : Nat) ≤ x → -1022 ≤ Int.log 2 x := by
    intro x hx
    have hlog := Int.log_mono_right (b := 2) (by norm_num) hx
    have hleast : Int.log 2 (1 / 2 ^ (50 : Nat) : ℚ) = -50 := by
      have hpower : (1 / 2 ^ (50 : Nat) : ℚ) = ((2 : Nat) : ℚ) ^ (-50 : Int) := by
        norm_num
      rw [hpower]
      exact Int.log_zpow (by omega) _
    omega
  have hsmall : 1 / 2 ^ (50 : Nat) ≤ quotient := by
    rw [hquotient, div_le_div_iff₀ (by norm_num) habs]
    linarith
  have hgap : quotient ≤ 1 / 2000 * (1 - 1 / 2 ^ (50 : Nat)) := by
    rw [hquotient, div_le_iff₀ habs]
    linarith
  have hfirst := nearestDouble_le hquotientPos (hnormal _ hsmall)
  have hfirstPos : 1 / 2 ^ (50 : Nat) ≤ nearestDouble quotient := by
    have hmono := nearestDouble_mono (by norm_num) hsmall
    have hself : nearestDouble (1 / 2 ^ (50 : Nat)) = 1 / 2 ^ (50 : Nat) := by
      decide +kernel
    rwa [hself] at hmono
  have hsecond := nearestDouble_le
    (by linarith : 0 < nearestDouble quotient * 100)
    (hnormal _ (by linarith))
  have hgrowth : growth current previous =
      nearestDouble (nearestDouble quotient * 100) := by
    rw [growth, percentOf, hdifference]
  rw [hgrowth]
  norm_num at hfirst hsecond hgap ⊢
  linarith

/-- Up to fifty bits the condition is about the amounts themselves. -/
theorem growth_ge_iff (hprevious : previous ≠ 0) (hless : previous < current)
    (hmost : |previous| ≤ 2 ^ 50) : 1 / 20 ≤ growth current previous ↔
      |previous| ≤ 2000 * (current - previous) := by
  constructor
  · intro h
    by_contra hlarge
    have hlt := growth_lt hless hmost (not_le.mp hlarge)
    linarith
  · exact growth_ge hprevious hmost

end Rounding

section Policy

variable {buckets previousBuckets : List AnalyticsAggregateBucket}
variable {bucket previous : AnalyticsAggregateBucket}

/-- The names of the compact input are those of the aggregate. -/
theorem contains_buildResponse {totalAmount : Int} (h : bucket ∈ buckets) :
    (((buildResponse buckets previousBuckets totalAmount).map mapBucket).map
      CompactInsightsBucket.name).contains bucket.name = true := by
  rw [List.contains_iff_mem, buildResponse, List.map_map, List.map_map]
  exact List.mem_map.mpr ⟨bucket, mem_sortBuckets.mpr h, rfl⟩

/-- An increase is seen if and only if its percentage is not rounded to zero. -/
theorem hasIncrease_buildResponse_iff (totalAmount : Int)
    (hnodup : (buckets.map AnalyticsAggregateBucket.name).Nodup)
    (hnodup' : (previousBuckets.map AnalyticsAggregateBucket.name).Nodup)
    (hbucket : bucket ∈ buckets) (hprevious : previous ∈ previousBuckets)
    (hname : previous.name = bucket.name) (hne : previous.amount ≠ 0) :
    hasIncrease ((buildResponse buckets previousBuckets totalAmount).map
      mapBucket) bucket.name = true ↔
        1 / 20 ≤ growth bucket.amount previous.amount := by
  have hsorted : ((sortBuckets buckets).map
      AnalyticsAggregateBucket.name).Nodup :=
    ((List.perm_insertionSort _ buckets).map _).nodup_iff.mpr hnodup
  have hfind : ((sortBuckets buckets).find? fun other =>
      other.name = bucket.name) = some bucket :=
    (find?_name_eq_some_iff hsorted).mpr ⟨mem_sortBuckets.mpr hbucket, rfl⟩
  have hmap := (previousByName_eq_some_iff hnodup').mpr ⟨hprevious, hname⟩
  have hfound : (((buildResponse buckets previousBuckets totalAmount).map
      mapBucket).find? fun candidate => candidate.name = bucket.name) =
        some (mapBucket {
          name := bucket.name
          amount := bucket.amount
          count := bucket.count
          percentage := percentage bucket.amount totalAmount
          previousAmount := some previous.amount
          amountChangePercentage :=
            changePercentage bucket.amount previous.amount }) := by
    rw [buildResponse, List.map_map, List.find?_map]
    change ((sortBuckets buckets).find? fun other =>
      other.name = bucket.name).map _ = _
    rw [hfind]
    simp only [Option.map_some, Function.comp_apply, hmap, Option.bind_some]
  rw [hasIncrease, hfound, Option.any_some, ← changePercentage_any_pos_iff hne]
  simp only [mapBucket, Option.isSome_some, Bool.true_and]

end Policy

namespace Subject

variable {subject : Subject} {input : CompactInsightsInput}
variable {properties : List (JsString × JsValue)} {text : InsightText}
variable {spelled : JsString}

/-- The insight about its growth. -/
def increaseInsight : Subject → InsightText → JsString → Insight
  | category => .categoryIncrease
  | merchant => .merchantIncrease

/-- The insight that it is notable. -/
def notableInsight : Subject → InsightText → JsString → Insight
  | category => fun text name => .notableSpending text (some name) none
  | merchant => fun text name => .notableSpending text none (some name)

def names (subject : Subject) (input : CompactInsightsInput) : List JsString :=
  (subject.compact input).map CompactInsightsBucket.name

theorem insightAllowed_increase {name : JsString} :
    insightAllowed input (subject.increaseInsight text name) = true ↔
      input.previous.isSome = true ∧ (subject.names input).contains name = true ∧
        hasIncrease (subject.compact input) name = true := by
  cases subject <;>
    simp only [increaseInsight, insightAllowed, Bool.and_eq_true, and_assoc] <;>
    rfl

theorem insightAllowed_notable {name : JsString} :
    insightAllowed input (subject.notableInsight text name) = true ↔
      (subject.names input).contains name = true := by
  cases subject with
  | category =>
      simp only [notableInsight, insightAllowed, Option.all_some, Option.all_none,
        Bool.and_true]
      rfl
  | merchant =>
      simp only [notableInsight, insightAllowed, Option.all_some, Option.all_none,
        Bool.true_and]
      rfl

/-- What the grammar makes of an insight about a growth. -/
theorem isInsight_increase_iff (hkeys : HasKeys (insightTextKeys ++ [subject.key])
      properties) (htext : IsInsightText subject.increase properties text)
    (hname : JsValue.property properties subject.key = .string spelled)
    {insight : Insight} : IsInsight (.object properties) insight ↔
      1 ≤ codePointLength (trim spelled) ∧
        codePointLength (trim spelled) ≤ 100 ∧
        ∃ text', IsInsightText subject.increase properties text' ∧
          insight = subject.increaseInsight text' (trim spelled) := by
  constructor
  · intro h
    cases subject with
    | category =>
        cases h with
        | categoryIncrease _ isText isName =>
            obtain ⟨raw, hraw, rfl, hlength⟩ := isName
            cases hraw.symm.trans hname
            exact ⟨hlength.1, hlength.2, _, isText, rfl⟩
        | merchantIncrease _ isText _ | notableSpending _ isText _ _ _ =>
            exact absurd (htext.literal_unique isText) (by decide)
    | merchant =>
        cases h with
        | merchantIncrease _ isText isName =>
            obtain ⟨raw, hraw, rfl, hlength⟩ := isName
            cases hraw.symm.trans hname
            exact ⟨hlength.1, hlength.2, _, isText, rfl⟩
        | categoryIncrease _ isText _ | notableSpending _ isText _ _ _ =>
            exact absurd (htext.literal_unique isText) (by decide)
  · rintro ⟨hpos, hlength, text', isText, rfl⟩
    have isName : IsBoundedText 100 (JsValue.property properties subject.key)
        (trim spelled) := ⟨spelled, hname, rfl, hpos, hlength⟩
    cases subject with
    | category => exact .categoryIncrease hkeys isText isName
    | merchant => exact .merchantIncrease hkeys isText isName

/-- What the grammar makes of an insight about a notable spending. -/
theorem isInsight_notable_iff (hkeys : HasKeys (insightTextKeys ++ [subject.key])
      properties)
    (htext : IsInsightText (js "NOTABLE_SPENDING") properties text)
    (hname : JsValue.property properties subject.key = .string spelled)
    {insight : Insight} : IsInsight (.object properties) insight ↔
      1 ≤ codePointLength (trim spelled) ∧
        codePointLength (trim spelled) ≤ 100 ∧
        ∃ text', IsInsightText (js "NOTABLE_SPENDING") properties text' ∧
          insight = subject.notableInsight text' (trim spelled) := by
  constructor
  · intro h
    cases h with
    | categoryIncrease _ isText _ | merchantIncrease _ isText _ =>
        exact absurd (htext.literal_unique isText) (by decide)
    | @notableSpending _ _ category merchant _ isText isCategory isMerchant _ =>
        cases subject with
        | category =>
            have hmissing := property_eq_undefined hkeys
              (show js "merchant" ∉ _ by decide)
            rw [hmissing, isOptionalText_undefined_iff] at isMerchant
            rw [show JsValue.property properties (js "category") = _ from hname,
              isOptionalText_string_iff] at isCategory
            obtain ⟨rfl, hpos, hlength⟩ := isCategory
            obtain rfl := isMerchant
            exact ⟨hpos, hlength, _, isText, rfl⟩
        | merchant =>
            have hmissing := property_eq_undefined hkeys
              (show js "category" ∉ _ by decide)
            rw [hmissing, isOptionalText_undefined_iff] at isCategory
            rw [show JsValue.property properties (js "merchant") = _ from hname,
              isOptionalText_string_iff] at isMerchant
            obtain ⟨rfl, hpos, hlength⟩ := isMerchant
            obtain rfl := isCategory
            exact ⟨hpos, hlength, _, isText, rfl⟩
  · rintro ⟨hpos, hlength, text', isText, rfl⟩
    have isName : IsBoundedText 100 (JsValue.property properties subject.key)
        (trim spelled) := ⟨spelled, hname, rfl, hpos, hlength⟩
    cases subject with
    | category =>
        have hmissing := property_eq_undefined hkeys
          (show js "merchant" ∉ _ by decide)
        have hmore : HasKeys (insightTextKeys ++ [js "category", js "merchant"])
            properties := fun entry hentry =>
          List.mem_append_left [js "merchant"] (hkeys entry hentry)
        exact .notableSpending hmore isText isName hmissing (.inl rfl)
    | merchant =>
        have hmissing := property_eq_undefined hkeys
          (show js "category" ∉ _ by decide)
        have hmore : HasKeys (insightTextKeys ++ [js "category", js "merchant"])
            properties := by
          intro entry hentry
          have hkey := List.mem_append.mp (hkeys entry hentry)
          rcases hkey with hkey | hkey
          · exact List.mem_append_left _ hkey
          · exact List.mem_append_right _ (List.mem_cons_of_mem _ hkey)
        exact .notableSpending hmore isText hmissing isName (.inr rfl)

end Subject

/-- Whether the document is accepted depends on its one insight only. -/
theorem accepted_iff {raw : JsValue} {input : CompactInsightsInput}
    {document : List (JsString × JsValue)} {item : JsValue}
    (hraw : raw = .object document) (hkeys : HasKeys [js "insights"] document)
    (hitem : JsValue.property document (js "insights") = .array [item]) :
    AcceptsInsights raw input ↔
      ∃ insight, IsInsight item insight ∧ insightAllowed input insight = true := by
  simp only [AcceptsInsights, parseAndValidateInsights_eq_ok_iff,
    insightsDocumentSchema_eq_some_iff]
  constructor
  · rintro ⟨⟨insights⟩, ⟨other, items, hother, _, hitems, _, hparsed⟩, hallowed⟩
    cases hraw.symm.trans hother
    cases hitems.symm.trans hitem
    cases hparsed with
    | @cons _ insight _ _ hinsight hrest =>
        exact ⟨insight, hinsight, hallowed insight (List.mem_cons_self ..)⟩
  · rintro ⟨insight, hinsight, hallowed⟩
    refine ⟨⟨[insight]⟩, ⟨document, [item], hraw, hkeys, hitem, by simp,
      .cons hinsight .nil⟩, fun other hother => ?_⟩
    obtain rfl := List.mem_singleton.mp hother
    exact hallowed

section Truthful

variable {subject : Subject} {year month : Int}
variable {aggregates : MonthlyAnalyticsAggregates}
variable {bucket previous : AnalyticsAggregateBucket} {raw : JsValue}

theorem Subject.compact_insightsInput (subject : Subject) (year month : Int)
    (aggregates : MonthlyAnalyticsAggregates) :
    ∃ totalAmount, subject.compact (insightsInput year month aggregates) =
      (buildResponse (subject.buckets aggregates.current)
        (subject.buckets aggregates.previous) totalAmount).map mapBucket := by
  cases subject <;> exact ⟨_, rfl⟩

theorem Subject.nodup_buckets {aggregate : MonthlyAnalyticsAggregate}
    (h : aggregate.Conserves) : ((subject.buckets aggregate).map
      AnalyticsAggregateBucket.name).Nodup := by
  cases subject with
  | category => exact h.categoryNames
  | merchant => exact h.merchantNames

theorem contains_names (hbucket : bucket ∈ subject.buckets aggregates.current) :
    (subject.names (insightsInput year month aggregates)).contains bucket.name =
      true := by
  obtain ⟨totalAmount, hcompact⟩ :=
    Subject.compact_insightsInput subject year month aggregates
  rw [Subject.names, hcompact]
  exact contains_buildResponse hbucket

/-- A document about the notable spending of one bucket. -/
theorem accepted_notable_iff
    (hbucket : bucket ∈ subject.buckets aggregates.current)
    (hpos : 1 ≤ codePointLength bucket.name)
    (hraw : NamesOne (js "NOTABLE_SPENDING") subject.key bucket.name raw) :
    AcceptsInsights raw (insightsInput year month aggregates) ↔
      codePointLength bucket.name ≤ 100 := by
  obtain ⟨document, properties, text, spelled, hobject, hkeys, hitem, hkeys',
    htext, hproperty, hname⟩ := hraw
  rw [accepted_iff hobject hkeys hitem]
  simp only [Subject.isInsight_notable_iff hkeys' htext hproperty, hname]
  constructor
  · rintro ⟨_, ⟨_, hlength, _⟩, _⟩
    exact hlength
  · intro hlength
    refine ⟨_, ⟨hpos, hlength, text, htext, rfl⟩, ?_⟩
    exact Subject.insightAllowed_notable.mpr (contains_names hbucket)

/-- A document about the growth of one bucket. -/
theorem accepted_increase_iff (hcurrent : aggregates.current.Conserves)
    (hprevious : aggregates.previous.Conserves)
    (hcount : aggregates.previous.transactionCount ≠ 0)
    (hbucket : bucket ∈ subject.buckets aggregates.current)
    (hbefore : previous ∈ subject.buckets aggregates.previous)
    (hsame : previous.name = bucket.name) (hne : previous.amount ≠ 0)
    (hpos : 1 ≤ codePointLength bucket.name)
    (hraw : NamesOne subject.increase subject.key bucket.name raw) :
    AcceptsInsights raw (insightsInput year month aggregates) ↔
      codePointLength bucket.name ≤ 100 ∧
        1 / 20 ≤ growth bucket.amount previous.amount := by
  obtain ⟨document, properties, text, spelled, hobject, hkeys, hitem, hkeys',
    htext, hproperty, hname⟩ := hraw
  have hsome : (insightsInput year month aggregates).previous.isSome = true := by
    simp [insightsInput, createCompactInsightsInput, buildMonthlyAnalytics,
      hcount]
  obtain ⟨totalAmount, hcompact⟩ :=
    Subject.compact_insightsInput subject year month aggregates
  have hgrown := hasIncrease_buildResponse_iff totalAmount
    (subject.nodup_buckets hcurrent) (subject.nodup_buckets hprevious)
    hbucket hbefore hsame hne
  rw [← hcompact] at hgrown
  rw [accepted_iff hobject hkeys hitem]
  simp only [Subject.isInsight_increase_iff hkeys' htext hproperty, hname]
  constructor
  · rintro ⟨_, ⟨_, hlength, _, _, rfl⟩, hallowed⟩
    have hallowed := Subject.insightAllowed_increase.mp hallowed
    exact ⟨hlength, hgrown.mp hallowed.2.2⟩
  · rintro ⟨hlength, hchange⟩
    refine ⟨_, ⟨hpos, hlength, text, htext, rfl⟩, ?_⟩
    exact Subject.insightAllowed_increase.mpr
      ⟨hsome, contains_names hbucket, hgrown.mpr hchange⟩

end Truthful

/-- Every stored transaction is one of an accepted OCR result. -/
def Tables.Admitted (db : Tables) : Prop :=
  ∀ id, ∀ stored ∈ (db.statements id).transactions, ∃ input result,
    parseOcrToolInput input = .ok result ∧
      ∃ line ∈ toCreateTransactionInputs result, stored = line.row

/-- The column that its names are taken from. -/
def Subject.column : Subject → CreateTransactionInput → JsString
  | category => CreateTransactionInput.category
  | merchant => CreateTransactionInput.merchantName

section Stored

variable {db : Tables} {days : CalendarDay × CalendarDay}
variable {aggregate : MonthlyAnalyticsAggregate} {subject : Subject}
variable {bucket : AnalyticsAggregateBucket}

/-- A name that an insight can have. -/
structure IsName (name : JsString) : Prop where
  pos : 1 ≤ codePointLength name
  trimmed : trim name = name

theorem IsName.utf8 {name : JsString} (h : IsName name) :
    IsName (utf8Text name) :=
  ⟨(codePointLength_utf8Text name).symm ▸ h.pos, trim_utf8Text h.trimmed⟩

theorem isName_category (category : OcrCategory) : IsName category.text := by
  cases category <;> exact ⟨by decide, by decide⟩

/-- An admitted transaction has such names. -/
theorem isName_column {input : JsValue} {result : OcrResult}
    (h : parseOcrToolInput input = .ok result) {line : CreateTransactionInput}
    (hline : line ∈ toCreateTransactionInputs result) :
    IsName (subject.column line.row) := by
  obtain ⟨transaction, htransaction, rfl⟩ := List.mem_map.mp hline
  cases subject with
  | category => exact (isName_category _).utf8
  | merchant =>
      obtain ⟨_, _, _, _, haccepts, _⟩ := parseOcrToolInput_accepts h
      obtain ⟨item, _, reported, _, hschema⟩ :=
        exists_rel_of_mem haccepts htransaction
      have hmerchant := (ocrTransactionSchema_resultOf hschema).merchantName
      obtain ⟨htrim, hlength⟩ := merchantSchema_eq_some_iff.mp hmerchant
      have hname : IsName transaction.merchantName := by
        rw [htrim]
        exact ⟨hlength.1, trim_trim _⟩
      exact hname.utf8

/-- A reported bucket stands for a stored transaction of that name. -/
theorem Tables.Reports.exists_row (h : db.Reports days aggregate)
    (hbucket : bucket ∈ subject.buckets aggregate) :
    ∃ row ∈ db.source days, subject.column row.2 = bucket.name := by
  have hgrouped : ∃ row ∈ db.buckets subject.column days,
      row.bucket = bucket := by
    cases subject with
    | category => exact List.mem_map.mp (h.categories.mem_iff.mp hbucket)
    | merchant => exact List.mem_map.mp (h.merchants.mem_iff.mp hbucket)
  obtain ⟨_, hrow, rfl⟩ := hgrouped
  obtain ⟨group, hgroup, rfl⟩ := List.mem_map.mp hrow
  have hkey : group.1 ∈ ((db.source days).map fun row =>
      subject.column row.2).dedup := by
    rw [← Relational.groups_keys]
    exact List.mem_map_of_mem hgroup
  exact List.mem_map.mp (List.mem_dedup.mp hkey)

theorem Tables.Admitted.isName (hadmitted : db.Admitted)
    (h : db.Reports days aggregate)
    (hbucket : bucket ∈ subject.buckets aggregate) : IsName bucket.name := by
  obtain ⟨⟨id, stored⟩, hrow, hname⟩ := h.exists_row hbucket
  have hjoined := (List.mem_filter.mp hrow).1
  obtain ⟨input, result, hparse, line, hline, rfl⟩ :=
    hadmitted id stored (Tables.mem_joined_iff.mp hjoined).2
  rw [← hname]
  exact isName_column hparse hline

theorem Tables.Reports.transactionCount_ne_zero (h : db.Reports days aggregate)
    (hbucket : bucket ∈ subject.buckets aggregate) :
    aggregate.transactionCount ≠ 0 := by
  obtain ⟨row, hrow, _⟩ := h.exists_row hbucket
  have hpos := List.length_pos_of_mem hrow
  rw [h.transactionCount]
  omega

end Stored

/-- A well-formed document of one insight, of this type and with this name. -/
def namingDocument (literal key name : JsString) : JsValue :=
  .object [(js "insights", .array [.object [
    (js "type", .string literal),
    (js "severity", .string (js "info")),
    (js "title", .string (js "旅行")),
    (js "description", .string (js "旅行の支出です。")),
    (key, .string name)]])]

theorem namesOne_namingDocument (literal name : JsString) (subject : Subject)
    (htrim : trim name = name) : NamesOne literal subject.key name
      (namingDocument literal subject.key name) := by
  refine ⟨_, _, ⟨.info, js "旅行", js "旅行の支出です。"⟩, name, rfl,
    List.forall_mem_singleton.mpr (List.mem_singleton.mpr rfl), rfl, ?_,
    ⟨rfl, rfl, ⟨_, rfl, by decide⟩, ⟨_, rfl, by decide⟩⟩, ?_, htrim⟩
  · intro entry hentry
    simp only [List.mem_cons, List.not_mem_nil, or_false] at hentry
    rcases hentry with rfl | rfl | rfl | rfl | rfl <;>
      simp [insightTextKeys]
  · cases subject <;> rfl

/-- An insight that names one category or merchant of the stored month is
accepted if and only if the name has at most 100 code points and, where it is
about a growth, the percentage of the growth is not rounded to zero. -/
theorem truthful_insight_accepted_iff (db : Tables) (year month : Int)
    (days days' : CalendarDay × CalendarDay)
    (aggregates : MonthlyAnalyticsAggregates) (subject : Subject)
    (bucket : AnalyticsAggregateBucket) (hadmitted : db.Admitted)
    (hcurrent : db.Reports days aggregates.current)
    (hprevious : db.Reports days' aggregates.previous)
    (hbucket : bucket ∈ subject.buckets aggregates.current) :
    (∀ literal, ∃ raw, NamesOne literal subject.key bucket.name raw) ∧
      (∀ raw, NamesOne (js "NOTABLE_SPENDING") subject.key bucket.name raw →
        (AcceptsInsights raw (insightsInput year month aggregates) ↔
          codePointLength bucket.name ≤ 100)) ∧
      ∀ previous ∈ subject.buckets aggregates.previous,
        previous.name = bucket.name → previous.amount ≠ 0 →
        previous.amount < bucket.amount →
        (∀ raw, NamesOne subject.increase subject.key bucket.name raw →
          (AcceptsInsights raw (insightsInput year month aggregates) ↔
            codePointLength bucket.name ≤ 100 ∧
              1 / 20 ≤ growth bucket.amount previous.amount)) ∧
        (|previous.amount| ≤ 2 ^ 50 →
          (1 / 20 ≤ growth bucket.amount previous.amount ↔
            |previous.amount| ≤ 2000 * (bucket.amount - previous.amount))) := by
  have hname := hadmitted.isName hcurrent hbucket
  refine ⟨fun literal => ⟨_, namesOne_namingDocument literal _ subject
    hname.trimmed⟩, ?_, ?_⟩
  · intro raw hraw
    exact accepted_notable_iff hbucket hname.pos hraw
  · intro previous hbefore hsame hne hless
    refine ⟨fun raw hraw => ?_, growth_ge_iff hne hless⟩
    exact accepted_increase_iff hcurrent.conserves hprevious.conserves
      (hprevious.transactionCount_ne_zero hbefore) hbucket hbefore hsame hne
      hname.pos hraw

section Sample

/-- A merchant name that the OCR schema takes and the insights schema does not. -/
def longMerchant : JsString :=
  List.replicate 101 0x41

/-- A transaction of this merchant, as the model reports it. -/
def grownItem (date : JsString) (amount : ℚ) (lineNumber : ℚ) : JsValue :=
  .object [
    (js "transactionDate", .string date),
    (js "merchantRaw", .string longMerchant),
    (js "merchantName", .string longMerchant),
    (js "amount", .number amount),
    (js "category", .string (js "旅行")),
    (js "subcategory", .string (js "なし")),
    (js "lineNumber", .number lineNumber)]

def grownOcrInput : JsValue :=
  .object [(js "transactions", .array [
    grownItem (js "2026-03-31") 100000 1, grownItem (js "2026-04-01") 100010 2])]

def grownPurchases : List CreateTransactionInput :=
  [⟨1, js "2026-03-31", longMerchant, longMerchant, 100000, js "旅行", none⟩,
    ⟨2, js "2026-04-01", longMerchant, longMerchant, 100010, js "旅行", none⟩]

def grownTables : Tables where
  ids := [sampleId]
  statements := World.set (fun _ => Statement.unused) sampleId
    { sampleStatement with transactions := grownPurchases }
  nodup := List.nodup_singleton _
  listed := by
    intro id hrow
    by_cases hid : id = sampleId
    · exact List.mem_singleton.mpr hid
    · rw [World.set_ne _ hid] at hrow
      exact absurd rfl hrow
  typed := by
    apply World.forall_set (P := fun s => ∀ transaction ∈ s.transactions,
      transaction.storable = true) sampleId
    · decide +kernel
    · intro other transaction hmem
      cases hmem
  unique := by
    apply World.forall_set (P := fun s =>
      (s.transactions.map CreateTransactionInput.lineNumber).Nodup) sampleId
    · decide
    · intro other
      exact List.nodup_nil

theorem admitted_grownTables : grownTables.Admitted := by
  intro id stored hstored
  refine ⟨grownOcrInput, ⟨[
    ⟨js "2026-03-31", longMerchant, longMerchant, 100000, .travel, none, 1⟩,
    ⟨js "2026-04-01", longMerchant, longMerchant, 100010, .travel, none, 2⟩]⟩,
    by decide +kernel, ?_⟩
  by_cases hid : id = sampleId
  · subst hid
    exact ⟨stored, hstored, by revert stored; decide +kernel⟩
  · simp only [grownTables, World.set_ne _ hid] at hstored
    cases hstored

def grownAggregate (amount : Int) : MonthlyAnalyticsAggregate :=
  ⟨amount, 1, [⟨js "旅行", amount, 1⟩], [⟨longMerchant, amount, 1⟩]⟩

def grownAggregates : MonthlyAnalyticsAggregates :=
  ⟨grownAggregate 100010, grownAggregate 100000⟩

theorem reports_grownTables {index : Nat} {amount : Int}
    (h : (index = 24315 ∧ amount = 100010) ∨ (index = 24314 ∧ amount = 100000)) :
    grownTables.Reports (monthDays index) (grownAggregate amount) := by
  rcases h with ⟨rfl, rfl⟩ | ⟨rfl, rfl⟩
  all_goals
    refine ⟨by decide +kernel, by decide +kernel, .of_eq (by decide +kernel),
      .of_eq (by decide +kernel), ⟨?_, ?_, ?_, ?_⟩⟩
    all_goals simp only [IsSafeInteger, AnalyticsBucketDatabaseRow.Safe]
    all_goals decide +kernel

def grownCategory (amount : Int) : AnalyticsAggregateBucket :=
  ⟨js "旅行", amount, 1⟩

def grownMerchant (amount : Int) : AnalyticsAggregateBucket :=
  ⟨longMerchant, amount, 1⟩

/-- Two truthful documents that are refused: one about a growth by one part in
ten thousand, and one about a merchant whose name has 101 letters. -/
theorem truthful_insights_refused :
    grownTables.Admitted ∧
      grownTables.Reports (monthDays 24315) grownAggregates.current ∧
      grownTables.Reports (monthDays 24314) grownAggregates.previous ∧
      grownCategory 100010 ∈ grownAggregates.current.categories ∧
      grownCategory 100000 ∈ grownAggregates.previous.categories ∧
      (∃ raw, NamesOne (js "CATEGORY_INCREASE") (js "category") (js "旅行") raw ∧
        ¬ AcceptsInsights raw (insightsInput 2026 4 grownAggregates)) ∧
      grownMerchant 100010 ∈ grownAggregates.current.merchants ∧
      ∃ raw, NamesOne (js "NOTABLE_SPENDING") (js "merchant") longMerchant raw ∧
        ¬ AcceptsInsights raw (insightsInput 2026 4 grownAggregates) := by
  have hcurrent : grownTables.Reports (monthDays 24315)
      grownAggregates.current := reports_grownTables (.inl ⟨rfl, rfl⟩)
  have hprevious : grownTables.Reports (monthDays 24314)
      grownAggregates.previous := reports_grownTables (.inr ⟨rfl, rfl⟩)
  have hcategory : grownCategory 100010 ∈
      Subject.category.buckets grownAggregates.current :=
    List.mem_singleton.mpr rfl
  have hbefore : grownCategory 100000 ∈
      Subject.category.buckets grownAggregates.previous :=
    List.mem_singleton.mpr rfl
  have hmerchant : grownMerchant 100010 ∈
      Subject.merchant.buckets grownAggregates.current :=
    List.mem_singleton.mpr rfl
  have hgrown := namesOne_namingDocument (js "CATEGORY_INCREASE") (js "旅行")
    .category (by decide)
  have hnotable := namesOne_namingDocument (js "NOTABLE_SPENDING") longMerchant
    .merchant (by decide +kernel)
  refine ⟨admitted_grownTables, hcurrent, hprevious, hcategory, hbefore,
    ⟨_, hgrown, fun haccepted => ?_⟩, hmerchant, _, hnotable,
    fun haccepted => ?_⟩
  · have hseen := (accepted_increase_iff hcurrent.conserves hprevious.conserves
      (by decide) hcategory hbefore rfl (by decide) (by decide)
      hgrown).mp haccepted
    exact absurd hseen.2 (by decide +kernel)
  · have hlength := (accepted_notable_iff hmerchant (by decide +kernel)
      hnotable).mp haccepted
    exact absurd hlength (by decide +kernel)

theorem truthful_insight_accepted_iff_grownTables :
    ∃ raw, NamesOne (js "NOTABLE_SPENDING") (js "category") (js "旅行") raw ∧
      AcceptsInsights raw (insightsInput 2026 4 grownAggregates) := by
  have hnotable := namesOne_namingDocument (js "NOTABLE_SPENDING") (js "旅行")
    .category (by decide)
  exact ⟨_, hnotable, ((truthful_insight_accepted_iff grownTables 2026 4
    (monthDays 24315) (monthDays 24314) grownAggregates .category
    (grownCategory 100010) admitted_grownTables
    (reports_grownTables (.inl ⟨rfl, rfl⟩))
    (reports_grownTables (.inr ⟨rfl, rfl⟩))
    (List.mem_singleton.mpr rfl)).2.1 _ hnotable).mpr (by decide)⟩

end Sample

end StatementAnalyzer
