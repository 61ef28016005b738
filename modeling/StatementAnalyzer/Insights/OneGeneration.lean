/-
Concurrent requests for the insights of one month: at most one generation is
committed, and whoever looks up the cache afterwards calls no analyzer.
-/
import StatementAnalyzer.Insights.GenerationRequest

namespace StatementAnalyzer

open Async

namespace InsightsMonth

variable {m : InsightsMonth} {t : Tid}

section Runs

variable {c c' : Config (InsightsWorld × ApiChronicle) ApiQuery ApiQuery.Answer
  Thrown MonthlyInsightsResponse}

theorem chronicled_follows (h : m.requests.chronicled.Reachable c) (t : Tid) :
    System.Follows (getMonthlyInsights m.options m.year m.month) c t := by
  apply System.chronicled_follows _ h
  intro t p w w' hstart
  exact hstart.1

theorem chronicled_sound (h : m.requests.chronicled.Reachable c) :
    m.Inv c.world ∧ ∀ t p, c.threads t = .running p →
      m.protocol.wp t p (m.Settles t) c.world := by
  apply Protocol.sound (P := m.protocol) (Q := m.Settles) _ h
  rintro c t p ⟨w, chronicle⟩ hreach hidle hinv ⟨⟨rfl, rfl⟩, rfl⟩ _
  exact ⟨hinv, wp_getMonthlyInsights ((chronicled_follows hreach t).idle hidle)⟩

/-- The request is about to call the analyzer, or waits for its answer. -/
def AtAnalyzer (c : Config (InsightsWorld × ApiChronicle) ApiQuery ApiQuery.Answer
    Thrown MonthlyInsightsResponse) (t : Tid) : Prop :=
  ∃ input resume, c.threads t = .running (.await (.analyze input) resume)

/-- An answer that no request refuses. -/
theorem parseAndValidateInsights_empty (input : CompactInsightsInput) :
    parseAndValidateInsights (.object [(js "insights", .array [])]) input =
      .ok ⟨[]⟩ := rfl

/-- The call that the request is about to make, when it succeeds. -/
theorem atAnalyzer_step (h : m.requests.chronicled.Reachable c)
    (hat : AtAnalyzer c t) :
    m.Early t c.world ∧ ∃ c' input, m.requests.chronicled.Reachable c' ∧
      c'.world.2 = c.world.2 ++ [.called t ⟨.analyze input, .ok (.array [])⟩] ∧
      (∀ u, u ≠ t → c'.threads u = c.threads u) ∧
      ¬GenerationFailed m.input c'.world.2 t := by
  obtain ⟨input, resume, hrunning⟩ := hat
  have hstep : m.requests.chronicled.Step (.call t (.analyze input)) c
      (c.move t (.running (resume (.ok (.array []))))
        (c.world.1, c.world.2 ++
          [.called t ⟨.analyze input, .ok (.array [])⟩])) :=
    .call hrunning ⟨.elsewhere rfl, rfl⟩
  have hreach := h.step hstep
  have hearly : m.Early t c.world := by
    apply (chronicled_sound hreach).1.early t (c.world.2.calls t)
      ⟨.analyze input, .ok (.array [])⟩ [] _ ⟨input, rfl⟩
    exact Chronicle.calls_called_self
  refine ⟨hearly, _, input, hreach, rfl,
    fun u hut => Config.move_threads_ne _ hut _ _, ?_⟩
  rintro (hcrashed | ⟨answered, hmem, hfails⟩)
  · have hthread := (chronicled_follows hreach t).crashed hcrashed
    rw [Config.move_threads_self] at hthread
    cases hthread
  · rw [← Chronicle.mem_calls_iff, Config.move_world,
      Chronicle.calls_called_self] at hmem
    rcases List.mem_append.mp hmem with hold | hnew
    · obtain ⟨⟨value, hok⟩, hnot, _⟩ := hearly answered hold
      cases hfails with
      | generation | save | commit => cases hok
      | validation _ => exact hnot _ rfl
    · rw [List.mem_singleton.mp hnew] at hfails
      cases hfails with
      | validation hparse =>
          rw [parseAndValidateInsights_empty] at hparse
          cases hparse

/-- Whoever called the analyzer before has failed. -/
theorem failed_of_atAnalyzer (h : m.requests.chronicled.Reachable c)
    (hat : AtAnalyzer c t) {u : Tid} (hgen : Generates c.world.2 u) :
    u ≠ t ∧ GenerationFailed m.input c.world.2 u := by
  obtain ⟨hearly, c', input, hreach, hchronicle, _, hopen⟩ := atAnalyzer_step h hat
  have hut : u ≠ t := by
    rintro rfl
    exact hearly.not_generates hgen
  refine ⟨hut, ?_⟩
  have hgen' : Generates c'.world.2 t := by
    rw [hchronicle]
    exact ⟨input, _, List.mem_append_right _ (List.mem_singleton_self _)⟩
  have hgenu : Generates c'.world.2 u := by
    rw [hchronicle]
    exact generates_mono (List.prefix_append ..) hgen
  rcases (chronicled_sound hreach).1.once t u hut.symm hgen' hgenu with
    hfailed | hfailed
  · exact absurd hfailed hopen
  · rw [hchronicle] at hfailed
    rcases hfailed with hcrashed | ⟨answered, hmem, hfails⟩
    · left
      simpa using hcrashed
    · refine .inr ⟨answered, ?_, hfails⟩
      rcases List.mem_append.mp hmem with hold | hnew
      · exact hold
      · cases List.mem_singleton.mp hnew
        exact absurd rfl hut

theorem atAnalyzer_unique (h : m.requests.chronicled.Reachable c) {u : Tid}
    (hat : AtAnalyzer c t) (hat' : AtAnalyzer c u) : u = t := by
  by_contra hut
  obtain ⟨_, c', input, hreach, hchronicle, hthreads, hopen⟩ :=
    atAnalyzer_step h hat
  have hat'' : AtAnalyzer c' u := by
    obtain ⟨input', resume, hrunning⟩ := hat'
    exact ⟨input', resume, (hthreads u hut).trans hrunning⟩
  have hgen : Generates c'.world.2 t := by
    rw [hchronicle]
    exact ⟨input, _, List.mem_append_right _ (List.mem_singleton_self _)⟩
  exact hopen (failed_of_atAnalyzer hreach hat'' hgen).2

/-- Once a save is committed, a lookup leads to no generation. -/
theorem not_atAnalyzer_of_lookup (h : m.requests.chronicled.Reachable c)
    (hsaved : c.world.1.saves ≠ []) {lookup : MonthlyInsightsCacheLookup}
    (hstep : m.requests.chronicled.Step
      (.call t (.client (.selectMonthlyInsights lookup))) c c')
    {c'' : Config (InsightsWorld × ApiChronicle) ApiQuery ApiQuery.Answer
      Thrown MonthlyInsightsResponse}
    (hleads : m.requests.chronicled.Leads c' c'') : ¬AtAnalyzer c'' t := by
  intro hat
  have hreach := (h.step hstep).leads hleads
  have hearly := (atAnalyzer_step hreach hat).1
  have hlonger := System.chronicled_grows hleads
  have hinv := (chronicled_sound h).1
  cases hstep with
  | @call _ _ _ _ answer w' _ hexec =>
      have hcalled : .called t
          ⟨.client (.selectMonthlyInsights lookup), answer⟩ ∈ c''.world.2 := by
        apply hlonger.subset
        rw [Config.move_world, hexec.2]
        exact List.mem_append_right _ (List.mem_singleton_self _)
      obtain ⟨rows, rfl, rfl, hnone⟩ :=
        (hearly _ (Chronicle.mem_calls_iff.mpr hcalled)).rows
      have hselect := hexec.1.select_eq
      rw [InsightsWorld.visible_eq] at hselect
      · cases hsaves : c.world.1.saves with
        | nil => exact hsaved hsaves
        | cons u rest =>
            obtain ⟨_, _, response, hresponse⟩ := hinv.sound.saved u rest hsaves
            rw [answer, row, ← select_head? hselect, hnone] at hresponse
            cases hresponse
      · intro held holds
        cases hdraft : held.draft with
        | none => rfl
        | some written =>
            exact absurd (hinv.sound.draft held _ _ holds.1 hdraft).1 hsaved

/-- The request has returned the response. -/
def Returns (m : InsightsMonth) (c : Config (InsightsWorld × ApiChronicle)
    ApiQuery ApiQuery.Answer Thrown MonthlyInsightsResponse) (t : Tid)
    (response : MonthlyInsightsResponse) : Prop :=
  (getMonthlyInsights m.options m.year m.month).Run (c.world.2.calls t)
    (.ok response)

theorem Settles.step (h : m.requests.chronicled.Reachable c) {l : Label ApiQuery}
    (hstep : m.requests.chronicled.Step l c c')
    {result : Except Thrown MonthlyInsightsResponse}
    (hsettles : m.Settles t result c.world) : m.Settles t result c'.world := by
  have hgrows : c.world.1.Grows m.pg m.lookup.targetMonth c'.world.1 := by
    cases hstep with
    | call _ hexec => exact hexec.1.grows
    | start _ hstart =>
        rw [Config.move_world, hstart.1.2]
        exact .refl _
    | crash _ hcrash => exact hcrash.1.shifts.grows
    | env henv =>
        have hrely : c.world.1.Rely m.pg m.lookup.targetMonth t _ := henv.1.rely
        exact hrely.grows
  intro response hresponse
  exact (hsettles response hresponse).grows (chronicled_sound h).1.sound
    (chronicled_sound (h.step hstep)).1.sound hgrows

theorem Returns.returned (h : m.requests.chronicled.Reachable c)
    {response : MonthlyInsightsResponse} (hreturns : m.Returns c t response) :
    m.Returned t response c.world := by
  have hstarted : c.threads t ≠ .idle := by
    intro hidle
    rw [Returns, (chronicled_follows h t).idle hidle] at hreturns
    rcases run_getMonthlyInsights hreturns with ⟨⟨_, herror⟩, _⟩ |
      ⟨ranges, aggregates, before, after, _, hnil, hfind, _⟩
    · cases herror
    · obtain ⟨rfl, _⟩ := List.append_eq_nil_iff.mp hnil.symm
      obtain ⟨_, _, _, _, _, _, hcalls, rfl, _⟩ := run_findMonthlyAnalytics_ok hfind
      cases hcalls
  have hsettles : m.Settles t (.ok response) c.world := by
    apply Protocol.returned (P := m.protocol) (Q := m.Settles) _ chronicled_sound
      (fun hreach hstep => Settles.step hreach hstep) h hstarted hreturns
    intro t p w w' hstart
    exact hstart.1
  exact hsettles response rfl

end Runs

/-- At most one generation is saved.  Whenever a request calls the analyzer,
every other one that has called it has failed; once a save is committed, a
request that looks up the cache does not call the analyzer any more; and all
requests return the same insights, at most one of them as new. -/
theorem insights_generated_once (m : InsightsMonth)
    {c : Config (InsightsWorld × ApiChronicle) ApiQuery ApiQuery.Answer Thrown
      MonthlyInsightsResponse} (h : m.requests.chronicled.Reachable c) :
    c.world.1.saves.length ≤ 1 ∧
    (∀ t, AtAnalyzer c t → (∀ u, AtAnalyzer c u → u = t) ∧
      ∀ u, Generates c.world.2 u →
        u ≠ t ∧ GenerationFailed m.input c.world.2 u) ∧
    (c.world.1.saves ≠ [] → ∀ t lookup c' c'',
      m.requests.chronicled.Step
        (.call t (.client (.selectMonthlyInsights lookup))) c c' →
      m.requests.chronicled.Leads c' c'' → ¬AtAnalyzer c'' t) ∧
    ∀ t u response response', m.Returns c t response →
      m.Returns c u response' → response.insights = response'.insights ∧
        (response.cached = false → response'.cached = false → t = u) := by
  have hsound := (chronicled_sound h).1.sound
  refine ⟨?_, fun t hat => ⟨fun u => atAnalyzer_unique h hat,
    fun u => failed_of_atAnalyzer h hat⟩,
    fun hsaved t lookup c' c'' hstep hleads =>
      not_atAnalyzer_of_lookup h hsaved hstep hleads, ?_⟩
  · cases hsaves : c.world.1.saves with
    | nil => exact Nat.zero_le 1
    | cons t rest =>
        rw [(hsound.saved t rest hsaves).1]
        exact le_rfl
  · intro t u response response' hreturns hreturns'
    have hreturned := hreturns.returned h
    have hreturned' := hreturns'.returned h
    have hsame := hreturned.answer.symm.trans hreturned'.answer
    simp only [Except.ok.injEq, Option.some.injEq,
      MonthlyInsightsResponse.mk.injEq] at hsame
    refine ⟨hsame.2.2.1, fun hnew hnew' => ?_⟩
    have ht := hreturned.saved hnew
    have hu := hreturned'.saved hnew'
    cases hsaves : c.world.1.saves with
    | nil =>
        rw [hsaves] at ht
        cases ht
    | cons v rest =>
        rw [hsaves, (hsound.saved v rest hsaves).1, List.mem_singleton] at ht hu
        exact ht.trans hu.symm

end InsightsMonth

/-- Requests that read the same tables make the same input. -/
theorem insightsInput_of_selects {pg : DateCast} {db : Tables} {year month : Int}
    {ranges : MonthlyAnalyticsRanges}
    {current previous current' previous' : MonthlyAnalyticsAggregate}
    (hcurrent : ReadsAggregate (db.Selects pg) ranges.current current)
    (hprevious : ReadsAggregate (db.Selects pg) ranges.previous previous)
    (hcurrent' : ReadsAggregate (db.Selects pg) ranges.current current')
    (hprevious' : ReadsAggregate (db.Selects pg) ranges.previous previous') :
    insightsInput year month ⟨current, previous⟩ =
      insightsInput year month ⟨current', previous'⟩ := by
  have hreports : ∀ {range aggregate},
      ReadsAggregate (db.Selects pg) range aggregate →
        ∃ days, pg.range range = some days ∧ db.Reports days aggregate := by
    rintro range aggregate ⟨_, _, _, hoverview, hcategories, hmerchants, hrows⟩
    exact hoverview.reports hcategories hmerchants hrows
  have hsame : ∀ {range aggregate aggregate'},
      ReadsAggregate (db.Selects pg) range aggregate →
        ReadsAggregate (db.Selects pg) range aggregate' →
          aggregate.Same aggregate' ∧ aggregate.Conserves := by
    intro range aggregate aggregate' h h'
    obtain ⟨days, hdays, hreport⟩ := hreports h
    obtain ⟨days', hdays', hreport'⟩ := hreports h'
    obtain rfl := Option.some.inj (hdays.symm.trans hdays')
    exact ⟨⟨hreport'.totalAmount.trans hreport.totalAmount.symm,
      hreport'.transactionCount.trans hreport.transactionCount.symm,
      hreport'.categories.trans hreport.categories.symm,
      hreport'.merchants.trans hreport.merchants.symm⟩, hreport.conserves⟩
  obtain ⟨hsameCurrent, hconserves⟩ := hsame hcurrent hcurrent'
  obtain ⟨hsamePrevious, hconserves'⟩ := hsame hprevious hprevious'
  have haggregates : MonthlyAnalyticsAggregates.Same ⟨current, previous⟩
      ⟨current', previous'⟩ := ⟨hsameCurrent, hsamePrevious⟩
  rw [insightsInput, insightsInput,
    buildMonthlyAnalytics_eq_of_same hconserves hconserves' haggregates]

section Sample

theorem readsAggregate_sampleTables {index : Nat}
    (hindex : index = 24314 ∨ index = 24315) {aggregate : MonthlyAnalyticsAggregate}
    (haggregate : aggregateOfRows [sampleTables.overview (monthDays index)]
      (sampleTables.buckets CreateTransactionInput.category (monthDays index))
      (sampleTables.buckets CreateTransactionInput.merchantName
        (monthDays index)) = .ok aggregate) :
    ReadsAggregate (sampleTables.Selects isoCast)
      ⟨monthStartText index, monthStartText (index + 1)⟩ aggregate := by
  have hrange := isoCast.range_month index (by omega) (by omega)
  refine ⟨_, _, _, .overview hrange, .categories hrange ⟨.refl _, ?_⟩,
    .merchants hrange ⟨.refl _, ?_⟩, haggregate⟩
  · rcases hindex with rfl | rfl <;> decide
  · rcases hindex with rfl | rfl <;> decide

def aprilMonth : InsightsMonth where
  pg := isoCast
  jsonb := plainJsonb
  options := sampleOptions
  year := 2026
  month := 4
  ranges := cachedRanges
  isRanges := cachedRanges_eq
  reads _ := sampleTables.Selects isoCast
  input := cachedInput
  sameInput _ _ _ hcurrent hprevious :=
    insightsInput_of_selects hcurrent hprevious
      (readsAggregate_sampleTables (.inr rfl) rfl)
      (readsAggregate_sampleTables (.inl rfl) rfl)
  initial _ := none

/-- The queries of one month, for the first request. -/
theorem serves_sampleQueries {index : Nat} (hindex : index = 24314 ∨ index = 24315)
    (w : InsightsWorld) :
    Served Eq (fun w op answer w' => aprilMonth.requests.exec 0 op w answer w') w
      (sampleQueries index) w := by
  have hrange := isoCast.range_month index (by omega) (by omega)
  refine .cons rfl (.read rfl (.overview hrange)) (.cons rfl
    (.read rfl (.categories hrange ⟨.refl _, ?_⟩)) (.cons rfl
      (.read rfl (.merchants hrange ⟨.refl _, ?_⟩)) .nil))
  · rcases hindex with rfl | rfl <;> decide
  · rcases hindex with rfl | rfl <;> decide

theorem serves_sampleCall :
    Served Eq (fun w op answer w' => aprilMonth.requests.exec 0 op w answer w')
      ⟨fun _ => none, none, []⟩ (sampleCall 24314) ⟨fun _ => none, none, []⟩ := by
  apply served_append_iff.mpr
  refine ⟨_, .cons rfl (.elsewhere rfl) (.cons rfl (.elsewhere rfl) .nil), ?_⟩
  apply served_append_iff.mpr
  refine ⟨_, serves_sampleQueries (.inr rfl) _, ?_⟩
  apply served_append_iff.mpr
  refine ⟨_, serves_sampleQueries (.inl rfl) _, ?_⟩
  refine .cons rfl (.ended (.inl rfl) ?_) (.cons rfl (.elsewhere rfl) .nil)
  rintro held ⟨hheld, _⟩
  cases hheld

/-- Two misses, a generation and a save, alone. -/
theorem serves_missCalls :
    Served Eq (fun w op answer w' => aprilMonth.requests.exec 0 op w answer w')
      ⟨fun _ => none, none, []⟩ missCalls ⟨keptTable, none, [0]⟩ := by
  have hselect : InsightsTable.select isoCast (fun _ => none) cachedLookup =
      some [] := by
    rw [InsightsTable.select, cast_april]
    rfl
  apply Served.cons rfl (.elsewhere rfl)
  apply Served.cons rfl (.selected hselect)
  apply Served.cons rfl (.elsewhere rfl)
  apply Served.cons rfl (.elsewhere rfl)
  apply Served.cons rfl (.elsewhere rfl)
  apply Served.cons rfl (.locked rfl)
  apply Served.cons rfl (.selected hselect)
  apply Served.cons rfl (.elsewhere rfl)
  apply Served.cons rfl .now
  apply Served.cons rfl (.upserted ⟨rfl, rfl⟩ writes_cachedSave)
  apply Served.cons rfl (.committed ⟨rfl, rfl⟩)
  exact Served.cons rfl (.elsewhere rfl) .nil

/-- The first request has just started. -/
def aprilStart : Config (InsightsWorld × ApiChronicle) ApiQuery ApiQuery.Answer
    Thrown MonthlyInsightsResponse where
  world := (⟨fun _ => none, none, []⟩, [])
  threads := Function.update (fun _ => .idle) 0
    (.running (getMonthlyInsights sampleOptions 2026 4))

theorem reachable_aprilStart :
    aprilMonth.requests.chronicled.Reachable aprilStart := by
  have hinit : aprilMonth.requests.chronicled.Reachable
      ⟨aprilStart.world, fun _ => .idle⟩ := .init ⟨rfl, rfl⟩
  exact hinit.step (.start rfl ⟨⟨rfl, rfl⟩, rfl⟩)

/-- The first request has generated and saved, and every other one that returns
insights returns the same. -/
theorem insights_generated_once_april : ∃ c,
    aprilMonth.requests.chronicled.Reachable c ∧ c.world.1.saves = [0] ∧
      ∀ t response, aprilMonth.Returns c t response →
        response.insights = [sampleInsight] ∧
          (response.cached = false → t = 0) := by
  have hrun := (run_april run_missCalls).2
  have hthread : aprilStart.threads 0 =
      .running (getMonthlyInsights sampleOptions 2026 4) := rfl
  obtain ⟨c, hleads, hworld, _⟩ := System.leads_of_served hthread hrun
    (served_append_iff.mpr ⟨_, serves_sampleCall, serves_missCalls⟩)
  have hreach := reachable_aprilStart.leads hleads
  obtain ⟨_, _, _, hsame⟩ := aprilMonth.insights_generated_once hreach
  have hfirst : aprilMonth.Returns c 0 ⟨2026, 4, [sampleInsight], 5, false⟩ := by
    have hcalls : Chronicle.calls c.world.2 0 = sampleCall 24314 ++ missCalls := by
      rw [hworld]
      rfl
    rw [InsightsMonth.Returns, hcalls]
    exact hrun
  refine ⟨c, hreach, by rw [hworld], fun t response hreturns => ?_⟩
  obtain ⟨hinsights, hnew⟩ := hsame t 0 response _ hreturns hfirst
  exact ⟨hinsights, fun hcached => hnew hcached rfl⟩

end Sample

end StatementAnalyzer
