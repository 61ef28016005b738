/-
What one request for the insights of a month keeps to, call by call, while the
others do whatever they do in between.
-/
import StatementAnalyzer.Insights.GenerationInvariant

namespace StatementAnalyzer

open Async

namespace InsightsMonth

variable {m : InsightsMonth} {t : Tid} {w w' : InsightsWorld × ApiChronicle}

/-- What a step of the other requests leaves of what a request knows. -/
def protocol (m : InsightsMonth) : Protocol m.requests.chronicled where
  rely t w w' := w'.2.calls t = w.2.calls t ∧
    w.1.Rely m.pg m.lookup.targetMonth t w'.1
  refl t w := ⟨rfl, .refl t w.1⟩
  trans h h' := ⟨h'.1.trans h.1, h.2.trans h'.2⟩
  exec h htu := ⟨by rw [h.2, Chronicle.calls_called_ne htu], h.1.rely htu.symm⟩
  start h := ⟨by rw [h.2], by rw [h.1.2]; exact .refl _ _⟩
  crash h htu := ⟨by rw [h.2, Chronicle.calls_crashed], h.1.shifts.rely htu.symm⟩
  env h := ⟨by rw [h.2], h.1.rely⟩
  Known _ := True
  Inv := m.Inv
  known _ := trivial
  inv_init := by
    rintro ⟨w, chronicle⟩ ⟨rfl, rfl⟩
    refine ⟨⟨fun _ => rfl, nofun, nofun⟩, nofun, ?_, ?_, fun _ => each_nil⟩
    · rintro t ⟨_, _, hmem⟩
      cases hmem
    · rintro t u _ ⟨_, _, hmem⟩
      cases hmem
  inv_crash := by
    rintro t w ⟨w', chronicle⟩ _ hinv ⟨hcrashes, rfl⟩
    exact hinv.crashed hcrashes
  inv_env := by
    rintro w ⟨w', chronicle⟩ _ hinv ⟨hdrifts, rfl⟩
    exact hinv.drifted hdrifts

/-- The generation of the request needs no lock: there is none, it has failed or
a save is committed. -/
def Cleared (m : InsightsMonth) (t : Tid) (w : InsightsWorld × ApiChronicle) :
    Prop :=
  (∀ answered ∈ w.2.calls t, ∀ input, answered.op ≠ .analyze input) ∨
    (∃ answered ∈ w.2.calls t, FailsGeneration m.input answered) ∨
    w.1.saves ≠ []

theorem Cleared.rely (h : m.Cleared t w) (hrely : m.protocol.rely t w w') :
    m.Cleared t w' := by
  obtain ⟨hcalls, hworld⟩ := hrely
  rw [Cleared, hcalls]
  rcases h with hearly | hfailed | hsaved
  · exact .inl hearly
  · exact .inr (.inl hfailed)
  · exact .inr (.inr (hworld.grows.saved hsaved))

/-- The response is the one that every lookup gets from now on, and a new one
comes from the save of the request. -/
structure Returned (m : InsightsMonth) (t : Tid)
    (response : MonthlyInsightsResponse) (w : InsightsWorld × ApiChronicle) :
    Prop where
  answer : m.answer w.1.table = .ok (some { response with cached := true })
  saved : response.cached = false → t ∈ w.1.saves

theorem Returned.grows {response : MonthlyInsightsResponse}
    (h : m.Returned t response w) (hsound : m.Sound w.1) (hsound' : m.Sound w'.1)
    (hgrows : w.1.Grows m.pg m.lookup.targetMonth w'.1) :
    m.Returned t response w' :=
  ⟨hsound.answer_eq hsound' hgrows h.answer,
    fun hnew => hgrows.saves.subset (h.saved hnew)⟩

/-- How a request settles. -/
def Settles (m : InsightsMonth) (t : Tid)
    (result : Except Thrown MonthlyInsightsResponse)
    (w : InsightsWorld × ApiChronicle) : Prop :=
  ∀ response, result = .ok response → m.Returned t response w

/-- Any call but a generation or a save. -/
theorem quiet_step {op : ApiQuery} {answer : Except Thrown op.Answer}
    (hop : op.Quiet) (hinv : m.Inv w) (hcleared : m.Cleared t w)
    (hexec : m.requests.chronicled.exec t op w answer w') :
    m.Inv w' ∧ m.Cleared t w' := by
  obtain ⟨w, chronicle⟩ := w
  obtain ⟨w', chronicle'⟩ := w'
  obtain ⟨hserves, rfl⟩ := hexec
  have hanalyze : ∀ input, op ≠ .analyze input := by
    rintro input rfl
    exact hop
  have hshifts : w.Shifts t w' := by
    apply hserves.shifts
    rintro input rfl
    exact hop
  have hgrows : w.Grows m.pg m.lookup.targetMonth w' := hserves.grows
  have hcleared' : m.Cleared t (w', chronicle ++ [.called t ⟨op, answer⟩]) := by
    rw [Cleared, Chronicle.calls_called_self]
    rcases hcleared with hearly | ⟨answered, hmem, hfails⟩ | hsaved
    · refine .inl fun answered hmem => ?_
      rcases List.mem_append.mp hmem with hold | hnew
      · exact hearly answered hold
      · rw [List.mem_singleton.mp hnew]
        exact hanalyze
    · exact .inr (.inl ⟨answered, List.mem_append_left _ hmem, hfails⟩)
    · exact .inr (.inr (hgrows.saved hsaved))
  refine ⟨hinv.called hserves hanalyze (hinv.sound.shifts hshifts)
    (hinv.author_shifts hshifts) ?_, hcleared'⟩
  rintro ⟨input, value, hmem⟩
  rcases hcleared' with hearly | ⟨answered, hcall, hfails⟩ | hsaved
  · have hcall := List.mem_append_left [⟨op, answer⟩]
      (Chronicle.mem_calls_iff.mpr hmem)
    rw [← Chronicle.calls_called_self] at hcall
    exact absurd rfl (hearly _ hcall input)
  · exact .inl (.inr ⟨answered, Chronicle.mem_calls_iff.mp hcall, hfails⟩)
  · exact .inr (.inr hsaved)

theorem Missed.rows {lookup : MonthlyInsightsCacheLookup}
    {answer : Except Thrown (List MonthlyInsightsCacheRecord)}
    (h : m.Missed ⟨.client (.selectMonthlyInsights lookup), answer⟩) :
    ∃ rows, answer = .ok rows ∧ lookup = m.lookup ∧
      getCachedResponse m.year m.month m.input rows.head? = .ok none := by
  obtain ⟨⟨_, hok⟩, _, hmiss⟩ := h
  cases answer with
  | error error => cases hok
  | ok rows => exact ⟨rows, rfl, hmiss lookup rows rfl⟩

/-- An answered call that is neither a generation nor a lookup. -/
theorem Missed.of_ok {op : ApiQuery} {value : op.Answer}
    (hanalyze : ∀ input, op ≠ .analyze input)
    (hlookup : ∀ lookup, op ≠ .client (.selectMonthlyInsights lookup)) :
    m.Missed ⟨op, .ok value⟩ := by
  refine ⟨⟨value, rfl⟩, hanalyze, fun lookup rows heq => ?_⟩
  exact absurd (congrArg Answered.op heq) (hlookup lookup)

/-- So far the request has met nothing but misses. -/
def Early (m : InsightsMonth) (t : Tid) (w : InsightsWorld × ApiChronicle) :
    Prop :=
  ∀ answered ∈ w.2.calls t, m.Missed answered

theorem Early.cleared (h : m.Early t w) : m.Cleared t w :=
  .inl fun answered hmem => (h answered hmem).early

theorem Early.rely (h : m.Early t w) (hrely : m.protocol.rely t w w') :
    m.Early t w' := by
  rw [Early, hrely.1]
  exact h

theorem Early.not_generates (h : m.Early t w) : ¬Generates w.2 t := by
  rintro ⟨input, answer, hmem⟩
  exact (h _ (Chronicle.mem_calls_iff.mpr hmem)).early input rfl

theorem Early.step (h : m.Early t w) {op : ApiQuery}
    {answer : Except Thrown op.Answer}
    (hexec : m.requests.chronicled.exec t op w answer w')
    (hmissed : m.Missed ⟨op, answer⟩) : m.Early t w' := by
  intro answered hmem
  rw [hexec.2, Chronicle.calls_called_self, List.mem_append] at hmem
  rcases hmem with hold | hnew
  · exact h answered hold
  · rw [List.mem_singleton.mp hnew]
    exact hmissed

/-- A request that has written nothing reads the committed rows. -/
theorem Early.visible (h : m.Early t w) (hinv : m.Inv w) :
    w.1.visible t = w.1.table := by
  apply InsightsWorld.visible_eq
  intro held holds
  by_contra hdraft
  exact h.not_generates (holds.2 ▸ hinv.author held holds.1 hdraft)

theorem select_head? {table : InsightsTable} {lookup : MonthlyInsightsCacheLookup}
    {rows : List MonthlyInsightsCacheRecord} {pg : DateCast}
    (h : table.select pg lookup = some rows) :
    rows.head? = (table.row pg lookup.targetMonth).filter fun record =>
      record.matches lookup := by
  obtain ⟨day, hcast, hrows⟩ := Option.bind_eq_some_iff.mp h
  obtain rfl := Option.some.inj hrows
  rw [InsightsTable.row, hcast, Option.bind_some, Option.head?_toList]

section Weakest

variable {β : Type} {op : ApiQuery} {Q : Except Thrown β → InsightsWorld ×
  ApiChronicle → Prop} {resume : Except Thrown op.Answer → ApiProgram β}

theorem wp_quiet (hop : op.Quiet) (hcleared : m.Cleared t w)
    (h : ∀ {w₁ answer w₂}, m.protocol.rely t w w₁ → m.Inv w₁ →
      m.requests.chronicled.exec t op w₁ answer w₂ → m.Inv w₂ →
        m.Cleared t w₂ → m.protocol.wp t (resume answer) Q w₂) :
    m.protocol.wp t (.await op resume) Q w := by
  apply Protocol.wp.await
  intro w₁ hrely _ hinv₁ answer w₂ hexec _
  obtain ⟨hinv₂, hcleared₂⟩ :=
    quiet_step hop hinv₁ (hcleared.rely hrely) hexec
  exact ⟨hinv₂, h hrely hinv₁ hexec hinv₂ hcleared₂⟩

/-- A lookup before any generation, in the lock or outside. -/
theorem wp_lookup {resume : Except Thrown (List MonthlyInsightsCacheRecord) →
      ApiProgram β} (hearly : m.Early t w)
    (herror : ∀ {w' error}, m.Inv w' → m.Cleared t w' →
      m.protocol.wp t (resume (.error error)) Q w')
    (hok : ∀ w' rows, w.1.Rely m.pg m.lookup.targetMonth t w'.1 → m.Inv w' →
      m.Cleared t w' →
      getCachedResponse m.year m.month m.input rows.head? =
        m.answer w'.1.table →
      (m.answer w'.1.table = .ok none → m.Early t w') →
      m.protocol.wp t (resume (.ok rows)) Q w') :
    m.protocol.wp t (.await (.client (.selectMonthlyInsights m.lookup)) resume) Q
      w := by
  apply wp_quiet (by trivial) hearly.cleared
  rintro w₁ answer ⟨w₂, chronicle⟩ hrely hinv₁ hexec hinv₂ hcleared₂
  have hearly₁ := hearly.rely hrely
  obtain ⟨hserves, hchronicle⟩ := id hexec
  cases hserves with
  | rejected _ => exact herror hinv₂ hcleared₂
  | ended hq _ => exact absurd hq (by simp)
  | read hq _ | elsewhere hq => cases hq
  | @selected _ rows hselect =>
      rw [hearly₁.visible hinv₁] at hselect
      have hhead : getCachedResponse m.year m.month m.input rows.head? =
          m.answer w₁.1.table := by
        rw [select_head? hselect]
        rfl
      apply hok (w₁.1, chronicle) rows hrely.2 hinv₂ hcleared₂ hhead
      intro hmiss
      apply hearly₁.step hexec
      refine ⟨⟨rows, rfl⟩, nofun, fun lookup rows' heq => ?_⟩
      cases heq
      exact ⟨rfl, hhead.trans hmiss⟩

/-- What the service makes of a lookup is what it returns to every later one. -/
theorem returned_of_answer {response : MonthlyInsightsResponse}
    {cached : Option MonthlyInsightsCacheRecord}
    (hcached : getCachedResponse m.year m.month m.input cached =
      m.answer w.1.table)
    (hresponse : getCachedResponse m.year m.month m.input cached =
      .ok (some response)) : m.Returned t response w := by
  obtain ⟨_, document, time, _, _, rfl⟩ := getCachedResponse_response hresponse
  exact ⟨hcached.symm.trans hresponse, nofun⟩

theorem Returned.rely {response : MonthlyInsightsResponse}
    (h : m.Returned t response w) (hinv : m.Inv w)
    (hrely : m.protocol.rely t w w') (hinv' : m.Inv w') :
    m.Returned t response w' :=
  h.grows hinv.sound hinv'.sound hrely.2.grows

/-- The lookup outside the lock. -/
theorem wp_findMonthlyInsights
    {Q : Except Thrown (Option MonthlyInsightsCacheRecord) →
      InsightsWorld × ApiChronicle → Prop} (hearly : m.Early t w)
    (herror : ∀ {w' error}, Q (.error error) w')
    (hok : ∀ {w' cached}, m.Inv w' →
      (getCachedResponse m.year m.month m.input cached = .ok none →
        m.Early t w') →
      (∀ response, getCachedResponse m.year m.month m.input cached =
        .ok (some response) → m.Returned t response w') → Q (.ok cached) w') :
    m.protocol.wp t (StatementRepository.findMonthlyInsights m.lookup) Q w := by
  apply wp_quiet (by trivial) hearly.cleared
  intro w₁ answer w₂ hrely hinv₁ hexec _ _
  cases answer with
  | error error => exact fun _ _ _ _ => herror
  | ok value =>
      have hearly₂ : m.Early t w₂ :=
        (hearly.rely hrely).step hexec (.of_ok nofun nofun)
      rw [Proc.settled_andThen, Proc.onValue_ok, Proc.ensure]
      apply Protocol.wp.andThen
      apply wp_lookup hearly₂
      · intro w₃ error _ hcleared₃ w₄ hrely' _ _
        apply wp_quiet (by trivial) (hcleared₃.rely hrely')
        intro w₅ answer w₆ _ _ _ _ _
        cases answer with
        | error error' => exact fun _ _ _ _ => herror
        | ok _ => exact fun _ _ _ _ => herror
      · intro w₃ rows _ hinv₃ hcleared₃ hcached hmiss w₄ hrely' _ hinv₄
        apply wp_quiet (by trivial) (hcleared₃.rely hrely')
        intro w₅ released w₆ hrely'' hinv₅ hexec' hinv₆ _
        cases released with
        | error error' => exact fun _ _ _ _ => herror
        | ok _ =>
            intro w₇ hrely₇ _ hinv₇
            apply hok hinv₇
            · intro hnone
              have hearly₄ := (hmiss (hcached.symm.trans hnone)).rely hrely'
              have hearly₆ : m.Early t w₆ :=
                (hearly₄.rely hrely'').step hexec' (.of_ok nofun nofun)
              exact hearly₆.rely hrely₇
            · intro response hresponse
              have hreturned : m.Returned t response w₃ :=
                returned_of_answer hcached hresponse
              have hreturned₅ := (hreturned.rely hinv₃ hrely' hinv₄).rely hinv₄
                hrely'' hinv₅
              have hreturned₆ : m.Returned t response w₆ :=
                hreturned₅.grows hinv₅.sound hinv₆.sound hexec'.1.grows
              exact hreturned₆.rely hinv₆ hrely₇ hinv₇

/-- How the part under the lock settles. -/
def Unlocks (m : InsightsMonth) (t : Tid)
    (result : Except Thrown MonthlyInsightsResponse)
    (w : InsightsWorld × ApiChronicle) : Prop :=
  m.Sound w.1 ∧ m.Cleared t w ∧ m.Settles t result w

theorem Unlocks.of_error {error : Thrown} (hinv : m.Inv w)
    (hcleared : m.Cleared t w) : m.Unlocks t (.error error) w :=
  ⟨hinv.sound, hcleared, nofun⟩

/-- What has been settled under the lock is not lost by the calls that end the
transaction and release or destroy the client. -/
theorem wp_unlock {next : ApiProgram MonthlyInsightsResponse}
    {result : Except Thrown MonthlyInsightsResponse}
    (hquiet : next.Calls ApiQuery.Quiet)
    (hnext : ∀ {trace settled}, next.Run trace settled →
      ∀ response, settled = .ok response → result = .ok response)
    (h : m.Unlocks t result w) : m.protocol.wp t next (m.Unlocks t) w := by
  apply Protocol.wp.of_run (C := ApiQuery.Quiet) (K := m.Unlocks t result) _ _
    hquiet h
  · rintro w' made settled hrun _ _ _ ⟨hsound, hcleared, hsettles⟩
    exact ⟨hsound, hcleared, fun response hresponse =>
      hsettles response (hnext hrun response hresponse)⟩
  · rintro w w' hrely hinv' ⟨hsound, hcleared, hsettles⟩
    refine ⟨⟨hinv'.sound, hcleared.rely hrely, fun response hresponse => ?_⟩,
      hrely.1⟩
    exact (hsettles response hresponse).grows hsound hinv'.sound hrely.2.grows
  · rintro w w' op answer hop hinv ⟨hsound, hcleared, hsettles⟩ hexec
    obtain ⟨hinv', hcleared'⟩ := quiet_step hop hinv hcleared hexec
    refine ⟨hinv', hinv'.sound, hcleared', fun response hresponse => ?_⟩
    exact (hsettles response hresponse).grows hsound hinv'.sound hexec.1.grows

/-- The request holds the lock and has written the row of its response. -/
def Drafted (m : InsightsMonth) (t : Tid) (response : MonthlyInsightsResponse)
    (w : InsightsWorld × ApiChronicle) : Prop :=
  ∃ held day record, w.1.Holds t held ∧ held.fate = .live ∧
    held.draft = some (day, record) ∧
    getCachedResponse m.year m.month m.input (some record) =
      .ok (some { response with cached := true }) ∧ response.cached = false

theorem Drafted.rely {response : MonthlyInsightsResponse}
    (h : m.Drafted t response w) (hrely : m.protocol.rely t w w') :
    m.Drafted t response w' := by
  obtain ⟨held, day, record, holds, hfate, hrest⟩ := h
  have hlock := (hrely.2.live ⟨held, holds, hfate⟩).1
  exact ⟨held, day, record, ⟨hlock.trans holds.1, holds.2⟩, hfate, hrest⟩

/-- A rejected query of a generation leaves nothing to account for. -/
theorem failed_step {op : ApiQuery} {error : Thrown} (hinv : m.Inv w)
    (hfails : FailsGeneration m.input ⟨op, .error error⟩)
    (hop : ∀ input, op ≠ .analyze input)
    (hsound : m.Sound w'.1)
    (hauthor : ∀ held, w'.1.lock = some held → held.draft ≠ none →
      Generates w.2 held.owner)
    (hexec : m.requests.chronicled.exec t op w (.error error) w') :
    m.Inv w' ∧ m.Cleared t w' := by
  obtain ⟨w, chronicle⟩ := w
  obtain ⟨w', chronicle'⟩ := w'
  obtain ⟨hserves, rfl⟩ := hexec
  have hmem : .called t ⟨op, .error error⟩ ∈
      chronicle ++ [.called t ⟨op, .error error⟩] := by
    simp
  refine ⟨hinv.called hserves hop hsound hauthor fun _ =>
    .inl (.inr ⟨_, hmem, hfails⟩), .inr (.inl ⟨_, ?_, hfails⟩)⟩
  exact Chronicle.mem_calls_iff.mpr hmem

/-- The COMMIT of a new document. -/
theorem wp_commit {response : MonthlyInsightsResponse}
    (h : m.Drafted t response w) :
    m.protocol.wp t (clientQuery .commit >>= fun _ => pure response)
      (m.Unlocks t) w := by
  apply Protocol.wp.await
  intro w₁ hrely _ hinv₁ answer w₂ hexec _
  obtain ⟨held, day, record, holds, hfate, hdraft, hresponse, hnew⟩ :=
    h.rely hrely
  have hshifts := hexec.1.shifts nofun
  have hsound := hinv₁.sound.shifts hshifts
  have hauthor := hinv₁.author_shifts hshifts
  rcases hexec.1.commit_cases with ⟨held', holds', rfl, hcommit⟩ | hfree |
    ⟨error, rfl⟩
  · obtain rfl := Option.some.inj (holds.1.symm.trans holds'.1)
    rw [InsightsWorld.commit, hdraft] at hcommit
    have hsaved : w₂.1.saves ≠ [] := by
      rw [hcommit]
      exact List.cons_ne_nil _ _
    have hreturned : m.Returned t response w₂ := by
      obtain ⟨_, _, hreturnable⟩ :=
        hinv₁.sound.draft held day record holds.1 hdraft
      refine ⟨?_, fun _ => ?_⟩
      · rw [hcommit, answer_update hreturnable, hresponse]
      · rw [hcommit, holds.2]
        exact List.mem_cons_self
    have hinv₂ : m.Inv w₂ := by
      have hcalled := hinv₁.called hexec.1 nofun hsound hauthor fun _ =>
        .inr (.inr hsaved)
      rw [← hexec.2] at hcalled
      exact hcalled
    refine ⟨hinv₂, fun w₃ hrely' _ hinv₃ => ⟨hinv₃.sound, ?_, ?_⟩⟩
    · exact .inr (.inr (hrely'.2.grows.saved hsaved))
    · rintro response' ⟨⟩
      exact hreturned.rely hinv₂ hrely' hinv₃
  · exact absurd holds (hfree held)
  · obtain ⟨hinv₂, hcleared⟩ :=
      failed_step hinv₁ .commit nofun hsound hauthor hexec
    refine ⟨hinv₂, fun w₃ hrely' _ hinv₃ => ?_⟩
    exact .of_error hinv₃ (hcleared.rely hrely')

/-- The request has called the analyzer and still holds the lock. -/
structure Opened (m : InsightsMonth) (t : Tid)
    (w : InsightsWorld × ApiChronicle) : Prop where
  live : w.1.Live t
  miss : m.answer w.1.table = .ok none
  generates : ∃ answered ∈ w.2.calls t, ∃ input, answered.op = .analyze input

theorem answer_rely (hlive : w.1.Live t) (hrely : m.protocol.rely t w w') :
    m.answer w'.1.table = m.answer w.1.table := by
  have hrow := hrely.2.grows.row (hrely.2.live hlive).2
  rw [answer, answer, row, row, hrow]

theorem Opened.rely (h : m.Opened t w) (hrely : m.protocol.rely t w w') :
    m.Opened t w' := by
  refine ⟨hrely.2.kept h.live, (answer_rely h.live hrely).trans h.miss, ?_⟩
  rw [hrely.1]
  exact h.generates

theorem Opened.generates' (h : m.Opened t w) : Generates w.2 t := by
  obtain ⟨⟨op, answer⟩, hmem, input, hop⟩ := h.generates
  obtain rfl : op = .analyze input := hop
  exact ⟨input, answer, Chronicle.mem_calls_iff.mp hmem⟩

/-- The row of a document that was validated is one to return. -/
theorem returnable_of_writes {raw : JsValue} {validated : InsightsDocument}
    {generatedAt : JsDate} {day : CalendarDay}
    {record : MonthlyInsightsCacheRecord}
    (hparse : parseAndValidateInsights raw m.input = .ok validated)
    (hwrites : SaveMonthlyInsightsInput.Writes m.pg m.jsonb
      { m.lookup with insights := validated, generatedAt } day record) :
    m.Returnable day record ∧ ∃ time, generatedAt = some time ∧
      getCachedResponse m.year m.month m.input (some record) =
        .ok (some ⟨m.year, m.month, validated.insights, time, true⟩) := by
  cases hwrites with
  | @mk stored time cast store htime =>
      have hstored := parseAndValidateInsights_again hparse
        (m.jsonb.equal _ _ store)
      have hresponse : getCachedResponse m.year m.month m.input (some {
          m.lookup with insights := stored, generatedAt := some time }) =
          .ok (some ⟨m.year, m.month, validated.insights, time, true⟩) :=
        getCachedResponse_eq_ok hstored rfl
      refine ⟨⟨cast, ?_, _, hresponse⟩, time, htime, hresponse⟩
      simp [MonthlyInsightsCacheRecord.matches]

/-- What the save of a validated document keeps, whatever becomes of it. -/
theorem saved_step {input : SaveMonthlyInsightsInput} {answer : Except Thrown Unit}
    (hinv : m.Inv w) (h : m.Opened t w)
    (hreturnable : ∀ {day record}, input.Writes m.pg m.jsonb day record →
      m.Returnable day record)
    (hexec : m.requests.chronicled.exec t
      (.client (.upsertMonthlyInsights input)) w answer w') :
    m.Sound w'.1 ∧ ∀ held, w'.1.lock = some held → held.draft ≠ none →
      Generates w.2 held.owner := by
  obtain ⟨w', chronicle⟩ := w'
  rcases hexec.1.shifts_or_writes with hshifts | ⟨holds, hwrites⟩
  · exact ⟨hinv.sound.shifts hshifts, hinv.author_shifts hshifts⟩
  · refine ⟨hinv.sound.writes h.miss (hreturnable hwrites), ?_⟩
    intro held hheld _
    obtain rfl := Option.some.inj hheld
    rw [show _ = t from holds.2]
    exact h.generates'

/-- How the callback of the lock settles: with an error, with a response from
the cache, or with one that is still to be committed. -/
def CallsBack (m : InsightsMonth) (t : Tid) :
    Except Thrown MonthlyInsightsResponse → InsightsWorld × ApiChronicle → Prop
  | .error _, w => m.Cleared t w
  | .ok response, w => m.Drafted t response w ∨
      (m.Sound w.1 ∧ m.Cleared t w ∧ m.Returned t response w)

theorem wp_save {raw : JsValue} {validated : InsightsDocument}
    {generatedAt : JsDate}
    (hparse : parseAndValidateInsights raw m.input = .ok validated)
    (h : m.Opened t w) :
    m.protocol.wp t
      (StatementRepository.lockedCache.saveMonthlyInsights
          { m.lookup with insights := validated, generatedAt } >>= fun _ =>
        Proc.settled (toResponse m.year m.month validated generatedAt false))
      (m.CallsBack t) w := by
  apply Protocol.wp.await
  intro w₁ hrely _ hinv₁ answer w₂ hexec _
  have hopened := h.rely hrely
  obtain ⟨hsound, hauthor⟩ := saved_step hinv₁ hopened
    (fun hwrites => (returnable_of_writes hparse hwrites).1) hexec
  rcases hexec.1.upsert_cases with
    ⟨held, day, record, holds, hwrites, rfl, hwritten⟩ | ⟨error, rfl⟩
  · obtain ⟨held', holds', hfate⟩ := hopened.live
    obtain rfl := Option.some.inj (holds.1.symm.trans holds'.1)
    obtain ⟨_, time, rfl, hresponse⟩ := returnable_of_writes hparse hwrites
    have hdrafted : m.Drafted t ⟨m.year, m.month, validated.insights, time, false⟩
        w₂ := by
      refine ⟨{ held with draft := some (day, record) }, day, record, ?_, hfate,
        rfl, hresponse, rfl⟩
      rw [hwritten]
      exact ⟨rfl, holds.2⟩
    have hinv₂ : m.Inv w₂ := by
      have hcalled := hinv₁.called hexec.1 nofun hsound hauthor fun _ => by
        obtain ⟨held, _, _, holds, hfate, _⟩ := hdrafted
        exact .inr (.inl ⟨held, holds, hfate⟩)
      rw [← hexec.2] at hcalled
      exact hcalled
    exact ⟨hinv₂, fun w₃ hrely' _ _ => .inl (hdrafted.rely hrely')⟩
  · obtain ⟨hinv₂, hcleared⟩ :=
      failed_step hinv₁ .save nofun hsound hauthor hexec
    exact ⟨hinv₂, fun w₃ hrely' _ _ => hcleared.rely hrely'⟩

/-- The generation, after two misses and under the lock. -/
theorem wp_generate (hearly : m.Early t w) (hlive : w.1.Live t)
    (hmiss : m.answer w.1.table = .ok none) :
    m.protocol.wp t (do
        let generated ← Proc.call (ApiQuery.analyze m.input)
        let validated ← Proc.settled (parseAndValidateInsights
          (.object [(js "insights", generated)]) m.input)
        let generatedAt ← Proc.call ApiQuery.now
        StatementRepository.lockedCache.saveMonthlyInsights {
          m.lookup with insights := validated, generatedAt := generatedAt }
        Proc.settled (toResponse m.year m.month validated generatedAt false))
      (m.CallsBack t) w := by
  apply Protocol.wp.await
  rintro w₁ hrely _ hinv₁ answer ⟨w₂, chronicle⟩ hexec _
  have hsame : w₂ = w₁.1 := by
    cases hexec.1
    rfl
  subst hsame
  have hmiss₁ := (answer_rely hlive hrely).trans hmiss
  have hinv₂ : m.Inv (w₁.1, chronicle) := by
    rw [show chronicle = _ from hexec.2]
    exact hinv₁.analyzed (hrely.2.kept hlive) hmiss₁ (hearly.rely hrely) _ _
  have hcall : ⟨.analyze m.input, answer⟩ ∈ Chronicle.calls chronicle t := by
    rw [show chronicle = _ from hexec.2, Chronicle.calls_called_self]
    simp
  refine ⟨hinv₂, ?_⟩
  cases answer with
  | error error =>
      have hcleared : m.Cleared t (w₁.1, chronicle) :=
        .inr (.inl ⟨_, hcall, .generation⟩)
      exact fun w₃ hrely' _ _ => hcleared.rely hrely'
  | ok generated =>
      rw [Proc.settled_andThen, Proc.onValue_ok]
      cases hparse : parseAndValidateInsights
          (.object [(js "insights", generated)]) m.input with
      | error error =>
          have hcleared : m.Cleared t (w₁.1, chronicle) :=
            .inr (.inl ⟨_, hcall, .validation hparse⟩)
          exact fun w₃ hrely' _ _ => hcleared.rely hrely'
      | ok validated =>
          have hopened : m.Opened t (w₁.1, chronicle) :=
            ⟨hrely.2.kept hlive, hmiss₁, _, hcall, m.input, rfl⟩
          apply Protocol.wp.await
          rintro w₃ hrely' _ hinv₃ generatedAt ⟨w₄, chronicle'⟩ hexec' _
          have hopened₃ := hopened.rely hrely'
          obtain ⟨date, rfl, rfl⟩ :
              ∃ date, generatedAt = .ok date ∧ w₄ = w₃.1 := by
            cases hexec'.1 with
            | now => exact ⟨_, rfl, rfl⟩
            | elsewhere hop => cases hop
          have hinv₄ : m.Inv (w₃.1, chronicle') := by
            rw [show chronicle' = _ from hexec'.2]
            exact hinv₃.called hexec'.1 nofun hinv₃.sound hinv₃.author fun _ =>
              .inr (.inl hopened₃.live)
          refine ⟨hinv₄, wp_save hparse ⟨hopened₃.live, hopened₃.miss, ?_⟩⟩
          obtain ⟨answered, hmem, hanalyzed⟩ := hopened₃.generates
          refine ⟨answered, ?_, hanalyzed⟩
          rw [show chronicle' = _ from hexec'.2, Chronicle.calls_called_self]
          exact List.mem_append_left _ hmem

/-- The callback of the lock. -/
theorem wp_generateInsights (hearly : m.Early t w) (hlive : w.1.Live t) :
    m.protocol.wp t (generateInsights m.year m.month m.input m.lookup
      StatementRepository.lockedCache) (m.CallsBack t) w := by
  apply wp_lookup hearly
  · intro w' error _ hcleared w'' hrely _ _
    exact hcleared.rely hrely
  · intro w' rows hrely hinv hcleared hcached hearly'
    simp only [Proc.settled_andThen, Proc.onValue_ok, Proc.pure_eq]
    cases hresponse : getCachedResponse m.year m.month m.input rows.head? with
    | error error => exact fun w'' hrely' _ _ => hcleared.rely hrely'
    | ok cached =>
        cases cached with
        | some response =>
            have hreturned : m.Returned t response w' :=
              returned_of_answer hcached hresponse
            intro w'' hrely' _ hinv'
            exact .inr ⟨hinv'.sound, hcleared.rely hrely',
              hreturned.rely hinv hrely' hinv'⟩
        | none =>
            have hmiss := hcached.symm.trans hresponse
            exact wp_generate (hearly' hmiss) (hrely.kept hlive) hmiss

theorem run_rollbackAndRelease {α : Type} {error : Thrown} {trace : ApiTrace}
    {result : Except Thrown α}
    (h : (StatementRepository.rollbackAndRelease error : ApiProgram α).Run trace
      result) : ∃ error', result = .error error' := by
  obtain ⟨_, rolledBack, _, _, _, hreleased⟩ := Proc.run_andThen_iff.mp h
  cases rolledBack with
  | ok _ | error _ =>
      obtain ⟨_, _, _, _, _, hthrown⟩ := Proc.run_andThen_iff.mp hreleased
      exact ⟨_, (Proc.run_settled_iff.mp hthrown).2⟩

/-- The transaction that holds the lock. -/
theorem wp_locked (lockKey : JsString) (hearly : m.Early t w) :
    m.protocol.wp t (do
        clientQuery .begin
        clientQuery (.advisoryLock lockKey)
        let result ← generateInsights m.year m.month m.input m.lookup
          StatementRepository.lockedCache
        clientQuery .commit
        return result) (m.Unlocks t) w := by
  apply wp_quiet (by trivial) hearly.cleared
  intro w₁ begun w₂ hrely hinv₁ hexec _ hcleared
  cases begun with
  | error error =>
      exact fun w₃ hrely' _ hinv₃ => .of_error hinv₃ (hcleared.rely hrely')
  | ok _ =>
  have hearly₂ : m.Early t w₂ :=
    (hearly.rely hrely).step hexec (.of_ok nofun nofun)
  apply wp_quiet (by trivial) hcleared
  intro w₃ locked w₄ hrely' hinv₃ hexec' _ hcleared'
  cases locked with
  | error error =>
      exact fun w₅ hrely'' _ hinv₅ => .of_error hinv₅ (hcleared'.rely hrely'')
  | ok _ =>
  have hearly₄ : m.Early t w₄ :=
    (hearly₂.rely hrely').step hexec' (.of_ok nofun nofun)
  rw [Proc.settled_andThen, Proc.onValue_ok]
  apply Protocol.wp.andThen
  apply (wp_generateInsights hearly₄ hexec'.1.lock_live).mono
  intro result w₅ hresult
  cases result with
  | error error =>
      exact fun w₆ hrely'' _ hinv₆ =>
        .of_error hinv₆ (Cleared.rely hresult hrely'')
  | ok response =>
      rcases hresult with hdrafted | ⟨hsound, hcleared₅, hreturned⟩
      · exact wp_commit hdrafted
      · have hunlocks : m.Unlocks t (.ok response) w₅ := by
          refine ⟨hsound, hcleared₅, ?_⟩
          rintro response' ⟨⟩
          exact hreturned
        refine wp_unlock ((quiet_query (by trivial)).bind fun _ =>
          Proc.calls_settled _ _) ?_ hunlocks
        rintro trace settled hrun response' rfl
        obtain ⟨_, _, _, _, _, hreturn⟩ := Proc.run_bind_ok hrun
        exact (Proc.run_settled_iff.mp hreturn).2.symm

theorem wp_withMonthlyInsightsGenerationLock (lockKey : JsString)
    (hearly : m.Early t w) :
    m.protocol.wp t
      (StatementRepository.withMonthlyInsightsGenerationLock lockKey
        (generateInsights m.year m.month m.input m.lookup)) (m.Settles t) w := by
  have hsettles : ∀ {p : ApiProgram MonthlyInsightsResponse} {w},
      m.protocol.wp t p (m.Unlocks t) w → m.protocol.wp t p (m.Settles t) w :=
    fun h => h.mono fun _ _ hunlocks => hunlocks.2.2
  apply wp_quiet (by trivial) hearly.cleared
  intro w₁ connected w₂ hrely hinv₁ hexec _ _
  cases connected with
  | error error => exact fun _ _ _ _ => nofun
  | ok _ =>
  have hearly₂ : m.Early t w₂ :=
    (hearly.rely hrely).step hexec (.of_ok nofun nofun)
  rw [Proc.settled_andThen, Proc.onValue_ok]
  apply Protocol.wp.andThen
  apply (wp_locked lockKey hearly₂).mono
  intro result w₃ hunlocks
  cases result with
  | error error =>
      refine hsettles (wp_unlock quiet_rollbackAndRelease ?_ hunlocks)
      rintro trace settled hrun response rfl
      obtain ⟨_, herror⟩ := run_rollbackAndRelease hrun
      cases herror
  | ok value =>
      refine hsettles (wp_unlock (quiet_release.andThen fun _ =>
        Proc.calls_settled _ _) ?_ hunlocks)
      rintro trace settled hrun response rfl
      obtain ⟨_, _, _, _, _, hsettled⟩ := Proc.run_andThen_iff.mp hrun
      exact (Proc.run_settled_iff.mp hsettled).2.symm

/-- What a request does with the aggregates that it has read. -/
theorem wp_insightsOfAggregates {aggregates : MonthlyAnalyticsAggregates}
    (hinput : insightsInput m.year m.month aggregates = m.input)
    (hearly : m.Early t w) :
    m.protocol.wp t (insightsOfAggregates m.options m.year m.month m.ranges
      aggregates) (m.Settles t) w := by
  rw [insightsOfAggregates, hinput]
  apply Protocol.wp.andThen
  apply wp_findMonthlyInsights hearly
  · intro w' error
    exact fun _ _ _ _ => nofun
  · intro w' cached hinv hearly' hreturned
    rw [Proc.onValue_ok]
    cases hcached : getCachedResponse m.year m.month m.input cached with
    | error error => exact fun _ _ _ _ => nofun
    | ok found =>
        cases found with
        | some response =>
            rintro w'' hrely _ hinv' response' ⟨⟩
            exact (hreturned response hcached).rely hinv hrely hinv'
        | none => exact wp_withMonthlyInsightsGenerationLock _ (hearly' hcached)

end Weakest

/-- The rows of an analytics query come from the snapshot of the request. -/
theorem reads_of_exec {q : ApiClientQuery} {rows : q.Answer} {w w' : InsightsWorld}
    (hq : q.isSelect = true)
    (h : m.requests.exec t (.client q) w (.ok rows) w') : m.reads t q rows := by
  cases h with
  | read _ hreads => exact hreads
  | elsewhere hop => cases q <;> cases hq <;> cases hop
  | ended hend _ => rcases hend with rfl | rfl <;> cases hq
  | _ => cases hq

theorem readsAggregate_of_run {range : AnalyticsDateRange} {made : ApiTrace}
    {aggregate : MonthlyAnalyticsAggregate}
    (hrun : (StatementRepository.findMonthlyAggregate range).Run made
      (.ok aggregate))
    (hserved : ∀ answered ∈ made, ∃ u u',
      m.requests.exec t answered.op u answered.answer u') :
    ReadsAggregate (m.reads t) range aggregate ∧
      ∀ answered ∈ made, m.Missed answered := by
  obtain ⟨overview, categories, merchants, rfl, haggregate⟩ :=
    run_findMonthlyAggregate_ok hrun
  constructor
  · obtain ⟨_, _, hoverview⟩ :=
      hserved ⟨.client (.selectOverview range), .ok overview⟩ (by simp [aggregateCalls])
    obtain ⟨_, _, hcategories⟩ := hserved
      ⟨.client (.selectCategories range), .ok categories⟩ (by simp [aggregateCalls])
    obtain ⟨_, _, hmerchants⟩ := hserved
      ⟨.client (.selectMerchants range), .ok merchants⟩ (by simp [aggregateCalls])
    exact ⟨overview, categories, merchants, reads_of_exec rfl hoverview,
      reads_of_exec rfl hcategories, reads_of_exec rfl hmerchants, haggregate⟩
  · simp only [aggregateCalls, List.forall_mem_cons]
    exact ⟨.of_ok nofun nofun, .of_ok nofun nofun, .of_ok nofun nofun,
      List.forall_mem_nil _⟩

/-- A request, from its start. -/
theorem wp_getMonthlyInsights (hcalls : w.2.calls t = []) :
    m.protocol.wp t (getMonthlyInsights m.options m.year m.month) (m.Settles t)
      w := by
  rw [getMonthlyInsights_eq, m.isRanges]
  change m.protocol.wp t (StatementRepository.findMonthlyAnalytics m.ranges >>=
    insightsOfAggregates m.options m.year m.month m.ranges) _ _
  apply Protocol.wp.andThen
  have hcleared : m.Cleared t w := by
    rw [Cleared, hcalls]
    exact .inl (by simp)
  apply Protocol.wp.of_run (C := ApiQuery.Quiet) (K := m.Cleared t) _ _
    quiet_findMonthlyAnalytics hcleared
  · intro w' made result hrun hserved hmade _ _
    cases result with
    | error error => exact fun _ _ _ _ => nofun
    | ok aggregates =>
        rw [hcalls, List.nil_append] at hmade
        obtain ⟨current, previous, before, after, hcurrent, hprevious, rfl, rfl,
          rfl⟩ := run_findMonthlyAnalytics_ok hrun
        simp only [List.forall_mem_append] at hserved
        obtain ⟨_, hserved, hserved', _⟩ := hserved
        obtain ⟨hreads, hmissed⟩ := readsAggregate_of_run hcurrent hserved
        obtain ⟨hreads', hmissed'⟩ := readsAggregate_of_run hprevious hserved'
        apply wp_insightsOfAggregates (m.sameInput t _ _ hreads hreads')
        rw [Early, hmade]
        simp only [List.forall_mem_append, List.forall_mem_cons]
        exact ⟨⟨.of_ok nofun nofun, .of_ok nofun nofun, List.forall_mem_nil _⟩,
          hmissed, hmissed', .of_ok nofun nofun, .of_ok nofun nofun,
          List.forall_mem_nil _⟩
  · intro w w' hrely _ hK
    exact ⟨hK.rely hrely, hrely.1⟩
  · intro w w' op answer hop hinv hK hexec
    exact quiet_step hop hinv hK hexec

end InsightsMonth

end StatementAnalyzer
