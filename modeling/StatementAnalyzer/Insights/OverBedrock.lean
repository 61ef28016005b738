/-
Insights end to end over Bedrock.  What is saved was answered to the prompt
about the analytics it is saved under, in the one conversation of the request,
and an answer that passes the validation once is not turned down by the second.
-/
import StatementAnalyzer.Ai.BedrockInsights
import StatementAnalyzer.Insights.CachedDocument

namespace StatementAnalyzer

open Async

section Items

variable {document : InsightsDocument}

theorem isJson_insight (insight : Insight) : insight.toJson.isJson = true := by
  cases insight with
  | categoryIncrease text category => rfl
  | merchantIncrease text merchant => rfl
  | notableSpending text category merchant =>
      cases category <;> cases merchant <;> rfl

theorem isJson_document (document : InsightsDocument) :
    document.toJson.isJson = true := by
  have hitems : ∀ insights : List Insight,
      JsValue.allJson (insights.map Insight.toJson) = true := by
    intro insights
    induction insights with
    | nil => rfl
    | cons insight others ih =>
        rw [List.map_cons, JsValue.allJson, isJson_insight, ih]
        rfl
  simp [InsightsDocument.toJson, JsValue.isJson, JsValue.allJsonProperties,
    hitems]

/-- The second validation takes what the first one has returned. -/
theorem parseAndValidateInsights_items {raw : JsValue}
    {input : CompactInsightsInput}
    (h : parseAndValidateInsights raw input = .ok document) :
    parseAndValidateInsights (.object [(js "insights", document.items)]) input =
      .ok document :=
  parseAndValidateInsights_again h
    (document.toJson.jsonEqual_refl (isJson_document document))

end Items

section GeneratesOnce

variable {year month : Int} {input : CompactInsightsInput}
variable {lookup : MonthlyInsightsCacheLookup}
variable {trace before after : ApiTrace}
variable {result result' : Except Thrown MonthlyInsightsResponse}

theorem generations_append (before after : ApiTrace) :
    generations (before ++ after) = generations before ++ generations after :=
  List.filterMap_append

theorem savedInputs_append (before after : ApiTrace) :
    savedInputs (before ++ after) = savedInputs before ++ savedInputs after :=
  List.filterMap_append

/-- The analyzer is called once at most.  An answer that passes is saved unless a
call fails, and only what is saved is returned as new. -/
structure GeneratesOnce (input : CompactInsightsInput) (trace : ApiTrace)
    (result : Except Thrown MonthlyInsightsResponse) : Prop where
  once : (generations trace).length ≤ 1
  kept : ∀ generated document, .ok generated ∈ generations trace →
    parseAndValidateInsights (.object [(js "insights", generated)]) input =
      .ok document → Proc.Granted trace →
    ∃ saved ∈ savedInputs trace, saved.insights = document
  fresh : ∀ response, result = .ok response → response.cached = false →
    ∃ saved ∈ savedInputs trace, saved.insights.insights = response.insights

/-- What has not got to the analyzer. -/
theorem GeneratesOnce.quiet (h : Quiet trace)
    (hfresh : ∀ response, result = .ok response → response.cached = true) :
    GeneratesOnce input trace result := by
  refine ⟨?_, ?_, ?_⟩
  · rw [h.generated]
    exact Nat.zero_le 1
  · intro generated document hgenerated
    rw [h.generated] at hgenerated
    cases hgenerated
  · intro response hresponse hcached
    rw [hfresh response hresponse] at hcached
    cases hcached

/-- A hit asks for nothing more, and says that it is one. -/
theorem GeneratesOnce.cached {cached : Option MonthlyInsightsCacheRecord}
    {response : MonthlyInsightsResponse}
    (h : getCachedResponse year month input cached = .ok (some response)) :
    GeneratesOnce input [] (.ok response) := by
  apply GeneratesOnce.quiet .nil
  intro response' heq
  cases heq
  obtain ⟨_, _, _, _, _, rfl⟩ := getCachedResponse_response h
  rfl

/-- What a call has made fail. -/
theorem GeneratesOnce.rejected {error error' : Thrown}
    (honce : (generations trace).length ≤ 1) {q : ApiQuery}
    (hmem : ⟨q, .error error'⟩ ∈ trace) :
    GeneratesOnce input trace (.error error) := by
  refine ⟨honce, ?_, by rintro _ ⟨⟩⟩
  intro generated document _ _ hgranted
  obtain ⟨value, hvalue⟩ := hgranted _ hmem
  cases hvalue

theorem GeneratesOnce.prepend (hbefore : Quiet before)
    (h : GeneratesOnce input after result) :
    GeneratesOnce input (before ++ after) result := by
  have hgenerated : generations (before ++ after) = generations after := by
    rw [generations_append, hbefore.generated, List.nil_append]
  have hsaved : savedInputs (before ++ after) = savedInputs after := by
    rw [savedInputs_append, hbefore.saved, List.nil_append]
  refine ⟨?_, ?_, ?_⟩
  · rw [hgenerated]
    exact h.once
  · rw [hgenerated, hsaved]
    intro generated document hmem hparsed hgranted
    exact h.kept generated document hmem hparsed
      (Proc.granted_append.mp hgranted).2
  · rw [hsaved]
    exact h.fresh

theorem GeneratesOnce.append (h : GeneratesOnce input before result)
    (hafter : Quiet after)
    (hresult : ∀ response, result' = .ok response → result = .ok response) :
    GeneratesOnce input (before ++ after) result' := by
  have hgenerated : generations (before ++ after) = generations before := by
    rw [generations_append, hafter.generated, List.append_nil]
  have hsaved : savedInputs (before ++ after) = savedInputs before := by
    rw [savedInputs_append, hafter.saved, List.append_nil]
  refine ⟨?_, ?_, ?_⟩
  · rw [hgenerated]
    exact h.once
  · rw [hgenerated, hsaved]
    intro generated document hmem hparsed hgranted
    exact h.kept generated document hmem hparsed
      (Proc.granted_append.mp hgranted).1
  · rw [hsaved]
    intro response hresponse
    exact h.fresh response (hresult response hresponse)

/-- From the validation to the answer. -/
theorem generates_save {generated : JsValue} {document : InsightsDocument}
    (hparse : parseAndValidateInsights (.object [(js "insights", generated)])
      input = .ok document)
    (h : Proc.Run (do
      let generatedAt ← Proc.call ApiQuery.now
      StatementRepository.lockedCache.saveMonthlyInsights {
        lookup with insights := document, generatedAt := generatedAt }
      Proc.settled (toResponse year month document generatedAt false))
      trace result) :
    GeneratesOnce input (⟨.analyze input, .ok generated⟩ :: trace) result := by
  rcases Proc.run_bind h with ⟨error, rfl, hnow⟩ |
    ⟨generatedAt, timed, rest, rfl, hnow, hunsaved⟩
  · obtain rfl := Proc.run_call_iff.mp hnow
    exact .rejected (Nat.le_refl 1)
      (List.mem_cons_of_mem _ (List.mem_singleton_self _))
  obtain rfl := Proc.run_call_iff.mp hnow
  rcases Proc.run_bind hunsaved with ⟨error, rfl, hsave⟩ |
    ⟨_, saved, rest, rfl, hsave, hsaved⟩
  · obtain rfl := Proc.run_call_iff.mp hsave
    exact .rejected (Nat.le_refl 1) (List.mem_cons_of_mem _
      (List.mem_cons_of_mem _ (List.mem_singleton_self _)))
  obtain rfl := Proc.run_call_iff.mp hsave
  obtain ⟨rfl, rfl⟩ := Proc.run_settled_iff.mp hsaved
  refine ⟨Nat.le_refl 1, ?_, ?_⟩
  · intro generated' document' hmem hparsed _
    cases List.mem_singleton.mp hmem
    rw [hparse] at hparsed
    cases hparsed
    exact ⟨_, List.mem_singleton_self _, rfl⟩
  · intro response hresponse _
    obtain ⟨_, _, rfl⟩ := toResponse_eq_ok hresponse
    exact ⟨_, List.mem_singleton_self _, rfl⟩

/-- The callback of the lock. -/
theorem generates_generateInsights
    (h : (generateInsights year month input lookup
      StatementRepository.lockedCache).Run trace result) :
    GeneratesOnce input trace result := by
  rcases Proc.run_bind h with ⟨error, rfl, hfind⟩ |
    ⟨cached, first, rest, rfl, hfind, hcached⟩
  · exact .quiet
      (hfind.calls ((quiet_query (by trivial)).bind fun _ => trivial))
      (by rintro _ ⟨⟩)
  refine .prepend
    (hfind.calls ((quiet_query (by trivial)).bind fun _ => trivial)) ?_
  rcases run_settled_bind hcached with ⟨error, rfl, rfl⟩ |
    ⟨found, hfound, hmiss⟩
  · exact .quiet .nil (by rintro _ ⟨⟩)
  cases found with
  | some response =>
      obtain ⟨rfl, rfl⟩ := Proc.run_settled_iff.mp hmiss
      exact .cached hfound
  | none =>
      rcases Proc.run_bind hmiss with ⟨error, rfl, hanalyze⟩ |
        ⟨generated, analyzed, rest, rfl, hanalyze, hgenerated⟩
      · obtain rfl := Proc.run_call_iff.mp hanalyze
        exact .rejected (Nat.le_refl 1) (List.mem_singleton_self _)
      obtain rfl := Proc.run_call_iff.mp hanalyze
      cases hparse : parseAndValidateInsights
          (.object [(js "insights", generated)]) input with
      | error error =>
          rw [hparse] at hgenerated
          obtain ⟨rfl, rfl⟩ := Proc.run_settled_iff.mp hgenerated
          refine ⟨Nat.le_refl 1, ?_, by rintro _ ⟨⟩⟩
          intro generated' document hmem hparsed
          cases List.mem_singleton.mp hmem
          rw [hparse] at hparsed
          cases hparsed
      | ok document =>
          rw [hparse] at hgenerated
          exact generates_save hparse hgenerated

theorem generates_insightsOfAggregates {options : MonthlyInsightsServiceOptions}
    {ranges : MonthlyAnalyticsRanges} {aggregates : MonthlyAnalyticsAggregates}
    (h : (insightsOfAggregates options year month ranges aggregates).Run trace
      result) :
    GeneratesOnce (insightsInput year month aggregates) trace result := by
  rcases Proc.run_bind h with ⟨error, rfl, hlookup⟩ |
    ⟨cached, first, rest, rfl, hlookup, hcached⟩
  · exact .quiet (hlookup.calls quiet_findMonthlyInsights) (by rintro _ ⟨⟩)
  apply GeneratesOnce.prepend (hlookup.calls quiet_findMonthlyInsights)
  rcases run_settled_bind hcached with ⟨error, rfl, rfl⟩ |
    ⟨found, hfound, hmiss⟩
  · exact .quiet .nil (by rintro _ ⟨⟩)
  cases found with
  | some response =>
      obtain ⟨rfl, rfl⟩ := Proc.run_settled_iff.mp hmiss
      exact .cached hfound
  | none =>
      rcases run_withMonthlyInsightsGenerationLock hmiss with
        ⟨error, rfl, hquiet⟩ |
        ⟨_, _, _, called, rfl, hfirst, hlast, hcalled, hreturned⟩
      · exact .quiet hquiet (by rintro _ ⟨⟩)
      · exact .prepend hfirst
          ((generates_generateInsights hcalled).append hlast hreturned)

/-- The analyzer is asked about the input of the request. -/
def ApiQuery.AsksAbout (input : CompactInsightsInput) : ApiQuery → Prop
  | analyze input' => input' = input
  | _ => True

theorem ApiQuery.Quiet.asksAbout {op : ApiQuery} (h : op.Quiet)
    (input : CompactInsightsInput) : op.AsksAbout input := by
  cases op with
  | analyze input' => exact h.elim
  | _ => trivial

theorem asksAbout_insightsOfAggregates {options : MonthlyInsightsServiceOptions}
    {ranges : MonthlyAnalyticsRanges}
    {aggregates : MonthlyAnalyticsAggregates} :
    (insightsOfAggregates options year month ranges aggregates).Calls
      (ApiQuery.AsksAbout (insightsInput year month aggregates)) := by
  have hquiet : ∀ op : ApiQuery, op.Quiet → op.AsksAbout _ :=
    fun _ h => h.asksAbout (insightsInput year month aggregates)
  apply (quiet_findMonthlyInsights.mono hquiet).bind
  intro cached
  apply Proc.Calls.bind (by trivial)
  intro found
  cases found with
  | some response => trivial
  | none =>
      apply calls_withMonthlyInsightsGenerationLock hquiet
      exact calls_generateInsights trivial rfl trivial fun _ _ => trivial

end GeneratesOnce

section Conversations

variable {input : CompactInsightsInput}
variable {trace : ApiTrace} {inner : BedrockTrace}

/-- A prompt that is sent to Bedrock, and its answer. -/
def conversation? : Answered BedrockQuery BedrockQuery.Answer Thrown →
    Option (String × Except Thrown ConverseOutput)
  | ⟨.converse prompt, answer⟩ => some (prompt, answer)
  | _ => none

def conversations (inner : BedrockTrace) :
    List (String × Except Thrown ConverseOutput) :=
  inner.filterMap conversation?

/-- The document that a call saves. -/
def upsert? : Answered BedrockQuery BedrockQuery.Answer Thrown →
    Option SaveMonthlyInsightsInput
  | ⟨.query (.client (.upsertMonthlyInsights saved)), _⟩ => some saved
  | _ => none

def upserts (inner : BedrockTrace) : List SaveMonthlyInsightsInput :=
  inner.filterMap upsert?

/-- What the analyzer makes of a conversation. -/
def generationOf (input : CompactInsightsInput)
    (conversation : String × Except Thrown ConverseOutput) :
    Except Thrown JsValue :=
  (conversation.2.bind (readInsights input)).map InsightsDocument.items

theorem upserts_eq (h : List.Forall₂ Conveyed trace inner) :
    upserts inner = savedInputs trace := by
  induction h with
  | nil => rfl
  | @cons answered one rest others hfirst _ ih =>
      have hone : upsert? one = savedInput? answered := by
        cases hfirst with
        | analyze _ _ => rfl
        | @query q _ _ =>
            cases q with
            | client c => cases c <;> rfl
            | _ => rfl
      rw [upserts, savedInputs, List.filterMap_cons, List.filterMap_cons, hone]
      cases savedInput? answered with
      | none => exact ih
      | some saved => exact congrArg (saved :: ·) ih

theorem generations_eq (h : List.Forall₂ Conveyed trace inner)
    (hasks : ∀ answered ∈ trace, answered.op.AsksAbout input) :
    generations trace = (conversations inner).map (generationOf input) ∧
      ∀ conversation ∈ conversations inner,
        conversation.1 = buildInsightsPrompt input := by
  induction h with
  | nil => exact ⟨rfl, by rintro _ ⟨⟩⟩
  | @cons answered one rest others hfirst _ ih =>
      rw [List.forall_mem_cons] at hasks
      obtain ⟨hgenerations, hprompts⟩ := ih hasks.2
      cases hfirst with
      | analyze input' answer =>
          obtain rfl : input' = input := hasks.1
          constructor
          · exact congrArg (generationOf input' (_, answer) :: ·) hgenerations
          · exact List.forall_mem_cons.mpr ⟨rfl, hprompts⟩
      | @query q hq answer =>
          have hnone : generation? ⟨q, answer⟩ = none := by
            cases q with
            | analyze input' => exact absurd rfl (hq input')
            | _ => rfl
          rw [generations, List.filterMap_cons, hnone]
          exact ⟨hgenerations, hprompts⟩

/-- A call that is no analysis, as it is made over Bedrock. -/
def queried (answered : Answered ApiQuery ApiQuery.Answer Thrown) :
    Answered BedrockQuery BedrockQuery.Answer Thrown :=
  ⟨.query answered.op, answered.answer⟩

theorem Conveyed.quiet {answered : Answered ApiQuery ApiQuery.Answer Thrown}
    {one : Answered BedrockQuery BedrockQuery.Answer Thrown}
    (h : Conveyed answered one) (hquiet : answered.op.Quiet) :
    one = queried answered := by
  cases h with
  | analyze _ _ => exact hquiet.elim
  | query _ _ => rfl

/-- The run over Bedrock begins with the same quiet calls. -/
theorem conveyed_prefix {before after : ApiTrace}
    (h : List.Forall₂ Conveyed (before ++ after) inner)
    (hquiet : Quiet before) : before.map queried <+: inner := by
  induction before generalizing inner with
  | nil => exact List.nil_prefix
  | cons answered rest ih =>
      obtain ⟨hone, hrest⟩ := List.forall_mem_cons.mp hquiet
      cases h with
      | cons hfirst hothers =>
          rw [List.map_cons, hfirst.quiet hone]
          exact List.cons_prefix_cons.mpr ⟨rfl, ih hothers hrest⟩

theorem conversations_quiet (h : List.Forall₂ Conveyed trace inner)
    (hquiet : Quiet trace) : conversations inner = [] := by
  induction h with
  | nil => rfl
  | cons hfirst _ ih =>
      obtain ⟨hone, hrest⟩ := List.forall_mem_cons.mp hquiet
      rw [hfirst.quiet hone]
      exact ih hrest

/-- Where Bedrock's answers are read, the analyzer answers. -/
theorem granted_conveyed (h : List.Forall₂ Conveyed trace inner)
    (hasks : ∀ answered ∈ trace, answered.op.AsksAbout input)
    (hgranted : Proc.Granted inner)
    (hread : ∀ conversation ∈ conversations inner,
      ∃ value, generationOf input conversation = .ok value) :
    Proc.Granted trace := by
  induction h with
  | nil => exact List.forall_mem_nil _
  | @cons answered one rest others hfirst _ ih =>
      obtain ⟨hask, hlater⟩ := List.forall_mem_cons.mp hasks
      obtain ⟨hone, hothers⟩ := List.forall_mem_cons.mp hgranted
      cases hfirst with
      | analyze input' answer =>
          obtain rfl : input' = input := hask
          obtain ⟨hanswered, hread⟩ := List.forall_mem_cons.mp hread
          exact List.forall_mem_cons.mpr ⟨hanswered, ih hlater hothers hread⟩
      | query hq answer =>
          exact List.forall_mem_cons.mpr ⟨hone, ih hlater hothers hread⟩

end Conversations

section Request

variable {year month : Int} {options : MonthlyInsightsServiceOptions}
variable {input : CompactInsightsInput} {lookup : MonthlyInsightsCacheLookup}
variable {trace : ApiTrace} {inner : BedrockTrace}
variable {result : Except Thrown MonthlyInsightsResponse}

/-- What a request has to do with Bedrock.  It makes one call of `send` at most,
with the prompt about its analytics; the retries of the client are inside of that
call.  What it saves under them is what the validation made of the one tool call
in the answer, and such a tool call is saved unless a call fails.  Only what it
saves is returned as new. -/
structure Conversed (input : CompactInsightsInput)
    (lookup : MonthlyInsightsCacheLookup) (inner : BedrockTrace)
    (result : Except Thrown MonthlyInsightsResponse) : Prop where
  asked : conversations inner = [] ∨
    ∃ answer, conversations inner = [(buildInsightsPrompt input, answer)]
  saved : ∀ saved ∈ upserts inner,
    saved.toMonthlyInsightsCacheLookup = lookup ∧ ∃ response toolInput,
      conversations inner = [(buildInsightsPrompt input, .ok response)] ∧
      response.CallsTool INSIGHTS_TOOL_NAME toolInput ∧
      parseAndValidateInsights toolInput input = .ok saved.insights
  kept : ∀ response toolInput document,
    conversations inner = [(buildInsightsPrompt input, .ok response)] →
    response.CallsTool INSIGHTS_TOOL_NAME toolInput →
    parseAndValidateInsights toolInput input = .ok document →
    Proc.Granted inner → ∃ saved ∈ upserts inner, saved.insights = document
  fresh : ∀ response, result = .ok response → response.cached = false →
    ∃ saved ∈ upserts inner, saved.insights.insights = response.insights

theorem generationOf_eq_ok {prompt : String}
    {answer : Except Thrown ConverseOutput} {value : JsValue}
    (h : generationOf input (prompt, answer) = .ok value) :
    ∃ response document, answer = .ok response ∧
      readInsights input response = .ok document ∧ value = document.items := by
  cases answer with
  | error error => cases h
  | ok response =>
      cases hread : readInsights input response with
      | error error =>
          simp only [generationOf, Except.bind, hread, Except.map] at h
          cases h
      | ok document =>
          simp only [generationOf, Except.bind, hread, Except.map] at h
          cases h
          exact ⟨response, document, rfl, hread, rfl⟩

theorem conversed (h : List.Forall₂ Conveyed trace inner)
    (hasks : ∀ answered ∈ trace, answered.op.AsksAbout input)
    (hlookup : ∀ saved ∈ savedInputs trace,
      saved.toMonthlyInsightsCacheLookup = lookup)
    (hvalidated : Validated year month input trace result)
    (hgenerates : GeneratesOnce input trace result) :
    Conversed input lookup inner result := by
  obtain ⟨hgenerations, hprompts⟩ := generations_eq h hasks
  rw [← upserts_eq h] at hlookup
  refine ⟨?_, ?_, ?_, ?_⟩
  · have honce := hgenerates.once
    rw [hgenerations, List.length_map] at honce
    cases hconversations : conversations inner with
    | nil => exact .inl rfl
    | cons first others =>
        rw [hconversations] at honce hprompts
        have hothers : others = [] := by
          rw [List.length_cons] at honce
          exact List.length_eq_zero_iff.mp (by omega)
        rw [hothers, ← hprompts first List.mem_cons_self]
        exact .inr ⟨first.2, rfl⟩
  · intro saved hsaved
    refine ⟨hlookup saved hsaved, ?_⟩
    rw [upserts_eq h] at hsaved
    obtain ⟨value, hone, hparsed, _⟩ := hvalidated.saved saved hsaved
    rw [hgenerations] at hone
    obtain ⟨⟨prompt, answer⟩, hconversations, hvalue⟩ :=
      List.map_eq_singleton_iff.mp hone
    obtain ⟨response, document, rfl, hread, rfl⟩ := generationOf_eq_ok hvalue
    obtain ⟨toolInput, hcalls, hdocument⟩ := readInsights_eq_ok_iff.mp hread
    rw [parseAndValidateInsights_items hdocument] at hparsed
    have hprompt : prompt = buildInsightsPrompt input :=
      hprompts _ (hconversations ▸ List.mem_singleton_self _)
    rw [hconversations, hprompt]
    exact ⟨response, toolInput, rfl, hcalls, hdocument.trans hparsed⟩
  · intro response toolInput document hconversations hcalls hparsed hgranted
    have hread := readInsights_eq_ok_iff.mpr ⟨toolInput, hcalls, hparsed⟩
    have hvalue : generationOf input (buildInsightsPrompt input, .ok response) =
        .ok document.items := by
      simp only [generationOf, Except.bind, hread, Except.map]
    rw [upserts_eq h]
    apply hgenerates.kept document.items document
    · rw [hgenerations, hconversations, List.map_singleton, hvalue]
      exact List.mem_singleton_self _
    · exact parseAndValidateInsights_items hparsed
    · apply granted_conveyed h hasks hgranted
      rw [hconversations, List.forall_mem_singleton]
      exact ⟨_, hvalue⟩
  · rw [upserts_eq h]
    exact hgenerates.fresh

/-- Over Bedrock a request fails before it has its analytics, and then nothing
is asked or saved, or it has to do with Bedrock as `Conversed` says. -/
theorem getMonthlyInsights_conversed
    (h : ((getMonthlyInsights options year month).interp overBedrock).Run inner
      result) :
    ((∃ error, result = .error error) ∧ conversations inner = [] ∧
      upserts inner = []) ∨
    ∃ ranges aggregates reading,
      getMonthlyAnalyticsRanges year month = .ok ranges ∧
      (StatementRepository.findMonthlyAnalytics ranges).Run reading
        (.ok aggregates) ∧
      reading.map queried <+: inner ∧
      Conversed (insightsInput year month aggregates)
        (insightsLookup options ranges (insightsInput year month aggregates))
        inner result := by
  obtain ⟨trace, hrun, hconveyed⟩ := run_overBedrock h
  rcases run_getMonthlyInsights hrun with ⟨herror, hquiet⟩ |
    ⟨ranges, aggregates, before, after, hranges, rfl, hfind, hrest⟩
  · refine .inl ⟨herror, conversations_quiet hconveyed hquiet, ?_⟩
    rw [upserts_eq hconveyed, hquiet.saved]
  have hquiet : Quiet before := hfind.calls quiet_findMonthlyAnalytics
  refine .inr ⟨ranges, aggregates, before, hranges, hfind,
    conveyed_prefix hconveyed hquiet, ?_⟩
  apply conversed hconveyed
  · rw [List.forall_mem_append]
    exact ⟨fun answered hmem => (hquiet answered hmem).asksAbout _,
      hrest.calls asksAbout_insightsOfAggregates⟩
  · rw [savedInputs_append, hquiet.saved, List.nil_append]
    exact run_saved_lookup hrest
  · exact .prepend hquiet (run_insightsOfAggregates hrest)
  · exact .prepend hquiet (generates_insightsOfAggregates hrest)

/-- Bedrock's answer to the sample: one call of the tool. -/
def sampleResponse : ConverseOutput :=
  ⟨some (js "tool_use"), some [.toolUse (some ⟨some INSIGHTS_TOOL_NAME,
    .object [(js "insights", sampleGenerated)]⟩)]⟩

/-- The sample up to its second cache miss. -/
def sampleMissed : ApiTrace :=
  [⟨.connect, .ok ()⟩, ⟨.client .beginRepeatableRead, .ok ()⟩] ++
    sampleMonth sampleRanges.current ++ sampleMonth sampleRanges.previous ++
    [⟨.client .commit, .ok ()⟩, ⟨.release false, .ok ()⟩, ⟨.connect, .ok ()⟩,
      ⟨.client (.selectMonthlyInsights sampleLookup), .ok []⟩,
      ⟨.release false, .ok ()⟩, ⟨.connect, .ok ()⟩, ⟨.client .begin, .ok ()⟩,
      ⟨.client (.advisoryLock (insightsLockKey sampleLookup)), .ok ()⟩,
      ⟨.client (.selectMonthlyInsights sampleLookup), .ok []⟩]

def sampleSaved : ApiTrace :=
  [⟨.now, .ok (some 5)⟩,
    ⟨.client (.upsertMonthlyInsights { sampleLookup with
      insights := ⟨[sampleInsight]⟩, generatedAt := some 5 }), .ok ()⟩,
    ⟨.client .commit, .ok ()⟩, ⟨.release false, .ok ()⟩]

/-- The sample over Bedrock. -/
def sampleBedrockTrace : BedrockTrace :=
  sampleMissed.map queried ++
    ⟨.converse (buildInsightsPrompt sampleInput), .ok sampleResponse⟩ ::
      sampleSaved.map queried

theorem run_sampleBedrockTrace :
    ((getMonthlyInsights sampleOptions 2026 4).interp overBedrock).Run
      sampleBedrockTrace (.ok ⟨2026, 4, [sampleInsight], 5, false⟩) := by
  repeat' apply Proc.Run.await
  exact .settled

/-- What the sample saves was answered to its prompt. -/
theorem getMonthlyInsights_conversed_sample :
    ∃ input lookup, Conversed input lookup sampleBedrockTrace
      (.ok ⟨2026, 4, [sampleInsight], 5, false⟩) ∧
      ∃ saved ∈ upserts sampleBedrockTrace,
        saved.insights = ⟨[sampleInsight]⟩ := by
  rcases getMonthlyInsights_conversed run_sampleBedrockTrace with
    ⟨⟨_, herror⟩, _⟩ | ⟨_, _, _, _, _, _, hconversed⟩
  · cases herror
  · exact ⟨_, _, hconversed, _, List.mem_singleton_self _, rfl⟩

end Request

end StatementAnalyzer
