/-
The insights analyzer over Bedrock, and the procedures of the API with it in the
place of the call that stands for it.
-/
import StatementAnalyzer.Ai.BedrockOcr
import StatementAnalyzer.Async.Traces
import StatementAnalyzer.Database.MonthlyRepository
import StatementAnalyzer.Insights.InsightsPrompt
import StatementAnalyzer.Insights.StoredDocument

namespace StatementAnalyzer

open Async

def INSIGHTS_TOOL_NAME : JsString := js "generate_spending_insights"

/-- `getToolUse` of the two analyzers, which differ in the tool and the
error. -/
def getNamedToolUse (toolName : JsString) (invalid : Thrown)
    (response : ConverseOutput) : Except Thrown ToolUseBlock :=
  if response.stopReason ≠ some (js "tool_use") then .error invalid
  else
    match response.content with
    | none => .error invalid
    | some content =>
        let toolUseBlocks := content.filter ContentBlock.isToolUse
        if content.length ≠ 1 ∨ toolUseBlocks.length ≠ 1 then .error invalid
        else
          match toolUseBlocks with
          | .toolUse (some toolUse) :: _ =>
              if toolUse.name ≠ some toolName then .error invalid
              else
                match toolUse.input with
                | .undefined => .error invalid
                | _ => .ok toolUse
          | _ => .error invalid

theorem getToolUse_eq (response : ConverseOutput) : getToolUse response =
    getNamedToolUse OCR_TOOL_NAME invalidOcrResponseError response := rfl

def getInsightsToolUse : ConverseOutput → Except Thrown ToolUseBlock :=
  getNamedToolUse INSIGHTS_TOOL_NAME invalidInsightsResponseError

/-- The response is one call of the tool, with an input. -/
structure ConverseOutput.CallsTool (response : ConverseOutput)
    (toolName : JsString) (input : JsValue) : Prop where
  stopReason : response.stopReason = some (js "tool_use")
  content : response.content = some [.toolUse (some ⟨some toolName, input⟩)]
  input : input ≠ .undefined

section ToolUse

variable {toolName : JsString} {invalid error : Thrown}
variable {response : ConverseOutput} {toolUse : ToolUseBlock}

/-- The only block of the content is checked, whatever else is a block. -/
theorem getNamedToolUse_eq_ok_iff :
    getNamedToolUse toolName invalid response = .ok toolUse ↔
      response.CallsTool toolName toolUse.input ∧
        toolUse.name = some toolName := by
  obtain ⟨stopReason, content⟩ := response
  constructor
  · intro h
    rw [getNamedToolUse] at h
    split at h
    · cases h
    rename_i hstop
    split at h
    · cases h
    rename_i blocks hblocks
    obtain rfl : content = some blocks := hblocks
    simp only at h
    split at h
    · cases h
    rename_i hlengths
    obtain ⟨hlength, hfilter⟩ := not_or.mp hlengths
    obtain ⟨block, rfl⟩ := List.length_eq_one_iff.mp (not_not.mp hlength)
    cases block with
    | other => cases not_not.mp hfilter
    | toolUse value =>
        cases value with
        | none => cases h
        | some found =>
            obtain ⟨name, input⟩ := found
            simp only [ContentBlock.isToolUse, List.filter] at h
            split at h
            · cases h
            rename_i hname
            have hname : name = some toolName := not_not.mp hname
            cases input with
            | undefined => cases h
            | _ =>
                cases h
                subst hname
                exact ⟨⟨not_not.mp hstop, rfl, by rintro ⟨⟩⟩, rfl⟩
  · rintro ⟨⟨hstop, hcontent, hinput⟩, hname⟩
    obtain ⟨name, input⟩ := toolUse
    subst hname hstop hcontent
    have hfilter : ∀ value, [ContentBlock.toolUse value].filter
        ContentBlock.isToolUse = [.toolUse value] := fun _ => rfl
    cases input with
    | undefined => exact absurd rfl hinput
    | _ => simp [getNamedToolUse, hfilter]

end ToolUse

/-- The calls of the API with Bedrock behind the analyzer.  Of the command only
the prompt depends on the input. -/
inductive BedrockQuery where
  | query (q : ApiQuery)
  | converse (prompt : String)

abbrev BedrockQuery.Answer : BedrockQuery → Type
  | query q => q.Answer
  | converse _ => ConverseOutput

abbrev BedrockProgram : Type → Type :=
  Proc BedrockQuery BedrockQuery.Answer Thrown

abbrev BedrockTrace := List (Answered BedrockQuery BedrockQuery.Answer Thrown)

/-- The document that a response is read as. -/
def readInsights (input : CompactInsightsInput) (response : ConverseOutput) :
    Except Thrown InsightsDocument := do
  let toolUse ← getInsightsToolUse response
  parseAndValidateInsights toolUse.input input

/-- The token usage that the source also returns is read by nothing. -/
def BedrockInsightsAnalyzer.analyze (input : CompactInsightsInput) :
    BedrockProgram InsightsDocument := do
  let response ← Proc.call (BedrockQuery.converse (buildInsightsPrompt input))
  Proc.settled (readInsights input response)

/-- The `insights` of a document. -/
def InsightsDocument.items (document : InsightsDocument) : JsValue :=
  .array (document.insights.map Insight.toJson)

/-- The calls of the API, with the analyzer over Bedrock. -/
def overBedrock : (q : ApiQuery) → BedrockProgram q.Answer
  | .analyze input => do
      let document ← BedrockInsightsAnalyzer.analyze input
      return document.items
  | q => Proc.call (BedrockQuery.query q)

/-- A call of the API and the call that stands for it: that of the analyzer is
one conversation, and the others are themselves. -/
inductive Conveyed : Answered ApiQuery ApiQuery.Answer Thrown →
    Answered BedrockQuery BedrockQuery.Answer Thrown → Prop
  | analyze (input : CompactInsightsInput)
      (answer : Except Thrown ConverseOutput) :
      Conveyed
        ⟨.analyze input,
          (answer.bind (readInsights input)).map InsightsDocument.items⟩
        ⟨.converse (buildInsightsPrompt input), answer⟩
  | query {q : ApiQuery} (hq : ∀ input, q ≠ .analyze input)
      (answer : Except Thrown q.Answer) :
      Conveyed ⟨q, answer⟩ ⟨.query q, answer⟩

section Conveyed

variable {input : CompactInsightsInput} {response : ConverseOutput}
variable {document : InsightsDocument}

theorem readInsights_eq_ok_iff : readInsights input response = .ok document ↔
    ∃ toolInput, response.CallsTool INSIGHTS_TOOL_NAME toolInput ∧
      parseAndValidateInsights toolInput input = .ok document := by
  constructor
  · intro h
    cases htool : getInsightsToolUse response with
    | error error =>
        rw [readInsights, htool] at h
        cases h
    | ok toolUse =>
        rw [readInsights, htool] at h
        exact ⟨toolUse.input, (getNamedToolUse_eq_ok_iff.mp htool).1, h⟩
  · rintro ⟨toolInput, hcalls, hparsed⟩
    have htool : getInsightsToolUse response =
        .ok ⟨some INSIGHTS_TOOL_NAME, toolInput⟩ :=
      getNamedToolUse_eq_ok_iff.mpr ⟨hcalls, rfl⟩
    rw [readInsights, htool]
    exact hparsed

/-- One conversation, and what it is read as. -/
theorem run_analyze {trace : BedrockTrace}
    {result : Except Thrown InsightsDocument}
    (h : (BedrockInsightsAnalyzer.analyze input).Run trace result) :
    ∃ answer, trace = [⟨.converse (buildInsightsPrompt input), answer⟩] ∧
      result = answer.bind (readInsights input) := by
  rcases Proc.run_bind h with ⟨error, rfl, hcall⟩ |
    ⟨response, before, after, rfl, hcall, hread⟩
  · exact ⟨.error error, Proc.run_call_iff.mp hcall, rfl⟩
  · obtain ⟨rfl, hresult⟩ := Proc.run_settled_iff.mp hread
    obtain rfl := Proc.run_call_iff.mp hcall
    exact ⟨.ok response, rfl, hresult⟩

theorem run_overBedrock_single {q : ApiQuery} {trace : BedrockTrace}
    {answer : Except Thrown q.Answer} (h : (overBedrock q).Run trace answer) :
    ∃ inner, trace = [inner] ∧ Conveyed ⟨q, answer⟩ inner := by
  cases q with
  | analyze input =>
      obtain ⟨before, result, after, rfl, hanalyze, hitems⟩ :=
        Proc.run_andThen_iff.mp h
      obtain ⟨conversed, rfl, rfl⟩ := run_analyze hanalyze
      have hanswer : after = [] ∧ answer =
          (conversed.bind (readInsights input)).map InsightsDocument.items := by
        cases hread : conversed.bind (readInsights input) with
        | error error =>
            rw [hread] at hitems
            exact Proc.run_settled_iff.mp hitems
        | ok document =>
            rw [hread] at hitems
            exact Proc.run_settled_iff.mp hitems
      obtain ⟨rfl, rfl⟩ := hanswer
      exact ⟨_, rfl, .analyze input conversed⟩
  | _ =>
      obtain rfl := Proc.run_call_iff.mp h
      exact ⟨_, rfl, .query (by rintro _ ⟨⟩) _⟩

/-- The API over Bedrock makes the calls of the API, one for one. -/
theorem run_overBedrock {α : Type} {p : ApiProgram α} {inner : BedrockTrace}
    {result : Except Thrown α} (h : (p.interp overBedrock).Run inner result) :
    ∃ trace, p.Run trace result ∧ List.Forall₂ Conveyed trace inner :=
  h.of_interp_single fun _ _ _ hrun => run_overBedrock_single hrun

end Conveyed

end StatementAnalyzer
