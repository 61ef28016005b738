/-
The structured logger.  A line is one JSON object, made of the logger's own
options and the allowed fields of a record, and depends on nothing else.
-/
import StatementAnalyzer.Errors
import StatementAnalyzer.Js.Date
import StatementAnalyzer.Js.Stringify
import Mathlib.Data.List.Nodup

namespace StatementAnalyzer

def ALLOWED_LOG_FIELDS : List JsString :=
  [js "event", js "requestId", js "statementId", js "messageId", js "status",
    js "durationMs", js "receiveCount", js "errorCode", js "stage",
    js "disposition", js "modelId", js "promptVersion", js "method", js "route",
    js "httpStatus", js "signal", js "cached", js "host", js "port",
    js "transactionCount", js "inputTokens", js "outputTokens",
    js "totalTokens", js "targetMonth"]

def MAX_LOG_STRING_LENGTH : Nat := 512

/-- What a field of a line holds; a number is finite. -/
inductive LogValue where
  | string (text : JsString)
  | number (value : ℚ)
  | boolean (value : Bool)
deriving DecidableEq, Repr

def LogValue.json : LogValue → JsValue
  | string text => .string text
  | number value => .number value
  | boolean value => .boolean value

/-- The characters that `sanitizeString` takes out. -/
def isControl (unit : UInt16) : Bool :=
  unit ≤ 0x1F || unit = 0x7F

def sanitizeString (value : JsString) : JsString :=
  (value.filter fun unit => !isControl unit).take MAX_LOG_STRING_LENGTH

def sanitizeValue : JsValue → Option LogValue
  | .string value => some (.string (sanitizeString value))
  | .number value => some (.number value)
  | .boolean value => some (.boolean value)
  | _ => none

/-- An object under construction, its properties in the order of their first
assignment. -/
abbrev LogFields : Type := List (JsString × LogValue)

/-- `output[key] = value`. -/
def assign (key : JsString) (value : LogValue) : LogFields → LogFields
  | [] => [(key, value)]
  | (other, old) :: rest =>
      if other = key then (key, value) :: rest
      else (other, old) :: assign key value rest

/-- The body of the loop over `Object.entries(fields)`. -/
def assignField (output : LogFields) (entry : JsString × JsValue) : LogFields :=
  if ALLOWED_LOG_FIELDS.contains entry.1 then
    match sanitizeValue entry.2 with
    | some sanitized => assign entry.1 sanitized output
    | none => output
  else output

/-- A non-empty string under `event` replaces what the loop has put there. -/
def assignEvent (fields : List (JsString × JsValue)) (output : LogFields) :
    LogFields :=
  match JsValue.property fields (js "event") with
  | .string event =>
      if 0 < event.length then
        assign (js "event") (.string (sanitizeString event)) output
      else output
  | _ => output

/-- The object that `createLine` writes. -/
def lineFields (service : JsString) (timestamp : TimeValue)
    (fields : List (JsString × JsValue)) : LogFields :=
  assignEvent fields (fields.foldl assignField
    [(js "event", .string (js "unknown")),
      (js "timestamp", .string timestamp.toISOString),
      (js "service", .string (sanitizeString service))])

def LogFields.json (output : LogFields) : JsValue :=
  .object (output.map fun entry => (entry.1, entry.2.json))

/-- `createLine`; `toISOString` throws where the clock has no valid date. -/
def createLine (service : JsString) (now : Option TimeValue)
    (fields : List (JsString × JsValue)) : Except Thrown String :=
  match now with
  | none => .error ⟨.other, some (js "RangeError"), none⟩
  | some timestamp =>
      .ok (String.ofList (jsonText (lineFields service timestamp fields).json))

structure StructuredLoggerOptions where
  service : JsString
  now : Option TimeValue

inductive LogLevel where
  | info
  | error
deriving DecidableEq, Repr

/-- `info` and `error` of `createStructuredLogger`: what is written, and by
which of the two functions. -/
def StructuredLoggerOptions.log (options : StructuredLoggerOptions)
    (level : LogLevel) (fields : List (JsString × JsValue)) :
    Except Thrown (LogLevel × String) := do
  let line ← createLine options.service options.now fields
  return (level, line)

example : createLine (js "worker\n") (some ⟨1790294400000, by decide⟩)
    [(js "event", .string (js "done")), (js "durationMs", .number 12),
      (js "service", .string (js "api")), (js "cached", .null)] =
    .ok ("\x7b\"event\":\"done\",\"timestamp\":\"2026-09-25T00:00:00.000Z\"," ++
      "\"service\":\"worker\",\"durationMs\":12\x7d") := by
  decide +kernel

/-- The part of a record that the logger may look at. -/
def allowedFields (fields : List (JsString × JsValue)) :
    List (JsString × JsValue) :=
  fields.filter fun entry => ALLOWED_LOG_FIELDS.contains entry.1

/-- Safe to write: short, and without control characters. -/
def LogValue.Clean : LogValue → Prop
  | string text => text.length ≤ 512 ∧
      ∀ unit ∈ text, 0x1F < unit.toNat ∧ unit.toNat ≠ 0x7F
  | number _ | boolean _ => True

/-- What holds of a line under construction, and of the finished one. -/
structure LineFields (service : JsString) (timestamp : TimeValue)
    (output : LogFields) : Prop where
  distinct : (output.map Prod.fst).Nodup
  keys : ∀ entry ∈ output, entry.1 ∈ ALLOWED_LOG_FIELDS ∨
    entry.1 = js "timestamp" ∨ entry.1 = js "service"
  time : (js "timestamp", .string timestamp.toISOString) ∈ output
  name : (js "service", .string (sanitizeString service)) ∈ output
  clean : ∀ entry ∈ output, entry.2.Clean

section Sanitize

theorem isControl_eq_false {unit : UInt16} (h : isControl unit = false) :
    0x1F < unit.toNat ∧ unit.toNat ≠ 0x7F := by
  simp only [isControl, Bool.or_eq_false_iff, decide_eq_false_iff_not,
    UInt16.le_iff_toNat_le] at h
  have hlow : ¬unit.toNat ≤ 31 := h.1
  refine ⟨by omega, fun hdelete => h.2 ?_⟩
  apply UInt16.toNat_inj.mp
  rw [hdelete]
  rfl

theorem clean_sanitizeString (value : JsString) :
    (LogValue.string (sanitizeString value)).Clean := by
  refine ⟨List.length_take_le _ _, fun unit hunit => ?_⟩
  have hkept := List.mem_of_mem_take hunit
  rw [List.mem_filter, Bool.not_eq_true'] at hkept
  exact isControl_eq_false hkept.2

theorem clean_sanitizeValue {value : JsValue} {sanitized : LogValue}
    (h : sanitizeValue value = some sanitized) : sanitized.Clean := by
  cases value with
  | string value =>
      cases h
      exact clean_sanitizeString value
  | number value | boolean value =>
      cases h
      exact trivial
  | undefined | null | nan | infinity _ | array _ | object _ => cases h

theorem clean_toISOString (timestamp : TimeValue) :
    (LogValue.string timestamp.toISOString).Clean := by
  have hlength := length_toISOString_le timestamp
  refine ⟨by omega, fun unit hunit => ?_⟩
  have hvisible := visible_toISOString timestamp unit hunit
  omega

end Sanitize

section Assign

variable {key : JsString} {value : LogValue} {output : LogFields}

theorem mem_assign {entry : JsString × LogValue}
    (h : entry ∈ assign key value output) :
    entry = (key, value) ∨ entry ∈ output := by
  induction output with
  | nil => exact .inl (List.mem_singleton.mp h)
  | cons first rest ih =>
      obtain ⟨other, old⟩ := first
      rw [assign] at h
      split at h
      · rcases List.mem_cons.mp h with heq | hmem
        · exact .inl heq
        · exact .inr (List.mem_cons_of_mem _ hmem)
      · rcases List.mem_cons.mp h with rfl | hmem
        · exact .inr List.mem_cons_self
        · exact (ih hmem).imp id (List.mem_cons_of_mem _)

/-- Assigning leaves the other properties alone. -/
theorem mem_assign_of_ne {entry : JsString × LogValue} (hmem : entry ∈ output)
    (hne : entry.1 ≠ key) : entry ∈ assign key value output := by
  induction output with
  | nil => cases hmem
  | cons first rest ih =>
      obtain ⟨other, old⟩ := first
      rw [assign]
      split
      · rename_i hkey
        rcases List.mem_cons.mp hmem with rfl | hmem
        · exact absurd hkey hne
        · exact List.mem_cons_of_mem _ hmem
      · rcases List.mem_cons.mp hmem with rfl | hmem
        · exact List.mem_cons_self
        · exact List.mem_cons_of_mem _ (ih hmem)

theorem nodup_assign (h : (output.map Prod.fst).Nodup) :
    ((assign key value output).map Prod.fst).Nodup := by
  induction output with
  | nil => simp [assign]
  | cons first rest ih =>
      obtain ⟨other, old⟩ := first
      rw [List.map_cons, List.nodup_cons] at h
      rw [assign]
      split
      · rename_i hkey
        subst hkey
        exact List.nodup_cons.mpr h
      · rename_i hkey
        refine List.nodup_cons.mpr ⟨fun hmem => ?_, ih h.2⟩
        obtain ⟨entry, hentry, hname⟩ := List.mem_map.mp hmem
        rcases mem_assign hentry with rfl | hold
        · exact hkey hname.symm
        · exact h.1 (List.mem_map.mpr ⟨entry, hold, hname⟩)

end Assign

section Line

variable {service : JsString} {timestamp : TimeValue} {output : LogFields}
variable {fields fields' : List (JsString × JsValue)}

theorem reserved_not_allowed : js "timestamp" ∉ ALLOWED_LOG_FIELDS ∧
    js "service" ∉ ALLOWED_LOG_FIELDS := by decide

/-- Only an allowed field is ever assigned, and only a clean value. -/
theorem LineFields.assign (h : LineFields service timestamp output)
    {key : JsString} {value : LogValue} (hkey : key ∈ ALLOWED_LOG_FIELDS)
    (hvalue : value.Clean) :
    LineFields service timestamp (assign key value output) where
  distinct := nodup_assign h.distinct
  keys := by
    intro entry hentry
    rcases mem_assign hentry with rfl | hold
    · exact .inl hkey
    · exact h.keys entry hold
  time := by
    apply mem_assign_of_ne h.time
    rintro rfl
    exact reserved_not_allowed.1 hkey
  name := by
    apply mem_assign_of_ne h.name
    rintro rfl
    exact reserved_not_allowed.2 hkey
  clean := by
    intro entry hentry
    rcases mem_assign hentry with rfl | hold
    · exact hvalue
    · exact h.clean entry hold

theorem LineFields.assignField (h : LineFields service timestamp output)
    (entry : JsString × JsValue) :
    LineFields service timestamp (assignField output entry) := by
  rw [StatementAnalyzer.assignField]
  split
  · rename_i hallowed
    split
    · rename_i sanitized hsanitized
      exact h.assign (List.contains_iff_mem.mp hallowed)
        (clean_sanitizeValue hsanitized)
    · exact h
  · exact h

theorem LineFields.foldl (h : LineFields service timestamp output)
    (fields : List (JsString × JsValue)) :
    LineFields service timestamp
      (fields.foldl StatementAnalyzer.assignField output) := by
  induction fields generalizing output with
  | nil => exact h
  | cons entry rest ih => exact ih (h.assignField entry)

theorem LineFields.assignEvent (h : LineFields service timestamp output)
    (fields : List (JsString × JsValue)) :
    LineFields service timestamp (assignEvent fields output) := by
  have hevent : js "event" ∈ ALLOWED_LOG_FIELDS := by decide
  rw [StatementAnalyzer.assignEvent]
  split
  · split
    · exact h.assign hevent (clean_sanitizeString _)
    · exact h
  · exact h

theorem lineFields_spec (service : JsString) (timestamp : TimeValue)
    (fields : List (JsString × JsValue)) :
    LineFields service timestamp (lineFields service timestamp fields) := by
  have hstart : LineFields service timestamp
      [(js "event", .string (js "unknown")),
        (js "timestamp", .string timestamp.toISOString),
        (js "service", .string (sanitizeString service))] := {
    distinct := by
      change [js "event", js "timestamp", js "service"].Nodup
      decide
    keys := by
      intro entry hentry
      simp only [List.mem_cons, List.not_mem_nil, or_false] at hentry
      rcases hentry with rfl | rfl | rfl
      · exact .inl (by decide)
      · exact .inr (.inl rfl)
      · exact .inr (.inr rfl)
    time := by simp
    name := by simp
    clean := by
      intro entry hentry
      simp only [List.mem_cons, List.not_mem_nil, or_false] at hentry
      rcases hentry with rfl | rfl | rfl
      · have hunknown : sanitizeString (js "unknown") = js "unknown" := by decide
        rw [← hunknown]
        exact clean_sanitizeString _
      · exact clean_toISOString timestamp
      · exact clean_sanitizeString service }
  exact (hstart.foldl fields).assignEvent fields

/-- The loop passes over the fields that are not allowed. -/
theorem foldl_allowedFields (fields : List (JsString × JsValue))
    (output : LogFields) : (allowedFields fields).foldl assignField output =
      fields.foldl assignField output := by
  induction fields generalizing output with
  | nil => rfl
  | cons entry rest ih =>
      rw [allowedFields] at ih ⊢
      by_cases hallowed : ALLOWED_LOG_FIELDS.contains entry.1 = true
      · rw [List.filter_cons, if_pos hallowed, List.foldl_cons, List.foldl_cons,
          ih]
      · rw [List.filter_cons, if_neg hallowed, List.foldl_cons, ih, assignField,
          if_neg hallowed]

/-- An allowed property is found among the allowed fields. -/
theorem property_allowedFields (fields : List (JsString × JsValue))
    {key : JsString} (hkey : ALLOWED_LOG_FIELDS.contains key = true) :
    JsValue.property (allowedFields fields) key =
      JsValue.property fields key := by
  rw [JsValue.property, JsValue.property, allowedFields, List.find?_filter]
  congr 2
  apply congrArg (List.find? · fields)
  funext entry
  by_cases hentry : entry.1 = key
  · simp [hentry, List.contains_iff_mem.mp hkey]
  · simp [hentry]

theorem lineFields_allowedFields (service : JsString) (timestamp : TimeValue)
    (fields : List (JsString × JsValue)) :
    lineFields service timestamp (allowedFields fields) =
      lineFields service timestamp fields := by
  have hevent : ALLOWED_LOG_FIELDS.contains (js "event") = true := by decide
  rw [lineFields, lineFields, foldl_allowedFields, assignEvent, assignEvent,
    property_allowedFields fields hevent]

end Line

/-- A line of the log, with the object that it holds. -/
structure LogLine (options : StructuredLoggerOptions) (line : String)
    (output : LogFields) : Prop where
  text : line = String.ofList (jsonText output.json)
  distinct : (output.map Prod.fst).Nodup
  keys : ∀ entry ∈ output, entry.1 ∈ ALLOWED_LOG_FIELDS ∨
    entry.1 = js "timestamp" ∨ entry.1 = js "service"
  timestamp : ∃ timestamp, options.now = some timestamp ∧
    ∀ value, (js "timestamp", value) ∈ output ↔
      value = .string timestamp.toISOString
  service : ∀ value, (js "service", value) ∈ output ↔
    value = .string (sanitizeString options.service)
  clean : ∀ entry ∈ output, entry.2.Clean
  oneLine : ∀ c ∈ line.toList, 0x20 ≤ c.toNat
  only : output.json.isFinite = true → ∀ value : JsValue,
    value.isFinite = true → line = String.ofList (jsonText value) →
      value = output.json

section Log

variable {options : StructuredLoggerOptions}
variable {fields fields' : List (JsString × JsValue)}

/-- A key has one value. -/
theorem value_iff {output : LogFields} (hdistinct : (output.map Prod.fst).Nodup)
    {key : JsString} {found : LogValue} (hfound : (key, found) ∈ output)
    (value : LogValue) : (key, value) ∈ output ↔ value = found := by
  constructor
  · intro hvalue
    exact congrArg Prod.snd
      (List.inj_on_of_nodup_map hdistinct hvalue hfound rfl)
  · rintro rfl
    exact hfound

theorem logLine_lineFields {timestamp : TimeValue}
    (hnow : options.now = some timestamp) :
    LogLine options (String.ofList (jsonText
        (lineFields options.service timestamp fields).json))
      (lineFields options.service timestamp fields) := by
  have hspec := lineFields_spec options.service timestamp fields
  exact {
    text := rfl
    distinct := hspec.distinct
    keys := hspec.keys
    timestamp := ⟨timestamp, hnow, value_iff hspec.distinct hspec.time⟩
    service := value_iff hspec.distinct hspec.name
    clean := hspec.clean
    oneLine := by
      rw [String.toList_ofList]
      exact JsValue.printable_jsonText _
    only := fun hfinite value hvalue heq => (JsValue.jsonText_injective
      hfinite hvalue (String.ofList_injective heq)).symm }

/-- A line is written exactly where the clock has a valid date. -/
theorem log_of_now {timestamp : TimeValue}
    (hnow : options.now = some timestamp) (level : LogLevel) :
    options.log level fields = .ok (level, String.ofList (jsonText
      (lineFields options.service timestamp fields).json)) := by
  rw [StructuredLoggerOptions.log, hnow]
  rfl

theorem log_of_now_none (hnow : options.now = none) (level : LogLevel) :
    ∀ written, options.log level fields ≠ .ok written := by
  intro written hwritten
  rw [StructuredLoggerOptions.log, hnow] at hwritten
  cases hwritten

/-- The line depends on the allowed fields alone, is written whenever the clock
has a valid date, and is one JSON object that no record can break or forge. -/
theorem log_allowlist (h : allowedFields fields = allowedFields fields')
    (level : LogLevel) :
    options.log level fields = options.log level fields' ∧
      (options.now.isSome → ∃ line output,
        options.log level fields = .ok (level, line) ∧
          LogLine options line output) ∧
      ∀ written, options.log level fields = .ok written →
        written.1 = level ∧ ∃ output, LogLine options written.2 output := by
  cases hnow : options.now with
  | none =>
      have hlog : options.log level fields = options.log level fields' := by
        rw [StructuredLoggerOptions.log, StructuredLoggerOptions.log, hnow,
          createLine, createLine]
      refine ⟨hlog, by simp, fun written hwritten => ?_⟩
      exact absurd hwritten (log_of_now_none hnow level written)
  | some timestamp =>
      have hlog := @log_of_now options fields timestamp hnow level
      have hline := @logLine_lineFields options fields timestamp hnow
      refine ⟨?_, fun _ => ⟨_, _, hlog, hline⟩, ?_⟩
      · rw [hlog, log_of_now hnow level, ← lineFields_allowedFields _ _ fields,
          h, lineFields_allowedFields]
      · intro written hwritten
        rw [hlog] at hwritten
        cases hwritten
        exact ⟨rfl, _, hline⟩

/-- A secret and a nested error make no difference to the line. -/
theorem log_allowlist_secret :
    StructuredLoggerOptions.log
        ⟨js "test-service", some ⟨1790294400000, by decide⟩⟩ .error
        [(js "presignedUrl", .string (js "https://s3.example.test/secret")),
          (js "event", .string (js "dependency_failed")),
          (js "error", .object [(js "message", .string (js "password"))])] =
      .ok (.error, "\x7b\"event\":\"dependency_failed\"," ++
        "\"timestamp\":\"2026-09-25T00:00:00.000Z\"," ++
        "\"service\":\"test-service\"\x7d") := by
  have hline : StructuredLoggerOptions.log
        ⟨js "test-service", some ⟨1790294400000, by decide⟩⟩ .error
        [(js "event", .string (js "dependency_failed"))] =
      .ok (.error, "\x7b\"event\":\"dependency_failed\"," ++
        "\"timestamp\":\"2026-09-25T00:00:00.000Z\"," ++
        "\"service\":\"test-service\"\x7d") := by
    decide +kernel
  exact (log_allowlist rfl .error).1.trans hline

end Log

end StatementAnalyzer
