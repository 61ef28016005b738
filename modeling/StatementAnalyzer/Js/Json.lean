/-
Equal JSON values: an object is its keys with their values, in any order.
-/
import StatementAnalyzer.Js.Schema

namespace StatementAnalyzer

namespace JsValue

/-- Equality of JSON values, as `jsonb` keeps them. -/
inductive JsonEqual : JsValue → JsValue → Prop
  | null : JsonEqual .null .null
  | boolean (value : Bool) : JsonEqual (.boolean value) (.boolean value)
  | number (value : ℚ) : JsonEqual (.number value) (.number value)
  | string (text : JsString) : JsonEqual (.string text) (.string text)
  | array {items items' : List JsValue}
      (equal : List.Forall₂ JsonEqual items items') :
      JsonEqual (.array items) (.array items')
  | object {properties properties' : List (JsString × JsValue)}
      (keys : ∀ key, key ∈ properties'.map Prod.fst ↔
        key ∈ properties.map Prod.fst)
      (values : ∀ key ∈ properties.map Prod.fst,
        JsonEqual (property properties key) (property properties' key)) :
      JsonEqual (.object properties) (.object properties')

/-- The same keys with equal values. -/
structure SameProperties (properties properties' : List (JsString × JsValue)) :
    Prop where
  keys : ∀ key, key ∈ properties'.map Prod.fst ↔ key ∈ properties.map Prod.fst
  values : ∀ key ∈ properties.map Prod.fst,
    JsonEqual (property properties key) (property properties' key)

section Values

variable {value : JsValue}

theorem jsonEqual_string_iff {text : JsString} :
    JsonEqual (.string text) value ↔ value = .string text := by
  constructor
  · rintro ⟨⟩
    rfl
  · rintro rfl
    exact .string text

theorem jsonEqual_array_iff {items : List JsValue} :
    JsonEqual (.array items) value ↔
      ∃ items', value = .array items' ∧ List.Forall₂ JsonEqual items items' := by
  constructor
  · intro h
    cases h with
    | array equal => exact ⟨_, rfl, equal⟩
  · rintro ⟨items', rfl, equal⟩
    exact .array equal

theorem jsonEqual_object_iff {properties : List (JsString × JsValue)} :
    JsonEqual (.object properties) value ↔
      ∃ properties', value = .object properties' ∧
        SameProperties properties properties' := by
  constructor
  · intro h
    cases h with
    | object keys values => exact ⟨_, rfl, keys, values⟩
  · rintro ⟨properties', rfl, keys, values⟩
    exact .object keys values

end Values

mutual

/-- Whether JSON can denote the value. -/
def isJson : JsValue → Bool
  | undefined | nan | infinity _ => false
  | null | boolean _ | number _ | string _ => true
  | array items => allJson items
  | object properties => allJsonProperties properties

def allJson : List JsValue → Bool
  | [] => true
  | item :: rest => item.isJson && allJson rest

def allJsonProperties : List (JsString × JsValue) → Bool
  | [] => true
  | (_, value) :: rest => value.isJson && allJsonProperties rest

end

theorem property_mem {properties : List (JsString × JsValue)} {key : JsString}
    (h : key ∈ properties.map Prod.fst) :
    (key, property properties key) ∈ properties := by
  obtain ⟨entry, hentry, rfl⟩ := List.mem_map.mp h
  have hsome : (properties.find? fun other => other.1 = entry.1).isSome =
      true := List.find?_isSome.mpr ⟨entry, hentry, decide_eq_true rfl⟩
  obtain ⟨found, hfound⟩ := Option.isSome_iff_exists.mp hsome
  have hname := List.find?_some hfound
  rw [decide_eq_true_eq] at hname
  rw [property, hfound, ← hname]
  exact List.mem_of_find?_eq_some hfound

mutual

/-- A JSON value is equal to itself. -/
theorem jsonEqual_refl : (value : JsValue) → value.isJson = true →
    JsonEqual value value
  | null, _ => .null
  | boolean value, _ => .boolean value
  | number value, _ => .number value
  | string text, _ => .string text
  | array items, h => .array (forall₂_jsonEqual_refl items h)
  | object properties, h => .object (fun _ => Iff.rfl) fun _ hkey =>
      jsonEqual_refl_of_mem properties h _ (property_mem hkey)

theorem forall₂_jsonEqual_refl : (items : List JsValue) →
    allJson items = true → List.Forall₂ JsonEqual items items
  | [], _ => .nil
  | item :: rest, h => by
      rw [allJson, Bool.and_eq_true] at h
      exact .cons (jsonEqual_refl item h.1) (forall₂_jsonEqual_refl rest h.2)

theorem jsonEqual_refl_of_mem : (properties : List (JsString × JsValue)) →
    allJsonProperties properties = true →
    ∀ entry ∈ properties, JsonEqual entry.2 entry.2
  | [], _, _, hentry => absurd hentry List.not_mem_nil
  | (_, value) :: rest, h, entry, hentry => by
      rw [allJsonProperties, Bool.and_eq_true] at h
      rcases List.mem_cons.mp hentry with rfl | hentry
      · exact jsonEqual_refl value h.1
      · exact jsonEqual_refl_of_mem rest h.2 entry hentry

end

end JsValue

end StatementAnalyzer
