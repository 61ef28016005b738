/-
The parts of which the Zod schemas are made.
-/
import StatementAnalyzer.Js.CodePoints
import StatementAnalyzer.Js.Value
import Mathlib.Data.List.Forall2

namespace StatementAnalyzer

namespace JsValue

def string? : JsValue → Option JsString
  | string value => some value
  | _ => none

/-- The properties of an object that has no keys but these. -/
def strictObject? (keys : List JsString) :
    JsValue → Option (List (JsString × JsValue))
  | object properties =>
      if properties.all fun entry => entry.1 ∈ keys then some properties
      else none
  | _ => none

def array? : JsValue → Option (List JsValue)
  | array items => some items
  | _ => none

theorem strictObject?_eq_some_iff {keys : List JsString} {input : JsValue}
    {properties : List (JsString × JsValue)} :
    input.strictObject? keys = some properties ↔ input = object properties ∧
      (properties.all fun entry => entry.1 ∈ keys) = true := by
  cases input with
  | object entries =>
      simp only [strictObject?, Option.ite_none_right_eq_some,
        Option.some.injEq, object.injEq]
      constructor
      · rintro ⟨hkeys, rfl⟩
        exact ⟨rfl, hkeys⟩
      · rintro ⟨rfl, hkeys⟩
        exact ⟨hkeys, rfl⟩
  | _ => simp [strictObject?]

theorem string?_eq_some_iff {input : JsValue} {text : JsString} :
    input.string? = some text ↔ input = string text := by
  cases input <;> simp [string?]

theorem array?_eq_some_iff {input : JsValue} {items : List JsValue} :
    input.array? = some items ↔ input = array items := by
  cases input <;> simp [array?]

theorem property_eq_undefined_of_not_mem
    {properties : List (JsString × JsValue)} {key : JsString}
    (h : key ∉ properties.map Prod.fst) : property properties key = undefined := by
  rw [property, List.find?_eq_none.mpr]
  · rfl
  · intro entry hentry hname
    rw [decide_eq_true_eq] at hname
    exact h (hname ▸ List.mem_map_of_mem hentry)

end JsValue

/-- Parse every item, or fail. -/
def parseAll {α β : Type} (parse : α → Option β) : List α → Option (List β)
  | [] => some []
  | item :: rest => do
      let value ← parse item
      let values ← parseAll parse rest
      return value :: values

theorem parseAll_eq_some_iff {α β : Type} {parse : α → Option β}
    {items : List α} {values : List β} : parseAll parse items = some values ↔
      List.Forall₂ (fun item value => parse item = some value) items values := by
  constructor
  · intro h
    induction items generalizing values with
    | nil =>
        cases h
        exact .nil
    | cons item rest ih =>
        simp only [parseAll, Option.bind_eq_bind, Option.bind_eq_some_iff] at h
        obtain ⟨value, hvalue, others, hothers, heq⟩ := h
        cases heq
        exact .cons hvalue (ih hothers)
  · intro h
    induction h with
    | nil => rfl
    | cons hvalue _ ih => simp [parseAll, hvalue, ih]

/-- Every parsed value comes from an item. -/
theorem exists_rel_of_mem {α β : Type} {R : α → β → Prop} {items : List α}
    {values : List β} (h : List.Forall₂ R items values) {value : β}
    (hvalue : value ∈ values) : ∃ item ∈ items, R item value := by
  induction h with
  | nil => cases hvalue
  | cons hrel _ ih =>
      rcases List.mem_cons.mp hvalue with rfl | hvalue
      · exact ⟨_, List.mem_cons_self .., hrel⟩
      · obtain ⟨item, hitem, hrel⟩ := ih hvalue
        exact ⟨item, List.mem_cons_of_mem _ hitem, hrel⟩

end StatementAnalyzer
