/-
`JSON.parse`: the tokens of a text, and the arrays and objects that are open
while they are taken.  It reads back every text that `JSON.stringify` writes.
-/
import StatementAnalyzer.Js.PrintedTokens

namespace StatementAnalyzer

namespace JsValue

/-- A property with a key that the object has already replaces its value. -/
def setProperty (properties : List (JsString × JsValue)) (key : JsString)
    (value : JsValue) : List (JsString × JsValue) :=
  match properties with
  | [] => [(key, value)]
  | (other, old) :: rest =>
      if other = key then (key, value) :: rest
      else (other, old) :: setProperty rest key value

end JsValue

/-- An open array or object, with what it has so far. -/
inductive JsonFrame where
  | items (items : List JsValue)
  | members (properties : List (JsString × JsValue)) (key : JsString)

/-- What the parser stands in front of, and behind a value that value. -/
inductive JsonPosition where
  | value
  | firstItem
  | firstKey
  | key (properties : List (JsString × JsValue))
  | colon (properties : List (JsString × JsValue)) (key : JsString)
  | ended (value : JsValue)

structure JsonState where
  position : JsonPosition
  frames : List JsonFrame

/-- The first token of a value. -/
def beginValue (frames : List JsonFrame) : JsonToken → Option JsonState
  | .scalar value => some ⟨.ended value, frames⟩
  | .string text => some ⟨.ended (.string text), frames⟩
  | .beginArray => some ⟨.firstItem, frames⟩
  | .beginObject => some ⟨.firstKey, frames⟩
  | _ => none

/-- A token behind a value. -/
def endValue (value : JsValue) : List JsonFrame → JsonToken → Option JsonState
  | .items items :: frames, .comma =>
      some ⟨.value, .items (items ++ [value]) :: frames⟩
  | .items items :: frames, .endArray =>
      some ⟨.ended (.array (items ++ [value])), frames⟩
  | .members properties key :: frames, .comma =>
      some ⟨.key (JsValue.setProperty properties key value), frames⟩
  | .members properties key :: frames, .endObject =>
      some ⟨.ended (.object (JsValue.setProperty properties key value)), frames⟩
  | _, _ => none

def parseToken (state : JsonState) (token : JsonToken) : Option JsonState :=
  match state.position, token with
  | .value, token => beginValue state.frames token
  | .firstItem, .endArray => some ⟨.ended (.array []), state.frames⟩
  | .firstItem, token => beginValue (.items [] :: state.frames) token
  | .firstKey, .endObject => some ⟨.ended (.object []), state.frames⟩
  | .firstKey, .string key => some ⟨.colon [] key, state.frames⟩
  | .key properties, .string key => some ⟨.colon properties key, state.frames⟩
  | .colon properties key, .colon =>
      some ⟨.value, .members properties key :: state.frames⟩
  | .ended value, token => endValue value state.frames token
  | _, _ => none

/-- One value, and nothing open. -/
def JsonState.result? (state : JsonState) : Option JsValue :=
  match state.position, state.frames with
  | .ended value, [] => some value
  | _, _ => none

def parseTokens (tokens : List JsonToken) : Option JsValue := do
  let state ← tokens.foldlM parseToken ⟨.value, []⟩
  state.result?

/-- `JSON.parse`, `none` where it throws a SyntaxError. -/
def jsonParse (text : String) : Option JsValue := do
  let tokens ← jsonTokens text.toList
  parseTokens tokens

namespace JsValue

mutual

/-- No object has a key twice. -/
def hasDistinctKeys : JsValue → Bool
  | array items => allDistinct items
  | object properties =>
      (properties.map Prod.fst).Nodup && allDistinctProperties properties
  | _ => true

def allDistinct : List JsValue → Bool
  | [] => true
  | item :: rest => item.hasDistinctKeys && allDistinct rest

def allDistinctProperties : List (JsString × JsValue) → Bool
  | [] => true
  | (_, value) :: rest => value.hasDistinctKeys && allDistinctProperties rest

end

mutual

/-- The tokens of the text of a value. -/
def tokens : JsValue → List JsonToken
  | string text => [.string text]
  | array items => .beginArray :: itemTokens true items
  | object properties => .beginObject :: memberTokens true properties
  | value => [.scalar value]

def itemTokens (first : Bool) : List JsValue → List JsonToken
  | [] => [.endArray]
  | item :: rest =>
      (if first then [] else [.comma]) ++
        (item.tokens ++ itemTokens false rest)

def memberTokens (first : Bool) :
    List (JsString × JsValue) → List JsonToken
  | [] => [.endObject]
  | (key, value) :: rest =>
      (if first then [] else [.comma]) ++
        (.string key :: .colon :: (value.tokens ++ memberTokens false rest))

end

section Scanning

variable {rest : List Char} {others : List JsonToken}

theorem endsNumber_nil : EndsNumber [] :=
  fun _ _ h => absurd h.symm (List.cons_ne_nil _ _)

theorem endsNumber_cons {c : Char} (h : isNumberChar c = false ∧ c ≠ 'E')
    (rest : List Char) : EndsNumber (c :: rest) := by
  rintro _ _ ⟨⟩
  exact h

theorem endsNumber_itemsText (items : List JsValue) (rest : List Char) :
    EndsNumber (itemsText false items ++ rest) := by
  cases items with
  | nil => exact endsNumber_cons (by decide) _
  | cons item others => exact endsNumber_cons (by decide) _

theorem endsNumber_membersText {properties : List (JsString × JsValue)}
    (h : allFiniteProperties properties = true) (rest : List Char) :
    EndsNumber (membersText false properties ++ rest) := by
  cases properties with
  | nil => exact endsNumber_cons (by decide) _
  | cons property others =>
      rw [allFiniteProperties, Bool.and_eq_true] at h
      rw [membersText_cons h.1]
      exact endsNumber_cons (by decide) _

theorem lexes_separator (first : Bool) (h : Lexes rest others) :
    Lexes (separator first ++ rest)
      ((if first then [] else [.comma]) ++ others) := by
  cases first with
  | true => exact h
  | false => exact .token rfl h

theorem lexes_number {value : ℚ} (hdouble : IsDouble value)
    (hrest : EndsNumber rest) (h : Lexes rest others) :
    Lexes (numberToString value ++ rest) (.scalar (.number value) :: others) := by
  have hscan := scanNumber_numberToString hdouble hrest
  obtain ⟨c, tail, htext⟩ :=
    List.exists_cons_of_ne_nil (numberToString_ne_nil hdouble)
  have hkind : kindOf c = .number :=
    if_pos (isNumberChar_of_mem_numberToString value c (by simp [htext]))
  rw [htext, List.cons_append] at hscan ⊢
  refine .token ?_ h
  rw [scanToken, hkind]
  simp [hscan]

mutual

/-- The text of a value has the tokens of the value. -/
theorem lexes_jsonText : (value : JsValue) → value.isFinite = true →
    ∀ (rest : List Char) (others : List JsonToken), EndsNumber rest →
      Lexes rest others → Lexes (jsonText value ++ rest) (value.tokens ++ others)
  | null, _, _, _, _, h => .token rfl h
  | boolean true, _, _, _, _, h => .token rfl h
  | boolean false, _, _, _, _, h => .token rfl h
  | number _, hfinite, _, _, hrest, h =>
      lexes_number (of_decide_eq_true hfinite) hrest h
  | string text, _, rest, _, _, h => .token (scanToken_quote text rest) h
  | array items, hfinite, rest, others, _, h =>
      .token rfl (lexes_itemsText items hfinite true rest others h)
  | object properties, hfinite, rest, others, _, h =>
      .token rfl (lexes_membersText properties hfinite true rest others h)

theorem lexes_itemsText : (items : List JsValue) → allFinite items = true →
    ∀ (first : Bool) (rest : List Char) (others : List JsonToken),
      Lexes rest others →
      Lexes (itemsText first items ++ rest) (itemTokens first items ++ others)
  | [], _, _, _, _, h => .token rfl h
  | item :: items, hfinite, first, rest, others, h => by
      rw [allFinite, Bool.and_eq_true] at hfinite
      have hitems := lexes_itemsText items hfinite.2 false rest others h
      have hitem := lexes_jsonText item hfinite.1 _ _
        (endsNumber_itemsText items rest) hitems
      rw [itemsText, itemTokens, List.append_assoc, List.append_assoc,
        List.append_assoc, List.append_assoc]
      exact lexes_separator first hitem

theorem lexes_membersText : (properties : List (JsString × JsValue)) →
    allFiniteProperties properties = true →
    ∀ (first : Bool) (rest : List Char) (others : List JsonToken),
      Lexes rest others →
      Lexes (membersText first properties ++ rest)
        (memberTokens first properties ++ others)
  | [], _, _, _, _, h => .token rfl h
  | (key, value) :: properties, hfinite, first, rest, others, h => by
      rw [allFiniteProperties, Bool.and_eq_true] at hfinite
      have hmembers :=
        lexes_membersText properties hfinite.2 false rest others h
      have hvalue := lexes_jsonText value hfinite.1 _ _
        (endsNumber_membersText hfinite.2 rest) hmembers
      have hcolon : Lexes (':' :: (jsonText value ++
          (membersText false properties ++ rest))) (.colon :: (value.tokens ++
          (memberTokens false properties ++ others))) := .token rfl hvalue
      have hkey := Lexes.token (scanToken_quote key _) hcolon
      rw [membersText_cons hfinite.1, memberTokens]
      simp only [List.append_assoc, List.cons_append]
      exact lexes_separator first hkey

end

end Scanning

section Parsing

theorem setProperty_of_not_mem {properties : List (JsString × JsValue)}
    {key : JsString} (h : key ∉ properties.map Prod.fst) (value : JsValue) :
    setProperty properties key value = properties ++ [(key, value)] := by
  induction properties with
  | nil => rfl
  | cons property rest ih =>
      rw [List.map_cons, List.mem_cons, not_or] at h
      rw [setProperty, if_neg (Ne.symm h.1), ih h.2]
      rfl

theorem not_mem_of_nodup {before after : List (JsString × JsValue)}
    {key : JsString} {value : JsValue}
    (h : ((before ++ (key, value) :: after).map Prod.fst).Nodup) :
    key ∉ before.map Prod.fst := by
  rw [List.map_append, List.map_cons, List.nodup_append] at h
  exact fun hmem => h.2.2 key hmem key List.mem_cons_self rfl

/-- An item may follow where an array has just begun. -/
theorem parseTokens_firstItem (value : JsValue) (frames : List JsonFrame)
    (rest : List JsonToken) :
    (value.tokens ++ rest).foldlM parseToken ⟨.firstItem, frames⟩ =
      (value.tokens ++ rest).foldlM parseToken
        ⟨.value, .items [] :: frames⟩ := by
  cases value <;> rfl

mutual

/-- Behind the tokens of a value stands the value. -/
theorem parse_tokens : (value : JsValue) → value.hasDistinctKeys = true →
    ∀ (frames : List JsonFrame) (rest : List JsonToken),
      (value.tokens ++ rest).foldlM parseToken ⟨.value, frames⟩ =
        rest.foldlM parseToken ⟨.ended value, frames⟩
  | undefined, _, _, _ => rfl
  | null, _, _, _ => rfl
  | boolean _, _, _, _ => rfl
  | number _, _, _, _ => rfl
  | nan, _, _, _ => rfl
  | infinity _, _, _, _ => rfl
  | string _, _, _, _ => rfl
  | array [], _, _, _ => rfl
  | array (item :: items), h, frames, rest => by
      rw [hasDistinctKeys, allDistinct, Bool.and_eq_true] at h
      have hitem := parse_tokens item h.1 (.items [] :: frames)
        (itemTokens false items ++ rest)
      have hitems := parse_itemTokens items h.2 item [] frames rest
      rw [← parseTokens_firstItem, hitems] at hitem
      have htokens : (array (item :: items)).tokens ++ rest = .beginArray ::
          (item.tokens ++ (itemTokens false items ++ rest)) := by
        simp [tokens, itemTokens]
      rw [htokens]
      exact hitem
  | object [], _, _, _ => rfl
  | object ((key, value) :: properties), h, frames, rest => by
      rw [hasDistinctKeys, allDistinctProperties, Bool.and_eq_true,
        Bool.and_eq_true, decide_eq_true_eq] at h
      have hvalue := parse_tokens value h.2.1 (.members [] key :: frames)
        (memberTokens false properties ++ rest)
      have hmembers := parse_memberTokens properties h.2.2 [] key value frames
        rest h.1
      rw [hmembers] at hvalue
      have htokens : (object ((key, value) :: properties)).tokens ++ rest =
          .beginObject :: .string key :: .colon ::
            (value.tokens ++ (memberTokens false properties ++ rest)) := by
        simp [tokens, memberTokens]
      rw [htokens]
      exact hvalue

theorem parse_itemTokens : (items : List JsValue) →
    allDistinct items = true →
    ∀ (item : JsValue) (before : List JsValue) (frames : List JsonFrame)
      (rest : List JsonToken),
      (itemTokens false items ++ rest).foldlM parseToken
          ⟨.ended item, .items before :: frames⟩ =
        rest.foldlM parseToken
          ⟨.ended (.array (before ++ item :: items)), frames⟩
  | [], _, _, _, _, _ => rfl
  | next :: items, h, item, before, frames, rest => by
      rw [allDistinct, Bool.and_eq_true] at h
      have hnext := parse_tokens next h.1 (.items (before ++ [item]) :: frames)
        (itemTokens false items ++ rest)
      have hitems := parse_itemTokens items h.2 next (before ++ [item]) frames
        rest
      rw [hitems, List.append_assoc] at hnext
      have htokens : itemTokens false (next :: items) ++ rest = .comma ::
          (next.tokens ++ (itemTokens false items ++ rest)) := by
        simp [itemTokens]
      rw [htokens]
      exact hnext

theorem parse_memberTokens : (properties : List (JsString × JsValue)) →
    allDistinctProperties properties = true →
    ∀ (before : List (JsString × JsValue)) (key : JsString) (value : JsValue)
      (frames : List JsonFrame) (rest : List JsonToken),
      ((before ++ (key, value) :: properties).map Prod.fst).Nodup →
      (memberTokens false properties ++ rest).foldlM parseToken
          ⟨.ended value, .members before key :: frames⟩ =
        rest.foldlM parseToken
          ⟨.ended (.object (before ++ (key, value) :: properties)), frames⟩
  | [], _, before, key, value, frames, rest, hnodup => by
      have hset := setProperty_of_not_mem (not_mem_of_nodup hnodup) value
      rw [← hset]
      rfl
  | (next, value') :: properties, h, before, key, value, frames, rest,
      hnodup => by
      rw [allDistinctProperties, Bool.and_eq_true] at h
      have hset := setProperty_of_not_mem (not_mem_of_nodup hnodup) value
      have hnodup' : ((before ++ [(key, value)] ++
          (next, value') :: properties).map Prod.fst).Nodup := by
        rw [List.append_assoc]
        exact hnodup
      have hvalue := parse_tokens value' h.1
        (.members (before ++ [(key, value)]) next :: frames)
        (memberTokens false properties ++ rest)
      have hmembers := parse_memberTokens properties h.2
        (before ++ [(key, value)]) next value' frames rest hnodup'
      rw [hmembers, List.append_assoc, ← hset] at hvalue
      have htokens : memberTokens false ((next, value') :: properties) ++ rest =
          .comma :: .string next :: .colon ::
            (value'.tokens ++ (memberTokens false properties ++ rest)) := by
        simp [memberTokens]
      rw [htokens]
      exact hvalue

end

end Parsing

/-- What `JSON.stringify` writes is read back by `JSON.parse`. -/
theorem jsonParse_jsonText {value : JsValue} (hfinite : value.isFinite = true)
    (hkeys : value.hasDistinctKeys = true) :
    jsonParse (String.ofList (jsonText value)) = some value := by
  have hlexes := lexes_jsonText value hfinite [] [] endsNumber_nil .nil
  have hparse := parse_tokens value hkeys [] []
  rw [List.append_nil] at hlexes hparse
  rw [jsonParse, String.toList_ofList, jsonTokens_eq_some_iff.mpr hlexes,
    List.append_nil, Option.bind_eq_bind, Option.bind_some, parseTokens, hparse]
  rfl

end JsValue

end StatementAnalyzer
