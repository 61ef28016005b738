/-
`JSON.stringify`, without indentation.  Its text is a sequence of characters, as
a surrogate without its partner is escaped; no two values share a text.
-/
import StatementAnalyzer.Js.CodePoints
import StatementAnalyzer.Js.NumberText
import StatementAnalyzer.Js.Value

namespace StatementAnalyzer

/-- `\u` and four hexadecimal digits. -/
def unicodeEscape (n : Nat) : List Char :=
  ['\\', 'u', (n / 4096 % 16).digitChar, (n / 256 % 16).digitChar,
    (n / 16 % 16).digitChar, (n % 16).digitChar]

/-- The characters that are escaped by a letter or by themselves. -/
def shortEscapes : List (Nat × Char) :=
  [(0x08, 'b'), (0x09, 't'), (0x0A, 'n'), (0x0C, 'f'), (0x0D, 'r'),
    (0x22, '"'), (0x5C, '\\')]

def shortEscape (n : Nat) : Option Char :=
  (shortEscapes.find? fun entry => entry.1 = n).map Prod.snd

def escape : CodePoint → List Char
  | .surrogate unit _ => unicodeEscape unit.toNat
  | .scalar c =>
      match shortEscape c.toNat with
      | some mark => ['\\', mark]
      | none => if c.toNat < 0x20 then unicodeEscape c.toNat else [c]

/-- `QuoteJSONString`. -/
def quote (text : JsString) : List Char :=
  '"' :: (codePoints text).flatMap escape ++ ['"']

def separator (first : Bool) : List Char :=
  if first then [] else [',']

mutual

/-- `SerializeJSONProperty`; a missing item of an array is written as null. -/
def jsonText : JsValue → List Char
  | .undefined | .null | .nan | .infinity _ => ['n', 'u', 'l', 'l']
  | .boolean true => ['t', 'r', 'u', 'e']
  | .boolean false => ['f', 'a', 'l', 's', 'e']
  | .number value => numberToString value
  | .string text => quote text
  | .array items => '[' :: itemsText true items
  | .object properties => '{' :: membersText true properties

def itemsText (first : Bool) : List JsValue → List Char
  | [] => [']']
  | item :: rest => separator first ++ (jsonText item ++ itemsText false rest)

def membersText (first : Bool) : List (JsString × JsValue) → List Char
  | [] => ['}']
  | (_, .undefined) :: rest => membersText first rest
  | (key, value) :: rest =>
      separator first ++
        (quote key ++ ':' :: (jsonText value ++ membersText false rest))

end

/-- `JSON.stringify(value)`, absent where it is `undefined`. -/
def stringify : JsValue → Option String
  | .undefined => none
  | value => some (String.ofList (jsonText value))

example : stringify (.object [(js "name", .string (js "a\"\n😀" ++ [0xD800])),
    (js "gone", .undefined), (js "items", .array [.number 12, .null])]) =
    some "\x7b\"name\":\"a\\\"\\n😀\\ud800\",\"items\":[12,null]\x7d" := by
  decide +kernel

section Escapes

def hexValue (c : Char) : Nat :=
  if c.toNat < 0x3A then c.toNat - 0x30 else c.toNat - 0x57

def codePoint (n : Nat) : CodePoint :=
  if h : isSurrogate (UInt16.ofNat n) = true then .surrogate (UInt16.ofNat n) h
  else .scalar (Char.ofNat n)

/-- The character that a letter or a mark stands for after a backslash. -/
def unescapeMark (mark : Char) : Char :=
  ((shortEscapes.find? fun entry => entry.2 = mark).map fun entry =>
    Char.ofNat entry.1).getD mark

/-- The first code point of an escaped text, and what is left of the text. -/
def unescape : List Char → Option (CodePoint × List Char)
  | [] => none
  | c :: rest =>
      if c ≠ '\\' then some (.scalar c, rest)
      else
        match rest with
        | 'u' :: a :: b :: c :: d :: rest =>
            some (codePoint (hexValue a * 4096 + hexValue b * 256 +
              hexValue c * 16 + hexValue d), rest)
        | mark :: rest => some (.scalar (unescapeMark mark), rest)
        | [] => none

theorem hexValue_digitChar {n : Nat} (h : n < 16) :
    hexValue n.digitChar = n := by
  have hall : ∀ n < 16, hexValue (Nat.digitChar n) = n := by decide
  exact hall n h

theorem unescape_unicodeEscape {n : Nat} (h : n < 65536) (rest : List Char) :
    unescape (unicodeEscape n ++ rest) = some (codePoint n, rest) := by
  have hcode : n / 4096 % 16 * 4096 + n / 256 % 16 * 256 + n / 16 % 16 * 16 +
      n % 16 = n := by omega
  simp [unicodeEscape, unescape, hexValue_digitChar, Nat.mod_lt, hcode]

theorem shortEscape_eq_some {c mark : Char}
    (h : shortEscape c.toNat = some mark) :
    unescapeMark mark = c ∧ mark ≠ 'u' ∧ 0x20 ≤ mark.toNat := by
  have hall : ∀ entry ∈ shortEscapes,
      unescapeMark entry.2 = Char.ofNat entry.1 ∧ entry.2 ≠ 'u' ∧
        0x20 ≤ entry.2.toNat := by decide
  obtain ⟨entry, hentry, rfl⟩ := Option.map_eq_some_iff.mp h
  have hcode := List.find?_some hentry
  rw [decide_eq_true_eq] at hcode
  rw [← Char.ofNat_toNat c, ← hcode]
  exact hall entry (List.mem_of_find?_eq_some hentry)

theorem shortEscape_eq_none {c : Char} (h : shortEscape c.toNat = none) :
    c ≠ '"' ∧ c ≠ '\\' := by
  constructor
  · rintro rfl
    exact absurd h (by decide)
  · rintro rfl
    exact absurd h (by decide)

theorem codePoint_control {c : Char} (h : c.toNat < 0x20) :
    codePoint c.toNat = .scalar c := by
  have hall : ∀ n < 0x20, isSurrogate (UInt16.ofNat n) = false := by decide
  simp [codePoint, hall _ h]

/-- An escape is read back, whatever follows it. -/
theorem unescape_escape (point : CodePoint) (rest : List Char) :
    unescape (escape point ++ rest) = some (point, rest) := by
  cases point with
  | surrogate unit h =>
      rw [escape, unescape_unicodeEscape unit.toNat_lt, codePoint]
      simp [h]
  | scalar c =>
      rw [escape]
      split
      · rename_i mark hmark
        obtain ⟨hback, hu, -⟩ := shortEscape_eq_some hmark
        simp [unescape, hback, hu]
      · rename_i hnone
        obtain ⟨-, hbackslash⟩ := shortEscape_eq_none hnone
        split
        · rename_i hcontrol
          rw [unescape_unicodeEscape (by omega), codePoint_control hcontrol]
        · simp [unescape, hbackslash]

/-- An escape does not begin like the end of the string. -/
theorem escape_ne_quotation (point : CodePoint) (rest rest' : List Char) :
    escape point ++ rest ≠ '"' :: rest' := by
  intro h
  have hread := unescape_escape point rest
  rw [h] at hread
  have hquotation : unescape ('"' :: rest') = some (.scalar '"', rest') := rfl
  rw [hquotation] at hread
  obtain ⟨rfl, rfl⟩ := Prod.mk.inj (Option.some.inj hread)
  rw [escape] at h
  have hescaped : shortEscape '"'.toNat = some '"' := by decide
  rw [hescaped] at h
  cases h

/-- The closing mark tells where a string ends. -/
theorem escapes_append_inj (points points' : List CodePoint)
    {rest rest' : List Char}
    (h : points.flatMap escape ++ '"' :: rest =
      points'.flatMap escape ++ '"' :: rest') :
    points = points' ∧ rest = rest' := by
  induction points generalizing points' with
  | nil =>
      cases points' with
      | nil => exact ⟨rfl, (List.cons.inj h).2⟩
      | cons point' others' =>
          rw [List.flatMap_cons, List.append_assoc] at h
          exact absurd h.symm (escape_ne_quotation _ _ _)
  | cons point others ih =>
      rw [List.flatMap_cons, List.append_assoc] at h
      cases points' with
      | nil => exact absurd h (escape_ne_quotation _ _ _)
      | cons point' others' =>
          rw [List.flatMap_cons, List.append_assoc] at h
          have hread := unescape_escape point (others.flatMap escape ++ '"' :: rest)
          rw [h, unescape_escape] at hread
          obtain ⟨rfl, hothers⟩ := Prod.mk.inj (Option.some.inj hread)
          obtain ⟨rfl, hrest⟩ := ih others' hothers.symm
          exact ⟨rfl, hrest⟩

theorem quote_append_inj {text text' : JsString} {rest rest' : List Char}
    (h : quote text ++ rest = quote text' ++ rest') :
    text = text' ∧ rest = rest' := by
  simp only [quote, List.append_assoc, List.cons_append, List.nil_append,
    List.cons.injEq, true_and] at h
  obtain ⟨hpoints, hrest⟩ := escapes_append_inj _ _ h
  exact ⟨codePoints_injective hpoints, hrest⟩

end Escapes

namespace JsValue

mutual

/-- A value that JSON can denote, with doubles for its numbers. -/
def isFinite : JsValue → Bool
  | undefined | nan | infinity _ => false
  | null | boolean _ | string _ => true
  | number value => toDouble value = some value
  | array items => allFinite items
  | object properties => allFiniteProperties properties

def allFinite : List JsValue → Bool
  | [] => true
  | item :: rest => item.isFinite && allFinite rest

def allFiniteProperties : List (JsString × JsValue) → Bool
  | [] => true
  | (_, value) :: rest => value.isFinite && allFiniteProperties rest

end

/-- What the first character of a text says about the value. -/
inductive Kind where
  | null
  | true
  | false
  | number
  | string
  | array
  | object
  | none
deriving DecidableEq

def kind : JsValue → Kind
  | undefined | null | nan | infinity _ => .null
  | boolean value => if value then .true else .false
  | number _ => .number
  | string _ => .string
  | array _ => .array
  | object _ => .object

def kindOf (c : Char) : Kind :=
  if isNumberChar c then .number
  else if c = 'n' then .null
  else if c = 't' then .true
  else if c = 'f' then .false
  else if c = '"' then .string
  else if c = '[' then .array
  else if c = '\x7b' then .object
  else .none

/-- What follows does not go on with a number. -/
def Delimited (rest : List Char) : Prop :=
  ∀ c others, rest = c :: others → isNumberChar c = false

theorem delimited_cons {c : Char} (h : isNumberChar c = false)
    (rest : List Char) : Delimited (c :: rest) := by
  rintro _ _ ⟨⟩
  exact h

theorem delimited_nil : Delimited [] :=
  fun _ _ h => absurd h.symm (List.cons_ne_nil _ _)

theorem jsonText_head {value : JsValue} (h : value.isFinite = true) :
    ∃ c rest, jsonText value = c :: rest ∧ kindOf c = value.kind := by
  cases value with
  | undefined | nan | infinity _ => cases h
  | null => exact ⟨'n', _, rfl, by decide⟩
  | boolean value =>
      cases value with
      | true => exact ⟨'t', _, rfl, by decide⟩
      | false => exact ⟨'f', _, rfl, by decide⟩
  | number value =>
      have hdouble : IsDouble value := of_decide_eq_true h
      obtain ⟨c, rest, htext⟩ :=
        List.exists_cons_of_ne_nil (numberToString_ne_nil hdouble)
      have hc := isNumberChar_of_mem_numberToString value c (by simp [htext])
      exact ⟨c, rest, by rw [jsonText, htext], by rw [kindOf, if_pos hc, kind]⟩
  | string text => exact ⟨'"', _, rfl, rfl⟩
  | array items => exact ⟨'[', _, rfl, rfl⟩
  | object properties => exact ⟨'\x7b', _, rfl, rfl⟩

section Unambiguous

variable {value value' : JsValue} {rest rest' : List Char}

theorem kind_eq (h : value.isFinite = true) (h' : value'.isFinite = true)
    (heq : jsonText value ++ rest = jsonText value' ++ rest') :
    value.kind = value'.kind := by
  obtain ⟨c, others, htext, hkind⟩ := jsonText_head h
  obtain ⟨c', others', htext', hkind'⟩ := jsonText_head h'
  rw [htext, htext'] at heq
  rw [← hkind, ← hkind', (List.cons.inj heq).1]

/-- A value does not begin with what ends a list or goes on with it. -/
theorem jsonText_append_ne {c : Char} (h : value.isFinite = true)
    (hc : kindOf c = .none) : jsonText value ++ rest ≠ c :: rest' := by
  intro heq
  obtain ⟨first, others, htext, hkind⟩ := jsonText_head h
  rw [htext] at heq
  rw [(List.cons.inj heq).1, hc] at hkind
  cases value with
  | boolean value => cases value <;> cases hkind
  | undefined | null | nan | infinity _ | number _ | string _ | array _
  | object _ => cases hkind

/-- A number ends where its characters end. -/
theorem numberText_append_inj {text text' : List Char}
    (htext : ∀ c ∈ text, isNumberChar c = true)
    (htext' : ∀ c ∈ text', isNumberChar c = true)
    (hrest : Delimited rest) (hrest' : Delimited rest')
    (heq : text ++ rest = text' ++ rest') : text = text' ∧ rest = rest' := by
  have hspan : ∀ {rest : List Char}, Delimited rest →
      rest.takeWhile isNumberChar = [] := by
    intro rest hrest
    cases rest with
    | nil => rfl
    | cons c others => simp [hrest c others rfl]
  have htake := congrArg (List.takeWhile isNumberChar) heq
  rw [List.takeWhile_append_of_pos htext, List.takeWhile_append_of_pos htext',
    hspan hrest, hspan hrest', List.append_nil, List.append_nil] at htake
  subst htake
  exact ⟨rfl, List.append_cancel_left heq⟩

theorem delimited_itemsText (items : List JsValue) (rest : List Char) :
    Delimited (itemsText false items ++ rest) := by
  cases items with
  | nil => exact delimited_cons (by decide) _
  | cons item others => exact delimited_cons (by decide) _

theorem delimited_membersText (properties : List (JsString × JsValue))
    (rest : List Char) : Delimited (membersText false properties ++ rest) := by
  induction properties with
  | nil => exact delimited_cons (by decide) _
  | cons property others ih =>
      obtain ⟨key, value⟩ := property
      cases value with
      | undefined => exact ih
      | null | boolean _ | number _ | nan | infinity _ | string _ | array _
      | object _ => exact delimited_cons (by decide) _

theorem separator_append_ne {c : Char} (hc : kindOf c = .none)
    (hcomma : c ≠ ',') (hvalue : value.isFinite = true) (first : Bool) :
    separator first ++ (jsonText value ++ rest) ≠ c :: rest' := by
  cases first with
  | true => exact jsonText_append_ne hvalue hc
  | false => exact fun heq => hcomma (List.cons.inj heq).1.symm

theorem separator_quote_ne {c : Char} {key : JsString} (hc : c ≠ '"')
    (hcomma : c ≠ ',') (first : Bool) :
    separator first ++ (quote key ++ rest) ≠ c :: rest' := by
  cases first with
  | true => exact fun heq => hc (List.cons.inj heq).1.symm
  | false => exact fun heq => hcomma (List.cons.inj heq).1.symm

theorem membersText_cons {key : JsString} (h : value.isFinite = true)
    (first : Bool) (properties : List (JsString × JsValue)) :
    membersText first ((key, value) :: properties) = separator first ++
      (quote key ++ ':' :: (jsonText value ++ membersText false properties)) := by
  cases value with
  | undefined => cases h
  | null | boolean _ | number _ | nan | infinity _ | string _ | array _
  | object _ => rfl

end Unambiguous

mutual

/-- The text of a value tells which value it is and where it ends. -/
theorem jsonText_append_inj : (value : JsValue) → value.isFinite = true →
    ∀ (value' : JsValue) (rest rest' : List Char), value'.isFinite = true →
      Delimited rest → Delimited rest' →
      jsonText value ++ rest = jsonText value' ++ rest' →
      value = value' ∧ rest = rest'
  | null, h, value', rest, rest', h', _, _, heq => by
      have hkind := kind_eq h h' heq
      cases value' with
      | null => exact ⟨rfl, List.append_cancel_left heq⟩
      | boolean value => cases value <;> cases hkind
      | undefined | nan | infinity _ => cases h'
      | number _ | string _ | array _ | object _ => cases hkind
  | boolean value, h, value', rest, rest', h', _, _, heq => by
      have hkind := kind_eq h h' heq
      cases value' with
      | boolean value' =>
          have hvalue : value = value' := by
            cases value <;> cases value' <;> first | rfl | cases hkind
          subst hvalue
          exact ⟨rfl, List.append_cancel_left heq⟩
      | undefined | nan | infinity _ => cases h'
      | null | number _ | string _ | array _ | object _ =>
          cases value <;> cases hkind
  | number value, h, value', rest, rest', h', hrest, hrest', heq => by
      have hkind := kind_eq h h' heq
      cases value' with
      | number value' =>
          obtain ⟨htext, hends⟩ := numberText_append_inj
            (isNumberChar_of_mem_numberToString value)
            (isNumberChar_of_mem_numberToString value') hrest hrest' heq
          have hvalue := numberToString_injective (of_decide_eq_true h)
            (of_decide_eq_true h') htext
          exact ⟨congrArg number hvalue, hends⟩
      | boolean value => cases value <;> cases hkind
      | undefined | nan | infinity _ => cases h'
      | null | string _ | array _ | object _ => cases hkind
  | string text, h, value', rest, rest', h', _, _, heq => by
      have hkind := kind_eq h h' heq
      cases value' with
      | string text' =>
          obtain ⟨htext, hends⟩ := quote_append_inj heq
          exact ⟨congrArg string htext, hends⟩
      | boolean value => cases value <;> cases hkind
      | undefined | nan | infinity _ => cases h'
      | null | number _ | array _ | object _ => cases hkind
  | array items, h, value', rest, rest', h', _, _, heq => by
      have hkind := kind_eq h h' heq
      cases value' with
      | array items' =>
          obtain ⟨hitems, hends⟩ := itemsText_append_inj items h true items'
            rest rest' h' (List.cons.inj heq).2
          exact ⟨congrArg array hitems, hends⟩
      | boolean value => cases value <;> cases hkind
      | undefined | nan | infinity _ => cases h'
      | null | number _ | string _ | object _ => cases hkind
  | object properties, h, value', rest, rest', h', _, _, heq => by
      have hkind := kind_eq h h' heq
      cases value' with
      | object properties' =>
          obtain ⟨hproperties, hends⟩ := membersText_append_inj properties h
            true properties' rest rest' h' (List.cons.inj heq).2
          exact ⟨congrArg object hproperties, hends⟩
      | boolean value => cases value <;> cases hkind
      | undefined | nan | infinity _ => cases h'
      | null | number _ | string _ | array _ => cases hkind

theorem itemsText_append_inj : (items : List JsValue) →
    allFinite items = true → ∀ (first : Bool) (items' : List JsValue)
      (rest rest' : List Char), allFinite items' = true →
      itemsText first items ++ rest = itemsText first items' ++ rest' →
      items = items' ∧ rest = rest'
  | [], _, first, [], rest, rest', _, heq => ⟨rfl, (List.cons.inj heq).2⟩
  | [], _, first, item' :: others', rest, rest', h', heq => by
      rw [allFinite, Bool.and_eq_true] at h'
      simp only [itemsText, List.append_assoc] at heq
      exact absurd heq.symm
        (separator_append_ne (by decide) (by decide) h'.1 first)
  | item :: others, h, first, [], rest, rest', _, heq => by
      rw [allFinite, Bool.and_eq_true] at h
      simp only [itemsText, List.append_assoc] at heq
      exact absurd heq (separator_append_ne (by decide) (by decide) h.1 first)
  | item :: others, h, first, item' :: others', rest, rest', h', heq => by
      rw [allFinite, Bool.and_eq_true] at h h'
      simp only [itemsText, List.append_assoc] at heq
      obtain ⟨rfl, hothers⟩ := jsonText_append_inj item h.1 item' _ _ h'.1
        (delimited_itemsText others rest) (delimited_itemsText others' rest')
        (List.append_cancel_left heq)
      obtain ⟨rfl, hends⟩ := itemsText_append_inj others h.2 false others' rest
        rest' h'.2 hothers
      exact ⟨rfl, hends⟩

theorem membersText_append_inj : (properties : List (JsString × JsValue)) →
    allFiniteProperties properties = true → ∀ (first : Bool)
      (properties' : List (JsString × JsValue)) (rest rest' : List Char),
      allFiniteProperties properties' = true →
      membersText first properties ++ rest =
        membersText first properties' ++ rest' →
      properties = properties' ∧ rest = rest'
  | [], _, first, [], rest, rest', _, heq => ⟨rfl, (List.cons.inj heq).2⟩
  | [], _, first, (key', value') :: others', rest, rest', h', heq => by
      rw [allFiniteProperties, Bool.and_eq_true] at h'
      rw [membersText_cons h'.1] at heq
      simp only [membersText, List.append_assoc] at heq
      exact absurd heq.symm (separator_quote_ne (by decide) (by decide) first)
  | (key, value) :: others, h, first, [], rest, rest', _, heq => by
      rw [allFiniteProperties, Bool.and_eq_true] at h
      rw [membersText_cons h.1] at heq
      simp only [membersText, List.append_assoc] at heq
      exact absurd heq (separator_quote_ne (by decide) (by decide) first)
  | (key, value) :: others, h, first, (key', value') :: others', rest, rest',
      h', heq => by
      rw [allFiniteProperties, Bool.and_eq_true] at h h'
      rw [membersText_cons h.1, membersText_cons h'.1] at heq
      simp only [List.append_assoc] at heq
      obtain ⟨rfl, htail⟩ := quote_append_inj (List.append_cancel_left heq)
      simp only [List.cons_append, List.cons.injEq, true_and,
        List.append_assoc] at htail
      obtain ⟨rfl, hothers⟩ := jsonText_append_inj value h.1 value' _ _ h'.1
        (delimited_membersText others rest)
        (delimited_membersText others' rest') htail
      obtain ⟨rfl, hends⟩ := membersText_append_inj others h.2 false others' rest
        rest' h'.2 hothers
      exact ⟨rfl, hends⟩

end

/-- No two values share a text. -/
theorem jsonText_injective {value value' : JsValue} (h : value.isFinite = true)
    (h' : value'.isFinite = true) (heq : jsonText value = jsonText value') :
    value = value' := by
  have happend : jsonText value ++ [] = jsonText value' ++ [] := by rw [heq]
  exact (jsonText_append_inj value h value' [] [] h' delimited_nil delimited_nil
    happend).1

section Printable

/-- No control character: the text is one line. -/
def Printable (text : List Char) : Prop :=
  ∀ c ∈ text, 0x20 ≤ c.toNat

theorem printable_append {text text' : List Char} (h : Printable text)
    (h' : Printable text') : Printable (text ++ text') :=
  List.forall_mem_append.mpr ⟨h, h'⟩

theorem printable_cons {c : Char} {text : List Char} (hc : 0x20 ≤ c.toNat)
    (h : Printable text) : Printable (c :: text) :=
  List.forall_mem_cons.mpr ⟨hc, h⟩

theorem printable_digitChar {n : Nat} (h : n < 16) :
    0x20 ≤ n.digitChar.toNat := by
  have hall : ∀ n < 16, 0x20 ≤ (Nat.digitChar n).toNat := by decide
  exact hall n h

theorem printable_unicodeEscape (n : Nat) : Printable (unicodeEscape n) := by
  have hdigit : ∀ n, 0x20 ≤ (n % 16).digitChar.toNat :=
    fun n => printable_digitChar (Nat.mod_lt n (by omega))
  intro c hc
  simp only [unicodeEscape, List.mem_cons, List.not_mem_nil, or_false] at hc
  rcases hc with rfl | rfl | rfl | rfl | rfl | rfl
  · decide
  · decide
  · exact hdigit _
  · exact hdigit _
  · exact hdigit _
  · exact hdigit _

theorem printable_escape (point : CodePoint) : Printable (escape point) := by
  cases point with
  | surrogate unit h => exact printable_unicodeEscape _
  | scalar c =>
      rw [escape]
      split
      · rename_i mark hmark
        obtain ⟨-, -, hprintable⟩ := shortEscape_eq_some hmark
        exact printable_cons (by decide) (printable_cons hprintable (by simp
          [Printable]))
      · split
        · exact printable_unicodeEscape _
        · exact printable_cons (by omega) (by simp [Printable])

theorem printable_quote (text : JsString) : Printable (quote text) := by
  have hpoints : Printable ((codePoints text).flatMap escape) := by
    intro c hc
    obtain ⟨point, -, hmem⟩ := List.mem_flatMap.mp hc
    exact printable_escape point c hmem
  exact printable_cons (by decide)
    (printable_append hpoints (by simp [Printable]))

theorem printable_numberToString (value : ℚ) :
    Printable (numberToString value) := by
  intro c hc
  have hnumber := isNumberChar_of_mem_numberToString value c hc
  simp only [isNumberChar, Bool.or_eq_true, decide_eq_true_eq] at hnumber
  rcases hnumber with (((hdigit | rfl) | rfl) | rfl) | rfl
  · simp only [Char.isDigit, Bool.and_eq_true, decide_eq_true_eq] at hdigit
    have hle : 48 ≤ c.toNat := UInt32.le_iff_toNat_le.mp hdigit.1
    omega
  · decide
  · decide
  · decide
  · decide

theorem printable_separator (first : Bool) : Printable (separator first) := by
  cases first <;> simp [separator, Printable]

mutual

theorem printable_jsonText : (value : JsValue) → Printable (jsonText value)
  | undefined | null | nan | infinity _ => by simp [jsonText, Printable]
  | boolean value => by cases value <;> simp [jsonText, Printable]
  | number value => printable_numberToString value
  | string text => printable_quote text
  | array items => printable_cons (by decide) (printable_itemsText true items)
  | object properties =>
      printable_cons (by decide) (printable_membersText true properties)

theorem printable_itemsText (first : Bool) :
    (items : List JsValue) → Printable (itemsText first items)
  | [] => by simp [itemsText, Printable]
  | item :: others => printable_append (printable_separator first)
      (printable_append (printable_jsonText item)
        (printable_itemsText false others))

theorem printable_membersText (first : Bool) :
    (properties : List (JsString × JsValue)) →
      Printable (membersText first properties)
  | [] => by simp [membersText, Printable]
  | (key, value) :: others => by
      have hothers := printable_membersText false others
      have hmember := printable_append (printable_separator first)
        (printable_append (printable_quote key) (printable_cons (c := ':')
          (by decide) (printable_append (printable_jsonText value) hothers)))
      cases value with
      | undefined => exact printable_membersText first others
      | null | boolean _ | number _ | nan | infinity _ | string _ | array _
      | object _ => exact hmember

end

end Printable

end JsValue

end StatementAnalyzer
