/-
The two schemas of the OCR result and `parseOcrToolInput`.  A failed parse
throws an Error; its message is only ever passed on in another error's message,
which nothing reads.
-/
import StatementAnalyzer.Database.Columns
import StatementAnalyzer.Errors
import StatementAnalyzer.Js.Schema

namespace StatementAnalyzer

def MAX_OCR_TRANSACTIONS : Nat := 100

inductive OcrCategory where
  | food
  | transport
  | shopping
  | entertainment
  | subscription
  | travel
  | other
deriving DecidableEq, Repr

def OcrCategory.text : OcrCategory → JsString
  | food => js "食費"
  | transport => js "交通"
  | shopping => js "買い物"
  | entertainment => js "娯楽"
  | subscription => js "サブスク"
  | travel => js "旅行"
  | other => js "その他"

def OCR_CATEGORIES : List OcrCategory :=
  [.food, .transport, .shopping, .entertainment, .subscription, .travel, .other]

inductive OcrSubcategory where
  | eatingOut
  | convenienceStore
  | supermarket
  | cafe
  | train
  | taxi
  | airplane
  | dailyGoods
  | clothes
  | onlineShop
  | none
deriving DecidableEq, Repr

def OcrSubcategory.text : OcrSubcategory → JsString
  | eatingOut => js "外食"
  | convenienceStore => js "コンビニ"
  | supermarket => js "スーパー"
  | cafe => js "カフェ"
  | train => js "電車"
  | taxi => js "タクシー"
  | airplane => js "飛行機"
  | dailyGoods => js "日用品"
  | clothes => js "衣服"
  | onlineShop => js "EC"
  | none => js "なし"

def OCR_SUBCATEGORIES : List OcrSubcategory :=
  [.eatingOut, .convenienceStore, .supermarket, .cafe, .train, .taxi, .airplane,
    .dailyGoods, .clothes, .onlineShop, .none]

def subcategoriesByCategory : OcrCategory → List JsString
  | .food => [js "外食", js "コンビニ", js "スーパー", js "カフェ"]
  | .transport => [js "電車", js "タクシー", js "飛行機"]
  | .shopping => [js "日用品", js "衣服", js "EC"]
  | .entertainment => []
  | .subscription => []
  | .travel => []
  | .other => []

/-- A transaction as the tool reports it. -/
structure OcrToolTransaction where
  transactionDate : JsString
  merchantRaw : JsString
  merchantName : JsString
  amount : Int
  category : OcrCategory
  subcategory : OcrSubcategory
  lineNumber : Int

structure OcrTransaction where
  transactionDate : JsString
  merchantRaw : JsString
  merchantName : JsString
  amount : Int
  category : OcrCategory
  subcategory : Option JsString
  lineNumber : Int
deriving DecidableEq, Repr

structure OcrResult where
  transactions : List OcrTransaction
deriving DecidableEq, Repr

/-- `new Date(Date.UTC(year, month - 1, day))`, read back, for a month and a
day of at most two digits: years below 100 mean the twentieth century, and days
past the end of the month run over into the next. -/
def utcDate (year month day : Nat) : Nat × Nat × Nat :=
  let year := if year ≤ 99 then 1900 + year else year
  if day ≤ daysInMonth year month then (year, month, day)
  else if month = 12 then (year + 1, 1, day - daysInMonth year month)
  else (year, month + 1, day - daysInMonth year month)

def isValidCalendarDate (value : JsString) : Bool :=
  (dateParts value).any fun (year, month, day) =>
    utcDate year month day = (year, month, day)

/-- `^\d{4}-(0[1-9]|1[0-2])-(0[1-9]|[12]\d|3[01])$`. -/
def isDateText (value : JsString) : Bool :=
  (dateParts value).any fun (_, month, day) =>
    1 ≤ month && month ≤ 12 && 1 ≤ day && day ≤ 31

def transactionDateSchema (value : JsString) : Option JsString :=
  if isDateText value && isValidCalendarDate value then some value else none

/-- `merchantRaw` and `merchantName` share it. -/
def merchantSchema (value : JsString) : Option JsString :=
  let value := trim value
  if 1 ≤ codePointLength value && codePointLength value ≤ 200 then some value
  else none

/-- On integers that are safe already. -/
def amountSchema (value : Int) : Option Int :=
  if value ≠ 0 && value.natAbs ≤ 100000000 then some value else none

def lineNumberSchema (value : Int) : Option Int :=
  if 0 < value && value ≤ MAX_OCR_TRANSACTIONS then some value else none

namespace JsValue

def category? : JsValue → Option OcrCategory
  | string value => OCR_CATEGORIES.find? fun category => category.text = value
  | _ => none

def subcategory? : JsValue → Option OcrSubcategory
  | string value =>
      OCR_SUBCATEGORIES.find? fun subcategory => subcategory.text = value
  | _ => none

end JsValue

def transactionKeys : List JsString :=
  [js "transactionDate", js "merchantRaw", js "merchantName", js "amount",
    js "category", js "subcategory", js "lineNumber"]

/-- `validateCategoryAndSubcategory`. -/
def validCategoryAndSubcategory (category : OcrCategory)
    (subcategory : OcrSubcategory) : Bool :=
  let allowed := subcategoriesByCategory category
  (allowed.contains subcategory.text || subcategory = .none) &&
    !(0 < allowed.length && subcategory = .none)

def ocrToolTransactionSchema (input : JsValue) : Option OcrToolTransaction := do
  let properties ← input.strictObject? transactionKeys
  let field := fun name => JsValue.property properties (js name)
  let transactionDate ←
    (field "transactionDate").string?.bind transactionDateSchema
  let merchantRaw ← (field "merchantRaw").string?.bind merchantSchema
  let merchantName ← (field "merchantName").string?.bind merchantSchema
  let amount ← (field "amount").safeInteger?.bind amountSchema
  let category ← (field "category").category?
  let subcategory ← (field "subcategory").subcategory?
  let lineNumber ← (field "lineNumber").safeInteger?.bind lineNumberSchema
  if validCategoryAndSubcategory category subcategory then
    return ⟨transactionDate, merchantRaw, merchantName, amount, category,
      subcategory, lineNumber⟩
  else none

/-- Between 1 and 100 items. -/
def itemCountSchema {α : Type} (items : List α) : Option (List α) :=
  if 1 ≤ items.length && items.length ≤ MAX_OCR_TRANSACTIONS then some items
  else none

/-- `validateLineNumbers`: no line number twice. -/
def validLineNumbers (lineNumbers : List Int) : Bool :=
  lineNumbers.Nodup

def ocrToolInputSchema (input : JsValue) :
    Option (List OcrToolTransaction) := do
  let properties ← input.strictObject? [js "transactions"]
  let items ← (JsValue.property properties (js "transactions")).array?
  let items ← itemCountSchema items
  let transactions ← parseAll ocrToolTransactionSchema items
  if validLineNumbers (transactions.map OcrToolTransaction.lineNumber) then
    return transactions
  else none

/-- The transaction with `なし` replaced by null. -/
def OcrToolTransaction.toTransaction (transaction : OcrToolTransaction) :
    OcrTransaction where
  transactionDate := transaction.transactionDate
  merchantRaw := transaction.merchantRaw
  merchantName := transaction.merchantName
  amount := transaction.amount
  category := transaction.category
  subcategory :=
    if transaction.subcategory = .none then none
    else some transaction.subcategory.text
  lineNumber := transaction.lineNumber

def ocrTransactionSchema (transaction : OcrTransaction) :
    Option OcrTransaction := do
  let transactionDate ← transactionDateSchema transaction.transactionDate
  let merchantRaw ← merchantSchema transaction.merchantRaw
  let merchantName ← merchantSchema transaction.merchantName
  let amount ← amountSchema transaction.amount
  let lineNumber ← lineNumberSchema transaction.lineNumber
  if transaction.subcategory.all
      (subcategoriesByCategory transaction.category).contains then
    return ⟨transactionDate, merchantRaw, merchantName, amount,
      transaction.category, transaction.subcategory, lineNumber⟩
  else none

def ocrResultSchema (transactions : List OcrTransaction) :
    Option OcrResult := do
  let transactions ← itemCountSchema transactions
  let transactions ← parseAll ocrTransactionSchema transactions
  if validLineNumbers (transactions.map OcrTransaction.lineNumber) then
    return ⟨transactions⟩
  else none

def parseOcrToolInput (input : JsValue) : Except Thrown OcrResult :=
  match ocrToolInputSchema input with
  | none => .error plainError
  | some transactions =>
      match ocrResultSchema
          (transactions.map OcrToolTransaction.toTransaction) with
      | none => .error plainError
      | some result => .ok result

end StatementAnalyzer
