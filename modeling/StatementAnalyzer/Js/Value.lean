/-
JavaScript values as a parser meets them: what JSON can denote, and `undefined`
and the numbers it cannot.
-/
import StatementAnalyzer.Js.Text
import Mathlib.Algebra.Order.Ring.Rat

namespace StatementAnalyzer

/-- A value of type `unknown`.  Finite numbers are exact; an object is the list
of its properties. -/
inductive JsValue where
  | undefined
  | null
  | boolean (value : Bool)
  | number (value : ℚ)
  | nan
  | infinity (negative : Bool)
  | string (value : JsString)
  | array (items : List JsValue)
  | object (properties : List (JsString × JsValue))

namespace JsValue

/-- A property of an object, `undefined` where it is missing. -/
def property (properties : List (JsString × JsValue)) (key : JsString) :
    JsValue :=
  ((properties.find? fun entry => entry.1 = key).map Prod.snd).getD undefined

/-- `Number.isSafeInteger`, with the integer it accepts. -/
def safeInteger? : JsValue → Option Int
  | number value =>
      if value.isInt && value.num.natAbs ≤ 9007199254740991 then some value.num
      else none
  | _ => none

end JsValue

end StatementAnalyzer
