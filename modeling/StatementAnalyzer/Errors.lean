/-
Thrown values, as far as the service looks at them: the class that
`instanceof` tests, and the `name` and `code` properties.
-/
import StatementAnalyzer.Js.Text

namespace StatementAnalyzer

/-- The error classes that the service tells apart; a value that is no `Error`
belongs to none. -/
inductive ErrorClass where
  | notError
  | other
  | aggregate
  | objectNotFound
  | invalidSourceObject
  | invalidOcrImage
  | invalidOcrResponse
  | invalidInsightsResponse
  | processingClaimLost
  | uniqueConstraint
deriving DecidableEq, Repr

/-- A thrown value.  `name` and `code` are absent where they are not strings,
and for a value that is not an object. -/
structure Thrown where
  errorClass : ErrorClass
  name : Option JsString
  code : Option JsString
deriving DecidableEq, Repr

/-- `new Error(..)`. -/
def plainError : Thrown := ⟨.other, some (js "Error"), none⟩

def aggregateError : Thrown := ⟨.aggregate, some (js "AggregateError"), none⟩

def objectNotFoundError : Thrown :=
  ⟨.objectNotFound, some (js "ObjectNotFoundError"), none⟩

def invalidSourceObjectError : Thrown :=
  ⟨.invalidSourceObject, some (js "InvalidSourceObjectError"), none⟩

def invalidOcrImageError : Thrown :=
  ⟨.invalidOcrImage, some (js "InvalidOcrImageError"), none⟩

def invalidOcrResponseError : Thrown :=
  ⟨.invalidOcrResponse, some (js "InvalidOcrResponseError"), none⟩

def invalidInsightsResponseError : Thrown :=
  ⟨.invalidInsightsResponse, some (js "InvalidInsightsResponseError"), none⟩

def processingClaimLostError : Thrown :=
  ⟨.processingClaimLost, some (js "ProcessingClaimLostError"), none⟩

def uniqueConstraintError : Thrown :=
  ⟨.uniqueConstraint, some (js "UniqueConstraintError"), none⟩

end StatementAnalyzer
