import StatusBoard.Filter.Fault
import StatusBoard.Store.Fault
import StatusBoard.Validation
set_option autoImplicit false

/-!
# Service: errors

Callers are told which class an error is of: their own fault, something missing, a conflict, lack of time,
or the service's fault.
-/

namespace StatusBoard

/-- Whose fault an error is. -/
inductive ErrorClass where
  | badRequest
  | notFound
  | conflict
  | timeout
  | server
  deriving DecidableEq, Repr, Inhabited

namespace ErrorClass

/-- The name of a class. -/
def name : ErrorClass → String
  | badRequest => "BadRequest"
  | notFound => "NotFound"
  | conflict => "Conflict"
  | timeout => "Timeout"
  | server => "Server"

/-- The status code of a class. -/
def httpStatus : ErrorClass → Nat
  | badRequest => 400
  | notFound => 404
  | conflict => 409
  | timeout => 504
  | server => 500

end ErrorClass

/-- Why a request was not answered. -/
inductive ServiceError where
  | invalid (error : ValidationError)
  | filter (fault : Filter.FilterFault)
  | notFound (subject : Subject)
  | nameTaken (kind name : String)
  | cancelled
  | corrupt (corruption : Corruption)
  | database (fault : DatabaseFault)
  /-- A status is stored whose conditions cannot be read. -/
  | unreadableStatus (error : DocumentError)
  deriving DecidableEq, Repr

namespace ServiceError

/-- The error of a store operation, as callers see it. -/
def ofStore : StoreError → ServiceError
  | .notFound subject => notFound subject
  | .nameTaken kind name => nameTaken kind name
  | .cancelled => cancelled
  | .corrupt corruption => corrupt corruption
  | .database fault => database fault

/-- Whose fault the error is. -/
def errorClass : ServiceError → ErrorClass
  | invalid _ | filter _ => .badRequest
  | notFound _ => .notFound
  | nameTaken .. => .conflict
  | cancelled => .timeout
  | corrupt _ | database _ | unreadableStatus _ => .server

/-- The text that tells the caller. -/
def message : ServiceError → String
  | invalid error => "validation: " ++ error.message
  | filter fault => "validation: " ++ fault.message
  | notFound subject => "not_found: " ++ subject.text
  | nameTaken kind name => "conflict: " ++ (StoreError.nameTaken kind name).detail
  | cancelled => "cancelled: request cancelled or deadline exceeded"
  | corrupt corruption => "internal: " ++ (StoreError.corrupt corruption).message
  | database fault => "internal: " ++ (StoreError.database fault).message
  | unreadableStatus error => "internal: stored status unreadable: " ++ error.message

/-- The fields of a filter that the caller has to look at. -/
def fields : ServiceError → List String
  | filter fault => fault.fields
  | _ => []

end ServiceError
end StatusBoard
