/-!
The seventeen status codes, their names and numbers, and their place among the HTTP statuses.
Names and numbers determine the code (`ofName?_name`, `ofNumber?_number`).
-/
namespace RpcConformance

inductive Code
  | ok
  | canceled
  | unknown
  | invalidArgument
  | deadlineExceeded
  | notFound
  | alreadyExists
  | permissionDenied
  | resourceExhausted
  | failedPrecondition
  | aborted
  | outOfRange
  | unimplemented
  | internal
  | unavailable
  | dataLoss
  | unauthenticated
deriving DecidableEq, Repr, Inhabited

namespace Code

def all : List Code :=
  [ok, canceled, unknown, invalidArgument, deadlineExceeded, notFound, alreadyExists,
   permissionDenied, resourceExhausted, failedPrecondition, aborted, outOfRange, unimplemented,
   internal, unavailable, dataLoss, unauthenticated]

def name : Code → String
  | ok => "ok"
  | canceled => "canceled"
  | unknown => "unknown"
  | invalidArgument => "invalid_argument"
  | deadlineExceeded => "deadline_exceeded"
  | notFound => "not_found"
  | alreadyExists => "already_exists"
  | permissionDenied => "permission_denied"
  | resourceExhausted => "resource_exhausted"
  | failedPrecondition => "failed_precondition"
  | aborted => "aborted"
  | outOfRange => "out_of_range"
  | unimplemented => "unimplemented"
  | internal => "internal"
  | unavailable => "unavailable"
  | dataLoss => "data_loss"
  | unauthenticated => "unauthenticated"

def label : Code → String
  | ok => "Ok"
  | canceled => "Canceled"
  | unknown => "Unknown"
  | invalidArgument => "InvalidArgument"
  | deadlineExceeded => "DeadlineExceeded"
  | notFound => "NotFound"
  | alreadyExists => "AlreadyExists"
  | permissionDenied => "PermissionDenied"
  | resourceExhausted => "ResourceExhausted"
  | failedPrecondition => "FailedPrecondition"
  | aborted => "Aborted"
  | outOfRange => "OutOfRange"
  | unimplemented => "Unimplemented"
  | internal => "Internal"
  | unavailable => "Unavailable"
  | dataLoss => "DataLoss"
  | unauthenticated => "Unauthenticated"

def number (code : Code) : Nat := code.ctorIdx

def ofNumber? (n : Int) : Option Code := if n < 0 then none else all[n.toNat]?

/-- The code of a name; the spelling with two l's is also read. -/
def ofName? (s : String) : Option Code :=
  let s := if s = "cancelled" then "canceled" else s
  all.find? fun code => code.name = s

@[simp] theorem ofNumber?_number (code : Code) : ofNumber? code.number = some code := by
  cases code <;> rfl

@[simp] theorem ofName?_name (code : Code) : ofName? code.name = some code := by
  cases code <;> decide

/-- The HTTP status of a failed unary call. -/
def httpStatus : Code → Nat
  | ok => 200
  | canceled => 499
  | unknown | internal | dataLoss => 500
  | invalidArgument | failedPrecondition | outOfRange => 400
  | deadlineExceeded => 504
  | notFound => 404
  | alreadyExists | aborted => 409
  | permissionDenied => 403
  | resourceExhausted => 429
  | unimplemented => 501
  | unavailable => 503
  | unauthenticated => 401

/-- The code an HTTP status suggests where nothing better is known. -/
def ofHttpStatus : Nat → Code
  | 200 => ok
  | 400 => invalidArgument
  | 401 => unauthenticated
  | 403 => permissionDenied
  | 404 => unimplemented
  | 408 => deadlineExceeded
  | 409 => aborted
  | 412 => failedPrecondition
  | 416 => outOfRange
  | 429 => resourceExhausted
  | 499 => canceled
  | 501 => unimplemented
  | 502 | 503 => unavailable
  | 504 => deadlineExceeded
  | _ => unknown

end Code
end RpcConformance
