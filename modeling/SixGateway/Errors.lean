namespace SixGateway.Errors

inductive ErrorCode where
  | paymentNotFound
  | idempotencyConflict
  | invalidState
  | invalidAmount
  | refundNotAllowed
  | refundFailed
  | webhookHandlerFailed
  | checkoutSessionNotFound
  | unauthorized
  | apiKeyNotFound
  deriving DecidableEq, Repr

/-- What a handler can raise: a typed `AppException` with its detail, or an exception of a library
that no handler catches. -/
inductive Exn where
  | app (code : ErrorCode) (detail : String)
  | stripeError (message : String)
  | valueError (message : String)
  | validationError (field : String)
  | ledgerError (message : String)
  | keyError (key : String)
  | assertionError
  | integrityError
  | dbapiError
  | multipleResultsFound
  deriving DecidableEq, Repr

def Exn.code? : Exn → Option ErrorCode
  | app code _ => some code
  | _ => none

/-- `str(exc)`. -/
def Exn.str : Exn → String
  | app _ detail => detail
  | stripeError message => message
  | valueError message => message
  | validationError field => field
  | ledgerError message => message
  | keyError key => s!"'{key}'"
  | assertionError => ""
  | integrityError => "IntegrityError"
  | dbapiError => "DBAPIError"
  | multipleResultsFound => "Multiple rows were found when one or none was required"

end SixGateway.Errors
