import SixGateway.Errors

namespace SixGateway.Responses

open Errors

structure ErrorClass where
  code : String
  httpStatus : Nat
  defaultMessage : String

def errorClass : ErrorCode → ErrorClass
  | .paymentNotFound => ⟨"PAYMENT_NOT_FOUND", 404, "payment intent not found"⟩
  | .idempotencyConflict =>
    ⟨"IDEMPOTENCY_CONFLICT", 409, "idempotency key reused with different parameters"⟩
  | .invalidState => ⟨"INVALID_STATE", 409, "operation not valid in current state"⟩
  | .invalidAmount => ⟨"INVALID_AMOUNT", 422, "amount is outside the permitted range"⟩
  | .refundNotAllowed =>
    ⟨"REFUND_NOT_ALLOWED", 409, "refund not permitted for this payment intent"⟩
  | .refundFailed => ⟨"REFUND_FAILED", 502, "refund could not be created"⟩
  | .webhookHandlerFailed =>
    ⟨"WEBHOOK_HANDLER_FAILED", 500, "webhook handler raised an exception"⟩
  | .checkoutSessionNotFound => ⟨"CHECKOUT_SESSION_NOT_FOUND", 404, "checkout session not found"⟩
  | .unauthorized => ⟨"UNAUTHORIZED", 401, "missing or invalid credentials"⟩
  | .apiKeyNotFound => ⟨"API_KEY_NOT_FOUND", 404, "api key not found"⟩

/-- What a route can raise: what a service raises, and the errors that are raised nowhere else. -/
inductive Failure where
  | exn (e : Exn)
  | merchantNotFound (detail : String)
  | invalidSignature (detail : String)
  | invalidPayload (detail : String)
  | overflowError
  deriving DecidableEq, Repr

def Failure.app? : Failure → Option (ErrorClass × String)
  | exn (.app code detail) => some (errorClass code, detail)
  | merchantNotFound detail => some (⟨"MERCHANT_NOT_FOUND", 404, "merchant not found"⟩, detail)
  | invalidSignature detail =>
    some (⟨"INVALID_SIGNATURE", 400, "stripe signature verification failed"⟩, detail)
  | invalidPayload detail =>
    some (⟨"INVALID_PAYLOAD", 400, "webhook payload could not be parsed"⟩, detail)
  | exn _ | overflowError => none

structure ErrorResponse where
  errorCode : String
  message : String
  detail : Option String
  deriving DecidableEq, Repr

/-- The status code and the body that the exception handlers render. -/
def Failure.rendered (f : Failure) : Nat × ErrorResponse :=
  match f.app? with
  | some (cls, detail) => (cls.httpStatus, ⟨cls.code, cls.defaultMessage, some detail⟩)
  | none => (500, ⟨"INTERNAL_ERROR", "internal server error", none⟩)

def Failure.entry (f : Failure) : Nat × String := (f.rendered.1, f.rendered.2.errorCode)

def entryOf : Option ErrorCode → Nat × String
  | some code => ((errorClass code).httpStatus, (errorClass code).code)
  | none => (500, "INTERNAL_ERROR")

theorem entry_exn (e : Exn) : (Failure.exn e).entry = entryOf e.code? := by
  cases e <;> rfl

end SixGateway.Responses
