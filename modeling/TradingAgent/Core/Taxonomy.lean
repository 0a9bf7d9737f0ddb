import TradingAgent.Core.Python

/-!
# Domain errors

The application services return their failures as values of `DomainError` and its
subclasses. An error keeps its class, its message and the provider that it names.
-/

namespace TradingAgent

/-- The classes of the taxonomy. -/
inductive ErrorClass
  | domainError
  | providerUnavailableError
  | rateLimitedError
  | providerTimeoutError
  | authenticationError
  | providerValidationError
  | malformedDataError
  | unsupportedCapabilityError
  | idempotencyConflictError
  | configurationError
  | riskBlockError
  | notFoundError
  | insufficientDataError
  | fatalSystemError
  deriving DecidableEq, Repr

/-- `retryable`, which drives the retry policy. -/
def ErrorClass.retryable : ErrorClass → Bool
  | .providerUnavailableError | .rateLimitedError | .providerTimeoutError
  | .riskBlockError => true
  | _ => false

/-- `error_code`. -/
def ErrorClass.errorCode : ErrorClass → String
  | .domainError => "domain_error"
  | .providerUnavailableError => "provider_unavailable"
  | .rateLimitedError => "rate_limited"
  | .providerTimeoutError => "provider_timeout"
  | .authenticationError => "authentication"
  | .providerValidationError => "provider_validation"
  | .malformedDataError => "malformed_data"
  | .unsupportedCapabilityError => "unsupported_capability"
  | .idempotencyConflictError => "idempotency_conflict"
  | .configurationError => "configuration"
  | .riskBlockError => "risk_block"
  | .notFoundError => "not_found"
  | .insufficientDataError => "insufficient_data"
  | .fatalSystemError => "fatal_system"

/-- `ERROR_HTTP_STATUS`. -/
def errorHttpStatus : List (String × ℕ) :=
  [("provider_unavailable", 502), ("rate_limited", 429), ("provider_timeout", 504),
    ("authentication", 401), ("provider_validation", 400), ("malformed_data", 502),
    ("unsupported_capability", 400), ("idempotency_conflict", 409), ("configuration", 500),
    ("risk_block", 400), ("not_found", 404), ("insufficient_data", 422), ("fatal_system", 500),
    ("domain_error", 400)]

structure DomainError where
  cls : ErrorClass := .domainError
  message : String
  provider : Option String := none
  deriving DecidableEq, Repr

namespace DomainError

def retryable (e : DomainError) : Bool := e.cls.retryable

/-- `DomainError(message, provider="auth")`. -/
def auth (message : String) : DomainError where
  message := message
  provider := some "auth"

/-- `AuthenticationError(message, provider="jwt")`. -/
def jwt (message : String) : DomainError where
  cls := .authenticationError
  message := message
  provider := some "jwt"

end DomainError

def httpStatusFor (error : DomainError) : ℕ :=
  (errorHttpStatus.lookup error.cls.errorCode).getD 400

end TradingAgent
