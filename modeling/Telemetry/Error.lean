import Telemetry.Json.Pairs
import Telemetry.Json.Parser

/-!
# Errors

Two layers. A `Refusal` is part of the service's contract: it has an HTTP status and a JSON body.
A `Fault` is everything else that can stop an operation: a value that no operation accepts, a
collaborator that failed, a task that was cancelled; a refusal is a fault as well. Both name the
cause, and the wording is derived from it.
-/

namespace Telemetry

/-! ## Refusals -/

/-- Why a credential does not open the service. -/
inductive CredentialFlaw
  | missing
  | unknown
  | unusable
deriving DecidableEq, Repr

/-- Why a request cannot be interpreted. -/
inductive RequestFlaw
  | malformedBody
  | bodyNotObject
  | groupMissing
deriving DecidableEq, Repr

/-- Why a name or value cannot be placed into a query. -/
inductive QueryFlaw
  | fieldName (name : Json)
  | notFinite (value : Double)
  | unsupportedType (value : Json)
  | unknownOperator (symbol : String)
  | notScalar (symbol : String)
  | invalidStatus (status : Json)

/-- Why the store of events could not answer a statement. -/
inductive StoreFlaw
  | unreachable (reason : String)
  | status (code : Int) (detail : String)
  | malformed (reason : String)
deriving DecidableEq, Repr

/-- Why a collaborator could not answer. -/
inductive DependencyFlaw
  | credentialLookup
  | limitsUnreachable (reason : String)
  | limitsStatus (code : Int)
  | limitsMalformed
deriving DecidableEq, Repr

/-- An error that belongs to the service's contract. -/
inductive Refusal
  | credential (flaw : CredentialFlaw)
  | unbound
  | request (flaw : RequestFlaw)
  | quotaExceeded (current limit : Int)
  | notPersisted
  | store (flaw : StoreFlaw)
  | dependency (flaw : DependencyFlaw)
  | query (flaw : QueryFlaw)

/-- The wording of a credential's flaw. -/
def CredentialFlaw.message : CredentialFlaw → String
  | .missing => "Missing or invalid Authorization header"
  | .unknown => "Invalid API key"
  | .unusable => "API key is disabled or expired"

/-- The wording of a request's flaw. -/
def RequestFlaw.message : RequestFlaw → String
  | .malformedBody => "Invalid JSON body"
  | .bodyNotObject => "Request body must be a JSON object"
  | .groupMissing => "group_by is required"

/-- The wording of a flaw of a query's names and values. -/
def QueryFlaw.message : QueryFlaw → String
  | .fieldName name => "Invalid field name: " ++ name.inspect
  | .notFinite value => "Non-finite number: " ++ value.text
  | .unsupportedType value => "Unsupported value type: " ++ value.kindName
  | .unknownOperator symbol => "Unsupported operator: " ++ Text.quoted symbol
  | .notScalar symbol => "Operator " ++ symbol ++ " takes a scalar value"
  | .invalidStatus status => "Invalid status filter: " ++ status.inspect

/-- The wording of a failure of the store of events. -/
def StoreFlaw.message : StoreFlaw → String
  | .unreachable reason => "ClickHouse request failed: " ++ reason
  | .status code detail => "ClickHouse returned " ++ Text.integer code ++ ": " ++ detail
  | .malformed reason => "Malformed ClickHouse response: " ++ reason

/-- The wording of a collaborator's failure. -/
def DependencyFlaw.message : DependencyFlaw → String
  | .credentialLookup => "Credential lookup failed"
  | .limitsUnreachable reason => "Limits service unreachable: " ++ reason
  | .limitsStatus code => "Limits service returned " ++ Text.integer code
  | .limitsMalformed => "Limits service returned invalid JSON"

namespace Refusal

/-- The wording of a refusal. -/
def message : Refusal → String
  | .credential flaw => flaw.message
  | .unbound => "API key is not associated with a project"
  | .request flaw => flaw.message
  | .quotaExceeded .. => "Monthly event limit reached"
  | .notPersisted => "Failed to store event"
  | .store flaw => flaw.message
  | .dependency flaw => flaw.message
  | .query flaw => flaw.message

/-- The HTTP status of a refusal. -/
def status : Refusal → Nat
  | .credential _ => 401
  | .unbound => 400
  | .request _ => 400
  | .quotaExceeded .. => 429
  | .notPersisted => 500
  | .store _ => 500
  | .dependency _ => 502
  | .query _ => 400

/-- The JSON body that answers a refused request. -/
def body : Refusal → Json.Object
  | .quotaExceeded current limit =>
    [("error", .str (message (.quotaExceeded current limit))), ("limitReached", .bool true),
      ("currentCount", .int current), ("limit", .int limit)]
  | r => [("error", .str r.message)]

end Refusal

/-! ## Faults -/

/-- Why an operation rejects its own arguments. -/
inductive ArgumentFlaw
  | projectMissing
  | negativePage
  | rateOutOfRange (shown : String)
deriving DecidableEq, Repr

/-- The wording of an argument's flaw. -/
def ArgumentFlaw.message : ArgumentFlaw → String
  | .projectMissing => "project_id is required"
  | .negativePage => "limit and offset must be non-negative"
  | .rateOutOfRange shown => "default_rate must be in [0, 1], got " ++ shown

/-- Why an operation stopped. -/
inductive Fault
  /-- An error of the service's contract. -/
  | refusal (refusal : Refusal)
  /-- An argument outside the operation's domain. -/
  | argument (flaw : ArgumentFlaw)
  /-- A text that is no JSON. -/
  | malformedJson (error : Json.SyntaxError)
  /-- A value that cannot be read as what is wanted. -/
  | badValue
  /-- A text outside ASCII where only ASCII can be sent. -/
  | notAscii
  /-- An address that is longer than addresses may be. -/
  | addressTooLong
  /-- Settings of which one cannot be read. -/
  | badSettings
  /-- A number or time beyond the range of its representation. -/
  | outOfRange
  /-- A value of a type that the operation does not take. -/
  | wrongType (message : String)
  /-- A row without a column that it must have. -/
  | missingKey (key : String)
  /-- Something that is no row where a row is wanted, or no record where one is wanted. -/
  | noRecord
  /-- A value nested too deeply. -/
  | tooDeep
  /-- A constraint of a table. -/
  | constraint
  /-- A collaborator that cannot be reached. -/
  | unreachable
  /-- A defect of a collaborator. -/
  | internal
  /-- The task was cancelled. -/
  | cancelled
  /-- The client ended the connection. -/
  | disconnected

/-- The fault of a value that makes no object. -/
def Json.PairsFlaw.toFault (flaw : Json.PairsFlaw) : Fault :=
  match flaw with
  | .pairLength .. => .badValue
  | _ => .wrongType flaw.message

/-- The fault of a text that could not be read as JSON. -/
def Json.ReadError.toFault : Json.ReadError → Fault
  | .malformed error => .malformedJson error
  | .tooDeep => .tooDeep
  | .tooManyDigits _ => .badValue

/-- The fault of a value without a text. -/
def Json.DisplayFlaw.toFault : Json.DisplayFlaw → Fault
  | .tooDeep => .tooDeep
  | .tooManyDigits => .badValue

/-- The text of a value on its own, if it has one. -/
def Json.shown (v : Json) : Except Fault String :=
  match v.displayFlaw? Json.maxDepth with
  | none => .ok v.display
  | some flaw => .error flaw.toFault

/-- Refuses a name or value of a query. -/
def refuseQuery {α : Type} (flaw : QueryFlaw) : Except Refusal α :=
  .error (.query flaw)

/-! ## Chains -/

/-- A chain ends well only if each part of it does. -/
theorem bind_eq_ok {ε α β : Type} {x : Except ε α} {f : α → Except ε β} {b : β}
    (h : x >>= f = .ok b) : ∃ a, x = .ok a ∧ f a = .ok b := by
  cases x with
  | error e => cases h
  | ok a => exact ⟨a, rfl, h⟩

end Telemetry
