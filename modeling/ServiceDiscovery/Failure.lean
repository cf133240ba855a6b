import ServiceDiscovery.Url.Basic

/-!
# Failures

Why an operation of service discovery did not give its value, with the wording of each cause and
whether a later attempt may succeed.
-/

namespace ServiceDiscovery

/-- An error of the HTTP library: its wording, and what it is about, which may be several of these
or none. -/
structure HttpError where
  reason : String
  /-- It is about a timeout. -/
  isTimeout : Bool
  /-- It is about connecting. -/
  isConnect : Bool
  /-- It is about the request. -/
  isRequest : Bool
  deriving DecidableEq, Repr

/-- Why an operation failed. -/
inductive Failure
  /-- The registry could not be reached, or it answered with a failure status. -/
  | registryUnavailable (reason : String)
  /-- An immediate lookup found no healthy instance. -/
  | notFound (name registry : String)
  /-- The registry answered with something that could not be interpreted. -/
  | invalidEntry (reason : String)
  /-- The key-value store has no such key. -/
  | keyNotFound (key : String)
  /-- A setting has no valid value. -/
  | invalidConfiguration (reason : String)
  /-- The HTTP library reports an error. -/
  | http (error : HttpError)
  /-- A text that has to be a URL is none. -/
  | url (fault : Url.Fault)
  /-- The resolution service has been shut down. -/
  | shuttingDown
  deriving DecidableEq, Repr

namespace Failure

/-- The wording of a failure. -/
def message : Failure → String
  | .registryUnavailable reason => "Registry unavailable: " ++ reason
  | .notFound name registry => "Service " ++ name ++ " not found in registry " ++ registry
  | .invalidEntry reason => "Invalid registry entry: " ++ reason
  | .keyNotFound key => "Key not found: " ++ key
  | .invalidConfiguration reason => "Invalid configuration: " ++ reason
  | .http error => "HTTP error: " ++ error.reason
  | .url fault => "URL parse error: " ++ fault.message
  | .shuttingDown => "Resolution service is shutting down"

/-- Whether a later attempt may succeed. A malformed entry counts as passing, as a registry in the
middle of an upgrade can serve one for a while. So does an error of the HTTP library about a
timeout, the connection or the request. -/
def isRetryable : Failure → Bool
  | .registryUnavailable _ | .invalidEntry _ | .notFound _ _ => true
  | .http error => error.isTimeout || error.isConnect || error.isRequest
  | _ => false

/-- Whether a lookup found no healthy instance. -/
def isNotFound : Failure → Bool
  | .notFound _ _ => true
  | _ => false

end Failure

end ServiceDiscovery
