import Conveyor.Json.Decode
import Conveyor.Json.Reader

/-!
What can go wrong, by cause, and what is done about it. A failure keeps its answers to "is something
missing", "does it exist already", "was there a conflict" and "is it worth a retry" under any number
of wrappers that tell what was being done.
-/

namespace Conveyor

/-- The refusal with which the cluster's interface answers a request. -/
structure Refusal where
  status : String
  message : String
  reason : String
  code : Nat
  deriving DecidableEq, Repr

namespace Refusal

/-- The answer that says the object is not there. -/
def isNotFound (r : Refusal) : Bool := r.code == 404

/-- The answer to a creation that says the object is there already. -/
def isAlreadyExists (r : Refusal) : Bool := r.code == 409 && r.reason == "AlreadyExists"

/-- The answer to a write that came too late. -/
def isConflict (r : Refusal) : Bool := r.code == 409 && r.reason != "AlreadyExists"

/-- All parts of the refusal, quoted. -/
def details (r : Refusal) : String :=
  "ErrorResponse \x7b status: " ++ Text.quote r.status ++ ", message: " ++ Text.quote r.message ++
    ", reason: " ++ Text.quote r.reason ++ ", code: " ++ toString r.code ++ " \x7d"

end Refusal

/-- Why an address cannot be used. -/
inductive AddressFault where
  | invalidCharacter
  | tooLong
  deriving DecidableEq, Repr

def AddressFault.message : AddressFault → String
  | invalidCharacter => "invalid uri character"
  | tooLong => "uri too long"

/-- Why a request had no success. -/
inductive Fault where
  | refused (refusal : Refusal)
  /-- A line of a streamed answer had no end. -/
  | endlessLine
  | emptyName
  | badAddress (fault : AddressFault)
  | unreadableReply
  deriving DecidableEq, Repr

namespace Fault

def refusal? : Fault → Option Refusal
  | refused r => some r
  | _ => none

def isNotFound (f : Fault) : Bool := f.refusal?.any Refusal.isNotFound

def isAlreadyExists (f : Fault) : Bool := f.refusal?.any Refusal.isAlreadyExists

def isConflict (f : Fault) : Bool := f.refusal?.any Refusal.isConflict

/-- Whether the cluster put the blame on the request. -/
def blamesRequest (f : Fault) : Bool := f.refusal?.any fun r => 400 ≤ r.code && r.code < 500

def message : Fault → String
  | refused r => "ApiError: " ++ r.message ++ ": " ++ r.reason ++ " (" ++ r.details ++ ")"
  | endlessLine => "Error finding newline character"
  | emptyName => "Failed to build request: failed to validate request: A non-empty name is required"
  | badAddress fault => "Failed to build request: failed to build request: " ++ fault.message
  | unreadableReply => "Error deserializing response"

end Fault

/-- Why a value could not be had from its JSON form. -/
inductive Unreadable where
  | text (fault : Json.SyntaxError)
  | value (fault : DecodeError)
  deriving DecidableEq

def Unreadable.message : Unreadable → String
  | text fault => fault.message
  | value fault => fault.message

/-- What the controller does with a stage until something about it changes. -/
inductive Action where
  | awaitChange
  | requeue (seconds : Nat)
  deriving DecidableEq, Repr

/-- A failure of the controller, with the objects concerned. -/
inductive Error where
  | client (fault : Fault)
  | notFound (kind namespaceName name : String)
  | alreadyExists (kind name : String)
  | conflict (kind name : String)
  | configuration (resource message : String)
  /-- Something else failed while an object was being read or written. -/
  | downstream (action kind name : String) (source : Error)
  | serialization (fault : Unreadable)
  deriving DecidableEq

namespace Error

/-- The failure of a request about an object. -/
def ofFault (fault : Fault) (kind namespaceName name : String) : Error :=
  if fault.isNotFound then notFound kind namespaceName name
  else if fault.isAlreadyExists then alreadyExists kind name
  else if fault.isConflict then conflict kind name
  else client fault

def message : Error → String
  | client fault => "kubernetes error: " ++ fault.message
  | notFound kind namespaceName name => kind ++ " " ++ namespaceName ++ "/" ++ name ++ " not found"
  | alreadyExists kind name => kind ++ " " ++ name ++ " already exists"
  | conflict kind name =>
    "conflict updating " ++ kind ++ " " ++ name ++ ": the object has been modified"
  | configuration resource message => "configuration error for " ++ resource ++ ": " ++ message
  | downstream action kind name source =>
    "failed to " ++ action ++ " " ++ kind ++ " " ++ name ++ ": " ++ source.message
  | serialization fault => "serialization error: " ++ fault.message

def isNotFound : Error → Bool
  | notFound .. => true
  | downstream _ _ _ source => source.isNotFound
  | _ => false

def isAlreadyExists : Error → Bool
  | alreadyExists .. => true
  | downstream _ _ _ source => source.isAlreadyExists
  | _ => false

def isConflict : Error → Bool
  | conflict .. => true
  | downstream _ _ _ source => source.isConflict
  | _ => false

/-- Conflicts and failures of the cluster pass, and what is missing is usually made by others soon.
What the cluster, the configuration or the data rule out stays so. -/
def isRetryable : Error → Bool
  | client fault => !fault.blamesRequest
  | notFound .. => true
  | alreadyExists .. => false
  | conflict .. => true
  | configuration .. => false
  | downstream _ _ _ source => source.isRetryable
  | serialization _ => false

/-- Seconds before the next attempt after a lost race. -/
def conflictDelay : Nat := 5

/-- Seconds before the next attempt after any other passing failure. -/
def retryDelay : Nat := 30

/-- What follows a failed reconcile. -/
def policy (e : Error) : Action :=
  if e.isConflict then .requeue conflictDelay
  else if e.isRetryable then .requeue retryDelay
  else .awaitChange

end Error

end Conveyor
