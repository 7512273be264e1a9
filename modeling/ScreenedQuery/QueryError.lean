import ScreenedQuery.Fragment

/-!
# Errors

Why a query is refused. The rules of a draft and the screen of a backend refuse fragments, the
wiring of a session refuses calls, and a backend refuses to compile or to execute. A panic is kept
along with the errors of a backend, although it is not returned like them: it ends the program, and
what is said of later calls is without meaning then.

## Main definitions

* `BackendError`: what goes wrong in a backend
* `QueryError`: what goes wrong in a session
* `QueryError.code`, `QueryError.message`: a cause as a code and in words
* `QueryError.isValidation`: whether a fragment is at fault

## Main results

* `QueryError.isValidation_iff`: the three causes that are the fault of a fragment
-/

namespace ScreenedQuery

/-- What goes wrong in a backend. -/
inductive BackendError
  /-- A draft cannot be expressed. -/
  | compile (reason : String)
  /-- A query cannot be carried out. -/
  | execute (reason : String)
  /-- A clause has no counterpart in the backend. -/
  | unsupportedClause (operator : Kind) (reason : String)
  /-- The target names a collection that the backend does not hold. -/
  | unknownCollection (name : String)
  /-- The relational store refuses a statement. -/
  | store
  /-- A plan or a directive cannot be read. -/
  | plan
  /-- The keywords of a screen cannot be used. -/
  | screen
  /-- Nothing is returned: the backend panics. -/
  | panic
  deriving DecidableEq

/-- The cause in words; what the store, a plan or a screen reports is not told further, and neither
is what a panic says. -/
def BackendError.message : BackendError → String
  | compile reason => "compile failed: " ++ reason
  | execute reason => "execute failed: " ++ reason
  | unsupportedClause operator reason => operator.name ++ " clause not supported: " ++ reason
  | unknownCollection name => "unknown collection '" ++ name ++ "'"
  | store => "the store refused the statement"
  | plan => "plan encoding"
  | screen => "invalid screen pattern"
  | panic => "the backend panicked"

/-- **What goes wrong in a session.** -/
inductive QueryError
  /-- A chain of conditions is opened directly after it was opened. -/
  | chainCorrupted (previous incoming : Kind)
  /-- A chain is continued before it was opened. -/
  | dependencyMissing (kind requires : Kind)
  /-- The screen flagged a text or a field name. -/
  | injection (kind : Kind) (candidate : String)
  | emptyQueue
  /-- The engine has no queue to take fragments from. -/
  | queueDetached
  | backendMissing
  /-- The draft holds only a part of a query that was refused. -/
  | draftPoisoned
  | targetMissing
  /-- The session has no engine. -/
  | layerMissing
  | backend (cause : BackendError)
  deriving DecidableEq

namespace QueryError

def code : QueryError → String
  | chainCorrupted _ _ => "ChainLogicCorrupted"
  | dependencyMissing _ _ => "DependencyNotSatisfied"
  | injection _ _ => "InjectionDetected"
  | emptyQueue => "EmptyQueue"
  | queueDetached => "QueueDetached"
  | backendMissing => "RuntimeMissing"
  | draftPoisoned => "CradlePoisoned"
  | targetMissing => "MissingTarget"
  | layerMissing => "LayerMissing"
  | backend _ => "Runtime"

def message : QueryError → String
  | chainCorrupted previous incoming =>
    "query chain logic corrupted: " ++ incoming.name ++ " cannot follow " ++ previous.name
  | dependencyMissing kind requires =>
    kind.name ++ " requires a preceding " ++ requires.name ++ " clause"
  | injection kind candidate =>
    "injection detected in " ++ kind.name ++ " fragment: '" ++ candidate ++ "'"
  | emptyQueue => "attempted to read from an empty queue"
  | queueDetached => "query engine is not attached to a fragment queue"
  | backendMissing => "query engine has no runtime attached"
  | draftPoisoned => "query cradle is poisoned by a failed sync; reset the session"
  | targetMissing => "query has no output target; add a find/set-target fragment"
  | layerMissing => "database has no processing layer attached"
  | backend cause => cause.message

/-- The cause in words behind its code. -/
def messageWithCode (error : QueryError) : String := "[" ++ error.code ++ "] " ++ error.message

/-- **Whether a fragment is at fault**, and not the wiring of the session or the backend. -/
def isValidation : QueryError → Bool
  | chainCorrupted _ _ | dependencyMissing _ _ | injection _ _ => true
  | _ => false

/-- The three causes that are the fault of a fragment. -/
theorem isValidation_iff {error : QueryError} :
    error.isValidation ↔
      (∃ previous incoming, error = chainCorrupted previous incoming) ∨
      (∃ kind requires, error = dependencyMissing kind requires) ∨
      ∃ kind candidate, error = injection kind candidate := by
  cases error <;> simp [isValidation]

end QueryError

end ScreenedQuery
