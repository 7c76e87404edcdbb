import Mathlib.Data.List.Basic

/-!
The polling interface between the server and its streams.  Readers and writers
are not modelled: a call is recorded together with the result the stream chose
to give, so a list of calls is one possible behaviour of the outside world.
-/

namespace TrojanServer.AsyncIo

inductive Poll (α : Type) where
  | ready (value : α)
  | pending
  deriving Repr, DecidableEq

inductive ErrorKind where
  | notFound
  | timedOut
  | invalidInput
  | connectionReset
  | brokenPipe
  | writeZero
  | invalidData
  | unexpectedEof
  | other
  deriving Repr, DecidableEq

structure IoError where
  kind : ErrorKind
  message : String
  deriving Repr, DecidableEq

/-- One call on a reader or a writer, with its arguments and its result.
`pollRead` records the length of the slice offered and the bytes filled in. -/
inductive IoCall where
  | pollRead (room : Nat) (result : Poll (Except IoError (List UInt8)))
  | pollWrite (slice : List UInt8) (result : Poll (Except IoError Nat))
  | pollFlush (result : Poll (Except IoError Unit))
  | pollShutdown (result : Poll (Except IoError Unit))
  deriving Repr, DecidableEq

def IoCall.returned : IoCall → List UInt8
  | .pollRead _ (.ready (.ok bytes)) => bytes
  | _ => []

def IoCall.accepted : IoCall → List UInt8
  | .pollWrite slice (.ready (.ok n)) => slice.take n
  | _ => []

/-- The reader reported end of file: no byte for a slice that had room. -/
def IoCall.isEof : IoCall → Bool
  | .pollRead room (.ready (.ok [])) => decide (0 < room)
  | _ => false

def IoCall.isFlushed : IoCall → Bool
  | .pollFlush (.ready (.ok ())) => true
  | _ => false

/-- A read, a write or a flush failed.  Failed shutdowns are not counted. -/
def IoCall.isError : IoCall → Bool
  | .pollRead _ (.ready (.error _)) => true
  | .pollWrite _ (.ready (.error _)) => true
  | .pollFlush (.ready (.error _)) => true
  | _ => false

/-- A result that makes the caller give up: an error, or a write of nothing. -/
def IoCall.isFailure : IoCall → Bool
  | .pollWrite _ (.ready (.ok 0)) => true
  | call => call.isError

theorem IoCall.isFailure_of_isError {call : IoCall} (h : call.isError = true) :
    call.isFailure = true := by
  unfold isFailure
  split
  · rfl
  · exact h

theorem any_isError_of_any_isFailure {calls : List IoCall}
    (h : calls.any IoCall.isFailure = false) : calls.any IoCall.isError = false := by
  rw [List.any_eq_false] at h ⊢
  exact fun call hmem herror => h call hmem (IoCall.isFailure_of_isError herror)

def returnedBytes (calls : List IoCall) : List UInt8 :=
  calls.flatMap IoCall.returned

def acceptedBytes (calls : List IoCall) : List UInt8 :=
  calls.flatMap IoCall.accepted

@[simp] theorem returnedBytes_nil : returnedBytes [] = [] := rfl

@[simp] theorem returnedBytes_cons (call : IoCall) (calls : List IoCall) :
    returnedBytes (call :: calls) = call.returned ++ returnedBytes calls := rfl

@[simp] theorem returnedBytes_append (calls calls' : List IoCall) :
    returnedBytes (calls ++ calls') = returnedBytes calls ++ returnedBytes calls' :=
  List.flatMap_append

@[simp] theorem acceptedBytes_nil : acceptedBytes [] = [] := rfl

@[simp] theorem acceptedBytes_cons (call : IoCall) (calls : List IoCall) :
    acceptedBytes (call :: calls) = call.accepted ++ acceptedBytes calls := rfl

@[simp] theorem acceptedBytes_append (calls calls' : List IoCall) :
    acceptedBytes (calls ++ calls') = acceptedBytes calls ++ acceptedBytes calls' :=
  List.flatMap_append

end TrojanServer.AsyncIo
