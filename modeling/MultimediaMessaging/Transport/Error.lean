import MultimediaMessaging.Fragment.Error
import MultimediaMessaging.Network.AddressText

/-!
How calls on a socket end, and how a transfer fails. A call that ran out of time, found nothing or
was interrupted is to be tried again and is no failure. There is no error for a thread that cannot
be started: starting one is outside the model.
-/

set_option autoImplicit false

namespace MultimediaMessaging

inductive IoKind where
  | wouldBlock | timedOut | interrupted | connectionRefused | connectionReset | permissionDenied
  | addrInUse | addrNotAvailable | brokenPipe | invalidInput | notFound | unexpectedEof | other
  deriving DecidableEq, Repr

namespace IoKind

def message : IoKind → String
  | wouldBlock => "operation would block"
  | timedOut => "timed out"
  | interrupted => "operation interrupted"
  | connectionRefused => "connection refused"
  | connectionReset => "connection reset"
  | permissionDenied => "permission denied"
  | addrInUse => "address in use"
  | addrNotAvailable => "address not available"
  | brokenPipe => "broken pipe"
  | invalidInput => "invalid input parameter"
  | notFound => "entity not found"
  | unexpectedEof => "unexpected end of file"
  | other => "other error"

def isTransient (k : IoKind) : Bool := k = wouldBlock ∨ k = timedOut ∨ k = interrupted

end IoKind

/-- An error of a kind, in the words of the operating system if it has any. -/
structure IoError where
  kind : IoKind
  reason : Option String := none
  deriving DecidableEq, Repr

namespace IoError

def message (e : IoError) : String := e.reason.getD e.kind.message

end IoError

inductive IoOutcome (α : Type) where
  | success (value : α)
  | wouldBlock
  | fail (error : IoError)
  deriving DecidableEq, Repr

namespace IoOutcome

variable {α : Type}

def classify : Except IoError α → IoOutcome α
  | .ok value => .success value
  | .error e => if e.kind.isTransient then .wouldBlock else .fail e

@[simp] theorem classify_ok (value : α) : classify (.ok value) = .success value := rfl

theorem classify_eq_success_iff {r : Except IoError α} {value : α} :
    classify r = .success value ↔ r = .ok value := by
  cases r with
  | ok v => simp
  | error e => by_cases h : e.kind.isTransient <;> simp [classify, h]

theorem classify_eq_fail_iff {r : Except IoError α} {e : IoError} :
    classify r = .fail e ↔ r = .error e ∧ e.kind.isTransient = false := by
  cases r with
  | ok v => simp
  | error f =>
    by_cases h : f.kind.isTransient
    · simp only [classify, h, ↓reduceIte, reduceCtorEq, Except.error.injEq, false_iff, not_and]
      rintro rfl
      simp [h]
    · simp only [classify, h, Bool.false_eq_true, ↓reduceIte, fail.injEq, Except.error.injEq,
        iff_self_and]
      rintro rfl
      simpa using h

end IoOutcome

inductive TransportError where
  | bind (address : SocketAddress) (source : IoError)
  | io (source : IoError)
  | ackTimeout (fragment attempts : Nat)
  | encode (source : EncodeError)
  deriving DecidableEq, Repr

def TransportError.message : TransportError → String
  | bind address source => s!"bind {address.text} failed: {source.message}"
  | io source => s!"I/O error: {source.message}"
  | ackTimeout fragment attempts =>
    s!"no acknowledgement for fragment {fragment} after {attempts} attempts"
  | encode source => s!"encode failed: {source.message}"

end MultimediaMessaging
