import Mathlib.Data.Int.Notation

/-!
# Exceptions

The Python exceptions that the modelled code raises and tells apart. Two
`MessageHandlingError` objects are the same object exactly when their `uid`
is; `cause` is the message that the error applies to.
-/

namespace Debugpy

/-- Objects that Python compares with `is` carry one of these. -/
abbrev Uid := Nat

/-- A message: one that a handler is called for, or one that the process has
made itself, as are requests it sends and the responses to them. -/
inductive MessageId where
  | received (uid : Uid)
  | made (uid : Uid)
  deriving DecidableEq, Repr

inductive Exn where
  /-- `NoMoreMessages`, with the name of its stream. -/
  | noMoreMessages (stream : String) (text : String)
  /-- A `JsonIOError` that is not a `NoMoreMessages`. -/
  | jsonIOError (stream : String) (text : String)
  /-- `InvalidMessageError` if `invalid`, else plain `MessageHandlingError`. -/
  | messageHandling (uid : Uid) (invalid : Bool) (reason : String) (cause : Option MessageId)
  | componentNotAvailable (type : String)
  | typeError (text : String)
  | valueError (text : String)
  | overflowError (text : String)
  | attributeError (text : String)
  | assertionError
  | unicodeDecodeError
  | osError (text : String)
  | runtimeError (text : String)
  /-- What `str.format` raises for a field it has no argument for:
  `IndexError`, `KeyError` or `ValueError`, by the field's spelling. -/
  | formatError
  deriving DecidableEq, Repr

def InvalidMessageError.PREFIX : String := "Invalid message: "

/-- `str(exc)`, for the exceptions whose text the code reads. -/
def Exn.str : Exn → String
  | .noMoreMessages _ text | .jsonIOError _ text => text
  | .messageHandling _ true reason _ => InvalidMessageError.PREFIX ++ reason
  | .messageHandling _ false reason _ => reason
  | .componentNotAvailable type => type ++ " is not available"
  | .typeError text | .valueError text | .overflowError text | .attributeError text => text
  | .osError text | .runtimeError text => text
  | .assertionError | .unicodeDecodeError | .formatError => ""

def Exn.isNoMoreMessages : Exn → Bool
  | .noMoreMessages .. => true
  | _ => false

def Exn.isMessageHandling : Exn → Bool
  | .messageHandling .. => true
  | _ => false

def Exn.isInvalidMessage : Exn → Bool
  | .messageHandling _ invalid _ _ => invalid
  | _ => false

/-- `isinstance(exc, (TypeError, ValueError))`; `UnicodeDecodeError` is a
`ValueError`. -/
def Exn.isTypeOrValueError : Exn → Bool
  | .typeError _ | .valueError _ | .unicodeDecodeError => true
  | _ => false

theorem bind_ok {x : Except ε α} {f : α → Except ε β} :
    x >>= f = .ok b ↔ ∃ a, x = .ok a ∧ f a = .ok b := by
  cases x <;> simp [bind, Except.bind]

theorem exists_bind_ok {x : Except ε α} {f : α → Except ε β} (hx : x = .ok a)
    (hf : ∃ b, f a = .ok b) : ∃ b, x >>= f = .ok b := by
  obtain ⟨b, hb⟩ := hf
  exact ⟨b, bind_ok.mpr ⟨a, hx, hb⟩⟩

theorem map_ok {x : Except ε α} {f : α → β} : f <$> x = .ok b ↔ ∃ a, x = .ok a ∧ f a = b := by
  cases x <;> simp [Functor.map, Except.map]

end Debugpy
