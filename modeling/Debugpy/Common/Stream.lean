import Debugpy.Common.Json
import Debugpy.Lib.Fuel

/-!
# The JSON message stream

`JsonIOStream.read_json` and `write_json` over a reader and a writer that may
serve any part of what they are asked for in each call. Both are loops that
depend on the other side, so they are `Comp`s: a call that never ends has no
fuel that is enough.
-/

namespace Debugpy

open Fuel (Comp loop)

abbrev Bytes := List UInt8

def CRLF : Bytes := [13, 10]

def ascii (s : String) : Bytes := s.toList.map fun c => c.toNat.toUInt8

def utf8Encode (s : String) : Bytes := s.toUTF8.data.toList
def utf8Decode (bs : Bytes) : Option String := String.fromUTF8? ⟨bs.toArray⟩

@[simp] theorem utf8Decode_encode (s : String) : utf8Decode (utf8Encode s) = some s := by
  have h : (⟨(utf8Encode s).toArray⟩ : ByteArray) = s.toByteArray := rfl
  simp [utf8Decode, h, String.fromUTF8?, s.isValidUTF8, String.fromUTF8]

-- ---------------------------------------------------------------------------
-- Readers
-- ---------------------------------------------------------------------------

/-- What a call returns once the peer's bytes are used up: `b""`, or an
exception if the connection was reset or closed on this side. -/
inductive Ending where
  | eof
  | raises (text : String)
  deriving DecidableEq, Repr

/-- A blocking reader. `data` is what it still has to deliver; the `n`-th
call delivers at most `cuts n + 1` bytes of it. -/
structure Reader where
  data : Bytes
  cuts : Nat → Nat
  ending : Ending
  calls : Nat := 0

def lineLength : Bytes → Nat
  | [] => 0
  | b :: bs => if b = 10 then 1 else lineLength bs + 1

def Reader.deliver (r : Reader) (limit : Nat) : Except Exn Bytes × Reader :=
  match r.data, r.ending with
  | [], .eof => (.ok [], r)
  | [], .raises text => (.error (.osError text), r)
  | data, _ =>
    let n := min limit (r.cuts r.calls + 1)
    (.ok (data.take n), { r with data := data.drop n, calls := r.calls + 1 })

def Reader.readline (r : Reader) : Except Exn Bytes × Reader := r.deliver (lineLength r.data)
def Reader.read (r : Reader) (n : Nat) : Except Exn Bytes × Reader := r.deliver n

def readLineTurn (name : String) : Bytes × Reader → Comp ((Bytes × Reader) ⊕ (Except Exn Bytes × Reader))
  | (line, r) => match r.readline with
    | (.error e, r) => pure (.inr (.error (.noMoreMessages name e.str), r))
    | (.ok chunk, r) =>
      let line := line ++ chunk
      if line = [] then pure (.inr (.error (.noMoreMessages name "No more messages"), r))
      else if CRLF <:+ line then pure (.inr (.ok (line.take (line.length - 2)), r))
      else pure (.inl (line, r))

def readLine (name : String) (r : Reader) : Comp (Except Exn Bytes × Reader) :=
  loop (readLineTurn name) ([], r)

/-- `line.partition(b":")` without the separator. -/
def partitionColon (line : Bytes) : Bytes × Bytes :=
  (line.takeWhile (· != 58), (line.dropWhile (· != 58)).drop 1)

abbrev Headers := List (Bytes × Bytes)

/-- One turn of the header loop of `read_json`. Both branches of its
`except` raise what `read_line` raised. -/
def headersTurn (name : String) : Headers × Reader → Comp ((Headers × Reader) ⊕ (Except Exn Headers × Reader))
  | (headers, r) => do
    match ← readLine name r with
    | (.error e, r) => pure (.inr (.error e, r))
    | (.ok line, r) =>
      if line = [] then pure (.inr (.ok headers, r))
      else pure (.inl (partitionColon line :: headers, r))

def MAX_BODY_SIZE : Nat := 0xFFFFFF

/-- The declared length, if there is one that `read_json` accepts. -/
def contentLength (headers : Headers) : Option Nat := do
  let (_, value) ← headers.find? fun h => h.1 == ascii "Content-Length"
  let length ← PyInt.ofBytes value
  if 0 ≤ length ∧ length ≤ MAX_BODY_SIZE then some length.toNat else none

def bodyTurn (name : String) :
    Bytes × Nat × Reader → Comp ((Bytes × Nat × Reader) ⊕ (Except Exn Bytes × Reader))
  | (body, remaining, r) =>
    if remaining = 0 then pure (.inr (.ok body, r))
    else match r.read remaining with
      | (.error e, r) => pure (.inr (.error (.noMoreMessages name e.str), r))
      -- `EOFError()` has no text.
      | (.ok [], r) => pure (.inr (.error (.noMoreMessages name ""), r))
      | (.ok chunk, r) => pure (.inl (body ++ chunk, remaining - chunk.length, r))

/-- The decoding of a body. `decode` is the JSON decoder of the standard
library; `none` is any exception it raises. -/
def decodeBody (decode : String → Option Json) (body : Bytes) : Except Exn Json :=
  match utf8Decode body with
  | none => .error .unicodeDecodeError
  | some text => match decode text with
    | none => .error (.valueError "")
    | some value => .ok value

def readJson (decode : String → Option Json) (name : String) (r : Reader) :
    Comp (Except Exn Json × Reader) := do
  match ← loop (headersTurn name) ([], r) with
  | (.error e, r) => pure (.error e, r)
  | (.ok headers, r) =>
    match contentLength headers with
    | none => pure (.error (.osError "Content-Length is missing or invalid:"), r)
    | some length =>
      match ← loop (bodyTurn name) ([], length, r) with
      | (.error e, r) => pure (.error e, r)
      | (.ok body, r) => pure (decodeBody decode body, r)

-- ---------------------------------------------------------------------------
-- Writers
-- ---------------------------------------------------------------------------

/-- The outcome of one `write()` call: it accepts nothing and returns `None`,
accepts at most `n` bytes and returns how many, or raises. -/
inductive WriteResult where
  | nothing
  | accepts (n : Nat)
  | raises (text : String)
  deriving DecidableEq, Repr

/-- `flushes n` is the exception, if any, of a `flush()` after `n` calls. -/
structure Writer where
  output : Bytes
  results : Nat → WriteResult
  flushes : Nat → Option String := fun _ => none
  calls : Nat := 0

def Writer.write (w : Writer) (data : Bytes) : Except Exn (Option Nat) × Writer :=
  let w' := { w with calls := w.calls + 1 }
  match w.results w.calls with
  | .nothing => (.ok none, w')
  | .accepts n => (.ok (some (min n data.length)), { w' with output := w.output ++ data.take n })
  | .raises text => (.error (.osError text), w')

/-- One turn of the loop of `write_json`, which ends with a flush. -/
def writeTurn (name : String) (data : Bytes) :
    Nat × Writer → Comp ((Nat × Writer) ⊕ (Except Exn Unit × Writer))
  | (dataWritten, w) =>
    if dataWritten < data.length then
      match w.write (data.drop dataWritten) with
      | (.error e, w) => pure (.inr (.error (.jsonIOError name e.str), w))
      | (.ok (some written), w) => pure (.inl (dataWritten + written, w))
      | (.ok none, w) => pure (.inl (dataWritten, w))
    else match w.flushes w.calls with
      | some text => pure (.inr (.error (.jsonIOError name text), w))
      | none => pure (.inr (.ok (), w))

def packet (body : Bytes) : Bytes :=
  ascii "Content-Length: " ++ PyInt.decimal body.length ++ CRLF ++ CRLF ++ body

/-- `JsonIOStream.write_json`. `encode` is the JSON encoder; `none` is an
exception it raises, which `write_json` raises again. -/
def writeJson (encode : Json → Option String) (name : String) (closed : Bool) (value : Json)
    (w : Writer) : Comp (Except Exn Unit × Writer) :=
  if closed then pure (.error (.noMoreMessages name "No more messages"), w)
  else match encode value with
    | none => pure (.error (.typeError ""), w)
    | some text => loop (writeTurn name (packet (utf8Encode text))) (0, w)

end Debugpy
