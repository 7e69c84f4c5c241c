import Debugpy.Common.RoundTrip

/-!
# The debug server's reader thread

`ReaderThread` of pydevd, over a socket whose `recv` may return any part of
what is asked for. It speaks two protocols at once: lines of a command, and
JSON bodies after a header. `script` is what a stream asks for, by its bytes
alone; the thread dispatches just that, and a part of it if it is killed.
-/

namespace Debugpy.Pydevd

open Fuel (Comp loop Returns)

/-- What is dispatched: `process_net_command_json`, or `process_command`. -/
inductive Input where
  | json (contents : Bytes)
  | command (id seq : Int) (text : String)
  deriving DecidableEq, Repr

/-- What the rest of the debugger does meanwhile. -/
structure Env where
  /-- `_kill_received` is set before the thread looks at it so many times. -/
  killAt : Option Nat := none
  /-- `process_net_command_json` raises, after what was dispatched before. -/
  raises : List Input → Bytes → Bool := fun _ _ => false
  terminateOnSocketClose : Bool := true

structure Thread where
  buffer : Bytes := []
  sock : Reader
  /-- How many times `_kill_received` was looked at. -/
  looks : Nat := 0
  dispatched : List Input := []
  /-- `dispose_and_kill_all_pydevd_threads` was called. -/
  disposed : Bool := false

-- ---------------------------------------------------------------------------
-- Reading
-- ---------------------------------------------------------------------------

/-- `recv`, and whether there was anything to add to the buffer. -/
def Thread.recv (t : Thread) (size : Nat) : Bool × Thread :=
  match t.sock.read size with
  | (.error _, sock) | (.ok [], sock) => (false, { t with sock })
  | (.ok r, sock) => (true, { t with buffer := t.buffer ++ r, sock })

/-- `buffer[:size]` and `buffer[size:]`, also for a negative size. -/
def sliceTo (bs : Bytes) (size : Int) : Bytes :=
  bs.take (if 0 ≤ size then size.toNat else bs.length - size.natAbs)

def sliceFrom (bs : Bytes) (size : Int) : Bytes :=
  bs.drop (if 0 ≤ size then size.toNat else bs.length - size.natAbs)

def readTurn (size : Int) (t : Thread) : Comp (Thread ⊕ (Bytes × Thread)) :=
  if t.buffer.length = size then pure (.inr (t.buffer, { t with buffer := [] }))
  else if t.buffer.length > size then
    pure (.inr (sliceTo t.buffer size, { t with buffer := sliceFrom t.buffer size }))
  else match t.recv (max (size - t.buffer.length) 1024).toNat with
    | (true, t) => pure (.inl t)
    | (false, t) => pure (.inr ([], t))

def Thread.read (t : Thread) (size : Int) : Comp (Bytes × Thread) := loop (readTurn size) t

def lineTurn (t : Thread) : Comp (Thread ⊕ (Bytes × Thread)) :=
  if 10 ∈ t.buffer then
    let i := lineLength t.buffer
    pure (.inr (t.buffer.take i, { t with buffer := t.buffer.drop i }))
  else match t.recv 1024 with
    | (true, t) => pure (.inl t)
    | (false, t) => pure (.inr ([], t))

def Thread.readLine (t : Thread) : Comp (Bytes × Thread) := loop lineTurn t

-- ---------------------------------------------------------------------------
-- The loop
-- ---------------------------------------------------------------------------

def Env.killed (env : Env) (look : Nat) : Bool := env.killAt.any (· ≤ look)

/-- `if self._kill_received`. -/
def Thread.look (t : Thread) (env : Env) : Bool × Thread :=
  (env.killed t.looks, { t with looks := t.looks + 1 })

/-- `_terminate_on_socket_close`. -/
def Thread.dispose (t : Thread) (env : Env) : Thread :=
  { t with disposed := t.disposed || env.terminateOnSocketClose }

def Thread.dispatch (t : Thread) (inputs : List Input) : Thread :=
  { t with dispatched := t.dispatched ++ inputs }

/-- The inner `except` clause. -/
def Thread.fail (t : Thread) (env : Env) : Thread :=
  match t.look env with
  | (true, t) => t
  | (false, t) => t.dispose env

def strip (bs : Bytes) : Bytes :=
  (bs.dropWhile (PyInt.symOfByte · == .space)).rdropWhile (PyInt.symOfByte · == .space)

/-- `int(line.strip().split(b":", 1)[1])`. -/
def declaredLength (line : Bytes) : Option Int := PyInt.ofBytes (partitionColon (strip line)).2

def trimLine (line : Bytes) : Bytes :=
  if [10, 10] <:+ line then line.take (line.length - 2)
  else if [10] <:+ line then line.take (line.length - 1)
  else if [13] <:+ line then line.take (line.length - 1)
  else line

/-- `line.split("\t", 2)`, of which an index is out of range if there are
fewer parts. What is raised here is only logged. -/
def commandOf (line : String) : List Input :=
  let id := line.toList.takeWhile (· != '\t')
  match line.toList.dropWhile (· != '\t') with
  | [] => []
  | _ :: rest => match rest.dropWhile (· != '\t') with
    | [] => []
    | _ :: text => match PyInt.ofString (String.ofList id),
        PyInt.ofString (String.ofList (rest.takeWhile (· != '\t'))) with
      | some id, some seq => [.command id seq (String.ofList text)]
      | _, _ => []

/-- What follows `_read` in the loop of `_on_run`. -/
def handleContents (env : Env) (contents : Bytes) (t : Thread) : (Int × Thread) ⊕ Thread :=
  if contents = [] then .inr (t.dispose env)
  else match t.look env with
    | (true, t) => .inl (-1, t)
    | (false, t) =>
      let raises := env.raises t.dispatched contents
      let t := t.dispatch [.json contents]
      if raises then .inr (t.fail env) else .inl (-1, t)

/-- What follows `_read_line` in the loop of `_on_run`. -/
def handleLine (env : Env) (contentLen : Int) (line : Bytes) (t : Thread) :
    Comp ((Int × Thread) ⊕ Thread) :=
  if line = [] then pure (.inr (t.dispose env))
  else match t.look env with
    | (true, t) => pure (.inl (contentLen, t))
    | (false, t) =>
      if ascii "Content-Length:" <+: line then
        match declaredLength line with
        | some contentLen => pure (.inl (contentLen, t))
        | none => pure (.inr (t.fail env))
      else if contentLen ≠ -1 then
        if line = CRLF then do
          let (contents, t) ← t.read contentLen
          pure (handleContents env contents t)
        else pure (.inl (contentLen, t))
      else match utf8Decode (trimLine line) with
        | none => pure (.inr (t.dispose env))
        | some text => pure (.inl (contentLen, t.dispatch (commandOf text)))

def runTurn (env : Env) : Int × Thread → Comp ((Int × Thread) ⊕ Thread)
  | (contentLen, t) => do
    let (line, t) ← t.readLine
    handleLine env contentLen line t

def onRun (env : Env) (sock : Reader) : Comp Thread := loop (runTurn env) (-1, { sock })

-- ---------------------------------------------------------------------------
-- What a stream asks for
-- ---------------------------------------------------------------------------

def nextLine (bs : Bytes) : Option (Bytes × Bytes) :=
  if 10 ∈ bs then some (bs.take (lineLength bs), bs.drop (lineLength bs)) else none

theorem nextLine_lt (h : nextLine bs = some (line, rest)) : rest.length < bs.length := by
  unfold nextLine at h
  split at h
  · next hmem =>
    cases h
    have hne : bs ≠ [] := List.ne_nil_of_mem hmem
    have hpos := lineLength_pos hne
    have hlen := List.length_pos_of_ne_nil hne
    rw [List.length_drop]
    omega
  · cases h

theorem nextLine_ne_nil (h : nextLine bs = some (line, rest)) : line ≠ [] := by
  unfold nextLine at h
  split at h
  · next hmem =>
    cases h
    have hne : bs ≠ [] := List.ne_nil_of_mem hmem
    have hpos := lineLength_pos hne
    have hlen := List.length_pos_of_ne_nil hne
    exact List.ne_nil_of_length_pos (by rw [List.length_take]; omega)
  · cases h

/-- What is dispatched in all, after `ds` and a declared length, if there is
one that is not `-1`. What a negative one reads is not given by the bytes. -/
def script (raises : List Input → Bytes → Bool) (ds : List Input) (contentLen : Int) (bs : Bytes) :
    Option (List Input) :=
  match h : nextLine bs with
  | none => some ds
  | some (line, rest) =>
    have := nextLine_lt h
    if ascii "Content-Length:" <+: line then
      match declaredLength line with
      | none => some ds
      | some contentLen => script raises ds contentLen rest
    else if contentLen ≠ -1 then
      if line = CRLF then
        if contentLen < 0 then none
        else
          let contents := rest.take contentLen.toNat
          if contentLen = 0 ∨ rest.length < contentLen then some ds
          else if raises ds contents then some (ds ++ [.json contents])
          else script raises (ds ++ [.json contents]) (-1) (rest.drop contentLen.toNat)
      else script raises ds contentLen rest
    else match utf8Decode (trimLine line) with
      | none => some ds
      | some text => script raises (ds ++ commandOf text) contentLen rest
termination_by bs.length
decreasing_by
  all_goals
    try rw [List.length_drop]
    omega

-- ---------------------------------------------------------------------------
-- Reading does not depend on `recv`
-- ---------------------------------------------------------------------------

/-- What the thread has yet to read. -/
def Thread.rest (t : Thread) : Bytes := t.buffer ++ t.sock.data

/-- The thread has read something, and done nothing else. -/
structure Thread.Left (t : Thread) (rest : Bytes) (t' : Thread) : Prop where
  rest : t'.rest = rest
  looks : t'.looks = t.looks
  dispatched : t'.dispatched = t.dispatched
  disposed : t'.disposed = t.disposed

theorem Thread.Left.trans {t t' t'' : Thread} (h : t.Left bs t') (h' : t'.Left bs' t'') :
    t.Left bs' t'' :=
  ⟨h'.rest, h'.looks.trans h.looks, h'.dispatched.trans h.dispatched, h'.disposed.trans h.disposed⟩

section
variable {t : Thread}

theorem recv_nil (h : t.sock.data = []) (size : Nat) : ∃ t', t.recv size = (false, t') ∧
    t.Left t.rest t' := by
  cases he : t.sock.ending with
  | eof =>
    refine ⟨t, ?_, rfl, rfl, rfl, rfl⟩
    rw [Thread.recv, Reader.read, Reader.deliver_eof h he]
  | raises text =>
    refine ⟨t, ?_, rfl, rfl, rfl, rfl⟩
    rw [Thread.recv, Reader.read, Reader.deliver_raises h he]

theorem recv_some (h : t.sock.data ≠ []) (hsize : 0 < size) : ∃ t', t.recv size = (true, t') ∧
    t.Left t.rest t' ∧ t'.sock.data.length < t.sock.data.length := by
  obtain ⟨k, sock, hk, -, hdel, hdata, -⟩ := Reader.deliver_some size h hsize
  obtain ⟨b, bs, hb⟩ : ∃ b bs, t.sock.data.take k = b :: bs := by
    obtain ⟨c, cs, hc⟩ := List.exists_cons_of_ne_nil h
    obtain ⟨k, rfl⟩ : ∃ n, k = n + 1 := ⟨k - 1, by omega⟩
    exact ⟨c, cs.take k, by rw [hc, List.take_succ_cons]⟩
  refine ⟨{ t with buffer := t.buffer ++ t.sock.data.take k, sock }, ?_, ⟨?_, rfl, rfl, rfl⟩, ?_⟩
  · rw [Thread.recv, Reader.read, hdel, hb]
  · simp only [Thread.rest, hdata, List.append_assoc, List.take_append_drop]
  · have hpos := List.length_pos_of_ne_nil h
    simp only [hdata, List.length_drop]
    omega

theorem nextLine_append (h : 10 ∈ bs) (rest : Bytes) :
    nextLine (bs ++ rest) = some (bs.take (lineLength bs), bs.drop (lineLength bs) ++ rest) := by
  have hlength (bs : Bytes) (h : 10 ∈ bs) :
      lineLength (bs ++ rest) = lineLength bs ∧ lineLength bs ≤ bs.length := by
    induction bs with
    | nil => cases h
    | cons b bs ih =>
      simp only [List.cons_append, lineLength, List.length_cons]
      split
      · omega
      · next hb =>
        have hmem : 10 ∈ bs := (List.mem_cons.mp h).resolve_left (Ne.symm hb)
        obtain ⟨heq, hle⟩ := ih hmem
        omega
  obtain ⟨heq, hle⟩ := hlength bs h
  rw [nextLine, if_pos (List.mem_append_left _ h), heq, List.take_append_of_le_length hle,
    List.drop_append_of_le_length hle]

/-- `_read_line` reads the first line, or nothing if the rest has no end. -/
theorem returns_nextLine : ∃ line rest t', Returns t.readLine (line, t') ∧ t.Left rest t' ∧
    (nextLine t.rest = some (line, rest) ∨ nextLine t.rest = none ∧ line = []) := by
  induction hn : t.sock.data.length using Nat.strong_induction_on generalizing t with
  | _ n ih =>
    by_cases hmem : 10 ∈ t.buffer
    · refine ⟨_, _, { t with buffer := t.buffer.drop (lineLength t.buffer) }, Fuel.loop_exit ?_,
        ⟨rfl, rfl, rfl, rfl⟩, .inl (nextLine_append hmem t.sock.data)⟩
      rw [lineTurn, if_pos hmem]
      exact Fuel.returns_pure.mpr rfl
    · by_cases hdata : t.sock.data = []
      · obtain ⟨t', hrecv, hleft⟩ := recv_nil hdata 1024
        refine ⟨[], t.rest, t', Fuel.loop_exit ?_, hleft, .inr ⟨?_, rfl⟩⟩
        · rw [lineTurn, if_neg hmem, hrecv]
          exact Fuel.returns_pure.mpr rfl
        · rw [nextLine, Thread.rest, hdata, List.append_nil, if_neg hmem]
      · obtain ⟨t', hrecv, hleft, hlt⟩ := recv_some hdata (by decide : 0 < 1024)
        obtain ⟨line, rest, t'', hret, hleft', hline⟩ := ih _ (hn ▸ hlt) rfl
        refine ⟨line, rest, t'', Fuel.loop_next ?_ hret, hleft.trans hleft', hleft.rest ▸ hline⟩
        rw [lineTurn, if_neg hmem, hrecv]
        exact Fuel.returns_pure.mpr rfl

/-- `_read` reads so many bytes, or nothing if there are too few. -/
theorem returns_read (size : Nat) : ∃ contents rest t', Returns (t.read size) (contents, t') ∧
    t.Left rest t' ∧ if t.rest.length < size then contents = []
      else contents = t.rest.take size ∧ rest = t.rest.drop size := by
  induction hn : t.sock.data.length using Nat.strong_induction_on generalizing t with
  | _ n ih =>
    have hlen : t.rest.length = t.buffer.length + t.sock.data.length := List.length_append
    rcases Nat.lt_trichotomy size t.buffer.length with hlt | heq | hgt
    · refine ⟨t.buffer.take size, _, { t with buffer := sliceFrom t.buffer size },
        Fuel.loop_exit ?_, ⟨rfl, rfl, rfl, rfl⟩, ?_⟩
      · rw [readTurn, if_neg (by omega), if_pos (by omega)]
        simp [sliceTo]
      · rw [if_neg (by omega)]
        simp [Thread.rest, sliceFrom, List.take_append_of_le_length hlt.le,
          List.drop_append_of_le_length hlt.le]
    · refine ⟨t.buffer, _, { t with buffer := [] }, Fuel.loop_exit ?_, ⟨rfl, rfl, rfl, rfl⟩, ?_⟩
      · rw [readTurn, if_pos (by omega)]
        exact Fuel.returns_pure.mpr rfl
      · rw [if_neg (by omega)]
        subst heq
        simp [Thread.rest]
    · have hturn {got : Bool} {t' : Thread}
          (hrecv : t.recv (max ((size : Int) - t.buffer.length) 1024).toNat = (got, t')) :
          Returns (readTurn size t) (if got then .inl t' else .inr ([], t')) := by
        rw [readTurn, if_neg (by omega), if_neg (by omega), hrecv]
        cases got <;> exact Fuel.returns_pure.mpr rfl
      by_cases hdata : t.sock.data = []
      · obtain ⟨t', hrecv, hleft⟩ := recv_nil hdata (max ((size : Int) - t.buffer.length) 1024).toNat
        refine ⟨[], t.rest, t', Fuel.loop_exit (hturn hrecv), hleft, ?_⟩
        rw [hdata, List.length_nil] at hlen
        rw [if_pos (by omega)]
      · have hpos : 0 < (max ((size : Int) - t.buffer.length) 1024).toNat := by omega
        obtain ⟨t', hrecv, hleft, hlt⟩ := recv_some hdata hpos
        obtain ⟨contents, rest, t'', hret, hleft', hspec⟩ := ih _ (hn ▸ hlt) rfl
        exact ⟨contents, rest, t'', Fuel.loop_next (hturn hrecv) hret, hleft.trans hleft',
          hleft.rest ▸ hspec⟩

end

-- ---------------------------------------------------------------------------
-- The thread follows the script
-- ---------------------------------------------------------------------------

variable {env : Env} {t t' : Thread} {ds ds' : List Input} {contentLen : Int} {bs : Bytes}

theorem starts_script (h : script raises ds contentLen bs = some ds') : ds <+: ds' := by
  induction hn : bs.length using Nat.strong_induction_on generalizing ds contentLen bs with
  | _ n ih =>
    rw [script] at h
    split at h
    · cases h
      exact List.prefix_rfl
    next line rest hline =>
    have hlt := nextLine_lt hline
    split at h
    · split at h
      · cases h
        exact List.prefix_rfl
      · exact ih _ (hn ▸ hlt) h rfl
    split at h
    · split at h
      · split at h
        · cases h
        dsimp only at h
        split at h
        · cases h
          exact List.prefix_rfl
        split at h
        · cases h
          exact List.prefix_append _ _
        · refine (List.prefix_append _ _).trans (ih _ ?_ h rfl)
          rw [List.length_drop]
          omega
      · exact ih _ (hn ▸ hlt) h rfl
    · split at h
      · cases h
        exact List.prefix_rfl
      · exact (List.prefix_append _ _).trans (ih _ (hn ▸ hlt) h rfl)

/-- The thread ends with this dispatched, or with a part of it if killed. -/
def Ends (env : Env) (ds : List Input) (c : Comp Thread) : Prop :=
  ∃ t', Returns c t' ∧ t'.dispatched <+: ds ∧
    (env.killAt = none → t'.dispatched = ds ∧ (env.terminateOnSocketClose = true → t'.disposed = true))

theorem not_killed (h : env.killAt = none) (look : Nat) : env.killed look = false := by
  rw [Env.killed, h]
  rfl

theorem returns_turn (h : Returns t.readLine (line, t')) :
    Returns (runTurn env (contentLen, t)) r ↔ Returns (handleLine env contentLen line t') r :=
  h.bind_iff

theorem handleLine_nil : Returns (handleLine env contentLen [] t) (.inr (t.dispose env)) := by
  rw [handleLine, if_pos rfl]
  exact Fuel.returns_pure.mpr rfl

theorem handleLine_killed (hline : line ≠ []) (h : env.killed t.looks = true) :
    Returns (handleLine env contentLen line t) (.inl (contentLen, (t.look env).2)) := by
  rw [handleLine, if_neg hline, Thread.look, h]
  exact Fuel.returns_pure.mpr rfl

theorem killed_next (h : env.killed look = true) : env.killed (look + 1) = true := by
  unfold Env.killed at h ⊢
  cases hk : env.killAt with
  | none => simp [hk] at h
  | some k =>
    simp only [hk, Option.any_some, decide_eq_true_eq] at h ⊢
    omega

theorem killed_drains (contentLen : Int) (h : env.killed t.looks = true) :
    ∃ t', Returns (loop (runTurn env) (contentLen, t)) t' ∧ t'.dispatched = t.dispatched := by
  induction hn : t.rest.length using Nat.strong_induction_on generalizing t with
  | _ n ih =>
    obtain ⟨line, rest, t₁, hret, hleft, hline⟩ := returns_nextLine (t := t)
    by_cases hnil : line = []
    · subst hnil
      exact ⟨t₁.dispose env, Fuel.loop_exit ((returns_turn hret).mpr handleLine_nil), hleft.dispatched⟩
    · have hsome : nextLine t.rest = some (line, rest) := hline.resolve_right fun h => hnil h.2
      have hkilled : env.killed t₁.looks = true := hleft.looks ▸ h
      have hlt : (t₁.look env).2.rest.length < n := by
        rw [← hn]
        exact hleft.rest ▸ nextLine_lt hsome
      obtain ⟨t₂, hret₂, hds⟩ := ih _ hlt (killed_next hkilled) rfl
      exact ⟨t₂, Fuel.loop_next ((returns_turn hret).mpr (handleLine_killed hnil hkilled)) hret₂,
        hds.trans hleft.dispatched⟩

theorem Ends.of_killed (h : env.killed t.looks = true) (hds : t.dispatched <+: ds) :
    Ends env ds (loop (runTurn env) (contentLen, t)) := by
  obtain ⟨t', hret, ht'⟩ := killed_drains contentLen h
  refine ⟨t', hret, ht' ▸ hds, fun hnone => ?_⟩
  rw [not_killed hnone] at h
  cases h

theorem Ends.next {s : Int × Thread} {s' : Int × Thread} (h : Returns (runTurn env s) (.inl s'))
    (hends : Ends env ds (loop (runTurn env) s')) : Ends env ds (loop (runTurn env) s) := by
  obtain ⟨t', hret, ht'⟩ := hends
  exact ⟨t', Fuel.loop_next h hret, ht'⟩

theorem Ends.exit {s : Int × Thread} (h : Returns (runTurn env s) (.inr t'))
    (hds : t'.dispatched = ds)
    (hdisposed : env.killAt = none → env.terminateOnSocketClose = true → t'.disposed = true) :
    Ends env ds (loop (runTurn env) s) :=
  ⟨t', Fuel.loop_exit h, hds ▸ List.prefix_rfl, fun hnone => ⟨hds, hdisposed hnone⟩⟩

theorem dispose_disposed (h : env.terminateOnSocketClose = true) : (t.dispose env).disposed = true := by
  simp [Thread.dispose, h]

theorem fail_dispatched : (t.fail env).dispatched = t.dispatched := by
  unfold Thread.fail Thread.look
  cases env.killed t.looks <;> rfl

theorem fail_disposed (hnone : env.killAt = none) (h : env.terminateOnSocketClose = true) :
    (t.fail env).disposed = true := by
  rw [Thread.fail, Thread.look, not_killed hnone]
  exact dispose_disposed h

theorem ends_contents {rest : Bytes} (hlen : 0 ≤ contentLen) (hrest : t.rest = rest)
    (h : (if contentLen = 0 ∨ rest.length < contentLen then some t.dispatched
      else if env.raises t.dispatched (rest.take contentLen.toNat) then
        some (t.dispatched ++ [.json (rest.take contentLen.toNat)])
      else script env.raises (t.dispatched ++ [.json (rest.take contentLen.toNat)]) (-1)
        (rest.drop contentLen.toNat)) = some ds)
    (ih : ∀ t' : Thread, t'.rest = rest.drop contentLen.toNat →
      script env.raises t'.dispatched (-1) t'.rest = some ds →
      Ends env ds (loop (runTurn env) (-1, t')))
    {s : Int × Thread} (hs : ∀ r, Returns (t.read contentLen >>= fun (contents, t) =>
        pure (handleContents env contents t)) r → Returns (runTurn env s) r) :
    Ends env ds (loop (runTurn env) s) := by
  obtain ⟨size, rfl⟩ := Int.eq_ofNat_of_zero_le hlen
  obtain ⟨contents, rest', t₁, hret, hleft, hspec⟩ := returns_read (t := t) size
  have hturn : Returns (runTurn env s) (handleContents env contents t₁) :=
    hs _ (hret.bind_iff.mpr (Fuel.returns_pure.mpr rfl))
  rw [hrest] at hspec
  by_cases hnil : contents = []
  · have hcut : (size : Int) = 0 ∨ (rest.length : Int) < size := by
      by_cases hlt : rest.length < size
      · exact .inr (by omega)
      · rw [if_neg hlt] at hspec
        have hzero : min size rest.length = 0 := by
          rw [← List.length_take, ← hspec.1, hnil, List.length_nil]
        exact .inl (by omega)
    rw [if_pos hcut] at h
    cases h
    rw [handleContents, if_pos hnil] at hturn
    exact .exit hturn hleft.dispatched fun _ => dispose_disposed
  · have hle : ¬ rest.length < size := fun hlt => hnil (by rwa [if_pos hlt] at hspec)
    rw [if_neg hle] at hspec
    have hcut : ¬ ((size : Int) = 0 ∨ (rest.length : Int) < size) := by
      rintro (hzero | hlt)
      · obtain rfl : size = 0 := by omega
        exact hnil (by simp [hspec.1])
      · omega
    rw [if_neg hcut, Int.toNat_natCast, ← hspec.1, ← hleft.dispatched] at h
    rw [handleContents, if_neg hnil] at hturn
    cases hkill : env.killed t₁.looks with
    | true =>
      rw [Thread.look, hkill] at hturn
      refine .next hturn (.of_killed (killed_next hkill) ?_)
      split at h
      · cases h
        exact List.prefix_append _ _
      · exact (List.prefix_append _ _).trans (starts_script h)
    | false =>
      rw [Thread.look, hkill] at hturn
      dsimp only at hturn
      split at h
      · next hraises =>
        cases h
        rw [if_pos hraises] at hturn
        exact .exit hturn fail_dispatched fun hnone => fail_disposed hnone
      · next hraises =>
        rw [if_neg hraises] at hturn
        refine .next hturn (ih _ (hleft.rest.trans ?_) ?_)
        · rw [hspec.2, Int.toNat_natCast]
        · rw [← hspec.2, ← hleft.rest] at h
          exact h

theorem ends_script (h : script env.raises t.dispatched contentLen t.rest = some ds) :
    Ends env ds (loop (runTurn env) (contentLen, t)) := by
  induction hn : t.rest.length using Nat.strong_induction_on generalizing t contentLen with
  | _ n ih =>
    obtain ⟨line, rest, t₁, hret, hleft, hline⟩ := returns_nextLine (t := t)
    have hpre : t.dispatched <+: ds := starts_script h
    rw [script] at h
    rcases hline with hline | ⟨hline, rfl⟩
    swap
    · -- the connection is closed
      split at h
      · cases h
        exact .exit ((returns_turn hret).mpr handleLine_nil) hleft.dispatched fun _ => dispose_disposed
      · next heq =>
        rw [hline] at heq
        cases heq
    have hnil : line ≠ [] := nextLine_ne_nil hline
    have hlt : rest.length < n := hn ▸ nextLine_lt hline
    split at h
    · next heq =>
      rw [hline] at heq
      cases heq
    next line' rest' heq =>
    cases hline.symm.trans heq
    have hds : t.dispatched = t₁.dispatched := hleft.dispatched.symm
    rw [hds] at h
    cases hkill : env.killed t₁.looks with
    | true =>
      exact .next ((returns_turn hret).mpr (handleLine_killed hnil hkill))
        (.of_killed (killed_next hkill) (hds ▸ hpre))
    | false =>
      have hturn (r) : Returns (runTurn env (contentLen, t)) r ↔
          Returns (handleLine env contentLen line t₁) r := returns_turn hret
      have hlook : (t₁.look env).2.rest = rest := hleft.rest
      rw [handleLine, if_neg hnil, Thread.look, hkill] at hturn
      dsimp only at hturn
      split at h
      · next hheader =>
        rw [if_pos hheader] at hturn
        split at h
        · next hlength =>
          cases h
          rw [hlength] at hturn
          exact .exit ((hturn _).mpr (Fuel.returns_pure.mpr rfl)) fail_dispatched
            fun hnone => fail_disposed hnone
        · next hlength =>
          rw [hlength] at hturn
          exact .next ((hturn _).mpr (Fuel.returns_pure.mpr rfl)) (ih _ (hlook ▸ hlt) (hlook ▸ h) rfl)
      next hheader =>
      rw [if_neg hheader] at hturn
      split at h
      · next hlen =>
        rw [if_pos hlen] at hturn
        split at h
        · next hblank =>
          rw [if_pos hblank] at hturn
          split at h
          · cases h
          next hneg =>
          refine ends_contents (t := (t₁.look env).2) (by omega) hlook h (fun t' hrest' h' => ?_)
            fun r hr => (hturn r).mpr hr
          refine ih _ ?_ h' rfl
          rw [hrest', List.length_drop]
          omega
        · next hblank =>
          rw [if_neg hblank] at hturn
          exact .next ((hturn _).mpr (Fuel.returns_pure.mpr rfl)) (ih _ (hlook ▸ hlt) (hlook ▸ h) rfl)
      · next hlen =>
        rw [if_neg hlen] at hturn
        split at h
        · next htext =>
          cases h
          rw [htext] at hturn
          exact .exit ((hturn _).mpr (Fuel.returns_pure.mpr rfl)) rfl fun _ => dispose_disposed
        · next text htext =>
          rw [htext] at hturn
          exact .next ((hturn _).mpr (Fuel.returns_pure.mpr rfl)) (ih _ (hlook ▸ hlt) (hlook ▸ h) rfl)

-- ---------------------------------------------------------------------------
-- What the adapter writes
-- ---------------------------------------------------------------------------

theorem nextLine_of_not_mem (line : Bytes) (h : 10 ∉ line) (rest : Bytes) :
    nextLine (line ++ 10 :: rest) = some (line ++ [10], rest) := by
  have hlength : lineLength (line ++ [10]) = line.length + 1 := by
    induction line with
    | nil => rfl
    | cons b line ih =>
      obtain ⟨hb, hline⟩ := not_or.mp (List.mem_cons.not.mp h)
      rw [List.cons_append, lineLength, if_neg (Ne.symm hb), ih hline, List.length_cons]
  have hends : 10 ∈ line ++ [10] := by simp
  have hnext := nextLine_append hends rest
  have hall : line.length + 1 = (line ++ [10]).length := by simp
  rw [hlength, hall, List.take_length, List.drop_length] at hnext
  simpa using hnext

theorem strip_headerLine (n : Nat) : strip (headerLine n ++ CRLF) = headerLine n := by
  obtain ⟨line, b, hline, hb⟩ : ∃ line b, headerLine n = line ++ [b] ∧ b ∈ PyInt.decimal n := by
    have hne : PyInt.decimal n ≠ [] := by simp [PyInt.decimal]
    refine ⟨ascii "Content-Length: " ++ (PyInt.decimal n).dropLast, (PyInt.decimal n).getLast hne, ?_,
      List.getLast_mem hne⟩
    rw [List.append_assoc, List.dropLast_append_getLast, headerLine]
  have hsym : PyInt.symOfByte b ≠ .space := by
    obtain ⟨lo, hi⟩ := decimal_isDigit hb
    have hlo : 48 ≤ b.toNat := lo
    have hhi : b.toNat ≤ 57 := hi
    unfold PyInt.symOfByte
    split_ifs with h32 h43 h45 h95
    · rcases h32 with rfl | ⟨-, h13⟩
      · exact absurd hlo (by decide)
      · have h13 : b.toNat ≤ 13 := h13
        omega
    · exact fun h => by cases h
    · exact fun h => by cases h
    · exact fun h => by cases h
    · exact fun h => by cases h
    · exact fun h => by cases h
  have hfirst : headerLine n ++ CRLF = 67 :: (headerLine n ++ CRLF).tail := rfl
  rw [strip, hfirst, List.dropWhile_cons_of_neg (by decide), ← hfirst, hline]
  have htail : line ++ [b] ++ CRLF = line ++ [b] ++ [13] ++ [10] := by simp [CRLF]
  rw [htail, List.rdropWhile_concat_pos _ _ _ (by decide), List.rdropWhile_concat_pos _ _ _ (by decide),
    List.rdropWhile_concat_neg _ _ _ (by simpa using hsym)]

theorem declaredLength_headerLine (h : n < 10 ^ PyInt.maxStrDigits) :
    declaredLength (headerLine n ++ CRLF) = some (n : Int) := by
  rw [declaredLength, strip_headerLine, partitionColon_headerLine, PyInt.ofBytes_decimal, if_pos h]

theorem script_packet {raises : List Input → Bytes → Bool} {body : Bytes} (hne : body ≠ [])
    (hlen : body.length < 10 ^ PyInt.maxStrDigits) :
    script raises ds contentLen (packet body ++ bs) =
      if raises ds body then some (ds ++ [.json body])
      else script raises (ds ++ [.json body]) (-1) bs := by
  have hheader : nextLine (packet body ++ bs) =
      some (headerLine body.length ++ CRLF, CRLF ++ (body ++ bs)) := by
    have hno : 10 ∉ headerLine body.length ++ [13] := by
      intro h
      rcases List.mem_append.mp h with h | h
      · rcases List.mem_append.mp h with h | h
        · revert h
          decide
        · exact absurd (decimal_isDigit h).1 (by decide)
      · revert h
        decide
    have hnext := nextLine_of_not_mem _ hno (CRLF ++ (body ++ bs))
    have hbytes : packet body ++ bs = headerLine body.length ++ [13] ++ 10 :: (CRLF ++ (body ++ bs)) := by
      simp [packet, headerLine, CRLF]
    rw [hbytes, hnext]
    simp [CRLF]
  have hblank : nextLine (CRLF ++ (body ++ bs)) = some (CRLF, body ++ bs) :=
    nextLine_of_not_mem [13] (by decide) (body ++ bs)
  have hstarts : ascii "Content-Length:" <+: headerLine body.length ++ CRLF :=
    ⟨[32] ++ PyInt.decimal body.length ++ CRLF, by simp [headerLine, ascii]⟩
  have hpos := List.length_pos_of_ne_nil hne
  rw [script]
  split
  · next heq =>
    rw [hheader] at heq
    cases heq
  next line rest heq =>
  cases hheader.symm.trans heq
  rw [if_pos hstarts, declaredLength_headerLine hlen]
  dsimp only
  rw [script]
  split
  · next heq =>
    rw [hblank] at heq
    cases heq
  next line' rest' heq' =>
  cases hblank.symm.trans heq'
  rw [if_neg (by decide : ¬ ascii "Content-Length:" <+: CRLF), if_pos (by omega), if_pos rfl,
    if_neg (by omega)]
  dsimp only
  have hcut : ¬ ((body.length : Int) = 0 ∨ ((body ++ bs).length : Int) < body.length) := by
    rw [List.length_append]
    omega
  rw [if_neg hcut, Int.toNat_natCast, List.take_left, List.drop_left]

/-- The bodies, up to the first that raises. -/
def bodiesRun (raises : List Input → Bytes → Bool) (ds : List Input) : List Bytes → List Input
  | [] => ds
  | body :: bodies =>
    if raises ds body then ds ++ [.json body] else bodiesRun raises (ds ++ [.json body]) bodies

theorem bodiesRun_all {raises : List Input → Bytes → Bool}
    (hraises : ∀ ds body, raises ds body = false) (bodies : List Bytes) :
    bodiesRun raises ds bodies = ds ++ bodies.map .json := by
  induction bodies generalizing ds with
  | nil => simp [bodiesRun]
  | cons body bodies ih =>
    rw [bodiesRun, hraises, if_neg Bool.false_ne_true, ih]
    simp

theorem script_packets {raises : List Input → Bytes → Bool} {bodies : List Bytes}
    (h : ∀ body ∈ bodies, body ≠ [] ∧ body.length < 10 ^ PyInt.maxStrDigits) :
    script raises ds contentLen (bodies.flatMap packet) = some (bodiesRun raises ds bodies) := by
  induction bodies generalizing ds contentLen with
  | nil =>
    rw [script]
    split
    · rfl
    · next heq => cases heq
  | cons body bodies ih =>
    obtain ⟨⟨hne, hlen⟩, hrest⟩ := List.forall_mem_cons.mp h
    rw [List.flatMap_cons, script_packet hne hlen, bodiesRun]
    split
    · rfl
    · exact ih hrest

/-- However `recv` cuts a stream, the thread comes to an end and dispatches
what the stream asks for, or, if it is killed meanwhile, a part of it. -/
theorem onRun_follows (env : Env) (sock : Reader) (ds : List Input)
    (h : script env.raises [] (-1) sock.data = some ds) : Ends env ds (onRun env sock) :=
  ends_script (t := { sock }) h

/-- Two requests, of which the second comes after the thread is killed. -/
def twoRequests : Reader where
  data := [ascii "{}", ascii "[]"].flatMap packet
  cuts n := n
  ending := .raises "reset"

theorem onRun_follows_twoRequests :
    Ends { killAt := some 3 } [.json (ascii "{}"), .json (ascii "[]")]
      (onRun { killAt := some 3 } twoRequests) :=
  onRun_follows { killAt := some 3 } twoRequests _ (script_packets (by decide +kernel))

theorem returns_writeAll_packets {encode : Json → Option String} {values : List Json}
    {texts : List String} {w : Writer} (name : String)
    (hw : w.Works) (h : values.map encode = texts.map some) :
    ∃ w', Returns (writeAll encode name values w) (.ok (), w') ∧
      w.PutOut ((texts.map utf8Encode).flatMap packet) w' := by
  induction values generalizing texts w with
  | nil =>
    obtain rfl : texts = [] := by simpa using h.symm
    exact ⟨w, Fuel.returns_pure.mpr rfl, by simp, rfl, rfl⟩
  | cons value values ih =>
    cases texts with
    | nil => cases h
    | cons text texts =>
      obtain ⟨henc, hrest⟩ := List.cons.inj h
      obtain ⟨w', hret, hput⟩ := returns_writeJson name hw henc
      obtain ⟨w'', hret', hput'⟩ := ih (hw.of_putOut hput) hrest
      exact ⟨w'', hret.bind_iff.mpr hret', hput.trans hput'⟩

/-- What the adapter sends with `write_json`, the debug server dispatches up to
the first body that raises, the same bodies in the same order, whatever becomes
of the writes and reads. If none raises, that is all of them. -/
theorem dispatched_of_written (encode : Json → Option String) (name : String) (values : List Json)
    (texts : List String) (w : Writer) (env : Env) (hw : w.Works) (hout : w.output = [])
    (hcodec : values.map encode = texts.map some)
    (hlen : ∀ text ∈ texts, text ≠ "" ∧ (utf8Encode text).length < 10 ^ PyInt.maxStrDigits) :
    (∃ w', Returns (writeAll encode name values w) (.ok (), w') ∧
      ∀ sock : Reader, sock.data = w'.output →
        Ends env (bodiesRun env.raises [] (texts.map utf8Encode)) (onRun env sock)) ∧
    ((∀ ds body, env.raises ds body = false) →
      bodiesRun env.raises [] (texts.map utf8Encode) = (texts.map utf8Encode).map .json) := by
  obtain ⟨w', hret, hput⟩ := returns_writeAll_packets name hw hcodec
  refine ⟨⟨w', hret, fun sock hsock => ends_script (t := { sock }) ?_⟩,
    fun hraises => bodiesRun_all hraises _⟩
  have hdata : sock.data = (texts.map utf8Encode).flatMap packet := by
    rw [hsock, hput.1, hout, List.nil_append]
  have hscript : script env.raises [] (-1) sock.data =
      some (bodiesRun env.raises [] (texts.map utf8Encode)) := by
    rw [hdata]
    refine script_packets fun body hbody => ?_
    obtain ⟨text, htext, rfl⟩ := List.mem_map.mp hbody
    refine ⟨fun hnil => (hlen text htext).1 ?_, (hlen text htext).2⟩
    have hdecode : utf8Decode (utf8Encode text) = some text := utf8Decode_encode text
    rw [hnil] at hdecode
    exact Option.some.inj (hdecode.symm.trans rfl)
  exact hscript

def raisesForTrue : Env := { raises := fun _ body => body = ascii "true" }

theorem dispatched_of_written_literals :
    ∃ w', Returns (writeAll encodeLiteral "stdio" [.null, .bool true, .null] slowWriter)
        (.ok (), w') ∧
      ∀ sock : Reader, sock.data = w'.output →
        Ends raisesForTrue [.json (ascii "null"), .json (ascii "true")] (onRun raisesForTrue sock) :=
  (dispatched_of_written encodeLiteral "stdio" [.null, .bool true, .null] ["null", "true", "null"]
    slowWriter raisesForTrue slowWriter_works rfl rfl (by decide +kernel)).1

end Debugpy.Pydevd
