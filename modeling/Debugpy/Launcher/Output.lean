import Debugpy.Common.Stream
import Debugpy.Lib.Utf8

/-!
# The captured output of the debuggee

`CaptureOutput` reads one of the debuggee's streams in chunks, sends each as an
"output" event and tees it into the launcher's own stream. The decoder carries
a cut character over to the next chunk; the replacement of CRLF looks at one
chunk at a time. So the text depends on the chunks exactly where one ends in
CR and the next begins with LF.

The tee gets the text before that replacement, encoded again. In UTF-8 that
gives back the bytes that were captured, up to the write that returns 0.
-/

namespace Debugpy

open Utf8 (Text)

/-- `str.replace("\r\n", "\n")`. -/
def replaceCRLF : Text → Text
  | 13 :: 10 :: text => 10 :: replaceCRLF text
  | x :: text => x :: replaceCRLF text
  | [] => []

/-- The stream that the output is teed into, with its encoder and the outcomes
of its `write()` calls; `output` is what they have taken. -/
structure Tee where
  encode : Text → Option Bytes
  results : Nat → WriteResult
  calls : Nat := 0
  output : Bytes := []

/-- The loop that writes the bytes that are left. Says whether the stream was
closed from the other end; any exception is swallowed. -/
def Tee.write (tee : Tee) (s : Bytes) : Bool × Tee :=
  if s.length = 0 then (false, tee)
  else
    let tee' := { tee with calls := tee.calls + 1 }
    match tee.results tee.calls with
    | .raises _ => (false, tee')
    -- `i += None` raises.
    | .nothing => (false, tee')
    | .accepts 0 => (true, tee')
    | .accepts (n + 1) =>
      { tee' with output := tee.output ++ s.take (n + 1) }.write (s.drop (n + 1))
termination_by s.length
decreasing_by
  simp only [List.length_drop]
  omega

/-- `reads` are the chunks that `os.read` has returned, `sent` the texts of the
"output" events; `fd` says whether `_fd` is still there, `closed` how often it
was closed. -/
structure CaptureOutput where
  category : String
  stream : Option Tee
  fd : Bool := true
  closed : Nat := 0
  decoder : Bytes := []
  reads : List Bytes := []
  sent : List Text := []

def CaptureOutput.decode (c : CaptureOutput) (s : Bytes) (final : Bool) : Text × CaptureOutput :=
  let (decoder, text) := Utf8.decode c.decoder s
  if final then (text ++ Utf8.flush decoder, { c with decoder := [] })
  else (text, { c with decoder })

/-- A send that fails is swallowed: the channel to the adapter is closed. -/
def CaptureOutput.send (c : CaptureOutput) (text : Text) : CaptureOutput :=
  { c with sent := c.sent ++ [replaceCRLF text] }

/-- `os.close(self._fd)`, which raises where there is none. -/
def CaptureOutput.closeFd (c : CaptureOutput) : CaptureOutput :=
  if c.fd then { c with fd := false, closed := c.closed + 1 } else c

def CaptureOutput.tee (c : CaptureOutput) (text : Text) : CaptureOutput :=
  match c.stream with
  | none => c
  | some tee => match tee.encode text with
    | none => c
    | some s =>
      let (closed, tee) := tee.write s
      let c := { c with stream := some tee }
      if closed then c.closeFd else c

def CaptureOutput.processChunk (c : CaptureOutput) (s : Bytes) (final : Bool) : CaptureOutput :=
  let (text, c) := c.decode s final
  if text = [] then c else (c.send text).tee text

/-- `_worker`, with what `os.read` would return next; `none` is an exception it
raises. -/
def CaptureOutput.worker (c : CaptureOutput) : List (Option Bytes) → CaptureOutput
  | [] => c.processChunk [] true
  | read :: reads =>
    if c.fd then
      match read with
      | none => c.processChunk [] true
      | some [] => c.processChunk [] true
      | some s => ({ c with reads := c.reads ++ [s] }.processChunk s false).worker reads
    else c.processChunk [] true

/-- The loop of `_worker`, before the flush. -/
def CaptureOutput.loop (c : CaptureOutput) : List (Option Bytes) → CaptureOutput
  | [] => c
  | read :: reads =>
    if c.fd then
      match read with
      | none => c
      | some [] => c
      | some s => ({ c with reads := c.reads ++ [s] }.processChunk s false).loop reads
    else c

def CaptureOutput.del (c : CaptureOutput) : CaptureOutput := c.closeFd

theorem CaptureOutput.tee_frame (c : CaptureOutput) (text : Text) :
    ∃ stream fd closed, c.tee text = { c with stream, fd, closed } := by
  unfold CaptureOutput.tee CaptureOutput.closeFd
  split
  · exact ⟨_, _, _, rfl⟩
  · split
    · exact ⟨_, _, _, rfl⟩
    · dsimp only
      split_ifs <;> exact ⟨_, _, _, rfl⟩

@[simp] theorem CaptureOutput.tee_decoder (c : CaptureOutput) (text : Text) :
    (c.tee text).decoder = c.decoder := by
  obtain ⟨_, _, _, h⟩ := c.tee_frame text
  rw [h]

@[simp] theorem CaptureOutput.tee_reads (c : CaptureOutput) (text : Text) :
    (c.tee text).reads = c.reads := by
  obtain ⟨_, _, _, h⟩ := c.tee_frame text
  rw [h]

@[simp] theorem CaptureOutput.tee_sent (c : CaptureOutput) (text : Text) :
    (c.tee text).sent = c.sent := by
  obtain ⟨_, _, _, h⟩ := c.tee_frame text
  rw [h]

-- ---------------------------------------------------------------------------
-- CRLF across a cut
-- ---------------------------------------------------------------------------

def IsCutCRLF (u v : Text) : Prop := u.getLast? = some 13 ∧ v.head? = some 10

theorem replaceCRLF_cons (h : x = 13 → text.head? ≠ some 10) :
    replaceCRLF (x :: text) = x :: replaceCRLF text := by
  rw [replaceCRLF]
  rintro text' hx rfl
  exact h hx rfl

theorem replaceCRLF_append (h : ¬ IsCutCRLF u v) :
    replaceCRLF (u ++ v) = replaceCRLF u ++ replaceCRLF v := by
  induction u using replaceCRLF.induct with
  | case1 u ih =>
    have hu : ¬ IsCutCRLF u v := by
      rintro ⟨hlast, hhead⟩
      exact h ⟨by simp [List.getLast?_cons, hlast], hhead⟩
    simp [replaceCRLF, ih hu]
  | case2 x u hno ih =>
    cases u with
    | nil =>
      have hx : x = 13 → v.head? ≠ some 10 := by
        rintro rfl hhead
        exact h ⟨rfl, hhead⟩
      rw [List.singleton_append, replaceCRLF_cons hx, replaceCRLF_cons (by simp)]
      rfl
    | cons y u =>
      have hu : ¬ IsCutCRLF (y :: u) v := by
        rintro ⟨hlast, hhead⟩
        exact h ⟨by simpa [List.getLast?_cons_cons] using hlast, hhead⟩
      have hx : x = 13 → y ≠ 10 := fun hx hy => hno u hx (hy ▸ rfl)
      rw [replaceCRLF_cons (by simpa using hx), List.cons_append, List.cons_append,
        replaceCRLF_cons (by simpa using hx), ← List.cons_append, ih hu]
      rfl
  | case3 => rfl

theorem length_replaceCRLF_append (h : IsCutCRLF u v) :
    (replaceCRLF (u ++ v)).length < (replaceCRLF u ++ replaceCRLF v).length := by
  obtain ⟨u, rfl⟩ := List.getLast?_eq_some_iff.mp h.1
  obtain ⟨v, rfl⟩ := List.head?_eq_some_iff.mp h.2
  have hcr : ¬ IsCutCRLF u [13] := by
    rintro ⟨-, hhead⟩
    cases hhead
  have hcrlf : ¬ IsCutCRLF u (13 :: 10 :: v) := by
    rintro ⟨-, hhead⟩
    cases hhead
  rw [List.append_assoc, List.singleton_append, replaceCRLF_append hcr,
    replaceCRLF_append hcrlf, replaceCRLF_cons (x := 10) (by simp)]
  simp [replaceCRLF]

theorem isCutCRLF_decode (bs s : Bytes) :
    IsCutCRLF (Utf8.decode [] bs).2 (Utf8.decode (Utf8.decode [] bs).1 s).2 ↔
      bs.getLast? = some 13 ∧ s.head? = some 10 := by
  have hlast : ((Utf8.decode [] bs).2.getLast? = some 13 ∧ (Utf8.decode [] bs).1 = []) ↔
      bs.getLast? = some 13 := Utf8.getLast?_decode (x := 13) (by decide)
  have hhead : (Utf8.decode (Utf8.decode [] bs).1 s).2.head? = some 10 ↔
      (Utf8.decode [] bs).1 = [] ∧ s.head? = some 10 := Utf8.head?_decode (x := 10) (by decide)
  rw [IsCutCRLF, ← hlast, and_assoc]
  exact and_congr_right fun _ => hhead

-- ---------------------------------------------------------------------------
-- The texts of a run
-- ---------------------------------------------------------------------------

def SplitsCRLF (reads : List Bytes) : Prop :=
  ∃ before s after, reads = before ++ s :: after ∧ before.flatten.getLast? = some 13 ∧
    s.head? = some 10

theorem not_splitsCRLF_nil : ¬ SplitsCRLF [] := by
  rintro ⟨before, s, after, h, -⟩
  simp at h

theorem splitsCRLF_concat : SplitsCRLF (reads ++ [s]) ↔
    SplitsCRLF reads ∨ reads.flatten.getLast? = some 13 ∧ s.head? = some 10 := by
  constructor
  · rintro ⟨before, s', after, h, hlast, hhead⟩
    rcases List.eq_nil_or_concat after with rfl | ⟨after, s'', rfl⟩
    · obtain ⟨rfl, hs⟩ := List.append_inj' h rfl
      cases hs
      exact .inr ⟨hlast, hhead⟩
    · have h' : reads ++ [s] = (before ++ s' :: after) ++ [s''] := by simpa using h
      exact .inl ⟨before, s', after, List.append_inj_left' h' rfl, hlast, hhead⟩
  · rintro (⟨before, s', after, rfl, hlast, hhead⟩ | ⟨hlast, hhead⟩)
    · exact ⟨before, s', after ++ [s], by simp, hlast, hhead⟩
    · exact ⟨reads, s, [], rfl, hlast, hhead⟩

/-- `sent` is `whole` with its CRLFs replaced, but for those that were
split. -/
def IsTextOf (split : Prop) (sent whole : Text) : Prop :=
  (¬ split → sent = replaceCRLF whole) ∧ (split → (replaceCRLF whole).length < sent.length)

theorem IsTextOf.length_le (h : IsTextOf split sent whole) :
    (replaceCRLF whole).length ≤ sent.length := by
  by_cases hs : split
  · exact Nat.le_of_lt (h.2 hs)
  · exact Nat.le_of_eq (congrArg List.length (h.1 hs)).symm

theorem IsTextOf.eq_iff (h : IsTextOf split sent whole) : sent = replaceCRLF whole ↔ ¬ split := by
  constructor
  · intro heq hs
    exact absurd (congrArg List.length heq) (Nat.ne_of_gt (h.2 hs))
  · exact h.1

theorem IsTextOf.append (h : IsTextOf split sent whole) (text : Text) :
    IsTextOf (split ∨ IsCutCRLF whole text) (sent ++ replaceCRLF text) (whole ++ text) := by
  have hlen := h.length_le
  by_cases hcut : IsCutCRLF whole text
  · refine ⟨fun hno => absurd (.inr hcut) hno, fun _ => ?_⟩
    have hlt := length_replaceCRLF_append hcut
    rw [List.length_append] at hlt ⊢
    omega
  · rw [IsTextOf, replaceCRLF_append hcut]
    refine ⟨fun hno => ?_, ?_⟩
    · rw [h.1 fun hs => hno (.inl hs)]
    · rintro (hs | hs)
      · have := h.2 hs
        rw [List.length_append, List.length_append]
        omega
      · exact absurd hs hcut

theorem CaptureOutput.processChunk_sent (c : CaptureOutput) (s : Bytes) (final : Bool) :
    (c.processChunk s final).sent.flatten =
      c.sent.flatten ++ replaceCRLF (c.decode s final).1 := by
  have hsent : (c.decode s final).2.sent = c.sent := by
    cases final <;> rfl
  unfold CaptureOutput.processChunk
  dsimp only
  split
  · rename_i htext
    simp [htext, hsent, replaceCRLF]
  · simp [CaptureOutput.send, hsent]

theorem CaptureOutput.processChunk_reads (c : CaptureOutput) (s : Bytes) (final : Bool) :
    (c.processChunk s final).reads = c.reads := by
  unfold CaptureOutput.processChunk
  dsimp only
  split <;> cases final <;> simp [CaptureOutput.decode, CaptureOutput.send]

theorem CaptureOutput.processChunk_decoder (c : CaptureOutput) (s : Bytes) :
    (c.processChunk s false).decoder = (Utf8.decode c.decoder s).1 := by
  unfold CaptureOutput.processChunk
  dsimp only
  split <;> simp [CaptureOutput.decode, CaptureOutput.send]

/-- What holds between two chunks. -/
structure CaptureOutput.Captured (c : CaptureOutput) : Prop where
  decoder : c.decoder = (Utf8.decode [] c.reads.flatten).1
  sent : IsTextOf (SplitsCRLF c.reads) c.sent.flatten (Utf8.decode [] c.reads.flatten).2

theorem CaptureOutput.captured_start (category : String) (stream : Option Tee) :
    Captured { category, stream } :=
  ⟨rfl, fun _ => rfl, fun hs => absurd hs not_splitsCRLF_nil⟩

theorem CaptureOutput.Captured.processChunk {c : CaptureOutput} (h : c.Captured) (s : Bytes) :
    ({ c with reads := c.reads ++ [s] }.processChunk s false).Captured := by
  have hwhole : Utf8.decode [] (c.reads ++ [s]).flatten = ((Utf8.decode c.decoder s).1,
      (Utf8.decode [] c.reads.flatten).2 ++ (Utf8.decode c.decoder s).2) := by
    rw [List.flatten_append, Utf8.decode_append, ← h.decoder, List.flatten_singleton]
  constructor
  · rw [processChunk_reads, processChunk_decoder, hwhole]
  · rw [processChunk_reads, processChunk_sent, hwhole]
    have hsplit : SplitsCRLF (c.reads ++ [s]) ↔ SplitsCRLF c.reads ∨
        IsCutCRLF (Utf8.decode [] c.reads.flatten).2 (Utf8.decode c.decoder s).2 := by
      rw [splitsCRLF_concat, h.decoder, isCutCRLF_decode]
    rw [hsplit]
    exact h.sent.append _

/-- The final flush adds the escapes of what the decoder holds, which begin
with no LF. -/
theorem CaptureOutput.Captured.flush {c : CaptureOutput} (h : c.Captured) :
    IsTextOf (SplitsCRLF c.reads) (c.processChunk [] true).sent.flatten
      (Utf8.decodeAll c.reads.flatten) := by
  have hcut : ¬ IsCutCRLF (Utf8.decode [] c.reads.flatten).2 (Utf8.flush c.decoder) := by
    rintro ⟨-, hhead⟩
    have := Utf8.le_of_mem_flush (List.mem_of_head? hhead)
    omega
  have happend := h.sent.append (Utf8.flush c.decoder)
  rw [or_iff_left hcut] at happend
  rw [processChunk_sent, Utf8.decodeAll, ← h.decoder]
  exact happend

theorem CaptureOutput.loop_chunk {c : CaptureOutput} (hfd : c.fd = true) (b : UInt8) (s : Bytes)
    (reads : List (Option Bytes)) : c.loop (some (b :: s) :: reads) =
      ({ c with reads := c.reads ++ [b :: s] }.processChunk (b :: s) false).loop reads := by
  rw [CaptureOutput.loop, if_pos hfd]
  exact List.cons_ne_nil b s

theorem CaptureOutput.worker_eq_loop (c : CaptureOutput) (reads : List (Option Bytes)) :
    c.worker reads = (c.loop reads).processChunk [] true := by
  induction reads generalizing c with
  | nil => rfl
  | cons read reads ih =>
    by_cases hfd : c.fd
    · match read with
      | none => simp [CaptureOutput.worker, CaptureOutput.loop, hfd]
      | some [] => simp [CaptureOutput.worker, CaptureOutput.loop, hfd]
      | some (b :: s) => simp [CaptureOutput.worker, CaptureOutput.loop, hfd, ih]
    · simp [CaptureOutput.worker, CaptureOutput.loop, hfd]

theorem CaptureOutput.loop_invariant {I : CaptureOutput → Prop}
    (hstep : ∀ c s, I c → I ({ c with reads := c.reads ++ [s] }.processChunk s false))
    {c : CaptureOutput} (h : I c) (reads : List (Option Bytes)) : I (c.loop reads) := by
  induction reads generalizing c with
  | nil => exact h
  | cons read reads ih =>
    by_cases hfd : c.fd
    · match read with
      | none => simpa [CaptureOutput.loop, hfd] using h
      | some [] => simpa [CaptureOutput.loop, hfd] using h
      | some (b :: s) => exact loop_chunk hfd b s reads ▸ ih (hstep c (b :: s) h)
    · simpa [CaptureOutput.loop, hfd] using h

/-- However the stream is cut, the "output" events carry the decoding of what
was read with every CRLF replaced, unless a chunk ends between its bytes. -/
theorem worker_output_eq_iff (category : String) (stream : Option Tee)
    (reads : List (Option Bytes)) :
    let c := CaptureOutput.worker { category, stream } reads
    c.sent.flatten = replaceCRLF (Utf8.decodeAll c.reads.flatten) ↔ ¬ SplitsCRLF c.reads := by
  intro c
  have hloop := CaptureOutput.loop_invariant (fun c s h => h.processChunk s)
    (CaptureOutput.captured_start category stream) reads
  rw [show c = _ from CaptureOutput.worker_eq_loop _ reads, CaptureOutput.processChunk_reads]
  exact hloop.flush.eq_iff

theorem CaptureOutput.processChunk_untee {c : CaptureOutput} (h : c.stream = none) (s : Bytes)
    (final : Bool) : (c.processChunk s final).stream = none ∧ (c.processChunk s final).fd = c.fd := by
  unfold CaptureOutput.processChunk
  dsimp only
  split <;> cases final <;> simp [CaptureOutput.decode, CaptureOutput.send, CaptureOutput.tee, h]

theorem CaptureOutput.worker_reads {c : CaptureOutput} (hfd : c.fd = true)
    (hstream : c.stream = none) {chunks : List Bytes} (h : ∀ s ∈ chunks, s ≠ []) :
    (c.worker (chunks.map some)).reads = c.reads ++ chunks := by
  induction chunks generalizing c with
  | nil => simp [CaptureOutput.worker, processChunk_reads]
  | cons s chunks ih =>
    obtain ⟨b, s, rfl⟩ := List.exists_cons_of_ne_nil (h s List.mem_cons_self)
    have hnext := processChunk_untee (c := { c with reads := c.reads ++ [b :: s] }) hstream
      (b :: s) false
    rw [List.map_cons, CaptureOutput.worker, if_pos hfd]
    · rw [ih (hnext.2.trans hfd) hnext.1 fun s hs => h s (List.mem_cons_of_mem _ hs),
        processChunk_reads]
      simp
    · exact List.cons_ne_nil b s

/-- A debuggee that writes CRLF, read byte by byte. -/
theorem worker_splits_crlf :
    let c := CaptureOutput.worker { category := "stdout", stream := none } [some [13], some [10]]
    c.reads = [[13], [10]] ∧
      c.sent.flatten ≠ replaceCRLF (Utf8.decodeAll c.reads.flatten) := by
  decide

-- ---------------------------------------------------------------------------
-- What the tee has taken
-- ---------------------------------------------------------------------------

def Tee.Refused (tee : Tee) : Prop := ∃ i < tee.calls, tee.results i = .accepts 0

/-- Every write returns a count, and all of them 0 after the first that
does. -/
structure Counts (results : Nat → WriteResult) : Prop where
  accepts : ∀ i, ∃ n, results i = .accepts n
  stays : ∀ i, results i = .accepts 0 → results (i + 1) = .accepts 0

theorem Counts.refused (h : Counts results) (hi : results i = .accepts 0) (hij : i ≤ j) :
    results j = .accepts 0 := by
  induction hij with
  | refl => exact hi
  | step _ ih => exact h.stays _ ih

/-- What the loop does with `s`: unless it found the stream closed, it has
written all of it. -/
structure Tee.Wrote (tee : Tee) (s : Bytes) (closed : Bool) (tee' : Tee) : Prop where
  encode : tee'.encode = tee.encode
  results : tee'.results = tee.results
  calls : tee.calls ≤ tee'.calls
  part : ∃ out, tee'.output = tee.output ++ out ∧ out <+: s
  whole : closed = false → tee'.output = tee.output ++ s ∧ (tee'.Refused → tee.Refused)
  refused : closed = true → tee'.Refused

theorem Tee.wrote_write (tee : Tee) (h : ∀ i, ∃ n, tee.results i = .accepts n) (s : Bytes) :
    tee.Wrote s (tee.write s).1 (tee.write s).2 := by
  fun_induction Tee.write tee s with
  | case1 tee s hs =>
    have hs : s = [] := List.eq_nil_of_length_eq_zero hs
    exact ⟨rfl, rfl, Nat.le_refl _, ⟨[], by simp⟩, fun _ => ⟨by simp [hs], id⟩, by simp⟩
  | case2 tee s hs tee' text hr =>
    obtain ⟨n, hn⟩ := h tee.calls
    simp [hn] at hr
  | case3 tee s hs tee' hr =>
    obtain ⟨n, hn⟩ := h tee.calls
    simp [hn] at hr
  | case4 tee s hs tee' hr =>
    exact ⟨rfl, rfl, Nat.le_succ _, ⟨[], by simp [tee']⟩, by simp,
      fun _ => ⟨tee.calls, Nat.lt_succ_self _, hr⟩⟩
  | case5 tee s hs tee' n hr ih =>
    obtain ⟨hencode, hresults, hcalls, ⟨out, hout, hpart⟩, hwhole, hrefused⟩ := ih h
    have hs : s.take (n + 1) ++ s.drop (n + 1) = s := List.take_append_drop (n + 1) s
    refine ⟨hencode, hresults, Nat.le_of_succ_le hcalls, ⟨s.take (n + 1) ++ out, ?_, ?_⟩, ?_, hrefused⟩
    · rw [hout, List.append_assoc]
    · conv => rhs; rw [← hs]
      exact (List.prefix_append_right_inj _).mpr hpart
    · intro hopen
      obtain ⟨hall, hback⟩ := hwhole hopen
      refine ⟨by rw [hall, List.append_assoc, hs], fun hrefused => ?_⟩
      obtain ⟨i, hi, hzero⟩ := hback hrefused
      rcases Nat.lt_succ_iff_lt_or_eq.mp hi with hi | rfl
      · exact ⟨i, hi, hzero⟩
      · simp [show tee.results tee.calls = .accepts 0 from hzero] at hr

theorem Tee.write_refused {tee : Tee} (hcounts : Counts tee.results) (h : tee.Refused) (s : Bytes) :
    (tee.write s).2.output = tee.output := by
  obtain ⟨i, hi, hzero⟩ := h
  have hr := hcounts.refused hzero (Nat.le_of_lt hi)
  unfold Tee.write
  split
  · rfl
  · simp [hr]

/-- Until a write returns 0 the tee has taken everything but what the decoder
holds back; with it the descriptor is closed. -/
structure CaptureOutput.Teed (results : Nat → WriteResult) (captured : Bytes) (c : CaptureOutput)
    (tee : Tee) : Prop where
  stream : c.stream = some tee
  encode : tee.encode = Utf8.encode
  results : tee.results = results
  held : Utf8.Held c.decoder
  copied : ¬ tee.Refused → c.fd = true ∧ c.closed = 0 ∧ tee.output ++ c.decoder = captured
  refused : tee.Refused → c.fd = false ∧ c.closed = 1 ∧ tee.output <+: captured

theorem CaptureOutput.consumes_decode {c : CaptureOutput} (h : Utf8.Held c.decoder) (s : Bytes)
    (final : Bool) :
    Utf8.Consumes ((c.decode s final).2.decoder, (c.decode s final).1) (c.decoder ++ s) := by
  have hstep := Utf8.encode_decode h s
  cases final with
  | false => exact hstep
  | true =>
    obtain ⟨hheld, out, hout, heq⟩ := hstep
    refine ⟨Utf8.held_nil, _, Utf8.encode_append hout (Utf8.encode_flush hheld), ?_⟩
    rw [heq]
    exact List.append_nil _

theorem CaptureOutput.teed_tee {c : CaptureOutput} {results : Nat → WriteResult} {tee : Tee}
    (hcounts : Counts results)
    (hstream : c.stream = some tee) (hencode : tee.encode = Utf8.encode)
    (hresults : tee.results = results) (hheld : Utf8.Held c.decoder)
    (hout : Utf8.encode text = some out)
    (hcopied : ¬ tee.Refused →
      c.fd = true ∧ c.closed = 0 ∧ tee.output ++ out ++ c.decoder = captured)
    (hrefused : tee.Refused → c.fd = false ∧ c.closed = 1 ∧ tee.output <+: captured) :
    ∃ tee', (c.tee text).Teed results captured tee' := by
  have hwrote := tee.wrote_write (by rw [hresults]; exact hcounts.accepts) out
  have hgone : tee.Refused → (tee.write out).2.output = tee.output :=
    fun h => Tee.write_refused (hresults ▸ hcounts) h out
  have htee : c.tee text = if (tee.write out).1
      then { c with stream := some (tee.write out).2 }.closeFd
      else { c with stream := some (tee.write out).2 } := by
    simp [CaptureOutput.tee, hstream, hencode, hout]
  rw [htee]
  generalize tee.write out = written at hwrote hgone
  obtain ⟨closed, tee'⟩ := written
  have hlater : tee.Refused → tee'.Refused := by
    rintro ⟨i, hi, hzero⟩
    exact ⟨i, Nat.lt_of_lt_of_le hi hwrote.calls, hwrote.results ▸ hzero⟩
  refine ⟨tee', ?_⟩
  cases closed with
  | false =>
    obtain ⟨hall, hback⟩ := hwrote.whole rfl
    refine ⟨rfl, hwrote.encode.trans hencode, hwrote.results.trans hresults, hheld, ?_, ?_⟩
    · intro hopen
      have hcopied := hcopied fun h => hopen (hlater h)
      exact ⟨hcopied.1, hcopied.2.1, by rw [hall]; exact hcopied.2.2⟩
    · intro h
      have hrefused := hrefused (hback h)
      exact ⟨hrefused.1, hrefused.2.1, by rw [hgone (hback h)]; exact hrefused.2.2⟩
  | true =>
    have hrefused' := hwrote.refused rfl
    rw [if_pos rfl]
    by_cases hbefore : tee.Refused
    · -- The write after the descriptor is gone raises when it is to be closed.
      obtain ⟨hfd, hclosed, hpart⟩ := hrefused hbefore
      have hframe : { c with stream := some tee' }.closeFd = { c with stream := some tee' } := by
        simp [CaptureOutput.closeFd, hfd]
      rw [hframe]
      refine ⟨rfl, hwrote.encode.trans hencode, hwrote.results.trans hresults, hheld,
        fun hopen => absurd hrefused' hopen, fun _ => ⟨hfd, hclosed, ?_⟩⟩
      rw [hgone hbefore]
      exact hpart
    · obtain ⟨hfd, hclosed, hcopied⟩ := hcopied hbefore
      obtain ⟨part, hpart, hpre⟩ := hwrote.part
      have hframe : { c with stream := some tee' }.closeFd =
          { c with stream := some tee', fd := false, closed := 1 } := by
        simp [CaptureOutput.closeFd, hfd, hclosed]
      rw [hframe]
      refine ⟨rfl, hwrote.encode.trans hencode, hwrote.results.trans hresults, hheld,
        fun hopen => absurd hrefused' hopen, fun _ => ⟨rfl, rfl, ?_⟩⟩
      rw [hpart, ← hcopied, List.append_assoc]
      exact (List.prefix_append_right_inj _).mpr (hpre.trans (List.prefix_append _ _))

theorem CaptureOutput.teed_processChunk {c : CaptureOutput} {results : Nat → WriteResult}
    {tee : Tee} (hcounts : Counts results) (h : c.Teed results captured tee) (s : Bytes) (final : Bool) :
    ∃ tee', (c.processChunk s final).Teed results (captured ++ s) tee' := by
  obtain ⟨hheld, out, hout, heq⟩ := CaptureOutput.consumes_decode h.held s final
  have hframe : ∃ decoder, (c.decode s final).2 = { c with decoder } := by
    cases final <;> exact ⟨_, rfl⟩
  obtain ⟨decoder, hframe⟩ := hframe
  unfold CaptureOutput.processChunk
  rw [show c.decode s final = ((c.decode s final).1, (c.decode s final).2) from rfl]
  simp only [hframe] at hheld heq ⊢
  generalize (c.decode s final).1 = text at hout ⊢
  have hcopied : ¬ tee.Refused →
      c.fd = true ∧ c.closed = 0 ∧ tee.output ++ out ++ decoder = captured ++ s := by
    intro hopen
    obtain ⟨hfd, hclosed, hcopied⟩ := h.copied hopen
    exact ⟨hfd, hclosed, by rw [List.append_assoc, heq, ← hcopied, List.append_assoc]⟩
  have hrefused : tee.Refused → c.fd = false ∧ c.closed = 1 ∧ tee.output <+: captured ++ s := by
    intro hgone
    obtain ⟨hfd, hclosed, hpart⟩ := h.refused hgone
    exact ⟨hfd, hclosed, hpart.trans (List.prefix_append _ _)⟩
  split
  · rename_i htext
    subst htext
    cases hout
    exact ⟨tee, h.stream, h.encode, h.results, hheld, by simpa using hcopied, hrefused⟩
  · exact CaptureOutput.teed_tee (c := CaptureOutput.send { c with decoder } text) hcounts h.stream
      h.encode h.results hheld hout hcopied hrefused

/-- What `os.read` returns up to the end of the stream or an exception. -/
def untilEnd : List (Option Bytes) → List Bytes
  | some (b :: s) :: reads => (b :: s) :: untilEnd reads
  | _ => []

theorem CaptureOutput.loop_reads (c : CaptureOutput) (reads : List (Option Bytes)) :
    ∃ read, (c.loop reads).reads = c.reads ++ read ∧ read <+: untilEnd reads ∧
      ((c.loop reads).fd = true → read = untilEnd reads) := by
  induction reads generalizing c with
  | nil => exact ⟨[], by simp [CaptureOutput.loop, untilEnd]⟩
  | cons read reads ih =>
    by_cases hfd : c.fd
    · match read with
      | none => exact ⟨[], by simp [CaptureOutput.loop, untilEnd, hfd]⟩
      | some [] => exact ⟨[], by simp [CaptureOutput.loop, untilEnd, hfd]⟩
      | some (b :: s) =>
        obtain ⟨rest, hrest, hpart, hwhole⟩ :=
          ih ({ c with reads := c.reads ++ [b :: s] }.processChunk (b :: s) false)
        rw [loop_chunk hfd, untilEnd]
        refine ⟨(b :: s) :: rest, ?_, ?_, fun hopen => by rw [hwhole hopen]⟩
        · rw [hrest, processChunk_reads, List.append_assoc]
          rfl
        · exact (List.prefix_cons_inj _).mpr hpart
    · exact ⟨[], by simp [CaptureOutput.loop, hfd]⟩

theorem CaptureOutput.loop_append {c : CaptureOutput} (h : (c.loop before).fd = false)
    (after : List (Option Bytes)) : c.loop (before ++ after) = c.loop before := by
  induction before generalizing c with
  | nil =>
    have hfd : c.fd = false := h
    cases after <;> simp [CaptureOutput.loop, hfd]
  | cons read before ih =>
    by_cases hfd : c.fd
    · match read with
      | none => simp [CaptureOutput.loop, hfd]
      | some [] => simp [CaptureOutput.loop, hfd]
      | some (b :: s) =>
        rw [loop_chunk hfd] at h
        rw [List.cons_append, loop_chunk hfd, loop_chunk hfd]
        exact ih h
    · simp [CaptureOutput.loop, hfd]

/-- The bytes that the tee has taken are those that were captured, as long as
no write returns 0. With such a write the descriptor is closed, once, and
nothing more is read; what was taken is the beginning of what was captured. -/
theorem tee_exact (category : String) (hcounts : Counts results) (reads : List (Option Bytes)) :
    let start : CaptureOutput :=
      { category, stream := some { encode := Utf8.encode, results } }
    let c := start.worker reads
    ∃ tee, c.stream = some tee ∧
      ((∀ i, results i ≠ .accepts 0) →
        c.reads = untilEnd reads ∧ tee.output = (untilEnd reads).flatten) ∧
      (tee.Refused → c.reads <+: untilEnd reads ∧ tee.output <+: c.reads.flatten ∧
        c.fd = false ∧ c.closed = 1 ∧ c.del.closed = 1) ∧
      (∀ before after tee', reads = before ++ after → (start.loop before).stream = some tee' →
        tee'.Refused → start.loop reads = start.loop before) := by
  intro start c
  have hstart : start.Teed results [] { encode := Utf8.encode, results } := by
    have hopen : ¬ Tee.Refused { encode := Utf8.encode, results } := by
      rintro ⟨i, hi, -⟩
      exact absurd hi (Nat.not_lt_zero i)
    exact ⟨rfl, rfl, rfl, Utf8.held_nil, fun _ => ⟨rfl, rfl, rfl⟩, fun h => absurd h hopen⟩
  have hloop : ∀ reads, ∃ tee,
      (start.loop reads).Teed results (start.loop reads).reads.flatten tee := by
    refine CaptureOutput.loop_invariant (I := fun c => ∃ tee, c.Teed results c.reads.flatten tee)
      ?_ ⟨_, hstart⟩
    rintro c s ⟨tee, h⟩
    have h' : { c with reads := c.reads ++ [s] }.Teed results c.reads.flatten tee :=
      ⟨h.stream, h.encode, h.results, h.held, h.copied, h.refused⟩
    simpa [CaptureOutput.processChunk_reads] using
      CaptureOutput.teed_processChunk hcounts h' s false
  obtain ⟨tee₀, htee₀⟩ := hloop reads
  obtain ⟨read, hread, hpart, hwhole⟩ := start.loop_reads reads
  obtain ⟨tee, htee⟩ := CaptureOutput.teed_processChunk hcounts htee₀ [] true
  have hc : c = (start.loop reads).processChunk [] true := start.worker_eq_loop reads
  have hreads : c.reads = read := by
    rw [hc, CaptureOutput.processChunk_reads, hread]
    rfl
  rw [← hc, hread, List.append_nil, show start.reads = [] from rfl, List.nil_append] at htee
  refine ⟨tee, htee.stream, fun hpos => ?_, fun hrefused => ?_, ?_⟩
  · have hopen : ∀ tee : Tee, tee.results = results → ¬ tee.Refused := by
      rintro tee rfl ⟨i, -, hzero⟩
      exact hpos i hzero
    have hread := hwhole (htee₀.copied (hopen tee₀ htee₀.results)).1
    have hflushed : c.decoder = [] := by
      rw [hc]
      unfold CaptureOutput.processChunk
      dsimp only
      split <;> simp [CaptureOutput.decode, CaptureOutput.send]
    have hcopied := (htee.copied (hopen tee htee.results)).2.2
    rw [hflushed, List.append_nil] at hcopied
    exact ⟨hreads.trans hread, hcopied.trans (congrArg List.flatten hread)⟩
  · obtain ⟨hfd, hclosed, hpre⟩ := htee.refused hrefused
    refine ⟨hreads ▸ hpart, hreads ▸ hpre, hfd, hclosed, ?_⟩
    simp [CaptureOutput.del, CaptureOutput.closeFd, hfd, hclosed]
  · rintro before after tee' rfl hstream hrefused
    obtain ⟨tee₁, htee₁⟩ := hloop before
    cases htee₁.stream.symm.trans hstream
    exact CaptureOutput.loop_append (htee₁.refused hrefused).1 after

/-- A character in two reads, taken byte by byte. -/
theorem tee_exact_bytewise :
    let stream : Tee := { encode := Utf8.encode, results := fun _ => .accepts 1 }
    let start : CaptureOutput := { category := "stdout", stream := some stream }
    ∃ tee, (start.worker [some [0xC3], some [0xA9, 65]]).stream = some tee ∧
      tee.output = [0xC3, 0xA9, 65] := by
  have hcounts : Counts fun _ => .accepts 1 := ⟨fun _ => ⟨1, rfl⟩, fun _ h => by cases h⟩
  obtain ⟨tee, htee, hwhole, -⟩ := tee_exact "stdout" hcounts [some [0xC3], some [0xA9, 65]]
  exact ⟨tee, htee, (hwhole fun _ h => by cases h).2⟩

end Debugpy
