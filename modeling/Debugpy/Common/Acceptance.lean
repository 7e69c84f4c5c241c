import Debugpy.Common.RoundTrip

/-!
# Whether what is written is read

`write_json` does not know of the limit that `read_json` has on the length of a
body, and sends whatever text its encoder returns. `delivers_iff` says when a
call delivers a value or writes nothing, for every encoder and every writer.
-/

namespace Debugpy

open Fuel

/-- From the `n`-th call on the writer takes `size` bytes without raising, and
the next call would be the `m`-th. -/
inductive Takes (results : Nat → WriteResult) : Nat → Nat → Nat → Prop
  | done : Takes results n 0 n
  | nothing : results n = .nothing → Takes results (n + 1) (size + 1) m →
      Takes results n (size + 1) m
  | accepts : results n = .accepts k → Takes results (n + 1) (size + 1 - k) m →
      Takes results n (size + 1) m

/-- From the `n`-th call on the writer raises before it takes anything. -/
inductive Breaks (results : Nat → WriteResult) : Nat → Prop
  | raises : results n = .raises text → Breaks results n
  | nothing : results n = .nothing → Breaks results (n + 1) → Breaks results n
  | empty : results n = .accepts 0 → Breaks results (n + 1) → Breaks results n

/-- A peer that has these bytes ahead of it reads a value from them, and no
more than them. -/
def Reads (decode : String → Option Json) (bs : Bytes) : Prop :=
  ∃ value, ∀ name rest (r : Reader), r.data = bs ++ rest →
    ∃ r', Returns (readJson decode name r) (.ok value, r') ∧ r.LeftWith rest r'

/-- `write_json` raises and has written nothing, or it returns and has written
what the peer reads. -/
def Delivers (encode : Json → Option String) (decode : String → Option Json) (name : String)
    (closed : Bool) (value : Json) (w : Writer) : Prop :=
  (∃ e w', Returns (writeJson encode name closed value w) (.error e, w') ∧ w'.output = w.output) ∨
  ∃ bs w', Returns (writeJson encode name closed value w) (.ok (), w') ∧
    w'.output = w.output ++ bs ∧ Reads decode bs

/-- There is nothing to write, or nothing can be written, or the body is one
that is accepted and the writer takes all of it. -/
def Deliverable (encode : Json → Option String) (decode : String → Option Json) (closed : Bool)
    (value : Json) (w : Writer) : Prop :=
  closed = true ∨ ∀ text, encode value = some text → Breaks w.results w.calls ∨
    (utf8Encode text).length ≤ MAX_BODY_SIZE ∧ (decode text).isSome ∧
      ∃ n, Takes w.results w.calls (packet (utf8Encode text)).length n ∧ w.flushes n = none

-- ---------------------------------------------------------------------------
-- The reader
-- ---------------------------------------------------------------------------

section
variable {decode : String → Option Json} {text : String}

theorem reads_packet (h : (utf8Encode text).length ≤ MAX_BODY_SIZE) (hd : decode text = some value) :
    Reads decode (packet (utf8Encode text)) := by
  refine ⟨value, fun name rest r hr => ?_⟩
  have hpacket : IsPacket r.data (utf8Encode text) rest := hr ▸ isPacket_packet h
  obtain ⟨r', hret, hleft⟩ := returns_readJson_packet decode name hpacket
  exact ⟨r', by simpa [decodeBody, hd] using hret, hleft⟩

theorem of_reads_packet (h : Reads decode (packet (utf8Encode text))) :
    (utf8Encode text).length ≤ MAX_BODY_SIZE ∧ (decode text).isSome := by
  obtain ⟨value, hread⟩ := h
  let r : Reader := { data := packet (utf8Encode text), cuts := fun n => n, ending := .eof }
  obtain ⟨r', hret, -⟩ := hread "" [] r (by simp [r])
  have hlen : (utf8Encode text).length ≤ MAX_BODY_SIZE := by
    by_contra hlong
    have hbad : HasBadLength r.data := by
      refine ⟨_, _, (List.append_nil r.data ▸ isHeader_packet (utf8Encode text) [] : _), ?_⟩
      rw [contentLength_headerLine, if_neg hlong]
    obtain ⟨error, r'', hret'⟩ := returns_readJson_badLength decode "" hbad
    cases hret.unique hret'
  refine ⟨hlen, ?_⟩
  have hpacket : IsPacket (packet (utf8Encode text) ++ []) (utf8Encode text) [] :=
    isPacket_packet hlen
  have hr : r.data = packet (utf8Encode text) ++ [] := by simp [r]
  obtain ⟨r'', hret', -⟩ := returns_readJson_packet decode "" (hr ▸ hpacket)
  have hbody := congrArg Prod.fst (hret.unique hret')
  cases hd : decode text with
  | none => simp [decodeBody, hd] at hbody
  | some v => rfl

end

-- ---------------------------------------------------------------------------
-- The writer
-- ---------------------------------------------------------------------------

def Writer.called (w : Writer) : Writer := { w with calls := w.calls + 1 }

def Writer.flushed (w : Writer) (name : String) : Except Exn Unit :=
  match w.flushes w.calls with
  | some text => .error (.jsonIOError name text)
  | none => .ok ()

section
variable {name : String} {data : Bytes} {w : Writer}

theorem writeTurn_nothing (hlt : written < data.length) (h : w.results w.calls = .nothing) :
    writeTurn name data (written, w) = pure (.inl (written, w.called)) := by
  simp [writeTurn, hlt, Writer.write, h, Writer.called]

theorem writeTurn_accepts (hlt : written < data.length) (h : w.results w.calls = .accepts k) :
    writeTurn name data (written, w) = pure (.inl (written + min k (data.length - written),
      { w.called with output := w.output ++ (data.drop written).take k })) := by
  simp [writeTurn, hlt, Writer.write, h, Writer.called]

theorem writeTurn_raises (hlt : written < data.length) (h : w.results w.calls = .raises text) :
    writeTurn name data (written, w) = pure (.inr (.error (.jsonIOError name text), w.called)) := by
  simp [writeTurn, hlt, Writer.write, h, Writer.called, Exn.str]

theorem writeTurn_done (hle : data.length ≤ written) :
    writeTurn name data (written, w) = pure (.inr (w.flushed name, w)) := by
  simp only [writeTurn, Nat.not_lt.mpr hle, if_false, Writer.flushed]
  cases w.flushes w.calls <;> rfl

theorem taken_append_rest (out data : Bytes) (written k : Nat) :
    out ++ (data.drop written).take k ++ data.drop (written + min k (data.length - written)) =
      out ++ data.drop written := by
  have htake : (data.drop written).take k =
      (data.drop written).take (min k (data.length - written)) := by
    rw [← List.length_drop, ← List.take_eq_take_min]
  rw [List.append_assoc, htake, ← List.drop_drop, List.take_append_drop]

theorem returns_of_takes (h : Takes w.results w.calls (data.length - written) n) :
    Returns (loop (writeTurn name data) (written, w)) (({ w with calls := n } : Writer).flushed name,
      { w with output := w.output ++ data.drop written, calls := n }) := by
  generalize hsize : data.length - written = size at h
  generalize hcalls : w.calls = calls at h
  generalize hresults : w.results = results at h
  induction h generalizing written w with
  | done =>
    subst hcalls hresults
    have hle : data.length ≤ written := by omega
    refine loop_exit ?_
    rw [writeTurn_done hle, List.drop_eq_nil_of_le hle, List.append_nil]
    exact returns_pure.mpr rfl
  | nothing hr _ ih =>
    subst hcalls hresults
    have hlt : written < data.length := by omega
    have hnext := ih (w := w.called) hsize rfl rfl
    refine loop_next ?_ hnext
    rw [writeTurn_nothing hlt hr]
    exact returns_pure.mpr rfl
  | @accepts calls k left _ hr _ ih =>
    subst hcalls hresults
    have hlt : written < data.length := by omega
    let w' : Writer := { w.called with output := w.output ++ (data.drop written).take k }
    have hleft : data.length - (written + min k (data.length - written)) = left + 1 - k := by omega
    have hnext := ih (w := w') hleft rfl rfl
    rw [show w'.output ++ data.drop (written + min k (data.length - written)) =
      w.output ++ data.drop written from taken_append_rest ..] at hnext
    refine loop_next ?_ hnext
    rw [writeTurn_accepts hlt hr]
    exact returns_pure.mpr rfl

theorem takes_of_returns (h : Returns (loop (writeTurn name data) (written, w)) (.ok (), w')) :
    w'.output = w.output ++ data.drop written ∧
      ∃ n, Takes w.results w.calls (data.length - written) n ∧ w.flushes n = none := by
  refine loop_induction (P := fun (s : Nat × Writer) (o : Except Exn Unit × Writer) => o.1 = .ok () →
    o.2.output = s.2.output ++ data.drop s.1 ∧
      ∃ n, Takes s.2.results s.2.calls (data.length - s.1) n ∧ s.2.flushes n = none) ?_ ?_ h rfl
  · rintro ⟨written, w⟩ ⟨e, w'⟩ hturn rfl
    by_cases hlt : written < data.length
    · cases hr : w.results w.calls with
      | nothing => simp [writeTurn_nothing hlt hr] at hturn
      | accepts k => simp [writeTurn_accepts hlt hr] at hturn
      | raises text => simp [writeTurn_raises hlt hr] at hturn
    · have hle := Nat.le_of_not_lt hlt
      simp only [writeTurn_done hle, returns_pure, Sum.inr.injEq, Prod.mk.injEq] at hturn
      obtain ⟨hflush, rfl⟩ := hturn
      refine ⟨by simp [List.drop_eq_nil_of_le hle], w.calls, ?_, ?_⟩
      · rw [Nat.sub_eq_zero_of_le hle]
        exact .done
      · unfold Writer.flushed at hflush
        split at hflush
        · cases hflush
        · assumption
  · rintro ⟨written, w⟩ ⟨written', w'⟩ ⟨e, w''⟩ hturn ih rfl
    obtain ⟨hout, n, htakes, hflush⟩ := ih rfl
    by_cases hlt : written < data.length
    · have hsize : data.length - written = data.length - written - 1 + 1 := by omega
      cases hr : w.results w.calls with
      | nothing =>
        simp only [writeTurn_nothing hlt hr, returns_pure, Sum.inl.injEq, Prod.mk.injEq] at hturn
        obtain ⟨rfl, rfl⟩ := hturn
        refine ⟨hout, n, ?_, hflush⟩
        rw [hsize] at htakes ⊢
        exact .nothing hr htakes
      | accepts k =>
        simp only [writeTurn_accepts hlt hr, returns_pure, Sum.inl.injEq, Prod.mk.injEq] at hturn
        obtain ⟨rfl, rfl⟩ := hturn
        refine ⟨by rw [hout, taken_append_rest], n, ?_, hflush⟩
        rw [hsize]
        refine .accepts hr ?_
        rwa [show data.length - (written + min k (data.length - written)) =
          data.length - written - 1 + 1 - k by omega] at htakes
      | raises text => simp [writeTurn_raises hlt hr] at hturn
    · simp [writeTurn_done (Nat.le_of_not_lt hlt)] at hturn

theorem returns_of_breaks (h : Breaks w.results w.calls) (hlt : written < data.length) :
    ∃ e w', Returns (loop (writeTurn name data) (written, w)) (.error e, w') ∧
      w'.output = w.output := by
  generalize hcalls : w.calls = calls at h
  generalize hresults : w.results = results at h
  induction h generalizing w with
  | @raises _ text hr =>
    subst hcalls hresults
    refine ⟨.jsonIOError name text, w.called, loop_exit ?_, rfl⟩
    rw [writeTurn_raises hlt hr]
    exact returns_pure.mpr rfl
  | nothing hr _ ih =>
    subst hcalls hresults
    obtain ⟨e, w', hret, hout⟩ := ih (w := w.called) rfl rfl
    refine ⟨e, w', loop_next ?_ hret, hout⟩
    rw [writeTurn_nothing hlt hr]
    exact returns_pure.mpr rfl
  | empty hr _ ih =>
    subst hcalls hresults
    obtain ⟨e, w', hret, hout⟩ := ih (w := w.called) rfl rfl
    refine ⟨e, w', loop_next ?_ hret, hout⟩
    rw [writeTurn_accepts hlt hr]
    simp [Writer.called]

theorem breaks_of_returns (h : Returns (loop (writeTurn name data) (written, w)) (.error e, w'))
    (hout : w'.output = w.output) (hlt : written < data.length) : Breaks w.results w.calls := by
  have hall := loop_induction
    (P := fun (s : Nat × Writer) (o : Except Exn Unit × Writer) => s.2.output <+: o.2.output ∧
      (o.1 = .error e → o.2.output = s.2.output → s.1 < data.length →
        Breaks s.2.results s.2.calls)) ?_ ?_ h
  · exact hall.2 rfl hout hlt
  · rintro ⟨written, w⟩ ⟨o, w'⟩ hturn
    by_cases hlt : written < data.length
    · cases hr : w.results w.calls with
      | nothing => simp [writeTurn_nothing hlt hr] at hturn
      | accepts k => simp [writeTurn_accepts hlt hr] at hturn
      | raises text =>
        simp only [writeTurn_raises hlt hr, returns_pure, Sum.inr.injEq, Prod.mk.injEq] at hturn
        obtain ⟨-, rfl⟩ := hturn
        exact ⟨List.prefix_rfl, fun _ _ _ => .raises hr⟩
    · simp only [writeTurn_done (Nat.le_of_not_lt hlt), returns_pure, Sum.inr.injEq,
        Prod.mk.injEq] at hturn
      obtain ⟨-, rfl⟩ := hturn
      exact ⟨List.prefix_rfl, fun _ _ h => absurd h hlt⟩
  · rintro ⟨written, w⟩ ⟨written', w'⟩ ⟨o, w''⟩ hturn ⟨hgrows, hbreaks⟩
    by_cases hlt : written < data.length
    · cases hr : w.results w.calls with
      | nothing =>
        simp only [writeTurn_nothing hlt hr, returns_pure, Sum.inl.injEq, Prod.mk.injEq] at hturn
        obtain ⟨rfl, rfl⟩ := hturn
        exact ⟨hgrows, fun he hout _ => .nothing hr (hbreaks he hout hlt)⟩
      | accepts k =>
        simp only [writeTurn_accepts hlt hr, returns_pure, Sum.inl.injEq, Prod.mk.injEq] at hturn
        obtain ⟨rfl, rfl⟩ := hturn
        refine ⟨(List.prefix_append _ _).trans hgrows, fun he hout _ => ?_⟩
        have hnone : (data.drop written).take k = [] := by
          have hlen : (w.output ++ (data.drop written).take k).length ≤ w''.output.length :=
            hgrows.length_le
          have hout : w''.output = w.output := hout
          rw [hout, List.length_append] at hlen
          exact List.eq_nil_of_length_eq_zero (by omega)
        have hk : k = 0 := by
          have hlen := congrArg List.length hnone
          rw [List.length_take, List.length_drop, List.length_nil] at hlen
          omega
        subst hk
        exact .empty hr (hbreaks he (by simpa using hout) (by simpa using hlt))
      | raises text => simp [writeTurn_raises hlt hr] at hturn
    · simp [writeTurn_done (Nat.le_of_not_lt hlt)] at hturn

end

-- ---------------------------------------------------------------------------
-- Both
-- ---------------------------------------------------------------------------

theorem packet_pos (body : Bytes) : 0 < (packet body).length := by
  simp [packet, ascii]

/-- A call writes nothing or what its peer reads if and only if the body is one
that is accepted, or is not there to be written. -/
theorem delivers_iff (encode : Json → Option String) (decode : String → Option Json) (name : String)
    (closed : Bool) (value : Json) (w : Writer) :
    Delivers encode decode name closed value w ↔ Deliverable encode decode closed value w := by
  cases closed with
  | true =>
    refine ⟨fun _ => .inl rfl, fun _ => .inl ⟨.noMoreMessages name "No more messages", w, ?_, rfl⟩⟩
    exact returns_pure.mpr rfl
  | false =>
    cases henc : encode value with
    | none =>
      refine ⟨fun _ => .inr fun text h => ?_, fun _ => .inl ⟨.typeError "", w, ?_, rfl⟩⟩
      · simp [henc] at h
      · simp [writeJson, henc]
    | some text =>
      have hwrite : writeJson encode name false value w =
          loop (writeTurn name (packet (utf8Encode text))) (0, w) := by simp [writeJson, henc]
      simp only [Delivers, Deliverable, hwrite, henc, Bool.false_eq_true, false_or,
        Option.some.injEq, forall_eq']
      constructor
      · rintro (⟨e, w', hret, hout⟩ | ⟨bs, w', hret, hout, hread⟩)
        · exact .inl (breaks_of_returns hret hout (packet_pos _))
        · obtain ⟨hout', n, htakes, hflush⟩ := takes_of_returns hret
          have hbs : bs = packet (utf8Encode text) := by
            simpa [hout'] using hout.symm
          obtain ⟨hlen, hdec⟩ := of_reads_packet (hbs ▸ hread)
          exact .inr ⟨hlen, hdec, n, htakes, hflush⟩
      · rintro (hbreaks | ⟨hlen, hdec, n, htakes, hflush⟩)
        · exact .inl (returns_of_breaks hbreaks (packet_pos _))
        · obtain ⟨v, hv⟩ := Option.isSome_iff_exists.mp hdec
          have hret : Returns (loop (writeTurn name (packet (utf8Encode text))) (0, w)) _ :=
            returns_of_takes htakes
          rw [show ({ w with calls := n } : Writer).flushed name = .ok () by
            simp [Writer.flushed, hflush]] at hret
          exact .inr ⟨_, _, hret, rfl, reads_packet hlen hv⟩

/-- The part of the codec that deals with strings in which nothing is
escaped. -/
def encodePlain : Json → Option String
  | .str s => some (String.ofList ('"' :: (s.toList ++ ['"'])))
  | _ => none

def decodePlain (text : String) : Option Json :=
  some (.str (String.ofList (text.toList.drop 1).dropLast))

theorem length_le_utf8Encode (cs : List Char) : cs.length ≤ (utf8Encode (String.ofList cs)).length := by
  have hsize : cs.length ≤ cs.utf8Encode.size := by
    induction cs with
    | nil => exact Nat.zero_le _
    | cons c cs ih =>
      have hc := c.utf8Size_pos
      rw [List.utf8Encode_cons, ByteArray.size_append, List.utf8Encode_singleton,
        List.size_toByteArray, String.length_utf8EncodeChar, List.length_cons]
      omega
  rw [← String.toByteArray_ofList] at hsize
  exact hsize

theorem not_delivers_long {encode : Json → Option String} {decode : String → Option Json}
    (henc : encode value = some text) (hlen : MAX_BODY_SIZE < (utf8Encode text).length)
    (hw : ∀ n, ¬ Breaks w.results n) : ¬ Delivers encode decode name false value w := by
  have hwrite : writeJson encode name false value w =
      loop (writeTurn name (packet (utf8Encode text))) (0, w) := by simp [writeJson, henc]
  rw [Delivers, hwrite]
  rintro (⟨e, w', hret, hout⟩ | ⟨bs, w', hret, hout, hread⟩)
  · exact hw _ (breaks_of_returns hret hout (packet_pos _))
  · have hbs : bs = packet (utf8Encode text) := by
      simpa [(takes_of_returns hret).1] using hout.symm
    exact Nat.not_le.mpr hlen (of_reads_packet (hbs ▸ hread)).1

/-- A string of 16 MiB, and a writer that takes whatever it is given. -/
theorem not_delivers :
    ¬ Delivers encodePlain decodePlain "socket" false
      (.str (String.ofList (List.replicate 0x1000000 'x')))
      { output := [], results := fun _ => .accepts 0x2000000 } := by
  have hw : ∀ n, ¬ Breaks (fun _ => .accepts 0x2000000) n := by
    intro n hb
    induction hb with
    | raises hr => cases hr
    | nothing hr => cases hr
    | empty hr => exact absurd (WriteResult.accepts.inj hr) (by decide)
  generalize hn : 0x1000000 = n
  have hlen := length_le_utf8Encode ('"' :: (List.replicate n 'x' ++ ['"']))
  rw [List.length_cons, List.length_append, List.length_replicate] at hlen
  refine not_delivers_long (by rw [encodePlain, String.toList_ofList]) ?_ hw
  rw [MAX_BODY_SIZE]
  omega

end Debugpy
