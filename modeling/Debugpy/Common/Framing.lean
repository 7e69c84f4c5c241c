import Debugpy.Common.Stream

/-!
# What `read_json` reads

The packet grammar over bytes alone: lines that end at the first CRLF, a
header block that ends at the first empty line, a body of the declared
length. `readJson_spec` says that `read_json` follows it, however the reader
cuts the data: at most one packet is consumed, a stream that ends inside a
packet never yields anything but `NoMoreMessages`, and every other packet has
the outcome that its bytes determine.
-/

namespace Debugpy

open Fuel

/-- `bs` starts with a line `line`; what follows its CRLF is `rest`. -/
def IsLine (bs line rest : Bytes) : Prop := bs = line ++ CRLF ++ rest ∧ ¬ CRLF <:+: line

/-- `bs` starts with header lines up to an empty one. `acc` holds the
headers already read, the last one first, as in `read_json`. -/
inductive IsHeader : Headers → Bytes → Headers → Bytes → Prop
  | blank : IsLine bs [] rest → IsHeader acc bs acc rest
  | field : IsLine bs line bs' → line ≠ [] → IsHeader (partitionColon line :: acc) bs' headers rest →
      IsHeader acc bs headers rest

/-- The reader `r'` is `r` with only `rest` left to deliver. -/
def Reader.LeftWith (r : Reader) (rest : Bytes) (r' : Reader) : Prop :=
  r'.data = rest ∧ r'.ending = r.ending

-- ---------------------------------------------------------------------------
-- One call
-- ---------------------------------------------------------------------------

theorem lineLength_pos {bs : Bytes} (h : bs ≠ []) : 0 < lineLength bs := by
  cases bs with
  | nil => exact absurd rfl h
  | cons b bs =>
    rw [lineLength]
    split <;> omega

theorem lineLength_le {bs : Bytes} (h : bs[i]? = some 10) : lineLength bs ≤ i + 1 := by
  induction bs generalizing i with
  | nil => simp at h
  | cons b bs ih =>
    rw [lineLength]
    split
    · omega
    · rename_i hb
      cases i with
      | zero => simp at h; exact absurd h hb
      | succ i =>
        have := ih (by simpa using h)
        omega

theorem Reader.deliver_some {r : Reader} (limit : Nat) (h : r.data ≠ []) (hl : 0 < limit) :
    ∃ k r', 0 < k ∧ k ≤ limit ∧ r.deliver limit = (.ok (r.data.take k), r') ∧
      r.LeftWith (r.data.drop k) r' := by
  refine ⟨min limit (r.cuts r.calls + 1),
    { r with data := r.data.drop (min limit (r.cuts r.calls + 1)), calls := r.calls + 1 },
    by omega, by omega, ?_, rfl, rfl⟩
  obtain ⟨b, bs, hb⟩ := List.exists_cons_of_ne_nil h
  simp [Reader.deliver, hb]

theorem Reader.deliver_eof {r : Reader} (h : r.data = []) (he : r.ending = .eof) :
    r.deliver limit = (.ok [], r) := by
  simp [Reader.deliver, h, he]

theorem Reader.deliver_raises {r : Reader} (h : r.data = []) (he : r.ending = .raises text) :
    r.deliver limit = (.error (.osError text), r) := by
  simp [Reader.deliver, h, he]

theorem Reader.deliver_ok {r : Reader} (h : r.deliver limit = (.ok chunk, r')) :
    r.data = chunk ++ r'.data := by
  unfold Reader.deliver at h
  split at h
  · cases h
    simp
  · cases h
  · cases h
    simp

-- ---------------------------------------------------------------------------
-- Lines
-- ---------------------------------------------------------------------------

theorem not_suffix_of_not_infix {line : Bytes} (h : ¬ CRLF <:+: line) {k : Nat}
    (hk : k < line.length + 2) : ¬ CRLF <:+ (line ++ CRLF).take k := by
  intro hs
  by_cases hle : k ≤ line.length
  · rw [List.take_append_of_le_length hle] at hs
    exact h (hs.isInfix.trans (List.take_prefix k line).isInfix)
  · -- The accumulated bytes end in `\r`.
    obtain rfl : k = line.length + 1 := by omega
    have ht : (line ++ CRLF).take (line.length + 1) = line ++ [13] := by
      rw [List.take_append, List.take_of_length_le (by omega)]
      simp [CRLF]
    obtain ⟨pre, hpre⟩ := ht ▸ hs
    have hlast := congrArg List.getLast? hpre
    simp [CRLF] at hlast

theorem lineLength_le_of_isLine (h : IsLine bs line rest) (hk : k ≤ line.length + 1) :
    lineLength (bs.drop k) ≤ line.length + 2 - k := by
  have hget : (bs.drop k)[line.length + 1 - k]? = some 10 := by
    rw [List.getElem?_drop, h.1, show k + (line.length + 1 - k) = line.length + 1 by omega]
    simp [CRLF]
  have := lineLength_le hget
  omega

theorem returns_readLine_from (name : String) (h : IsLine whole line rest)
    (hk : k ≤ line.length + 1) {r : Reader} (hr : r.data = whole.drop k) :
    ∃ r', Returns (loop (readLineTurn name) (whole.take k, r)) (.ok line, r') ∧
      r.LeftWith rest r' := by
  have hlen : whole.length = line.length + 2 + rest.length := by
    simp [h.1, CRLF]
    omega
  have htake : ∀ j, j ≤ line.length + 2 → whole.take j = (line ++ CRLF).take j := fun j hj => by
    rw [h.1, List.take_append_of_le_length (by simpa [CRLF] using hj)]
  induction hn : line.length + 1 - k using Nat.strong_induction_on generalizing k r with
  | _ n ih =>
    have hne : r.data ≠ [] := by
      rw [hr]
      exact List.ne_nil_of_length_pos (by rw [List.length_drop]; omega)
    obtain ⟨j, r', hj, hjl, hdel, hdata, hend⟩ :=
      Reader.deliver_some (lineLength r.data) hne (lineLength_pos hne)
    have hjk : k + j ≤ line.length + 2 := by
      have := lineLength_le_of_isLine h hk
      rw [← hr] at this
      omega
    have hline : whole.take k ++ r.data.take j = whole.take (k + j) := by
      rw [hr, List.take_add]
    rw [hr, List.drop_drop] at hdata
    have hnil : whole.take (k + j) ≠ [] :=
      List.ne_nil_of_length_pos (by rw [List.length_take]; omega)
    have hturn : readLineTurn name (whole.take k, r) =
        if CRLF <:+ whole.take (k + j)
        then pure (.inr (.ok ((whole.take (k + j)).take ((whole.take (k + j)).length - 2)), r'))
        else pure (.inl (whole.take (k + j), r')) := by
      simp [readLineTurn, Reader.readline, hdel, hline, hnil]
    by_cases hlast : k + j = line.length + 2
    · -- The chunk ends with the CRLF.
      have hall : whole.take (k + j) = line ++ CRLF := by
        rw [htake _ hjk, List.take_of_length_le (by simp [CRLF, hlast])]
      refine ⟨r', loop_exit ?_, ?_, hend⟩
      · rw [hturn, if_pos (hall ▸ List.suffix_append line CRLF), hall]
        simp [CRLF]
      · rw [hdata, hlast, h.1]
        simp [CRLF, List.drop_append]
    · have hns : ¬ CRLF <:+ whole.take (k + j) := by
        rw [htake _ hjk]
        exact not_suffix_of_not_infix h.2 (by omega)
      obtain ⟨r'', hret, hleft⟩ := ih (line.length + 1 - (k + j)) (by omega) (by omega) hdata rfl
      refine ⟨r'', loop_next ?_ hret, hleft.1, hleft.2.trans hend⟩
      rw [hturn, if_neg hns]
      exact returns_pure.mpr rfl

theorem returns_readLine (name : String) {r : Reader} (h : IsLine r.data line rest) :
    ∃ r', Returns (readLine name r) (.ok line, r') ∧ r.LeftWith rest r' :=
  returns_readLine_from name h (k := 0) (by omega) rfl

theorem readLine_of_no_line {name : String} {r : Reader} (h : ¬ CRLF <:+: r.data)
    (hret : Returns (readLine name r) out) : ∃ text, out.1 = .error (.noMoreMessages name text) := by
  refine loop_induction (P := fun (s : Bytes × Reader) (o : Except Exn Bytes × Reader) =>
      ¬ CRLF <:+: s.1 ++ s.2.data → ∃ text, o.1 = .error (.noMoreMessages name text))
    ?_ ?_ hret (by simpa using h)
  · rintro ⟨line, r⟩ o hturn hno
    simp only [readLineTurn] at hturn
    split at hturn
    · simp only [returns_pure] at hturn
      cases hturn
      exact ⟨_, rfl⟩
    · rename_i chunk r' hdel
      have hdata := Reader.deliver_ok hdel
      split at hturn
      · simp only [returns_pure] at hturn
        cases hturn
        exact ⟨_, rfl⟩
      · split at hturn
        · rename_i hsuf
          refine absurd (hsuf.isInfix.trans ?_) hno
          rw [hdata, ← List.append_assoc]
          exact (List.prefix_append _ _).isInfix
        · simp at hturn
  · rintro ⟨line, r⟩ ⟨line', r'⟩ o hturn ih hno
    simp only [readLineTurn] at hturn
    split at hturn
    · simp at hturn
    · rename_i chunk r'' hdel
      have hdata := Reader.deliver_ok hdel
      split at hturn
      · simp at hturn
      · split at hturn
        · simp at hturn
        · simp only [returns_pure, Sum.inl.injEq, Prod.mk.injEq] at hturn
          obtain ⟨rfl, rfl⟩ := hturn
          exact ih (by simpa [hdata] using hno)

theorem returns_readLine_nil (name : String) {r : Reader} (h : r.data = []) :
    ∃ text, Returns (readLine name r) (.error (.noMoreMessages name text), r) := by
  cases he : r.ending with
  | eof =>
    refine ⟨"No more messages", loop_exit ?_⟩
    simp [readLineTurn, Reader.readline, Reader.deliver_eof h he]
  | raises text =>
    refine ⟨text, loop_exit ?_⟩
    simp [readLineTurn, Reader.readline, Reader.deliver_raises h he, Exn.str]

theorem exists_isLine (h : CRLF <:+: bs) : ∃ line rest, IsLine bs line rest := by
  induction bs with
  | nil => simp [CRLF] at h
  | cons b bs ih =>
    by_cases hp : CRLF <+: b :: bs
    · obtain ⟨rest, hrest⟩ := hp
      exact ⟨[], rest, by simpa using hrest.symm, by simp [CRLF]⟩
    · obtain ⟨line, rest, hbs, hline⟩ := ih ((List.infix_cons_iff.mp h).resolve_left hp)
      refine ⟨b :: line, rest, by simp [hbs], fun hin => ?_⟩
      rcases List.infix_cons_iff.mp hin with hpre | hin
      · refine hp (hpre.trans ?_)
        rw [hbs]
        exact ⟨CRLF ++ rest, by simp⟩
      · exact hline hin

-- ---------------------------------------------------------------------------
-- Headers
-- ---------------------------------------------------------------------------

theorem returns_headers (name : String) (h : IsHeader acc bs headers rest) {r : Reader}
    (hr : r.data = bs) :
    ∃ r', Returns (loop (headersTurn name) (acc, r)) (.ok headers, r') ∧ r.LeftWith rest r' := by
  induction h generalizing r with
  | blank hline =>
    obtain ⟨r', hret, hleft⟩ := returns_readLine name (hr ▸ hline)
    exact ⟨r', loop_exit (hret.bind_iff.mpr (by simp)), hleft⟩
  | field hline hne _ ih =>
    obtain ⟨r', hret, hleft⟩ := returns_readLine name (hr ▸ hline)
    obtain ⟨r'', hret', hleft'⟩ := ih hleft.1
    exact ⟨r'', loop_next (hret.bind_iff.mpr (by simp [hne])) hret', hleft'.1,
      hleft'.2.trans hleft.2⟩

/-- Without a whole header block the loop of `read_json` has no headers to
return. -/
theorem headers_of_no_header {name : String} {r : Reader}
    (h : ¬ ∃ headers rest, IsHeader acc r.data headers rest)
    (hret : Returns (loop (headersTurn name) (acc, r)) out) :
    ∃ text, out.1 = .error (.noMoreMessages name text) := by
  refine loop_induction (P := fun (s : Headers × Reader) (o : Except Exn Headers × Reader) =>
      (¬ ∃ headers rest, IsHeader s.1 s.2.data headers rest) →
        ∃ text, o.1 = .error (.noMoreMessages name text)) ?_ ?_ hret h
  · rintro ⟨acc, r⟩ o hturn hno
    obtain ⟨⟨x, r'⟩, hline, hrest⟩ := returns_bind.mp hturn
    by_cases hc : CRLF <:+: r.data
    · obtain ⟨line, rest, hl⟩ := exists_isLine hc
      obtain ⟨r'', hret, -⟩ := returns_readLine name hl
      cases hline.unique hret
      by_cases hnil : line = []
      · exact absurd ⟨_, _, .blank (hnil ▸ hl)⟩ hno
      · simp [hnil] at hrest
    · obtain ⟨text, rfl⟩ := readLine_of_no_line hc hline
      simp only [returns_pure] at hrest
      cases hrest
      exact ⟨text, rfl⟩
  · rintro ⟨acc, r⟩ ⟨acc', r'⟩ o hturn ih hno
    obtain ⟨⟨x, r''⟩, hline, hrest⟩ := returns_bind.mp hturn
    by_cases hc : CRLF <:+: r.data
    · obtain ⟨line, rest, hl⟩ := exists_isLine hc
      obtain ⟨r₁, hret, hleft⟩ := returns_readLine name hl
      cases hline.unique hret
      by_cases hnil : line = []
      · simp [hnil] at hrest
      · simp only [hnil, if_false, returns_pure, Sum.inl.injEq, Prod.mk.injEq] at hrest
        obtain ⟨rfl, rfl⟩ := hrest
        refine ih ?_
        rintro ⟨headers, rest', hh⟩
        exact hno ⟨headers, rest', .field hl hnil (hleft.1 ▸ hh)⟩
    · obtain ⟨text, rfl⟩ := readLine_of_no_line hc hline
      simp at hrest

-- ---------------------------------------------------------------------------
-- Bodies
-- ---------------------------------------------------------------------------

theorem returns_body (name : String) (body : Bytes) {r : Reader} (h : n ≤ r.data.length) :
    ∃ r', Returns (loop (bodyTurn name) (body, n, r)) (.ok (body ++ r.data.take n), r') ∧
      r.LeftWith (r.data.drop n) r' := by
  induction n using Nat.strong_induction_on generalizing body r with
  | _ n ih =>
    by_cases hn : n = 0
    · exact ⟨r, loop_exit (by simp [bodyTurn, hn]), by simp [hn], rfl⟩
    · have hne : r.data ≠ [] := List.ne_nil_of_length_pos (by omega)
      obtain ⟨k, r', hk, hkn, hdel, hdata, hend⟩ :=
        Reader.deliver_some n hne (by omega)
      have hlen : (r.data.take k).length = k := by
        rw [List.length_take]
        omega
      have hnil : r.data.take k ≠ [] := List.ne_nil_of_length_pos (by omega)
      obtain ⟨r'', hret, hleft⟩ := ih (n - k) (by omega) (body ++ r.data.take k)
        (r := r') (by rw [hdata, List.length_drop]; omega)
      have hbody : body ++ r.data.take k ++ r'.data.take (n - k) = body ++ r.data.take n := by
        rw [hdata, List.append_assoc, ← List.take_add, Nat.add_sub_cancel' hkn]
      have hrest : r'.data.drop (n - k) = r.data.drop n := by
        rw [hdata, List.drop_drop, Nat.add_sub_cancel' hkn]
      have hturn : Returns (bodyTurn name (body, n, r)) (.inl (body ++ r.data.take k, n - k, r')) := by
        simp [bodyTurn, hn, Reader.read, hdel, hlen]
      exact ⟨r'', loop_next hturn (hbody ▸ hret), hrest ▸ hleft.1, hleft.2.trans hend⟩

theorem returns_body_short (name : String) (body : Bytes) {r : Reader} (h : r.data.length < n) :
    ∃ text r', Returns (loop (bodyTurn name) (body, n, r)) (.error (.noMoreMessages name text), r') := by
  induction n using Nat.strong_induction_on generalizing body r with
  | _ n ih =>
    have hn : n ≠ 0 := by omega
    by_cases hne : r.data = []
    · cases he : r.ending with
      | eof =>
        exact ⟨"", r, loop_exit (by simp [bodyTurn, hn, Reader.read, Reader.deliver_eof hne he])⟩
      | raises text =>
        refine ⟨text, r, loop_exit ?_⟩
        simp [bodyTurn, hn, Reader.read, Reader.deliver_raises hne he, Exn.str]
    · obtain ⟨k, r', hk, hkn, hdel, hdata, -⟩ :=
        Reader.deliver_some n hne (by omega)
      have hpos := List.length_pos_of_ne_nil hne
      obtain ⟨text, r'', hret⟩ := ih (n - (r.data.take k).length)
        (by rw [List.length_take]; omega) (body ++ r.data.take k) (r := r')
        (by rw [hdata, List.length_drop, List.length_take]; omega)
      refine ⟨text, r'', loop_next ?_ hret⟩
      have hnil : r.data.take k ≠ [] :=
        List.ne_nil_of_length_pos (by rw [List.length_take]; omega)
      simp [bodyTurn, hn, Reader.read, hdel]

-- ---------------------------------------------------------------------------
-- Packets
-- ---------------------------------------------------------------------------

def IsPacket (bs body rest : Bytes) : Prop :=
  ∃ headers, IsHeader [] bs headers (body ++ rest) ∧ contentLength headers = some body.length

theorem IsHeader.length_lt (h : IsHeader acc bs headers rest) : rest.length < bs.length := by
  induction h with
  | blank hline =>
    have hCRLF : CRLF.length = 2 := rfl
    rw [hline.1, List.nil_append, List.length_append, hCRLF]
    omega
  | field hline _ _ ih =>
    rw [hline.1]
    simp only [List.length_append]
    omega

theorem IsPacket.length_lt (h : IsPacket bs body rest) : rest.length < bs.length := by
  obtain ⟨headers, hheader, -⟩ := h
  have := hheader.length_lt
  rw [List.length_append] at this
  omega

/-- `bs` starts with a header block that declares no acceptable length. -/
def HasBadLength (bs : Bytes) : Prop :=
  ∃ headers rest, IsHeader [] bs headers rest ∧ contentLength headers = none

/-- `bs` ends inside its first packet. -/
def IsCut (bs : Bytes) : Prop :=
  (¬ ∃ headers rest, IsHeader [] bs headers rest) ∨
    ∃ headers rest n, IsHeader [] bs headers rest ∧ contentLength headers = some n ∧ rest.length < n

/-- A byte string ends inside its first packet, or has a bad length, or starts
with a whole packet. -/
theorem isCut_or_bad_or_packet (bs : Bytes) :
    IsCut bs ∨ HasBadLength bs ∨ ∃ body rest, IsPacket bs body rest := by
  by_cases h : ∃ headers rest, IsHeader [] bs headers rest
  · obtain ⟨headers, rest, h⟩ := h
    cases hn : contentLength headers with
    | none => exact .inr (.inl ⟨headers, rest, h, hn⟩)
    | some n =>
      by_cases hlt : rest.length < n
      · exact .inl (.inr ⟨headers, rest, n, h, hn, hlt⟩)
      · refine .inr (.inr ⟨rest.take n, rest.drop n, headers, ?_, ?_⟩)
        · rwa [List.take_append_drop]
        · rw [hn, List.length_take, Nat.min_eq_left (by omega)]
  · exact .inl (.inl h)

variable (decode : String → Option Json) (name : String) {r : Reader}

theorem returns_readJson_packet (h : IsPacket r.data body rest) :
    ∃ r', Returns (readJson decode name r) (decodeBody decode body, r') ∧ r.LeftWith rest r' := by
  obtain ⟨headers, hheader, hlength⟩ := h
  obtain ⟨r₁, hret₁, hdata, hend⟩ := returns_headers name hheader rfl
  obtain ⟨r₂, hret₂, hleft⟩ := returns_body name [] (r := r₁)
    (n := body.length) (by simp [hdata])
  simp only [hdata, List.nil_append, List.take_left, List.drop_left] at hret₂ hleft
  refine ⟨r₂, hret₁.bind_iff.mpr ?_, hleft.1, hleft.2.trans hend⟩
  simp only [hlength]
  exact hret₂.bind_iff.mpr (returns_pure.mpr rfl)

theorem returns_readJson_badLength (h : HasBadLength r.data) :
    ∃ text r', Returns (readJson decode name r) (.error (.osError text), r') := by
  obtain ⟨headers, rest, hheader, hlength⟩ := h
  obtain ⟨r₁, hret₁, -⟩ := returns_headers name hheader rfl
  refine ⟨"Content-Length is missing or invalid:", r₁, hret₁.bind_iff.mpr ?_⟩
  simp only [hlength]
  exact returns_pure.mpr rfl

/-- A stream that ends inside a packet yields nothing but `NoMoreMessages`. It
may also yield nothing at all: `_read_line` does not notice an end of the
stream inside a line. -/
theorem readJson_of_isCut {decode : String → Option Json} {name : String} (h : IsCut r.data) (hret : Returns (readJson decode name r) out) :
    ∃ text, out.1 = .error (.noMoreMessages name text) := by
  rcases h with hno | ⟨headers, rest, n, hheader, hlength, hlt⟩
  · obtain ⟨⟨x, r₁⟩, hret₁, hrest⟩ := returns_bind.mp hret
    obtain ⟨text, rfl⟩ := headers_of_no_header hno hret₁
    simp only [returns_pure] at hrest
    cases hrest
    exact ⟨text, rfl⟩
  · obtain ⟨r₁, hret₁, hdata, -⟩ := returns_headers name hheader rfl
    obtain ⟨text, r₂, hret₂⟩ := returns_body_short name [] (r := r₁)
      (n := n) (by rwa [hdata])
    replace hret := hret₁.bind_iff.mp hret
    simp only [hlength] at hret
    replace hret := hret₂.bind_iff.mp hret
    simp only [returns_pure] at hret
    cases hret
    exact ⟨text, rfl⟩

theorem returns_readJson_nil (h : r.data = []) :
    ∃ text, Returns (readJson decode name r) (.error (.noMoreMessages name text), r) := by
  obtain ⟨text, hret⟩ := returns_readLine_nil name h
  exact ⟨text, (loop_exit (hret.bind_iff.mpr (returns_pure.mpr rfl)) : Returns
    (loop (headersTurn name) ([], r)) _).bind_iff.mpr (returns_pure.mpr rfl)⟩

end Debugpy
