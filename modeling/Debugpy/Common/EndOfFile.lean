import Debugpy.Common.Framing

/-!
# A peer that closes its side

The headers and the body of a packet notice the end of the stream, and so does
`_read_line` before it holds anything of a line. A line that was begun is read
on for ever: `readline()` returns nothing more, and what is held is neither
empty nor ends in CRLF.
-/

namespace Debugpy

open Fuel

/-- The bytes end inside a header line: after whole lines, none of them empty,
something is left that holds no CRLF. -/
inductive EndsInLine : Bytes → Prop
  | last : bs ≠ [] → ¬ CRLF <:+: bs → EndsInLine bs
  | next : IsLine bs line rest → line ≠ [] → EndsInLine rest → EndsInLine bs

theorem IsLine.infix (h : IsLine bs line rest) : CRLF <:+: bs :=
  ⟨line, rest, h.1.symm⟩

theorem IsLine.unique (h : IsLine bs line rest) (h' : IsLine bs line' rest') :
    line = line' ∧ rest = rest' := by
  let r : Reader := { data := bs, cuts := fun _ => 0, ending := .eof }
  obtain ⟨r₁, hret, hleft⟩ := returns_readLine "" (r := r) h
  obtain ⟨r₂, hret', hleft'⟩ := returns_readLine "" (r := r) h'
  cases hret.unique hret'
  exact ⟨rfl, hleft.1.symm.trans hleft'.1⟩

theorem IsLine.append (h : IsLine bs line rest) (more : Bytes) :
    IsLine (bs ++ more) line (rest ++ more) :=
  ⟨by rw [h.1, List.append_assoc], h.2⟩

theorem IsHeader.append (h : IsHeader acc bs headers rest) (more : Bytes) :
    IsHeader acc (bs ++ more) headers (rest ++ more) := by
  induction h with
  | blank hline => exact .blank (hline.append more)
  | field hline hne _ ih => exact .field (hline.append more) hne ih

theorem IsHeader.unique (h : IsHeader acc bs headers rest) (h' : IsHeader acc bs headers' rest') :
    headers = headers' ∧ rest = rest' := by
  induction h with
  | blank hline =>
    cases h' with
    | blank hline' => exact ⟨rfl, (hline.unique hline').2⟩
    | field hline' hne => exact absurd (hline.unique hline').1.symm hne
  | field hline hne _ ih =>
    cases h' with
    | blank hline' => exact absurd (hline.unique hline').1 hne
    | field hline' _ hrest =>
      obtain ⟨rfl, rfl⟩ := hline.unique hline'
      exact ih hrest

theorem endsInLine_iff (h : IsLine bs line rest) :
    EndsInLine bs ↔ line ≠ [] ∧ EndsInLine rest := by
  constructor
  · rintro (⟨-, hno⟩ | ⟨hline, hne, hends⟩)
    · exact absurd h.infix hno
    · obtain ⟨rfl, rfl⟩ := h.unique hline
      exact ⟨hne, hends⟩
  · rintro ⟨hne, hends⟩
    exact .next h hne hends

-- ---------------------------------------------------------------------------
-- The loop that goes on
-- ---------------------------------------------------------------------------

/-- The loop of `_read_line` holds or will hold something, and no CRLF is to
come. -/
structure Stuck (s : Bytes × Reader) : Prop where
  some : s.1 ++ s.2.data ≠ []
  noLine : ¬ CRLF <:+: s.1 ++ s.2.data
  eof : s.2.ending = .eof

theorem Stuck.next (name : String) {s : Bytes × Reader} (h : Stuck s) :
    ∃ s', Returns (readLineTurn name s) (.inl s') ∧ Stuck s' := by
  obtain ⟨line, r⟩ := s
  obtain ⟨hsome, hno, heof⟩ := h
  by_cases hr : r.data = []
  · -- Past the end the turn adds nothing to what it holds.
    rw [hr, List.append_nil] at hsome hno
    have hsuf : ¬ CRLF <:+ line := fun hs => hno hs.isInfix
    refine ⟨(line, r), ?_, by simpa [hr] using hsome, by simpa [hr] using hno, heof⟩
    simp [readLineTurn, Reader.readline, Reader.deliver_eof hr heof, hsome, hsuf]
  · obtain ⟨k, r', hk, -, hdel, hdata, hend⟩ :=
      Reader.deliver_some (lineLength r.data) hr (lineLength_pos hr)
    have hall : line ++ r.data.take k ++ r'.data = line ++ r.data := by
      rw [hdata, List.append_assoc, List.take_append_drop]
    have hne : line ++ r.data.take k ≠ [] := by
      simp [hr, Nat.pos_iff_ne_zero.mp hk]
    have hsuf : ¬ CRLF <:+ line ++ r.data.take k := fun hs =>
      hno (hall ▸ hs.isInfix.trans (List.prefix_append _ _).isInfix)
    refine ⟨(line ++ r.data.take k, r'), ?_, ?_, ?_, hend.trans heof⟩
    · simp only [readLineTurn, Reader.readline, hdel, if_neg hne, if_neg hsuf]
      exact returns_pure.mpr rfl
    · simpa only [hall] using hsome
    · simpa only [hall] using hno

theorem readLine_not_terminates (name : String) {r : Reader} (hsome : r.data ≠ [])
    (hno : ¬ CRLF <:+: r.data) (heof : r.ending = .eof) : ¬ Terminates (readLine name r) :=
  loop_not_terminates (fun _ h => Stuck.next name h) ⟨hsome, hno, heof⟩

theorem EndsInLine.headers_not_terminates (name : String) (h : EndsInLine bs) {r : Reader}
    (hr : r.data = bs) (heof : r.ending = .eof) :
    ¬ Terminates (loop (headersTurn name) (acc, r)) := by
  induction h generalizing acc r with
  | last hsome hno =>
    subst hr
    exact not_terminates_loop (not_terminates_bind (readLine_not_terminates name hsome hno heof))
  | @next bs line rest hline hne _ ih =>
    obtain ⟨r', hret, hdata, hend⟩ := returns_readLine name (hr ▸ hline)
    have hturn : Returns (headersTurn name (acc, r)) (.inl (partitionColon line :: acc, r')) :=
      hret.bind_iff.mpr (by simp [hne])
    rintro ⟨out, hout⟩
    exact ih hdata (hend.trans heof) ⟨out, (loop_next_iff hturn).mp hout⟩

-- ---------------------------------------------------------------------------
-- The loops that end
-- ---------------------------------------------------------------------------

/-- Every line but the last one is a turn of the header loop, and what follows
is shorter. -/
theorem terminates_headers (name : String) {r : Reader} (heof : r.ending = .eof)
    (h : ¬ EndsInLine r.data) : Terminates (loop (headersTurn name) (acc, r)) := by
  induction hn : r.data.length using Nat.strong_induction_on generalizing acc r with
  | _ n ih =>
    by_cases hnil : r.data = []
    · obtain ⟨text, hret⟩ := returns_readLine_nil name hnil
      exact ⟨_, loop_exit (hret.bind_iff.mpr (returns_pure.mpr rfl))⟩
    · have hc : CRLF <:+: r.data := by
        by_contra hno
        exact h (.last hnil hno)
      obtain ⟨line, rest, hline⟩ := exists_isLine hc
      obtain ⟨r', hret, hdata, hend⟩ := returns_readLine name hline
      by_cases hne : line = []
      · exact ⟨_, loop_exit (hret.bind_iff.mpr (by simp [hne]; rfl))⟩
      · have hshort : r'.data.length < n := by
          rw [hdata, ← hn, hline.1]
          simp [CRLF]
          omega
        have hrest : ¬ EndsInLine r'.data := fun hends =>
          h ((endsInLine_iff hline).mpr ⟨hne, hdata ▸ hends⟩)
        obtain ⟨out, hout⟩ : Terminates (loop (headersTurn name) (partitionColon line :: acc, r')) :=
          ih _ hshort (hend.trans heof) hrest rfl
        exact ⟨out, loop_next (hret.bind_iff.mpr (by simp [hne])) hout⟩

theorem terminates_body (name : String) (body : Bytes) (n : Nat) (r : Reader) :
    Terminates (loop (bodyTurn name) (body, n, r)) := by
  rcases Nat.lt_or_ge r.data.length n with hlt | hle
  · obtain ⟨text, r', hret⟩ := returns_body_short name body hlt
    exact ⟨_, hret⟩
  · obtain ⟨r', hret, -⟩ := returns_body name body hle
    exact ⟨_, hret⟩

/-- Once the headers are there `read_json` ends: the body loop does, and what
remains is no loop. -/
theorem terminates_readJson_of_headers (decode : String → Option Json) (name : String)
    {r : Reader} (h : Terminates (loop (headersTurn name) ([], r))) :
    Terminates (readJson decode name r) := by
  obtain ⟨⟨headers | headers, r₁⟩, hret⟩ := h
  · exact hret.terminates_bind (terminates_pure _)
  · refine hret.terminates_bind ?_
    cases hlength : contentLength headers with
    | none =>
      simp only [hlength]
      exact terminates_pure _
    | some n =>
      obtain ⟨⟨body | body, r₂⟩, hret₂⟩ := terminates_body name [] n r₁
      · simp only [hlength]
        exact hret₂.terminates_bind (terminates_pure _)
      · simp only [hlength]
        exact hret₂.terminates_bind (terminates_pure _)

/-- Of what a peer sends before it closes, `read_json` makes a value or an
exception, however the reads are cut, unless it ends inside a header line. -/
theorem readJson_terminates_iff (decode : String → Option Json) (name : String) {r : Reader}
    (heof : r.ending = .eof) :
    Terminates (readJson decode name r) ↔ ¬ EndsInLine r.data := by
  constructor
  · intro h hends
    exact not_terminates_bind (hends.headers_not_terminates name rfl heof) h
  · intro h
    exact terminates_readJson_of_headers decode name (terminates_headers name heof h)

/-- A peer that closes right after its first header byte. -/
def cutInLine : Reader := { data := ascii "C", cuts := fun _ => 0, ending := .eof }

theorem cutInLine_readJson :
    Terminates (readJson (fun _ => none) "" cutInLine) ↔ ¬ EndsInLine (ascii "C") :=
  readJson_terminates_iff (fun _ => none) "" (r := cutInLine) rfl

theorem not_readJson_terminates : ¬ ∀ (decode : String → Option Json) (name : String) (r : Reader),
    r.ending = .eof → Terminates (readJson decode name r) := by
  intro h
  have hends : EndsInLine cutInLine.data := .last (by decide) (by decide)
  exact not_terminates_bind (hends.headers_not_terminates "" rfl rfl)
    (h (fun _ => none) "" cutInLine rfl)

end Debugpy
