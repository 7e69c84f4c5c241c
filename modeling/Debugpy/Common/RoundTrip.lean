import Debugpy.Common.Framing

/-!
# Framing round trip

`write_json` puts out whole packets whatever the writer does with each call,
provided that it never raises and keeps accepting something now and then. A
whole packet is one of the grammar of `read_json`, so a list of values that
is written is read back value by value, with nothing left over.
-/

namespace Debugpy

open Fuel

-- ---------------------------------------------------------------------------
-- Writing
-- ---------------------------------------------------------------------------

/-- A writer that works: no call raises, and after every call there is one
that accepts at least a byte. -/
structure Writer.Works (w : Writer) : Prop where
  noRaise : ∀ n text, w.results n ≠ .raises text
  flushes : ∀ n, w.flushes n = none
  progress : ∀ n, ∃ m ≥ n, ∃ k, w.results m = .accepts (k + 1)

def Writer.PutOut (w : Writer) (data : Bytes) (w' : Writer) : Prop :=
  w'.output = w.output ++ data ∧ w'.results = w.results ∧ w'.flushes = w.flushes

theorem Writer.PutOut.trans (h : Writer.PutOut w a w') (h' : Writer.PutOut w' b w'') :
    Writer.PutOut w (a ++ b) w'' :=
  ⟨by rw [h'.1, h.1, List.append_assoc], h'.2.1.trans h.2.1, h'.2.2.trans h.2.2⟩

theorem Writer.Works.of_putOut (hw : Writer.Works w) (h : Writer.PutOut w data w') : w'.Works :=
  ⟨h.2.1 ▸ hw.noRaise, h.2.2 ▸ hw.flushes, h.2.1 ▸ hw.progress⟩

theorem Writer.Works.write {w : Writer} (hw : w.Works) (data : Bytes) (k : Nat) :
    ∃ o w' j, w.write data = (.ok o, w') ∧ o.getD 0 = j ∧ j ≤ data.length ∧
      w'.calls = w.calls + 1 ∧ w.PutOut (data.take j) w' ∧
      (w.results w.calls = .accepts (k + 1) → data ≠ [] → 0 < j) := by
  unfold Writer.write
  cases h : w.results w.calls with
  | raises text => exact absurd h (hw.noRaise _ _)
  | nothing => exact ⟨_, _, 0, rfl, rfl, by simp, rfl, ⟨by simp, rfl, rfl⟩, by simp⟩
  | accepts n =>
    refine ⟨_, _, min n data.length, rfl, rfl, Nat.min_le_right .., rfl, ⟨?_, rfl, rfl⟩, ?_⟩
    · rw [← List.take_eq_take_min]
    · intro hn hne
      have := List.length_pos_of_ne_nil hne
      cases hn
      omega

variable (name : String) {data : Bytes} {w : Writer}

theorem returns_writeTurn (k : Nat) (hw : w.Works) (hlt : written < data.length) :
    ∃ w' j, Returns (writeTurn name data (written, w)) (.inl (written + j, w')) ∧
      written + j ≤ data.length ∧ w'.calls = w.calls + 1 ∧
      w.PutOut ((data.drop written).take j) w' ∧
      (w.results w.calls = .accepts (k + 1) → 0 < j) := by
  obtain ⟨o, w', j, hwrite, hj, hle, hcalls, hput, hpos⟩ := hw.write (data.drop written) k
  rw [List.length_drop] at hle
  refine ⟨w', j, ?_, by omega, hcalls, hput, fun h => hpos h ?_⟩
  · subst hj
    cases o <;> simp [writeTurn, hlt, hwrite]
  · exact List.ne_nil_of_length_pos (by rw [List.length_drop]; omega)

theorem write_progress (hw : w.Works) (hlt : written < data.length) :
    ∃ w' j, 0 < j ∧ written + j ≤ data.length ∧ w.PutOut ((data.drop written).take j) w' ∧
      ∀ {r}, Returns (loop (writeTurn name data) (written + j, w')) r →
        Returns (loop (writeTurn name data) (written, w)) r := by
  obtain ⟨m, hm, k, hk⟩ := hw.progress w.calls
  induction hd : m - w.calls generalizing w with
  | zero =>
    obtain rfl : m = w.calls := by omega
    obtain ⟨w', j, hturn, hle, -, hput, hpos⟩ := returns_writeTurn name k hw hlt
    exact ⟨w', j, hpos hk, hle, hput, loop_next hturn⟩
  | succ d ih =>
    obtain ⟨w', j, hturn, hle, hcalls, hput, -⟩ := returns_writeTurn name 0 hw hlt
    by_cases hj : 0 < j
    · exact ⟨w', j, hj, hle, hput, loop_next hturn⟩
    · obtain rfl : j = 0 := by omega
      obtain ⟨w'', j, hj, hle, hput', hnext⟩ :=
        ih (hw.of_putOut hput) (by omega) (hput.2.1 ▸ hk) (by omega)
      refine ⟨w'', j, hj, hle, by simpa using hput.trans hput', fun h => ?_⟩
      exact loop_next hturn (hnext h)

/-- The write loop from any offset, by induction on what is left of the
packet. -/
theorem returns_write_from (hw : w.Works) (hle : written ≤ data.length) :
    ∃ w', Returns (loop (writeTurn name data) (written, w)) (.ok (), w') ∧
      w.PutOut (data.drop written) w' := by
  induction hn : data.length - written using Nat.strong_induction_on generalizing written w with
  | _ n ih =>
    by_cases hlt : written < data.length
    · obtain ⟨w', j, hj, hle, hput, hnext⟩ := write_progress name hw hlt
      obtain ⟨w'', hret, hput'⟩ :=
        ih (data.length - (written + j)) (by omega) (hw.of_putOut hput) hle rfl
      refine ⟨w'', hnext hret, ?_⟩
      have hall := hput.trans hput'
      rwa [← List.drop_drop, List.take_append_drop] at hall
    · obtain rfl : written = data.length := by omega
      exact ⟨w, loop_exit (by simp [writeTurn, hw.flushes]), by simp, rfl, rfl⟩

theorem returns_writeJson {encode : Json → Option String} (hw : w.Works)
    (henc : encode value = some text) :
    ∃ w', Returns (writeJson encode name false value w) (.ok (), w') ∧
      w.PutOut (packet (utf8Encode text)) w' := by
  simpa [writeJson, henc] using returns_write_from name hw (Nat.zero_le _)

-- ---------------------------------------------------------------------------
-- Packets
-- ---------------------------------------------------------------------------

theorem decimal_isDigit (h : b ∈ PyInt.decimal n) : 48 ≤ b ∧ b ≤ 57 := by
  obtain ⟨c, hc, rfl⟩ := List.mem_map.mp h
  obtain ⟨lo, hi⟩ := PyInt.isDigit_range (Nat.isDigit_of_mem_toDigits (by decide) (by decide) hc)
  generalize c.toNat = n at lo hi
  interval_cases n <;> decide

def headerLine (n : Nat) : Bytes := ascii "Content-Length: " ++ PyInt.decimal n

theorem no_CRLF_headerLine : ¬ CRLF <:+: headerLine n := by
  intro h
  have hmem : (13 : UInt8) ∈ headerLine n := h.subset (by decide)
  rcases List.mem_append.mp hmem with hkey | hdec
  · revert hkey
    decide
  · exact absurd (decimal_isDigit hdec).1 (by decide)

theorem partitionColon_headerLine :
    partitionColon (headerLine n) = (ascii "Content-Length", 32 :: PyInt.decimal n) := by
  have hsplit : headerLine n = ascii "Content-Length" ++ 58 :: 32 :: PyInt.decimal n := by
    have hname : ascii "Content-Length: " = ascii "Content-Length" ++ [58, 32] := rfl
    rw [headerLine, hname]
    simp
  have hkey : ∀ b ∈ ascii "Content-Length", (b != 58) = true := List.all_eq_true.mp rfl
  simp [partitionColon, hsplit, List.takeWhile_append_of_pos hkey, List.dropWhile_append_of_pos hkey]

theorem contentLength_headerLine (n : Nat) : contentLength [partitionColon (headerLine n)] =
    if n ≤ MAX_BODY_SIZE then some n else none := by
  have hlt : n ≤ MAX_BODY_SIZE → n < 10 ^ PyInt.maxStrDigits := fun h =>
    calc n ≤ MAX_BODY_SIZE := h
      _ < 10 ^ 8 := by decide
      _ ≤ 10 ^ PyInt.maxStrDigits := Nat.pow_le_pow_right (by decide) (by decide)
  by_cases h : n ≤ MAX_BODY_SIZE
  · simp [contentLength, partitionColon_headerLine, PyInt.ofBytes_decimal, hlt h, h]
  · by_cases hn : n < 10 ^ PyInt.maxStrDigits <;>
      simp [contentLength, partitionColon_headerLine, PyInt.ofBytes_decimal, hn, h]

theorem isHeader_packet (body rest : Bytes) :
    IsHeader [] (packet body ++ rest) [partitionColon (headerLine body.length)] (body ++ rest) := by
  have hline : IsLine (packet body ++ rest) (headerLine body.length) (CRLF ++ body ++ rest) :=
    ⟨by simp [packet, headerLine], no_CRLF_headerLine⟩
  have hblank : IsLine (CRLF ++ body ++ rest) [] (body ++ rest) := ⟨by simp, by simp [CRLF]⟩
  exact .field hline (by simp [headerLine, ascii]) (.blank hblank)

theorem isPacket_packet (h : body.length ≤ MAX_BODY_SIZE) :
    IsPacket (packet body ++ rest) body rest :=
  ⟨_, isHeader_packet body rest, by rw [contentLength_headerLine, if_pos h]⟩

-- ---------------------------------------------------------------------------
-- Lists of values
-- ---------------------------------------------------------------------------

def writeAll (encode : Json → Option String) (name : String) :
    List Json → Writer → Comp (Except Exn Unit × Writer)
  | [], w => pure (.ok (), w)
  | value :: values, w => do
    match ← writeJson encode name false value w with
    | (.error e, w) => pure (.error e, w)
    | (.ok (), w) => writeAll encode name values w

def readMany (decode : String → Option Json) (name : String) :
    Nat → Reader → Comp (Except Exn (List Json) × Reader)
  | 0, r => pure (.ok [], r)
  | n + 1, r => do
    match ← readJson decode name r with
    | (.error e, r) => pure (.error e, r)
    | (.ok value, r) => do
      match ← readMany decode name n r with
      | (.error e, r) => pure (.error e, r)
      | (.ok values, r) => pure (.ok (value :: values), r)

/-- The codec of the standard library on one value: it is encoded to a text of
acceptable size, and decoded from it again. -/
def RoundTrips (encode : Json → Option String) (decode : String → Option Json) (value : Json) :
    Prop :=
  ∃ text, encode value = some text ∧ decode text = some value ∧
    (utf8Encode text).length ≤ MAX_BODY_SIZE

inductive IsPackets (decode : String → Option Json) : Bytes → List Json → Prop
  | nil : IsPackets decode [] []
  | cons : IsPacket bs body rest → decodeBody decode body = .ok value →
      IsPackets decode rest values → IsPackets decode bs (value :: values)

variable {encode : Json → Option String} {decode : String → Option Json}

theorem returns_writeAll (hw : w.Works) (h : ∀ value ∈ values, RoundTrips encode decode value) :
    ∃ w' bs, Returns (writeAll encode name values w) (.ok (), w') ∧ w.PutOut bs w' ∧
      IsPackets decode bs values := by
  induction values generalizing w with
  | nil => exact ⟨w, [], returns_pure.mpr rfl, ⟨by simp, rfl, rfl⟩, .nil⟩
  | cons value values ih =>
    obtain ⟨text, henc, hdec, hsize⟩ := h value (by simp)
    obtain ⟨w', hret, hput⟩ := returns_writeJson name hw henc
    obtain ⟨w'', bs, hret', hput', hbs⟩ :=
      ih (hw.of_putOut hput) fun v hv => h v (List.mem_cons_of_mem _ hv)
    exact ⟨w'', _, hret.bind_iff.mpr hret', hput.trans hput',
      .cons (isPacket_packet hsize) (by simp [decodeBody, hdec]) hbs⟩

theorem returns_readMany {r : Reader} (h : IsPackets decode bs values) (hr : r.data = bs) :
    ∃ r', Returns (readMany decode name values.length r) (.ok values, r') ∧ r.LeftWith [] r' := by
  induction h generalizing r with
  | nil => exact ⟨r, returns_pure.mpr rfl, hr, rfl⟩
  | cons hp hdec _ ih =>
    obtain ⟨r', hret, hdata, hend⟩ := returns_readJson_packet decode name (hr ▸ hp)
    obtain ⟨r'', hret', hleft⟩ := ih hdata
    rw [hdec] at hret
    exact ⟨r'', hret.bind_iff.mpr (hret'.bind_iff.mpr (returns_pure.mpr rfl)), hleft.1,
      hleft.2.trans hend⟩

/-- Values that are written one after the other are read back, the same ones
in the same order, and the next read raises `NoMoreMessages`. -/
theorem read_of_write (encode : Json → Option String) (decode : String → Option Json)
    (name : String) (values : List Json) (w : Writer) (hw : w.Works) (hout : w.output = [])
    (hcodec : ∀ value ∈ values, RoundTrips encode decode value) :
    ∃ w', Returns (writeAll encode name values w) (.ok (), w') ∧
      ∀ r : Reader, r.data = w'.output →
        ∃ r', Returns (readMany decode name values.length r) (.ok values, r') ∧ r'.data = [] ∧
          ∃ text, Returns (readJson decode name r') (.error (.noMoreMessages name text), r') := by
  obtain ⟨w', bs, hwrite, hput, hbs⟩ := returns_writeAll name hw hcodec
  refine ⟨w', hwrite, fun r hr => ?_⟩
  have hdata : r.data = bs := by simpa [hput.1, hout] using hr
  obtain ⟨r', hread, hleft⟩ := returns_readMany name hbs hdata
  exact ⟨r', hread, hleft.1, returns_readJson_nil decode name hleft.1⟩

def encodeLiteral : Json → Option String
  | .null => some "null"
  | .bool true => some "true"
  | .bool false => some "false"
  | _ => none

def decodeLiteral (text : String) : Option Json :=
  if text = "null" then some .null
  else if text = "true" then some (.bool true)
  else if text = "false" then some (.bool false)
  else none

/-- A writer that takes three bytes in every second call and none in the
others. -/
def slowWriter : Writer where
  output := []
  results n := if n % 2 = 0 then .nothing else .accepts 3

theorem slowWriter_works : slowWriter.Works where
  noRaise n text := by
    simp only [slowWriter]
    split <;> simp
  flushes _ := rfl
  progress n := ⟨2 * n + 1, by omega, 2, by simp [slowWriter, Nat.add_mod]⟩

theorem read_of_write_literals :
    ∃ w', Returns (writeAll encodeLiteral "stdio" [.null, .bool true, .null] slowWriter) (.ok (), w') ∧
      ∀ r : Reader, r.data = w'.output →
        ∃ r', Returns (readMany decodeLiteral "stdio" 3 r) (.ok [.null, .bool true, .null], r') ∧
          r'.data = [] ∧
          ∃ text, Returns (readJson decodeLiteral "stdio" r') (.error (.noMoreMessages "stdio" text), r') := by
  refine read_of_write encodeLiteral decodeLiteral "stdio" [.null, .bool true, .null] slowWriter
    slowWriter_works rfl fun value hv => ?_
  have hcases : value = .null ∨ value = .bool true := by
    simp only [List.mem_cons, List.not_mem_nil, or_false] at hv
    tauto
  obtain rfl | rfl := hcases
  · exact ⟨"null", rfl, rfl, by decide⟩
  · exact ⟨"true", rfl, rfl, by decide⟩

end Debugpy
