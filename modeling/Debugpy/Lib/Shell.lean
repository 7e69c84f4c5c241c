import Debugpy.Lib.Scan

/-!
# Words of a shell

How a POSIX shell splits text into words and removes their quotes. Words are
separated by blanks and quoted by `'`, by `"` and by the backslash; where the
shell does more than to split and to unquote (expansions, operators, comments,
the end of a command) no word is read.
-/

namespace Debugpy.Shell

inductive Mode where
  | unquoted | single | double
  deriving DecidableEq, Repr

def isBlank (c : Char) : Bool := c = ' ' || c = '\t'

/-- What ends a word, starts an expansion or is a pattern, unless it is quoted. -/
def isSpecial (c : Char) : Bool := c ∈ "|&;<>()$`*?[\n".toList

def literal : Mode → Char → Bool
  | .unquoted, c => !(isBlank c || isSpecial c || c = '\'' || c = '"' || c = '\\')
  | .single, c => c ≠ '\''
  | .double, c => c ∉ ['"', '\\', '$', '`']

def turn : Mode → Char → Option Mode
  | .unquoted, '\'' => some .single
  | .unquoted, '"' => some .double
  | .single, '\'' => some .unquoted
  | .double, '"' => some .unquoted
  | _, _ => none

/-- What a backslash ahead of it keeps; a newline is dropped with the backslash. -/
def escaped : Mode → Char → Bool
  | .unquoted, e => e ≠ '\n'
  | .single, _ => false
  | .double, e => e ∈ ['$', '`', '"', '\\']

def readWord : Mode → List Char → Option (List Char × List Char)
  | m, [] => if m = .unquoted then some ([], []) else none
  | m, '\\' :: e :: l =>
    if m ≠ .single ∧ e = '\n' then readWord m l
    else if escaped m e then (readWord m l).map (Prod.map (e :: ·) id)
    else (readWord m (e :: l)).map (Prod.map ('\\' :: ·) id)
  | m, c :: l =>
    if m = .unquoted ∧ isBlank c then some ([], c :: l)
    else if literal m c then (readWord m l).map (Prod.map (c :: ·) id)
    else (turn m c).bind fun m' => readWord m' l

/-- The first `n` words and the text after them; `#` starts a comment, and `~`
at the start of a word is expanded. -/
def readWords : Nat → List Char → Option (List (List Char) × List Char)
  | 0, l => some ([], l)
  | n + 1, l =>
    match l.dropWhile isBlank with
    | [] => none
    | c :: l' =>
      if c = '#' ∨ c = '~' then none
      else (readWord .unquoted (c :: l')).bind fun word =>
        (readWords n word.2).map (Prod.map (word.1 :: ·) id)

-- ---------------------------------------------------------------------------
-- The grammar of a word
-- ---------------------------------------------------------------------------

/-- From mode `m` the text `l` has the word `w` at its start, and `r` after it. -/
inductive Word : Mode → List Char → List Char → List Char → Prop
  | done : Word .unquoted [] [] []
  | blank (hblank : isBlank c) : Word .unquoted (c :: l) [] (c :: l)
  | keep (hlit : literal m c) (rest : Word m l w r) : Word m (c :: l) (c :: w) r
  | turn (hturn : turn m c = some m') (rest : Word m' l w r) : Word m (c :: l) w r
  | join (hm : m ≠ .single) (rest : Word m l w r) : Word m ('\\' :: '\n' :: l) w r
  | escape (hesc : escaped m e) (hne : e ≠ '\n') (rest : Word m l w r) :
      Word m ('\\' :: e :: l) (e :: w) r
  | backslash (hesc : escaped .double e = false) (hne : e ≠ '\n')
      (rest : Word .double (e :: l) w r) : Word .double ('\\' :: e :: l) ('\\' :: w) r

theorem isQuote_of_turn (h : turn m c = some m') : c = '\'' ∨ c = '"' := by
  unfold Shell.turn at h
  split at h <;> simp_all

theorem not_blank_of_literal (h : literal .unquoted c) : isBlank c = false := by
  cases hc : isBlank c with
  | false => rfl
  | true => simp [literal, hc] at h

theorem Word.of_readWord : readWord m l = some (w, r) → Word m l w r := by
  fun_induction readWord m l generalizing w r with
  | case1 =>
    rintro ⟨⟩
    exact .done
  | case2 => rintro ⟨⟩
  | case3 m e l h ih =>
    obtain ⟨hm, rfl⟩ := h
    exact fun hread => .join hm (ih hread)
  | case4 m e l hjoin hesc ih =>
    intro hread
    obtain ⟨w, rfl, hrest⟩ := Scan.map_cons_eq_some.mp hread
    refine .escape hesc ?_ (ih hrest)
    rintro rfl
    cases m <;> simp_all [escaped]
  | case5 m e l hjoin hesc ih =>
    intro hread
    obtain ⟨w, rfl, hrest⟩ := Scan.map_cons_eq_some.mp hread
    cases m with
    | unquoted => simp_all [escaped]
    | single => exact .keep rfl (ih hrest)
    | double => exact .backslash (by simpa using hesc) (by simpa using hjoin) (ih hrest)
  | case6 m c l _ h =>
    rintro ⟨⟩
    rw [h.1]
    exact .blank h.2
  | case7 m c l _ _ hlit ih =>
    intro hread
    obtain ⟨w, rfl, hrest⟩ := Scan.map_cons_eq_some.mp hread
    exact .keep hlit (ih hrest)
  | case8 m c l _ _ _ ih =>
    intro hread
    obtain ⟨m', hturn, hread⟩ := Option.bind_eq_some_iff.mp hread
    exact .turn hturn (ih m' hread)

theorem readWord_cons (hc : c ≠ '\\') : readWord m (c :: l) =
    if m = .unquoted ∧ isBlank c then some ([], c :: l)
    else if literal m c then (readWord m l).map (Prod.map (c :: ·) id)
    else (turn m c).bind fun m' => readWord m' l := by
  rw [readWord]
  rintro e l rfl
  exact absurd rfl hc

theorem Word.read (h : Word m l w r) : readWord m l = some (w, r) := by
  induction h with
  | done => rfl
  | blank hblank =>
    rw [readWord_cons (by rintro rfl; simp [isBlank] at hblank)]
    simp [hblank]
  | @keep m c l w r hlit _ ih =>
    by_cases hc : c = '\\'
    · subst hc
      cases m <;> simp [literal] at hlit
      cases l <;> simp_all [readWord, escaped]
    · have hblank : ¬ (m = .unquoted ∧ isBlank c) := by
        rintro ⟨rfl, hblank⟩
        simp [literal, hblank] at hlit
      simp [readWord_cons hc, hblank, hlit, ih]
  | @turn m c m' l w r hturn _ ih =>
    have hc := isQuote_of_turn hturn
    have hc' : c ≠ '\\' := by rintro rfl; simp at hc
    have hblank : isBlank c = false := by rcases hc with rfl | rfl <;> rfl
    have hlit : literal m c = false := by
      rcases hc with rfl | rfl <;> cases m <;> simp_all [literal, Shell.turn]
    simp [readWord_cons hc', hblank, hlit, hturn, ih]
  | join hm _ ih => simp [readWord, hm, ih]
  | @escape m e l w r hesc hne _ ih => simp [readWord, hne, hesc, ih]
  | @backslash e l w r hesc hne _ ih => simp [readWord, hne, hesc, ih]

theorem readWord_eq_some : readWord m l = some (w, r) ↔ Word m l w r :=
  ⟨.of_readWord, Word.read⟩

/-- A word stops at a blank or with the text. -/
theorem Word.stops (h : Word m l w r) : ∀ c ∈ r.head?, isBlank c := by
  induction h with
  | done => simp
  | blank hblank => simpa using hblank
  | keep _ _ ih | turn _ _ ih | join _ _ ih | escape _ _ _ ih | backslash _ _ _ ih => exact ih

/-- Unquoting makes no blanks. -/
theorem Word.blanks_le (h : Word m l w r) :
    w.countP isBlank + r.countP isBlank ≤ l.countP isBlank := by
  induction h with
  | done => simp
  | blank => simp
  | keep _ _ ih | turn _ _ ih | join _ _ ih | escape _ _ _ ih | backslash _ _ _ ih =>
    simp only [List.countP_cons] at *
    omega

-- ---------------------------------------------------------------------------
-- A reader that has fallen behind
-- ---------------------------------------------------------------------------

/-- The text is over, or a space comes next. -/
def AtSpace (l : List Char) : Prop := ∀ c ∈ l.head?, c = ' '

/-- From `l` no word without a space is read, unless it is the empty one. -/
def Barren (l : List Char) : Prop := ∀ m w r, Word m l w r → w ≠ [] → ' ' ∈ w

theorem barren_of_atSpace (hl : AtSpace l) : Barren l := by
  intro m w r h hw
  cases h with
  | done => exact absurd rfl hw
  | blank => exact absurd rfl hw
  | keep hlit =>
    rw [hl _ rfl]
    exact List.mem_cons_self
  | turn hturn =>
    rw [hl _ rfl] at hturn
    cases m <;> simp [Shell.turn] at hturn
  | join | escape | backslash => exact absurd (hl _ rfl) (by decide)

theorem barren_quote (hl : AtSpace l) : Barren ('"' :: l) := by
  intro m w r h hw
  cases h with
  | blank hblank => exact absurd rfl hw
  | @keep _ _ _ w _ hlit rest =>
    cases m with
    | single =>
      refine List.mem_cons_of_mem _ (barren_of_atSpace hl _ _ _ rest ?_)
      rintro rfl
      cases rest with
      | turn hturn => simp [hl _ rfl, Shell.turn] at hturn
      | join hm => exact hm rfl
    | unquoted | double => simp [literal] at hlit
  | turn hturn rest => exact barren_of_atSpace hl _ _ _ rest hw

/-- Once a character is lost before the next space, the reader cannot catch up. -/
theorem Word.not_behind (h : Word m (x ++ z) (p ++ x) r) (hp : p ≠ []) (hspace : ' ' ∉ p)
    (hz : Barren z) (htail : ∀ e z', z = e :: z' → ' ' ≠ e → Barren z') : False := by
  induction hn : x.length using Nat.strongRecOn generalizing m x p with
  | ind n ih =>
  subst hn
  rcases x with _ | ⟨c, x⟩
  · rw [List.append_nil] at h
    exact hspace (hz m p r h hp)
  rcases p with _ | ⟨a, p⟩
  · exact hp rfl
  have ha : ' ' ≠ a := fun h => hspace (h ▸ List.mem_cons_self)
  have hspace' : ' ' ∉ p := fun hmem => hspace (List.mem_cons_of_mem a hmem)
  generalize hl : c :: x ++ z = l at h
  generalize hw : a :: p ++ c :: x = w at h
  cases h with
  | done => cases hl
  | blank => cases hw
  | keep hlit rest =>
    cases hl
    cases hw
    exact ih x.length (by simp) (p := p ++ [c]) (by simpa using rest) (by simp) (by simp [*]) rfl
  | turn hturn rest =>
    cases hl
    subst hw
    have hc : ' ' ≠ c := by rcases isQuote_of_turn hturn with rfl | rfl <;> decide
    exact ih x.length (by simp) (p := a :: p ++ [c]) (by simpa using rest) (by simp)
      (by simp [*]) rfl
  | join hm rest =>
    subst hw
    rcases x with _ | ⟨e, x⟩
    · cases hl
      exact absurd (htail _ _ rfl (by decide) _ _ _ rest (by simp)) (by simp [ha, hspace'])
    · cases hl
      exact ih x.length (by simp only [List.length_cons]; omega) (p := a :: p ++ ['\\', '\n']) (by simpa using rest)
        (by simp) (by simp [ha, hspace']) rfl
  | escape hesc hne rest =>
    cases hw
    rcases x with _ | ⟨e, x⟩
    · cases hl
      exact absurd (htail _ _ rfl ha _ _ _ rest (by simp)) (by simp [hspace'])
    · cases hl
      exact ih x.length (by simp only [List.length_cons]; omega) (p := p ++ ['\\', a]) (by simpa using rest) (by simp)
        (by simp [ha, hspace']) rfl
  | backslash hesc hne rest =>
    cases hw
    obtain ⟨rfl, htext⟩ : c = '\\' ∧ x ++ z = _ :: _ := List.cons_eq_cons.mp hl
    exact ih x.length (by simp) (p := p ++ ['\\']) (by simpa [htext] using rest) (by simp)
      (by simp [hspace']) rfl

-- ---------------------------------------------------------------------------
-- What is read back
-- ---------------------------------------------------------------------------

/-- Read back as it is, without quotes. -/
def Plain (s : List Char) : Prop := ∀ c ∈ s, literal .unquoted c

/-- Read back as it is between double quotes. -/
structure Inert (s : List Char) : Prop where
  active : ∀ c ∈ s, c ≠ '"' ∧ c ≠ '$' ∧ c ≠ '`'
  unescaped : Scan.Unescaped (fun e => e = '\\' ∨ e = '\n') s

theorem not_behind_atSpace (h : Word m (x ++ t) (p ++ x) r) (hp : p ≠ []) (hspace : ' ' ∉ p)
    (ht : AtSpace t) : False := by
  refine h.not_behind hp hspace (barren_of_atSpace ht) ?_
  rintro e t rfl he
  exact absurd (ht e rfl).symm he

theorem not_behind_quote (h : Word m (x ++ '"' :: t) (p ++ x) r) (hp : p ≠ [])
    (hspace : ' ' ∉ p) (ht : AtSpace t) : False := by
  refine h.not_behind hp hspace (barren_quote ht) ?_
  rintro e t ⟨⟩ -
  exact barren_of_atSpace ht

theorem word_nil_iff (ht : AtSpace t) : Word .unquoted t [] r ↔ r = t := by
  rcases t with _ | ⟨c, t⟩
  · constructor
    · rintro ⟨⟩
      rfl
    · rintro rfl
      exact .done
  · obtain rfl : c = ' ' := ht c rfl
    constructor
    · intro h
      cases h with
      | blank => rfl
      | turn hturn => cases hturn
    · rintro rfl
      exact .blank rfl

theorem word_unquoted_iff (ht : AtSpace t) :
    Word .unquoted (s ++ t) s r ↔ Plain s ∧ r = t := by
  induction s with
  | nil => simp [Plain, word_nil_iff ht]
  | cons c s ih =>
    constructor
    · intro h
      rw [List.cons_append] at h
      generalize hl : s ++ t = l at h
      cases h with
      | keep hlit rest =>
        subst hl
        obtain ⟨hs, rfl⟩ := ih.mp rest
        exact ⟨List.forall_mem_cons.mpr ⟨hlit, hs⟩, rfl⟩
      | turn hturn rest =>
        subst hl
        have hc : ' ' ≠ c := by rcases isQuote_of_turn hturn with rfl | rfl <;> decide
        exact (not_behind_atSpace (p := [c]) rest (by simp) (by simpa using hc) ht).elim
      | join hm rest =>
        rcases s with _ | ⟨e, s⟩
        · subst hl
          exact absurd (ht _ rfl) (by decide)
        · cases hl
          exact (not_behind_atSpace (p := ['\\', '\n']) rest (by simp) (by decide) ht).elim
      | escape hesc hne rest =>
        rcases s with _ | ⟨e, s⟩
        · subst hl
          exact absurd (ht _ rfl) (by decide)
        · cases hl
          exact (not_behind_atSpace (p := ['\\']) rest (by simp) (by decide) ht).elim
    · rintro ⟨hs, rfl⟩
      obtain ⟨hlit, hs⟩ := List.forall_mem_cons.mp hs
      exact .keep hlit (ih.mpr ⟨hs, rfl⟩)

theorem inert_cons : Inert (c :: s) ↔ (c ≠ '"' ∧ c ≠ '$' ∧ c ≠ '`') ∧
    (c = '\\' → ∃ e s', s = e :: s' ∧ ¬ (e = '\\' ∨ e = '\n')) ∧ Inert s := by
  constructor
  · rintro ⟨hactive, hunescaped⟩
    obtain ⟨hc, hactive⟩ := List.forall_mem_cons.mp hactive
    obtain ⟨hce, hunescaped⟩ := Scan.unescaped_cons.mp hunescaped
    exact ⟨hc, hce, hactive, hunescaped⟩
  · rintro ⟨hc, hce, hactive, hunescaped⟩
    exact ⟨List.forall_mem_cons.mpr ⟨hc, hactive⟩, Scan.unescaped_cons.mpr ⟨hce, hunescaped⟩⟩

theorem word_double_iff (ht : AtSpace t) :
    Word .double (s ++ '"' :: t) s r ↔ Inert s ∧ r = t := by
  induction s with
  | nil =>
    constructor
    · intro h
      cases h with
      | turn hturn rest =>
        cases hturn
        exact ⟨⟨by simp, by simp, by simp⟩, (word_nil_iff ht).mp rest⟩
    · rintro ⟨-, rfl⟩
      exact .turn rfl ((word_nil_iff ht).mpr rfl)
  | cons c s ih =>
    rw [inert_cons]
    constructor
    · intro h
      rw [List.cons_append] at h
      generalize hl : s ++ '"' :: t = l at h
      cases h with
      | keep hlit rest =>
        subst hl
        obtain ⟨hs, rfl⟩ := ih.mp rest
        have hlit' : c ≠ '"' ∧ c ≠ '\\' ∧ c ≠ '$' ∧ c ≠ '`' := by simpa [literal] using hlit
        exact ⟨⟨⟨hlit'.1, hlit'.2.2⟩, fun heq => absurd heq hlit'.2.1, hs⟩, rfl⟩
      | turn hturn rest =>
        subst hl
        have hc : ' ' ≠ c := by rcases isQuote_of_turn hturn with rfl | rfl <;> decide
        exact (not_behind_quote (p := [c]) rest (by simp) (by simpa using hc) ht).elim
      | join hm rest =>
        rcases s with _ | ⟨e, s⟩
        · cases hl
        · cases hl
          exact (not_behind_quote (p := ['\\', '\n']) rest (by simp) (by decide) ht).elim
      | escape hesc hne rest =>
        rcases s with _ | ⟨e, s⟩
        · cases hl
        · cases hl
          exact (not_behind_quote (p := ['\\']) rest (by simp) (by decide) ht).elim
      | backslash hesc hne rest =>
        rw [← hl] at rest
        obtain ⟨hs, rfl⟩ := ih.mp rest
        refine ⟨⟨by decide, fun _ => ?_, hs⟩, rfl⟩
        rcases s with _ | ⟨e, s⟩
        · cases hl
          cases hesc
        · cases hl
          refine ⟨_, _, rfl, ?_⟩
          rintro (rfl | rfl)
          · cases hesc
          · exact hne rfl
    · rintro ⟨⟨hc, hce, hs⟩, rfl⟩
      by_cases heq : c = '\\'
      · subst heq
        obtain ⟨e, s', rfl, he⟩ := hce rfl
        have he' := hs.active e List.mem_cons_self
        obtain ⟨hback, hnewline⟩ := not_or.mp he
        exact .backslash (by simp [escaped, hback, he']) hnewline (ih.mpr ⟨hs, rfl⟩)
      · exact .keep (by simp [literal, hc, heq]) (ih.mpr ⟨hs, rfl⟩)

/-- `s` between double quotes, or as it is. -/
def render (quoted : Bool) (s : List Char) : List Char :=
  if quoted then '"' :: s ++ ['"'] else s

def Safe (quoted : Bool) (s : List Char) : Prop :=
  if quoted then Inert s else s ≠ [] ∧ Plain s ∧ ∀ c ∈ s.head?, c ≠ '#' ∧ c ≠ '~'

theorem word_render_iff (ht : AtSpace t) : Word .unquoted (render quoted s ++ t) s r ↔
    (if quoted then Inert s else Plain s) ∧ r = t := by
  cases quoted with
  | false => exact word_unquoted_iff ht
  | true =>
    refine Iff.trans ?_ (word_double_iff ht)
    simp only [render, if_true, List.append_assoc, List.cons_append, List.nil_append]
    constructor
    · intro h
      cases h with
      | blank hblank => cases hblank
      | keep hlit => cases hlit
      | turn hturn rest =>
        cases hturn
        exact rest
    · exact .turn rfl

/-- Safe words start with what is neither skipped nor the start of a comment. -/
theorem safe_iff : Safe quoted s ↔ (if quoted then Inert s else Plain s) ∧
    ∃ c l, render quoted s = c :: l ∧ isBlank c = false ∧ c ≠ '#' ∧ c ≠ '~' := by
  cases quoted with
  | true => simp [Safe, render, isBlank]
  | false =>
    rcases s with _ | ⟨c, s⟩
    · simp [Safe, render]
    · simp only [Safe, render, Bool.false_eq_true, if_false]
      constructor
      · rintro ⟨-, hs, hc⟩
        exact ⟨hs, c, s, rfl, not_blank_of_literal (hs c List.mem_cons_self), hc c rfl⟩
      · rintro ⟨hs, _, _, ⟨⟩, -, hc⟩
        exact ⟨by simp, hs, by simpa using hc⟩

theorem readWords_blank (hc : isBlank c) : readWords (n + 1) (c :: l) = readWords (n + 1) l := by
  simp [readWords, hc]

theorem readWords_succ_eq_some : readWords (n + 1) l = some (out, r) ↔
    ∃ w ws r', out = w :: ws ∧ l.dropWhile isBlank ≠ [] ∧
      (∀ c ∈ (l.dropWhile isBlank).head?, c ≠ '#' ∧ c ≠ '~') ∧
      Word .unquoted (l.dropWhile isBlank) w r' ∧ readWords n r' = some (ws, r) := by
  simp only [readWords]
  rcases l.dropWhile isBlank with _ | ⟨c, l⟩
  · simp
  by_cases hc : c = '#' ∨ c = '~'
  · simp [hc, ← not_or]
  · simp only [if_neg hc, Option.bind_eq_some_iff, Prod.exists, readWord_eq_some,
      Scan.map_cons_eq_some]
    constructor
    · rintro ⟨w, r', hword, ws, rfl, hrest⟩
      exact ⟨w, ws, r', rfl, by simp, by simpa using hc, hword, hrest⟩
    · rintro ⟨w, ws, r', rfl, -, -, hword, hrest⟩
      exact ⟨w, r', hword, ws, rfl, hrest⟩

theorem countP_takeWhile_add_dropWhile (l : List Char) :
    (l.takeWhile isBlank).length + (l.dropWhile isBlank).countP isBlank = l.countP isBlank := by
  induction l with
  | nil => rfl
  | cons c l ih =>
    by_cases hc : isBlank c
    · simp [hc]
      omega
    · simp [hc]

/-- The blanks of the words, between them and ahead of them. -/
theorem readWords_blanks_le (h : readWords (n + 1) l = some (ws, r)) :
    ws.flatten.countP isBlank + r.countP isBlank + n + (l.takeWhile isBlank).length ≤
      l.countP isBlank := by
  induction n generalizing l ws with
  | zero =>
    obtain ⟨w, _, r', rfl, -, -, hword, ⟨⟩⟩ := readWords_succ_eq_some.mp h
    have hle := hword.blanks_le
    have hl := countP_takeWhile_add_dropWhile l
    simp only [List.flatten_cons, List.flatten_nil, List.append_nil]
    omega
  | succ n ih =>
    obtain ⟨w, ws, r', rfl, -, -, hword, hrest⟩ := readWords_succ_eq_some.mp h
    have hle := hword.blanks_le
    have hl := countP_takeWhile_add_dropWhile l
    have hr := ih hrest
    have hpos : 0 < (r'.takeWhile isBlank).length := by
      rcases r' with _ | ⟨c, r'⟩
      · simp [readWords] at hrest
      · simp [hword.stops c rfl]
    simp only [List.flatten_cons, List.countP_append]
    omega

/-- The rendered words, a space ahead of each. -/
def line (ps : List (Bool × List Char)) : List Char :=
  ps.flatMap fun p => ' ' :: render p.1 p.2

theorem line_cons : line (p :: ps) = ' ' :: (render p.1 p.2 ++ line ps) := rfl

theorem countP_render : (render quoted s).countP isBlank = s.countP isBlank := by
  cases quoted <;> simp [render, isBlank]

theorem countP_line : (line ps).countP isBlank =
    ps.length + (ps.map (·.2)).flatten.countP isBlank := by
  induction ps with
  | nil => rfl
  | cons p ps ih =>
    simp only [line_cons, List.countP_cons, List.countP_append, countP_render, ih, List.map_cons,
      List.flatten_cons, List.length_cons]
    simp only [isBlank]
    simp
    omega

theorem atSpace_line (ht : AtSpace t) : AtSpace (line ps ++ t) := by
  cases ps with
  | nil => exact ht
  | cons p ps => simp [line_cons, AtSpace]

/-- The rendered words are read back, and what follows is left, exactly when each is safe. -/
theorem readWords_line_iff (ht : AtSpace t) :
    readWords ps.length (line ps ++ t) = some (ps.map (·.2), t) ↔ ∀ p ∈ ps, Safe p.1 p.2 := by
  induction ps with
  | nil => simp [line, readWords]
  | cons p ps ih =>
    obtain ⟨quoted, s⟩ := p
    have hspace : AtSpace (line ps ++ t) := atSpace_line ht
    rw [List.forall_mem_cons, ← ih, safe_iff, line_cons, List.cons_append, List.append_assoc,
      List.length_cons, readWords_blank rfl, readWords_succ_eq_some]
    constructor
    · intro h
      have hblanks := readWords_blanks_le (readWords_succ_eq_some.mpr h)
      simp only [List.map_cons, List.flatten_cons, List.countP_append, countP_render,
        countP_line] at hblanks
      have hskip : (render quoted s ++ (line ps ++ t)).takeWhile isBlank = [] :=
        List.eq_nil_of_length_eq_zero (by omega)
      have hdrop : (render quoted s ++ (line ps ++ t)).dropWhile isBlank =
          render quoted s ++ (line ps ++ t) := by
        simpa [hskip] using List.takeWhile_append_dropWhile (p := isBlank)
          (l := render quoted s ++ (line ps ++ t))
      obtain ⟨w, ws, r', heq, hne, hcomment, hword, hrest⟩ := h
      rw [hdrop] at hne hcomment hword
      obtain ⟨rfl, rfl⟩ := List.cons_eq_cons.mp heq
      obtain ⟨hs, rfl⟩ := (word_render_iff hspace).mp hword
      refine ⟨⟨hs, ?_⟩, hrest⟩
      rcases hrender : render quoted s with _ | ⟨c, l⟩
      · rw [hrender, List.nil_append] at hne hskip
        obtain ⟨c, l, hl⟩ := List.exists_cons_of_ne_nil hne
        rw [hl] at hspace hskip
        rw [hspace c rfl] at hskip
        simp [isBlank] at hskip
      · rw [hrender] at hcomment hskip
        have hblank : isBlank c = false := by
          by_contra hblank
          simp [List.takeWhile_cons, hblank] at hskip
        exact ⟨c, l, rfl, hblank, hcomment c rfl⟩
    · rintro ⟨⟨hs, c, l, hrender, hblank, hcomment⟩, hrest⟩
      have hword := (word_render_iff hspace).mpr ⟨hs, rfl⟩
      have hdrop : (render quoted s ++ (line ps ++ t)).dropWhile isBlank =
          render quoted s ++ (line ps ++ t) := by simp [hrender, hblank]
      rw [hdrop]
      exact ⟨s, _, _, rfl, by simp [hrender], by simpa [hrender] using hcomment, hword, hrest⟩

end Debugpy.Shell
