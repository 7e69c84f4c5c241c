import Mathlib.Tactic.TypeStar

/-!
# Procedures with exceptions, a state and a process that can end

`Proc ε σ α` is code that reads and writes a state `σ` and either returns an
`α` or stops: it raises an exception `ε`, ends the whole process, or waits
for something that never comes. Only exceptions can be caught, and `finally`
runs only when the thread is still there to run it. `Triple` is the judgement
of a run from one state, with one rule for each way to build a procedure.
-/

namespace Debugpy

/-- Why a procedure did not return. -/
inductive Stop (ε : Type) where
  | raised (e : ε)
  | exited
  | blocked
  deriving DecidableEq, Repr

abbrev Proc (ε σ : Type) := ExceptT (Stop ε) (StateM σ)

namespace Proc

variable {ε σ α β : Type}

def run (p : Proc ε σ α) (s : σ) : Except (Stop ε) α × σ := StateT.run (ExceptT.run p) s

def raise (e : ε) : Proc ε σ α := throw (.raised e)
def exit : Proc ε σ α := throw .exited
def block : Proc ε σ α := throw .blocked

/-- `try: p except: …`; `clauses` gives the body of the first clause that
matches, if there is one. -/
def tryExcept (p : Proc ε σ α) (clauses : ε → Option (Proc ε σ α)) : Proc ε σ α := fun s =>
  match p.run s with
  | (.error (.raised e), s') => match clauses e with
    | some h => h.run s'
    | none => (.error (.raised e), s')
  | other => other

/-- `try: p finally: last`. What `last` raises replaces the outcome of `p`. -/
def tryFinally (p : Proc ε σ α) (last : Proc ε σ Unit) : Proc ε σ α := fun s =>
  match p.run s with
  | (.ok a, s') => (last >>= fun _ => pure a : Proc ε σ α).run s'
  | (.error (.raised e), s') => (last >>= fun _ => raise e : Proc ε σ α).run s'
  | other => other

def when (c : Bool) (p : Proc ε σ Unit) : Proc ε σ Unit := if c then p else pure ()

@[simp] theorem run_pure (a : α) (s : σ) : (pure a : Proc ε σ α).run s = (.ok a, s) := rfl
@[simp] theorem run_raise (e : ε) (s : σ) :
    (raise e : Proc ε σ α).run s = (.error (.raised e), s) := rfl
@[simp] theorem run_exit (s : σ) : (exit : Proc ε σ α).run s = (.error .exited, s) := rfl
@[simp] theorem run_block (s : σ) : (block : Proc ε σ α).run s = (.error .blocked, s) := rfl
@[simp] theorem run_get (s : σ) : (get : Proc ε σ σ).run s = (.ok s, s) := rfl
@[simp] theorem run_set (s s' : σ) : (set s' : Proc ε σ PUnit).run s = (.ok (), s') := rfl
@[simp] theorem run_modify (f : σ → σ) (s : σ) :
    (modify f : Proc ε σ PUnit).run s = (.ok (), f s) := rfl

theorem run_when_modify (c : Bool) (f : σ → σ) (s : σ) :
    (when c (modify f) : Proc ε σ Unit).run s = (.ok (), if c then f s else s) := by
  cases c <;> rfl

theorem run_bind (p : Proc ε σ α) (f : α → Proc ε σ β) (s : σ) :
    (p >>= f).run s = match p.run s with
      | (.ok a, s') => (f a).run s'
      | (.error e, s') => (.error e, s') := by
  unfold run
  simp only [bind, ExceptT.bind, ExceptT.mk, ExceptT.run, StateT.bind, StateT.run, ExceptT.bindCont]
  cases p s with
  | mk r s' => cases r <;> rfl

theorem run_map (f : α → β) (p : Proc ε σ α) (s : σ) :
    (f <$> p).run s = match p.run s with
      | (.ok a, s') => (.ok (f a), s')
      | (.error e, s') => (.error e, s') := by
  unfold run
  simp only [Functor.map, ExceptT.map, ExceptT.mk, ExceptT.run, bind, StateT.bind, StateT.run]
  cases p s with
  | mk r s' => cases r <;> rfl

theorem run_tryExcept (p : Proc ε σ α) (clauses : ε → Option (Proc ε σ α)) (s : σ) :
    (tryExcept p clauses).run s = match p.run s with
      | (.error (.raised e), s') => match clauses e with
        | some h => h.run s'
        | none => (.error (.raised e), s')
      | other => other := rfl

theorem run_tryFinally (p : Proc ε σ α) (last : Proc ε σ Unit) (s : σ) :
    (tryFinally p last).run s = match p.run s with
      | (.ok a, s') => (last >>= fun _ => pure a : Proc ε σ α).run s'
      | (.error (.raised e), s') => (last >>= fun _ => raise e : Proc ε σ α).run s'
      | other => other := rfl

@[ext] theorem ext {p q : Proc ε σ α} (h : ∀ s, p.run s = q.run s) : p = q := funext h

-- ---------------------------------------------------------------------------
-- The judgement of a run
-- ---------------------------------------------------------------------------

/-- From `s`, `p` returns in `Q` or stops in `E`. -/
def Triple (p : Proc ε σ α) (s : σ) (Q : α → σ → Prop) (E : Stop ε → σ → Prop) : Prop :=
  match p.run s with
  | (.ok a, s') => Q a s'
  | (.error e, s') => E e s'

variable {Q : α → σ → Prop} {E : Stop ε → σ → Prop}

theorem Triple.of_ok (h : p.run s = (.ok a, s')) (hq : Q a s') : Triple p s Q E := by
  rw [Triple, h]
  exact hq

theorem Triple.of_error (h : p.run s = (.error e, s')) (he : E e s') : Triple p s Q E := by
  rw [Triple, h]
  exact he

theorem Triple.pure (h : Q a s) : Triple (Pure.pure a : Proc ε σ α) s Q E := h

theorem Triple.raise (h : E (.raised e) s) : Triple (raise e : Proc ε σ α) s Q E := h

theorem Triple.any : Triple p s (fun _ _ => True) fun _ _ => True := by
  unfold Triple
  split <;> trivial

theorem Triple.mono (h : Triple p s Q E) (hq : ∀ a s', Q a s' → Q' a s')
    (he : ∀ e s', E e s' → E' e s') : Triple p s Q' E' := by
  unfold Triple at h ⊢
  cases hr : p.run s with
  | mk r s' =>
    rw [hr] at h
    cases r with
    | ok a => exact hq a s' h
    | error e => exact he e s' h

/-- What holds of the state after, whatever the outcome. -/
theorem triple_state {P : σ → Prop} {p : Proc ε σ α} :
    Triple p s (fun _ s' => P s') (fun _ s' => P s') ↔ P (p.run s).2 := by
  unfold Triple
  cases p.run s with
  | mk r s' => cases r <;> exact Iff.rfl

theorem Triple.bind {f : α → Proc ε σ β} {R : β → σ → Prop} (h : Triple p s Q E)
    (hf : ∀ a s', Q a s' → Triple (f a) s' R E) : Triple (p >>= f) s R E := by
  unfold Triple at h ⊢
  rw [run_bind]
  cases hr : p.run s with
  | mk r s' =>
    rw [hr] at h
    cases r with
    | ok a => exact hf a s' h
    | error e => exact h

theorem Triple.map {f : α → β} {R : β → σ → Prop} (h : Triple p s (fun a s' => R (f a) s') E) :
    Triple (f <$> p) s R E := by
  unfold Triple at h ⊢
  rw [run_map]
  cases hr : p.run s with
  | mk r s' =>
    rw [hr] at h
    cases r <;> exact h

theorem Triple.and (h : Triple p s Q E) (h' : Triple p s Q' E') :
    Triple p s (fun a s' => Q a s' ∧ Q' a s') (fun e s' => E e s' ∧ E' e s') := by
  unfold Triple at h h' ⊢
  cases hr : p.run s with
  | mk r s' =>
    rw [hr] at h h'
    cases r <;> exact ⟨h, h'⟩

theorem Triple.get_bind {f : σ → Proc ε σ α} (h : Triple (f s) s Q E) :
    Triple (get >>= f) s Q E := by
  unfold Triple at h ⊢
  rwa [run_bind, run_get]

theorem Triple.modify_bind {f : σ → σ} {g : PUnit → Proc ε σ α} (h : Triple (g ()) (f s) Q E) :
    Triple (modify f >>= g) s Q E := by
  unfold Triple at h ⊢
  rwa [run_bind, run_modify]

/-- An exception a clause catches is judged by the clause; all else by the
outer judgement. -/
theorem Triple.tryExcept {clauses : ε → Option (Proc ε σ α)} {F : Stop ε → σ → Prop}
    (h : Triple p s Q F)
    (hcatch : ∀ e s', F (.raised e) s' → match clauses e with
      | some c => Triple c s' Q E
      | none => E (.raised e) s')
    (hexit : ∀ s', F .exited s' → E .exited s') (hblock : ∀ s', F .blocked s' → E .blocked s') :
    Triple (tryExcept p clauses) s Q E := by
  unfold Triple at h ⊢
  rw [run_tryExcept]
  cases hr : p.run s with
  | mk r s' =>
    rw [hr] at h
    cases r with
    | ok a => exact h
    | error e =>
      cases e with
      | raised e =>
        have hc := hcatch e s' h
        cases hcl : clauses e with
        | none => simpa [hcl] using hc
        | some c =>
          simp only [hcl] at hc ⊢
          exact hc
      | exited => exact hexit s' h
      | blocked => exact hblock s' h

/-- The `finally` clause is judged from wherever it begins. -/
theorem Triple.tryFinally {p : Proc ε σ α} {last : Proc ε σ Unit} {P : α → σ → Prop}
    {F : Stop ε → σ → Prop} (h : Triple p s P F)
    (hok : ∀ a s', P a s' → Triple last s' (fun _ t => Q a t) E)
    (hraised : ∀ e s', F (.raised e) s' → Triple last s' (fun _ t => E (.raised e) t) E)
    (hexit : ∀ s', F .exited s' → E .exited s') (hblock : ∀ s', F .blocked s' → E .blocked s') :
    Triple (Proc.tryFinally p last) s Q E := by
  unfold Triple at h
  rw [Triple, run_tryFinally]
  cases hr : p.run s with
  | mk r s' =>
    rw [hr] at h
    cases r with
    | ok a => exact Triple.bind (hok a s' h) fun _ _ hq => hq
    | error e =>
      cases e with
      | raised e => exact Triple.bind (hraised e s' h) fun _ _ he => he
      | exited => exact hexit s' h
      | blocked => exact hblock s' h

-- ---------------------------------------------------------------------------
-- Frames
-- ---------------------------------------------------------------------------

/-- A preorder on states: what a procedure may change, over any number of
its steps. `left` is for one that is left waiting. -/
structure Frame (σ : Type) where
  rel : σ → σ → Prop
  refl : ∀ s, rel s s
  trans : ∀ {s t u}, rel s t → rel t u → rel s u
  left : σ → σ → Prop
  left_trans : ∀ {s t u}, rel s t → left t u → left s u

/-- The same whether it waits or not. -/
def Frame.simple (rel : σ → σ → Prop) (refl : ∀ s, rel s s)
    (trans : ∀ {s t u}, rel s t → rel t u → rel s u) : Frame σ :=
  ⟨rel, refl, trans, rel, trans⟩

def Frame.holds (F : Frame σ) (outcome : Except (Stop ε) α) (s s' : σ) : Prop :=
  match outcome with
  | .error .blocked => F.left s s'
  | _ => F.rel s s'

/-- Whatever the outcome, the state after is related to the state before. -/
def Keeps (F : Frame σ) (p : Proc ε σ α) : Prop := ∀ s, F.holds (p.run s).1 s (p.run s).2

variable {F : Frame σ}

theorem holds_simple {rel : σ → σ → Prop} {refl : ∀ s, rel s s}
    {trans : ∀ {s t u}, rel s t → rel t u → rel s u} {outcome : Except (Stop ε) α} :
    (Frame.simple rel refl trans).holds outcome s s' ↔ rel s s' := by
  unfold Frame.holds
  split <;> exact Iff.rfl

theorem Frame.holds.after {outcome : Except (Stop ε) α} (h : F.rel s t) (h' : F.holds outcome t u) :
    F.holds outcome s u := by
  unfold Frame.holds at h' ⊢
  split at h'
  · exact F.left_trans h h'
  · exact F.trans h h'

theorem Keeps.of_ok (h : Keeps F p) (hr : p.run s = (.ok a, s')) : F.rel s s' := by
  have hs := h s
  rw [hr] at hs
  exact hs

theorem Keeps.pure : Keeps F (Pure.pure a : Proc ε σ α) := fun s => F.refl s
theorem Keeps.raise : Keeps F (raise e : Proc ε σ α) := fun s => F.refl s
theorem Keeps.exit : Keeps F (exit : Proc ε σ α) := fun s => F.refl s
theorem Keeps.get : Keeps F (get : Proc ε σ σ) := fun s => F.refl s

theorem Keeps.when (h : Keeps F p) : Keeps F (Proc.when c p) := by
  unfold Proc.when
  split
  · exact h
  · exact .pure

theorem Keeps.modify {f : σ → σ} (h : ∀ s, F.rel s (f s)) :
    Keeps F (modify f : Proc ε σ PUnit) := h

/-- The state that a thread waits in. -/
theorem keeps_leave {f : σ → σ} (h : ∀ s, F.left s (f s)) :
    Keeps F (do modify f; block : Proc ε σ α) := h

theorem Frame.holds.bind {f : α → Proc ε σ β} (h : F.holds (p.run s).1 s (p.run s).2)
    (hf : ∀ a, Keeps F (f a)) : F.holds ((p >>= f).run s).1 s ((p >>= f).run s).2 := by
  rw [run_bind]
  cases hr : p.run s with
  | mk r s' =>
    rw [hr] at h
    cases r with
    | ok a => exact .after h (hf a s')
    | error e => cases e <;> exact h

theorem Keeps.bind {f : α → Proc ε σ β} (h : Keeps F p) (hf : ∀ a, Keeps F (f a)) :
    Keeps F (p >>= f) := fun s => .bind (h s) hf

theorem Keeps.map {f : α → β} {p : Proc ε σ α} (h : Keeps F p) : Keeps F (f <$> p) := by
  intro s
  have hs := h s
  rw [run_map]
  cases hr : p.run s with
  | mk r s' =>
    rw [hr] at hs
    cases r with
    | ok a => exact hs
    | error e => cases e <;> exact hs

theorem Keeps.tryExcept {clauses : ε → Option (Proc ε σ α)} (h : Keeps F p)
    (hc : ∀ e c, clauses e = some c → Keeps F c) : Keeps F (Proc.tryExcept p clauses) := by
  intro s
  have hs := h s
  rw [run_tryExcept]
  cases hr : p.run s with
  | mk r s' =>
    rw [hr] at hs
    cases r with
    | ok a => exact hs
    | error e =>
      cases e with
      | raised e =>
        cases hcl : clauses e with
        | none => simpa [hcl] using hs
        | some c => simpa [hcl] using Frame.holds.after hs (hc e c hcl s')
      | exited => exact hs
      | blocked => exact hs

theorem Keeps.tryFinally {last : Proc ε σ Unit} (h : Keeps F p) (hl : Keeps F last) :
    Keeps F (Proc.tryFinally p last) := by
  intro s
  have hs := h s
  rw [run_tryFinally]
  cases hr : p.run s with
  | mk r s' =>
    rw [hr] at hs
    cases r with
    | ok a => exact .after hs (Keeps.bind hl (fun _ => Keeps.pure) s')
    | error e =>
      cases e with
      | raised e => exact .after hs (Keeps.bind hl (fun _ => Keeps.raise) s')
      | exited => exact hs
      | blocked => exact hs

/-- A predicate that is not lost. -/
def Frame.preserving (P : σ → Prop) : Frame σ :=
  .simple (fun s s' => P s → P s') (fun _ => id) fun h h' hs => h' (h hs)

theorem keeps_preserving {P : σ → Prop} {p : Proc ε σ α} :
    Keeps (.preserving P) p ↔ ∀ s, P s → P (p.run s).2 := by
  refine forall_congr' fun s => ?_
  unfold Frame.holds
  split <;> exact Iff.rfl

/-- A predicate that is not lost, and what is left of it while a thread waits. -/
def Frame.leaving (P Q : σ → Prop) : Frame σ where
  rel s s' := P s → P s'
  refl _ := id
  trans h h' hs := h' (h hs)
  left s s' := P s → Q s'
  left_trans h h' hs := h' (h hs)

theorem Frame.leaving_holds {P Q : σ → Prop} {outcome : Except (Stop ε) α}
    (h : P s → (Frame.leaving P Q).holds outcome s s') : (Frame.leaving P Q).holds outcome s s' := by
  cases outcome with
  | ok a => exact fun hs => h hs hs
  | error e => cases e <;> exact fun hs => h hs hs

theorem Keeps.leaves {P Q : σ → Prop} {p : Proc ε σ α} (h : Keeps (.leaving P Q) p)
    (hQ : ∀ {s}, P s → Q s) (hs : P s) :
    Triple p s (fun _ s' => P s') fun e s' => Q s' ∧ (e ≠ .blocked → P s') := by
  have hk := h s
  unfold Triple
  cases hr : p.run s with
  | mk r s' =>
    rw [hr] at hk
    cases r with
    | ok a => exact hk hs
    | error e =>
      cases e with
      | blocked => exact ⟨hk hs, fun hne => absurd rfl hne⟩
      | raised e => exact ⟨hQ (hk hs), fun _ => hk hs⟩
      | exited => exact ⟨hQ (hk hs), fun _ => hk hs⟩

theorem keeps_leaving {P Q : σ → Prop} {p : Proc ε σ α} (hQ : ∀ {s}, P s → Q s)
    (h : ∀ s, P s → P (p.run s).2) : Keeps (.leaving P Q) p := by
  intro s
  unfold Frame.holds
  split
  · exact fun hs => hQ (h s hs)
  · exact h s

/-- What it returns, if it does, is one of these. -/
def Yields (p : Proc ε σ α) (Q : α → Prop) : Prop := ∀ s a, (p.run s).1 = .ok a → Q a

theorem Yields.triple {Q : α → Prop} (h : Yields p Q) :
    Triple p s (fun a _ => Q a) fun _ _ => True := by
  have hs := h s
  unfold Triple
  cases hr : p.run s with
  | mk r s' =>
    rw [hr] at hs
    cases r with
    | ok a => exact hs a rfl
    | error e => trivial

theorem Yields.pure {Q : α → Prop} (h : Q a) : Yields (Pure.pure a : Proc ε σ α) Q := by
  intro s a' ha
  cases ha
  exact h

theorem Yields.raise {Q : α → Prop} : Yields (raise e : Proc ε σ α) Q := fun _ _ h => nomatch h

theorem Yields.bind {p : Proc ε σ α} {f : α → Proc ε σ β} {P : α → Prop} {Q : β → Prop}
    (h : Yields p P) (hf : ∀ a, P a → Yields (f a) Q) : Yields (p >>= f) Q := by
  intro s b hb
  have hs := h s
  rw [run_bind] at hb
  cases hr : p.run s with
  | mk r s' =>
    rw [hr] at hb hs
    cases r with
    | ok a => exact hf a (hs a rfl) s' b hb
    | error e => cases hb

theorem Yields.tryExcept {clauses : ε → Option (Proc ε σ α)} {Q : α → Prop} (h : Yields p Q)
    (hc : ∀ e c, clauses e = some c → Yields c Q) : Yields (Proc.tryExcept p clauses) Q := by
  intro s a ha
  have hs := h s
  rw [run_tryExcept] at ha
  cases hr : p.run s with
  | mk r s' =>
    rw [hr] at ha hs
    cases r with
    | ok a' => exact hs a ha
    | error e =>
      cases e with
      | raised e =>
        dsimp only at ha
        cases hcl : clauses e with
        | none =>
          rw [hcl] at ha
          cases ha
        | some c =>
          rw [hcl] at ha
          exact hc e c hcl s' a ha
      | exited | blocked => cases ha

theorem Yields.any (p : Proc ε σ α) : Yields p fun _ => True := fun _ _ _ => trivial

theorem Keeps.bind_yields {f : α → Proc ε σ β} {P : α → Prop} (h : Keeps F p) (hp : Yields p P)
    (hf : ∀ a, P a → Keeps F (f a)) : Keeps F (p >>= f) := by
  intro s
  have hs := h s
  rw [run_bind]
  cases hr : p.run s with
  | mk r s' =>
    rw [hr] at hs
    cases r with
    | ok a => exact .after hs (hf a (hp s a (by rw [hr])) s')
    | error e => cases e <;> exact hs

/-- What it raises, if it does, is one of these. -/
def Throws (p : Proc ε σ α) (E : ε → Prop) : Prop := ∀ s e, (p.run s).1 = .error (.raised e) → E e

theorem Throws.pure {E : ε → Prop} : Throws (Pure.pure a : Proc ε σ α) E := fun _ _ h => nomatch h
theorem Throws.get {E : ε → Prop} : Throws (get : Proc ε σ σ) E := fun _ _ h => nomatch h
theorem Throws.modify {f : σ → σ} {E : ε → Prop} : Throws (modify f : Proc ε σ PUnit) E :=
  fun _ _ h => nomatch h

theorem Throws.raise {E : ε → Prop} (h : E e) : Throws (raise e : Proc ε σ α) E := by
  intro s e' he
  cases he
  exact h

theorem Throws.bind {p : Proc ε σ α} {f : α → Proc ε σ β} {E : ε → Prop} (h : Throws p E)
    (hf : ∀ a, Throws (f a) E) : Throws (p >>= f) E := by
  intro s e he
  have hs := h s
  rw [run_bind] at he
  cases hr : p.run s with
  | mk r s' =>
    rw [hr] at he hs
    cases r with
    | ok a => exact hf a s' e he
    | error stop =>
      cases he
      exact hs e rfl

/-- Only the clauses for what can be raised matter. -/
theorem Keeps.tryExcept_throws {clauses : ε → Option (Proc ε σ α)} {E : ε → Prop} (h : Keeps F p)
    (ht : Throws p E) (hc : ∀ e c, E e → clauses e = some c → Keeps F c) :
    Keeps F (Proc.tryExcept p clauses) := by
  intro s
  have hs := h s
  have hts := ht s
  rw [run_tryExcept]
  cases hr : p.run s with
  | mk r s' =>
    rw [hr] at hs hts
    cases r with
    | ok a => exact hs
    | error stop =>
      cases stop with
      | raised e =>
        cases hcl : clauses e with
        | none => simpa [hcl] using hs
        | some c => simpa [hcl] using Frame.holds.after hs (hc e c (hts e rfl) hcl s')
      | exited => exact hs
      | blocked => exact hs

-- ---------------------------------------------------------------------------
-- Procedures that only raise
-- ---------------------------------------------------------------------------

/-- If it does not return, it raises: it neither ends the process nor waits. -/
def Prompt (p : Proc ε σ α) : Prop := ∀ s e, (p.run s).1 = .error e → ∃ x, e = .raised x

theorem Prompt.keeps (hp : Prompt p) (h : Keeps F p) (s : σ) : F.rel s (p.run s).2 := by
  have hs := h s
  have hps := hp s
  cases hr : p.run s with
  | mk r s' =>
    rw [hr] at hs hps
    cases r with
    | ok a => exact hs
    | error e =>
      obtain ⟨x, rfl⟩ := hps e rfl
      exact hs

theorem Prompt.pure : Prompt (Pure.pure a : Proc ε σ α) := fun _ _ h => nomatch h
theorem Prompt.get : Prompt (get : Proc ε σ σ) := fun _ _ h => nomatch h
theorem Prompt.modify {f : σ → σ} : Prompt (modify f : Proc ε σ PUnit) := fun _ _ h => nomatch h
theorem Prompt.set {s : σ} : Prompt (set s : Proc ε σ PUnit) := fun _ _ h => nomatch h
theorem Prompt.raise : Prompt (raise e : Proc ε σ α) := by
  intro s e' h
  cases h
  exact ⟨_, rfl⟩

theorem Prompt.when (h : Prompt p) : Prompt (Proc.when c p) := by
  unfold Proc.when
  split
  · exact h
  · exact .pure

theorem Prompt.bind {f : α → Proc ε σ β} (h : Prompt p) (hf : ∀ a, Prompt (f a)) :
    Prompt (p >>= f) := by
  intro s e he
  have hs := h s
  rw [run_bind] at he
  cases hr : p.run s with
  | mk r s' =>
    rw [hr] at he hs
    cases r with
    | ok a => exact hf a s' e he
    | error e' =>
      cases he
      exact hs e rfl

theorem Prompt.tryExcept {clauses : ε → Option (Proc ε σ α)} (h : Prompt p)
    (hc : ∀ e c, clauses e = some c → Prompt c) : Prompt (Proc.tryExcept p clauses) := by
  intro s e he
  have hs := h s
  rw [run_tryExcept] at he
  cases hr : p.run s with
  | mk r s' =>
    rw [hr] at he hs
    cases r with
    | ok a => cases he
    | error e' =>
      obtain ⟨x, rfl⟩ := hs e' rfl
      dsimp only at he
      cases hcl : clauses x with
      | none =>
        rw [hcl] at he
        cases he
        exact ⟨x, rfl⟩
      | some c =>
        rw [hcl] at he
        exact hc x c hcl s' e he

end Proc

end Debugpy
