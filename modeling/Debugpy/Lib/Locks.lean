import Debugpy.Lib.Run
import Mathlib.Computability.RegularExpressions
import Mathlib.Logic.Relation

/-!
# Threads and re-entrant locks

A thread is a sequence of operations on locks and on a store that all threads
share. A program is a regular expression over the operations: its words are
the ways a thread can go through it. If the locks can be ranked so that no
thread ever waits for one while it holds another that is not below it, no
threads wait for each other in a cycle (`not_deadlock`). `Balanced` is what a
program has to keep to for that, with one rule for each way to build one.
-/

namespace Debugpy.Locks

open RegularExpression (char star)

inductive Op (L α : Type) where
  | acquire (l : L)
  | release (l : L)
  /-- `Condition.wait`: the lock is released, however often it is held, and in
  the end acquired as often. -/
  | wait (l : L)
  | act (a : α)
  deriving DecidableEq

abbrev Program (L α : Type) := RegularExpression (Op L α)

variable {T L α σ H : Type}

def withLock (l : L) (p : Program L α) : Program L α := char (.acquire l) * p * char (.release l)

def act (a : α) : Program L α := char (.act a)

def andThen (p q : Program L α) : Program L α := p * (1 + q)

/-- What a thread has to do, and the lock that it first has to get back, with
how often it had it. -/
structure Thread (L α : Type) where
  restoring : Option (L × Nat) := none
  todo : List (Op L α) := []

structure State (T L α σ : Type) where
  /-- The thread that holds a lock, and how often. -/
  owner : L → Option (T × Nat) := fun _ => none
  threads : T → Thread L α := fun _ => {}
  store : σ

/-- A thread starts on a way through a program, or goes on. -/
inductive Label (T L α H : Type) where
  | start (t : T) (program : H) (way : List (Op L α))
  | go (t : T)

section
variable [DecidableEq T] [DecidableEq L]

def State.held (s : State T L α σ) (t : T) (l : L) : Nat :=
  match s.owner l with
  | some (t', n) => if t' = t then n else 0
  | none => 0

def State.available (s : State T L α σ) (t : T) (l : L) : Bool :=
  (s.owner l).all fun o => decide (o.1 = t)

def State.hold (s : State T L α σ) (t : T) (l : L) (n : Nat) : State T L α σ :=
  { s with owner := Function.update s.owner l (if n = 0 then none else some (t, n)) }

def State.proceed (s : State T L α σ) (t : T) (thread : Thread L α) : State T L α σ :=
  { s with threads := Function.update s.threads t thread }

def State.go (perform : α → σ → Option σ) (s : State T L α σ) (t : T) : Option (State T L α σ) :=
  match s.threads t with
  | ⟨some (l, n), todo⟩ =>
    if s.available t l then some ((s.hold t l n).proceed t { todo }) else none
  | ⟨none, []⟩ => none
  | ⟨none, .acquire l :: todo⟩ =>
    if s.available t l then some ((s.hold t l (s.held t l + 1)).proceed t { todo }) else none
  | ⟨none, .release l :: todo⟩ =>
    if 0 < s.held t l then some ((s.hold t l (s.held t l - 1)).proceed t { todo }) else none
  | ⟨none, .wait l :: todo⟩ =>
    if 0 < s.held t l then
      some ((s.hold t l 0).proceed t { restoring := some (l, s.held t l), todo })
    else none
  | ⟨none, .act a :: todo⟩ =>
    (perform a s.store).map fun store => { s with store }.proceed t { todo }

variable [DecidableEq α]

def step (programs : H → Program L α) (perform : α → σ → Option σ) (s : State T L α σ) :
    Label T L α H → Option (State T L α σ)
  | .start t program way => match s.threads t with
    | ⟨none, []⟩ =>
      if (programs program).rmatch way then some (s.proceed t { todo := way }) else none
    | _ => none
  | .go t => s.go perform t

end

-- ---------------------------------------------------------------------------
-- Waiting
-- ---------------------------------------------------------------------------

def Thread.wanted : Thread L α → Option L
  | ⟨some (l, _), _⟩ => some l
  | ⟨none, .acquire l :: _⟩ => some l
  | _ => none

/-- The thread that holds what `t` needs. -/
def State.blocker [DecidableEq T] (s : State T L α σ) (t : T) : Option T :=
  (s.threads t).wanted.bind fun l => (s.owner l).bind fun o => if o.1 = t then none else some o.1

def State.WaitsFor [DecidableEq T] (s : State T L α σ) (t t' : T) : Prop := s.blocker t = some t'

/-- Some threads wait for each other in a cycle. -/
def State.Deadlock [DecidableEq T] (s : State T L α σ) : Prop :=
  ∃ t, Relation.TransGen s.WaitsFor t t

-- ---------------------------------------------------------------------------
-- Orderly threads
-- ---------------------------------------------------------------------------

section
variable [DecidableEq L] (rank : L → Nat) (allowed : α → Prop)

/-- All locks that are held rank below this one. -/
def Above (h : L → Nat) (l : L) : Prop := ∀ l', 0 < h l' → rank l' < rank l

/-- Locks are acquired in the order of their ranks, and released in the end.
Nothing is asked of what follows an action that is not allowed. -/
def Orderly : (L → Nat) → List (Op L α) → Prop
  | h, [] => ∀ l, h l = 0
  | h, .acquire l :: todo =>
    (h l = 0 → Above rank h l) ∧ Orderly (Function.update h l (h l + 1)) todo
  | h, .release l :: todo => 0 < h l ∧ Orderly (Function.update h l (h l - 1)) todo
  | h, .wait l :: todo => 0 < h l ∧ Above rank (Function.update h l 0) l ∧ Orderly h todo
  | h, .act a :: todo => allowed a → Orderly h todo

def Thread.Orderly (h : L → Nat) (thread : Thread L α) : Prop :=
  match thread.restoring with
  | none => Locks.Orderly rank allowed h thread.todo
  | some (l, n) =>
    h l = 0 ∧ Above rank h l ∧ Locks.Orderly rank allowed (Function.update h l n) thread.todo

/-- A program that leaves the locks as it finds them, and is orderly. -/
def Balanced (h : L → Nat) (p : Program L α) : Prop :=
  ∀ way ∈ p.matches', ∀ todo, Orderly rank allowed h todo → Orderly rank allowed h (way ++ todo)

variable {rank allowed} {h : L → Nat} {p q : Program L α}

theorem Balanced.one : Balanced rank allowed h (1 : Program L α) := by
  intro way hway todo htodo
  rw [RegularExpression.matches'_epsilon, Language.mem_one] at hway
  rw [hway]
  exact htodo

theorem Balanced.mul (hp : Balanced rank allowed h p) (hq : Balanced rank allowed h q) :
    Balanced rank allowed h (p * q) := by
  intro way hway todo htodo
  rw [RegularExpression.matches'_mul, Language.mem_mul] at hway
  obtain ⟨u, hu, v, hv, rfl⟩ := hway
  rw [List.append_assoc]
  exact hp u hu _ (hq v hv _ htodo)

theorem Balanced.add (hp : Balanced rank allowed h p) (hq : Balanced rank allowed h q) :
    Balanced rank allowed h (p + q) := by
  intro way hway todo htodo
  rw [RegularExpression.matches'_add, Language.mem_add] at hway
  rcases hway with hway | hway
  · exact hp way hway todo htodo
  · exact hq way hway todo htodo

theorem Balanced.star (hp : Balanced rank allowed h p) : Balanced rank allowed h (star p) := by
  intro way hway todo htodo
  rw [RegularExpression.matches'_star, Language.mem_kstar] at hway
  obtain ⟨ways, rfl, hways⟩ := hway
  induction ways with
  | nil => exact htodo
  | cons way ways ih =>
    rw [List.flatten_cons, List.append_assoc]
    exact hp way (hways way (by simp)) _ (ih fun way hw => hways way (by simp [hw]))

theorem Balanced.opt (hp : Balanced rank allowed h p) : Balanced rank allowed h (1 + p) :=
  .add .one hp

theorem Balanced.andThen (hp : Balanced rank allowed h p) (hq : Balanced rank allowed h q) :
    Balanced rank allowed h (andThen p q) := hp.mul hq.opt

theorem Balanced.act : Balanced rank allowed h (act a : Program L α) := by
  intro way hway todo htodo
  rw [Locks.act, RegularExpression.matches'_char] at hway
  rw [Set.mem_singleton_iff.mp hway]
  exact fun _ => htodo

/-- What follows an action that is not allowed does not count. -/
theorem Balanced.act_mul (hp : allowed a → Balanced rank allowed h p) :
    Balanced rank allowed h (Locks.act a * p) := by
  intro way hway todo htodo
  rw [RegularExpression.matches'_mul, Language.mem_mul] at hway
  obtain ⟨u, hu, v, hv, rfl⟩ := hway
  rw [Locks.act, RegularExpression.matches'_char] at hu
  rw [Set.mem_singleton_iff.mp hu]
  exact fun ha => hp ha v hv todo htodo

theorem Balanced.wait (hl : 0 < h l) (hab : Above rank (Function.update h l 0) l) :
    Balanced rank allowed h (char (.wait l) : Program L α) := by
  intro way hway todo htodo
  rw [RegularExpression.matches'_char] at hway
  rw [Set.mem_singleton_iff.mp hway]
  exact ⟨hl, hab, htodo⟩

/-- A lock that is not held yet has to rank above those that are. -/
theorem Balanced.withLock (hab : h l = 0 → Above rank h l)
    (hp : Balanced rank allowed (Function.update h l (h l + 1)) p) :
    Balanced rank allowed h (withLock l p) := by
  intro way hway todo htodo
  rw [Locks.withLock, RegularExpression.matches'_mul, Language.mem_mul] at hway
  obtain ⟨u, hu, v, hv, rfl⟩ := hway
  rw [RegularExpression.matches'_mul, Language.mem_mul] at hu
  obtain ⟨u, hu, body, hbody, rfl⟩ := hu
  rw [RegularExpression.matches'_char] at hu hv
  rw [Set.mem_singleton_iff.mp hu, Set.mem_singleton_iff.mp hv, List.append_assoc, List.append_assoc]
  refine ⟨hab, hp body hbody _ ⟨by simp, ?_⟩⟩
  simpa using htodo

theorem Balanced.orderly (hp : Balanced rank allowed (fun _ => 0) p) (hway : way ∈ p.matches') :
    Orderly rank allowed (fun _ => 0) way := by
  have horderly := hp way hway [] fun _ => rfl
  rwa [List.append_nil] at horderly

end

-- ---------------------------------------------------------------------------
-- Steps
-- ---------------------------------------------------------------------------

section
variable [DecidableEq T] {s s' : State T L α σ} {t t' : T} {l : L}

theorem held_eq (h : s.owner l = some (t, n)) : s.held t l = n := by
  simp [State.held, h]

theorem available_of_held (h : 0 < s.held t l) : s.available t l = true := by
  unfold State.held at h
  split at h
  · next t' n ho =>
    split at h
    · next heq => simp [State.available, ho, heq]
    · cases h
  · cases h

theorem held_other (h : s.available t l = true) (hne : t' ≠ t) : s.held t' l = 0 := by
  unfold State.held
  split
  · next t'' n ho =>
    have heq : t'' = t := by simpa [State.available, ho] using h
    rw [if_neg (heq ▸ hne.symm)]
  · rfl

variable [DecidableEq L]

theorem held_hold : (s.hold t l n).held t = Function.update (s.held t) l n := by
  funext l'
  by_cases hl : l' = l
  · subst hl
    by_cases hn : n = 0 <;> simp [State.held, State.hold, hn]
  · simp [State.held, State.hold, Function.update_of_ne hl]

/-- What the other threads hold stays as it is. -/
theorem held_hold_other (h : s.available t l = true) (hne : t' ≠ t) :
    (s.hold t l n).held t' = s.held t' := by
  funext l'
  by_cases hl : l' = l
  · subst hl
    rw [held_other h hne]
    by_cases hn : n = 0 <;> simp [State.held, State.hold, hn, hne.symm]
  · simp [State.held, State.hold, Function.update_of_ne hl]

/-- Every thread is orderly, and a lock that has an owner is held. -/
structure Ordered (rank : L → Nat) (allowed : α → Prop) (s : State T L α σ) : Prop where
  threads : ∀ t, (s.threads t).Orderly rank allowed (s.held t)
  positive : ∀ l t n, s.owner l = some (t, n) → 0 < n

variable {rank : L → Nat} {allowed : α → Prop}

omit [DecidableEq T] in
theorem positive_hold (h : ∀ l t n, s.owner l = some (t, n) → 0 < n) :
    ∀ l' t' n', (s.hold t l n).owner l' = some (t', n') → 0 < n' := by
  intro l' t' n' ho
  by_cases hl : l' = l
  · subst hl
    by_cases hn : n = 0
    · simp [State.hold, hn] at ho
    · simp only [State.hold, Function.update_self, if_neg hn, Option.some.injEq, Prod.mk.injEq] at ho
      omega
  · exact h l' t' n' (by simpa [State.hold, Function.update_of_ne hl] using ho)

/-- The thread has done something to a lock that no other thread holds. -/
theorem Ordered.proceed (h : Ordered rank allowed s) (ha : s.available t l = true)
    {thread : Thread L α} (ht : thread.Orderly rank allowed (Function.update (s.held t) l n)) :
    Ordered rank allowed ((s.hold t l n).proceed t thread) := by
  refine ⟨fun t' => ?_, positive_hold h.positive⟩
  by_cases hne : t' = t
  · subst hne
    have heq : ((s.hold t' l n).proceed t' thread).held t' = Function.update (s.held t') l n :=
      held_hold
    rw [heq]
    simpa [State.proceed] using ht
  · have heq : ((s.hold t l n).proceed t thread).held t' = s.held t' := held_hold_other ha hne
    rw [heq]
    simpa [State.proceed, State.hold, Function.update_of_ne hne] using h.threads t'

/-- The thread has done something else. -/
theorem Ordered.proceed_store (h : Ordered rank allowed s) {thread : Thread L α}
    (ht : thread.Orderly rank allowed (s.held t)) (store : σ) :
    Ordered rank allowed ({ s with store }.proceed t thread) := by
  refine ⟨fun t' => ?_, h.positive⟩
  have heq : ({ s with store }.proceed t thread).held t' = s.held t' := rfl
  rw [heq]
  by_cases hne : t' = t
  · subst hne
    simpa [State.proceed] using ht
  · simpa [State.proceed, Function.update_of_ne hne] using h.threads t'

def Thread.action : Thread L α → Option α
  | ⟨none, .act a :: _⟩ => some a
  | _ => none

/-- The step is no action that is not allowed. -/
def Allows (allowed : α → Prop) (s : State T L α σ) : Label T L α H → Prop
  | .start .. => True
  | .go t => ∀ a ∈ (s.threads t).action, allowed a

instance [DecidablePred allowed] (i : Label T L α H) : Decidable (Allows allowed s i) :=
  match i with
  | .start .. => inferInstanceAs (Decidable True)
  | .go t => inferInstanceAs (Decidable (∀ a ∈ (s.threads t).action, allowed a))

theorem Ordered.go {perform : α → σ → Option σ} (h : Ordered rank allowed s)
    (ha : ∀ a ∈ (s.threads t).action, allowed a) (hs : s.go perform t = some s') :
    Ordered rank allowed s' := by
  have ht := h.threads t
  unfold State.go at hs
  split at hs
  · next l n todo hth =>
    rw [hth] at ht
    obtain ⟨-, -, ht⟩ := ht
    split at hs
    · next hav => exact Option.some.inj hs ▸ h.proceed hav ht
    · cases hs
  · cases hs
  · next l todo hth =>
    rw [hth] at ht
    split at hs
    · next hav => exact Option.some.inj hs ▸ h.proceed hav ht.2
    · cases hs
  · next l todo hth =>
    rw [hth] at ht
    split at hs
    · next hheld => exact Option.some.inj hs ▸ h.proceed (available_of_held hheld) ht.2
    · cases hs
  · next l todo hth =>
    rw [hth] at ht
    obtain ⟨-, hab, ht⟩ := ht
    split at hs
    · next hheld =>
      refine Option.some.inj hs ▸ h.proceed (available_of_held hheld) ⟨by simp, hab, ?_⟩
      simpa using ht
    · cases hs
  · next a todo hth =>
    rw [hth] at ht ha
    obtain ⟨store, -, rfl⟩ := Option.map_eq_some_iff.mp hs
    have hrest : Thread.Orderly rank allowed (s.held t) { todo } := ht (ha a rfl)
    exact h.proceed_store hrest store

-- ---------------------------------------------------------------------------
-- Cycles
-- ---------------------------------------------------------------------------

theorem waitsFor_held (h : Ordered rank allowed s) (hw : s.WaitsFor t t') :
    ∃ l, (s.threads t).wanted = some l ∧ s.held t l = 0 ∧ 0 < s.held t' l := by
  obtain ⟨l, hl, hb⟩ := Option.bind_eq_some_iff.mp hw
  obtain ⟨⟨t'', n⟩, ho, hb⟩ := Option.bind_eq_some_iff.mp hb
  dsimp only at hb
  split at hb
  · cases hb
  · next hne =>
    obtain rfl := Option.some.inj hb
    refine ⟨l, hl, by simp [State.held, ho, hne], ?_⟩
    rw [held_eq ho]
    exact h.positive l _ n ho

/-- A thread that waits for a lock holds none that ranks as high. -/
theorem Thread.Orderly.above {thread : Thread L α} {held : L → Nat}
    (h : thread.Orderly rank allowed held) (hl : thread.wanted = some l) (h0 : held l = 0) :
    Above rank held l := by
  obtain ⟨restoring, todo⟩ := thread
  cases restoring with
  | some r =>
    cases hl
    exact h.2.1
  | none =>
    cases todo with
    | nil => cases hl
    | cons op todo =>
      cases op with
      | acquire l' =>
        cases hl
        exact h.1 h0
      | release | wait | act => cases hl

/-- The ranks go up along the threads that wait. -/
theorem waits_rank (h : Ordered rank allowed s) (hw : Relation.TransGen s.WaitsFor t t') :
    ∃ l l', (s.threads t).wanted = some l ∧ s.held t l = 0 ∧ 0 < s.held t' l' ∧ rank l ≤ rank l' := by
  induction hw with
  | single hw =>
    obtain ⟨l, hl, h0, hheld⟩ := waitsFor_held h hw
    exact ⟨l, l, hl, h0, hheld, le_rfl⟩
  | @tail t₁ t₂ _ hw ih =>
    obtain ⟨l, l₁, hl, h0, hheld, hle⟩ := ih
    obtain ⟨l₂, hl₂, h₂, hheld₂⟩ := waitsFor_held h hw
    have hlt := (h.threads t₁).above hl₂ h₂ l₁ hheld
    exact ⟨l, l₂, hl, h0, hheld₂, hle.trans hlt.le⟩

theorem Ordered.not_deadlock (h : Ordered rank allowed s) : ¬ s.Deadlock := by
  rintro ⟨t, hw⟩
  obtain ⟨l, l', hl, h0, hheld, hle⟩ := waits_rank h hw
  have hlt := (h.threads t).above hl h0 l' hheld
  omega

theorem ordered_initial (store : σ) :
    Ordered rank allowed ({ store } : State T L α σ) :=
  ⟨fun _ _ => rfl, nofun⟩

variable [DecidableEq α] {programs : H → Program L α} {perform : α → σ → Option σ}

theorem Ordered.step (hp : ∀ i, Balanced rank allowed (fun _ => 0) (programs i))
    {i : Label T L α H} (h : Ordered rank allowed s) (ha : Allows allowed s i)
    (hs : step programs perform s i = some s') : Ordered rank allowed s' := by
  cases i with
  | go t => exact h.go ha hs
  | start t program way =>
    have ht := h.threads t
    dsimp only [Locks.step] at hs
    split at hs
    · next hth =>
      rw [hth] at ht
      split at hs
      · next hway =>
        cases hs
        have hheld : s.held t = fun _ => 0 := funext ht
        refine h.proceed_store (t := t) ?_ s.store
        rw [hheld]
        exact (hp program).orderly ((RegularExpression.rmatch_iff_matches' _ _).mp hway)
      · cases hs
    · cases hs

/-- With programs that are balanced, no run without an action that is not
allowed comes to a deadlock. -/
theorem not_deadlock (hp : ∀ i, Balanced rank allowed (fun _ => 0) (programs i)) {store : σ}
    {is : List (Label T L α H)}
    (ha : Run.Meets (step programs perform) (Allows allowed) { store } is)
    (h : Run.exec (step programs perform) { store } is = some s) : ¬ s.Deadlock :=
  (Run.exec_invariant (fun h ha hs => Ordered.step hp h ha hs) (ordered_initial store) ha h).not_deadlock

end

end Debugpy.Locks
