import Debugpy.Adapter.Connections
import Debugpy.Lib.Fuel
import Debugpy.Lib.Sweep

/-!
# Killing the remaining debuggees

The loop at the end of `Session._finalize`. The other threads go on with the
registry of server connections meanwhile; what they do ahead of each call of
`servers.connections()` is given. The loop is a sweep over what it returns.
-/

namespace Debugpy.KillLoop

open Fuel
open Connections (State Label)
open ServerRegistry (ConnId)

/-- The registry as the loop meets it. -/
structure World where
  start : State
  /-- The steps ahead of call `n` of `connections()` since the one before. -/
  changes : Nat → List Label
  /-- `self.launcher.pid`, if there is a launcher. -/
  launcherPid : Option Int
  /-- Whether a call of `os.kill` raises, by the number of calls before it. -/
  killFails : Nat → Bool

namespace World

/-- A step that is not enabled is not taken. -/
def apply (st : State) (l : Label) : State := (Connections.step st l).getD st

/-- The registry at call `n` of `connections()`. -/
def stateAt (w : World) : Nat → State
  | 0 => (w.changes 0).foldl apply w.start
  | n + 1 => (w.changes (n + 1)).foldl apply (w.stateAt n)

/-- `conn.pid` for what call `n` of `connections()` returns. -/
def pids (w : World) (n : Nat) : List (Option Int) :=
  (w.stateAt n).registry.connections.map (w.stateAt n).pid

end World

/-- `pids_killed`, and the calls made so far. -/
structure Progress where
  snapshots : Nat := 0
  pidsKilled : List (Option Int)
  /-- The arguments of `os.kill`, in order. -/
  attempts : List (Option Int) := []
  /-- Those of the calls that raised, which are logged. -/
  failed : List (Option Int) := []
  deriving DecidableEq, Repr

/-- The body of the inner loop, with `conn.pid`. -/
def kill (w : World) (p : Progress) (pid : Option Int) : Progress where
  snapshots := p.snapshots
  attempts := p.attempts ++ [pid]
  failed := if w.killFails p.attempts.length then p.failed ++ [pid] else p.failed
  pidsKilled := p.pidsKilled ++ [pid]

def turn (w : World) (p : Progress) : Comp (Progress ⊕ Progress) :=
  let conns := (w.pids p.snapshots).filter (· ∉ p.pidsKilled)
  let p := { p with snapshots := p.snapshots + 1 }
  if conns = [] then pure (.inr p) else pure (.inl (conns.foldl (kill w) p))

def initial (w : World) : Progress := { pidsKilled := w.launcherPid.toList.map some }

def killRemaining (w : World) : Comp Progress := loop (turn w) (initial w)

-- ---------------------------------------------------------------------------
-- The sweep
-- ---------------------------------------------------------------------------

def World.IsLauncher (w : World) (pid : Option Int) : Prop := pid.isSome ∧ w.launcherPid = pid

instance (w : World) : DecidablePred w.IsLauncher := fun _ => inferInstanceAs (Decidable (_ ∧ _))

theorem mem_initial : pid ∈ (initial w).pidsKilled ↔ w.IsLauncher pid := by
  cases h : w.launcherPid <;> cases pid <;> simp [initial, World.IsLauncher, h, eq_comm]

/-- The process IDs that snapshot `n` is the first to show. -/
abbrev World.fresh (w : World) (n : Nat) : List (Option Int) := Sweep.fresh w.IsLauncher w.pids n

abbrev World.handled (w : World) (n : Nat) : List (Option Int) :=
  Sweep.handled w.IsLauncher w.pids n

structure After (w : World) (n : Nat) (p : Progress) : Prop where
  snapshots : p.snapshots = n
  attempts : p.attempts = w.handled n
  pidsKilled : ∀ pid, pid ∈ p.pidsKilled ↔ w.IsLauncher pid ∨ pid ∈ w.handled n

theorem foldl_kill (w : World) (pids : List (Option Int)) (p : Progress) :
    (pids.foldl (kill w) p).snapshots = p.snapshots ∧
      (pids.foldl (kill w) p).attempts = p.attempts ++ pids ∧
      (pids.foldl (kill w) p).pidsKilled = p.pidsKilled ++ pids := by
  induction pids generalizing p with
  | nil => simp
  | cons pid pids ih =>
    obtain ⟨hsnapshots, hattempts, hkilled⟩ := ih (kill w p pid)
    rw [List.foldl_cons, hsnapshots, hattempts, hkilled]
    exact ⟨rfl, List.append_assoc .., List.append_assoc ..⟩

theorem after_initial (w : World) : After w 0 (initial w) where
  snapshots := rfl
  attempts := rfl
  pidsKilled pid := by simp [mem_initial, World.handled, Sweep.handled]

theorem After.filter (h : After w n p) : (w.pids n).filter (· ∉ p.pidsKilled) = w.fresh n :=
  (List.filter_congr fun _ _ => by congr).trans (Sweep.filter_eq_fresh h.pidsKilled)

theorem After.turn_eq (h : After w n p) : turn w p =
    if w.fresh n = [] then pure (.inr { p with snapshots := n + 1 })
    else pure (.inl ((w.fresh n).foldl (kill w) { p with snapshots := n + 1 })) := by
  simp only [turn, h.snapshots, h.filter]

theorem After.next (h : After w n p) (hfresh : w.fresh n ≠ []) :
    ∃ p', Returns (turn w p) (.inl p') ∧ After w (n + 1) p' := by
  obtain ⟨hsnapshots, hattempts, hkilled⟩ :=
    foldl_kill w (w.fresh n) { p with snapshots := n + 1 }
  refine ⟨(w.fresh n).foldl (kill w) { p with snapshots := n + 1 }, ?_, hsnapshots, ?_, ?_⟩
  · rw [h.turn_eq, if_neg hfresh, returns_pure]
  · rw [hattempts, h.attempts, World.handled, World.handled, Sweep.handled_succ]
  · intro pid
    rw [hkilled, List.mem_append, h.pidsKilled, World.handled, World.handled, Sweep.handled_succ,
      List.mem_append, or_assoc]

theorem After.last (h : After w n p) (hfresh : w.fresh n = []) :
    Returns (turn w p) (.inr { p with snapshots := n + 1 }) := by
  rw [h.turn_eq, if_pos hfresh, returns_pure]

theorem returns_killRemaining (w : World) (hlast : w.fresh n = [])
    (hbefore : ∀ m < n, w.fresh m ≠ []) :
    ∃ p, Returns (killRemaining w) p ∧ p.snapshots = n + 1 ∧ p.attempts = w.handled n := by
  have hfrom : ∀ k ≤ n, ∀ p, After w k p →
      ∃ p', Returns (loop (turn w) p) p' ∧ p'.snapshots = n + 1 ∧ p'.attempts = w.handled n := by
    intro k hk
    induction hk using Nat.decreasingInduction with
    | self => exact fun p h => ⟨_, loop_exit (h.last hlast), rfl, h.attempts⟩
    | of_succ k hk ih =>
      intro p h
      obtain ⟨p₁, hturn, h₁⟩ := h.next (hbefore k hk)
      obtain ⟨p', hret, hp'⟩ := ih p₁ h₁
      exact ⟨p', loop_next hturn hret, hp'⟩
  exact hfrom 0 (Nat.zero_le n) _ (after_initial w)

-- ---------------------------------------------------------------------------
-- Finitely many additions
-- ---------------------------------------------------------------------------

/-- A step of `Connection.__init__`. -/
def Constructs : Label → Prop
  | .accept _ | .identify .. | .register _ | .fail _ => True
  | .exitedEvent _ | .registry _ => False

/-- The listener is closed: from some snapshot on, no connection is made. -/
def World.Settles (w : World) : Prop := ∃ m, ∀ n > m, ∀ l ∈ w.changes n, ¬ Constructs l

def Shrinks (st st' : State) : Prop :=
  st'.pid = st.pid ∧ st'.registry.connections ⊆ st.registry.connections

theorem connections_registryStep {r r' : ServerRegistry.State} (hl : ∀ c, l ≠ .register c)
    (h : ServerRegistry.step r l = some r') : r'.connections ⊆ r.connections := by
  cases l <;> simp only [ServerRegistry.step, ServerRegistry.detachFromSession] at h <;>
    repeat' split at h
  all_goals cases h
  all_goals first
    | exact List.Subset.refl _
    | exact List.erase_subset
    | exact absurd rfl (hl _)

theorem shrinks_registryStep {l : ServerRegistry.Label} (hl : ∀ c, l ≠ .register c)
    (h : Connections.registryStep st l = some st') : Shrinks st st' := by
  obtain ⟨r, hr, rfl⟩ := Option.map_eq_some_iff.mp h
  exact ⟨rfl, connections_registryStep hl hr⟩

theorem shrinks_step (hl : ¬ Constructs l) (h : Connections.step st l = some st') :
    Shrinks st st' := by
  simp only [Connections.step] at h
  split at h
  · cases h
  cases l with
  | exitedEvent c =>
    dsimp only at h
    split at h <;> cases h
    exact ⟨rfl, List.Subset.refl _⟩
  | registry l =>
    cases l with
    | register => cases h
    | pick =>
      dsimp only at h
      split at h
      · cases h
      · exact shrinks_registryStep (by simp) h
    | _ => exact shrinks_registryStep (by simp) h
  | _ => exact absurd trivial hl

theorem shrinks_apply (hl : ¬ Constructs l) : Shrinks st (World.apply st l) := by
  unfold World.apply
  cases h : Connections.step st l with
  | none => exact ⟨rfl, List.Subset.refl _⟩
  | some st' => exact shrinks_step hl h

theorem shrinks_foldl {ls : List Label} (hls : ∀ l ∈ ls, ¬ Constructs l) :
    Shrinks st (ls.foldl World.apply st) := by
  induction ls generalizing st with
  | nil => exact ⟨rfl, List.Subset.refl _⟩
  | cons l ls ih =>
    obtain ⟨hl, hls⟩ := List.forall_mem_cons.mp hls
    obtain ⟨hpid, hsub⟩ : Shrinks (World.apply st l) _ := ih hls
    obtain ⟨hpid', hsub'⟩ : Shrinks st (World.apply st l) := shrinks_apply hl
    exact ⟨hpid.trans hpid', fun _ hc => hsub' (hsub hc)⟩

variable {w : World}

theorem shrinks_stateAt (hm : ∀ n > m, ∀ l ∈ w.changes n, ¬ Constructs l) (hle : m ≤ n) :
    Shrinks (w.stateAt m) (w.stateAt n) := by
  induction hle with
  | refl => exact ⟨rfl, List.Subset.refl _⟩
  | @step n hle ih =>
    obtain ⟨hpid, hsub⟩ : Shrinks (w.stateAt n) (w.stateAt (n + 1)) :=
      shrinks_foldl (hm (n + 1) (Nat.lt_succ_of_le hle))
    exact ⟨hpid.trans ih.1, fun _ hc => ih.2 (hsub hc)⟩

theorem World.Settles.bound (h : w.Settles) : ∃ bound : List (Option Int), ∀ n, ∀ pid ∈ w.pids n,
    pid ∈ bound := by
  obtain ⟨m, hm⟩ := h
  refine ⟨(List.range (m + 1)).flatMap w.pids, fun n pid hpid => List.mem_flatMap.mpr ?_⟩
  rcases Nat.lt_or_ge n (m + 1) with hn | hn
  · exact ⟨n, List.mem_range.mpr hn, hpid⟩
  · obtain ⟨hpids, hsub⟩ := shrinks_stateAt hm (Nat.le_of_succ_le hn)
    refine ⟨m, List.mem_range.mpr (Nat.lt_succ_self m), ?_⟩
    rw [World.pids, hpids] at hpid
    obtain ⟨c, hc, rfl⟩ := List.mem_map.mp hpid
    exact List.mem_map.mpr ⟨c, hsub hc, rfl⟩

-- ---------------------------------------------------------------------------
-- What the loop has done when it ends
-- ---------------------------------------------------------------------------

/-- The loop ends; it has tried once to kill each process that is connected in
some snapshot, in the last one too, and never the launcher's. -/
structure Cleaned (w : World) (p : Progress) : Prop where
  once : ∀ pid, p.attempts.count pid ≤ 1
  notLauncher : ∀ pid, w.launcherPid = some pid → some pid ∉ p.attempts
  all : ∀ n < p.snapshots, ∀ pid ∈ w.pids n, pid ∈ p.attempts ∨ w.IsLauncher pid

/-- Every snapshot that is taken shows a new process ID once. -/
def World.Distinct (w : World) : Prop := ∀ n, (∀ m < n, w.fresh m ≠ []) → (w.fresh n).Nodup

theorem exists_returns (h : w.Settles) : ∃ n p, Returns (killRemaining w) p ∧
    p.snapshots = n + 1 ∧ p.attempts = w.handled n ∧ w.fresh n = [] ∧ ∀ m < n, w.fresh m ≠ [] := by
  obtain ⟨bound, hbound⟩ := h.bound
  obtain ⟨n, hlast, hbefore⟩ : ∃ n, w.fresh n = [] ∧ ∀ m < n, w.fresh m ≠ [] :=
    Sweep.exists_last bound hbound
  obtain ⟨p, hret, hsnapshots, hattempts⟩ := returns_killRemaining w hlast hbefore
  exact ⟨n, p, hret, hsnapshots, hattempts, hlast, hbefore⟩

theorem Cleaned.distinct (hc : Cleaned w p) (h : w.Settles) (hret : Returns (killRemaining w) p) :
    w.Distinct := by
  obtain ⟨n, p', hret', -, hattempts, hlast, -⟩ := exists_returns h
  obtain rfl := hret.unique hret'
  have hnodup : (w.handled n).Nodup := hattempts ▸ List.nodup_iff_count_le_one.mpr hc.once
  intro m hm
  rcases Nat.lt_trichotomy m n with hlt | rfl | hlt
  · exact Sweep.nodup_handled.mp hnodup m hlt
  · rw [hlast]
    exact List.nodup_nil
  · exact absurd hlast (hm n hlt)

theorem World.Distinct.cleaned (hd : w.Distinct) (h : w.Settles) :
    ∃ p, Returns (killRemaining w) p ∧ Cleaned w p := by
  obtain ⟨n, p, hret, hsnapshots, hattempts, hlast, hbefore⟩ := exists_returns h
  have hnodup : (w.handled n).Nodup :=
    Sweep.nodup_handled.mpr fun m hm => hd m fun k hk => hbefore k (hk.trans hm)
  refine ⟨p, hret, List.nodup_iff_count_le_one.mp (hattempts ▸ hnodup), ?_, ?_⟩
  · intro pid hpid hmem
    rw [hattempts, World.handled, Sweep.mem_handled] at hmem
    exact hmem.1 ⟨rfl, hpid⟩
  · intro m hm pid hpid
    rw [hsnapshots] at hm
    rw [hattempts, World.handled, Sweep.mem_handled]
    by_cases hl : w.IsLauncher pid
    · exact .inr hl
    · rcases Nat.lt_succ_iff_lt_or_eq.mp hm with hm | rfl
      · exact .inl ⟨hl, m, hm, hpid⟩
      · -- The last snapshot has nothing new.
        by_contra hnew
        refine List.ne_nil_of_mem (Sweep.mem_fresh.mpr ⟨hpid, hl, fun k hk hk' => ?_⟩) hlast
        exact hnew (.inl ⟨hl, k, hk, hk'⟩)

/-- A snapshot can show a process ID twice: a process that was replaced keeps
it, and its connection may still be there beside that of the new one. -/
theorem cleaned_iff_distinct (w : World) (h : w.Settles) :
    (∃ p, Returns (killRemaining w) p ∧ Cleaned w p) ↔ w.Distinct :=
  ⟨fun ⟨_, hret, hc⟩ => hc.distinct h hret, fun hd => hd.cleaned h⟩

theorem distinct_of_not_replaced (w : World) (hstart : Connections.Inv w.start)
    (h : ∀ n, ∀ c ∈ (w.stateAt n).registry.connections,
      (w.stateAt n).processReplaced c = false) : w.Distinct := by
  have happly {st : State} {ls : List Label} (hi : Connections.Inv st) :
      Connections.Inv (ls.foldl World.apply st) := by
    induction ls generalizing st with
    | nil => exact hi
    | cons l ls ih =>
      refine ih ?_
      unfold World.apply
      cases hl : Connections.step st l with
      | none => exact hi
      | some st' => exact Connections.inv_step hi hl
  have hinv : ∀ n, Connections.Inv (w.stateAt n) := by
    intro n
    induction n with
    | zero => exact happly hstart
    | succ n ih => exact happly ih
  intro n _
  refine List.Nodup.filter _ (List.Nodup.map_on ?_ (hinv n).nodup)
  intro c hc c' hc' heq
  exact (hinv n).pid c hc c' hc' heq (h n c hc) (h n c' hc')

/-- A debuggee replaces itself while its first connection is still there, and
the launcher has reported the process ID 41. -/
def replacing : World where
  start := {}
  changes n := if n = 0 then
    [.accept ⟨1⟩, .identify ⟨1⟩ 42, .register ⟨1⟩, .exitedEvent ⟨1⟩,
      .accept ⟨2⟩, .identify ⟨2⟩ 42, .register ⟨2⟩] else []
  launcherPid := some 41
  killFails _ := false

theorem settles_replacing : replacing.Settles :=
  ⟨0, fun n hn l hl => by simp [replacing, Nat.ne_of_gt hn] at hl⟩

/-- SIGTERM is sent twice to the process. -/
theorem replacing_not_cleaned : replacing.Settles ∧
    ¬ ∃ p, Returns (killRemaining replacing) p ∧ Cleaned replacing p := by
  refine ⟨settles_replacing, ?_⟩
  rintro ⟨p, hret, hc⟩
  have hfresh : replacing.fresh 0 = [some 42, some 42] := by decide
  have hnodup := hc.distinct settles_replacing hret 0 (by simp)
  simp [hfresh] at hnodup

/-- The second connection with the process ID is refused, and `os.kill` fails. -/
def clashing : World where
  start := {}
  changes n := if n = 0 then
    [.accept ⟨1⟩, .identify ⟨1⟩ 42, .register ⟨1⟩, .accept ⟨2⟩, .identify ⟨2⟩ 42, .register ⟨2⟩,
      .accept ⟨3⟩, .identify ⟨3⟩ 41, .register ⟨3⟩] else []
  launcherPid := some 41
  killFails _ := true

theorem settles_clashing : clashing.Settles :=
  ⟨0, fun n hn l hl => by simp [clashing, Nat.ne_of_gt hn] at hl⟩

theorem stateAt_clashing (n : Nat) : clashing.stateAt n = clashing.stateAt 0 := by
  induction n with
  | zero => rfl
  | succ n ih => exact ih

theorem cleaned_clashing : ∃ p, Returns (killRemaining clashing) p ∧ Cleaned clashing p := by
  refine (cleaned_iff_distinct clashing settles_clashing).mpr ?_
  refine distinct_of_not_replaced clashing Connections.inv_init fun n c _ => ?_
  rw [stateAt_clashing]
  rfl

end Debugpy.KillLoop
