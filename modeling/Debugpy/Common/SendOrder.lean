import Debugpy.Common.Messages
import Debugpy.Lib.Run

/-!
# Sequence numbers

`_send_message` draws its number in one critical section and writes the
message in another, so that numbers drawn by different threads can be written
in any order. They are written in order, as `increasing_of_inOrder` says, if
nothing is written while a smaller number is drawn and not yet written. A
thread that sends from `on_before_send` overtakes itself.
-/

namespace Debugpy.SendOrder

/-- A `with` statement of a thread: one of a caller that holds the channel, or
a call of `_send_message`, by how far it has got. -/
inductive Frame where
  | holding
  | called (message : Items)
  | allocating (message : Items)
  | allocated (seq : Nat) (message : Items)
  /-- The first critical section is over. -/
  | numbered (seq : Nat) (message : Items)
  /-- The body of the caller's `with` statement, in the second one. -/
  | sending (seq : Nat) (message : Items)
  | sent

/-- The number that is drawn and not yet written. -/
def Frame.seq? : Frame → Option Nat
  | .allocated seq _ | .numbered seq _ | .sending seq _ => some seq
  | .holding | .called _ | .allocating _ | .sent => none

structure State where
  /-- The thread that holds the lock, and how often. -/
  owner : Option (Nat × Nat) := none
  nextSeq : Nat := 1
  /-- The innermost frame comes first. -/
  frames : Nat → List Frame := fun _ => []
  /-- What `write_json` has been called with. -/
  wire : List Items := []

inductive Label where
  | hold
  | unhold
  | call (message : Items)
  | lock
  | draw
  | unlock
  | lockAgain
  | write
  /-- `on_before_send` or `write_json` raises an exception. -/
  | fail
  | leave

def State.acquire (s : State) (t : Nat) : Option State :=
  match s.owner with
  | none => some { s with owner := some (t, 1) }
  | some (t', depth) => if t' = t then some { s with owner := some (t, depth + 1) } else none

def State.release (s : State) (t : Nat) : Option State :=
  match s.owner with
  | some (t', depth + 1) =>
    if t' = t then some { s with owner := if depth = 0 then none else some (t, depth) } else none
  | _ => none

def State.setStack (s : State) (t : Nat) (stack : List Frame) : State :=
  { s with frames := Function.update s.frames t stack }

/-- Where a thread can send: on its own, while it holds the channel, and in
`on_before_send`. -/
def canCall : List Frame → Bool
  | [] | .holding :: _ | .sending .. :: _ => true
  | _ => false

def step (s : State) (l : Nat × Label) : Option State :=
  let t := l.1
  match l.2, s.frames t with
  | .hold, stack =>
    if canCall stack then (s.setStack t (.holding :: stack)).acquire t else none
  | .unhold, .holding :: stack => (s.setStack t stack).release t
  | .call message, stack =>
    if canCall stack then some (s.setStack t (.called message :: stack)) else none
  | .lock, .called message :: stack => (s.setStack t (.allocating message :: stack)).acquire t
  | .draw, .allocating message :: stack => some
      { s.setStack t (.allocated s.nextSeq message :: stack) with nextSeq := s.nextSeq + 1 }
  | .unlock, .allocated seq message :: stack =>
    (s.setStack t (.numbered seq message :: stack)).release t
  | .lockAgain, .numbered seq message :: stack =>
    (s.setStack t (.sending seq message :: stack)).acquire t
  | .write, .sending seq message :: stack => some
      { s.setStack t (.sent :: stack) with wire := s.wire ++ [numberedDict seq message] }
  | .fail, .sending _ _ :: stack => some (s.setStack t (.sent :: stack))
  | .leave, .sent :: stack => (s.setStack t stack).release t
  | _, _ => none

def seqOf (message : Items) : Int := asInt (Json.get? message "seq")

/-- The seqs on the wire. -/
def State.seqs (s : State) : List Int := s.wire.map seqOf

def State.drawn (s : State) (t : Nat) : List Nat := (s.frames t).filterMap Frame.seq?

/-- The condition on a step: a message is written only if no smaller number is
drawn and not yet written. -/
def InOrder (s : State) (l : Nat × Label) : Prop :=
  l.2 = .write → ∀ seq message stack, s.frames l.1 = .sending seq message :: stack →
    ∀ t, ∀ n ∈ s.drawn t, seq ≤ n

-- ---------------------------------------------------------------------------
-- What a step does
-- ---------------------------------------------------------------------------

inductive Effect (s s' : State) (t : Nat) : Label → Prop
  | same : s'.wire = s.wire → s'.nextSeq = s.nextSeq → s'.drawn = s.drawn → Effect s s' t l
  | draws : s'.wire = s.wire → s'.nextSeq = s.nextSeq + 1 →
      s'.drawn = Function.update s.drawn t (s.nextSeq :: s.drawn t) → Effect s s' t .draw
  | drops (seq : Nat) (rest : List Nat) : s'.wire = s.wire → s'.nextSeq = s.nextSeq →
      s.drawn t = seq :: rest → s'.drawn = Function.update s.drawn t rest → Effect s s' t .fail
  | writes (seq : Nat) (message : Items) (stack : List Frame) :
      s.frames t = .sending seq message :: stack →
      s'.wire = s.wire ++ [numberedDict seq message] → s'.nextSeq = s.nextSeq →
      s'.drawn = Function.update s.drawn t (stack.filterMap Frame.seq?) → Effect s s' t .write

theorem acquire_eq (h : State.acquire s t = some s') :
    s'.wire = s.wire ∧ s'.nextSeq = s.nextSeq ∧ s'.frames = s.frames := by
  unfold State.acquire at h
  split at h
  · cases h
    exact ⟨rfl, rfl, rfl⟩
  · split at h <;> cases h
    exact ⟨rfl, rfl, rfl⟩

theorem release_eq (h : State.release s t = some s') :
    s'.wire = s.wire ∧ s'.nextSeq = s.nextSeq ∧ s'.frames = s.frames := by
  unfold State.release at h
  split at h
  · split at h <;> cases h
    exact ⟨rfl, rfl, rfl⟩
  · cases h

theorem drawn_setStack (s : State) (t : Nat) (stack : List Frame) :
    (s.setStack t stack).drawn = Function.update s.drawn t (stack.filterMap Frame.seq?) := by
  funext t'
  by_cases ht : t' = t
  · subst ht
    simp [State.drawn, State.setStack]
  · simp [State.drawn, State.setStack, ht]

theorem Effect.of_stack (hw : s'.wire = s.wire) (hn : s'.nextSeq = s.nextSeq)
    (hs : s'.frames = (s.setStack t stack).frames)
    (hd : stack.filterMap Frame.seq? = s.drawn t) : Effect s s' t l := by
  refine .same hw hn ?_
  have hdrawn : s'.drawn = (s.setStack t stack).drawn := by
    funext t'
    simp only [State.drawn, hs]
  rw [hdrawn, drawn_setStack, hd, Function.update_eq_self]

theorem step_effect (h : step s (t, l) = some s') : Effect s s' t l := by
  simp only [step] at h
  split at h
  · split at h
    · obtain ⟨hw, hn, hs⟩ := acquire_eq h
      exact .of_stack hw hn hs (by simp [Frame.seq?, State.drawn, List.filterMap_cons])
    · cases h
  · rename_i stack hstack
    obtain ⟨hw, hn, hs⟩ := release_eq h
    exact .of_stack hw hn hs (by simp [Frame.seq?, State.drawn, hstack, List.filterMap_cons])
  · split at h <;> cases h
    exact .of_stack rfl rfl rfl (by simp [Frame.seq?, State.drawn, List.filterMap_cons])
  · rename_i message stack hstack
    obtain ⟨hw, hn, hs⟩ := acquire_eq h
    exact .of_stack hw hn hs (by simp [Frame.seq?, State.drawn, hstack, List.filterMap_cons])
  · rename_i message stack hstack
    cases h
    refine .draws rfl rfl ?_
    have hdrawn : s.drawn t = stack.filterMap Frame.seq? := by
      simp [State.drawn, hstack, Frame.seq?, List.filterMap_cons]
    rw [hdrawn]
    exact drawn_setStack s t _
  · rename_i seq message stack hstack
    obtain ⟨hw, hn, hs⟩ := release_eq h
    exact .of_stack hw hn hs (by simp [Frame.seq?, State.drawn, hstack])
  · rename_i seq message stack hstack
    obtain ⟨hw, hn, hs⟩ := acquire_eq h
    exact .of_stack hw hn hs (by simp [Frame.seq?, State.drawn, hstack])
  · rename_i seq message stack hstack
    cases h
    exact .writes seq message stack hstack rfl rfl (drawn_setStack s t _)
  · rename_i seq message stack hstack
    cases h
    exact .drops seq (stack.filterMap Frame.seq?) rfl rfl
      (by simp [State.drawn, hstack, Frame.seq?]) (drawn_setStack s t _)
  · rename_i stack hstack
    obtain ⟨hw, hn, hs⟩ := release_eq h
    exact .of_stack hw hn hs (by simp [Frame.seq?, State.drawn, hstack, List.filterMap_cons])
  · cases h

-- ---------------------------------------------------------------------------
-- Runs
-- ---------------------------------------------------------------------------

structure Numbered (s : State) : Prop where
  distinct : s.seqs.Nodup
  below : ∀ n ∈ s.seqs, n < s.nextSeq
  drawnBelow : ∀ t, ∀ p ∈ s.drawn t, p < s.nextSeq
  unwritten : ∀ t, ∀ p ∈ s.drawn t, (p : Int) ∉ s.seqs
  nodup : ∀ t, (s.drawn t).Nodup
  apart : ∀ t t', t ≠ t' → ∀ p ∈ s.drawn t, p ∉ s.drawn t'

/-- What is written is in order, and smaller than what is still to be written. -/
structure Ordered (s : State) : Prop where
  increasing : s.seqs.Pairwise (· < ·)
  above : ∀ t, ∀ p ∈ s.drawn t, ∀ n ∈ s.seqs, n < p

section
variable {s s' : State}

theorem seqs_of_wire (h : s'.wire = s.wire) : s'.seqs = s.seqs := by
  rw [State.seqs, h]
  rfl

theorem seqs_of_write (h : s'.wire = s.wire ++ [numberedDict seq message]) :
    s'.seqs = s.seqs ++ [(seq : Int)] := by
  rw [State.seqs, h, List.map_append]
  simp [State.seqs, seqOf, asInt]

/-- The numbers are as they were but for those of one thread, which has lost
one of them. -/
theorem Numbered.drop (hi : Numbered s) (ht : s.drawn t = seq :: rest)
    (hd : s'.drawn = Function.update s.drawn t rest) (hn : s'.nextSeq = s.nextSeq)
    (hdistinct : s'.seqs.Nodup) (hseqs : ∀ n ∈ s'.seqs, n ∈ s.seqs ∨ n = seq) : Numbered s' := by
  have hsub : ∀ t', ∀ p ∈ s'.drawn t', p ∈ s.drawn t' ∧ p ≠ seq := by
    intro t' p hp
    rw [hd] at hp
    by_cases htt : t' = t
    · subst htt
      rw [Function.update_self] at hp
      have hne := (List.nodup_cons.mp (ht ▸ hi.nodup t')).1
      exact ⟨ht ▸ List.mem_cons_of_mem _ hp, fun he => hne (he ▸ hp)⟩
    · rw [Function.update_of_ne htt] at hp
      exact ⟨hp, fun he => hi.apart t' t htt p hp (by rw [ht, he]; exact List.mem_cons_self)⟩
  have hseq : seq ∈ s.drawn t := by rw [ht]; exact List.mem_cons_self
  constructor
  · exact hdistinct
  · intro n hmem
    rw [hn]
    rcases hseqs n hmem with hold | rfl
    · exact hi.below n hold
    · exact_mod_cast hi.drawnBelow t seq hseq
  · intro t' p hp
    rw [hn]
    exact hi.drawnBelow t' p (hsub t' p hp).1
  · intro t' p hp hmem
    rcases hseqs _ hmem with hold | heq
    · exact hi.unwritten t' p (hsub t' p hp).1 hold
    · exact (hsub t' p hp).2 (by exact_mod_cast heq)
  · intro t'
    rw [hd]
    by_cases htt : t' = t
    · subst htt
      rw [Function.update_self]
      exact (List.nodup_cons.mp (ht ▸ hi.nodup t')).2
    · rw [Function.update_of_ne htt]
      exact hi.nodup t'
  · intro t₁ t₂ hne p hp hp'
    exact hi.apart t₁ t₂ hne p (hsub t₁ p hp).1 (hsub t₂ p hp').1

theorem drawn_of_writes {stack : List Frame} (h : s.frames t = .sending seq message :: stack) :
    s.drawn t = seq :: stack.filterMap Frame.seq? := by
  simp [State.drawn, h, Frame.seq?]

theorem numbered_step (hi : Numbered s) (h : step s (t, l) = some s') : Numbered s' := by
  cases step_effect h with
  | same hw hn hd =>
    have hs := seqs_of_wire hw
    exact ⟨hs ▸ hi.distinct, by rw [hs, hn]; exact hi.below, by rw [hd, hn]; exact hi.drawnBelow,
      by rw [hd, hs]; exact hi.unwritten, by rw [hd]; exact hi.nodup, by rw [hd]; exact hi.apart⟩
  | draws hw hn hd =>
    have hs := seqs_of_wire hw
    have hmem : ∀ t', ∀ p ∈ s'.drawn t', p ∈ s.drawn t' ∨ t' = t ∧ p = s.nextSeq := by
      intro t' p hp
      rw [hd] at hp
      by_cases htt : t' = t
      · subst htt
        rw [Function.update_self] at hp
        exact (List.mem_cons.mp hp).symm.imp_right fun he => ⟨rfl, he⟩
      · rw [Function.update_of_ne htt] at hp
        exact .inl hp
    constructor
    · exact hs ▸ hi.distinct
    · intro n hn'
      rw [hs] at hn'
      have := hi.below n hn'
      rw [hn]
      push_cast
      omega
    · intro t' p hp
      rw [hn]
      rcases hmem t' p hp with hold | ⟨-, rfl⟩
      · exact (hi.drawnBelow t' p hold).trans (Nat.lt_succ_self _)
      · exact Nat.lt_succ_self _
    · intro t' p hp hw'
      rw [hs] at hw'
      rcases hmem t' p hp with hold | ⟨-, rfl⟩
      · exact hi.unwritten t' p hold hw'
      · exact absurd (hi.below _ hw') (lt_irrefl _)
    · intro t'
      rw [hd]
      by_cases htt : t' = t
      · subst htt
        rw [Function.update_self]
        exact List.nodup_cons.mpr
          ⟨fun hp => absurd (hi.drawnBelow t' _ hp) (lt_irrefl _), hi.nodup t'⟩
      · rw [Function.update_of_ne htt]
        exact hi.nodup t'
    · intro t₁ t₂ hne p hp hp'
      rcases hmem t₁ p hp with h₁ | ⟨he₁, hp₁⟩
      · rcases hmem t₂ p hp' with h₂ | ⟨-, hp₂⟩
        · exact hi.apart t₁ t₂ hne p h₁ h₂
        · exact absurd (hp₂ ▸ hi.drawnBelow t₁ p h₁) (lt_irrefl _)
      · rcases hmem t₂ p hp' with h₂ | ⟨he₂, -⟩
        · exact absurd (hp₁ ▸ hi.drawnBelow t₂ p h₂) (lt_irrefl _)
        · exact hne (he₁.trans he₂.symm)
  | drops seq rest hw hn ht hd =>
    have hs := seqs_of_wire hw
    exact hi.drop ht hd hn (hs ▸ hi.distinct) fun n hmem => .inl (hs ▸ hmem)
  | writes seq message stack hstack hw hn hd =>
    have hs := seqs_of_write hw
    have ht := drawn_of_writes hstack
    have hseq : seq ∈ s.drawn t := by rw [ht]; exact List.mem_cons_self
    refine hi.drop ht hd hn ?_ fun n hmem => ?_
    · rw [hs]
      refine List.nodup_append.mpr ⟨hi.distinct, List.pairwise_singleton _ _, fun n hn m hm => ?_⟩
      rw [List.mem_singleton.mp hm]
      exact fun he => hi.unwritten t seq hseq (he ▸ hn)
    · rw [hs] at hmem
      exact (List.mem_append.mp hmem).imp_right List.mem_singleton.mp

theorem ordered_step (hn : Numbered s) (ho : Ordered s) (hq : InOrder s (t, l))
    (h : step s (t, l) = some s') : Ordered s' := by
  have hn' := numbered_step hn h
  cases step_effect h with
  | same hw _ hd =>
    have hs := seqs_of_wire hw
    exact ⟨hs ▸ ho.increasing, by rw [hs, hd]; exact ho.above⟩
  | draws hw hnext hd =>
    have hs := seqs_of_wire hw
    refine ⟨hs ▸ ho.increasing, fun t' p hp n hmem => ?_⟩
    rw [hs] at hmem
    rw [hd] at hp
    by_cases htt : t' = t
    · subst htt
      rw [Function.update_self] at hp
      rcases List.mem_cons.mp hp with rfl | hold
      · exact hn.below n hmem
      · exact ho.above t' p hold n hmem
    · rw [Function.update_of_ne htt] at hp
      exact ho.above t' p hp n hmem
  | drops seq rest hw _ ht hd =>
    have hs := seqs_of_wire hw
    refine ⟨hs ▸ ho.increasing, fun t' p hp n hmem => ?_⟩
    rw [hs] at hmem
    rw [hd] at hp
    by_cases htt : t' = t
    · subst htt
      rw [Function.update_self] at hp
      exact ho.above t' p (ht ▸ List.mem_cons_of_mem _ hp) n hmem
    · rw [Function.update_of_ne htt] at hp
      exact ho.above t' p hp n hmem
  | writes seq message stack hstack hw _ hd =>
    have hs := seqs_of_write hw
    have ht := drawn_of_writes hstack
    have hseq : seq ∈ s.drawn t := by rw [ht]; exact List.mem_cons_self
    have hsmallest := hq rfl seq message stack hstack
    constructor
    · rw [hs]
      refine List.pairwise_append.mpr ⟨ho.increasing, List.pairwise_singleton _ _, ?_⟩
      intro n hmem m hm
      rw [List.mem_singleton.mp hm]
      exact ho.above t seq hseq n hmem
    · intro t' p hp n hmem
      have hold : p ∈ s.drawn t' := by
        rw [hd] at hp
        by_cases htt : t' = t
        · subst htt
          rw [Function.update_self] at hp
          exact ht ▸ List.mem_cons_of_mem _ hp
        · rwa [Function.update_of_ne htt] at hp
      rw [hs] at hmem
      rcases List.mem_append.mp hmem with hw' | hnew
      · exact ho.above t' p hold n hw'
      · rw [List.mem_singleton.mp hnew]
        have hle := hsmallest t' p hold
        have hne : p ≠ seq := fun he => hn'.unwritten t' p hp (by rw [hs, he]; simp)
        exact_mod_cast lt_of_le_of_ne hle (Ne.symm hne)

end

theorem numbered_init : Numbered {} :=
  ⟨.nil, nofun, fun _ _ h => (nomatch h), fun _ _ h => (nomatch h), fun _ => .nil,
    fun _ _ _ _ h => (nomatch h)⟩

theorem distinct_of_run (h : Run.exec step {} labels = some s) : s.seqs.Nodup :=
  (Run.exec_invariant (fun hi (_ : True) h => numbered_step hi h) numbered_init
    Run.meets_true h).distinct

/-- In every run in which nothing is written while a smaller number is drawn
and not yet written, the seqs are written in order. -/
theorem increasing_of_inOrder (labels : List (Nat × Label)) (s : State)
    (horder : Run.Meets step InOrder {} labels) (hrun : Run.exec step {} labels = some s) :
    s.seqs.Nodup ∧ s.seqs.Pairwise (· < ·) := by
  have hinit : Numbered {} ∧ Ordered {} := ⟨numbered_init, .nil, fun _ _ h => (nomatch h)⟩
  have hkeep := Run.exec_invariant (I := fun s => Numbered s ∧ Ordered s)
    (fun hI hq hstep => ⟨numbered_step hI.1 hstep, ordered_step hI.1 hI.2 hq hstep⟩)
    hinit horder hrun
  exact ⟨hkeep.1.distinct, hkeep.2.increasing⟩

/-- A thread sends an event, as far as the number and as the write. -/
def numberEvent (t : Nat) (event : String) : List (Nat × Label) :=
  [(t, .call (eventDict event .null)), (t, .lock), (t, .draw), (t, .unlock)]

def writeEvent (t : Nat) : List (Nat × Label) := [(t, .lockAgain), (t, .write), (t, .leave)]

/-- Two threads draw their numbers before either of them writes. -/
def numberBoth : List (Nat × Label) := numberEvent 1 "output" ++ numberEvent 2 "thread"

theorem inOrder_numberBoth : Run.Meets step InOrder {} numberBoth := by
  refine Run.meets_of_forall fun i hi s hwrite => ?_
  simp only [numberBoth, numberEvent, List.cons_append, List.nil_append, List.mem_cons,
    List.not_mem_nil, or_false] at hi
  rcases hi with rfl | rfl | rfl | rfl | rfl | rfl | rfl | rfl <;> cases hwrite

theorem inOrder_writeEvent :
    Run.Meets step InOrder {} (numberBoth ++ (writeEvent 1 ++ writeEvent 2)) := by
  refine inOrder_numberBoth.append fun s hs => ?_
  cases hs
  refine ⟨nofun, fun s h => ?_⟩
  cases h
  refine ⟨fun _ seq message stack hstack t n hn => ?_, fun s h => ?_⟩
  · cases hstack
    by_cases h1 : t = 1
    · subst h1
      exact (List.mem_singleton.mp hn).ge
    · by_cases h2 : t = 2
      · subst h2
        exact (List.mem_singleton.mp hn).ge.trans' (by decide)
      · simp [State.drawn, State.setStack, h1, h2] at hn
  cases h
  refine ⟨nofun, fun s h => ?_⟩
  cases h
  refine ⟨nofun, fun s h => ?_⟩
  cases h
  refine ⟨fun _ seq message stack hstack t n hn => ?_, fun s h => ?_⟩
  · cases hstack
    by_cases h2 : t = 2
    · subst h2
      exact (List.mem_singleton.mp hn).ge
    · by_cases h1 : t = 1
      · subst h1
        cases hn
      · simp [State.drawn, State.setStack, h1, h2] at hn
  · cases h
    exact ⟨nofun, fun s h => trivial⟩

theorem increasing_writeEvent : ∃ s,
    Run.exec step {} (numberBoth ++ (writeEvent 1 ++ writeEvent 2)) = some s ∧
      s.seqs = [1, 2] ∧ s.seqs.Nodup ∧ s.seqs.Pairwise (· < ·) :=
  ⟨_, rfl, rfl, increasing_of_inOrder _ _ inOrder_writeEvent rfl⟩

/-- The second thread overtakes the first between its two critical sections. -/
theorem not_increasing :
    ¬ ∀ labels s, Run.exec step {} labels = some s → s.seqs.Nodup ∧ s.seqs.Pairwise (· < ·) := by
  intro h
  have hrun := (h (numberEvent 1 "output" ++ numberEvent 2 "thread" ++ writeEvent 2 ++ writeEvent 1)
    _ rfl).2
  simp [State.seqs, seqOf, asInt, State.setStack] at hrun

end Debugpy.SendOrder
