import Debugpy.Adapter.World

/-!
# Properties of a message

`MessageDict.__call__` for every second argument. What that argument means is
decided by its truth value first, so that a default that counts as false is no
default; and what is raised for an invalid value depends on whether its
message can be responded to. `behaves_iff` says when a call does as
documented.
-/

namespace Debugpy.Adapter

open Json (ClassInfo ofType)
open Proc (raise)

/-- The message that owns a dict. -/
inductive Owner where
  | request (r : Request)
  | event (e : Event)
  /-- A response to a request of the adapter. -/
  | response (uid : Uid)

def Owner.isntValid : Owner → String → Code Exn
  | .request r, reason => r.isntValid reason
  | .event e, reason => e.error true reason
  | .response uid, reason => return .messageHandling (← newUid) true reason (some (.made uid))

/-- The second argument. A callable comes with what it makes of a value in
place, as `array` and `object` do. -/
inductive Validating where
  | value (v : Json)
  | types (c : ClassInfo)
  | callable (f : Validator) (inPlace : Json → Json)

def Validating.validator (optional : Bool) : Validating → Validator
  | .value v => if v.truthy then Json.default v else fun x => .ok x
  | .types (.tuple []) => fun x => .ok x
  | .types c => ofType [c] optional
  | .callable f _ => f

/-- `message(key, validate, optional)`. -/
def Owner.call (owner : Owner) (d : Items) (key : String) (v : Validating) (optional : Bool) :
    Code Property :=
  callPayload owner.isntValid (.dict d) key (v.validator optional)

def changeValue (f : Json → Json) (key : String) : Items → Items
  | [] => []
  | (k, x) :: d => if k = key then (k, f x) :: d else (k, x) :: changeValue f key d

def Validating.dictAfter (v : Validating) (d : Items) (key : String) : Items :=
  match v with
  | .callable _ inPlace => changeValue inPlace key d
  | .value _ | .types _ => d

-- ---------------------------------------------------------------------------
-- The rule
-- ---------------------------------------------------------------------------

/-- What the second argument is documented to mean. -/
def Validating.meaning : Validating → Validator
  | .value (.bool false) => fun x => .ok x
  | .value d => Json.default d
  | .types c => ofType [c] false
  | .callable f _ => f

def Names (key : String) (e : Exn) : Prop :=
  ∃ uid reason cause, e = .messageHandling uid true reason cause ∧
    (Json.repr key).toList <+: reason.toList

def Validating.Preserves (v : Validating) (value : Property) : Prop :=
  match v with
  | .callable _ inPlace => ∀ x ∈ value, inPlace x = x
  | .value _ | .types _ => True

def Owner.responses (e : Exn) : Owner → List Sent
  | .request r => [.response r (.error e)]
  | .event _ | .response _ => []

/-- The call does what it is documented to do. -/
def Behaves (owner : Owner) (d : Items) (key : String) (v : Validating) (w : World) : Prop :=
  match v.meaning (Json.get? d key) with
  | .ok result => (owner.call d key v false).run w = (.ok result, w) ∧
      (v.Preserves (Json.get? d key) → v.dictAfter d key = d)
  | .error _ => ∃ e w', (owner.call d key v false).run w = (.error (.raised e), w') ∧ Names key e ∧
      w'.toClient = w.toClient ++ owner.responses e ∧ w'.toServer = w.toServer

/-- The second argument is taken for what it means: it is no default that
counts as false, or the value has its type. -/
def Validating.TakenAs (value : Property) : Validating → Prop
  | .value d => d.truthy = true ∨ d = .bool false ∨ ∃ x, value = some x ∧ x.sameType d
  | .types c => c ≠ .tuple []
  | .callable .. => True

def Owner.CanRespond (w : World) : Owner → Prop
  | .request r => w.responses r.id = none ∧ w.outlet.spent = false
  | .event _ | .response _ => True

def Owner.IsRequest : Owner → Prop
  | .request _ => True
  | .event _ | .response _ => False

/-- The condition on an exception of the validator. -/
def Reported (owner : Owner) (key : String) (w : World) (e : Exn) : Prop :=
  e.isTypeOrValueError ∧ owner.CanRespond w ∨ Names key e ∧ ¬ owner.IsRequest

-- ---------------------------------------------------------------------------
-- Taken for what it means
-- ---------------------------------------------------------------------------

section
variable {owner : Owner} {d : Items} {key : String} {v : Validating} {w : World} {value : Property}

theorem meaning_value {x : Json} (h : x ≠ .bool false) :
    (Validating.value x).meaning = Json.default x := by
  cases x with
  | bool b =>
    cases b with
    | false => exact absurd rfl h
    | true => rfl
  | _ => rfl

theorem validator_of_takenAs (h : v.TakenAs value) : v.validator false value = v.meaning value := by
  cases v with
  | callable f inPlace => rfl
  | types c =>
    cases c with
    | cls c => rfl
    | tuple cs =>
      cases cs with
      | nil => exact absurd rfl h
      | cons c cs => rfl
  | value d =>
    by_cases hd : d = .bool false
    · subst hd
      rfl
    · rw [meaning_value hd]
      rcases h with h | h | ⟨x, rfl, hx⟩
      · simp [Validating.validator, h]
      · exact absurd h hd
      · by_cases ht : d.truthy = true <;> simp [Validating.validator, ht, Json.default, hx]

theorem not_takenAs (h : ¬ v.TakenAs value) :
    v.validator false value = .ok value ∧ v.meaning value ≠ .ok value := by
  cases v with
  | callable f inPlace => exact absurd trivial h
  | types c =>
    simp only [Validating.TakenAs, ne_eq, not_not] at h
    subst h
    refine ⟨rfl, ?_⟩
    simp [Validating.meaning, ofType, ClassInfo.accepts, Json.converter]
  | value d =>
    simp only [Validating.TakenAs, not_or] at h
    obtain ⟨ht, hd, hvalue⟩ := h
    refine ⟨by simp [Validating.validator, ht], ?_⟩
    rw [meaning_value hd]
    cases value with
    | none => simp [Json.default]
    | some x =>
      have hx : ¬ x.sameType d = true := fun hx => hvalue ⟨x, rfl, hx⟩
      simp [Json.default, hx]

theorem changeValue_eq {f : Json → Json} (h : ∀ x ∈ Json.get? d key, f x = x) :
    changeValue f key d = d := by
  induction d with
  | nil => rfl
  | cons p d ih =>
    obtain ⟨k, x⟩ := p
    rw [Json.get?_cons] at h
    by_cases hk : k = key
    · simp only [if_pos hk] at h
      simp [changeValue, hk, h x rfl]
    · simp only [if_neg hk] at h
      simp [changeValue, hk, ih h]

theorem dictAfter_eq (h : v.Preserves (Json.get? d key)) : v.dictAfter d key = d := by
  cases v with
  | callable f inPlace => exact changeValue_eq h
  | value | types => rfl

-- ---------------------------------------------------------------------------
-- Calls
-- ---------------------------------------------------------------------------

theorem names_invalidText : Names key (.messageHandling uid true (invalidText key e) cause) := by
  refine ⟨uid, _, cause, rfl, ?_⟩
  rw [invalidText, String.toList_append]
  exact List.prefix_append ..

theorem call_ok (h : v.validator false (Json.get? d key) = .ok result) :
    (owner.call d key v false).run w = (.ok result, w) := by
  simp [Owner.call, callPayload, h]

theorem call_other (h : v.validator false (Json.get? d key) = .error e)
    (he : ¬ e.isTypeOrValueError = true) :
    (owner.call d key v false).run w = (.error (.raised e), w) := by
  simp [Owner.call, callPayload, h, he]

theorem call_reported (h : v.validator false (Json.get? d key) = .error e)
    (he : e.isTypeOrValueError) (hw : owner.CanRespond w) :
    ∃ e' w', (owner.call d key v false).run w = (.error (.raised e'), w') ∧ Names key e' ∧
      w'.toClient = w.toClient ++ owner.responses e' ∧ w'.toServer = w.toServer := by
  have hcall : (owner.call d key v false).run w =
      (owner.isntValid (invalidText key e) >>= fun e => raise e : Code Property).run w := by
    simp [Owner.call, callPayload, h, he]
  rw [hcall, Proc.run_bind]
  cases owner with
  | request r =>
    rw [Owner.isntValid, Request.isntValid, error_ok hw.1 hw.2]
    exact ⟨_, _, rfl, names_invalidText, rfl, rfl⟩
  | event event =>
    refine ⟨_, w.tick, rfl, names_invalidText, ?_, rfl⟩
    simp [Owner.responses]
  | response uid =>
    refine ⟨_, w.tick, rfl, names_invalidText, ?_, rfl⟩
    simp [Owner.responses]

/-- One that cannot be responded to is not reported. -/
theorem call_mute (h : v.validator false (Json.get? d key) = .error e)
    (he : e.isTypeOrValueError) (hw : ¬ owner.CanRespond w) :
    ∃ e' w', (owner.call d key v false).run w = (.error (.raised e'), w') ∧ ¬ Names key e' := by
  cases owner with
  | request r =>
    have hmute : Mute r w := by
      by_cases hr : w.responses r.id = none
      · exact .inl (Bool.eq_false_iff.not_left.mp fun hs => hw ⟨hr, hs⟩)
      · exact .inr (Option.isSome_iff_ne_none.mpr hr)
    obtain ⟨e', w', hrun, hother⟩ : ∃ e' w', (r.error true (invalidText key e)).run w =
        (.error (.raised e'), w') ∧ e'.isMessageHandling = false := error_mute hmute
    refine ⟨e', w', ?_, ?_⟩
    · simp [Owner.call, callPayload, h, he, Owner.isntValid, Request.isntValid, Proc.run_bind, hrun]
    · rintro ⟨uid, reason, cause, rfl, -⟩
      cases hother
  | event | response => exact absurd trivial hw

theorem behaves_ok (h : v.meaning (Json.get? d key) = .ok result) :
    Behaves owner d key v w ↔ v.TakenAs (Json.get? d key) := by
  simp only [Behaves, h]
  constructor
  · rintro ⟨hcall, -⟩
    by_contra hnot
    obtain ⟨hok, hne⟩ := not_takenAs hnot
    rw [call_ok hok] at hcall
    simp only [Prod.mk.injEq, Except.ok.injEq, and_true] at hcall
    exact hne (hcall ▸ h)
  · intro htaken
    exact ⟨call_ok ((validator_of_takenAs htaken).trans h), dictAfter_eq⟩

theorem behaves_error (h : v.meaning (Json.get? d key) = .error e) :
    Behaves owner d key v w ↔ v.TakenAs (Json.get? d key) ∧ Reported owner key w e := by
  simp only [Behaves, h]
  by_cases htaken : v.TakenAs (Json.get? d key)
  swap
  · refine iff_of_false ?_ fun h => htaken h.1
    rintro ⟨e', w', hcall, -⟩
    rw [call_ok (not_takenAs htaken).1] at hcall
    cases hcall
  have hv := (validator_of_takenAs htaken).trans h
  rw [and_iff_right htaken]
  by_cases he : e.isTypeOrValueError = true
  · have hnames : ¬ Names key e := by
      rintro ⟨uid, reason, cause, rfl, -⟩
      cases he
    by_cases hw : owner.CanRespond w
    · exact iff_of_true (call_reported hv he hw) (.inl ⟨he, hw⟩)
    · obtain ⟨e', w', hcall, hother⟩ := call_mute hv he hw
      refine iff_of_false ?_ ?_
      · rintro ⟨e'', w'', hcall', hnames', -⟩
        cases hcall.symm.trans hcall'
        exact hother hnames'
      · rintro (⟨-, hcan⟩ | ⟨hname, -⟩)
        · exact hw hcan
        · exact hnames hname
  · have hcall : (owner.call d key v false).run w = (.error (.raised e), w) := call_other hv he
    rw [hcall]
    constructor
    · rintro ⟨e', w', heq, hname, hsent, -⟩
      cases heq
      refine .inr ⟨hname, fun hrequest => ?_⟩
      cases owner with
      | request r => simp [Owner.responses] at hsent
      | event | response => exact hrequest
    · rintro (⟨htype, -⟩ | ⟨hname, hrequest⟩)
      · exact absurd htype he
      · refine ⟨e, w, rfl, hname, ?_, rfl⟩
        cases owner with
        | request r => exact absurd trivial hrequest
        | event | response => simp [Owner.responses]

/-- A call does as documented if and only if its second argument is taken for
what it means, and an exception of the validator is one that is reported. -/
theorem behaves_iff (owner : Owner) (d : Items) (key : String) (v : Validating) (w : World) :
    Behaves owner d key v w ↔ v.TakenAs (Json.get? d key) ∧
      ∀ e, v.meaning (Json.get? d key) = .error e → Reported owner key w e := by
  cases h : v.meaning (Json.get? d key) with
  | ok result => simp [behaves_ok h]
  | error e => simp [behaves_error h]

/-- The default is the empty string, and the key is missing. -/
theorem not_behaves_empty :
    ¬ Behaves (.request { id := 0, command := "launch", arguments := .dict [] }) [] "python"
      (.value (.str "")) {} := by
  intro h
  have hmeaning : (Validating.value (.str "")).meaning (Json.get? [] "python") =
      .ok (some (.str "")) := rfl
  have htaken := (behaves_ok hmeaning).mp h
  simp [Validating.TakenAs, Json.truthy, Json.get?] at htaken

end

end Debugpy.Adapter
