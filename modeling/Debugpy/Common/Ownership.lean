import Debugpy.Common.Malformed
import Debugpy.Lib.Run

/-!
# The owners of message dicts

Every object of a decoded message is a `MessageDict`, which gets its owner
from a closure that all dicts of the message share. The closure is called
only for a payload that is a dict itself. `owned_iff` says that then, and
only then, all dicts belong to their message, and stay with it: without a
payload the dict that stands in for it keeps a closure of its own, and goes
to the next message that is made of it.
-/

namespace Debugpy.Ownership

abbrev DictId := Nat
abbrev MessageNo := Nat

inductive Value where
  | atom (v : Json)
  | list (xs : List Value)
  | dict (id : DictId) (items : List (String × Value))

mutual

def Value.ids : Value → List DictId
  | .atom _ => []
  | .list xs => listIds xs
  | .dict id items => id :: itemIds items

def listIds : List Value → List DictId
  | [] => []
  | x :: xs => x.ids ++ listIds xs

def itemIds : List (String × Value) → List DictId
  | [] => []
  | (_, x) :: items => x.ids ++ itemIds items

end

mutual

/-- What the decoder makes of a value, numbering the dicts from `n`; the
objects inside one come first. -/
def decode (n : DictId) : Json → Value × DictId
  | .list xs => (.list (decodeList n xs).1, (decodeList n xs).2)
  | .dict d => (.dict (decodeItems n d).2 (decodeItems n d).1, (decodeItems n d).2 + 1)
  | v => (.atom v, n)

def decodeList (n : DictId) : List Json → List Value × DictId
  | [] => ([], n)
  | x :: xs =>
    ((decode n x).1 :: (decodeList (decode n x).2 xs).1, (decodeList (decode n x).2 xs).2)

def decodeItems (n : DictId) : List (String × Json) → List (String × Value) × DictId
  | [] => ([], n)
  | (k, x) :: items =>
    ((k, (decode n x).1) :: (decodeItems (decode n x).2 items).1,
      (decodeItems (decode n x).2 items).2)

end

def get? (items : List (String × Value)) (key : String) : Option Value :=
  (items.find? fun p => p.1 == key).map Prod.snd

/-- The attribute `associate_with`: the closure of a decoded message, with
its `message_dicts`, or that of a payload that was missing. -/
inductive Associate where
  | all (messageDicts : List DictId)
  | self

structure MessageDict where
  message : Option MessageNo := none
  associateWith : Option Associate := none

structure Message where
  no : MessageNo
  type : MessageType
  /-- What it was decoded from. -/
  source : Items
  json : Value
  payload : Option Value

structure State where
  dicts : DictId → MessageDict := fun _ => {}
  nextDict : DictId := 0
  nextMessage : MessageNo := 0
  /-- The messages whose handlers have been enqueued. -/
  exposed : List Message := []

-- ---------------------------------------------------------------------------
-- The constructors
-- ---------------------------------------------------------------------------

def associate (s : State) (id : DictId) (m : MessageNo) : State :=
  match (s.dicts id).associateWith with
  | none => s
  | some (.all messageDicts) =>
    { s with dicts := fun d => if d ∈ messageDicts then { message := some m } else s.dicts d }
  | some .self =>
    { s with dicts := Function.update s.dicts id { s.dicts id with message := some m } }

/-- The part of `Event.__init__`, `Request.__init__` and `Response.__init__`
that concerns the payload. -/
def construct (s : State) (payload : Option Value) : State :=
  let s' := { s with nextMessage := s.nextMessage + 1 }
  match payload with
  | some (.dict id _) => associate s' id s.nextMessage
  | _ => s'

def State.standIn (s : State) : State :=
  { s with
    dicts := Function.update s.dicts s.nextDict { associateWith := some .self }
    nextDict := s.nextDict + 1 }

/-- `_payload`, with the dict that stands in for a missing payload. -/
def payloadOf (s : State) (items : List (String × Value)) (key : String) : Value × State :=
  match get? items key with
  | none | some (.atom .null) => (.dict s.nextDict [], s.standIn)
  | some value => (value, s)

def State.decode (s : State) (d : Items) : DictId × List (String × Value) × State :=
  let (items, n) := decodeItems s.nextDict d
  let ids := n :: itemIds items
  (n, items, { s with
    dicts := fun id => if id ∈ ids then { associateWith := some (.all ids) } else s.dicts id
    nextDict := n + 1 })

def payloadKey : MessageType → String
  | .request => "arguments"
  | .event | .response => "body"

-- ---------------------------------------------------------------------------
-- Parsing and passing on
-- ---------------------------------------------------------------------------

def accepts (d : Items) (key : String) (validate : Validator) : Bool :=
  (validate (Json.get? d key)).isOk

/-- `False` is the only failure that the validator accepts. -/
def failed (d : Items) : Bool :=
  match isBool (Json.get? d "success") with
  | .ok value => !asBool value
  | .error _ => true

def readable (d : Items) : MessageType → Bool
  | .event => accepts d "seq" isInt && accepts d "event" isStr
  | .request => accepts d "seq" isInt && accepts d "command" isStr
  | .response => accepts d "seq" isInt && accepts d "request_seq" isInt &&
      accepts d "command" isStr && accepts d "success" isBool &&
      (!failed d || accepts d "message" isStr)

def messageType (d : Items) : Option MessageType :=
  match Json.enum MessageType.names false (Json.get? d "type") with
  | .ok name => some (.ofName (asStr name))
  | .error _ => none

def readPayload (s : State) (type : MessageType) (d : Items) (items : List (String × Value)) :
    Option Value × State :=
  if type = .response && failed d then (none, s)
  else (some (payloadOf s items (payloadKey type)).1, (payloadOf s items (payloadKey type)).2)

def expose (s : State) (type : MessageType) (d : Items) : State :=
  let (id, items, s) := s.decode d
  let (payload, s) := readPayload s type d items
  { construct s payload with
    exposed := s.exposed ++
      [{ no := s.nextMessage, type, source := d, json := .dict id items, payload }] }

inductive Label where
  /-- `_parse_incoming_message`. -/
  | parse (d : Items)
  | sendRequest (arguments : Value)
  | sendEvent (body : Value)
  | respond (body : Value)
  /-- `propagate` or `delegate`, of an exposed message. -/
  | propagate (i : Nat)

/-- One call. An event that is sent is no `Event`. -/
def step (s : State) : Label → Option State
  | .parse d => match messageType d with
    | none => none
    | some type => if readable d type then some (expose s type d) else none
  | .sendRequest v | .respond v => some (construct s (some v))
  | .sendEvent _ => some s
  | .propagate i => match s.exposed[i]? with
    | none => none
    | some m => match m.type with
      | .event => some s
      | .request => some (construct s m.payload)
      | .response => none

/-- Every dict that is reachable from the message belongs to it. -/
def Owned (s : State) (m : Message) : Prop :=
  ∀ id ∈ m.json.ids ++ (m.payload.elim [] Value.ids), (s.dicts id).message = some m.no

/-- The payload is there, and an object. -/
def HasObject (m : Message) : Prop :=
  (∃ items, Json.get? m.source (payloadKey m.type) = some (.dict items)) ∧
    (m.type = .response → failed m.source = false)

-- ---------------------------------------------------------------------------
-- Decoded values
-- ---------------------------------------------------------------------------

/-- The dicts of a value are numbered from `n` up to `n'`. -/
def Between (n n' : DictId) (ids : List DictId) : Prop := n ≤ n' ∧ ∀ id ∈ ids, n ≤ id ∧ id < n'

theorem Between.append (h : Between n n' ids) (h' : Between n' n'' ids') :
    Between n n'' (ids ++ ids') := by
  refine ⟨h.1.trans h'.1, fun id hid => ?_⟩
  rcases List.mem_append.mp hid with hid | hid
  · exact ⟨(h.2 id hid).1, (h.2 id hid).2.trans_le h'.1⟩
  · exact ⟨h.1.trans (h'.2 id hid).1, (h'.2 id hid).2⟩

mutual

theorem decode_between (n : DictId) (v : Json) :
    Between n (decode n v).2 (decode n v).1.ids := by
  cases v with
  | list xs =>
    simp only [decode, Value.ids]
    exact decodeList_between n xs
  | dict d =>
    simp only [decode, Value.ids]
    obtain ⟨hle, hids⟩ := decodeItems_between n d
    refine ⟨Nat.le_succ_of_le hle, fun id hid => ?_⟩
    rcases List.mem_cons.mp hid with rfl | hid
    · exact ⟨hle, Nat.lt_succ_self _⟩
    · exact ⟨(hids id hid).1, Nat.lt_succ_of_lt (hids id hid).2⟩
  | null | bool | int | float | str => exact ⟨Nat.le_refl n, nofun⟩

theorem decodeList_between (n : DictId) (xs : List Json) :
    Between n (decodeList n xs).2 (listIds (decodeList n xs).1) := by
  cases xs with
  | nil => exact ⟨Nat.le_refl n, nofun⟩
  | cons x xs => exact (decode_between n x).append (decodeList_between _ xs)

theorem decodeItems_between (n : DictId) (d : List (String × Json)) :
    Between n (decodeItems n d).2 (itemIds (decodeItems n d).1) := by
  cases d with
  | nil => exact ⟨Nat.le_refl n, nofun⟩
  | cons p d =>
    obtain ⟨k, x⟩ := p
    exact (decode_between n x).append (decodeItems_between _ d)

end

theorem get?_cons (p : String × Value) (items : List (String × Value)) (key : String) :
    get? (p :: items) key = if p.1 = key then some p.2 else get? items key := by
  by_cases h : p.1 = key <;> simp [get?, h]

theorem get?_decodeItems (n : DictId) (d : List (String × Json)) (key : String) :
    ∃ n', get? (decodeItems n d).1 key = (Json.get? d key).map fun v => (decode n' v).1 := by
  induction d generalizing n with
  | nil => exact ⟨n, rfl⟩
  | cons p d ih =>
    obtain ⟨k, x⟩ := p
    obtain ⟨n', hn'⟩ := ih (decode n x).2
    rw [decodeItems, get?_cons, Json.get?_cons]
    by_cases hk : k = key
    · exact ⟨n, by simp [hk]⟩
    · exact ⟨n', by simpa [hk] using hn'⟩

theorem ids_of_get? {items : List (String × Value)} (h : get? items key = some v) :
    ∀ id ∈ v.ids, id ∈ itemIds items := by
  induction items with
  | nil => cases h
  | cons p items ih =>
    obtain ⟨k, x⟩ := p
    intro id hid
    rw [get?_cons] at h
    rw [itemIds, List.mem_append]
    split at h
    · cases h
      exact .inl hid
    · exact .inr (ih h id hid)

-- ---------------------------------------------------------------------------
-- What a call does to the dicts
-- ---------------------------------------------------------------------------

/-- The closures that are still there are whole, dicts are numbered, and so
are their owners. -/
structure WellFormed (s : State) : Prop where
  alive : ∀ id ds, (s.dicts id).associateWith = some (.all ds) →
    id ∈ ds ∧ ∀ d ∈ ds, (s.dicts d).associateWith = some (.all ds)
  fresh : ∀ id, s.nextDict ≤ id → s.dicts id = {}
  owner : ∀ id m, (s.dicts id).message = some m → m < s.nextMessage

/-- Only a new dict changes, or one that has its closure, and its new owner
is a new message. -/
structure Evolves (s s' : State) : Prop where
  messages : s.nextMessage ≤ s'.nextMessage
  numbers : s.nextDict ≤ s'.nextDict
  changed : ∀ id, s'.dicts id ≠ s.dicts id →
    (s.nextDict ≤ id ∨ (s.dicts id).associateWith ≠ none) ∧
      ∀ m, (s'.dicts id).message = some m → s.nextMessage ≤ m ∧ m < s'.nextMessage

section
variable {s s' s'' : State} {items : List (String × Value)} {id : DictId}

theorem Evolves.refl (s : State) : Evolves s s := ⟨le_rfl, le_rfl, fun _ h => absurd rfl h⟩

theorem Evolves.trans (h : Evolves s s') (h' : Evolves s' s'') : Evolves s s'' := by
  refine ⟨h.messages.trans h'.messages, h.numbers.trans h'.numbers, fun id hne => ?_⟩
  by_cases hlast : s''.dicts id = s'.dicts id
  · rw [hlast] at hne ⊢
    obtain ⟨hid, hm⟩ := h.changed id hne
    exact ⟨hid, fun m hmess => ⟨(hm m hmess).1, (hm m hmess).2.trans_le h'.messages⟩⟩
  · obtain ⟨hid, hm⟩ := h'.changed id hlast
    refine ⟨?_, fun m hmess => ⟨h.messages.trans (hm m hmess).1, (hm m hmess).2⟩⟩
    by_cases hfirst : s'.dicts id = s.dicts id
    · rw [hfirst] at hid
      exact hid.imp_left h.numbers.trans
    · exact (h.changed id hfirst).1

theorem decode_fresh (s : State) (d : Items) :
    ∀ id ∈ (s.decode d).1 :: itemIds (s.decode d).2.1,
      s.nextDict ≤ id ∧ id < (s.decode d).2.2.nextDict := by
  obtain ⟨hle, hids⟩ := decodeItems_between s.nextDict d
  intro id hid
  rcases List.mem_cons.mp hid with rfl | hid
  · exact ⟨hle, Nat.lt_succ_self _⟩
  · exact ⟨(hids id hid).1, Nat.lt_succ_of_lt (hids id hid).2⟩

theorem decode_dicts (s : State) (d : Items) (id : DictId) :
    (s.decode d).2.2.dicts id =
      if id ∈ (s.decode d).1 :: itemIds (s.decode d).2.1
      then { associateWith := some (.all ((s.decode d).1 :: itemIds (s.decode d).2.1)) }
      else s.dicts id := rfl

theorem decode_evolves (s : State) (d : Items) : Evolves s (s.decode d).2.2 := by
  obtain ⟨hle, -⟩ := decodeItems_between s.nextDict d
  refine ⟨le_rfl, Nat.le_succ_of_le hle, fun id hne => ?_⟩
  rw [decode_dicts] at hne ⊢
  split at hne
  · rename_i hid
    rw [if_pos hid]
    exact ⟨.inl (decode_fresh s d id hid).1, nofun⟩
  · exact absurd rfl hne

theorem decode_wellFormed (h : WellFormed s) (d : Items) : WellFormed (s.decode d).2.2 := by
  have hlt := decode_fresh s d
  refine ⟨fun id ds hid => ?_, fun id hid => ?_, fun id m hm => ?_⟩
  · rw [decode_dicts] at hid
    split at hid
    · rename_i hmem
      cases hid
      exact ⟨hmem, fun d' hd' => by rw [decode_dicts, if_pos hd']⟩
    · obtain ⟨hself, hall⟩ := h.alive id ds hid
      refine ⟨hself, fun d' hd' => ?_⟩
      rw [decode_dicts, if_neg]
      · exact hall d' hd'
      · intro hnew
        have hnone := h.fresh d' (hlt d' hnew).1
        have hsome := hall d' hd'
        rw [hnone] at hsome
        cases hsome
  · rw [decode_dicts, if_neg]
    · exact h.fresh id ((decode_evolves s d).numbers.trans hid)
    · exact fun hnew => absurd hid (Nat.not_le.mpr (hlt id hnew).2)
  · rw [decode_dicts] at hm
    split at hm
    · cases hm
    · exact h.owner id m hm

theorem standIn_self (s : State) :
    s.standIn.dicts s.nextDict = { associateWith := some .self } := Function.update_self ..

theorem standIn_ne {id : DictId} (h : id ≠ s.nextDict) : s.standIn.dicts id = s.dicts id :=
  Function.update_of_ne h ..

theorem standIn_evolves (s : State) : Evolves s s.standIn := by
  refine ⟨le_rfl, Nat.le_succ _, fun id hne => ?_⟩
  by_cases hid : id = s.nextDict
  · subst hid
    exact ⟨.inl le_rfl, fun m hm => by rw [standIn_self] at hm; cases hm⟩
  · exact absurd (standIn_ne hid) hne

theorem standIn_wellFormed (h : WellFormed s) : WellFormed s.standIn := by
  refine ⟨fun id ds hid => ?_, fun id hid => ?_, fun id m hm => ?_⟩
  · by_cases heq : id = s.nextDict
    · rw [heq, standIn_self] at hid
      cases hid
    · rw [standIn_ne heq] at hid
      obtain ⟨hself, hall⟩ := h.alive id ds hid
      refine ⟨hself, fun d hd => ?_⟩
      have hd' : d ≠ s.nextDict := by
        rintro rfl
        have hsome := hall _ hd
        rw [h.fresh _ le_rfl] at hsome
        cases hsome
      rw [standIn_ne hd']
      exact hall d hd
  · have hid' : s.nextDict + 1 ≤ id := hid
    rw [standIn_ne (Nat.ne_of_gt hid')]
    exact h.fresh id (Nat.le_of_succ_le hid')
  · by_cases heq : id = s.nextDict
    · rw [heq, standIn_self] at hm
      cases hm
    · rw [standIn_ne heq] at hm
      exact h.owner id m hm

theorem associate_spec (h : WellFormed s) (id : DictId) :
    let s' := associate { s with nextMessage := s.nextMessage + 1 } id s.nextMessage
    Evolves s s' ∧ WellFormed s' := by
  have hsame : Evolves s { s with nextMessage := s.nextMessage + 1 } ∧
      WellFormed { s with nextMessage := s.nextMessage + 1 } :=
    ⟨⟨Nat.le_succ _, le_rfl, fun _ hne => absurd rfl hne⟩, h.alive, h.fresh,
      fun id m hm => Nat.lt_succ_of_lt (h.owner id m hm)⟩
  unfold associate
  dsimp only
  split
  · exact hsame
  · rename_i ds hds
    obtain ⟨hself, hall⟩ := h.alive id ds hds
    refine ⟨⟨Nat.le_succ _, le_rfl, fun d hne => ?_⟩, fun d ds' hd => ?_, fun d hd => ?_,
      fun d m hm => ?_⟩
    · dsimp only at hne ⊢
      split at hne
      · rename_i hmem
        rw [if_pos hmem]
        refine ⟨.inr (by rw [hall d hmem]; exact nofun), fun m hm => ?_⟩
        cases hm
        exact ⟨le_rfl, Nat.lt_succ_self _⟩
      · exact absurd rfl hne
    · dsimp only at hd ⊢
      split at hd
      · cases hd
      · rename_i hnot
        obtain ⟨hself', hall'⟩ := h.alive d ds' hd
        refine ⟨hself', fun d' hd' => ?_⟩
        rw [if_neg]
        · exact hall' d' hd'
        · -- a dict has one closure
          intro hmem
          have heq := (hall d' hmem).symm.trans (hall' d' hd')
          cases heq
          exact hnot hself'
    · dsimp only
      rw [if_neg]
      · exact h.fresh d hd
      · intro hmem
        have hsome := hall d hmem
        rw [h.fresh d hd] at hsome
        cases hsome
    · dsimp only at hm
      split at hm
      · cases hm
        exact Nat.lt_succ_self _
      · exact Nat.lt_succ_of_lt (h.owner d m hm)
  · rename_i hself
    have hcase : ∀ d, (Function.update s.dicts id { s.dicts id with message := some s.nextMessage }
        d).associateWith = (s.dicts d).associateWith := by
      intro d
      by_cases hd : d = id
      · subst hd
        rw [Function.update_self]
      · rw [Function.update_of_ne hd]
    refine ⟨⟨Nat.le_succ _, le_rfl, fun d hne => ?_⟩, fun d ds hd => ?_, fun d hd => ?_,
      fun d m hm => ?_⟩
    · dsimp only at hne ⊢
      by_cases hd : d = id
      · subst hd
        refine ⟨.inr (by rw [hself]; exact nofun), fun m hm => ?_⟩
        rw [Function.update_self] at hm
        cases hm
        exact ⟨le_rfl, Nat.lt_succ_self _⟩
      · exact absurd (Function.update_of_ne hd _ _) hne
    · dsimp only at hd ⊢
      rw [hcase] at hd
      obtain ⟨hmem, hall⟩ := h.alive d ds hd
      exact ⟨hmem, fun d' hd' => by rw [hcase]; exact hall d' hd'⟩
    · dsimp only
      have hd' : d ≠ id := by
        rintro rfl
        rw [h.fresh d hd] at hself
        cases hself
      rw [Function.update_of_ne hd']
      exact h.fresh d hd
    · dsimp only at hm
      by_cases hd : d = id
      · subst hd
        rw [Function.update_self] at hm
        cases hm
        exact Nat.lt_succ_self _
      · rw [Function.update_of_ne hd] at hm
        exact Nat.lt_succ_of_lt (h.owner d m hm)

theorem construct_spec (h : WellFormed s) (payload : Option Value) :
    Evolves s (construct s payload) ∧ WellFormed (construct s payload) := by
  have hsame : Evolves s { s with nextMessage := s.nextMessage + 1 } ∧
      WellFormed { s with nextMessage := s.nextMessage + 1 } :=
    ⟨⟨Nat.le_succ _, le_rfl, fun _ hne => absurd rfl hne⟩, h.alive, h.fresh,
      fun id m hm => Nat.lt_succ_of_lt (h.owner id m hm)⟩
  cases payload with
  | none => exact hsame
  | some v =>
    cases v with
    | dict id items => exact associate_spec h id
    | atom | list => exact hsame

theorem construct_nextMessage (s : State) (payload : Option Value) :
    (construct s payload).nextMessage = s.nextMessage + 1 := by
  unfold construct associate
  split
  · dsimp only
    split <;> rfl
  · rfl

theorem construct_exposed (s : State) (payload : Option Value) :
    (construct s payload).exposed = s.exposed := by
  unfold construct associate
  split
  · dsimp only
    split <;> rfl
  · rfl

-- ---------------------------------------------------------------------------
-- Messages and their dicts
-- ---------------------------------------------------------------------------

def Message.ids (m : Message) : List DictId := m.json.ids ++ m.payload.elim [] Value.ids

/-- The dicts of a message with an object have given up their closure; of any
other, one dict at least has another owner or none. -/
structure Kept (s : State) (m : Message) : Prop where
  no : m.no < s.nextMessage
  owned : HasObject m → ∀ id ∈ m.ids, s.dicts id = { message := some m.no }
  unowned : ¬ HasObject m → ∃ id ∈ m.ids, (s.dicts id).message ≠ some m.no

theorem Kept.evolves {m : Message} (h : Kept s m) (hw : WellFormed s) (he : Evolves s s') :
    Kept s' m := by
  refine ⟨h.no.trans_le he.messages, fun hobj id hid => ?_, fun hobj => ?_⟩
  · have hown := h.owned hobj id hid
    by_cases hsame : s'.dicts id = s.dicts id
    · rw [hsame, hown]
    · rcases (he.changed id hsame).1 with hnew | hclosure
      · rw [hw.fresh id hnew] at hown
        cases hown
      · rw [hown] at hclosure
        exact absurd rfl hclosure
  · obtain ⟨id, hid, hne⟩ := h.unowned hobj
    refine ⟨id, hid, ?_⟩
    by_cases hsame : s'.dicts id = s.dicts id
    · rwa [hsame]
    · exact fun hm => absurd h.no (Nat.not_lt.mpr ((he.changed id hsame).2 _ hm).1)

structure Inv (s : State) : Prop where
  wellFormed : WellFormed s
  messages : ∀ m ∈ s.exposed, Kept s m

theorem Inv.of_evolves (hi : Inv s) (hw : WellFormed s') (he : Evolves s s')
    (hx : s'.exposed = s.exposed) : Inv s' :=
  ⟨hw, fun m hm => (hi.messages m (hx ▸ hm)).evolves hi.wellFormed he⟩

theorem payloadOf_spec (h : WellFormed s) (items : List (String × Value)) (key : String) :
    Evolves s (payloadOf s items key).2 ∧ WellFormed (payloadOf s items key).2 ∧
      (payloadOf s items key).2.exposed = s.exposed ∧
      (payloadOf s items key).2.nextMessage = s.nextMessage := by
  unfold payloadOf
  split
  · exact ⟨standIn_evolves s, standIn_wellFormed h, rfl, rfl⟩
  · exact ⟨standIn_evolves s, standIn_wellFormed h, rfl, rfl⟩
  · exact ⟨.refl s, h, rfl, rfl⟩

theorem payloadOf_dict (h : get? items key = some (.dict id ds)) :
    payloadOf s items key = (.dict id ds, s) := by
  unfold payloadOf
  rw [h]

theorem construct_all (h : (s.dicts id).associateWith = some (.all ds)) (d : DictId) :
    (construct s (some (.dict id items))).dicts d =
      if d ∈ ds then { message := some s.nextMessage } else s.dicts d := by
  simp only [construct, associate, h]

theorem construct_other (payload : Option Value)
    (h : ∀ id items, payload = some (.dict id items) →
      (s.dicts id).associateWith = some .self ∧ id ≠ d) :
    (construct s payload).dicts d = s.dicts d := by
  unfold construct
  split
  · rename_i id items
    obtain ⟨hself, hne⟩ := h id items rfl
    simp only [associate, hself]
    exact Function.update_of_ne hne.symm _ _
  · rfl

theorem decode_get?_dict (s : State) (d : Items) (key : String) :
    (∃ items, Json.get? d key = some (.dict items)) ↔
      ∃ id items, get? (s.decode d).2.1 key = some (.dict id items) := by
  obtain ⟨n, hn⟩ := get?_decodeItems s.nextDict d key
  have hget : get? (s.decode d).2.1 key = (Json.get? d key).map fun v => (decode n v).1 := hn
  rw [hget]
  constructor
  · rintro ⟨items, h⟩
    exact ⟨_, _, by rw [h]; rfl⟩
  · rintro ⟨id, items, h⟩
    obtain ⟨v, hv, hdict⟩ := Option.map_eq_some_iff.mp h
    cases v with
    | dict d' => exact ⟨d', hv⟩
    | _ => cases hdict

def exposedMessage (s : State) (type : MessageType) (d : Items) : Message :=
  let payload := readPayload (s.decode d).2.2 type d (s.decode d).2.1
  { no := payload.2.nextMessage, type, source := d,
    json := .dict (s.decode d).1 (s.decode d).2.1, payload := payload.1 }

theorem hasObject_exposedMessage : HasObject (exposedMessage s type d) ↔
    (∃ id items, get? (s.decode d).2.1 (payloadKey type) = some (.dict id items)) ∧
      (type = .response && failed d) = false := by
  have hfailed : (type = .response → failed d = false) ↔ (type = .response && failed d) = false := by
    cases type <;> simp
  rw [← decode_get?_dict, ← hfailed]
  rfl

theorem readPayload_spec (h : WellFormed s) (type : MessageType) (d : Items)
    (items : List (String × Value)) :
    Evolves s (readPayload s type d items).2 ∧ WellFormed (readPayload s type d items).2 ∧
      (readPayload s type d items).2.exposed = s.exposed := by
  unfold readPayload
  split
  · exact ⟨.refl s, h, rfl⟩
  · obtain ⟨he, hw, hx, -⟩ := payloadOf_spec h items (payloadKey type)
    exact ⟨he, hw, hx⟩

theorem expose_owned (hobj : HasObject (exposedMessage s type d)) :
    ∀ id ∈ (exposedMessage s type d).ids,
      (expose s type d).dicts id = { message := some (exposedMessage s type d).no } := by
  obtain ⟨⟨id, items, hget⟩, hok⟩ := hasObject_exposedMessage.mp hobj
  have hread : readPayload (s.decode d).2.2 type d (s.decode d).2.1 =
      (some (.dict id items), (s.decode d).2.2) := by
    rw [readPayload, hok, payloadOf_dict hget]
    rfl
  have hsub : ∀ id' ∈ id :: itemIds items, id' ∈ itemIds (s.decode d).2.1 := ids_of_get? hget
  have hclosure : ((s.decode d).2.2.dicts id).associateWith =
      some (.all ((s.decode d).1 :: itemIds (s.decode d).2.1)) := by
    rw [decode_dicts, if_pos (List.mem_cons_of_mem _ (hsub id List.mem_cons_self))]
  intro id' hid'
  have hmem : id' ∈ (s.decode d).1 :: itemIds (s.decode d).2.1 := by
    simp only [Message.ids, exposedMessage, hread, Option.elim_some, List.mem_append] at hid'
    exact hid'.elim (fun hjson => hjson) fun hp => List.mem_cons_of_mem _ (hsub id' hp)
  have hdicts : (expose s type d).dicts id' =
      (construct (s.decode d).2.2 (some (.dict id items))).dicts id' := by
    simp only [expose, hread]
  rw [hdicts, construct_all hclosure, if_pos hmem]
  simp only [exposedMessage, hread]

theorem readPayload_other (hobj : ¬ HasObject (exposedMessage s type d))
    (h : (readPayload (s.decode d).2.2 type d (s.decode d).2.1).1 = some (.dict id items)) :
    ((readPayload (s.decode d).2.2 type d (s.decode d).2.1).2.dicts id).associateWith =
        some .self ∧ id ≠ (s.decode d).1 := by
  rw [hasObject_exposedMessage] at hobj
  unfold readPayload at h ⊢
  split at h
  · cases h
  · rename_i hok
    rw [if_neg hok]
    have hget : ∀ id items, get? (s.decode d).2.1 (payloadKey type) ≠ some (.dict id items) :=
      fun id items hget => hobj ⟨⟨id, items, hget⟩, by simpa using hok⟩
    dsimp only at h ⊢
    unfold payloadOf at h ⊢
    split at h
    · cases h
      exact ⟨by simp only [standIn_self], Nat.succ_ne_self _⟩
    · cases h
      exact ⟨by simp only [standIn_self], Nat.succ_ne_self _⟩
    · cases h
      exact absurd ‹_› (hget _ _)

theorem readPayload_top (s : State) (type : MessageType) (d : Items) :
    (readPayload (s.decode d).2.2 type d (s.decode d).2.1).2.dicts (s.decode d).1 =
      (s.decode d).2.2.dicts (s.decode d).1 := by
  have hne : (s.decode d).1 ≠ (s.decode d).2.2.nextDict := (Nat.succ_ne_self _).symm
  unfold readPayload payloadOf
  split
  · rfl
  · dsimp only
    split
    · exact standIn_ne hne
    · exact standIn_ne hne
    · rfl

theorem expose_unowned (hobj : ¬ HasObject (exposedMessage s type d)) :
    ((expose s type d).dicts (s.decode d).1).message = none := by
  have hdicts : (expose s type d).dicts (s.decode d).1 =
      (construct (readPayload (s.decode d).2.2 type d (s.decode d).2.1).2
        (readPayload (s.decode d).2.2 type d (s.decode d).2.1).1).dicts (s.decode d).1 := rfl
  rw [hdicts, construct_other _ fun id items h => readPayload_other hobj h, readPayload_top,
    decode_dicts, if_pos List.mem_cons_self]

theorem expose_exposed (s : State) (type : MessageType) (d : Items) :
    (expose s type d).exposed =
      (readPayload (s.decode d).2.2 type d (s.decode d).2.1).2.exposed ++
        [exposedMessage s type d] := rfl

theorem expose_kept (s : State) (type : MessageType) (d : Items) :
    Kept (expose s type d) (exposedMessage s type d) := by
  refine ⟨?_, expose_owned, fun hobj => ⟨(s.decode d).1, ?_, ?_⟩⟩
  · have hnext := construct_nextMessage (readPayload (s.decode d).2.2 type d (s.decode d).2.1).2
      (readPayload (s.decode d).2.2 type d (s.decode d).2.1).1
    exact (Nat.lt_succ_self _).trans_eq hnext.symm
  · exact List.mem_append_left _ List.mem_cons_self
  · rw [expose_unowned hobj]
    exact nofun

/-- A new message is kept, and the ones before it still are. -/
theorem expose_inv (hi : Inv s) (type : MessageType) (d : Items) : Inv (expose s type d) := by
  have hw := decode_wellFormed hi.wellFormed d
  obtain ⟨hread, hw', hx⟩ := readPayload_spec hw type d (s.decode d).2.1
  obtain ⟨hmade, hw''⟩ := construct_spec hw' (readPayload (s.decode d).2.2 type d (s.decode d).2.1).1
  have hevolves : Evolves s (expose s type d) :=
    ((decode_evolves s d).trans hread).trans ⟨hmade.messages, hmade.numbers, hmade.changed⟩
  refine ⟨⟨hw''.alive, hw''.fresh, hw''.owner⟩, fun m hm => ?_⟩
  rw [expose_exposed, hx] at hm
  rcases List.mem_append.mp hm with hold | hnew
  · exact (hi.messages m hold).evolves hi.wellFormed hevolves
  · cases List.mem_singleton.mp hnew
    exact expose_kept s type d

theorem construct_inv (hi : Inv s) (payload : Option Value) : Inv (construct s payload) := by
  obtain ⟨he, hw⟩ := construct_spec hi.wellFormed payload
  exact hi.of_evolves hw he (construct_exposed s payload)

theorem inv_init : Inv {} :=
  ⟨⟨fun _ _ h => (nomatch h), fun _ _ => rfl, fun _ _ h => (nomatch h)⟩,
    fun _ h => (nomatch h)⟩

theorem inv_step {label : Label} (h : step s label = some s') (hi : Inv s) : Inv s' := by
  cases label with
  | parse d =>
    simp only [step] at h
    split at h
    · cases h
    · split at h
      · cases h
        exact expose_inv hi _ d
      · cases h
  | sendRequest v | respond v =>
    cases h
    exact construct_inv hi (some v)
  | sendEvent v =>
    cases h
    exact hi
  | propagate i =>
    simp only [step] at h
    split at h
    · cases h
    · split at h
      · cases h
        exact hi
      · cases h
        exact construct_inv hi _
      · cases h

theorem inv_run (hrun : Run.exec step {} labels = some s) : Inv s :=
  Run.exec_invariant (fun hi _ hs => inv_step hs hi) inv_init Run.meets_true hrun

/-- After any calls, a message owns all of its dicts exactly if its payload
was there and an object. -/
theorem owned_iff (hrun : Run.exec step {} labels = some s) {m : Message} (hm : m ∈ s.exposed) :
    Owned s m ↔ HasObject m := by
  have hkept := (inv_run hrun).messages m hm
  constructor
  · intro howned
    by_contra hobj
    obtain ⟨id, hid, hne⟩ := hkept.unowned hobj
    exact hne (howned id hid)
  · intro hobj id hid
    rw [hkept.owned hobj id hid]

end

/-- A message, with an object in its payload, that is passed on. -/
def outputEvent : Items :=
  [("seq", .int 1), ("type", .str "event"), ("event", .str "output"),
    ("body", .dict [("output", .str "hello"), ("source", .dict [])])]

theorem owned_outputEvent :
    ∃ s, Run.exec step {} [.parse outputEvent, .propagate 0] = some s ∧
      ∃ m ∈ s.exposed, Owned s m := by
  have hrun : Run.exec step {} [.parse outputEvent, .propagate 0] = some _ := rfl
  exact ⟨_, hrun, _, List.mem_cons_self,
    (owned_iff hrun List.mem_cons_self).mpr ⟨⟨_, rfl⟩, nofun⟩⟩

/-- Nothing owns the dict of a request without arguments. -/
theorem not_owned :
    ¬ ∀ labels s, Run.exec step {} labels = some s → ∀ m ∈ s.exposed, Owned s m := by
  intro h
  have howned := h [.parse [("seq", .int 1), ("type", .str "request"), ("command", .str "threads")],
    .propagate 0] _ rfl _ List.mem_cons_self
  have hjson := howned 0 List.mem_cons_self
  cases hjson

end Debugpy.Ownership
