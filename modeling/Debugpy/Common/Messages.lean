import Debugpy.Common.Channel

/-!
# Messages on the wire

The dicts that a channel makes of what it is to send.
-/

namespace Debugpy

def prettifyOrder : List String :=
  ["seq", "type", "request_seq", "success", "command", "event", "message", "arguments", "body",
    "error"]

def moveToEnd (d : Items) (key : String) : Items :=
  match Json.get? d key with
  | some value => Json.erase d key ++ [(key, value)]
  | none => d

def prettify (d : Items) : Items := prettifyOrder.foldl moveToEnd d

/-- What `send_request` sends, but for the seq. -/
def requestDict (command : String) (arguments : Json) : Items :=
  [("type", .str "request"), ("command", .str command)] ++
    if arguments.isNoneOrEmpty then [] else [("arguments", arguments)]

/-- The same for `send_event`. -/
def eventDict (event : String) (body : Json) : Items :=
  [("type", .str "event"), ("event", .str event)] ++
    if body.isNoneOrEmpty then [] else [("body", body)]

/-- The same for `Request.respond`. -/
def responseDict (requestSeq : Int) (command : String) (body : Except Exn Json) : Items :=
  [("type", .str "response"), ("request_seq", .int requestSeq), ("command", .str command)] ++
    match body with
    | .error e => [("success", .bool false), ("message", .str e.str)]
    | .ok body => ("success", .bool true) ::
        if body.isNoneOrEmpty then [] else [("body", body)]

/-- The message that `_send_message` writes. -/
def numberedDict (seq : Int) (message : Items) : Items :=
  prettify (Json.set message "seq" (.int seq))

theorem get?_append (d d' : Items) (key : String) :
    Json.get? (d ++ d') key = (Json.get? d key).or (Json.get? d' key) := by
  induction d with
  | nil => simp [Json.get?]
  | cons p d ih =>
    rw [List.cons_append, Json.get?_cons, Json.get?_cons, ih]
    split <;> rfl

@[simp] theorem get?_moveToEnd (d : Items) (key k : String) :
    Json.get? (moveToEnd d key) k = Json.get? d k := by
  unfold moveToEnd
  split
  · rename_i value hvalue
    rw [get?_append]
    by_cases hk : k = key
    · rw [hk, Json.get?_erase_self, hvalue]
      simp [Json.get?]
    · rw [Json.get?_erase_ne _ hk]
      simp [Json.get?, Ne.symm hk]
  · rfl

@[simp] theorem get?_prettify (d : Items) (k : String) :
    Json.get? (prettify d) k = Json.get? d k := by
  have hfold : ∀ keys d, Json.get? (List.foldl moveToEnd d keys) k = Json.get? d k := by
    intro keys
    induction keys with
    | nil => exact fun _ => rfl
    | cons key keys ih => exact fun d => (ih _).trans (get?_moveToEnd d key k)
  exact hfold prettifyOrder d

@[simp] theorem get?_numberedDict_seq (seq : Int) (message : Items) :
    Json.get? (numberedDict seq message) "seq" = some (.int seq) := by
  rw [numberedDict, get?_prettify, Json.get?_set_self]

theorem get?_numberedDict_ne (seq : Int) (message : Items) (h : k ≠ "seq") :
    Json.get? (numberedDict seq message) k = Json.get? message k := by
  rw [numberedDict, get?_prettify, Json.get?_set_ne _ h]

end Debugpy
