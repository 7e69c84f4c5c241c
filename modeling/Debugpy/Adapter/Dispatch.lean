import Debugpy.Adapter.Clients

/-!
# Looking up handlers

`_get_handler_for` makes the name of an attribute of what a peer sends, and
takes whatever attribute of that name the object has. `dispatches_iff` says
for which names that is a message handler. `Client` keeps three things under
names that end in `_request`, and `Launcher` has no generic handlers.
-/

namespace Debugpy.Dispatch

inductive HandlerType where
  | event
  | request
  deriving DecidableEq, Repr

def HandlerType.name : HandlerType → String
  | .event => "event"
  | .request => "request"

inductive Attribute where
  | handler (type : HandlerType)
  | other
  deriving DecidableEq, Repr

/-- The classes whose objects are the `handlers` of a channel. -/
inductive Component where
  | client
  | server
  | launcher
  | connection
  deriving DecidableEq, Repr

abbrev Namespace := List (String × Attribute)

def others (names : List String) : Namespace := names.map (·, .other)

def generic (type : HandlerType) : Namespace := [(type.name, .handler type)]

def specific (type : HandlerType) (names : List String) : Namespace :=
  names.map fun name => (name ++ "_" ++ type.name, .handler type)

def Object.attributes : Namespace :=
  others ["__annotations__", "__class__", "__delattr__", "__dict__", "__dir__", "__doc__", "__eq__",
    "__format__", "__ge__", "__getattribute__", "__getstate__", "__gt__", "__hash__", "__init__",
    "__init_subclass__", "__le__", "__lt__", "__module__", "__ne__", "__new__", "__reduce__",
    "__reduce_ex__", "__repr__", "__setattr__", "__sizeof__", "__str__", "__subclasshook__",
    "__weakref__"]

def Observable.attributes : Namespace := others ["observers"] ++ Object.attributes

def Component.attributes : Namespace :=
  others ["client", "launcher", "server", "wait_for", "message_handler", "disconnect"] ++
    Observable.attributes

def classAttributes : Component → Namespace
  | .client =>
    generic .event ++ generic .request ++
    specific .request ["initialize", "launch", "attach", "configurationDone", "evaluate", "pause",
      "continue", "debugpySystemInfo", "terminate", "disconnect"] ++
    others ["Capabilities", "Expectations", "propagate_after_start", "_propagate_deferred_events",
      "_start_message_handler", "report_sockets", "notify_of_subprocess"] ++ Component.attributes
  | .server =>
    generic .event ++ generic .request ++
    specific .event ["initialized", "process", "continued", "exited", "terminated"] ++
    others ["Capabilities", "pid", "ppid", "initialize", "detach_from_session"] ++
    Component.attributes
  | .launcher =>
    specific .event ["process", "output", "exited", "terminated"] ++
    others ["terminate_debuggee"] ++ Component.attributes
  | .connection =>
    generic .event ++ generic .request ++ specific .event ["terminated"] ++
    others ["authenticate", "disconnect", "attach_to_session"] ++ Object.attributes

/-- What `Component.__init__` assigns. -/
def componentAttributes : List String := ["observers", "session", "channel", "is_connected"]

/-- The attributes that are assigned to an object during its life, in order. -/
def instanceAttributes : Component → List String
  | .client => ["using_stdio"] ++ componentAttributes ++ ["client_id", "has_started",
      "start_request", "restart_requested", "_initialize_request", "_deferred_events",
      "_forward_terminate_request", "known_subprocesses", "capabilities", "expectations"]
  | .server => componentAttributes ++ ["connection", "capabilities"]
  | .launcher => componentAttributes ++ ["pid", "exit_code"]
  | .connection => ["disconnected", "process_replaced", "server", "pid", "channel", "ppid"]

/-- A handler object in any state: a message can be dispatched to it before
its `__init__` is through. -/
structure HandlerObject where
  component : Component
  assigned : List String
  declared : ∀ a ∈ assigned, a ∈ instanceAttributes component

/-- `getattr`, with the attribute's name. What is assigned to an object hides
the methods of its class. -/
def getattr (o : HandlerObject) (name : String) : Option (String × Attribute) :=
  if name ∈ o.assigned then some (name, .other)
  else (classAttributes o.component).find? (·.1 == name)

def handlerName (type : HandlerType) (name : String) : String := name ++ "_" ++ type.name

def getHandlerFor (o : HandlerObject) (type : HandlerType) (name : String) :
    Option (String × Attribute) :=
  (getattr o (handlerName type name)).or (getattr o type.name)

/-- What is found is the specific handler of that name and type, or the
generic one. -/
def Dispatches (o : HandlerObject) (type : HandlerType) (name : String) : Prop :=
  getHandlerFor o type name = some (handlerName type name, .handler type) ∨
    getHandlerFor o type name = some (type.name, .handler type)

/-- What `Client` keeps under a name that ends in `_request`. -/
def keptRequests : List String := ["start", "_initialize", "_forward_terminate"]

def launcherEvents : List String := ["process", "output", "exited", "terminated"]

/-- The names for which there is a handler, and nothing else in its place. -/
def HasHandler (o : HandlerObject) (type : HandlerType) (name : String) : Prop :=
  match o.component, type with
  | .client, .request => name ∈ keptRequests → handlerName .request name ∉ o.assigned
  | .launcher, .event => name ∈ launcherEvents
  | .launcher, .request => False
  | .client, .event | .server, _ | .connection, _ => True

-- ---------------------------------------------------------------------------
-- Names with a suffix
-- ---------------------------------------------------------------------------

def endsIn (type : HandlerType) (a : String) : Bool :=
  ('_' :: type.name.toList).isSuffixOf a.toList

theorem endsIn_handlerName (type : HandlerType) (name : String) :
    endsIn type (handlerName type name) = true := by
  simp [endsIn, handlerName]

theorem handlerName_inj (h : handlerName type name = handlerName type name') : name = name' := by
  rw [handlerName, handlerName, ← String.toList_inj] at h
  rw [← String.toList_inj]
  simpa using h

theorem mem_filter_endsIn {names : List String} (h : handlerName type name ∈ names) :
    handlerName type name ∈ names.filter (endsIn type) :=
  List.mem_filter.mpr ⟨h, endsIn_handlerName type name⟩

theorem instanceAttributes_suffixed (c : Component) (type : HandlerType) :
    (instanceAttributes c).filter (endsIn type) =
      if c = .client ∧ type = .request then keptRequests.map (handlerName .request) else [] := by
  cases c <;> cases type <;> decide

theorem kept_of_assigned (o : HandlerObject) (h : handlerName type name ∈ o.assigned) :
    o.component = .client ∧ type = .request ∧ name ∈ keptRequests := by
  have hmem := mem_filter_endsIn (o.declared _ h)
  rw [instanceAttributes_suffixed] at hmem
  split at hmem
  · rename_i hc
    obtain ⟨name', hname, heq⟩ := List.mem_map.mp hmem
    obtain ⟨hcomp, rfl⟩ := hc
    exact ⟨hcomp, rfl, handlerName_inj heq ▸ hname⟩
  · cases hmem

theorem classAttributes_suffixed (c : Component) (type : HandlerType) :
    ((classAttributes c).filter fun a => endsIn type a.1).all (·.2 = .handler type) = true := by
  cases c <;> cases type <;> decide

theorem handler_of_class (h : (classAttributes c).find? (·.1 == handlerName type name) = some a) :
    a = (handlerName type name, .handler type) := by
  have hname : a.1 = handlerName type name := by simpa using List.find?_some h
  have hmem : a ∈ (classAttributes c).filter fun a => endsIn type a.1 :=
    List.mem_filter.mpr ⟨List.mem_of_find?_eq_some h, by rw [hname]; exact endsIn_handlerName ..⟩
  have hkind : a.2 = .handler type := by
    simpa using List.all_eq_true.mp (classAttributes_suffixed c type) a hmem
  exact Prod.ext hname hkind

-- ---------------------------------------------------------------------------
-- Dispatching
-- ---------------------------------------------------------------------------

theorem launcher_suffixed (type : HandlerType) :
    (((classAttributes .launcher).filter fun a => endsIn type a.1).map Prod.fst) =
      if type = .event then launcherEvents.map (handlerName .event) else [] := by
  cases type <;> decide

theorem launcher_event_found (h : name ∈ launcherEvents) :
    ((classAttributes .launcher).find? (·.1 == handlerName .event name)).isSome := by
  simp only [launcherEvents, List.mem_cons, List.not_mem_nil, or_false] at h
  rcases h with rfl | rfl | rfl | rfl <;> decide

theorem launcher_found_iff (type : HandlerType) (name : String) :
    ((classAttributes .launcher).find? (·.1 == handlerName type name)).isSome ↔
      type = .event ∧ name ∈ launcherEvents := by
  constructor
  · intro h
    obtain ⟨a, ha⟩ := Option.isSome_iff_exists.mp h
    obtain rfl := handler_of_class ha
    have hmem : handlerName type name ∈
        ((classAttributes .launcher).filter fun a => endsIn type a.1).map Prod.fst :=
      List.mem_map.mpr ⟨_, List.mem_filter.mpr ⟨List.mem_of_find?_eq_some ha,
        endsIn_handlerName type name⟩, rfl⟩
    rw [launcher_suffixed] at hmem
    split at hmem
    · rename_i htype
      subst htype
      obtain ⟨name', hname, heq⟩ := List.mem_map.mp hmem
      exact ⟨rfl, handlerName_inj heq ▸ hname⟩
    · cases hmem
  · rintro ⟨rfl, hname⟩
    exact launcher_event_found hname

theorem generic_not_assigned (o : HandlerObject) (type : HandlerType) : type.name ∉ o.assigned := by
  intro h
  have hmem := o.declared _ h
  revert hmem
  cases o.component <;> cases type <;> decide

theorem getattr_generic (o : HandlerObject) (type : HandlerType) :
    getattr o type.name =
      if o.component = .launcher then none else some (type.name, .handler type) := by
  rw [getattr, if_neg (generic_not_assigned o type)]
  cases o.component <;> cases type <;> decide

theorem getattr_specific (h : handlerName type name ∉ o.assigned) :
    getattr o (handlerName type name) =
      if ((classAttributes o.component).find? (·.1 == handlerName type name)).isSome
      then some (handlerName type name, .handler type) else none := by
  rw [getattr, if_neg h]
  cases hfind : (classAttributes o.component).find? (·.1 == handlerName type name) with
  | none => rfl
  | some a =>
    rw [handler_of_class hfind]
    rfl

/-- Exactly these names are dispatched to a message handler. -/
theorem dispatches_iff (o : HandlerObject) (type : HandlerType) (name : String) :
    Dispatches o type name ↔ HasHandler o type name := by
  by_cases hkept : handlerName type name ∈ o.assigned
  · -- what is found is the object's own attribute
    obtain ⟨hcomp, rfl, hname⟩ := kept_of_assigned o hkept
    have hfound : getHandlerFor o .request name = some (handlerName .request name, .other) := by
      rw [getHandlerFor, getattr, if_pos hkept]
      rfl
    have hhas : ¬ HasHandler o .request name := by
      simp only [HasHandler, hcomp]
      exact fun h => h hname hkept
    refine iff_of_false ?_ hhas
    rintro (h | h)
    · rw [hfound, Option.some.injEq, Prod.mk.injEq] at h
      cases h.2
    · rw [hfound, Option.some.injEq, Prod.mk.injEq] at h
      cases h.2
  have hget : getHandlerFor o type name =
      if ((classAttributes o.component).find? (·.1 == handlerName type name)).isSome
      then some (handlerName type name, .handler type)
      else if o.component = .launcher then none else some (type.name, .handler type) := by
    rw [getHandlerFor, getattr_specific hkept, getattr_generic]
    split <;> rfl
  cases hcomp : o.component with
  | launcher =>
    have hhas : HasHandler o type name ↔ type = .event ∧ name ∈ launcherEvents := by
      cases type <;> simp [HasHandler, hcomp]
    rw [hhas, ← launcher_found_iff]
    rw [hcomp] at hget
    constructor
    · rintro (h | h) <;> rw [hget] at h
      · by_contra hno
        simp [hno] at h
      · by_contra hno
        simp [hno] at h
    · intro hfound
      exact .inl (by rw [hget, if_pos hfound])
  | _ =>
    have hhas : HasHandler o type name := by
      cases type <;> simp [HasHandler, hcomp]
      try exact fun _ => hkept
    refine iff_of_true ?_ hhas
    rw [hcomp] at hget
    rw [Dispatches, hget]
    split
    · exact .inl rfl
    · exact .inr rfl

/-- A client whose `__init__` has assigned everything. -/
def client : HandlerObject := ⟨.client, instanceAttributes .client, fun _ h => h⟩

theorem isNoHandler_iff (command : String) :
    Adapter.isNoHandler command = true ↔ ¬ Dispatches client .request command := by
  have hassigned : ∀ name ∈ keptRequests, handlerName .request name ∈ client.assigned := by
    decide
  have hmem : command ∈ keptRequests ↔ Adapter.isNoHandler command = true := by
    simp [keptRequests, Adapter.isNoHandler, or_assoc]
  rw [dispatches_iff, ← hmem]
  constructor
  · exact fun h hhas => hhas h (hassigned _ h)
  · intro h
    by_contra hno
    exact h fun hname => absurd hname hno

/-- `"start"` leads to the stored start request. -/
theorem not_dispatches_start : ¬ Dispatches client .request "start" := by
  rintro (h | h) <;> revert h <;> decide

end Debugpy.Dispatch
