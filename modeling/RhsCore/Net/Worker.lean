import Mathlib.Data.Nat.Notation

/-!
# The network worker

`net.c` and `net_listeners.c`: the thread that owns the connections.  It takes messages
from its queue and opens and closes listening connections, and keeps a list of what it was
told to open, from which a restart opens them again.

Mongoose is not part of the repository.  What the worker asks of a URL is a parameter; that
a listening connection is on the port of its URL, that it is put in front of the others,
and that a poll takes the closing ones away, is modelled.

## Main definitions

* `NetListener`, `netListenersAdd`, `netListenersRemove` — the list.
* `MgConnection`, `Net` — the listening connections and the worker's state.
* `netWorker` — what the worker does with one message.
-/

namespace RhsCore.NetWorker

/-! ## The list -/

inductive NetListenerType
  | http
  | tcp
  deriving DecidableEq, Repr

/-- A handler, and the context it is called with. -/
abbrev MgEventHandler := ℕ
abbrev Context := ℕ

structure NetListener where
  type : NetListenerType
  uri : String
  fn : MgEventHandler
  context : Context
  deriving DecidableEq, Repr

/-- `net_listeners_add`: to the end of the list. -/
def netListenersAdd (listeners : List NetListener) (type : NetListenerType) (uri : String)
    (fn : MgEventHandler) (context : Context) : List NetListener :=
  listeners ++ [{ type := type, uri := uri, fn := fn, context := context }]

/-- `net_listeners_remove`: the first with the URI, if there is one. -/
def netListenersRemove : List NetListener → String → Bool × List NetListener
  | [], _ => (false, [])
  | current :: rest, uri =>
      if current.uri = uri then (true, rest)
      else
        let (found, rest) := netListenersRemove rest uri
        (found, current :: rest)

/-! ## Mongoose -/

/-- What the worker asks Mongoose: `mg_url_port`, `mg_htons`, and whether `mg_aton` accepts
what `mg_url_host` finds in a URL. -/
structure Mongoose where
  mgUrlPort : String → UInt16
  mgHtons : UInt16 → UInt16
  mgAton : String → Bool

/-- A listening connection. -/
structure MgConnection where
  /-- What it was opened for; the responder of mDNS is for no listener. -/
  listener : Option NetListener
  locPort : UInt16
  isClosing : Bool
  deriving DecidableEq, Repr

/-- The worker's state: the listening connections, and the list. -/
structure Net where
  conns : List MgConnection
  listeners : List NetListener
  deriving DecidableEq, Repr

/-- `mg_listen`, and `mg_http_listen` over it; it may return `NULL`. -/
def mgListen (m : Mongoose) (listens : Bool) (listener : NetListener) (s : Net) : Net :=
  if listens then
    { s with
      conns :=
        { listener := some listener, locPort := m.mgHtons (m.mgUrlPort listener.uri),
          isClosing := false } :: s.conns }
  else s

/-- `mg_mgr_poll`, as far as listening connections go. -/
def mgMgrPoll (s : Net) : Net := { s with conns := s.conns.filter fun c => !c.isClosing }

/-! ## The worker -/

/-- The messages that open and close a listener. -/
inductive NetApiEventMessage
  | setHttp (uri : String) (fn : MgEventHandler) (context : Context)
  | setTcp (uri : String) (fn : MgEventHandler) (context : Context)
  | rstTcp (uri : String)
  deriving DecidableEq, Repr

/-- One turn of the loop of `net_worker` with a message; `listens` says whether Mongoose
can open a connection. -/
def netWorker (m : Mongoose) (listens : Bool) (s : Net) (msg : NetApiEventMessage) : Net :=
  let s := mgMgrPoll s
  match msg with
  | .setHttp uri fn context =>
      let s := mgListen m listens { type := .http, uri := uri, fn := fn, context := context } s
      { s with listeners := netListenersAdd s.listeners .http uri fn context }
  | .setTcp uri fn context =>
      let s := mgListen m listens { type := .tcp, uri := uri, fn := fn, context := context } s
      { s with listeners := netListenersAdd s.listeners .tcp uri fn context }
  | .rstTcp uri =>
      let port := m.mgUrlPort uri
      if m.mgAton uri then
        let s := { s with
          conns := s.conns.map fun c =>
            if c.locPort = m.mgHtons port then { c with isClosing := true } else c }
        let s := mgMgrPoll s
        -- that the URI was not found is only logged
        { s with listeners := (netListenersRemove s.listeners uri).2 }
      else s

/-- After `net_mdns_start`: the responder listens on its port, if Mongoose could open it. -/
def Net.init (mdns : Option UInt16) : Net where
  conns := (mdns.map fun port => { listener := none, locPort := port, isClosing := false }).toList
  listeners := []

end RhsCore.NetWorker
