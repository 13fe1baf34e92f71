import RhsCore.Modbus.Start
import RhsCore.Net.Calls

/-!
# The addresses that are handed to the worker

`modbus_tcp_start` formats the addresses it stops and starts into two static buffers, and
the messages it queues carry pointers to them.  On any other thread the call waits for its
message to be processed; on the worker's own thread it does not, and a later call can
format another address while the message is still in the queue.

Several networks are served, each by a worker of its own.  Each formatting, each
`rhs_message_queue_put` and each look of a worker at an address is one step; a worker can
be in a call of its own while it processes a message, as it polls Mongoose there.

## Main definitions

* `Message`, `Pc`, `State` — messages with their buffer, and who is where.
* `modbusTcpStart` — the next step of a call.
* `UsesFormatted` — every address a worker has used is the one its call formatted.
* `Fresh` — formatting into a buffer does not change what a message still points to.
-/

namespace RhsCore.ModbusBuffers

open ModbusStart (modbusAddr)

/-! ## Messages and calls -/

/-- The static buffers, `current_addr` and `new_addr`. -/
inductive Buffer
  | currentAddr
  | newAddr
  deriving DecidableEq, Repr

/-- A thread: the worker of a network, or another one. -/
inductive Party (Id Thread : Type)
  | worker (id : Id)
  | thread (t : Thread)
  deriving DecidableEq

/-- A message: `NetApiEventTypeRstTcp` points to `current_addr`, and `NetApiEventTypeSetTcp`
to `new_addr`.  `uri` is what the call had formatted there, and `caller` waits for it. -/
structure Message (Id Thread : Type) where
  buffer : Buffer
  uri : String
  caller : Option (Party Id Thread)
  deriving DecidableEq

/-- Where a thread is in `modbus_tcp_start`. -/
inductive Pc (Id : Type)
  | idle
  /-- Before `current_port != 0`. -/
  | entered (app : Id) (port : UInt16)
  /-- Before `current_addr` is formatted. -/
  | formatCurrent (app : Id) (port : UInt16)
  /-- In `net_stop_listener`, before its message is queued. -/
  | stopping (app : Id) (port : UInt16) (uri : String)
  /-- In it, until the message is processed. -/
  | stopWaiting (app : Id) (port : UInt16)
  /-- Before `new_addr` is formatted. -/
  | formatNew (app : Id) (port : UInt16)
  /-- In `net_start_listener`, before its message is queued. -/
  | starting (app : Id) (port : UInt16) (uri : String)
  | startWaiting (app : Id) (port : UInt16)
  /-- Before `current_port = port`. -/
  | finishing (port : UInt16)
  deriving DecidableEq

/-- The static variables, the queues, the messages that are being processed, and the threads.
`used` are the addresses that workers have read, each with what its call had formatted. -/
structure State (Id Thread : Type) where
  currentPort : UInt16
  buffers : Buffer → String
  queues : Id → List (Message Id Thread)
  processing : Id → Option (Message Id Thread)
  pc : Party Id Thread → Pc Id
  used : List (String × String)

variable {Id Thread : Type}

def State.init : State Id Thread where
  currentPort := 0
  buffers := fun _ => ""
  queues := fun _ => []
  processing := fun _ => none
  pc := fun _ => .idle
  used := []

section Step

variable [DecidableEq Id] [DecidableEq Thread]

def State.goto (s : State Id Thread) (p : Party Id Thread) (pc : Pc Id) : State Id Thread :=
  { s with pc := Function.update s.pc p pc }

/-- `snprintf` into a buffer. -/
def State.format (s : State Id Thread) (b : Buffer) (uri : String) : State Id Thread :=
  { s with buffers := Function.update s.buffers b uri }

/-- `rhs_message_queue_put`. -/
def State.put (s : State Id Thread) (app : Id) (msg : Message Id Thread) : State Id Thread :=
  { s with queues := Function.update s.queues app (s.queues app ++ [msg]) }

/-- `if (thread != net->thread)`: whether a call waits for its message. -/
def waits (p : Party Id Thread) (app : Id) : Bool := p ≠ .worker app

/-- The message of a call. -/
def messageOf (p : Party Id Thread) (app : Id) (b : Buffer) (uri : String) : Message Id Thread where
  buffer := b
  uri := uri
  caller := if waits p app then some p else none

/-- The next step of `modbus_tcp_start`; the assertions hold. -/
def modbusTcpStart (s : State Id Thread) (p : Party Id Thread) : Option (State Id Thread) :=
  match s.pc p with
  | .idle => none
  | .entered app port =>
      some (s.goto p (if s.currentPort ≠ 0 then .formatCurrent app port else .formatNew app port))
  | .formatCurrent app port =>
      let uri := modbusAddr s.currentPort
      some ((s.format .currentAddr uri).goto p (.stopping app port uri))
  | .stopping app port uri =>
      if (s.queues app).length < NetApi.queueSize then
        some ((s.put app (messageOf p app .currentAddr uri)).goto p
          (if waits p app then .stopWaiting app port else .formatNew app port))
      else none
  | .stopWaiting _ _ => none
  | .formatNew app port =>
      let uri := modbusAddr port
      some ((s.format .newAddr uri).goto p (.starting app port uri))
  | .starting app port uri =>
      if (s.queues app).length < NetApi.queueSize then
        some ((s.put app (messageOf p app .newAddr uri)).goto p
          (if waits p app then .startWaiting app port else .finishing port))
      else none
  | .startWaiting _ _ => none
  | .finishing port => some ({ s with currentPort := port }.goto p .idle)

/-- Where a call goes on when its message has been processed. -/
def Pc.unlocked : Pc Id → Pc Id
  | .stopWaiting app port => .formatNew app port
  | .startWaiting _ port => .finishing port
  | pc => pc

/-- `if (msg.lock) api_lock_unlock(msg.lock)`. -/
def State.unlock (s : State Id Thread) (msg : Message Id Thread) : State Id Thread :=
  match msg.caller with
  | some p => s.goto p (s.pc p).unlocked
  | none => s

/-- What can happen next. -/
inductive Action (Id Thread : Type)
  /-- A thread calls `modbus_tcp_start`. -/
  | call (p : Party Id Thread) (app : Id) (port : UInt16)
  /-- Its next step. -/
  | run (p : Party Id Thread)
  /-- A worker takes a message. -/
  | take (id : Id)
  /-- It reads the address of the message. -/
  | use (id : Id)
  /-- It has processed the message. -/
  | finish (id : Id)

def step (s : State Id Thread) : Action Id Thread → Option (State Id Thread)
  | .call p app port =>
      if s.pc p = .idle ∧ port ≠ 0 then some (s.goto p (.entered app port)) else none
  | .run p => modbusTcpStart s p
  | .take id =>
      if s.pc (.worker id) = .idle ∧ s.processing id = none then
        match s.queues id with
        | [] => none
        | msg :: rest =>
            some { s with
              queues := Function.update s.queues id rest
              processing := Function.update s.processing id (some msg) }
      else none
  | .use id =>
      if s.pc (.worker id) = .idle then
        (s.processing id).map fun msg =>
          { s with used := s.used ++ [(s.buffers msg.buffer, msg.uri)] }
      else none
  | .finish id =>
      if s.pc (.worker id) = .idle then
        (s.processing id).map fun msg =>
          { s with processing := Function.update s.processing id none }.unlock msg
      else none

end Step

/-! ## What messages still point to -/

/-- Every address that a worker has read is the one the call had formatted. -/
def UsesFormatted (s : State Id Thread) : Prop := ∀ u ∈ s.used, u.1 = u.2

/-- The address a call has formatted and not yet queued. -/
def Pc.formatted : Pc Id → Option (Buffer × String)
  | .stopping _ _ uri => some (.currentAddr, uri)
  | .starting _ _ uri => some (.newAddr, uri)
  | _ => none

/-- An address was formatted into the buffer for a message that has not been processed. -/
def Pending (s : State Id Thread) (b : Buffer) (uri : String) : Prop :=
  (∃ id, ∃ msg ∈ s.queues id, msg.buffer = b ∧ msg.uri = uri) ∨
    (∃ id, ∃ msg ∈ s.processing id, msg.buffer = b ∧ msg.uri = uri) ∨
      ∃ p, (s.pc p).formatted = some (b, uri)

/-- What is formatted into a buffer is what all messages that still point to it were
formatted with. -/
def Fresh (s : State Id Thread) : Action Id Thread → Prop
  | .run p =>
      match s.pc p with
      | .formatCurrent _ _ => ∀ uri, Pending s .currentAddr uri → uri = modbusAddr s.currentPort
      | .formatNew _ port => ∀ uri, Pending s .newAddr uri → uri = modbusAddr port
      | _ => True
  | _ => True

/-- Each buffer has the address of every message that still points to it. -/
def Intact (s : State Id Thread) : Prop := ∀ b uri, Pending s b uri → s.buffers b = uri

/-! ## What a step does to what is pending -/

variable {s s' : State Id Thread} {p : Party Id Thread} {pc : Pc Id} {b : Buffer} {uri : String}

theorem formatted_unlocked (pc : Pc Id) {x : Buffer × String}
    (h : pc.unlocked.formatted = some x) : pc.formatted = some x := by
  cases pc with
  | stopWaiting app port => cases h
  | startWaiting app port => cases h
  | _ => exact h

theorem not_pending (hqueues : ∀ id, s.queues id = []) (hprocessing : ∀ id, s.processing id = none)
    (hpc : ∀ p, (s.pc p).formatted = none) : ¬ Pending s b uri := by
  rintro (⟨id, msg, hmsg, -⟩ | ⟨id, msg, hmsg, -⟩ | ⟨p, hp⟩)
  · rw [hqueues] at hmsg
    cases hmsg
  · rw [hprocessing] at hmsg
    cases hmsg
  · rw [hpc] at hp
    cases hp

/-- A message that a worker takes was in its queue. -/
theorem Pending.of_take [DecidableEq Id] {id : Id} {msg : Message Id Thread}
    {rest : List (Message Id Thread)} (hqueue : s.queues id = msg :: rest)
    (h : Pending
      { s with
        queues := Function.update s.queues id rest
        processing := Function.update s.processing id (some msg) } b uri) :
    Pending s b uri := by
  rcases h with ⟨i, m, hm, hmsg⟩ | ⟨i, m, hm, hmsg⟩ | hp
  · by_cases hi : i = id
    · simp only [hi, Function.update_self] at hm
      refine .inl ⟨id, m, ?_, hmsg⟩
      rw [hqueue]
      exact List.mem_cons_of_mem msg hm
    · simp only [Function.update_of_ne hi] at hm
      exact .inl ⟨i, m, hm, hmsg⟩
  · by_cases hi : i = id
    · simp only [hi, Function.update_self, Option.mem_some_iff] at hm
      refine .inl ⟨id, m, ?_, hmsg⟩
      rw [hqueue, hm]
      exact List.mem_cons_self
    · simp only [Function.update_of_ne hi] at hm
      exact .inr (.inl ⟨i, m, hm, hmsg⟩)
  · exact .inr (.inr hp)

theorem Pending.of_processed [DecidableEq Id] {id : Id}
    (h : Pending { s with processing := Function.update s.processing id none } b uri) :
    Pending s b uri := by
  rcases h with hqueue | ⟨i, m, hm, hmsg⟩ | hp
  · exact .inl hqueue
  · by_cases hi : i = id
    · simp only [hi, Function.update_self] at hm
      cases hm
    · simp only [Function.update_of_ne hi] at hm
      exact .inr (.inl ⟨i, m, hm, hmsg⟩)
  · exact .inr (.inr hp)

/-- A step that formats nothing only takes away from what is pending. -/
theorem Intact.of_pending (h : Intact s) (hbuffers : s'.buffers = s.buffers)
    (hpending : ∀ b uri, Pending s' b uri → Pending s b uri) : Intact s' := by
  intro b uri hp
  rw [hbuffers]
  exact h b uri (hpending b uri hp)

theorem UsesFormatted.of_used (h : UsesFormatted s) (hused : s'.used = s.used) :
    UsesFormatted s' := by
  rw [UsesFormatted, hused]
  exact h

section Steps

variable [DecidableEq Id]

theorem Pending.of_put {app : Id} {msg : Message Id Thread} (h : Pending (s.put app msg) b uri) :
    Pending s b uri ∨ msg.buffer = b ∧ msg.uri = uri := by
  rcases h with ⟨id, m, hm, hmsg⟩ | hrest
  · by_cases hid : id = app
    · simp only [hid, State.put, Function.update_self] at hm
      rcases List.mem_append.mp hm with hold | hnew
      · exact .inl (.inl ⟨app, m, hold, hmsg⟩)
      · obtain rfl := List.mem_singleton.mp hnew
        exact .inr hmsg
    · simp only [State.put, Function.update_of_ne hid] at hm
      exact .inl (.inl ⟨id, m, hm, hmsg⟩)
  · exact .inl (.inr hrest)

variable [DecidableEq Thread]

theorem Pending.of_goto (h : Pending (s.goto p pc) b uri) :
    Pending s b uri ∨ pc.formatted = some (b, uri) := by
  rcases h with hqueue | hprocessing | ⟨q, hq⟩
  · exact .inl (.inl hqueue)
  · exact .inl (.inr (.inl hprocessing))
  · by_cases hqp : q = p
    · simp only [hqp, State.goto, Function.update_self] at hq
      exact .inr hq
    · simp only [State.goto, Function.update_of_ne hqp] at hq
      exact .inl (.inr (.inr ⟨q, hq⟩))

/-- A thread that has formatted nothing can go on without taking anything back. -/
theorem Pending.goto (h : Pending s b uri) (hnone : (s.pc p).formatted = none) :
    Pending (s.goto p pc) b uri := by
  rcases h with hqueue | hprocessing | ⟨q, hq⟩
  · exact .inl hqueue
  · exact .inr (.inl hprocessing)
  · have hqp : q ≠ p := by
      rintro rfl
      rw [hnone] at hq
      cases hq
    refine .inr (.inr ⟨q, ?_⟩)
    simp only [State.goto, Function.update_of_ne hqp]
    exact hq

theorem Pending.of_unlock {msg : Message Id Thread} (h : Pending (s.unlock msg) b uri) :
    Pending s b uri := by
  rw [State.unlock] at h
  split at h
  · rename_i q _
    rcases h.of_goto with hs | hformatted
    · exact hs
    · exact .inr (.inr ⟨q, formatted_unlocked _ hformatted⟩)
  · exact h

/-- **Formatting** keeps what is pending intact exactly if it is fresh. -/
theorem intact_format_iff (h : Intact s) {b : Buffer} {uri : String}
    (hnone : (s.pc p).formatted = none) (hpc : pc.formatted = some (b, uri)) :
    Intact ((s.format b uri).goto p pc) ↔ ∀ uri', Pending s b uri' → uri' = uri := by
  constructor
  · intro hintact uri' hp
    have hbuffer := hintact b uri' (Pending.goto (s := s.format b uri) hp hnone)
    simp only [State.goto, State.format, Function.update_self] at hbuffer
    exact hbuffer.symm
  · intro hfresh b' uri' hp
    change Function.update s.buffers b uri b' = uri'
    rcases hp.of_goto with hp | hformatted
    · by_cases hb : b' = b
      · subst hb
        rw [Function.update_self, hfresh uri' hp]
      · rw [Function.update_of_ne hb]
        exact h b' uri' hp
    · rw [hpc] at hformatted
      obtain ⟨rfl, rfl⟩ := Prod.mk.inj (Option.some.inj hformatted)
      exact Function.update_self ..

/-- A message is queued as it was formatted. -/
theorem Intact.queued (h : Intact s) {app : Id} (hpc : (s.pc p).formatted = some (b, uri))
    (hnew : pc.formatted = none) :
    Intact ((s.put app (messageOf p app b uri)).goto p pc) := by
  refine h.of_pending rfl fun b' uri' hp => ?_
  rcases hp.of_goto with hp | hformatted
  · rcases hp.of_put with hp | ⟨rfl, rfl⟩
    · exact hp
    · exact .inr (.inr ⟨p, hpc⟩)
  · rw [hnew] at hformatted
    cases hformatted

/-- A thread goes on with nothing formatted. -/
theorem Intact.goto (h : Intact s) (hnew : pc.formatted = none) : Intact (s.goto p pc) := by
  refine h.of_pending rfl fun b' uri' hp => ?_
  rcases hp.of_goto with hp | hformatted
  · exact hp
  · rw [hnew] at hformatted
    cases hformatted

/-- **A step of a call** keeps what is pending intact exactly if it is fresh. -/
theorem intact_modbusTcpStart_iff (h : Intact s) (hs : modbusTcpStart s p = some s') :
    Intact s' ↔ Fresh s (.run p) := by
  rw [modbusTcpStart] at hs
  simp only [Fresh]
  cases hpc : s.pc p with
  | idle =>
      rw [hpc] at hs
      cases hs
  | entered app port =>
      rw [hpc] at hs
      rw [← Option.some.inj hs]
      refine iff_of_true (h.goto ?_) trivial
      split
      · rfl
      · rfl
  | formatCurrent app port =>
      rw [hpc] at hs
      rw [← Option.some.inj hs]
      exact intact_format_iff h (by rw [hpc]; rfl) rfl
  | stopping app port uri =>
      rw [hpc] at hs
      obtain ⟨-, hs⟩ := Option.ite_none_right_eq_some.mp hs
      rw [← Option.some.inj hs]
      refine iff_of_true (h.queued (by rw [hpc]; rfl) ?_) trivial
      split
      · rfl
      · rfl
  | stopWaiting app port =>
      rw [hpc] at hs
      cases hs
  | formatNew app port =>
      rw [hpc] at hs
      rw [← Option.some.inj hs]
      exact intact_format_iff h (by rw [hpc]; rfl) rfl
  | starting app port uri =>
      rw [hpc] at hs
      obtain ⟨-, hs⟩ := Option.ite_none_right_eq_some.mp hs
      rw [← Option.some.inj hs]
      refine iff_of_true (h.queued (by rw [hpc]; rfl) ?_) trivial
      split
      · rfl
      · rfl
  | startWaiting app port =>
      rw [hpc] at hs
      cases hs
  | finishing port =>
      rw [hpc] at hs
      rw [← Option.some.inj hs]
      exact iff_of_true (Intact.goto (s := { s with currentPort := port }) h rfl) trivial

theorem modbusTcpStart_used (hs : modbusTcpStart s p = some s') : s'.used = s.used := by
  rw [modbusTcpStart] at hs
  split at hs
  · cases hs
  · rw [← Option.some.inj hs]
    rfl
  · rw [← Option.some.inj hs]
    rfl
  · obtain ⟨-, hs⟩ := Option.ite_none_right_eq_some.mp hs
    rw [← Option.some.inj hs]
    rfl
  · cases hs
  · rw [← Option.some.inj hs]
    rfl
  · obtain ⟨-, hs⟩ := Option.ite_none_right_eq_some.mp hs
    rw [← Option.some.inj hs]
    rfl
  · cases hs
  · rw [← Option.some.inj hs]
    rfl

/-- **A step** keeps what is pending intact exactly if it is fresh. -/
theorem intact_step_iff {a : Action Id Thread} (h : Intact s) (hs : step s a = some s') :
    Intact s' ↔ Fresh s a := by
  cases a with
  | call p app port =>
      obtain ⟨-, hs⟩ := Option.ite_none_right_eq_some.mp hs
      rw [← Option.some.inj hs]
      exact iff_of_true (h.goto rfl) trivial
  | run p => exact intact_modbusTcpStart_iff h hs
  | take id =>
      refine iff_of_true ?_ trivial
      obtain ⟨⟨-, hnone⟩, hs⟩ := Option.ite_none_right_eq_some.mp hs
      split at hs
      · cases hs
      · rename_i msg rest hqueue
        rw [← Option.some.inj hs]
        refine h.of_pending rfl fun b uri hp => ?_
        exact hp.of_take hqueue
  | use id =>
      refine iff_of_true ?_ trivial
      obtain ⟨-, hs⟩ := Option.ite_none_right_eq_some.mp hs
      obtain ⟨msg, -, hs⟩ := Option.map_eq_some_iff.mp hs
      rw [← hs]
      exact h
  | finish id =>
      refine iff_of_true ?_ trivial
      obtain ⟨-, hs⟩ := Option.ite_none_right_eq_some.mp hs
      obtain ⟨msg, -, hs⟩ := Option.map_eq_some_iff.mp hs
      rw [← hs]
      refine h.of_pending ?_ fun b uri hp => hp.of_unlock.of_processed
      rw [State.unlock]
      split
      · rfl
      · rfl

/-- Where messages are intact, a worker uses what their calls had formatted. -/
theorem UsesFormatted.step {a : Action Id Thread} (h : UsesFormatted s) (hintact : Intact s)
    (hs : step s a = some s') : UsesFormatted s' := by
  cases a with
  | call p app port =>
      obtain ⟨-, hs⟩ := Option.ite_none_right_eq_some.mp hs
      rw [← Option.some.inj hs]
      exact h
  | run p => exact h.of_used (modbusTcpStart_used hs)
  | take id =>
      obtain ⟨-, hs⟩ := Option.ite_none_right_eq_some.mp hs
      split at hs
      · cases hs
      · rw [← Option.some.inj hs]
        exact h
  | use id =>
      obtain ⟨-, hs⟩ := Option.ite_none_right_eq_some.mp hs
      obtain ⟨msg, hmsg, hs⟩ := Option.map_eq_some_iff.mp hs
      rw [← hs]
      intro u hu
      rcases List.mem_append.mp hu with hold | hnew
      · exact h u hold
      · obtain rfl := List.mem_singleton.mp hnew
        exact hintact msg.buffer msg.uri (.inr (.inl ⟨id, msg, hmsg, rfl, rfl⟩))
  | finish id =>
      obtain ⟨-, hs⟩ := Option.ite_none_right_eq_some.mp hs
      obtain ⟨msg, -, hs⟩ := Option.map_eq_some_iff.mp hs
      rw [← hs]
      refine h.of_used ?_
      rw [State.unlock]
      split
      · rfl
      · rfl

end Steps

/-! ## All along a run -/

theorem intact_init : Intact (State.init : State Id Thread) := by
  intro b uri h
  exact absurd h (not_pending (fun _ => rfl) (fun _ => rfl) fun _ => rfl)

section Runs

variable [DecidableEq Id] [DecidableEq Thread]

/-- **All along a run** the messages are intact, exactly if every formatting is fresh. -/
theorem intact_run_iff (as : List (Action Id Thread)) :
    Always step (fun s => Intact s ∧ UsesFormatted s) State.init as ↔
      Each step Fresh State.init as := by
  refine always_iff_each (J := fun _ => True) (fun _ _ _ _ _ => trivial) ?_ trivial
    ⟨intact_init, fun u hu => absurd hu (List.not_mem_nil)⟩ as
  intro s a s' _ h hs
  rw [← intact_step_iff h.1 hs]
  exact and_iff_left (h.2.step h.1 hs)

/-- **A worker uses what was formatted**, in every run in which nothing is formatted over an
address that a message still points to. -/
theorem used_as_formatted {as : List (Action Id Thread)} (h : Each step Fresh State.init as) :
    Always step UsesFormatted State.init as :=
  ((intact_run_iff as).mpr h).imp fun _ hs => hs.2

end Runs

/-- The worker calls for port 502 and then for port 503 before it reads its queue. -/
def workerRun : List (Action Unit Unit) :=
  .call (.worker ()) () 502 :: List.replicate 4 (.run (.worker ())) ++
    .call (.worker ()) () 503 :: List.replicate 6 (.run (.worker ())) ++ [.take (), .use ()]

/-- The second call formats its address over that of the first. -/
theorem new_addr_overwritten :
    ∃ s, runActions step (fun _ _ => True) State.init workerRun = some s ∧
      s.used = [(modbusAddr 503, modbusAddr 502)] ∧ ¬ UsesFormatted s ∧
      ¬ Always step UsesFormatted State.init workerRun := by
  have hrun : runActions step (fun _ _ => True) State.init workerRun = some _ := rfl
  have hdiffer : modbusAddr 503 ≠ modbusAddr 502 := by
    rw [ne_eq, ModbusStart.modbusAddr_inj]
    decide
  refine ⟨_, hrun, rfl, fun h => ?_, fun h => ?_⟩
  · exact hdiffer (h _ (List.mem_singleton_self _))
  · exact hdiffer (h.last hrun _ (List.mem_singleton_self _))

/-- Another thread makes the same calls, and each of its messages is processed before it
goes on. -/
def threadRun : List (Action Unit Unit) :=
  [.call (.thread ()) () 502, .run (.thread ()), .run (.thread ()), .run (.thread ()), .take (),
    .use (), .finish (), .run (.thread ()), .call (.thread ()) () 503, .run (.thread ()),
    .run (.thread ()), .run (.thread ()), .take (), .use (), .finish (), .run (.thread ()),
    .run (.thread ()), .take (), .use (), .finish (), .run (.thread ())]

theorem thread_uses_formatted :
    Always step UsesFormatted (State.init : State Unit Unit) threadRun := by
  apply used_as_formatted
  rw [threadRun]
  iterate 21
    refine Each.cons rfl ?_ ?_
    · first
      | trivial
      | intro uri hp
        exact absurd hp (not_pending (fun _ => rfl) (fun _ => rfl) (by rintro (_ | _) <;> rfl))
  trivial

end RhsCore.ModbusBuffers
