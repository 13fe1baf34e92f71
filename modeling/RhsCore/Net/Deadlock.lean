import RhsCore.Net.Calls
import Mathlib.Data.List.Nodup

/-!
# Who waits forever

The worker is stuck if one of its handlers waits for a message only the worker processes,
or for room in the queue only the worker empties.  A thread is stuck if the worker has left
its loop while the thread's message was still in the queue.

## Main definitions

* `Pending` — a thread waits for its own message to be processed.
* `NotStuck` — nobody waits forever.
* `Safe` — the steps that keep it so.
* `notStuck_iff` — they do, and no others.
-/

namespace RhsCore.NetApi

variable {Thread : Type} {s s' : State Thread} {t : Thread} {c : Call} {msg : Message Thread}

/-! ## Who waits -/

def WorkerPc.current : WorkerPc Thread → Option (Message Thread)
  | .polling current | .putting current _ | .waiting current => current
  | .terminated => none

/-- The messages that are not processed yet. -/
def State.outstanding (s : State Thread) : List (Message Thread) :=
  s.worker.current.toList ++ s.queue

/-- A thread waits for its own message to be processed, and for no other. -/
structure Pending (s : State Thread) : Prop where
  waits : ∀ t, s.threads t = .waiting ↔ ∃ msg ∈ s.outstanding, msg.lock = some (.thread t)
  own : ∀ msg ∈ s.outstanding, msg.lock = some .worker → ∃ current, s.worker = .waiting current
  stop : ∀ msg ∈ s.outstanding, msg.type = .stop → msg.lock = none
  nodup : (s.outstanding.filterMap fun msg => msg.lock).Nodup

theorem pending_init : Pending (init : State Thread) where
  waits := by simp [init, State.outstanding, WorkerPc.current]
  own := by simp [init, State.outstanding, WorkerPc.current]
  stop := by simp [init, State.outstanding, WorkerPc.current]
  nodup := by simp [init, State.outstanding, WorkerPc.current]

/-- The worker's own lock is outstanding only while it waits on it. -/
theorem Pending.lock_ne_worker (h : Pending s) (hwaits : ∀ current, s.worker ≠ .waiting current) :
    ∀ msg ∈ s.outstanding, msg.lock ≠ some .worker := by
  intro msg hmsg hlock
  obtain ⟨current, hworker⟩ := h.own msg hmsg hlock
  exact hwaits current hworker

/-- The worker goes on with the same message. -/
theorem Pending.worker (h : Pending s) {pc : WorkerPc Thread}
    (hcurrent : pc.current = s.worker.current)
    (hwaits : ∀ current, s.worker ≠ .waiting current) : Pending { s with worker := pc } := by
  have hout : ({ s with worker := pc } : State Thread).outstanding = s.outstanding := by
    simp only [State.outstanding, hcurrent]
  constructor
  · intro t
    rw [hout]
    exact h.waits t
  · intro msg hmsg hlock
    rw [hout] at hmsg
    exact absurd hlock (h.lock_ne_worker hwaits msg hmsg)
  · rw [hout]
    exact h.stop
  · rw [hout]
    exact h.nodup

theorem message_lock (c : Call) (b : Bool) (lock lock' : Caller Thread) :
    (c.message b lock).lock = some lock' ↔ c.locks b = true ∧ lock = lock' := by
  rw [Call.message]
  split
  · rename_i hlocks
    simp [hlocks]
  · rename_i hlocks
    simp [hlocks]

theorem message_stop (c : Call) (b : Bool) (lock : Caller Thread)
    (h : (c.message b lock).type = .stop) : (c.message b lock).lock = none := by
  cases c with
  | netStop => rfl
  | netStartHttp => cases h
  | netStartListener => cases h
  | netStopListener => cases h
  | netSetConfig => cases h

/-- What is outstanding after a message was queued: nobody waits on its lock yet. -/
structure Appended (s s' : State Thread) (c : Call) (b : Bool) (lock : Caller Thread) :
    Prop where
  outstanding : s'.outstanding = s.outstanding ++ [c.message b lock]
  new : ∀ msg ∈ s.outstanding, msg.lock ≠ some lock

theorem Appended.stop {b : Bool} {lock : Caller Thread} (h : Appended s s' c b lock)
    (hs : Pending s) : ∀ msg ∈ s'.outstanding, msg.type = .stop → msg.lock = none := by
  intro msg hmsg htype
  rw [h.outstanding] at hmsg
  rcases List.mem_append.mp hmsg with hmsg | hmsg
  · exact hs.stop msg hmsg htype
  · rw [List.mem_singleton.mp hmsg] at htype ⊢
    exact message_stop c b lock htype

/-- A lock is queued once. -/
theorem Appended.nodup {b : Bool} {lock : Caller Thread} (h : Appended s s' c b lock)
    (hs : Pending s) : (s'.outstanding.filterMap fun msg => msg.lock).Nodup := by
  rw [h.outstanding, List.filterMap_append]
  cases hlock : (c.message b lock).lock with
  | none => simpa [hlock] using hs.nodup
  | some lock' =>
      obtain ⟨-, rfl⟩ := (message_lock c b lock lock').mp hlock
      simp only [List.filterMap_cons, hlock, List.filterMap_nil]
      refine List.nodup_append'.mpr ⟨hs.nodup, List.nodup_singleton _, ?_⟩
      intro l hl hl'
      obtain ⟨msg, hmsg, hmsgLock⟩ := List.mem_filterMap.mp hl
      rw [List.mem_singleton.mp hl'] at hmsgLock
      exact h.new msg hmsg hmsgLock

/-- Which threads have a message outstanding. -/
theorem Appended.exists_lock {b : Bool} {lock : Caller Thread} (h : Appended s s' c b lock)
    (lock' : Caller Thread) :
    (∃ msg ∈ s'.outstanding, msg.lock = some lock') ↔
      (∃ msg ∈ s.outstanding, msg.lock = some lock') ∨ c.locks b = true ∧ lock = lock' := by
  rw [h.outstanding, ← message_lock]
  simp [or_and_right, exists_or]

/-- A handler's message is queued. -/
theorem pending_workerPut {current : Option (Message Thread)} (h : Pending s)
    (hpc : s.worker = .putting current c) :
    Pending { s with
      queue := s.queue ++ [c.message true Caller.worker]
      worker := if c.locks true then .waiting current else .polling current } := by
  have hadd : Appended s { s with
      queue := s.queue ++ [c.message true Caller.worker]
      worker := if c.locks true then .waiting current else .polling current } c true .worker := by
    constructor
    · simp only [State.outstanding, hpc, ← List.append_assoc]
      split
      · rfl
      · rfl
    · exact h.lock_ne_worker (by simp [hpc])
  refine ⟨fun t => ?_, fun msg hmsg hlock => ?_, hadd.stop h, hadd.nodup h⟩
  · rw [hadd.exists_lock, ← h.waits]
    simp
  · rcases (hadd.exists_lock .worker).mp ⟨msg, hmsg, hlock⟩ with ⟨msg, hmsg, hlock⟩ | ⟨hlocks, -⟩
    · exact absurd hlock (h.lock_ne_worker (by simp [hpc]) msg hmsg)
    · exact ⟨current, if_pos hlocks⟩

/-- The worker takes a message; of a stop nothing is left. -/
theorem pending_take {rest : List (Message Thread)} (h : Pending s)
    (hpc : s.worker = .polling none) (hqueue : s.queue = msg :: rest) :
    Pending { s with
      queue := rest
      worker := if msg.type = .stop then .terminated else .polling (some msg) } := by
  have hout : s.outstanding = msg :: rest := by
    rw [State.outstanding, hpc, hqueue]
    rfl
  have hnever := h.lock_ne_worker (by simp [hpc])
  obtain ⟨hwaits, -, hstop, hnodup⟩ := h
  rw [hout] at hnever hstop hnodup
  by_cases htype : msg.type = .stop
  · have hlock := hstop msg List.mem_cons_self htype
    simp only [htype, if_true]
    refine ⟨fun t => ?_, fun m hm hlock => ?_, fun m hm => ?_, ?_⟩
    · rw [hwaits t, hout, List.exists_mem_cons_iff, hlock]
      simp [State.outstanding, WorkerPc.current]
    · exact absurd hlock (hnever m (List.mem_cons_of_mem _ hm))
    · exact hstop m (List.mem_cons_of_mem _ hm)
    · rw [List.filterMap_cons, hlock] at hnodup
      exact hnodup
  · simp only [htype, if_false]
    refine ⟨fun t => ?_, fun m hm hlock => ?_, hstop, hnodup⟩
    · rw [hwaits t, hout]
      rfl
    · exact absurd hlock (hnever m hm)

section Threads

variable [DecidableEq Thread]

theorem goto_threads (s : State Thread) (t t' : Thread) (pc : Pc) :
    (s.goto t pc).threads t' = if t' = t then pc else s.threads t' :=
  Function.update_apply ..

/-- A thread that does not wait goes where it does not wait either. -/
theorem Pending.goto (h : Pending s) (hbefore : s.threads t ≠ .waiting) {pc : Pc}
    (hafter : pc ≠ .waiting) : Pending (s.goto t pc) := by
  refine { h with waits := fun t' => ?_ }
  rw [goto_threads]
  split
  · rename_i ht
    subst ht
    exact iff_of_false hafter fun hmsg => hbefore ((h.waits t').mpr hmsg)
  · exact h.waits t'

theorem pending_put (h : Pending s) (hpc : s.threads t = .putting c) :
    Pending ({ s with queue := s.queue ++ [c.message false (Caller.thread t)] }.goto t
      (if c.locks false then .waiting else .idle)) := by
  have hadd : Appended s
      ({ s with queue := s.queue ++ [c.message false (Caller.thread t)] }.goto t
        (if c.locks false then .waiting else .idle)) c false (.thread t) := by
    constructor
    · exact (List.append_assoc ..).symm
    · intro msg hmsg hlock
      rw [(h.waits t).mpr ⟨msg, hmsg, hlock⟩] at hpc
      cases hpc
  refine ⟨fun t' => ?_, fun msg hmsg hlock => ?_, hadd.stop h, hadd.nodup h⟩
  · rw [hadd.exists_lock, goto_threads, ← h.waits]
    split
    · rename_i ht
      subst ht
      cases hlocks : c.locks false with
      | true => simp
      | false => simp [hpc]
    · rename_i ht
      simp [Ne.symm ht]
  · rcases (hadd.exists_lock .worker).mp ⟨msg, hmsg, hlock⟩ with ⟨msg, hmsg, hlock⟩ | ⟨-, hcaller⟩
    · exact h.own msg hmsg hlock
    · cases hcaller

/-- The worker has processed a message. -/
theorem pending_finish (h : Pending s) (hpc : s.worker = .polling (some msg)) :
    Pending { s.unlock msg with worker := .polling none } := by
  have hout : s.outstanding = msg :: s.queue := by
    rw [State.outstanding, hpc]
    rfl
  have hnever := h.lock_ne_worker (by simp [hpc])
  obtain ⟨hwaits, -, hstop, hnodup⟩ := h
  rw [hout] at hnever hstop hnodup
  have hown : ∀ m ∈ s.queue, m.lock ≠ some .worker :=
    fun m hm => hnever m (List.mem_cons_of_mem _ hm)
  rw [State.unlock]
  split
  · rename_i t hlock
    rw [List.filterMap_cons, hlock] at hnodup
    obtain ⟨hnew, hrest⟩ := List.nodup_cons.mp hnodup
    have hmine : ∀ m ∈ s.queue, m.lock ≠ some (.thread t) :=
      fun m hm hlock => hnew (List.mem_filterMap.mpr ⟨m, hm, hlock⟩)
    refine ⟨fun t' => ?_, fun m hm hlock => absurd hlock (hown m hm),
      fun m hm => hstop m (List.mem_cons_of_mem _ hm), hrest⟩
    change (s.goto t .unlocked).threads t' = .waiting ↔
      ∃ m ∈ s.queue, m.lock = some (.thread t')
    rw [goto_threads]
    split
    · rename_i ht
      subst ht
      exact iff_of_false nofun fun ⟨m, hm, hlock⟩ => hmine m hm hlock
    · rename_i ht
      rw [hwaits, hout, List.exists_mem_cons_iff, hlock]
      simp [Ne.symm ht]
  · rename_i hlock
    have hnone : msg.lock = none := by
      cases hl : msg.lock with
      | none => rfl
      | some caller =>
          cases caller with
          | worker => exact absurd hl (hnever msg List.mem_cons_self)
          | thread t => exact absurd hl (hlock t)
    refine ⟨fun t' => ?_, fun m hm hlock => absurd hlock (hown m hm),
      fun m hm => hstop m (List.mem_cons_of_mem _ hm), ?_⟩
    · rw [hwaits, hout, List.exists_mem_cons_iff, hnone]
      simp [State.outstanding, WorkerPc.current]
    · rw [List.filterMap_cons, hnone] at hnodup
      exact hnodup

/-- **Who waits**: in every state a thread waits for its own message, and that is not
processed yet. -/
theorem pending_step {a : Action Thread} (h : Pending s) (hs : step s a = some s') :
    Pending s' := by
  cases move_of_step hs with
  | call hpc => exact h.goto (by simp [hpc]) nofun
  | put hpc => exact pending_put h hpc
  | wake hpc => exact h.goto (by simp [hpc]) nofun
  | handler hpc => exact h.worker (by simp [hpc, WorkerPc.current]) (by simp [hpc])
  | workerPut hpc => exact pending_workerPut h hpc
  | take hpc hqueue => exact pending_take h hpc hqueue
  | finish hpc => exact pending_finish h hpc

end Threads

/-! ## Nobody waits forever -/

/-- The worker does not wait for itself, and when it has left its loop, nobody waits for a
message it will not process. -/
structure NotStuck (s : State Thread) : Prop where
  ownLock : ∀ current, s.worker ≠ .waiting current
  ownQueue : ∀ current c, s.worker = .putting current c → s.queue.length < queueSize
  answered : s.worker = .terminated → ∀ t, s.threads t ≠ .waiting

/-- The steps that keep it so.  A handler finds room in the queue, and no thread fills the
queue before it does; it is not in `net_start_http`.  Behind a stop there is no message
somebody waits for, and after it nobody queues one. -/
def Safe (s : State Thread) : Action Thread → Prop
  | .put t =>
      (∀ current c, s.worker = .putting current c → s.queue.length + 1 < queueSize) ∧
        (s.worker = .terminated → ∀ c, s.threads t = .putting c → c.locks false = false)
  | .handler _ => s.queue.length < queueSize
  | .workerPut => ∀ current c, s.worker = .putting current c → c.locks true = false
  | .take => ∀ stop rest, s.queue = stop :: rest → stop.type = .stop →
      ∀ msg ∈ rest, msg.lock = none
  | .call _ _ | .wake _ | .finish => True

theorem notStuck_init : NotStuck (init : State Thread) :=
  ⟨nofun, nofun, nofun⟩

theorem notStuck_workerPut_iff {current : Option (Message Thread)}
    (hpc : s.worker = .putting current c) :
    NotStuck { s with
      queue := s.queue ++ [c.message true Caller.worker]
      worker := if c.locks true then .waiting current else .polling current } ↔
        Safe s .workerPut := by
  constructor
  · intro hafter current' c' hpc'
    obtain ⟨rfl, rfl⟩ : current = current' ∧ c = c' := by simpa [hpc] using hpc'
    cases hlocks : c.locks true with
    | false => rfl
    | true => exact absurd (if_pos hlocks) (hafter.ownLock current)
  · intro hsafe
    simp only [hsafe current c hpc]
    exact ⟨nofun, nofun, nofun⟩

theorem notStuck_take_iff {rest : List (Message Thread)} (hp : Pending s)
    (hpc : s.worker = .polling none) (hqueue : s.queue = msg :: rest) :
    NotStuck { s with
      queue := rest
      worker := if msg.type = .stop then .terminated else .polling (some msg) } ↔
        Safe s .take := by
  have hout : s.outstanding = msg :: rest := by
    rw [State.outstanding, hpc, hqueue]
    rfl
  constructor
  · intro hafter stop rest' hqueue' htype m hm
    obtain ⟨rfl, rfl⟩ : msg = stop ∧ rest = rest' := by simpa [hqueue] using hqueue'
    have hmem : m ∈ s.outstanding := by
      rw [hout]
      exact List.mem_cons_of_mem _ hm
    cases hlock : m.lock with
    | none => rfl
    | some caller =>
        cases caller with
        | worker => exact absurd hlock (hp.lock_ne_worker (by simp [hpc]) m hmem)
        | thread t =>
            exact absurd ((hp.waits t).mpr ⟨m, hmem, hlock⟩) (hafter.answered (if_pos htype) t)
  · intro hsafe
    by_cases htype : msg.type = .stop
    · simp only [htype, if_true]
      refine ⟨nofun, nofun, fun _ t hwaiting => ?_⟩
      obtain ⟨m, hm, hlock⟩ := (hp.waits t).mp hwaiting
      rw [hout] at hm
      have hnone : m.lock = none := by
        rcases List.mem_cons.mp hm with rfl | hrest
        · exact hp.stop m (by simp [hout]) htype
        · exact hsafe msg rest hqueue htype m hrest
      rw [hnone] at hlock
      cases hlock
    · simp only [htype, if_false]
      exact ⟨nofun, nofun, nofun⟩

variable [DecidableEq Thread]

/-- A step of a thread that does not queue a message. -/
theorem NotStuck.goto (h : NotStuck s) {pc : Pc} (hpc : pc ≠ .waiting) :
    NotStuck (s.goto t pc) := by
  refine ⟨h.ownLock, h.ownQueue, fun hterm t' => ?_⟩
  rw [goto_threads]
  split
  · exact hpc
  · exact h.answered hterm t'

theorem notStuck_put_iff (h : NotStuck s) (hpc : s.threads t = .putting c) :
    NotStuck ({ s with queue := s.queue ++ [c.message false (Caller.thread t)] }.goto t
      (if c.locks false then .waiting else .idle)) ↔ Safe s (.put t) := by
  constructor
  · intro hafter
    constructor
    · intro current c' hworker
      have hroom := hafter.ownQueue current c' hworker
      rwa [State.goto, List.length_append] at hroom
    · intro hterm c' hpc'
      obtain rfl : c = c' := by simpa [hpc] using hpc'
      have hidle := hafter.answered hterm t
      rw [goto_threads, if_pos rfl] at hidle
      cases hlocks : c.locks false with
      | false => rfl
      | true => exact absurd (if_pos hlocks) hidle
  · intro hsafe
    refine ⟨h.ownLock, fun current c' hworker => ?_, fun hterm t' => ?_⟩
    · rw [State.goto, List.length_append]
      exact hsafe.1 current c' hworker
    · rw [goto_threads, hsafe.2 hterm c hpc]
      split
      · exact nofun
      · exact h.answered hterm t'

theorem notStuck_step_iff {a : Action Thread} (hp : Pending s) (h : NotStuck s)
    (hs : step s a = some s') : NotStuck s' ↔ Safe s a := by
  cases move_of_step hs with
  | call hpc => exact iff_of_true (h.goto nofun) trivial
  | put hpc => exact notStuck_put_iff h hpc
  | wake hpc => exact iff_of_true (h.goto nofun) trivial
  | @handler c current hpc =>
      constructor
      · intro hafter
        exact hafter.ownQueue current c rfl
      · intro hroom
        exact ⟨nofun, fun _ _ _ => hroom, nofun⟩
  | workerPut hpc => exact notStuck_workerPut_iff hpc
  | take hpc hqueue => exact notStuck_take_iff hp hpc hqueue
  | finish => exact iff_of_true ⟨nofun, nofun, nofun⟩ trivial

/-- **Who waits forever**: in every run nobody does exactly if every step of the run is
safe. -/
theorem notStuck_iff (run : List (Action Thread)) :
    Always step NotStuck init run ↔ Each step Safe init run :=
  always_iff_each (J := Pending) (fun _ _ _ hp hs => pending_step hp hs)
    (fun _ _ _ hp h hs => notStuck_step_iff hp h hs) pending_init notStuck_init run

/-! ## Three runs -/

/-- A handler starts an HTTP server. -/
def handlerHttpRun : List (Action ℕ) := [.handler .netStartHttp, .workerPut]

/-- Three threads fill the queue, and then a handler starts a listener. -/
def fullQueueRun : List (Action ℕ) :=
  [.call 0 .netStartListener, .put 0, .call 1 .netStartListener, .put 1,
    .call 2 .netStopListener, .put 2, .handler .netStartListener]

/-- A thread queues a message behind the stop. -/
def behindStopRun : List (Action ℕ) :=
  [.call 0 .netStop, .put 0, .call 1 .netSetConfig, .put 1, .take]

theorem somebody_stuck : ¬ Always step NotStuck init handlerHttpRun ∧
    ¬ Always step NotStuck init fullQueueRun ∧ ¬ Always step NotStuck init behindStopRun := by
  refine ⟨fun h => ?_, fun h => ?_, fun h => ?_⟩
  · exact (h.last rfl).ownLock none rfl
  · exact absurd ((h.last rfl).ownQueue none _ rfl) (by decide)
  · exact (h.last rfl).answered rfl 1 rfl

end RhsCore.NetApi
