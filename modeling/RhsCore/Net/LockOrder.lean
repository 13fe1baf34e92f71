import RhsCore.Net.ApiLock
import RhsCore.Net.Restart
import Mathlib.Data.List.Nodup

/-!
# No call returns early, and no lock is used late

A lock belongs to one call, and its bit is set once, for that call's message.  The waiter
frees the lock when it wakes up; the worker is not done with it then, but holds the
scheduler until it is.

## Main definitions

* `CallOk` — a call, its message and its lock.
* `Good` — the invariant.
* `Served` — what it says about calls, messages and locks.
* `served_of_reach` — it holds in every state reached.
-/

namespace RhsCore.ApiLock

open NetWorker

variable {Thread : Type} {m : Mongoose} {net₀ : ConfiguredNet} {s s' : State Thread}
  {t t' : Thread} {stage : Stage} {msg : NetApiEventMessage} {id : ℕ}

/-! ## Where the worker is -/

/-- The message that is taken and not processed. -/
def WorkerPc.pending : WorkerPc → List NetApiEventMessage
  | .processing msg => [msg]
  | _ => []

/-- The lock of a processed message, until its bit is set. -/
def WorkerPc.toUnlock : WorkerPc → List ℕ
  | .unlocking .suspendAll msg | .unlocking .suspendAgain msg | .unlocking .setBits msg =>
      [msg.lock]
  | _ => []

/-- The lock whose bit is set, until its waiter can run. -/
def WorkerPc.held : WorkerPc → List ℕ
  | .unlocking .resumeAgain msg | .unlocking .getBits msg | .unlocking .resumeAll msg =>
      [msg.lock]
  | _ => []

/-- How often it holds the scheduler. -/
def WorkerPc.suspended : WorkerPc → ℕ
  | .unlocking .suspendAgain _ | .unlocking .getBits _ | .unlocking .resumeAll _ => 1
  | .unlocking .setBits _ | .unlocking .resumeAgain _ => 2
  | _ => 0

/-! ## The invariant -/

/-- A call, its message and its lock. -/
def CallOk (s : State Thread) (t : Thread) (msg : NetApiEventMessage) : Stage → Prop
  | .putting => s.locks msg.lock = some ⟨0, []⟩ ∧ ∀ msg' ∈ s.queued, msg'.lock ≠ msg.lock
  | .waiting => msg ∈ s.queued ∧
      s.locks msg.lock = some ⟨if msg.lock ∈ s.unlocked then 1 else 0, []⟩
  | .blocked => msg ∈ s.queued ∧ msg.lock ∉ s.unlocked ∧ s.locks msg.lock = some ⟨0, [t]⟩
  | .woken => msg ∈ s.queued ∧ msg.lock ∈ s.unlocked ∧ s.locks msg.lock = some ⟨0, []⟩

/-- Each thread's call is as it should be, and its lock is its own. -/
structure Calls (s : State Thread) : Prop where
  ok : ∀ t stage msg, s.threads t = .calling stage msg → CallOk s t msg stage
  own : ∀ t t' stage stage' msg msg', s.threads t = .calling stage msg →
    s.threads t' = .calling stage' msg' → msg.lock = msg'.lock → t = t'
  fresh : ∀ t stage msg, s.threads t = .calling stage msg → msg.lock < s.next

/-- **The invariant.** -/
structure Good (m : Mongoose) (net₀ : ConfiguredNet) (s : State Thread) : Prop
    extends Calls s where
  order : s.processed.map (fun p => p.1) ++ s.worker.pending ++ s.queue = s.queued
  nodup : (s.queued.map fun msg => msg.lock).Nodup
  freshQueued : ∀ msg ∈ s.queued, msg.lock < s.next
  unlocked : s.unlocked ++ s.worker.toUnlock = s.processed.map fun p => p.1.lock
  able : s.able ++ s.worker.held = s.unlocked
  suspended : s.suspended = s.worker.suspended
  caller : ∀ msg ∈ s.queued, msg ∈ s.returned ∨ ∃ t stage, s.threads t = .calling stage msg
  returned : ∀ msg ∈ s.returned, msg ∈ s.queued ∧ msg.lock ∈ s.able
  fault : s.fault = false
  net : s.net = s.processed.foldl (fun net p => p.1.data.process m p.2 net) net₀

theorem good_init (m : Mongoose) (net₀ : ConfiguredNet) :
    Good m net₀ (State.init net₀ : State Thread) where
  ok := by
    intro t stage msg h
    cases h
  own := by
    intro t t' stage stage' msg msg' h
    cases h
  fresh := by
    intro t stage msg h
    cases h
  order := rfl
  nodup := .nil
  freshQueued := nofun
  unlocked := rfl
  able := rfl
  suspended := rfl
  caller := nofun
  returned := nofun
  fault := rfl
  net := rfl

/-! ## Steps that are not about a call -/

theorem CallOk.frame (h : CallOk s t msg stage)
    (hlock : s'.locks msg.lock = s.locks msg.lock)
    (hqueued : ∀ msg', msg'.lock = msg.lock → (msg' ∈ s'.queued ↔ msg' ∈ s.queued))
    (hunlocked : msg.lock ∈ s'.unlocked ↔ msg.lock ∈ s.unlocked) : CallOk s' t msg stage := by
  cases stage with
  | putting =>
      refine ⟨hlock.trans h.1, fun msg' hmsg' heq => ?_⟩
      exact h.2 msg' ((hqueued msg' heq).mp hmsg') heq
  | waiting =>
      refine ⟨(hqueued msg rfl).mpr h.1, ?_⟩
      simp only [hunlocked]
      exact hlock.trans h.2
  | blocked =>
      refine ⟨(hqueued msg rfl).mpr h.1, fun hm => ?_, hlock.trans h.2.2⟩
      exact h.2.1 (hunlocked.mp hm)
  | woken => exact ⟨(hqueued msg rfl).mpr h.1, hunlocked.mpr h.2.1, hlock.trans h.2.2⟩

/-- The calls do not depend on the worker. -/
theorem Calls.frame (h : Calls s) (hthreads : s'.threads = s.threads) (hlocks : s'.locks = s.locks)
    (hqueued : s'.queued = s.queued) (hunlocked : s'.unlocked = s.unlocked)
    (hnext : s'.next = s.next) : Calls s' := by
  refine ⟨fun t stage msg hpc => ?_, fun t t' stage stage' msg msg' hpc hpc' => ?_,
    fun t stage msg hpc => ?_⟩
  · rw [hthreads] at hpc
    exact (h.ok t stage msg hpc).frame (by rw [hlocks]) (fun _ _ => by rw [hqueued])
      (by rw [hunlocked])
  · rw [hthreads] at hpc hpc'
    exact h.own t t' stage stage' msg msg' hpc hpc'
  · rw [hthreads] at hpc
    rw [hnext]
    exact h.fresh t stage msg hpc

/-- The others' locks are not the thread's. -/
theorem Calls.other (h : Calls s) (hpc : s.threads t = .calling stage msg) :
    ∀ t' stage' msg', t' ≠ t → s.threads t' = .calling stage' msg' → msg'.lock ≠ msg.lock :=
  fun t' stage' msg' ht hpc' heq => ht (h.own t' t stage' stage msg' msg hpc' hpc heq)

/-- What it says where the worker is. -/
theorem Good.of_worker {pc : WorkerPc} (h : Good m net₀ s) (hworker : s.worker = pc) :
    s.processed.map (fun p => p.1) ++ pc.pending ++ s.queue = s.queued ∧
      s.unlocked ++ pc.toUnlock = s.processed.map (fun p => p.1.lock) ∧
      s.able ++ pc.held = s.unlocked ∧ s.suspended = pc.suspended := by
  subst hworker
  exact ⟨h.order, h.unlocked, h.able, h.suspended⟩

/-- A lock is unlocked for a message that was processed. -/
theorem Good.mem_processed_of_unlocked (h : Good m net₀ s) (hid : id ∈ s.unlocked) :
    ∃ msg ∈ s.processed.map (fun p => p.1), msg.lock = id := by
  have hmem : id ∈ s.processed.map fun p => p.1.lock := by
    rw [← h.unlocked]
    exact List.mem_append_left _ hid
  obtain ⟨p, hp, hlock⟩ := List.mem_map.mp hmem
  exact ⟨p.1, List.mem_map_of_mem hp, hlock⟩

theorem Good.mem_queued_of_processed (h : Good m net₀ s)
    (hmsg : msg ∈ s.processed.map fun p => p.1) : msg ∈ s.queued := by
  rw [← h.order, List.append_assoc]
  exact List.mem_append_left _ hmsg

/-- While nobody holds the scheduler, the waiters of all locks that were unlocked can run. -/
theorem Good.able_eq (h : Good m net₀ s) (hsuspended : s.suspended = 0) :
    s.able = s.unlocked := by
  have hheld : s.worker.held = [] := by
    have hcount := h.suspended
    rw [hsuspended] at hcount
    cases hw : s.worker with
    | polling => rfl
    | processing msg => rfl
    | unlocking unlock msg =>
        rw [hw] at hcount
        cases unlock with
        | suspendAll => rfl
        | suspendAgain => cases hcount
        | setBits => rfl
        | resumeAgain => cases hcount
        | getBits => cases hcount
        | resumeAll => cases hcount
  have hable := h.able
  rwa [hheld, List.append_nil] at hable

/-! ## The waiter of a lock -/

theorem Good.nodup_unlocked (h : Good m net₀ s) : (s.unlocked ++ s.worker.toUnlock).Nodup := by
  have hsub : (s.processed.map fun p => p.1).Sublist s.queued := by
    rw [← h.order, List.append_assoc]
    exact List.sublist_append_left ..
  have hnodup := h.nodup.sublist (hsub.map fun msg => msg.lock)
  rw [List.map_map] at hnodup
  rw [h.unlocked]
  exact hnodup

/-- The waiter of a lock is still in its call as long as it cannot have run. -/
theorem Good.waiter (h : Good m net₀ s) (hid : id ∈ s.unlocked ++ s.worker.toUnlock)
    (hable : id ∉ s.able) :
    ∃ t stage msg, s.threads t = .calling stage msg ∧ msg.lock = id ∧ msg ∈ s.queued := by
  rw [h.unlocked] at hid
  obtain ⟨p, hp, hlock⟩ := List.mem_map.mp hid
  have hqueued := h.mem_queued_of_processed (List.mem_map_of_mem hp)
  rcases h.caller p.1 hqueued with hret | ⟨t, stage, hpc⟩
  · have hmem := (h.returned p.1 hret).2
    rw [hlock] at hmem
    exact absurd hmem hable
  · exact ⟨t, stage, p.1, hpc, hlock, hqueued⟩

theorem CallOk.exists_lock (h : CallOk s t msg stage) :
    ∃ lock, s.locks msg.lock = some lock := by
  cases stage with
  | putting => exact ⟨_, h.1⟩
  | waiting => exact ⟨_, h.2⟩
  | blocked => exact ⟨_, h.2.2⟩
  | woken => exact ⟨_, h.2.2⟩

/-- The worker uses the lock of a waiter that cannot have run. -/
theorem Good.fault_touch (h : Good m net₀ s) (hid : id ∈ s.unlocked ++ s.worker.toUnlock)
    (hable : id ∉ s.able) : (s.touch id).fault = false := by
  obtain ⟨t, stage, msg, hpc, rfl, -⟩ := h.waiter hid hable
  obtain ⟨lock, hlock⟩ := (h.ok t stage msg hpc).exists_lock
  simp [State.touch, h.fault, hlock, hable]

theorem good_getBits (h : Good m net₀ s) (hworker : s.worker = .unlocking .getBits msg) :
    Good m net₀ { s.touch msg.lock with worker := .unlocking .resumeAll msg } := by
  obtain ⟨horder, hunlocked, hable, hsuspended⟩ := h.of_worker hworker
  have hnodup := h.nodup_unlocked
  rw [hworker] at hnodup
  have hnot : msg.lock ∉ s.able := by
    intro hmem
    rw [← hable] at hnodup
    exact (List.nodup_append'.mp (List.nodup_append'.mp hnodup).1).2.2 hmem List.mem_cons_self
  have hid : msg.lock ∈ s.unlocked ++ s.worker.toUnlock := by
    rw [← hable]
    exact List.mem_append_left _ (List.mem_append_right _ List.mem_cons_self)
  exact { h with
    toCalls := h.toCalls.frame rfl rfl rfl rfl rfl
    order := horder, unlocked := hunlocked, able := hable, suspended := hsuspended
    fault := h.fault_touch hid hnot }

/-- The scheduler is resumed once and is still held. -/
theorem good_resumeAgain (h : Good m net₀ s) (hworker : s.worker = .unlocking .resumeAgain msg) :
    Good m net₀ { s.resume with worker := .unlocking .getBits msg } := by
  obtain ⟨horder, hunlocked, hable, hsuspended⟩ := h.of_worker hworker
  have hheld : s.suspended - 1 ≠ 0 := by simp [hsuspended, WorkerPc.suspended]
  refine { h with
    toCalls := h.toCalls.frame rfl rfl rfl rfl rfl
    order := horder, unlocked := hunlocked, able := ?_
    suspended := congrArg (· - 1) hsuspended, returned := ?_ }
  · simp only [State.resume, if_neg hheld]
    exact hable
  · simp only [State.resume, if_neg hheld]
    exact h.returned

/-- It is resumed again, and now the waiter can run. -/
theorem good_resumeAll (h : Good m net₀ s) (hworker : s.worker = .unlocking .resumeAll msg) :
    Good m net₀ { s.resume with worker := .polling } := by
  obtain ⟨horder, hunlocked, hable, hsuspended⟩ := h.of_worker hworker
  have hfree : s.suspended - 1 = 0 := by simp [hsuspended, WorkerPc.suspended]
  refine { h with
    toCalls := h.toCalls.frame rfl rfl rfl rfl rfl
    order := horder, unlocked := hunlocked, able := ?_
    suspended := congrArg (· - 1) hsuspended, returned := ?_ }
  · simp [State.resume, hfree, WorkerPc.held]
  · intro msg' hmsg'
    obtain ⟨hqueued, hmem⟩ := h.returned msg' hmsg'
    refine ⟨hqueued, ?_⟩
    change msg'.lock ∈ if s.suspended - 1 = 0 then s.unlocked else s.able
    rw [if_pos hfree, ← hable]
    exact List.mem_append_left _ hmem

/-! ## What it says -/

/-- Messages are processed completely and in the order they were queued; a call that has
returned had its own message processed; the bit of a lock is set once, for its message,
and no lock is used when it is not there, or by the worker when its waiter could have run. -/
structure Served (m : Mongoose) (net₀ : ConfiguredNet) (s : State Thread) : Prop where
  inOrder : ∃ rest, s.queued = s.processed.map (fun p => p.1) ++ rest
  net : s.net = s.processed.foldl (fun net p => p.1.data.process m p.2 net) net₀
  own : (s.queued.map fun msg => msg.lock).Nodup
  returned : ∀ msg ∈ s.returned, msg ∈ s.processed.map (fun p => p.1) ∧ msg.lock ∈ s.unlocked
  once : s.unlocked.Nodup
  answered : s.unlocked ++ s.worker.toUnlock = s.processed.map fun p => p.1.lock
  fault : s.fault = false

theorem Good.served (h : Good m net₀ s) : Served m net₀ s := by
  have hreturned (msg : NetApiEventMessage) (hmsg : msg ∈ s.returned) :
      msg.lock ∈ s.unlocked := by
    rw [← h.able]
    exact List.mem_append_left _ (h.returned msg hmsg).2
  refine ⟨⟨s.worker.pending ++ s.queue, ?_⟩, h.net, h.nodup, fun msg hmsg => ?_, ?_, h.unlocked,
    h.fault⟩
  · rw [← List.append_assoc, h.order]
  · obtain ⟨msg', hmsg', hlock⟩ := h.mem_processed_of_unlocked (hreturned msg hmsg)
    have heq : msg' = msg :=
      List.inj_on_of_nodup_map h.nodup (h.mem_queued_of_processed hmsg')
        (h.returned msg hmsg).1 hlock
    exact ⟨heq ▸ hmsg', hreturned msg hmsg⟩
  · exact (List.nodup_append'.mp h.nodup_unlocked).1

/-! ## Steps of a thread -/

variable [DecidableEq Thread]

/-- A step of one thread that is about one lock, which no other call has. -/
theorem Calls.turn (h : Calls s) (id : ℕ) (pc : Pc)
    (hthreads : s'.threads = Function.update s.threads t pc)
    (hother : ∀ t' stage msg, t' ≠ t → s.threads t' = .calling stage msg → msg.lock ≠ id)
    (hlocks : ∀ id', id' ≠ id → s'.locks id' = s.locks id')
    (hqueued : ∀ msg, msg.lock ≠ id → (msg ∈ s'.queued ↔ msg ∈ s.queued))
    (hunlocked : ∀ id', id' ≠ id → (id' ∈ s'.unlocked ↔ id' ∈ s.unlocked))
    (hnext : s.next ≤ s'.next)
    (hself : ∀ stage msg, pc = .calling stage msg →
      msg.lock = id ∧ id < s'.next ∧ CallOk s' t msg stage) : Calls s' := by
  have hthis (t' : Thread) (ht : t' = t) : s'.threads t' = pc := by
    rw [hthreads, ht, Function.update_self]
  have hthat (t' : Thread) (ht : t' ≠ t) : s'.threads t' = s.threads t' := by
    rw [hthreads, Function.update_of_ne ht]
  refine ⟨fun t' stage msg hpc => ?_, fun t₁ t₂ stage₁ stage₂ msg₁ msg₂ hpc₁ hpc₂ hlock => ?_,
    fun t' stage msg hpc => ?_⟩
  · by_cases ht : t' = t
    · subst ht
      exact (hself stage msg ((hthis t' rfl).symm.trans hpc)).2.2
    · rw [hthat t' ht] at hpc
      have hne := hother t' stage msg ht hpc
      refine (h.ok t' stage msg hpc).frame (hlocks _ hne) (fun msg' heq => ?_) (hunlocked _ hne)
      exact hqueued msg' (heq ▸ hne)
  · by_cases ht₁ : t₁ = t
    · by_cases ht₂ : t₂ = t
      · exact ht₁.trans ht₂.symm
      · rw [hthat t₂ ht₂] at hpc₂
        rw [hthis t₁ ht₁] at hpc₁
        exact absurd (hlock.symm.trans (hself stage₁ msg₁ hpc₁).1) (hother t₂ stage₂ msg₂ ht₂ hpc₂)
    · rw [hthat t₁ ht₁] at hpc₁
      by_cases ht₂ : t₂ = t
      · rw [hthis t₂ ht₂] at hpc₂
        exact absurd (hlock.trans (hself stage₂ msg₂ hpc₂).1) (hother t₁ stage₁ msg₁ ht₁ hpc₁)
      · rw [hthat t₂ ht₂] at hpc₂
        exact h.own t₁ t₂ stage₁ stage₂ msg₁ msg₂ hpc₁ hpc₂ hlock
  · by_cases ht : t' = t
    · rw [hthis t' ht] at hpc
      obtain ⟨hid, hlt, -⟩ := hself stage msg hpc
      exact hid ▸ hlt
    · rw [hthat t' ht] at hpc
      exact Nat.lt_of_lt_of_le (h.fresh t' stage msg hpc) hnext

theorem good_startCall {data : Request} (h : Good m net₀ s)
    (hs : startCall s t data = some s') : Good m net₀ s' := by
  rw [startCall] at hs
  split at hs
  · rename_i hpc
    cases hs
    refine { h with
      toCalls := ?_, freshQueued := fun msg hmsg => ?_, caller := fun msg hmsg => ?_ }
    · refine h.toCalls.turn s.next _ rfl (fun t' stage msg _ hpc' => ?_)
        (fun id hid => ?_) (fun _ _ => Iff.rfl) (fun _ _ => Iff.rfl) (Nat.le_succ _)
        (fun stage msg heq => ?_)
      · exact Nat.ne_of_lt (h.fresh t' stage msg hpc')
      · exact Function.update_of_ne hid ..
      · cases heq
        refine ⟨rfl, Nat.lt_succ_self _, Function.update_self .., fun msg hmsg => ?_⟩
        exact Nat.ne_of_lt (h.freshQueued msg hmsg)
    · exact Nat.lt_succ_of_lt (h.freshQueued msg hmsg)
    · rcases h.caller msg hmsg with hret | ⟨t', stage, hpc'⟩
      · exact .inl hret
      · refine .inr ⟨t', stage, ?_⟩
        have ht : t' ≠ t := by
          intro ht
          rw [ht, hpc] at hpc'
          cases hpc'
        exact (Function.update_of_ne ht ..).trans hpc'
  · cases hs

/-- The caller of a message is still there, or has returned, when a thread goes on. -/
theorem Good.caller_of_turn (h : Good m net₀ s) (hpc : s.threads t = .calling stage msg) {pc : Pc}
    {returned : List NetApiEventMessage}
    (hself : msg ∈ returned ∨ ∃ stage', pc = .calling stage' msg)
    (hreturned : ∀ msg' ∈ s.returned, msg' ∈ returned) :
    ∀ msg' ∈ s.queued,
      msg' ∈ returned ∨ ∃ t' stage', Function.update s.threads t pc t' = .calling stage' msg' := by
  intro msg' hmsg'
  rcases h.caller msg' hmsg' with hret | ⟨t', stage', hpc'⟩
  · exact .inl (hreturned msg' hret)
  · by_cases ht : t' = t
    · rw [ht, hpc] at hpc'
      cases hpc'
      exact hself.imp id fun ⟨stage'', heq⟩ => ⟨t, stage'', by rw [Function.update_self, heq]⟩
    · exact .inr ⟨t', stage', by rw [Function.update_of_ne ht, hpc']⟩

theorem good_put (h : Good m net₀ s) (hpc : s.threads t = .calling .putting msg) :
    Good m net₀ ({ s with queue := s.queue ++ [msg], queued := s.queued ++ [msg] }.goto t
      (.calling .waiting msg)) := by
  obtain ⟨hlock, hnew⟩ := h.ok t .putting msg hpc
  have hlocked : msg.lock ∉ s.unlocked := by
    intro hmem
    obtain ⟨msg', hmsg', heq⟩ := h.mem_processed_of_unlocked hmem
    exact hnew msg' (h.mem_queued_of_processed hmsg') heq
  refine { h with
    toCalls := ?_, order := ?_, nodup := ?_, freshQueued := ?_, caller := ?_, returned := ?_ }
  · refine h.toCalls.turn msg.lock _ rfl (h.toCalls.other hpc) (fun _ _ => rfl)
      (fun msg' hne => ?_) (fun _ _ => Iff.rfl) (Nat.le_refl _) (fun stage msg' heq => ?_)
    · have hmsg : msg' ≠ msg := fun heq => hne (congrArg _ heq)
      simp [State.goto, hmsg]
    · cases heq
      refine ⟨rfl, h.fresh t _ msg hpc, List.mem_append_right _ List.mem_cons_self, ?_⟩
      change s.locks msg.lock = some ⟨if msg.lock ∈ s.unlocked then 1 else 0, []⟩
      rw [if_neg hlocked, hlock]
  · change _ ++ (s.queue ++ [msg]) = s.queued ++ [msg]
    rw [← List.append_assoc]
    exact congrArg (· ++ [msg]) h.order
  · change ((s.queued ++ [msg]).map fun msg => msg.lock).Nodup
    rw [List.map_append]
    refine List.nodup_append'.mpr ⟨h.nodup, List.nodup_singleton _, fun id hid hid' => ?_⟩
    obtain ⟨msg', hmsg', hlock'⟩ := List.mem_map.mp hid
    exact hnew msg' hmsg' (hlock'.trans (List.mem_singleton.mp hid'))
  · intro msg' hmsg'
    rcases List.mem_append.mp hmsg' with hmsg' | hmsg'
    · exact h.freshQueued msg' hmsg'
    · rw [List.mem_singleton.mp hmsg']
      exact h.fresh t _ msg hpc
  · intro msg' hmsg'
    rcases List.mem_append.mp hmsg' with hmsg' | hmsg'
    · exact h.caller_of_turn hpc (.inr ⟨_, rfl⟩) (fun _ hret => hret) msg' hmsg'
    · rw [List.mem_singleton.mp hmsg']
      exact .inr ⟨t, _, Function.update_self ..⟩
  · intro msg' hmsg'
    exact ⟨List.mem_append_left _ (h.returned msg' hmsg').1, (h.returned msg' hmsg').2⟩

theorem good_waitBits (h : Good m net₀ s) (hpc : s.threads t = .calling .waiting msg) :
    Good m net₀ (s.waitBits t msg) := by
  obtain ⟨hmsg, hlock⟩ := h.ok t .waiting msg hpc
  by_cases hunlocked : msg.lock ∈ s.unlocked
  · rw [if_pos hunlocked] at hlock
    have hbits : eventGroupWaitBits apiLockEvent true false 1 = some (1, 0) := by decide
    simp only [State.waitBits, hlock, hbits]
    refine { h with toCalls := ?_, caller := h.caller_of_turn hpc (.inr ⟨_, rfl⟩) fun _ => id }
    refine h.toCalls.turn msg.lock _ rfl (h.toCalls.other hpc)
      (fun id hid => Function.update_of_ne hid ..) (fun _ _ => Iff.rfl) (fun _ _ => Iff.rfl)
      (Nat.le_refl _)
      (fun stage msg' heq => ?_)
    cases heq
    exact ⟨rfl, h.fresh t _ msg hpc, hmsg, hunlocked, Function.update_self ..⟩
  · rw [if_neg hunlocked] at hlock
    have hbits : eventGroupWaitBits apiLockEvent true false 0 = none := by decide
    simp only [State.waitBits, hlock, hbits]
    refine { h with toCalls := ?_, caller := h.caller_of_turn hpc (.inr ⟨_, rfl⟩) fun _ => id }
    refine h.toCalls.turn msg.lock _ rfl (h.toCalls.other hpc)
      (fun id hid => Function.update_of_ne hid ..) (fun _ _ => Iff.rfl) (fun _ _ => Iff.rfl)
      (Nat.le_refl _)
      (fun stage msg' heq => ?_)
    cases heq
    exact ⟨rfl, h.fresh t _ msg hpc, hmsg, hunlocked, Function.update_self ..⟩

theorem good_freeLock (h : Good m net₀ s) (hsuspended : s.suspended = 0)
    (hpc : s.threads t = .calling .woken msg) : Good m net₀ (s.freeLock t msg) := by
  obtain ⟨hmsg, hunlocked, hlock⟩ := h.ok t .woken msg hpc
  refine { h with toCalls := ?_, caller := ?_, returned := ?_, fault := ?_ }
  · exact h.toCalls.turn msg.lock _ rfl (h.toCalls.other hpc)
      (fun id hid => Function.update_of_ne hid ..) (fun _ _ => Iff.rfl) (fun _ _ => Iff.rfl)
      (Nat.le_refl _) nofun
  · exact h.caller_of_turn hpc (.inl (List.mem_append_right _ List.mem_cons_self))
      fun _ hret => List.mem_append_left _ hret
  · intro msg' hmsg'
    rcases List.mem_append.mp hmsg' with hmsg' | hmsg'
    · exact h.returned msg' hmsg'
    · rw [List.mem_singleton.mp hmsg']
      refine ⟨hmsg, ?_⟩
      change msg.lock ∈ s.able
      rwa [h.able_eq hsuspended]
  · change (s.fault || (s.locks msg.lock).isNone) = false
    rw [h.fault, hlock]
    rfl

theorem good_runThread (h : Good m net₀ s) (hsuspended : s.suspended = 0)
    (hs : runThread s t = some s') : Good m net₀ s' := by
  rw [runThread] at hs
  split at hs
  · cases hs
  · rename_i msg hpc
    split at hs
    · cases hs
      exact good_put h hpc
    · cases hs
  · rename_i msg hpc
    cases hs
    exact good_waitBits h hpc
  · cases hs
  · rename_i msg hpc
    cases hs
    exact good_freeLock h hsuspended hpc

/-! ## Steps of the worker -/

theorem setBits_eq {lock : Lock Thread} (hlock : s.locks id = some lock) : s.setBits id =
    { s with
      locks := Function.update s.locks id (some {
        bits := if lock.waiting = [] then eventGroupSetBits lock.bits apiLockEvent
          else eventGroupSetBits lock.bits apiLockEvent &&& ~~~ apiLockEvent
        waiting := [] })
      threads := fun t => if t ∈ lock.waiting then (s.threads t).ready else s.threads t
      unlocked := s.unlocked ++ [id]
      able := if s.suspended = 0 then s.unlocked ++ [id] else s.able } := by
  simp only [State.setBits, hlock]

/-- The bit is set for a waiter that is blocked, or is about to look at it. -/
theorem calls_setBits (h : Calls s) (hpc : s.threads t = .calling stage msg)
    (hqueued : msg ∈ s.queued) (hnot : msg.lock ∉ s.unlocked) :
    Calls (s.setBits msg.lock) := by
  have hok := h.ok t stage msg hpc
  have hmem : msg.lock ∈ s.unlocked ++ [msg.lock] := List.mem_append_right _ List.mem_cons_self
  have hother (id : ℕ) (hid : id ≠ msg.lock) :
      id ∈ s.unlocked ++ [msg.lock] ↔ id ∈ s.unlocked := by
    simp [hid]
  cases stage with
  | putting => exact absurd rfl (hok.2 msg hqueued)
  | waiting =>
      have hlock := hok.2
      rw [if_neg hnot] at hlock
      rw [setBits_eq hlock]
      refine h.turn msg.lock (s.threads t) ?_ (h.other hpc)
        (fun id hid => Function.update_of_ne hid ..) (fun _ _ => Iff.rfl) hother (Nat.le_refl _)
        (fun stage' msg' heq => ?_)
      · exact (Function.update_eq_self t s.threads).symm
      · rw [hpc] at heq
        cases heq
        refine ⟨rfl, h.fresh t _ msg hpc, hqueued, ?_⟩
        have hbits : eventGroupSetBits 0 apiLockEvent = 1 := by decide
        rw [if_pos hmem]
        simp [hbits]
  | blocked =>
      rw [setBits_eq hok.2.2]
      refine h.turn msg.lock (.calling .woken msg) ?_ (h.other hpc)
        (fun id hid => Function.update_of_ne hid ..) (fun _ _ => Iff.rfl) hother (Nat.le_refl _)
        (fun stage' msg' heq => ?_)
      · funext t'
        simp only [List.mem_singleton]
        split
        · rename_i ht
          rw [ht, hpc, Function.update_self]
          rfl
        · rename_i ht
          rw [Function.update_of_ne ht]
      · cases heq
        refine ⟨rfl, h.fresh t _ msg hpc, hqueued, hmem, ?_⟩
        have hbits : eventGroupSetBits 0 apiLockEvent &&& ~~~ apiLockEvent = 0 := by decide
        simp [hbits]
  | woken => exact absurd hok.2.1 hnot

/-- A thread that is made ready is still in its call. -/
theorem ready_calling {pc : Pc} (h : pc = .calling stage msg) :
    ∃ stage', pc.ready = .calling stage' msg := by
  subst h
  cases stage with
  | blocked => exact ⟨.woken, rfl⟩
  | putting => exact ⟨_, rfl⟩
  | waiting => exact ⟨_, rfl⟩
  | woken => exact ⟨_, rfl⟩

theorem good_setBits (h : Good m net₀ s) (hworker : s.worker = .unlocking .setBits msg) :
    Good m net₀ { (s.touch msg.lock).setBits msg.lock with
      worker := .unlocking .resumeAgain msg } := by
  obtain ⟨horder, hunlocked, hable, hsuspended⟩ := h.of_worker hworker
  have hnodup := h.nodup_unlocked
  rw [hworker] at hnodup
  have hnot : msg.lock ∉ s.unlocked := by
    intro hmem
    exact (List.nodup_append'.mp hnodup).2.2 hmem List.mem_cons_self
  have hheld : s.suspended ≠ 0 := by
    simp [hsuspended, WorkerPc.suspended]
  have heq : s.able = s.unlocked := by
    simpa [WorkerPc.held] using hable
  have hid : msg.lock ∈ s.unlocked ++ s.worker.toUnlock := by
    rw [hworker]
    exact List.mem_append_right _ List.mem_cons_self
  have hfault := h.fault_touch hid (heq ▸ hnot)
  obtain ⟨t, stage, msg', hpc, hlock, hqueued⟩ := h.waiter hid (heq ▸ hnot)
  have hcalls : Calls ((s.touch msg.lock).setBits msg.lock) := by
    rw [← hlock] at hnot ⊢
    exact calls_setBits (s := s.touch msg'.lock) (h.toCalls.frame rfl rfl rfl rfl rfl) hpc
      hqueued hnot
  obtain ⟨lock, hsome⟩ := (h.ok t stage msg' hpc).exists_lock
  rw [hlock] at hsome
  rw [setBits_eq (s := s.touch msg.lock) hsome] at hcalls ⊢
  refine { h with
    toCalls := hcalls.frame rfl rfl rfl rfl rfl
    order := horder, unlocked := ?_, able := ?_, suspended := hsuspended
    caller := ?_, returned := ?_, fault := hfault }
  · simpa [State.touch, WorkerPc.toUnlock] using hunlocked
  · simp [State.touch, WorkerPc.held, hheld, heq]
  · intro msg'' hmsg''
    refine (h.caller msg'' hmsg'').imp id fun ⟨t', stage', hpc'⟩ => ?_
    obtain ⟨stage'', hready⟩ := ready_calling hpc'
    by_cases ht : t' ∈ lock.waiting
    · exact ⟨t', stage'', (if_pos ht).trans hready⟩
    · exact ⟨t', stage', (if_neg ht).trans hpc'⟩
  · intro msg'' hmsg''
    simpa [State.touch, hheld] using h.returned msg'' hmsg''

/-- **A step of the worker**. -/
theorem good_runWorker {listens : ℕ → Bool} (h : Good m net₀ s)
    (hs : runWorker m listens s = some s') : Good m net₀ s' := by
  have hcalls (hthreads : s'.threads = s.threads) (hlocks : s'.locks = s.locks)
      (hqueued : s'.queued = s.queued) (hunlocked : s'.unlocked = s.unlocked)
      (hnext : s'.next = s.next) : Calls s' :=
    h.toCalls.frame hthreads hlocks hqueued hunlocked hnext
  rw [runWorker] at hs
  split at hs
  · rename_i hworker
    obtain ⟨horder, hunlocked, hable, hsuspended⟩ := h.of_worker hworker
    split at hs
    · cases hs
    · rename_i msg rest hqueue
      cases hs
      rw [hqueue] at horder
      refine { h with
        toCalls := hcalls rfl rfl rfl rfl rfl
        order := ?_, unlocked := hunlocked, able := hable, suspended := hsuspended }
      simpa [WorkerPc.pending] using horder
  · rename_i msg hworker
    obtain ⟨horder, hunlocked, hable, hsuspended⟩ := h.of_worker hworker
    cases hs
    refine { h with
      toCalls := hcalls rfl rfl rfl rfl rfl
      order := ?_, unlocked := ?_, able := hable, suspended := hsuspended, net := ?_ }
    · simpa [WorkerPc.pending] using horder
    · simpa [WorkerPc.toUnlock] using hunlocked
    · simp [h.net]
  · rename_i msg hworker
    obtain ⟨horder, hunlocked, hable, hsuspended⟩ := h.of_worker hworker
    cases hs
    exact { h with
      toCalls := hcalls rfl rfl rfl rfl rfl
      order := horder, unlocked := hunlocked, able := hable
      suspended := congrArg (· + 1) hsuspended }
  · rename_i msg hworker
    obtain ⟨horder, hunlocked, hable, hsuspended⟩ := h.of_worker hworker
    cases hs
    exact { h with
      toCalls := hcalls rfl rfl rfl rfl rfl
      order := horder, unlocked := hunlocked, able := hable
      suspended := congrArg (· + 1) hsuspended }
  · rename_i msg hworker
    cases hs
    exact good_setBits h hworker
  · rename_i msg hworker
    cases hs
    exact good_resumeAgain h hworker
  · rename_i msg hworker
    cases hs
    exact good_getBits h hworker
  · rename_i msg hworker
    cases hs
    exact good_resumeAll h hworker

theorem good_step {a : Action Thread} (h : Good m net₀ s) (hs : step m s a = some s') :
    Good m net₀ s' := by
  cases a with
  | call t data =>
      rw [step] at hs
      split at hs
      · exact good_startCall h hs
      · cases hs
  | thread t =>
      rw [step] at hs
      split at hs
      · rename_i hsuspended
        exact good_runThread h hsuspended hs
      · cases hs
  | worker listens => exact good_runWorker h hs

/-! ## Runs -/

/-- **No call returns early, and no lock is used late**, in every state reached by any
threads and the worker. -/
theorem served_of_reach (h : Reach (step m) (fun _ _ => True) (State.init net₀) s) :
    Served m net₀ s :=
  (h.invariant (good_init m net₀) fun _ _ _ h _ hs => good_step h hs).served

/-! ## One call -/

/-- A thread stops a listener and blocks, and the worker wakes it up. -/
def oneCallRun : List (Action ℕ) :=
  [.call 7 (.netStopListener "tcp://0.0.0.0:502"), .thread 7, .thread 7] ++
    List.replicate 8 (.worker fun _ => true) ++ [.thread 7]

theorem one_call_served : ∃ s : State ℕ,
    runActions (step port502) (fun _ _ => True) (State.init (startedNet none)) oneCallRun =
      some s ∧ s.returned.map (fun msg => msg.lock) = [0] ∧ Served port502 (startedNet none) s := by
  have hrun : ∃ s : State ℕ, runActions (step port502) (fun _ _ => True)
      (State.init (startedNet none)) oneCallRun = some s ∧
        s.returned.map (fun msg => msg.lock) = [0] := ⟨_, rfl, rfl⟩
  obtain ⟨s, hs, hreturned⟩ := hrun
  exact ⟨s, hs, hreturned, served_of_reach (.of_runActions hs)⟩

end RhsCore.ApiLock
