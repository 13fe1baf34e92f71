import Mathlib.Algebra.Group.Nat.Defs
import Mathlib.Algebra.BigOperators.Group.List.Basic
import RhsCore.Core.Waits

/-!
# When a wait for flags gives up

A notification without the flags that are waited for wakes the wait, and the wait goes on
with what is left of its timeout.  Each update subtracts the ticks since the beginning of
the wait, also those that an earlier update has subtracted.

A wait with a finite timeout gives up too early exactly if an update before the last one
came later than `t0` and the last one before the timeout was over.  A wait forever ends with
a timeout once an update came a number of ticks after `t0` that the counter can tell from 0.

## Main definitions

* `left`, `toutAfter` — the timeout after an update, and after some of them.
* `NeverEarly` — no wait with these updates gives up too early.
* `OnTime` — the timeouts and updates for which this holds.
-/

namespace RhsCore.ThreadFlags

/-! ## What is left of the timeout -/

/-- What an update leaves of the timeout, `td` ticks after `t0`. -/
def left (tout td : UInt32) : UInt32 := if td > tout then 0 else tout - td

/-- What is left after updates that many ticks after `t0`. -/
def toutAfter (timeout : UInt32) (es : List ℕ) : UInt32 :=
  es.foldl (fun tout e => left tout (UInt32.ofNat e)) timeout

/-- The ticks from `t0` to the last update. -/
def lastUpdate (es : List ℕ) : ℕ := es.getLastD 0

theorem toNat_left (tout td : UInt32) : (left tout td).toNat = tout.toNat - td.toNat := by
  rw [left]
  split
  · rename_i h
    have hlt : tout.toNat < td.toNat := h
    exact (Nat.sub_eq_zero_of_le hlt.le).symm
  · rename_i h
    exact UInt32.toNat_sub_of_le _ _ (UInt32.not_lt.mp h)

theorem toNat_toutAfter (timeout : UInt32) (es : List ℕ) :
    (toutAfter timeout es).toNat = timeout.toNat - (es.map (· % 2 ^ 32)).sum := by
  induction es generalizing timeout with
  | nil => simp [toutAfter]
  | cons e es ih =>
      change (toutAfter (left timeout (UInt32.ofNat e)) es).toNat = _
      rw [ih, toNat_left, UInt32.toNat_ofNat', List.map_cons, List.sum_cons, Nat.sub_sub]

theorem toutAfter_concat (timeout : UInt32) (es : List ℕ) (e : ℕ) :
    toutAfter timeout (es ++ [e]) = left (toutAfter timeout es) (UInt32.ofNat e) :=
  List.foldl_concat ..

/-! ## The times of a wait -/

/-- What holds of the times during a wait, `tick` ticks on. -/
structure Times (log : Log) (w : Wait) (tick : ℕ) : Prop where
  valid : ¬ HasFlag w.flags 31
  timeout : w.timeout = log.timeout
  tout : w.tout = toutAfter log.timeout log.wakeups
  called : log.called ≤ log.began
  sorted : log.wakeups.Pairwise (· ≤ ·)
  now : ∀ e ∈ 0 :: log.wakeups, log.began + e ≤ tick

/-- `t0` has been read, and then the kernel's call blocks after the last update, or has
something to take or nothing to wait for. -/
def Placed (s : State) (log : Log) (w : Wait) : Prop :=
  match s.pc with
  | .entered _ => log.wakeups = []
  | .blocked _ since =>
      w.t0 = UInt32.ofNat log.began ∧ ∀ e ∈ 0 :: log.wakeups, log.began + e ≤ since
  | .awake _ => w.t0 = UInt32.ofNat log.began ∧ (s.notify.state = .received ∨ w.tout = 0)
  | _ => w.t0 = UInt32.ofNat log.began

structure Timed (s : State) (log : Log) (w : Wait) : Prop where
  times : Times log w s.tick
  placed : Placed s log w

/-- A wait that gives up does so after the last update and what was left then. -/
def GivesUpAt (r : Return) : Prop :=
  r.log.wakeups.Pairwise (· ≤ ·) ∧ (r.rflags = rhsStatusErrorTimeout →
    toutAfter r.log.timeout r.log.wakeups ≠ portMaxDelay ∧
      r.log.called + lastUpdate r.log.wakeups + (toutAfter r.log.timeout r.log.wakeups).toNat ≤
        r.tick)

theorem Times.later {log : Log} {w : Wait} {tick tick' : ℕ} (h : Times log w tick)
    (hle : tick ≤ tick') : Times log w tick' :=
  { h with now := fun e he => (h.now e he).trans hle }

theorem timed_start (s : State) {flags : UInt32} (options timeout : UInt32)
    (h : ¬ HasFlag flags 31) :
    Timed { s with pc := .entered (.start flags options timeout) }
      (.start s flags options timeout) (.start flags options timeout) := by
  refine ⟨⟨h, rfl, rfl, Nat.le_refl s.tick, .nil, fun e he => ?_⟩, rfl⟩
  obtain rfl := List.mem_singleton.mp he
  exact Nat.le_refl s.tick

theorem tick_of_others {s s' : State} {a : Action} (ha : a.ofOthers = true)
    (hs : step s a = some s') : s.tick ≤ s'.tick := by
  cases a with
  | set flags =>
      rw [← Option.some.inj hs, rhsThreadFlagsSet]
      split
      · exact Nat.le_refl s.tick
      · exact Nat.le_refl s.tick
  | setQuery =>
      obtain ⟨-, hs⟩ := Option.ite_none_right_eq_some.mp hs
      rw [← Option.some.inj hs]
  | tick =>
      rw [← Option.some.inj hs]
      exact Nat.le_succ s.tick
  | wait flags options timeout => cases ha
  | clear flags => cases ha
  | thread => cases ha

theorem Timed.others {s s' : State} {log : Log} {w : Wait} {a : Action} (h : Timed s log w)
    (ha : a.ofOthers = true) (hs : step s a = some s') : Timed s' (log.others a) w := by
  obtain ⟨hpc, -, hpending⟩ := step_of_others ha hs
  have htimes := h.times.later (tick_of_others ha hs)
  refine ⟨⟨htimes.valid, htimes.timeout, htimes.tout, htimes.called, htimes.sorted, htimes.now⟩, ?_⟩
  have hplaced := h.placed
  rw [Placed] at hplaced ⊢
  rw [hpc]
  split at hplaced
  · exact hplaced
  · exact hplaced
  · exact ⟨hplaced.1, hplaced.2.imp_left hpending⟩
  · exact hplaced

/-- `t0` is read. -/
theorem Timed.begin {s : State} {log : Log} {w : Wait} (h : Timed s log w)
    (hpc : s.pc = .entered w) :
    Timed { s with pc := .waiting { w with t0 := s.tickCount } } { log with began := s.tick }
      { w with t0 := s.tickCount } := by
  obtain ⟨htimes, hplaced⟩ := h
  rw [Placed, hpc] at hplaced
  have hbegan : log.began ≤ s.tick := htimes.now 0 List.mem_cons_self
  refine ⟨⟨htimes.valid, htimes.timeout, htimes.tout, htimes.called.trans hbegan, htimes.sorted,
    fun e he => ?_⟩, rfl⟩
  dsimp only at he
  rw [hplaced] at he
  obtain rfl := List.mem_singleton.mp he
  exact Nat.le_refl s.tick

theorem Timed.enter {s : State} {log : Log} {w : Wait} (h : Timed s log w)
    (hpc : s.pc = .waiting w) : Timed (waitEnter s w) log w := by
  obtain ⟨htimes, hplaced⟩ := h
  rw [Placed, hpc] at hplaced
  rw [waitEnter]
  split
  · rename_i hreceived
    exact ⟨htimes, hplaced, .inl hreceived⟩
  · split
    · exact ⟨htimes, hplaced, htimes.now⟩
    · rename_i htout
      refine ⟨htimes, hplaced, .inr ?_⟩
      by_contra hne
      exact htout (UInt32.pos_iff_ne_zero.mpr hne)

theorem Timed.update {s : State} {log : Log} {w : Wait} (h : Timed s log w)
    (hpc : s.pc = .elapsed w) :
    Timed { s with pc := .waiting (updateTimeout w s.tickCount) }
      { log with wakeups := log.wakeups ++ [s.tick - log.began] }
      (updateTimeout w s.tickCount) := by
  obtain ⟨htimes, hplaced⟩ := h
  rw [Placed, hpc] at hplaced
  have hbegan : log.began ≤ s.tick := htimes.now 0 List.mem_cons_self
  refine ⟨⟨htimes.valid, htimes.timeout, ?_, htimes.called, ?_, fun e he => ?_⟩, hplaced⟩
  · rw [toutAfter_concat, ← htimes.tout, UInt32.ofNat_sub hbegan, ← hplaced]
    rfl
  · rw [List.pairwise_append]
    refine ⟨htimes.sorted, List.pairwise_singleton .., fun e he e' he' => ?_⟩
    obtain rfl := List.mem_singleton.mp he'
    have hnow := htimes.now e (List.mem_cons_of_mem 0 he)
    omega
  · rw [← List.cons_append] at he
    rcases List.mem_append.mp he with hold | hnew
    · exact htimes.now e hold
    · obtain rfl := List.mem_singleton.mp hnew
      exact (Nat.add_sub_of_le hbegan).le

theorem Placed.t0 {s : State} {log : Log} {w : Wait} (h : Placed s log w)
    (hinside : s.pc.inside = some w) : w.t0 = UInt32.ofNat log.began := by
  rw [Placed] at h
  cases hpc : s.pc with
  | blocked v since =>
      rw [hpc] at h
      exact h.1
  | awake v =>
      rw [hpc] at h
      exact h.1
  | _ =>
      rw [hpc] at hinside
      cases hinside

theorem waitExit_tick (s : State) (w : Wait) : (waitExit s w).tick = s.tick := by
  rw [waitExit]
  split
  · rfl
  · rfl

/-- A wait goes on after a notification. -/
theorem Timed.after_exit {s : State} {log : Log} {w w' : Wait} (h : Timed s log w)
    (hinside : s.pc.inside = some w) (hw' : (waitExit s w).pc.wait = some w') :
    Timed (waitExit s w) log w' := by
  obtain ⟨hpc, hw'⟩ := waitExit_wait hw'
  have ht0 := h.placed.t0 hinside
  obtain ⟨htimes, -⟩ := h
  rw [hw'] at hpc ⊢
  refine ⟨⟨htimes.valid, htimes.timeout, htimes.tout, htimes.called, htimes.sorted, ?_⟩, ?_⟩
  · rw [waitExit_tick]
    exact htimes.now
  · rw [Placed, hpc]
    exact ht0

/-- The error of a timeout is not a word of flags. -/
theorem not_timeout_of_matching {w : Wait} {nval : UInt32} {rflags : UInt32}
    (hflags : ¬ HasFlag w.flags 31) (hnval : ¬ HasFlag nval 31)
    (h : onNotification w nval = .idle (some rflags)) : rflags ≠ rhsStatusErrorTimeout := by
  rw [onNotification] at h
  split at h
  · obtain rfl := Option.some.inj (Pc.idle.inj h)
    intro htimeout
    have h31 : HasFlag rhsStatusErrorTimeout 31 := by decide
    rw [← htimeout, hasFlag_or, hasFlag_and] at h31
    rcases h31 with hold | hnew
    · exact hflags hold.2
    · exact hnval hnew
  · split at h
    · obtain rfl := Option.some.inj (Pc.idle.inj h)
      decide
    · cases h

/-- Without a notification, the kernel's call takes as long as it was given. -/
theorem Timed.given_up {s : State} {log : Log} {w : Wait} (h : Timed s log w)
    (hnone : s.notify.state ≠ .received)
    (hover : ∀ since, s.pc = .blocked w since → timedOut w since s.tick = true)
    (hinside : s.pc.inside = some w) :
    toutAfter log.timeout log.wakeups ≠ portMaxDelay ∧
      log.called + lastUpdate log.wakeups + (toutAfter log.timeout log.wakeups).toNat ≤ s.tick := by
  obtain ⟨htimes, hplaced⟩ := h
  have hlast : lastUpdate log.wakeups ∈ 0 :: log.wakeups := List.getLastD_mem_cons
  have hcalled := htimes.called
  rw [← htimes.tout]
  rw [Placed] at hplaced
  cases hpc : s.pc with
  | blocked v since =>
      rw [hpc] at hplaced hinside
      obtain rfl : v = w := Option.some.inj hinside
      have hafter := hplaced.2 _ hlast
      obtain ⟨hmax, htimeout⟩ := Bool.and_eq_true_iff.mp (hover since hpc)
      have htimeout := of_decide_eq_true htimeout
      exact ⟨of_decide_eq_true hmax, by omega⟩
  | awake v =>
      rw [hpc] at hplaced
      have htout : w.tout = 0 := hplaced.2.resolve_left hnone
      have hnow := htimes.now _ hlast
      rw [htout]
      refine ⟨by decide, ?_⟩
      rw [UInt32.toNat_zero]
      omega
  | _ =>
      rw [hpc] at hinside
      cases hinside

/-- Waits keep what holds of their times, and give up in time. -/
theorem timed_rule : WaitRule Timed GivesUpAt where
  call := fun s _ options timeout hflags => timed_start s options timeout hflags
  others := fun _ _ _ _ _ h ha hs => h.others ha hs
  begin := fun _ _ _ h hpc => h.begin hpc
  enter := fun _ _ _ h hpc => h.enter hpc
  exit := fun _ _ _ h hinside _ hw' => h.after_exit hinside hw'
  update := fun _ _ _ h hpc => h.update hpc
  returned := by
    intro s log w hvalid h hinside hwake r hr
    obtain ⟨-, hpc, hlog, htick, -⟩ := mem_returned hr
    rw [GivesUpAt, hlog, htick, waitExit_tick]
    refine ⟨h.times.sorted, fun htimeout => ?_⟩
    rcases waitExit_cases s w with ⟨-, hexit⟩ | ⟨hnone, hexit⟩
    · rw [hexit] at hpc
      exact absurd htimeout (not_timeout_of_matching h.times.valid hvalid.value hpc)
    · refine h.given_up hnone (fun since hblocked => ?_) hinside
      exact (hwake since hblocked).resolve_left hnone

/-- **Every wait that gives up** does so after the last update and what was left then. -/
theorem timed_of_reach {o : Observed} (h : Reach observe (fun _ _ => True) Observed.init o) :
    (∀ w, o.state.pc.wait = some w → Timed o.state o.log w) ∧ ∀ r ∈ o.returns, GivesUpAt r :=
  timed_rule.invariant h

/-! ## The timeouts that are kept -/

/-- The timeouts and updates with which no wait gives up too early. -/
def OnTime (timeout : UInt32) (es : List ℕ) : Prop :=
  if timeout = rhsWaitForever then ∀ e ∈ es, e % 2 ^ 32 = 0
  else (∀ e ∈ es.dropLast, e = 0) ∨ timeout.toNat ≤ lastUpdate es

/-- No wait with this timeout and these updates gives up before its timeout is over, or at
all if it waits forever. -/
def NeverEarly (timeout : UInt32) (es : List ℕ) : Prop :=
  ∀ o, Reach observe (fun _ _ => True) Observed.init o → ∀ r ∈ o.returns,
    r.log.timeout = timeout → r.log.wakeups = es → r.rflags = rhsStatusErrorTimeout →
      timeout ≠ rhsWaitForever ∧ timeout.toNat ≤ r.tick - r.log.called

theorem toutAfter_eq_forever_iff (es : List ℕ) :
    toutAfter rhsWaitForever es = portMaxDelay ↔ ∀ e ∈ es, e % 2 ^ 32 = 0 := by
  have hsum : (es.map (· % 2 ^ 32)).sum = 0 ↔ ∀ e ∈ es, e % 2 ^ 32 = 0 := by
    rw [List.sum_eq_zero_iff_forall_eq_nat]
    simp
  rw [← hsum, ← UInt32.toNat_inj, toNat_toutAfter]
  have hforever : rhsWaitForever.toNat = 2 ^ 32 - 1 := rfl
  have hmax : portMaxDelay.toNat = 2 ^ 32 - 1 := rfl
  omega

/-- Only a wait forever has all of it left. -/
theorem eq_forever_of_toutAfter {timeout : UInt32} {es : List ℕ}
    (h : toutAfter timeout es = portMaxDelay) : timeout = rhsWaitForever := by
  rw [← UInt32.toNat_inj, toNat_toutAfter] at h
  rw [← UInt32.toNat_inj]
  have hforever : rhsWaitForever.toNat = 2 ^ 32 - 1 := rfl
  have hmax : portMaxDelay.toNat = 2 ^ 32 - 1 := rfl
  have hlt : timeout.toNat < 2 ^ 32 := timeout.toNat_lt
  omega

/-- The sum of the updates is not taken modulo `2 ^ 32` if the last one is in range. -/
theorem sum_mod_eq {es : List ℕ} (h : ∀ e ∈ es, e < 2 ^ 32) :
    (es.map (· % 2 ^ 32)).sum = es.sum := by
  rw [List.map_congr_left fun e he => Nat.mod_eq_of_lt (h e he), List.map_id']

/-- A finite timeout is kept if the last update and what was left then make it up. -/
theorem onTime_iff {timeout : UInt32} {es : List ℕ} (hfinite : timeout ≠ rhsWaitForever)
    (hsorted : es.Pairwise (· ≤ ·)) :
    OnTime timeout es ↔
      timeout.toNat ≤ lastUpdate es + (toutAfter timeout es).toNat := by
  rw [OnTime, if_neg hfinite, toNat_toutAfter]
  rcases List.eq_nil_or_concat es with rfl | ⟨init, e, rfl⟩
  · simp [lastUpdate]
  · have hlt : timeout.toNat < 2 ^ 32 := timeout.toNat_lt
    rw [List.concat_eq_append] at hsorted ⊢
    have hlast : lastUpdate (init ++ [e]) = e := List.getLastD_concat
    rw [List.dropLast_concat, hlast]
    have hinit : ∀ e' ∈ init, e' ≤ e := by
      intro e' he'
      exact (List.pairwise_append.mp hsorted).2.2 e' he' e (List.mem_singleton_self e)
    by_cases hle : timeout.toNat ≤ e
    · exact iff_of_true (.inr hle) (by omega)
    · have hrange : ∀ e' ∈ init ++ [e], e' < 2 ^ 32 := by
        intro e' he'
        rcases List.mem_append.mp he' with hold | hnew
        · have hle' := hinit e' hold
          omega
        · obtain rfl := List.mem_singleton.mp hnew
          omega
      rw [sum_mod_eq hrange, List.sum_append, List.sum_singleton,
        ← List.sum_eq_zero_iff_forall_eq_nat]
      omega

/-! ## Waits that give up too early -/

/-- A run can be continued and observed. -/
theorem Observed.next {o : Observed} {a : Action} {s' : State}
    (h : Reach observe (fun _ _ => True) Observed.init o) (hs : step o.state a = some s') :
    ∃ o', Reach observe (fun _ _ => True) Observed.init o' ∧ o'.state = s' ∧
      o'.log = o.log.next o.state a ∧
        ∀ r ∈ (o.log.next o.state a).returned o.state s', r ∈ o'.returns := by
  have hobserve : observe o a = some
      { state := s'
        log := o.log.next o.state a
        returns := o.returns ++ (o.log.next o.state a).returned o.state s' } := by
    rw [observe, hs]
    rfl
  exact ⟨_, h.next trivial hobserve, rfl, rfl, fun r hr => List.mem_append_right _ hr⟩

/-- Some ticks pass. -/
theorem Observed.ticks {o : Observed} (h : Reach observe (fun _ _ => True) Observed.init o)
    (n : ℕ) :
    ∃ o', Reach observe (fun _ _ => True) Observed.init o' ∧
      o'.state = { o.state with tick := o.state.tick + n } ∧ o'.log = o.log := by
  induction n with
  | zero => exact ⟨o, h, rfl, rfl⟩
  | succ n ih =>
      obtain ⟨mid, hmid, hstate, hlog⟩ := ih
      obtain ⟨o', ho', hstate', hlog', -⟩ := Observed.next (a := .tick) hmid rfl
      refine ⟨o', ho', ?_, ?_⟩
      · rw [hstate', hstate]
        rfl
      · rw [hlog', hlog]
        simp [Log.next, Log.others, Action.flags, Action.notifies]

/-- A wait for flag 0 is before the kernel's call, after updates that found only flag 1. -/
structure Ready (timeout : UInt32) (es : List ℕ) (o : Observed) (w : Wait) : Prop where
  reach : Reach observe (fun _ _ => True) Observed.init o
  pc : o.state.pc = .waiting w
  wait : w = { Wait.start 1 rhsFlagWaitAny timeout with
    rflags := w.rflags, tout := w.tout, t0 := w.t0 }
  rflags : w.rflags = 0 ∨ w.rflags = 2
  value : o.state.notify.value = 0 ∨ o.state.notify.value = 2
  state : o.state.notify.state ≠ .received
  tick : o.state.tick = lastUpdate es
  log : o.log = { Log.start .init 1 rhsFlagWaitAny timeout with
    meanwhile := o.log.meanwhile, notified := o.log.notified, wakeups := es }

theorem ready_nil (timeout : UInt32) :
    Ready timeout []
      { state := { State.init with pc := .waiting (.start 1 rhsFlagWaitAny timeout) }
        log := .start .init 1 rhsFlagWaitAny timeout
        returns := [] }
      (.start 1 rhsFlagWaitAny timeout) where
  reach := by
    have hcalled : Reach observe (fun _ _ => True) Observed.init _ :=
      Reach.start.next (a := .wait 1 rhsFlagWaitAny timeout) trivial rfl
    exact hcalled.next (a := .thread) trivial rfl
  pc := rfl
  wait := rfl
  rflags := .inl rfl
  value := .inl rfl
  state := nofun
  tick := rfl
  log := rfl

/-- The loop goes on after flag 1. -/
theorem onNotification_flag_one {timeout : UInt32} {w : Wait} {nval : UInt32}
    (hwait : w = { Wait.start 1 rhsFlagWaitAny timeout with
      rflags := w.rflags, tout := w.tout, t0 := w.t0 })
    (htimeout : timeout ≠ 0) (hrflags : w.rflags = 0 ∨ w.rflags = 2)
    (hnval : nval = 0 ∨ nval = 2) :
    onNotification w (nval ||| 2) = .elapsed { w with rflags := 2 } := by
  have hflags : w.flags = 1 := by rw [hwait]; rfl
  have hoptions : w.options = rhsFlagWaitAny := by rw [hwait]; rfl
  have hwtimeout : w.timeout = timeout := by rw [hwait]; rfl
  have hbits : w.rflags &&& w.flags ||| (nval ||| 2) = 2 := by
    rw [hflags]
    rcases hrflags with hr | hr <;> rcases hnval with hn | hn <;> rw [hr, hn] <;> rfl
  have hmatching : matching w.flags w.options 2 = false := by
    rw [hflags, hoptions]
    rfl
  rw [onNotification, hbits, hmatching]
  simp only [Bool.false_eq_true, if_false, hwtimeout, if_neg htimeout]

/-- The wait takes flag 1, and is before the update of its timeout. -/
theorem Ready.notified {timeout : UInt32} {es : List ℕ} {o : Observed} {w : Wait}
    (h : Ready timeout es o w) (htimeout : timeout ≠ 0) :
    ∃ o', Reach observe (fun _ _ => True) Observed.init o' ∧
      o'.state.pc = .elapsed { w with rflags := 2 } ∧ o'.state.notify.value = 2 ∧
        o'.state.notify.state ≠ .received ∧ o'.state.tick = lastUpdate es ∧
          o'.log = { Log.start .init 1 rhsFlagWaitAny timeout with
            meanwhile := o'.log.meanwhile, notified := o'.log.notified, wakeups := es } := by
  obtain ⟨o₁, h₁, hs₁, hl₁, -⟩ := Observed.next (a := .set 2) h.reach rfl
  have hpc₁ : o₁.state.pc = .waiting w := by
    rw [hs₁]
    exact h.pc
  have hnotify₁ : o₁.state.notify =
      { value := o.state.notify.value ||| 2, state := .received } := by
    rw [hs₁]
    rfl
  have hlog₁ : o₁.log = { Log.start .init 1 rhsFlagWaitAny timeout with
      meanwhile := o₁.log.meanwhile, notified := o₁.log.notified, wakeups := es } := by
    rw [hl₁, h.log]
    rfl
  have henter : step o₁.state .thread = some (waitEnter o₁.state w) := by
    rw [step, thread, hpc₁]
  obtain ⟨o₂, h₂, hs₂, hl₂, -⟩ := Observed.next h₁ henter
  rw [waitEnter, hnotify₁, if_pos rfl] at hs₂
  have hexit : step o₂.state .thread = some (waitExit o₂.state w) := by
    rw [step, thread, hs₂]
  obtain ⟨o₃, h₃, hs₃, hl₃, -⟩ := Observed.next h₂ hexit
  rw [waitExit, hs₂, if_pos rfl] at hs₃
  refine ⟨o₃, h₃, ?_, ?_, ?_, ?_, ?_⟩
  · rw [hs₃]
    exact onNotification_flag_one h.wait htimeout h.rflags h.value
  · have hclear : w.clear = 1 := by rw [h.wait]; rfl
    rw [hs₃, hclear]
    change (o.state.notify.value ||| 2) &&& ~~~ (1 : UInt32) = 2
    rcases h.value with hvalue | hvalue
    · rw [hvalue]
      decide
    · rw [hvalue]
      decide
  · rw [hs₃]
    simp
  · rw [hs₃, hs₁]
    exact h.tick
  · rw [hl₃, Log.next, Log.thread, hs₂, hl₂, Log.next, Log.thread, hpc₁]
    exact hlog₁

/-- Another update can follow, at any later tick. -/
theorem Ready.update {timeout : UInt32} {es : List ℕ} {o : Observed} {w : Wait}
    (h : Ready timeout es o w) (htimeout : timeout ≠ 0) {e : ℕ} (he : lastUpdate es ≤ e) :
    ∃ o' w', Ready timeout (es ++ [e]) o' w' := by
  obtain ⟨o₁, h₁, hpc₁, hvalue₁, hstate₁, htick₁, hlog₁⟩ := h.notified htimeout
  obtain ⟨o₂, h₂, hs₂, hl₂⟩ := Observed.ticks h₁ (e - lastUpdate es)
  have htick₂ : o₂.state.tick = e := by
    rw [hs₂, htick₁]
    exact Nat.add_sub_of_le he
  have hpc₂ : o₂.state.pc = .elapsed { w with rflags := 2 } := by
    rw [hs₂]
    exact hpc₁
  obtain ⟨o₃, h₃, hs₃, hl₃, -⟩ := Observed.next (a := .thread) h₂ (by rw [step, thread, hpc₂])
  refine ⟨o₃, updateTimeout { w with rflags := 2 } o₂.state.tickCount, h₃, ?_, ?_, .inr rfl,
    .inr ?_, ?_, ?_, ?_⟩
  · rw [hs₃]
  · rw [h.wait]
    rfl
  · rw [hs₃, hs₂]
    exact hvalue₁
  · rw [hs₃, hs₂]
    exact hstate₁
  · rw [hs₃, lastUpdate, List.getLastD_concat]
    exact htick₂
  · rw [hl₃, Log.next, Log.thread, hpc₂, hl₂, hlog₁, htick₂]
    rfl

/-- Without another notification, its timeout passes. -/
theorem Ready.waited {timeout : UInt32} {es : List ℕ} {o : Observed} {w : Wait}
    (h : Ready timeout es o w) :
    ∃ o', Reach observe (fun _ _ => True) Observed.init o' ∧
      o'.state.notify.state ≠ .received ∧
      o'.state.pc = (if w.tout > 0 then .blocked w o.state.tick else .awake w) ∧
      o'.state.tick = o.state.tick + w.tout.toNat ∧
      o'.log = { Log.start .init 1 rhsFlagWaitAny timeout with
        meanwhile := o.log.meanwhile, notified := o.log.notified, wakeups := es } := by
  have henter : step o.state .thread = some (waitEnter o.state w) := by
    rw [step, thread, h.pc]
  obtain ⟨o₁, h₁, hs₁, hl₁, -⟩ := Observed.next h.reach henter
  obtain ⟨o₂, h₂, hs₂, hl₂⟩ := Observed.ticks h₁ w.tout.toNat
  rw [waitEnter, if_neg h.state] at hs₁
  refine ⟨o₂, h₂, ?_, ?_, ?_, ?_⟩
  · rw [hs₂, hs₁]
    simp
  · rw [hs₂, hs₁]
  · rw [hs₂, hs₁]
  · rw [hl₂, hl₁, Log.next, Log.thread, h.pc]
    exact h.log

/-- And it gives up. -/
theorem Ready.gives_up {timeout : UInt32} {es : List ℕ} {o : Observed} {w : Wait}
    (h : Ready timeout es o w) (htimeout : timeout ≠ 0)
    (hfinite : toutAfter timeout es ≠ portMaxDelay) :
    ∃ o', Reach observe (fun _ _ => True) Observed.init o' ∧ ∃ r ∈ o'.returns,
      r.log.timeout = timeout ∧ r.log.wakeups = es ∧ r.log.called = 0 ∧
        r.rflags = rhsStatusErrorTimeout ∧
          r.tick = lastUpdate es + (toutAfter timeout es).toNat := by
  have htout : w.tout = toutAfter timeout es := by
    have htimed := ((timed_of_reach h.reach).1 w (by rw [h.pc]; rfl)).times.tout
    rw [h.log] at htimed
    exact htimed
  obtain ⟨o₂, h₂, hstate₂, hpc₂, htick₂, hlog₂⟩ := h.waited
  have hinside : o₂.state.pc.inside = some w := by
    rw [hpc₂]
    split
    · rfl
    · rfl
  have hover : timedOut w o.state.tick o₂.state.tick = true := by
    rw [timedOut, Bool.and_eq_true_iff, htick₂]
    refine ⟨decide_eq_true ?_, decide_eq_true (Nat.le_refl _)⟩
    rw [htout]
    exact hfinite
  have hstep : step o₂.state .thread = some (waitExit o₂.state w) := by
    by_cases hpos : w.tout > 0
    · rw [if_pos hpos] at hpc₂
      rw [step, thread, hpc₂]
      exact if_pos (.inr hover)
    · rw [if_neg hpos] at hpc₂
      rw [step, thread, hpc₂]
  have hpc₃ : (waitExit o₂.state w).pc = .idle (some rhsStatusErrorTimeout) := by
    have hwtimeout : w.timeout = timeout := by rw [h.wait]; rfl
    rw [waitExit, if_neg hstate₂, onNothing, hwtimeout, if_neg htimeout]
  obtain ⟨o₃, h₃, -, -, hr₃⟩ := Observed.next h₂ hstep
  rw [Log.next, log_thread_of_inside _ (by simp [hinside]), Log.returned, hinside, hpc₃] at hr₃
  refine ⟨o₃, h₃, _, hr₃ _ (List.mem_singleton_self _), ?_, ?_, ?_, rfl, ?_⟩
  · rw [hlog₂]
    rfl
  · rw [hlog₂]
  · rw [hlog₂]
    rfl
  · rw [waitExit_tick, htick₂, h.tick, htout]

/-- Any updates that come in order can come. -/
theorem exists_ready {timeout : UInt32} (htimeout : timeout ≠ 0) {es : List ℕ}
    (h : es.Pairwise (· ≤ ·)) : ∃ o w, Ready timeout es o w := by
  induction es using List.reverseRecOn with
  | nil => exact ⟨_, _, ready_nil timeout⟩
  | append_singleton es e ih =>
      obtain ⟨hes, -, hle⟩ := List.pairwise_append.mp h
      obtain ⟨o, w, hready⟩ := ih hes
      refine hready.update htimeout ?_
      rcases List.eq_nil_or_concat es with rfl | ⟨init, e', rfl⟩
      · exact Nat.zero_le e
      · rw [List.concat_eq_append] at hle ⊢
        rw [lastUpdate, List.getLastD_concat]
        exact hle e' (by simp) e (List.mem_singleton_self e)

/-- **A wait never gives up too early** exactly if its updates leave it its timeout. -/
theorem neverEarly_iff (timeout : UInt32) (es : List ℕ) :
    NeverEarly timeout es ↔ (es.Pairwise (· ≤ ·) → OnTime timeout es) := by
  constructor
  · intro hnever hsorted
    by_cases htimeout : timeout = 0
    · rw [OnTime, if_neg (by rw [htimeout]; decide), htimeout]
      exact .inr (Nat.zero_le _)
    by_cases hforever : toutAfter timeout es = portMaxDelay
    · obtain rfl := eq_forever_of_toutAfter hforever
      rw [OnTime, if_pos rfl]
      exact (toutAfter_eq_forever_iff es).mp hforever
    · obtain ⟨o, w, hready⟩ := exists_ready htimeout hsorted
      obtain ⟨o', ho', r, hr, hrtimeout, hwakeups, hcalled, hrflags, htick⟩ :=
        hready.gives_up htimeout hforever
      obtain ⟨hfinite, hle⟩ := hnever o' ho' r hr hrtimeout hwakeups hrflags
      rw [onTime_iff hfinite hsorted, ← htick]
      rwa [hcalled, Nat.sub_zero] at hle
  · intro hontime o ho r hr hrtimeout hwakeups hrflags
    obtain ⟨hsorted, hgives⟩ := (timed_of_reach ho).2 r hr
    obtain ⟨hmax, hle⟩ := hgives hrflags
    rw [hrtimeout, hwakeups] at hmax hle
    rw [hwakeups] at hsorted
    have hontime := hontime hsorted
    have hfinite : timeout ≠ rhsWaitForever := by
      rintro rfl
      rw [OnTime, if_pos rfl] at hontime
      exact hmax ((toutAfter_eq_forever_iff es).mpr hontime)
    rw [onTime_iff hfinite hsorted] at hontime
    exact ⟨hfinite, by omega⟩

/-- With a timeout of 10, flag 1 is set after 4 ticks and flag 2 after 5. -/
def earlyRun : List Action :=
  [.wait 1 rhsFlagWaitAny 10, .thread, .thread, .tick, .tick, .tick, .tick, .set 2, .thread,
    .thread, .thread, .tick, .set 4, .thread, .thread, .thread, .tick, .thread]

/-- The wait for flag 0 gives up after 6 ticks. -/
theorem timeout_too_early : ¬ NeverEarly 10 [4, 5] := by
  intro h
  have hrun : runActions observe (fun _ _ => True) Observed.init earlyRun = some _ := rfl
  have hlate := (h _ (.of_runActions hrun) _ (List.mem_singleton_self _) rfl rfl rfl).2
  exact absurd hlate (by decide)

end RhsCore.ThreadFlags
