import RhsCore.Core.PendingFlags

/-!
# What a wait for flags takes with it

Each notification that a wait takes clears the flags it waits for, and only the wait
remembers them.  A wait that gives up forgets them.

`base.h` has flags cleared after a successful wait.  A wait for all flags that ends with an
error has consumed none exactly if it clears none, there was no notification, or none of
the flags it waits for was set.

## Main definitions

* `Log` — what has happened since a wait was called.
* `Observed`, `observe` — the thread, with the logs of the waits that have returned.
* `Log.word` — the flags that are left.
-/

namespace RhsCore.ThreadFlags

/-! ## Waits that are observed -/

/-- What has happened since a wait was called. -/
structure Log where
  flags : UInt32
  options : UInt32
  timeout : UInt32
  /-- The flags at the call, and those that others have set since. -/
  value : UInt32
  meanwhile : UInt32
  /-- Whether a notification was pending at the call, or has come since. -/
  notified : Bool
  /-- The ticks of the call and of `t0`, and those from `t0` to each update of the timeout. -/
  called : ℕ
  began : ℕ
  wakeups : List ℕ
  deriving DecidableEq, Repr

/-- A wait that has returned: its log, its result, and the tick and the flags then. -/
structure Return where
  log : Log
  rflags : UInt32
  tick : ℕ
  word : UInt32
  deriving DecidableEq, Repr

/-- The thread, the log of its last wait, and the waits that have returned. -/
structure Observed where
  state : State
  log : Log
  returns : List Return
  deriving DecidableEq, Repr

/-- The log of a wait that is called now. -/
def Log.start (s : State) (flags options timeout : UInt32) : Log where
  flags := flags
  options := options
  timeout := timeout
  value := s.notify.value
  meanwhile := 0
  notified := s.notify.state = .received
  called := s.tick
  began := s.tick
  wakeups := []

def Observed.init : Observed where
  state := .init
  log := .start .init 0 0 0
  returns := []

/-- The action makes a notification pending. -/
def Action.notifies : Action → Bool
  | .set flags => flags &&& threadFlagsInvalidBits = 0
  | .setQuery => true
  | .tick => false
  | .wait _ _ _ => false
  | .clear _ => false
  | .thread => false

/-- What others do. -/
def Log.others (log : Log) (a : Action) : Log :=
  { log with meanwhile := log.meanwhile ||| a.flags, notified := log.notified || a.notifies }

/-- What a step of the thread adds to the log. -/
def Log.thread (log : Log) (s : State) : Log :=
  match s.pc with
  | .entered _ => { log with began := s.tick }
  | .elapsed _ => { log with wakeups := log.wakeups ++ [s.tick - log.began] }
  | _ => log

/-- What an action adds to it. -/
def Log.next (log : Log) (s : State) : Action → Log
  | .wait flags options timeout => .start s flags options timeout
  | .thread => log.thread s
  | .set flags => log.others (.set flags)
  | .setQuery => log.others .setQuery
  | .tick => log.others .tick
  | .clear flags => log.others (.clear flags)

/-- The variables of the wait that is in `xTaskNotifyWaitIndexed`. -/
def Pc.inside : Pc → Option Wait
  | .blocked w _ => some w
  | .awake w => some w
  | _ => none

/-- What a step from `s` to `s'` returns from a wait. -/
def Log.returned (log : Log) (s s' : State) : List Return :=
  match s.pc.inside, s'.pc with
  | some _, .idle (some rflags) =>
      [{ log := log, rflags := rflags, tick := s'.tick, word := s'.notify.value }]
  | _, _ => []

/-- An action, observed. -/
def observe (o : Observed) (a : Action) : Option Observed :=
  (step o.state a).map fun s' =>
    let log := o.log.next o.state a
    { state := s', log := log, returns := o.returns ++ log.returned o.state s' }

/-! ## The steps of a wait -/

/-- The variables of the wait that is under way. -/
def Pc.wait : Pc → Option Wait
  | .entered w => some w
  | .waiting w => some w
  | .blocked w _ => some w
  | .awake w => some w
  | .elapsed w => some w
  | _ => none

/-- A wait goes on or ends in what the loop does with the notification. -/
theorem waitExit_cases (s : State) (w : Wait) :
    (s.notify.state = .received ∧
      waitExit s w =
        { s with
          notify := { value := s.notify.value &&& ~~~ w.clear, state := .notWaiting }
          pc := onNotification w s.notify.value }) ∨
      (s.notify.state ≠ .received ∧
        waitExit s w =
          { s with notify := { s.notify with state := .notWaiting }, pc := onNothing w }) := by
  rw [waitExit]
  split
  · exact .inl ⟨‹_›, rfl⟩
  · exact .inr ⟨‹_›, rfl⟩

theorem waitEnter_wait (s : State) (w : Wait) : (waitEnter s w).pc.wait = some w := by
  rw [waitEnter]
  split
  · rfl
  · dsimp only
    split
    · rfl
    · rfl

/-- What a step returns is the log as it is then. -/
theorem mem_returned {log : Log} {s s' : State} {r : Return} (hr : r ∈ log.returned s s') :
    s.pc.inside ≠ none ∧ s'.pc = .idle (some r.rflags) ∧ r.log = log ∧ r.tick = s'.tick ∧
      r.word = s'.notify.value := by
  rw [Log.returned] at hr
  split at hr
  · rename_i w rflags hinside hpc
    obtain rfl := List.mem_singleton.mp hr
    rw [hinside]
    exact ⟨nofun, hpc, rfl, rfl, rfl⟩
  · cases hr

/-- Nothing returns where no wait was in the kernel's call. -/
theorem returned_of_not_inside {s : State} (log : Log) (s' : State) (h : s.pc.inside = none) :
    log.returned s s' = [] := by
  rw [Log.returned, h]

theorem returned_of_pc_eq {s s' : State} (log : Log) (h : s'.pc = s.pc) :
    log.returned s s' = [] := by
  rw [Log.returned, h]
  cases s.pc with
  | _ => rfl

theorem wait_eq_none {pc : Pc} (h : pc.wait = none) : pc.inside = none := by
  cases pc with
  | blocked w since => cases h
  | awake w => cases h
  | _ => rfl

/-- A step outside of a wait does not begin one. -/
theorem wait_eq_none_of_thread {s s' : State} (hw : s.pc.wait = none)
    (hs : thread s = some s') : s'.pc.wait = none := by
  rw [ThreadFlags.thread] at hs
  cases hpc : s.pc with
  | idle result =>
      rw [hpc] at hs
      cases hs
  | querying flags =>
      rw [hpc] at hs
      exact Option.some.inj hs ▸ rfl
  | overwriting flags cflags =>
      rw [hpc] at hs
      exact Option.some.inj hs ▸ rfl
  | _ =>
      rw [hpc] at hw
      cases hw

theorem log_thread_of_inside {s : State} (log : Log) (h : s.pc.inside ≠ none) :
    log.thread s = log := by
  rw [Log.thread]
  split
  · rename_i w hpc
    rw [hpc] at h
    exact absurd rfl h
  · rename_i w hpc
    rw [hpc] at h
    exact absurd rfl h
  · rfl

/-- What is to be shown of waits: `P` holds when one is called and is kept by others and by each
step, and `Q` holds when it returns. -/
structure WaitRule (P : State → Log → Wait → Prop) (Q : Return → Prop) : Prop where
  call : ∀ s flags options timeout, ¬ HasFlag flags 31 →
    P { s with pc := .entered (.start flags options timeout) }
      (.start s flags options timeout) (.start flags options timeout)
  others : ∀ s s' log w a, P s log w → a.ofOthers = true → step s a = some s' →
    P s' (log.others a) w
  begin : ∀ s log w, P s log w → s.pc = .entered w →
    P { s with pc := .waiting { w with t0 := s.tickCount } } { log with began := s.tick }
      { w with t0 := s.tickCount }
  enter : ∀ s log w, P s log w → s.pc = .waiting w → P (waitEnter s w) log w
  exit : ∀ s log w, P s log w → s.pc.inside = some w →
    ∀ w', (waitExit s w).pc.wait = some w' → P (waitExit s w) log w'
  update : ∀ s log w, P s log w → s.pc = .elapsed w →
    P { s with pc := .waiting (updateTimeout w s.tickCount) }
      { log with wakeups := log.wakeups ++ [s.tick - log.began] } (updateTimeout w s.tickCount)
  returned : ∀ s log w, Valid s → P s log w → s.pc.inside = some w →
    (∀ since, s.pc = .blocked w since →
      s.notify.state = .received ∨ timedOut w since s.tick = true) →
    ∀ r ∈ log.returned s (waitExit s w), Q r

namespace WaitRule

variable {P : State → Log → Wait → Prop} {Q : Return → Prop}

/-- The kernel's call ends. -/
theorem exits (rule : WaitRule P Q) {s : State} {log : Log} {w : Wait} (hvalid : Valid s)
    (h : P s log w) (hinside : s.pc.inside = some w)
    (hwake : ∀ since, s.pc = .blocked w since →
      s.notify.state = .received ∨ timedOut w since s.tick = true) :
    (∀ w', (waitExit s w).pc.wait = some w' → P (waitExit s w) (log.thread s) w') ∧
      ∀ r ∈ (log.thread s).returned s (waitExit s w), Q r := by
  rw [log_thread_of_inside log (by simp [hinside])]
  exact ⟨rule.exit s log w h hinside, rule.returned s log w hvalid h hinside hwake⟩

/-- **A step of a wait** keeps `P`, and returns with `Q`. -/
theorem thread (rule : WaitRule P Q) {s s' : State} {log : Log} {w : Wait} (hvalid : Valid s)
    (h : P s log w) (hw : s.pc.wait = some w) (hs : thread s = some s') :
    (∀ w', s'.pc.wait = some w' → P s' (log.thread s) w') ∧
      ∀ r ∈ (log.thread s).returned s s', Q r := by
  have hgoes : s.pc.inside = none → (∀ w', s'.pc.wait = some w' → P s' (log.thread s) w') →
      (∀ w', s'.pc.wait = some w' → P s' (log.thread s) w') ∧
        ∀ r ∈ (log.thread s).returned s s', Q r := by
    intro hinside hkept
    refine ⟨hkept, fun r hr => ?_⟩
    rw [returned_of_not_inside _ _ hinside] at hr
    cases hr
  rw [ThreadFlags.thread] at hs
  cases hpc : s.pc with
  | entered v =>
      rw [hpc] at hs hw
      obtain rfl := Option.some.inj hw
      obtain rfl := Option.some.inj hs
      refine hgoes (by simp [hpc, Pc.inside]) fun w' hw' => ?_
      obtain rfl := Option.some.inj hw'
      rw [Log.thread, hpc]
      exact rule.begin s log v h hpc
  | waiting v =>
      rw [hpc] at hs hw
      obtain rfl := Option.some.inj hw
      obtain rfl := Option.some.inj hs
      refine hgoes (by simp [hpc, Pc.inside]) fun w' hw' => ?_
      rw [waitEnter_wait] at hw'
      obtain rfl := Option.some.inj hw'
      rw [Log.thread, hpc]
      exact rule.enter s log v h hpc
  | blocked v since =>
      rw [hpc] at hs hw
      obtain rfl := Option.some.inj hw
      obtain ⟨hwake, hs⟩ := Option.ite_none_right_eq_some.mp hs
      obtain rfl := Option.some.inj hs
      refine rule.exits hvalid h (by simp [hpc, Pc.inside]) fun since' hpc' => ?_
      rw [hpc] at hpc'
      obtain ⟨-, rfl⟩ := Pc.blocked.inj hpc'
      exact hwake
  | awake v =>
      rw [hpc] at hs hw
      obtain rfl := Option.some.inj hw
      obtain rfl := Option.some.inj hs
      refine rule.exits hvalid h (by simp [hpc, Pc.inside]) fun since hpc' => ?_
      rw [hpc] at hpc'
      cases hpc'
  | elapsed v =>
      rw [hpc] at hs hw
      obtain rfl := Option.some.inj hw
      obtain rfl := Option.some.inj hs
      refine hgoes (by simp [hpc, Pc.inside]) fun w' hw' => ?_
      obtain rfl := Option.some.inj hw'
      rw [Log.thread, hpc]
      exact rule.update s log v h hpc
  | _ =>
      rw [hpc] at hw
      cases hw

/-- Others keep `P`. -/
theorem by_others (rule : WaitRule P Q) {s s' : State} {log : Log} {a : Action}
    (ha : a.ofOthers = true) (h : ∀ w, s.pc.wait = some w → P s log w)
    (hs : step s a = some s') :
    (∀ w, s'.pc.wait = some w → P s' (log.others a) w) ∧
      ∀ r ∈ (log.others a).returned s s', Q r := by
  obtain ⟨hpc, -⟩ := step_of_others ha hs
  constructor
  · intro w hw
    rw [hpc] at hw
    exact rule.others s s' log w a (h w hw) ha hs
  · intro r hr
    rw [returned_of_pc_eq _ hpc] at hr
    cases hr

/-- **An action** keeps `P` of the wait that is under way, and a wait that it ends has `Q`. -/
theorem action (rule : WaitRule P Q) {s s' : State} {log : Log} {a : Action} (hvalid : Valid s)
    (h : ∀ w, s.pc.wait = some w → P s log w) (hs : step s a = some s') :
    (∀ w, s'.pc.wait = some w → P s' (log.next s a) w) ∧
      ∀ r ∈ (log.next s a).returned s s', Q r := by
  have hnothing : s.pc.inside = none → ∀ r ∈ (log.next s a).returned s s', Q r := by
    intro hinside r hr
    rw [returned_of_not_inside _ _ hinside] at hr
    cases hr
  cases a with
  | set flags => exact rule.by_others rfl h hs
  | setQuery => exact rule.by_others rfl h hs
  | tick => exact rule.by_others rfl h hs
  | wait flags options timeout =>
      simp only [step] at hs
      split at hs
      · rename_i result hpc
        refine ⟨fun w hw => ?_, hnothing (by rw [hpc]; rfl)⟩
        have hs := Option.some.inj hs
        by_cases hflags : flags &&& threadFlagsInvalidBits = 0
        · rw [rhsThreadFlagsWait_eq _ options timeout hflags] at hs
          subst hs
          obtain rfl := Option.some.inj hw
          exact rule.call s flags options timeout (and_invalid_eq_zero_iff.mp hflags)
        · rw [rhsThreadFlagsWait, if_pos hflags] at hs
          subst hs
          cases hw
      · cases hs
  | clear flags =>
      simp only [step] at hs
      split at hs
      · rename_i result hpc
        refine ⟨fun w hw => ?_, hnothing (by rw [hpc]; rfl)⟩
        have hs := Option.some.inj hs
        rw [rhsThreadFlagsClear] at hs
        split at hs
        · subst hs
          cases hw
        · subst hs
          cases hw
      · cases hs
  | thread =>
      cases hwait : s.pc.wait with
      | none =>
          refine ⟨fun w hw => ?_, hnothing (wait_eq_none hwait)⟩
          rw [wait_eq_none_of_thread hwait hs] at hw
          cases hw
      | some w => exact rule.thread hvalid (h w hwait) hwait hs

/-- **The invariant rule for waits**: in every run, `P` holds of the wait that is under way,
and `Q` of all that have returned. -/
theorem invariant (rule : WaitRule P Q) {o : Observed}
    (h : Reach observe (fun _ _ => True) Observed.init o) :
    (∀ w, o.state.pc.wait = some w → P o.state o.log w) ∧ ∀ r ∈ o.returns, Q r := by
  have hall : Valid o.state ∧ (∀ w, o.state.pc.wait = some w → P o.state o.log w) ∧
      ∀ r ∈ o.returns, Q r := by
    apply h.invariant ⟨valid_init, by simp [Observed.init, State.init, Pc.wait],
      by simp [Observed.init]⟩
    rintro o a o' ⟨hvalid, hlog, hreturns⟩ - hs
    obtain ⟨s', hs', rfl⟩ := Option.map_eq_some_iff.mp hs
    obtain ⟨hnext, hreturned⟩ := rule.action hvalid hlog hs'
    refine ⟨hvalid.step hs', hnext, fun r hr => ?_⟩
    rcases List.mem_append.mp hr with hold | hnew
    · exact hreturns r hold
    · exact hreturned r hnew
  exact hall.2

end WaitRule

/-! ## The flags that are left -/

/-- The flags at the call and those that others have set since. -/
def Log.all (log : Log) : UInt32 := log.value ||| log.meanwhile

/-- The flags that a notification clears. -/
def Log.clear (log : Log) : UInt32 :=
  if log.options &&& rhsFlagNoClear = rhsFlagNoClear then 0 else log.flags

/-- The flags that are left once the wait has taken every notification. -/
def Log.word (log : Log) : UInt32 :=
  if log.notified then log.all &&& ~~~ log.clear else log.all

/-- What holds of the flags during a wait: those it does not clear are there, and once no
notification is pending, those it clears are not. -/
structure Logged (s : State) (log : Log) (w : Wait) : Prop where
  options : w.options = log.options
  timeout : w.timeout = log.timeout
  clear : w.clear = log.clear
  kept : s.notify.value &&& ~~~ log.clear = log.all &&& ~~~ log.clear
  notified : s.notify.state = .received → log.notified = true
  taken : s.notify.state ≠ .received → s.notify.value = log.word

theorem logged_start (s : State) (flags options timeout : UInt32) :
    Logged { s with pc := .entered (.start flags options timeout) }
      (.start s flags options timeout) (.start flags options timeout) where
  options := rfl
  timeout := rfl
  clear := rfl
  kept := by simp [Log.all, Log.start]
  notified := by
    intro h
    exact decide_eq_true h
  taken := by
    intro h
    simp [Log.word, Log.all, Log.start, h]

/-- The notifications of others. -/
theorem notified_by_others {s s' : State} {a : Action} (ha : a.ofOthers = true)
    (hs : step s a = some s') :
    if a.notifies then s'.notify.state = .received
    else s'.notify.state = s.notify.state ∧ a.flags = 0 := by
  cases a with
  | set flags =>
      rw [← Option.some.inj hs, rhsThreadFlagsSet]
      by_cases hvalid : flags &&& threadFlagsInvalidBits = 0
      · simp [Action.notifies, hvalid, Notify.notify]
      · simp [Action.notifies, Action.flags, hvalid]
  | setQuery =>
      obtain ⟨-, hs⟩ := Option.ite_none_right_eq_some.mp hs
      rw [← Option.some.inj hs]
      rfl
  | tick =>
      rw [← Option.some.inj hs]
      exact ⟨rfl, rfl⟩
  | wait flags options timeout => cases ha
  | clear flags => cases ha
  | thread => cases ha

theorem Logged.others {s s' : State} {log : Log} {w : Wait} {a : Action} (h : Logged s log w)
    (ha : a.ofOthers = true) (hs : step s a = some s') : Logged s' (log.others a) w := by
  obtain ⟨-, hvalue, hpending⟩ := step_of_others ha hs
  have hnotify := notified_by_others ha hs
  have hkept : s'.notify.value &&& ~~~ log.clear =
      (log.others a).all &&& ~~~ (log.others a).clear := by
    have hall : (log.others a).all = log.all ||| a.flags := (UInt32.or_assoc _ _ _).symm
    change _ = (log.others a).all &&& ~~~ log.clear
    rw [hvalue, hall, or_and_not, or_and_not, h.kept]
  refine ⟨h.options, h.timeout, h.clear, hkept, fun hreceived => ?_, fun hnone => ?_⟩
  · split at hnotify
    · rename_i hnotifies
      simp [Log.others, hnotifies]
    · rw [hnotify.1] at hreceived
      simp [Log.others, h.notified hreceived]
  · split at hnotify
    · exact absurd hnotify hnone
    · rename_i hnotifies
      rw [hnotify.1] at hnone
      rw [hvalue, h.taken hnone, hnotify.2]
      simp [Log.word, Log.all, Log.others, Log.clear, hnotify.2, hnotifies]

/-- The wait has taken a notification, or none was pending: what is left. -/
theorem Logged.exit {s : State} {log : Log} {w : Wait} (h : Logged s log w) :
    (waitExit s w).notify.value = log.word ∧ (waitExit s w).notify.state = .notWaiting := by
  rcases waitExit_cases s w with ⟨hreceived, hexit⟩ | ⟨hnone, hexit⟩
  · rw [hexit, Log.word, if_pos (h.notified hreceived), ← h.kept, h.clear]
    exact ⟨rfl, rfl⟩
  · rw [hexit]
    exact ⟨h.taken hnone, rfl⟩

/-- Changing where the wait is changes nothing of its flags. -/
theorem Logged.goto {s s' : State} {log log' : Log} {w w' : Wait} (h : Logged s log w)
    (hvalue : s'.notify.value = s.notify.value)
    (hstate : s'.notify.state = .received ↔ s.notify.state = .received)
    (hlog : log' = { log with began := log'.began, wakeups := log'.wakeups })
    (hw : w' = { w with rflags := w'.rflags, tout := w'.tout, t0 := w'.t0 }) :
    Logged s' log' w' := by
  rw [hlog, hw]
  refine ⟨h.options, h.timeout, h.clear, ?_, fun hreceived => ?_, fun hnone => ?_⟩
  · rw [hvalue]
    exact h.kept
  · exact h.notified (hstate.mp hreceived)
  · rw [hvalue]
    exact h.taken (fun hreceived => hnone (hstate.mpr hreceived))

theorem waitEnter_value (s : State) (w : Wait) :
    (waitEnter s w).notify.value = s.notify.value := by
  rw [waitEnter]
  split
  · rfl
  · rfl

theorem waitEnter_received_iff (s : State) (w : Wait) :
    (waitEnter s w).notify.state = .received ↔ s.notify.state = .received := by
  rw [waitEnter]
  split
  · rfl
  · rename_i hnone
    exact iff_of_false (by simp) hnone

/-- A wait that goes on after a notification has only noted its flags. -/
theorem onNotification_wait {w w' : Wait} {nval : UInt32}
    (h : (onNotification w nval).wait = some w') :
    onNotification w nval = .elapsed w' ∧ w' = { w with rflags := w'.rflags } ∧
      w.timeout ≠ 0 := by
  simp only [onNotification] at h ⊢
  split at h
  · cases h
  · rename_i hmatching
    split at h
    · cases h
    · rename_i htimeout
      obtain rfl := Option.some.inj h
      rw [if_neg hmatching, if_neg htimeout]
      exact ⟨rfl, rfl, htimeout⟩

theorem waitExit_wait {s : State} {w w' : Wait} (h : (waitExit s w).pc.wait = some w') :
    (waitExit s w).pc = .elapsed w' ∧ w' = { w with rflags := w'.rflags } := by
  rcases waitExit_cases s w with ⟨-, hexit⟩ | ⟨-, hexit⟩
  · rw [hexit] at h ⊢
    obtain ⟨hpc, hw', -⟩ := onNotification_wait h
    exact ⟨hpc, hw'⟩
  · rw [hexit] at h
    cases h

theorem Logged.after_exit {s : State} {log : Log} {w w' : Wait} (h : Logged s log w)
    (hw' : (waitExit s w).pc.wait = some w') : Logged (waitExit s w) log w' := by
  obtain ⟨hvalue, hstate⟩ := h.exit
  obtain ⟨-, hw'⟩ := waitExit_wait hw'
  rw [hw']
  refine ⟨h.options, h.timeout, h.clear, ?_, fun hreceived => ?_, fun _ => hvalue⟩
  · rw [hvalue]
    rw [Log.word]
    split
    · rw [UInt32.and_assoc, UInt32.and_self]
    · rfl
  · rw [hstate] at hreceived
    cases hreceived

/-- Waits keep what holds of their flags, and return with what is left. -/
theorem logged_rule : WaitRule Logged fun r => r.word = r.log.word where
  call := fun s flags options timeout _ => logged_start s flags options timeout
  others := fun _ _ _ _ _ h ha hs => h.others ha hs
  begin := fun _ _ _ h _ => h.goto rfl .rfl rfl rfl
  enter := fun s _ w h _ => h.goto (waitEnter_value s w) (waitEnter_received_iff s w) rfl rfl
  exit := fun _ _ _ h _ _ hw' => h.after_exit hw'
  update := fun _ _ _ h _ => h.goto rfl .rfl rfl rfl
  returned := by
    intro s log w _ h _ _ r hr
    obtain ⟨-, -, hlog, -, hword⟩ := mem_returned hr
    rw [hword, hlog]
    exact h.exit.1

/-- **Every wait** returns with what is left of the flags. -/
theorem returned_word {o : Observed} (h : Reach observe (fun _ _ => True) Observed.init o) :
    ∀ r ∈ o.returns, r.word = r.log.word := (logged_rule.invariant h).2

/-! ## What an error has consumed -/

theorem Log.word_eq_all_iff (log : Log) :
    log.word = log.all ↔
      log.options &&& rhsFlagNoClear = rhsFlagNoClear ∨ log.notified = false ∨
        log.flags &&& log.all = 0 := by
  by_cases hnotified : log.notified = true
  · by_cases hclear : log.options &&& rhsFlagNoClear = rhsFlagNoClear
    · simp [Log.word, Log.clear, hclear]
    · have hword : log.word = log.all &&& ~~~ log.flags := by
        rw [Log.word, if_pos hnotified, Log.clear, if_neg hclear]
      simp only [hclear, hnotified, false_or, Bool.true_eq_false]
      rw [hword]
      exact and_not_eq_left_iff
  · simp [Log.word, hnotified]

/-- The wait was for all flags, and ended with an error. -/
def Return.FailedAll (r : Return) : Prop :=
  r.log.options &&& rhsFlagWaitAll = rhsFlagWaitAll ∧
    (r.rflags = rhsStatusErrorTimeout ∨ r.rflags = rhsStatusErrorResource)

/-- **A wait for all flags that fails** has consumed none exactly if it clears none, there
was no notification, or none of the flags it waits for was set. -/
theorem consumed_none_iff {o : Observed}
    (h : Reach observe (fun _ _ => True) Observed.init o) :
    ∀ r ∈ o.returns, r.FailedAll →
      (r.word = r.log.value ||| r.log.meanwhile ↔
        r.log.options &&& rhsFlagNoClear = rhsFlagNoClear ∨ r.log.notified = false ∨
          r.log.flags &&& (r.log.value ||| r.log.meanwhile) = 0) := by
  intro r hr _
  rw [returned_word h r hr]
  exact r.log.word_eq_all_iff

/-- Flag 0 comes and flag 1 does not. -/
def partialRun (options : UInt32) : List Action :=
  [.wait 3 options 2, .thread, .thread, .set 1, .setQuery, .thread, .thread, .thread, .tick,
    .tick, .thread]

/-- The wait for both gives up, and flag 0 is gone. -/
theorem flag_lost_on_timeout :
    ∃ o, runActions observe (fun _ _ => True) Observed.init (partialRun rhsFlagWaitAll) = some o ∧
      ∃ r ∈ o.returns, r.FailedAll ∧ r.log.value ||| r.log.meanwhile = 1 ∧ r.word = 0 :=
  ⟨_, rfl, _, List.mem_singleton_self _, ⟨rfl, .inl rfl⟩, rfl, rfl⟩

/-- A wait that does not clear leaves it. -/
theorem flag_kept_on_timeout :
    ∃ o, runActions observe (fun _ _ => True) Observed.init
        (partialRun (rhsFlagWaitAll ||| rhsFlagNoClear)) = some o ∧
      ∃ r ∈ o.returns, r.FailedAll ∧ r.word = r.log.value ||| r.log.meanwhile := by
  have hrun : runActions observe (fun _ _ => True) Observed.init
      (partialRun (rhsFlagWaitAll ||| rhsFlagNoClear)) = some _ := rfl
  refine ⟨_, hrun, _, List.mem_singleton_self _, ⟨rfl, .inl rfl⟩, ?_⟩
  exact (consumed_none_iff (.of_runActions hrun) _ (List.mem_singleton_self _)
    ⟨rfl, .inl rfl⟩).mpr (.inl rfl)

end RhsCore.ThreadFlags
