import RhsCore.Core.ThreadFlags

/-!
# What a wait and a clear see of the flags

A flag that is set need not be pending: a wait for other flags has taken the notification
it came with.  A later wait for that flag sleeps although the flag is set; it returns at
once exactly if a notification is pending.

A clear reads the flags and writes them back.  What is set between the two calls is
overwritten; nothing is lost exactly if it was set before the first of them as well.

## Main definitions

* `Meanwhile` — what others can do while the thread takes no step.
* `ReturnsWithin` — a call returns after so many steps of its own, and never sleeps.
* `clearRun` — a clear with the actions of others between its steps.
-/

namespace RhsCore.ThreadFlags

/-! ## No flag word looks like an error -/

theorem hasFlag_threadFlagsInvalidBits {i : ℕ} : HasFlag threadFlagsInvalidBits i ↔ i = 31 := by
  by_cases hi : i < 32
  · revert i
    decide
  · have hout : ¬ HasFlag threadFlagsInvalidBits i := by
      simp [HasFlag, BitVec.getLsbD_of_ge _ _ (Nat.not_lt.mp hi)]
    constructor
    · intro h
      exact absurd h hout
    · omega

/-- The invalid bits are those of an error. -/
theorem and_invalid_eq_zero_iff {flags : UInt32} :
    flags &&& threadFlagsInvalidBits = 0 ↔ ¬ HasFlag flags 31 := by
  rw [← not_iff_not, not_not]
  constructor
  · intro h
    obtain ⟨i, hi, hinvalid⟩ := and_ne_zero_iff.mp h
    rwa [hasFlag_threadFlagsInvalidBits.mp hinvalid] at hi
  · intro h
    exact and_ne_zero_iff.mpr ⟨31, h, hasFlag_threadFlagsInvalidBits.mpr rfl⟩

/-- Neither the flags nor the copy a clear holds has the bit of an error. -/
structure Valid (s : State) : Prop where
  value : ¬ HasFlag s.notify.value 31
  copy : ∀ flags cflags, s.pc = .overwriting flags cflags → ¬ HasFlag cflags 31

theorem valid_init : Valid State.init where
  value := not_hasFlag_zero
  copy := by
    intro flags cflags h
    cases h

/-- A step to a place that holds no copy need only keep the flags valid. -/
theorem Valid.of_value {s : State} (hvalue : ¬ HasFlag s.notify.value 31)
    (hpc : ∀ flags cflags, s.pc ≠ .overwriting flags cflags) : Valid s :=
  ⟨hvalue, fun flags cflags h => absurd h (hpc flags cflags)⟩

theorem Valid.waitExit {s : State} (h : Valid s) (w : Wait) : Valid (waitExit s w) := by
  rw [ThreadFlags.waitExit]
  split
  · apply Valid.of_value
    · rw [hasFlag_and_not]
      exact fun hi => h.value hi.1
    · intro flags cflags
      simp only [onNotification]
      split_ifs <;> simp
  · exact .of_value h.value (by simp [onNothing])

theorem Valid.thread {s s' : State} (h : Valid s) (hs : thread s = some s') : Valid s' := by
  rw [ThreadFlags.thread] at hs
  split at hs
  · cases hs
  · rw [← Option.some.inj hs]
    exact .of_value h.value (by simp)
  · rename_i w _
    rw [← Option.some.inj hs, waitEnter]
    split
    · exact .of_value h.value (by simp)
    · refine .of_value h.value fun flags cflags => ?_
      dsimp only
      split_ifs <;> simp
  · rename_i w since _
    obtain ⟨-, hs⟩ := Option.ite_none_right_eq_some.mp hs
    exact Option.some.inj hs ▸ h.waitExit w
  · rename_i w _
    exact Option.some.inj hs ▸ h.waitExit w
  · rw [← Option.some.inj hs]
    exact .of_value h.value (by simp)
  · rw [← Option.some.inj hs]
    refine ⟨h.value, fun flags cflags hpc => ?_⟩
    obtain ⟨-, rfl⟩ := Pc.overwriting.inj hpc
    exact h.value
  · rename_i flags cflags hpc
    rw [← Option.some.inj hs]
    refine .of_value (fun hi => ?_) (by simp)
    exact h.copy flags cflags hpc (hasFlag_and_not.mp hi).1

theorem Valid.step {s s' : State} {a : Action} (h : Valid s) (hs : step s a = some s') :
    Valid s' := by
  cases a with
  | set flags =>
      rw [← Option.some.inj hs, rhsThreadFlagsSet]
      split
      · exact h
      · rename_i hvalid
        refine ⟨fun hi => ?_, h.copy⟩
        rcases hasFlag_or.mp hi with hold | hnew
        · exact h.value hold
        · exact and_invalid_eq_zero_iff.mp (not_not.mp hvalid) hnew
  | setQuery =>
      obtain ⟨-, hs⟩ := Option.ite_none_right_eq_some.mp hs
      exact Option.some.inj hs ▸ ⟨h.value, h.copy⟩
  | tick => exact Option.some.inj hs ▸ ⟨h.value, h.copy⟩
  | wait flags options timeout =>
      simp only [ThreadFlags.step] at hs
      split at hs
      · rw [← Option.some.inj hs, rhsThreadFlagsWait]
        split <;> exact .of_value h.value (by simp)
      · cases hs
  | clear flags =>
      simp only [ThreadFlags.step] at hs
      split at hs
      · rw [← Option.some.inj hs, rhsThreadFlagsClear]
        split <;> exact .of_value h.value (by simp)
      · cases hs
  | thread => exact h.thread hs

theorem valid_of_reach {s : State} (h : Reach step (fun _ _ => True) State.init s) : Valid s := by
  apply h.invariant valid_init
  intro s a s' hv _ hs
  exact hv.step hs

/-! ## Others meanwhile -/

/-- What others leave of the thread and its notification. -/
structure Meanwhile (s s' : State) : Prop where
  pc : s'.pc = s.pc
  value : ∀ i, HasFlag s.notify.value i → HasFlag s'.notify.value i
  pending : s.notify.state = .received → s'.notify.state = .received
  valid : Valid s → Valid s'

/-- **One action of others**: the thread stays where it is, and its flags are added to. -/
theorem step_of_others {s s' : State} {a : Action} (ha : a.ofOthers = true)
    (hs : step s a = some s') :
    s'.pc = s.pc ∧ s'.notify.value = s.notify.value ||| a.flags ∧
      (s.notify.state = .received → s'.notify.state = .received) := by
  cases a with
  | set flags =>
      rw [← Option.some.inj hs, rhsThreadFlagsSet, Action.flags]
      split
      · exact ⟨rfl, by simp, id⟩
      · exact ⟨rfl, rfl, fun _ => rfl⟩
  | setQuery =>
      obtain ⟨-, hs⟩ := Option.ite_none_right_eq_some.mp hs
      rw [← Option.some.inj hs]
      exact ⟨rfl, by simp [Notify.notify, Action.flags], fun _ => rfl⟩
  | tick =>
      rw [← Option.some.inj hs]
      exact ⟨rfl, by simp [Action.flags], id⟩
  | wait flags options timeout => cases ha
  | clear flags => cases ha
  | thread => cases ha

theorem meanwhile_of_reach {s s' : State}
    (h : Reach step (fun _ a => a.ofOthers = true) s s') : Meanwhile s s' := by
  apply h.invariant
  · exact ⟨rfl, fun _ => id, id, id⟩
  · intro mid a next hmid ha hs
    obtain ⟨hpc, hvalue, hpending⟩ := step_of_others ha hs
    refine ⟨hpc.trans hmid.pc, fun i hi => ?_, fun hr => hpending (hmid.pending hr),
      fun hv => (hmid.valid hv).step hs⟩
    rw [hvalue, hasFlag_or]
    exact .inl (hmid.value i hi)

/-! ## Waiting for flags that are set -/

/-- The thread is suspended. -/
def Pc.isBlocked : Pc → Bool
  | .blocked _ _ => true
  | _ => false

/-- Whatever others do in between, the call returns after `n` steps of its own with a result
in `P`, and never sleeps. -/
def ReturnsWithin (P : UInt32 → Prop) : ℕ → State → Prop
  | 0, s => ∃ r, s.pc = .idle (some r) ∧ P r
  | n + 1, s => ∀ mid, Reach step (fun _ a => a.ofOthers = true) s mid →
      mid.pc.isBlocked = false ∧ ∃ s', thread mid = some s' ∧ ReturnsWithin P n s'

/-- The call returns at once, without an error, with what was asked for. -/
def ReturnsAtOnce (flags options : UInt32) (s : State) : Prop :=
  ∃ n, ReturnsWithin (fun r => r &&& rhsFlagError = 0 ∧ matching flags options r = true) n s

/-- What is asked for stays there when more flags are set. -/
theorem matching_mono {flags options bits bits' : UInt32}
    (h : matching flags options bits = true) (hmore : ∀ i, HasFlag bits i → HasFlag bits' i) :
    matching flags options bits' = true := by
  rw [matching] at h ⊢
  split at h
  · rename_i hall
    rw [if_pos hall]
    rw [decide_eq_true_eq, and_eq_left_iff] at h ⊢
    exact fun i hi => hmore i (h i hi)
  · rename_i hany
    rw [if_neg hany]
    rw [decide_eq_true_eq, and_ne_zero_iff] at h ⊢
    obtain ⟨i, hi, hbits⟩ := h
    exact ⟨i, hi, hmore i hbits⟩

/-- The variables of a wait that has just been called. -/
def Wait.start (flags options timeout : UInt32) : Wait :=
  { flags := flags
    options := options
    timeout := timeout
    clear := if options &&& rhsFlagNoClear = rhsFlagNoClear then 0 else flags
    rflags := 0
    tout := timeout
    t0 := 0 }

theorem rhsThreadFlagsWait_eq (s : State) {flags : UInt32} (options timeout : UInt32)
    (h : flags &&& threadFlagsInvalidBits = 0) :
    rhsThreadFlagsWait s flags options timeout =
      { s with pc := .entered (.start flags options timeout) } := by
  rw [rhsThreadFlagsWait, if_neg (not_not.mpr h)]
  rfl

/-- The first notification ends the wait if it has what is asked for. -/
theorem onNotification_of_matching {w : Wait} {nval : UInt32} (hfirst : w.rflags = 0)
    (h : matching w.flags w.options nval = true) : onNotification w nval = .idle (some nval) := by
  have hrflags : (w.rflags &&& w.flags) ||| nval = nval := by simp [hfirst]
  rw [onNotification, hrflags]
  exact if_pos h

/-- With a notification pending, the wait takes it and returns the flags. -/
theorem returnsAtOnce_of_received {s : State} {flags options : UInt32} (timeout : UInt32)
    (hv : Valid s) (hset : matching flags options s.notify.value = true)
    (hflags : flags &&& threadFlagsInvalidBits = 0) (hpending : s.notify.state = .received) :
    ReturnsAtOnce flags options (rhsThreadFlagsWait s flags options timeout) := by
  rw [rhsThreadFlagsWait_eq s options timeout hflags]
  refine ⟨3, fun mid₁ h₁ => ?_⟩
  have hmid₁ := meanwhile_of_reach h₁
  refine ⟨by rw [hmid₁.pc]; rfl, _, by rw [thread, hmid₁.pc], fun mid₂ h₂ => ?_⟩
  have hmid₂ := meanwhile_of_reach h₂
  have hpending₂ := hmid₂.pending (hmid₁.pending hpending)
  refine ⟨by rw [hmid₂.pc]; rfl, _, by rw [thread, hmid₂.pc], fun mid₃ h₃ => ?_⟩
  rw [waitEnter, if_pos hpending₂] at h₃
  have hmid₃ := meanwhile_of_reach h₃
  refine ⟨by rw [hmid₃.pc]; rfl, _, by rw [thread, hmid₃.pc], mid₃.notify.value, ?_, ?_, ?_⟩
  · rw [waitExit, if_pos (hmid₃.pending hpending₂)]
    apply onNotification_of_matching rfl
    apply matching_mono hset
    intro i hi
    exact hmid₃.value i (hmid₂.value i (hmid₁.value i hi))
  · have hstart : Valid { s with pc := .entered (.start flags options timeout) } :=
      .of_value hv.value (by simp)
    have hone : Valid mid₁ := hmid₁.valid hstart
    have htwo : Valid mid₂ := hmid₂.valid (.of_value hone.value (by simp))
    have hthree : Valid mid₃ := hmid₃.valid (.of_value htwo.value (by simp))
    exact and_invalid_eq_zero_iff.mpr hthree.value
  · apply matching_mono hset
    intro i hi
    exact hmid₃.value i (hmid₂.value i (hmid₁.value i hi))

/-- A call that is under way is not asleep and takes its next step, even when left alone. -/
theorem ReturnsWithin.next {P : UInt32 → Prop} {n : ℕ} {s : State} (h : ReturnsWithin P n s)
    (hpc : ∀ r, s.pc ≠ .idle r) :
    s.pc.isBlocked = false ∧ ∃ m s', thread s = some s' ∧ ReturnsWithin P m s' := by
  cases n with
  | zero =>
      obtain ⟨r, hr, -⟩ := h
      exact absurd hr (hpc _)
  | succ n =>
      obtain ⟨hblocked, s', hs', hrest⟩ := h s .start
      exact ⟨hblocked, n, s', hs', hrest⟩

/-- A call that is over has returned what was wanted. -/
theorem ReturnsWithin.result {P : UInt32 → Prop} {n : ℕ} {s : State} {r : UInt32}
    (h : ReturnsWithin P n s) (hpc : s.pc = .idle (some r)) : P r := by
  cases n with
  | zero =>
      obtain ⟨r', hr', hP⟩ := h
      rw [hpc] at hr'
      cases hr'
      exact hP
  | succ n =>
      obtain ⟨-, s', hs', -⟩ := h s .start
      rw [thread, hpc] at hs'
      cases hs'

/-- Without one, it sleeps, or returns an error if it may not, even when it is left alone. -/
theorem not_returnsAtOnce_of_not_received {s : State} {flags options : UInt32}
    (timeout : UInt32) (hflags : flags &&& threadFlagsInvalidBits = 0)
    (hpending : s.notify.state ≠ .received) :
    ¬ ReturnsAtOnce flags options (rhsThreadFlagsWait s flags options timeout) := by
  rw [rhsThreadFlagsWait_eq s options timeout hflags]
  rintro ⟨n, h⟩
  obtain ⟨-, n₁, s₁, hs₁, h⟩ := h.next (by simp)
  obtain rfl := Option.some.inj hs₁
  obtain ⟨-, n₂, s₂, hs₂, h⟩ := h.next (by simp)
  obtain rfl := Option.some.inj hs₂
  rw [waitEnter, if_neg hpending] at h
  by_cases htimeout : timeout = 0
  · obtain ⟨-, n₃, s₃, hs₃, h⟩ := h.next (by simp [Wait.start, htimeout])
    simp only [thread, Wait.start, htimeout] at hs₃
    obtain rfl := Option.some.inj hs₃
    have herror := h.result (r := rhsStatusErrorResource) rfl
    exact absurd herror.1 (by decide)
  · have hpos : timeout > 0 := UInt32.pos_iff_ne_zero.mpr htimeout
    obtain ⟨hblocked, -⟩ := h.next (by simp [Wait.start, hpos])
    simp [Wait.start, hpos, Pc.isBlocked] at hblocked

/-- **A wait for flags that are set returns at once** exactly if its mask is valid and a
notification is pending. -/
theorem returnsAtOnce_iff {s : State} (h : Reach step (fun _ _ => True) State.init s)
    {result : Option UInt32} (hidle : s.pc = .idle result) {flags options timeout : UInt32}
    (hset : matching flags options s.notify.value = true) {s' : State}
    (hcall : step s (.wait flags options timeout) = some s') :
    ReturnsAtOnce flags options s' ↔
      flags &&& threadFlagsInvalidBits = 0 ∧ s.notify.state = .received := by
  have hs' : rhsThreadFlagsWait s flags options timeout = s' := by
    simp only [step, hidle] at hcall
    exact Option.some.inj hcall
  rw [← hs']
  constructor
  · intro hreturns
    have hflags : flags &&& threadFlagsInvalidBits = 0 := by
      by_contra hinvalid
      rw [rhsThreadFlagsWait, if_pos hinvalid] at hreturns
      obtain ⟨n, hn⟩ := hreturns
      have herror := hn.result (r := rhsStatusErrorParameter) rfl
      exact absurd herror.1 (by decide)
    refine ⟨hflags, ?_⟩
    by_contra hpending
    exact not_returnsAtOnce_of_not_received timeout hflags hpending hreturns
  · intro hcond
    exact returnsAtOnce_of_received timeout (valid_of_reach h) hset hcond.1 hcond.2

/-- While the thread waits for flag 0, flag 1 is set and then flag 0. -/
def maskedRun : List Action :=
  [.wait 1 rhsFlagWaitAny rhsWaitForever, .thread, .thread, .set 2, .setQuery, .thread, .thread,
    .thread, .set 1, .setQuery, .thread]

/-- The wait for flag 0 is over and flag 1 is set, but a wait for it does not return. -/
theorem flag_set_but_wait_sleeps :
    ∃ s, runActions step (fun _ _ => True) State.init maskedRun = some s ∧
      s.pc = .idle (some 3) ∧ matching 2 rhsFlagWaitAny s.notify.value = true ∧
      ∃ s', step s (.wait 2 rhsFlagWaitAny rhsWaitForever) = some s' ∧
        ¬ ReturnsAtOnce 2 rhsFlagWaitAny s' := by
  refine ⟨_, rfl, rfl, rfl, _, rfl, ?_⟩
  exact not_returnsAtOnce_of_not_received rhsWaitForever rfl (by decide)

/-- Flag 1 is set while the thread waits for nothing. -/
theorem flag_set_wait_returns :
    ∃ s s', runActions step (fun _ _ => True) State.init [.set 2, .setQuery] = some s ∧
      step s (.wait 2 rhsFlagWaitAny rhsWaitForever) = some s' ∧
      ReturnsAtOnce 2 rhsFlagWaitAny s' := by
  have hrun : runActions step (fun _ _ => True) State.init [.set 2, .setQuery] = some _ := rfl
  refine ⟨_, _, hrun, rfl, ?_⟩
  exact (returnsAtOnce_iff (.of_runActions hrun) rfl rfl rfl).mpr ⟨rfl, rfl⟩

/-! ## Clearing flags -/

/-- `rhs_thread_flags_clear` with what others do before and after its first call of the
kernel; with invalid flags it makes none. -/
def clearRun (flags : UInt32) (before between : List Action) : List Action :=
  if flags &&& threadFlagsInvalidBits ≠ 0 then .clear flags :: (before ++ between)
  else .clear flags :: (before ++ .thread :: (between ++ [.thread]))

/-- Flag `i` is set by one of the actions. -/
def SetBy (as : List Action) (i : ℕ) : Prop := ∃ a ∈ as, HasFlag a.flags i

/-- What others do adds their flags. -/
theorem run_of_others {as : List Action} (hothers : ∀ a ∈ as, a.ofOthers = true) {s s' : State}
    (hs : runActions step (fun _ _ => True) s as = some s') :
    s'.pc = s.pc ∧ ∀ i, HasFlag s'.notify.value i ↔ HasFlag s.notify.value i ∨ SetBy as i := by
  induction as generalizing s with
  | nil =>
      obtain rfl : s = s' := Option.some.inj hs
      simp [SetBy]
  | cons a as ih =>
      rw [runActions, if_pos trivial] at hs
      obtain ⟨mid, hmid, hrest⟩ := Option.bind_eq_some_iff.mp hs
      obtain ⟨hpc, hvalue, -⟩ := step_of_others (hothers a (by simp)) hmid
      obtain ⟨hpc', hvalue'⟩ := ih (fun b hb => hothers b (by simp [hb])) hrest
      refine ⟨hpc'.trans hpc, fun i => ?_⟩
      rw [hvalue', hvalue, hasFlag_or]
      simp [SetBy, or_assoc]

/-- A run of others, then one step of the thread. -/
theorem run_then_thread {as rest : List Action} {s s' : State}
    (hs : runActions step (fun _ _ => True) s (as ++ .thread :: rest) = some s') :
    ∃ mid next, runActions step (fun _ _ => True) s as = some mid ∧ thread mid = some next ∧
      runActions step (fun _ _ => True) next rest = some s' := by
  rw [runActions_append] at hs
  obtain ⟨mid, hmid, hs⟩ := Option.bind_eq_some_iff.mp hs
  rw [runActions, if_pos trivial] at hs
  obtain ⟨next, hnext, hrest⟩ := Option.bind_eq_some_iff.mp hs
  exact ⟨mid, next, hmid, hnext, hrest⟩

/-- What is set after a clear: what was set at its first call of the kernel and is not
cleared. -/
theorem hasFlag_after_clear {s s' : State} {result : Option UInt32} (hidle : s.pc = .idle result)
    {flags : UInt32} (hflags : flags &&& threadFlagsInvalidBits = 0) {before between : List Action}
    (hbefore : ∀ a ∈ before, a.ofOthers = true) (hbetween : ∀ a ∈ between, a.ofOthers = true)
    (hrun : runActions step (fun _ _ => True) s (clearRun flags before between) = some s')
    (i : ℕ) :
    HasFlag s'.notify.value i ↔
      (HasFlag s.notify.value i ∨ SetBy before i) ∧ ¬ HasFlag flags i := by
  have hcall : step s (.clear flags) = some { s with pc := .querying flags } := by
    simp only [step, hidle, rhsThreadFlagsClear, hflags, ne_eq, not_true_eq_false, if_false]
  rw [clearRun, if_neg (not_not.mpr hflags), runActions, if_pos trivial, hcall,
    Option.bind_some] at hrun
  obtain ⟨mid, next, hmid, hquery, hrun⟩ := run_then_thread hrun
  obtain ⟨hpc, hvalue⟩ := run_of_others hbefore hmid
  rw [thread, hpc] at hquery
  obtain rfl := Option.some.inj hquery
  obtain ⟨mid', next', hmid', hoverwrite, hrun⟩ := run_then_thread hrun
  obtain ⟨hpc', -⟩ := run_of_others hbetween hmid'
  rw [thread, hpc'] at hoverwrite
  obtain rfl := Option.some.inj hoverwrite
  obtain rfl := Option.some.inj hrun
  rw [← hvalue i]
  exact hasFlag_and_not

/-- **A clear loses no flag** outside its mask exactly if what is set between its two calls
of the kernel was set before the first of them as well, or its mask is refused. -/
theorem clear_keeps_iff {s s' : State} {result : Option UInt32} (hidle : s.pc = .idle result)
    {flags : UInt32} {before between : List Action}
    (hbefore : ∀ a ∈ before, a.ofOthers = true) (hbetween : ∀ a ∈ between, a.ofOthers = true)
    (hrun : runActions step (fun _ _ => True) s (clearRun flags before between) = some s') :
    (∀ i, ¬ HasFlag flags i → HasFlag s.notify.value i ∨ SetBy (before ++ between) i →
      HasFlag s'.notify.value i) ↔
    flags &&& threadFlagsInvalidBits ≠ 0 ∨
      ∀ i, ¬ HasFlag flags i → SetBy between i → HasFlag s.notify.value i ∨ SetBy before i := by
  have happend : ∀ i, SetBy (before ++ between) i ↔ SetBy before i ∨ SetBy between i := by
    intro i
    simp [SetBy, or_and_right, exists_or]
  by_cases hflags : flags &&& threadFlagsInvalidBits = 0
  · have hafter := hasFlag_after_clear hidle hflags hbefore hbetween hrun
    simp only [hafter, happend, hflags, ne_eq, not_true_eq_false, false_or]
    constructor
    · intro h i hi hset
      exact (h i hi (.inr (.inr hset))).1
    · intro h i hi hset
      refine ⟨?_, hi⟩
      rcases hset with hold | hset | hset
      · exact .inl hold
      · exact .inr hset
      · exact h i hi hset
  · have hcall : step s (.clear flags) =
        some { s with pc := .idle (some rhsStatusErrorParameter) } := by
      simp only [step, hidle, rhsThreadFlagsClear, ne_eq, hflags, not_false_eq_true, if_true]
    rw [clearRun, if_pos hflags, runActions, if_pos trivial, hcall, Option.bind_some] at hrun
    obtain ⟨-, hvalue⟩ := run_of_others (by
      intro a ha
      rcases List.mem_append.mp ha with ha | ha
      · exact hbefore a ha
      · exact hbetween a ha) hrun
    constructor
    · intro _
      exact .inl hflags
    · intro _ i _ hset
      exact (hvalue i).mpr hset

/-- An interrupt sets flag 1 between the two calls of a clear of flag 0. -/
theorem flag_lost_in_clear :
    ∃ s, runActions step (fun _ _ => True) State.init (clearRun 1 [] [.set 2, .setQuery]) =
      some s ∧ SetBy [.set 2, .setQuery] 1 ∧ ¬ HasFlag 1 1 ∧ ¬ HasFlag s.notify.value 1 := by
  refine ⟨_, rfl, ⟨.set 2, by simp, by decide⟩, by decide, by decide⟩

/-- The interrupt comes before the first of them. -/
theorem flag_kept_in_clear :
    ∃ s, runActions step (fun _ _ => True) State.init (clearRun 1 [.set 2, .setQuery] []) =
      some s ∧ HasFlag s.notify.value 1 := by
  have hrun : runActions step (fun _ _ => True) State.init (clearRun 1 [.set 2, .setQuery] []) =
      some _ := rfl
  have hkept := (clear_keeps_iff (s := State.init) rfl (by decide) (by decide) hrun).mpr
    (.inr fun i _ h => absurd h (by simp [SetBy]))
  exact ⟨_, hrun, hkept 1 (by decide) (.inr ⟨.set 2, by simp, by decide⟩)⟩

end RhsCore.ThreadFlags
