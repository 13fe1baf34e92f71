import RhsCore.Core.Timer
import RhsCore.Lib.Queue

/-!
# A freed timer is not used

The deletion is the last command for the timer, and the call of the epilogue the last command
that the thread sends.  So when the daemon comes to the epilogue it has processed the deletion,
and from then on neither is in its list or its queue.

The bit of the event group is set while the daemon holds the scheduler, and looked at once
more.  The thread sees it when the daemon is done with the group.

## Main definitions

* `Released` — the daemon is done with the timer.
* `Phase` — how far `rhs_timer_free` has come, on both sides.
* `Good` — what holds in every state.
* `Unreferenced`, `unreferenced_of_freed` — what holds once `rhs_timer_free` has returned.
-/

namespace RhsCore.Timer

/-! ## What the daemon has before it -/

/-- A command for the timer. -/
def TimerCommand.IsFor : TimerCommand → Prop
  | .epilogue => False
  | .other => False
  | _ => True

def DaemonPc.work : DaemonPc → List TimerCommand
  | .processing cmd => [cmd]
  | _ => []

/-- The command that is processed, and those in the queue. -/
def State.work (s : State) : List TimerCommand := s.daemon.work ++ s.queue

/-- The epilogue is under way. -/
def DaemonPc.InEpilogue : DaemonPc → Prop
  | .epilogue _ => True
  | _ => False

def DaemonPc.InCallback : DaemonPc → Prop
  | .callback => True
  | .calling _ _ => True
  | _ => False

/-- The bit is set. -/
def Epilogue.IsSet : Epilogue → Prop
  | .resumeAgain => True
  | .getBits => True
  | .resumeAll => True
  | _ => False

/-- The timer is not being freed, or its deletion is not sent yet. -/
def Pc.Uses : Pc → Prop
  | .idle _ => True
  | .starting _ => True
  | .restarting _ => True
  | .resetting => True
  | .stopping => True
  | .deleting => True
  | _ => False

/-- How often the daemon holds the scheduler. -/
def DaemonPc.suspended : DaemonPc → ℕ
  | .epilogue .suspendAgain => 1
  | .epilogue .setBits => 2
  | .epilogue .resumeAgain => 2
  | .epilogue .getBits => 1
  | .epilogue .resumeAll => 1
  | _ => 0

/-- **Released**: the daemon does not use the timer, and has nothing to do with it. -/
structure Released (s : State) : Prop where
  listed : s.listed = false
  callback : ¬ s.daemon.InCallback
  work : ∀ cmd ∈ s.work, ¬ cmd.IsFor

/-- The deletion is sent, and nothing for the timer after it. -/
def Deleted (s : State) : Prop :=
  SealedBy (fun cmd => ¬ cmd.IsFor) .delete s.work ∨ Released s

/-! ## How far it has come -/

/-- The event group, and whether the thread is blocked on it. -/
structure Waits (s : State) (waiting : Bool) : Prop where
  thread : s.thread = if waiting then .blocked else .waiting
  event : s.event = some { bits := 0, waiting := waiting }

/-- **How far** a thread and the daemon have come with the freeing of the timer. -/
inductive Phase (s : State) : Prop
  /-- Before the deletion is sent. -/
  | used (thread : s.thread.Uses) (delete : .delete ∉ s.work) (work : .epilogue ∉ s.work)
      (daemon : ¬ s.daemon.InEpilogue)
  /-- Before the epilogue is sent. -/
  | deleted (thread : s.thread = .creating ∨
        s.thread = .pending ∧ s.event = some { bits := 0, waiting := false })
      (deleted : Deleted s) (work : .epilogue ∉ s.work) (daemon : ¬ s.daemon.InEpilogue)
  /-- The epilogue is sent. -/
  | sent (waiting : Bool) (waits : Waits s waiting) (deleted : Deleted s)
      (work : SealedBy (fun cmd => cmd = .other) .epilogue s.work)
      (daemon : ¬ s.daemon.InEpilogue)
  /-- The daemon is in the epilogue, and has not set the bit. -/
  | called (waiting : Bool) (waits : Waits s waiting) (released : Released s)
      (work : .epilogue ∉ s.work) (next : Epilogue) (daemon : s.daemon = .epilogue next)
      (notSet : ¬ next.IsSet)
  /-- The bit is set. -/
  | set (thread : s.thread = .waiting ∨ s.thread = .woken timerDeletedEvent)
      (event : s.event = some { bits := timerDeletedEvent, waiting := false })
      (released : Released s) (work : .epilogue ∉ s.work)
      (daemon : ∀ next, s.daemon = .epilogue next → next.IsSet)
  /-- The event group is deleted. -/
  | done (thread : s.thread = .freeing ∨ s.thread = .freed) (released : Released s)
      (work : .epilogue ∉ s.work) (daemon : ¬ s.daemon.InEpilogue)

/-- What holds in every state. -/
structure Good (s : State) : Prop where
  fault : s.fault = false
  timer : s.thread ≠ .freed → s.timer.isSome = true
  suspended : s.suspended = s.daemon.suspended
  phase : Phase s

variable {s s' : State} {late : Bool} {capacity : ℕ}

/-! ## The daemon's work -/

theorem not_isFor_iff {cmd : TimerCommand} : ¬ cmd.IsFor ↔ cmd = .epilogue ∨ cmd = .other := by
  cases cmd <;> simp [TimerCommand.IsFor]

/-- A command that is processed is off the daemon's work. -/
theorem work_process {cmd : TimerCommand} (hs : s.process late cmd = some s') :
    s'.work = s.queue := by
  cases cmd with
  | changePeriod ticks =>
      simp only [State.process] at hs
      split at hs
      · cases hs
      · cases hs
        rfl
  | reset =>
      simp only [State.process] at hs
      split at hs
      · cases hs
        rfl
      · cases hs
        rfl
  | _ =>
      cases hs
      rfl

theorem work_rhsTimerEpilogue (s : State) (next : Epilogue) :
    (rhsTimerEpilogue s next).work = s.queue := by
  cases next with
  | setBits =>
      simp only [rhsTimerEpilogue, State.setBits]
      split <;> rfl
  | _ => rfl

theorem listed_rhsTimerEpilogue (s : State) (next : Epilogue) :
    (rhsTimerEpilogue s next).listed = s.listed := by
  cases next with
  | setBits =>
      simp only [rhsTimerEpilogue, State.setBits]
      split <;> rfl
  | _ => rfl

theorem work_timerCallback (s : State) : (timerCallback s).work = s.queue := by
  rw [timerCallback]
  split <;> rfl

/-- A step of the daemon leaves its work as it is, or ends the first command. -/
theorem work_runDaemon (hs : runDaemon late s = some s') :
    s'.work = s.work ∨ ∃ cmd, s.daemon = .processing cmd ∧ s.work = cmd :: s'.work := by
  rw [runDaemon] at hs
  cases hdaemon : s.daemon with
  | idle =>
      simp only [hdaemon] at hs
      split at hs
      · cases hs
      · rename_i cmd rest hqueue
        cases hs
        left
        rw [State.work, State.work, hdaemon, hqueue]
        rfl
  | processing cmd =>
      simp only [hdaemon] at hs
      right
      refine ⟨cmd, rfl, ?_⟩
      rw [work_process hs, State.work, hdaemon]
      rfl
  | callback =>
      simp only [hdaemon, Option.some.injEq] at hs
      left
      rw [← hs, work_timerCallback, State.work, hdaemon]
      rfl
  | calling cbFunc cbContext =>
      simp only [hdaemon, Option.some.injEq] at hs
      left
      rw [← hs, State.work, State.work, hdaemon]
      rfl
  | epilogue next =>
      simp only [hdaemon, Option.some.injEq] at hs
      left
      rw [← hs, work_rhsTimerEpilogue, State.work, hdaemon]
      rfl

theorem work_expire (hdaemon : s.daemon = .idle) : s.expire.work = s.work := by
  rw [State.work, State.work, hdaemon]
  rfl

/-- A command that is not for the timer. -/
theorem process_of_not_isFor {cmd : TimerCommand} (hcmd : ¬ cmd.IsFor)
    (hs : s.process late cmd = some s') :
    s' = { s with daemon := if cmd = .epilogue then .epilogue .suspendAll else .idle } := by
  rcases not_isFor_iff.mp hcmd with rfl | rfl
  · exact (Option.some.inj hs).symm
  · exact (Option.some.inj hs).symm

/-! ## Done with the timer -/

/-- Once released, always released. -/
theorem Released.daemon (h : Released s) (hs : runDaemon late s = some s') : Released s' := by
  have hwork : ∀ cmd ∈ s'.work, ¬ cmd.IsFor := by
    intro cmd hcmd
    rcases work_runDaemon hs with heq | ⟨first, -, heq⟩
    · exact h.work cmd (heq ▸ hcmd)
    · exact h.work cmd (heq ▸ List.mem_cons_of_mem first hcmd)
  have hcallback := h.callback
  rw [runDaemon] at hs
  cases hdaemon : s.daemon with
  | idle =>
      simp only [hdaemon] at hs
      split at hs
      · cases hs
      · cases hs
        exact ⟨h.listed, id, hwork⟩
  | processing cmd =>
      simp only [hdaemon] at hs
      have hcmd : ¬ cmd.IsFor := h.work cmd (by simp [State.work, hdaemon, DaemonPc.work])
      rw [process_of_not_isFor hcmd hs] at hwork ⊢
      refine ⟨h.listed, ?_, hwork⟩
      dsimp only
      split <;> exact id
  | callback =>
      rw [hdaemon] at hcallback
      exact absurd trivial hcallback
  | calling cbFunc cbContext =>
      rw [hdaemon] at hcallback
      exact absurd trivial hcallback
  | epilogue next =>
      simp only [hdaemon, Option.some.injEq] at hs
      subst hs
      refine ⟨(listed_rhsTimerEpilogue s next).trans h.listed, ?_, hwork⟩
      cases next <;> exact id

/-- The deletion is the last command for the timer, until it is processed. -/
theorem Deleted.daemon (h : Deleted s) (hs : runDaemon late s = some s') : Deleted s' := by
  rcases h with hsealed | hreleased
  swap
  · exact .inr (hreleased.daemon hs)
  rcases work_runDaemon hs with heq | ⟨cmd, hdaemon, heq⟩
  · left
    rw [heq]
    exact hsealed
  rw [heq] at hsealed
  by_cases hcmd : cmd = .delete
  · -- now it is processed
    right
    rw [hcmd, sealedBy_cons_self_iff] at hsealed
    simp only [runDaemon, hdaemon, hcmd, State.process, Option.some.injEq] at hs
    subst hs
    exact ⟨rfl, id, hsealed⟩
  · exact .inl (hsealed.of_cons hcmd)

/-- A timer that is deleted can only expire before that. -/
theorem Deleted.expire (h : Deleted s) (hdaemon : s.daemon = .idle) (hlisted : s.listed = true) :
    Deleted s.expire := by
  rcases h with hsealed | hreleased
  · left
    rw [work_expire hdaemon]
    exact hsealed
  · rw [hreleased.listed] at hlisted
    cases hlisted

theorem Released.append (h : Released s) (thread : Pc) {cmd : TimerCommand} (hcmd : ¬ cmd.IsFor) :
    Released { s with queue := s.queue ++ [cmd], thread := thread } := by
  refine ⟨h.listed, h.callback, ?_⟩
  intro cmd' hcmd'
  rw [State.work, ← List.append_assoc] at hcmd'
  rcases List.mem_append.mp hcmd' with hbefore | hlast
  · exact h.work cmd' hbefore
  · rwa [List.mem_singleton.mp hlast]

theorem Deleted.append (h : Deleted s) (thread : Pc) {cmd : TimerCommand} (hcmd : ¬ cmd.IsFor) :
    Deleted { s with queue := s.queue ++ [cmd], thread := thread } := by
  refine h.imp (fun hsealed => ?_) fun hreleased => hreleased.append thread hcmd
  rw [State.work, ← List.append_assoc]
  exact hsealed.append hcmd

/-! ## The phases -/

/-- The daemon does its work, and is not in the epilogue. -/
theorem Phase.work (h : Phase s) (hthread : s'.thread = s.thread) (hevent : s'.event = s.event)
    (hwork : s'.work = s.work ∨ ∃ cmd ≠ .epilogue, s.work = cmd :: s'.work)
    (hdeleted : Deleted s → Deleted s') (hreleased : Released s → Released s')
    (hdaemon : ¬ s.daemon.InEpilogue) (hdaemon' : ¬ s'.daemon.InEpilogue) : Phase s' := by
  have hsub : s'.work ⊆ s.work := by
    rcases hwork with heq | ⟨cmd, -, heq⟩
    · rw [heq]
      exact List.Subset.refl _
    · rw [heq]
      exact List.subset_cons_self cmd _
  cases h with
  | used thread delete work daemon =>
      exact .used (hthread ▸ thread) (fun h => delete (hsub h)) (fun h => work (hsub h)) hdaemon'
  | deleted thread deleted work daemon =>
      exact .deleted (by rwa [hthread, hevent]) (hdeleted deleted) (fun h => work (hsub h)) hdaemon'
  | sent waiting waits deleted work daemon =>
      refine .sent waiting ⟨hthread ▸ waits.thread, hevent ▸ waits.event⟩ (hdeleted deleted) ?_
        hdaemon'
      rcases hwork with heq | ⟨cmd, hcmd, heq⟩
      · rwa [heq]
      · rw [heq] at work
        exact work.of_cons hcmd
  | called waiting waits released work next daemon notSet =>
      rw [daemon] at hdaemon
      exact absurd trivial hdaemon
  | set thread event released work daemon =>
      refine .set (hthread ▸ thread) (hevent ▸ event) (hreleased released)
        (fun h => work (hsub h)) ?_
      intro next hnext
      rw [hnext] at hdaemon'
      exact absurd trivial hdaemon'
  | done thread released work daemon =>
      exact .done (hthread ▸ thread) (hreleased released) (fun h => work (hsub h)) hdaemon'

/-- The daemon comes to the epilogue: the deletion has been processed. -/
theorem Phase.begin_epilogue (h : Phase s) (hdaemon : s.daemon = .processing .epilogue) :
    Phase { s with daemon := .epilogue .suspendAll } := by
  have hwork : s.work = .epilogue :: s.queue := by
    rw [State.work, hdaemon]
    rfl
  have hmem : .epilogue ∈ s.work := hwork ▸ List.mem_cons_self
  cases h with
  | used _ _ work => exact absurd hmem work
  | deleted _ _ work => exact absurd hmem work
  | sent waiting waits deleted work =>
      rw [hwork, sealedBy_cons_self_iff] at work
      have hreleased : Released s := by
        refine deleted.resolve_left fun hsealed => ?_
        rw [hwork] at hsealed
        have hdelete := (hsealed.of_cons (by decide)).mem
        cases work _ hdelete
      refine .called waiting ⟨waits.thread, waits.event⟩ ⟨hreleased.listed, id, ?_⟩ ?_ .suspendAll
        rfl id
      · intro cmd hcmd
        rw [work cmd hcmd]
        exact id
      · intro hcmd
        cases work _ hcmd
  | called _ _ _ work => exact absurd hmem work
  | set _ _ _ work => exact absurd hmem work
  | done _ _ work => exact absurd hmem work

/-- The bit is set, and the thread is ready if it was blocked. -/
theorem Waits.setBits_eq {waiting : Bool} (h : Waits s waiting) : s.setBits = { s with
    event := some { bits := timerDeletedEvent, waiting := false }
    thread := if waiting then .woken timerDeletedEvent else s.thread } := by
  have hbits : eventGroupSetBits 0 timerDeletedEvent = timerDeletedEvent := by decide
  simp only [State.setBits, h.event, hbits]

/-- A step of the epilogue: the bit is set once, and the group is there. -/
theorem Phase.epilogue (h : Phase s) {next : Epilogue} (hdaemon : s.daemon = .epilogue next) :
    Phase (rhsTimerEpilogue s next) := by
  have hs : runDaemon false s = some (rhsTimerEpilogue s next) := by
    rw [runDaemon, hdaemon]
  have hwork : (rhsTimerEpilogue s next).work = s.work := by
    rw [work_rhsTimerEpilogue, State.work, hdaemon]
    rfl
  have hin : s.daemon.InEpilogue := by
    rw [hdaemon]
    trivial
  cases h with
  | used _ _ _ daemon => exact absurd hin daemon
  | deleted _ _ _ daemon => exact absurd hin daemon
  | sent _ _ _ _ daemon => exact absurd hin daemon
  | done _ _ _ daemon => exact absurd hin daemon
  | called waiting waits released work next' daemon notSet =>
      obtain rfl : next = next' := DaemonPc.epilogue.inj (hdaemon.symm.trans daemon)
      rw [← hwork] at work
      have hreleased := released.daemon hs
      cases next with
      | suspendAll =>
          exact .called waiting ⟨waits.thread, waits.event⟩ hreleased work .suspendAgain rfl id
      | suspendAgain =>
          exact .called waiting ⟨waits.thread, waits.event⟩ hreleased work .setBits rfl id
      | setBits =>
          refine .set ?_ ?_ hreleased work ?_
          · rw [rhsTimerEpilogue, waits.setBits_eq]
            dsimp only
            cases waiting with
            | true => exact .inr rfl
            | false => exact .inl waits.thread
          · rw [rhsTimerEpilogue, waits.setBits_eq]
          · rintro next ⟨⟩
            trivial
      | resumeAgain => exact absurd trivial notSet
      | getBits => exact absurd trivial notSet
      | resumeAll => exact absurd trivial notSet
  | set thread event released work daemon =>
      have hisSet := daemon next hdaemon
      rw [← hwork] at work
      have hreleased := released.daemon hs
      cases next with
      | suspendAll => exact hisSet.elim
      | suspendAgain => exact hisSet.elim
      | setBits => exact hisSet.elim
      | resumeAgain =>
          refine .set thread event hreleased work ?_
          rintro next ⟨⟩
          trivial
      | getBits =>
          refine .set thread event hreleased work ?_
          rintro next ⟨⟩
          trivial
      | resumeAll =>
          refine .set thread event hreleased work ?_
          rintro next ⟨⟩

/-- Others send a command. -/
theorem Phase.others (h : Phase s) : Phase { s with queue := s.queue ++ [.other] } := by
  have hwork : ({ s with queue := s.queue ++ [.other] } : State).work = s.work ++ [.other] :=
    (List.append_assoc ..).symm
  have hnot {cmd : TimerCommand} (hcmd : cmd ≠ .other) (hmem : cmd ∉ s.work) :
      cmd ∉ ({ s with queue := s.queue ++ [.other] } : State).work := by
    rw [hwork]
    simp [hcmd, hmem]
  have hother : ¬ TimerCommand.other.IsFor := id
  cases h with
  | used thread delete work daemon =>
      exact .used thread (hnot (by decide) delete) (hnot (by decide) work) daemon
  | deleted thread deleted work daemon =>
      exact .deleted thread (deleted.append s.thread hother) (hnot (by decide) work) daemon
  | sent waiting waits deleted work daemon =>
      refine .sent waiting ⟨waits.thread, waits.event⟩ (deleted.append s.thread hother) ?_ daemon
      rw [hwork]
      exact work.append rfl
  | called waiting waits released work next daemon notSet =>
      exact .called waiting ⟨waits.thread, waits.event⟩ (released.append s.thread hother)
        (hnot (by decide) work) next daemon notSet
  | set thread event released work daemon =>
      exact .set thread event (released.append s.thread hother) (hnot (by decide) work) daemon
  | done thread released work daemon =>
      exact .done thread (released.append s.thread hother) (hnot (by decide) work) daemon

/-! ## A step of the daemon -/

theorem Waits.not_done {waiting : Bool} (h : Waits s waiting) :
    s.thread ≠ .freeing ∧ s.thread ≠ .freed := by
  rw [h.thread]
  cases waiting <;> decide

/-- Where the event group is deleted, the daemon is done with both. -/
theorem Phase.of_done (h : Phase s) (hpc : s.thread = .freeing ∨ s.thread = .freed) :
    Released s ∧ .epilogue ∉ s.work ∧ ¬ s.daemon.InEpilogue := by
  cases h with
  | used thread => rcases hpc with hpc | hpc <;> exact (hpc ▸ thread).elim
  | deleted thread => rcases hpc with hpc | hpc <;> simp [hpc] at thread
  | sent waiting waits => simp [waits.not_done] at hpc
  | called waiting waits => simp [waits.not_done] at hpc
  | set thread => rcases hpc with hpc | hpc <;> simp [hpc] at thread
  | done thread released work daemon => exact ⟨released, work, daemon⟩

/-- As long as the daemon may use the timer, it is there. -/
theorem Good.timer_of_not_released (h : Good s) (hnot : ¬ Released s) : s.timer.isSome = true :=
  h.timer fun hfreed => hnot (h.phase.of_done (.inr hfreed)).1

theorem Good.touchTimer (h : Good s) (hnot : ¬ Released s) : s.touchTimer = s := by
  have htimer := h.timer_of_not_released hnot
  rw [← Option.not_isNone, Bool.not_eq_true'] at htimer
  simp [State.touchTimer, htimer]

theorem not_released_of_isFor {cmd : TimerCommand} (hdaemon : s.daemon = .processing cmd)
    (hcmd : cmd.IsFor) : ¬ Released s := by
  intro hreleased
  exact hreleased.work cmd (by simp [State.work, hdaemon, DaemonPc.work]) hcmd

theorem suspended_eq_zero {daemon : DaemonPc} (h : ¬ daemon.InEpilogue) :
    daemon.suspended = 0 := by
  cases daemon with
  | epilogue next => exact absurd trivial h
  | _ => rfl

/-- The daemon does something about the timer, which is there. -/
theorem Good.use (h : Good s) (hnot : ¬ Released s) (hdaemon : ¬ s.daemon.InEpilogue)
    {listed : Bool} {daemon : DaemonPc} {calls : ℕ} (hdaemon' : ¬ daemon.InEpilogue)
    (hphase : Phase { s with listed := listed, daemon := daemon, calls := calls }) :
    Good { s.touchTimer with listed := listed, daemon := daemon, calls := calls } := by
  rw [h.touchTimer hnot]
  refine ⟨h.fault, fun _ => h.timer_of_not_released hnot, ?_, hphase⟩
  rw [h.suspended, suspended_eq_zero hdaemon, suspended_eq_zero hdaemon']

/-- What a command for the timer does. -/
theorem process_of_isFor {cmd : TimerCommand} (hcmd : cmd.IsFor)
    (hs : s.process late cmd = some s') :
    ∃ listed daemon calls, ¬ daemon.InEpilogue ∧
      s' = { s.touchTimer with listed := listed, daemon := daemon, calls := calls } := by
  cases cmd with
  | changePeriod ticks =>
      simp only [State.process] at hs
      split at hs
      · cases hs
      · exact ⟨_, _, _, id, (Option.some.inj hs).symm⟩
  | reset =>
      simp only [State.process] at hs
      split at hs
      · exact ⟨_, _, _, id, (Option.some.inj hs).symm⟩
      · exact ⟨_, _, _, id, (Option.some.inj hs).symm⟩
  | stop => exact ⟨_, _, _, id, (Option.some.inj hs).symm⟩
  | delete => exact ⟨_, _, _, id, (Option.some.inj hs).symm⟩
  | epilogue => exact hcmd.elim
  | other => exact hcmd.elim

theorem Good.process (h : Good s) {cmd : TimerCommand} (hdaemon : s.daemon = .processing cmd)
    (hs : s.process late cmd = some s') : Good s' := by
  have hrun : runDaemon late s = some s' := by
    rw [runDaemon, hdaemon]
    exact hs
  have hnotIn : ¬ s.daemon.InEpilogue := by
    rw [hdaemon]
    exact id
  have hsuspended := h.suspended
  rw [suspended_eq_zero hnotIn] at hsuspended
  have hwork : s.work = cmd :: s'.work := by
    rw [work_process hs, State.work, hdaemon]
    rfl
  by_cases hcmd : cmd.IsFor
  · have hnot := not_released_of_isFor hdaemon hcmd
    have hne : cmd ≠ .epilogue := by
      rintro rfl
      exact hcmd
    obtain ⟨listed, daemon, calls, hdaemon', rfl⟩ := process_of_isFor hcmd hs
    refine h.use hnot hnotIn hdaemon' ?_
    rw [h.touchTimer hnot] at hrun hwork
    exact h.phase.work rfl rfl (.inr ⟨cmd, hne, hwork⟩) (fun hd => hd.daemon hrun)
      (fun hr => absurd hr hnot) hnotIn hdaemon'
  · rw [process_of_not_isFor hcmd hs] at hrun hwork ⊢
    rcases not_isFor_iff.mp hcmd with rfl | rfl
    · exact ⟨h.fault, h.timer, hsuspended, h.phase.begin_epilogue hdaemon⟩
    · refine ⟨h.fault, h.timer, hsuspended, ?_⟩
      exact h.phase.work rfl rfl (.inr ⟨_, by decide, hwork⟩) (fun hd => hd.daemon hrun)
        (fun hr => hr.daemon hrun) hnotIn id

/-- In the epilogue the event group is there, and the thread waits for it. -/
theorem Phase.event_of_inEpilogue (h : Phase s) (hin : s.daemon.InEpilogue) :
    (∃ event, s.event = some event) ∧ s.thread ≠ .freed := by
  cases h with
  | used _ _ _ daemon => exact absurd hin daemon
  | deleted _ _ _ daemon => exact absurd hin daemon
  | sent _ _ _ _ daemon => exact absurd hin daemon
  | called _ waits => exact ⟨⟨_, waits.event⟩, waits.not_done.2⟩
  | set thread event =>
      refine ⟨⟨_, event⟩, ?_⟩
      rcases thread with thread | thread <;> simp [thread]
  | done _ _ _ daemon => exact absurd hin daemon

/-- The epilogue uses the event group, which is there. -/
theorem Good.epilogue (h : Good s) {next : Epilogue} (hdaemon : s.daemon = .epilogue next) :
    Good (rhsTimerEpilogue s next) := by
  obtain ⟨⟨event, hevent⟩, hthread⟩ := h.phase.event_of_inEpilogue (by rw [hdaemon]; trivial)
  have hsuspended := h.suspended
  rw [hdaemon] at hsuspended
  have hphase := h.phase.epilogue hdaemon
  cases next with
  | suspendAll => exact ⟨h.fault, h.timer, congrArg (· + 1) hsuspended, hphase⟩
  | suspendAgain => exact ⟨h.fault, h.timer, congrArg (· + 1) hsuspended, hphase⟩
  | setBits =>
      simp only [rhsTimerEpilogue, State.setBits, hevent] at hphase ⊢
      exact ⟨h.fault, fun _ => h.timer hthread, hsuspended, hphase⟩
  | resumeAgain => exact ⟨h.fault, h.timer, congrArg (· - 1) hsuspended, hphase⟩
  | getBits =>
      refine ⟨?_, h.timer, hsuspended, hphase⟩
      simp [rhsTimerEpilogue, State.touchEvent, h.fault, hevent]
  | resumeAll => exact ⟨h.fault, h.timer, congrArg (· - 1) hsuspended, hphase⟩

theorem timerCallback_eq {timer : RHSTimer} (htimer : s.timer = some timer) :
    timerCallback s = { s with daemon := .calling timer.cbFunc timer.cbContext } := by
  simp only [timerCallback, htimer]

/-- The daemon goes on with its work. -/
theorem Good.go (h : Good s) (hdaemon : ¬ s.daemon.InEpilogue) {queue : List TimerCommand}
    {daemon : DaemonPc} (hdaemon' : ¬ daemon.InEpilogue)
    (hwork : daemon.work ++ queue = s.daemon.work ++ s.queue)
    (hs : runDaemon late s = some { s with queue := queue, daemon := daemon }) :
    Good { s with queue := queue, daemon := daemon } := by
  refine ⟨h.fault, h.timer, ?_, ?_⟩
  · rw [h.suspended, suspended_eq_zero hdaemon, suspended_eq_zero hdaemon']
  · exact h.phase.work rfl rfl (.inl hwork) (fun hd => hd.daemon hs) (fun hr => hr.daemon hs)
      hdaemon hdaemon'

/-- **A step of the daemon**. -/
theorem Good.daemon (h : Good s) (hs : runDaemon late s = some s') : Good s' := by
  have hrun := hs
  rw [runDaemon] at hs
  cases hdaemon : s.daemon with
  | idle =>
      simp only [hdaemon] at hs
      split at hs
      · cases hs
      · rename_i cmd rest hqueue
        cases hs
        refine h.go (by rw [hdaemon]; exact id) id ?_ hrun
        rw [hdaemon, hqueue]
        rfl
  | processing cmd =>
      simp only [hdaemon] at hs
      exact h.process hdaemon hs
  | callback =>
      simp only [hdaemon, Option.some.injEq] at hs
      have hnot : ¬ Released s := by
        intro hreleased
        have hcallback := hreleased.callback
        rw [hdaemon] at hcallback
        exact hcallback trivial
      obtain ⟨timer, htimer⟩ := Option.isSome_iff_exists.mp (h.timer_of_not_released hnot)
      rw [timerCallback_eq htimer] at hs
      subst hs
      refine h.go (by rw [hdaemon]; exact id) id ?_ hrun
      rw [hdaemon]
      rfl
  | calling cbFunc cbContext =>
      simp only [hdaemon, Option.some.injEq] at hs
      subst hs
      refine h.go (by rw [hdaemon]; exact id) id ?_ hrun
      rw [hdaemon]
      rfl
  | epilogue next =>
      simp only [hdaemon, Option.some.injEq] at hs
      subst hs
      exact h.epilogue hdaemon

/-- An expiry, which only a timer in the daemon's list has. -/
theorem Good.expire (h : Good s) (hdaemon : s.daemon = .idle) (hlisted : s.listed = true) :
    Good s.expire := by
  have hnot : ¬ Released s := by
    intro hreleased
    rw [hreleased.listed] at hlisted
    cases hlisted
  have hnotIn : ¬ s.daemon.InEpilogue := by
    rw [hdaemon]
    exact id
  refine h.use hnot hnotIn id ?_
  refine h.phase.work rfl rfl (.inl ?_) (fun hd => ?_) (fun hr => absurd hr hnot) hnotIn id
  · rw [State.work, State.work, hdaemon]
    rfl
  · have hexpire := hd.expire hdaemon hlisted
    rw [State.expire, h.touchTimer hnot] at hexpire
    exact hexpire

/-! ## A step of the thread -/

theorem work_append (s : State) (cmd : TimerCommand) (thread : Pc) :
    ({ s with queue := s.queue ++ [cmd], thread := thread } : State).work = s.work ++ [cmd] :=
  (List.append_assoc ..).symm

/-- Before the deletion is sent, the daemon has neither it nor the epilogue before it. -/
theorem Phase.of_uses (h : Phase s) (hpc : s.thread.Uses) :
    .delete ∉ s.work ∧ .epilogue ∉ s.work ∧ ¬ s.daemon.InEpilogue := by
  cases h with
  | used thread delete work daemon => exact ⟨delete, work, daemon⟩
  | deleted thread => rcases thread with thread | ⟨thread, -⟩ <;> exact (thread ▸ hpc).elim
  | sent waiting waits => cases waiting <;> exact (waits.thread ▸ hpc).elim
  | called waiting waits => cases waiting <;> exact (waits.thread ▸ hpc).elim
  | set thread => rcases thread with thread | thread <;> exact (thread ▸ hpc).elim
  | done thread => rcases thread with thread | thread <;> exact (thread ▸ hpc).elim

theorem Pc.Uses.not_freed {pc : Pc} (h : pc.Uses) : pc ≠ .freed := by
  rintro rfl
  exact h

/-- A step before the deletion is sent that sends nothing. -/
theorem Good.use_thread (h : Good s) (hpc : s.thread.Uses) {thread : Pc} (hthread : thread.Uses) :
    Good { s with thread := thread } := by
  obtain ⟨hdelete, hwork, hdaemon⟩ := h.phase.of_uses hpc
  exact ⟨h.fault, fun _ => h.timer hpc.not_freed, h.suspended,
    .used hthread hdelete hwork hdaemon⟩

/-- A command for the timer is sent before the deletion. -/
theorem Good.send_use (h : Good s) {cmd : TimerCommand} {next : Pc}
    (hs : s.send capacity cmd next = some s') (hpc : s.thread.Uses) (hnext : next.Uses)
    (hdelete : cmd ≠ .delete) (hepilogue : cmd ≠ .epilogue) : Good s' := by
  obtain ⟨-, hs⟩ := Option.ite_none_right_eq_some.mp hs
  obtain rfl := Option.some.inj hs
  obtain ⟨hnotDelete, hnotEpilogue, hdaemon⟩ := h.phase.of_uses hpc
  refine ⟨h.fault, fun _ => h.timer hpc.not_freed, h.suspended, .used hnext ?_ ?_ hdaemon⟩
  · rw [work_append]
    simp [hnotDelete, hdelete.symm]
  · rw [work_append]
    simp [hnotEpilogue, hepilogue.symm]

/-- The deletion is sent. -/
theorem Good.send_delete (h : Good s) (hpc : s.thread = .deleting)
    (hs : s.send capacity .delete .creating = some s') : Good s' := by
  have huses : s.thread.Uses := by
    rw [hpc]
    trivial
  obtain ⟨-, hs⟩ := Option.ite_none_right_eq_some.mp hs
  obtain rfl := Option.some.inj hs
  obtain ⟨hdelete, hepilogue, hdaemon⟩ := h.phase.of_uses huses
  refine ⟨h.fault, fun _ => h.timer huses.not_freed, h.suspended, ?_⟩
  refine .deleted (.inl rfl) (.inl ?_) ?_ hdaemon
  · rw [work_append]
    exact sealedBy_append_self hdelete
  · rw [work_append]
    simp [hepilogue]

theorem Phase.of_deleted (h : Phase s) (hpc : s.thread = .creating ∨ s.thread = .pending) :
    Deleted s ∧ .epilogue ∉ s.work ∧ ¬ s.daemon.InEpilogue ∧
      (s.thread = .pending → s.event = some { bits := 0, waiting := false }) := by
  cases h with
  | used thread => rcases hpc with hpc | hpc <;> exact (hpc ▸ thread).elim
  | deleted thread deleted work daemon =>
      refine ⟨deleted, work, daemon, fun hpending => ?_⟩
      rcases thread with thread | ⟨-, event⟩
      · rw [thread] at hpending
        cases hpending
      · exact event
  | sent waiting waits => cases waiting <;> rcases hpc with hpc | hpc <;> cases hpc ▸ waits.thread
  | called waiting waits =>
      cases waiting <;> rcases hpc with hpc | hpc <;> cases hpc ▸ waits.thread
  | set thread =>
      rcases thread with thread | thread <;> rcases hpc with hpc | hpc <;> cases hpc ▸ thread
  | done thread =>
      rcases thread with thread | thread <;> rcases hpc with hpc | hpc <;> cases hpc ▸ thread

/-- The event group is created. -/
theorem Good.create (h : Good s) (hpc : s.thread = .creating) :
    Good { s with event := some { bits := 0, waiting := false }, thread := .pending } := by
  obtain ⟨hdeleted, hwork, hdaemon, -⟩ := h.phase.of_deleted (.inl hpc)
  refine ⟨h.fault, fun _ => h.timer (by simp [hpc]), h.suspended, ?_⟩
  exact .deleted (.inr ⟨rfl, rfl⟩) (hdeleted.imp id fun hr => ⟨hr.listed, hr.callback, hr.work⟩)
    hwork hdaemon

/-- The call of the epilogue is sent, behind the deletion. -/
theorem Good.send_epilogue (h : Good s) (hpc : s.thread = .pending)
    (hs : s.send capacity .epilogue .waiting = some s') : Good s' := by
  obtain ⟨-, hs⟩ := Option.ite_none_right_eq_some.mp hs
  obtain rfl := Option.some.inj hs
  obtain ⟨hdeleted, hwork, hdaemon, hevent⟩ := h.phase.of_deleted (.inr hpc)
  refine ⟨h.fault, fun _ => h.timer (by simp [hpc]), h.suspended, ?_⟩
  refine .sent false ⟨rfl, hevent hpc⟩ (hdeleted.append _ id) ?_ hdaemon
  rw [work_append]
  exact sealedBy_append_self hwork

/-- The thread looks at the bits. -/
theorem Good.waitBits (h : Good s) (hpc : s.thread = .waiting) : Good s.waitBits := by
  have htimer : s.timer.isSome = true := h.timer (by simp [hpc])
  have hclear : eventGroupWaitBits timerDeletedEvent false true 0 = none := by decide
  have hset : eventGroupWaitBits timerDeletedEvent false true timerDeletedEvent =
      some (timerDeletedEvent, timerDeletedEvent) := by decide
  cases h.phase with
  | used thread => exact (hpc ▸ thread).elim
  | deleted thread => rcases thread with thread | ⟨thread, -⟩ <;> cases hpc ▸ thread
  | sent waiting waits deleted work daemon =>
      simp only [State.waitBits, waits.event, hclear]
      refine ⟨h.fault, fun _ => htimer, h.suspended, ?_⟩
      exact .sent true ⟨rfl, rfl⟩ (deleted.imp id fun hr => ⟨hr.listed, hr.callback, hr.work⟩) work
        daemon
  | called waiting waits released work next daemon notSet =>
      simp only [State.waitBits, waits.event, hclear]
      refine ⟨h.fault, fun _ => htimer, h.suspended, ?_⟩
      exact .called true ⟨rfl, rfl⟩ ⟨released.listed, released.callback, released.work⟩ work next
        daemon notSet
  | set thread event released work daemon =>
      simp only [State.waitBits, event, hset]
      refine ⟨h.fault, fun _ => htimer, h.suspended, ?_⟩
      exact .set (.inr rfl) rfl ⟨released.listed, released.callback, released.work⟩ work daemon
  | done thread => rcases thread with thread | thread <;> cases hpc ▸ thread

/-- The wait has returned and the thread runs, so the daemon is done with the event group. -/
theorem Good.woken (h : Good s) {bits : UInt32} (hpc : s.thread = .woken bits)
    (hsuspended : s.suspended = 0) :
    Good { s.touchEvent with event := none, thread := .freeing } := by
  have htimer : s.timer.isSome = true := h.timer (by simp [hpc])
  cases h.phase with
  | used thread => exact (hpc ▸ thread).elim
  | deleted thread => rcases thread with thread | ⟨thread, -⟩ <;> cases hpc ▸ thread
  | sent waiting waits => cases waiting <;> cases hpc ▸ waits.thread
  | called waiting waits => cases waiting <;> cases hpc ▸ waits.thread
  | set thread event released work daemon =>
      have hdaemon : ¬ s.daemon.InEpilogue := by
        have hheld := h.suspended
        rw [hsuspended] at hheld
        intro hin
        cases hnext : s.daemon with
        | epilogue next =>
            have hisSet := daemon next hnext
            rw [hnext] at hheld
            cases next with
            | suspendAll => exact hisSet
            | suspendAgain => exact hisSet
            | setBits => exact hisSet
            | resumeAgain => cases hheld
            | getBits => cases hheld
            | resumeAll => cases hheld
        | _ =>
            rw [hnext] at hin
            exact hin
      refine ⟨?_, fun _ => htimer, h.suspended, ?_⟩
      · simp [State.touchEvent, h.fault, event]
      · exact .done (.inl rfl) ⟨released.listed, released.callback, released.work⟩ work hdaemon
  | done thread => rcases thread with thread | thread <;> cases hpc ▸ thread

/-- The memory of the timer is given back. -/
theorem Good.free (h : Good s) (hpc : s.thread = .freeing) :
    Good { s.touchTimer with timer := none, thread := .freed } := by
  have htimer := h.timer (by simp [hpc])
  rw [← Option.not_isNone, Bool.not_eq_true'] at htimer
  obtain ⟨released, work, daemon⟩ := h.phase.of_done (.inl hpc)
  refine ⟨?_, fun hfreed => absurd rfl hfreed, h.suspended, ?_⟩
  · simp [State.touchTimer, h.fault, htimer]
  · exact .done (.inr rfl) ⟨released.listed, released.callback, released.work⟩ work daemon

/-- **A step of the thread**. -/
theorem Good.thread (h : Good s) (hsuspended : s.suspended = 0)
    (hs : runThread capacity s = some s') : Good s' := by
  rw [runThread] at hs
  cases hpc : s.thread with
  | idle stat =>
      rw [hpc] at hs
      cases hs
  | starting ticks =>
      rw [hpc] at hs
      exact h.send_use hs (by rw [hpc]; trivial) trivial nofun nofun
  | restarting ticks =>
      rw [hpc] at hs
      exact h.send_use hs (by rw [hpc]; trivial) trivial nofun nofun
  | resetting =>
      rw [hpc] at hs
      exact h.send_use hs (by rw [hpc]; trivial) trivial nofun nofun
  | stopping =>
      rw [hpc] at hs
      exact h.send_use hs (by rw [hpc]; trivial) trivial nofun nofun
  | deleting =>
      rw [hpc] at hs
      exact h.send_delete hpc hs
  | creating =>
      rw [hpc] at hs
      obtain rfl := Option.some.inj hs
      exact h.create hpc
  | pending =>
      rw [hpc] at hs
      exact h.send_epilogue hpc hs
  | waiting =>
      rw [hpc] at hs
      obtain rfl := Option.some.inj hs
      exact h.waitBits hpc
  | blocked =>
      rw [hpc] at hs
      cases hs
  | woken bits =>
      rw [hpc] at hs
      obtain ⟨-, hs⟩ := Option.ite_none_right_eq_some.mp hs
      obtain rfl := Option.some.inj hs
      exact h.woken hpc hsuspended
  | freeing =>
      rw [hpc] at hs
      obtain rfl := Option.some.inj hs
      exact h.free hpc
  | freed =>
      rw [hpc] at hs
      cases hs

/-! ## Every run -/

theorem uses_of_begin {c : Call} {pc : Pc} (hbegin : c.begin = some pc) : pc.Uses := by
  cases c with
  | start ticks =>
      obtain ⟨-, hbegin⟩ := Option.ite_none_right_eq_some.mp hbegin
      cases hbegin
      trivial
  | restart ticks =>
      obtain ⟨-, hbegin⟩ := Option.ite_none_right_eq_some.mp hbegin
      cases hbegin
      trivial
  | stop =>
      cases hbegin
      trivial
  | free =>
      cases hbegin
      trivial

/-- A call that is refused returns. -/
theorem of_refuse (hs : refuse s = some s') :
    s.thread.Uses ∧ s' = { s with thread := .idle (some .errorResource) } := by
  cases hpc : s.thread with
  | starting ticks =>
      simp only [refuse, hpc] at hs
      exact ⟨trivial, (Option.some.inj hs).symm⟩
  | restarting ticks =>
      simp only [refuse, hpc] at hs
      exact ⟨trivial, (Option.some.inj hs).symm⟩
  | resetting =>
      simp only [refuse, hpc] at hs
      exact ⟨trivial, (Option.some.inj hs).symm⟩
  | _ => simp [refuse, hpc] at hs

/-- **A step** keeps what is good. -/
theorem Good.step (h : Good s) {a : Action} (hs : step capacity s a = some s') : Good s' := by
  cases a with
  | call c =>
      obtain ⟨-, hs⟩ := Option.ite_none_right_eq_some.mp hs
      rw [startCall] at hs
      split at hs
      · rename_i stat hpc
        obtain ⟨pc, hbegin, rfl⟩ := Option.map_eq_some_iff.mp hs
        exact h.use_thread (by rw [hpc]; trivial) (uses_of_begin hbegin)
      · cases hs
  | thread =>
      obtain ⟨hsuspended, hs⟩ := Option.ite_none_right_eq_some.mp hs
      exact h.thread hsuspended hs
  | refuse =>
      obtain ⟨-, hs⟩ := Option.ite_none_right_eq_some.mp hs
      obtain ⟨huses, rfl⟩ := of_refuse hs
      exact h.use_thread huses trivial
  | daemon late => exact h.daemon hs
  | expire =>
      obtain ⟨⟨hdaemon, hlisted⟩, hs⟩ := Option.ite_none_right_eq_some.mp hs
      obtain rfl := Option.some.inj hs
      exact h.expire hdaemon hlisted
  | others =>
      obtain ⟨-, hs⟩ := Option.ite_none_right_eq_some.mp hs
      obtain rfl := Option.some.inj hs
      exact ⟨h.fault, h.timer, h.suspended, h.phase.others⟩

theorem good_init (timer : RHSTimer) : Good (.init timer) :=
  ⟨rfl, fun _ => rfl, rfl, .used trivial (by simp [State.work, State.init, DaemonPc.work])
    (by simp [State.work, State.init, DaemonPc.work]) id⟩

/-- Neither the timer nor the event group is ever used when it is not there. -/
theorem good_of_reach {timer : RHSTimer}
    (h : Reach (step capacity) (fun _ _ => True) (.init timer) s) : Good s :=
  h.invariant (good_init timer) fun _ _ _ hgood _ hs => hgood.step hs

/-- **Unreferenced**: the daemon is not in the callback, the timer is not in its list, and it
has nothing before it that is for the timer or for the event group. -/
structure Unreferenced (s : State) : Prop where
  daemon : s.daemon = .idle ∨ s.daemon = .processing .other
  listed : s.listed = false
  queue : ∀ cmd ∈ s.queue, cmd = .other
  fault : s.fault = false

theorem Good.unreferenced (h : Good s) (hfreed : s.thread = .freed) : Unreferenced s := by
  obtain ⟨released, work, daemon⟩ := h.phase.of_done (.inr hfreed)
  have hother : ∀ cmd ∈ s.work, cmd = .other := by
    intro cmd hcmd
    refine (not_isFor_iff.mp (released.work cmd hcmd)).resolve_left ?_
    rintro rfl
    exact work hcmd
  refine ⟨?_, released.listed, fun cmd hcmd => hother cmd (List.mem_append_right _ hcmd), h.fault⟩
  have hcallback := released.callback
  cases hpc : s.daemon with
  | idle => exact .inl rfl
  | processing cmd =>
      right
      rw [hother cmd (by simp [State.work, hpc, DaemonPc.work])]
  | callback => simp [hpc, DaemonPc.InCallback] at hcallback
  | calling cbFunc cbContext => simp [hpc, DaemonPc.InCallback] at hcallback
  | epilogue next => simp [hpc, DaemonPc.InEpilogue] at daemon

/-- After `rhs_timer_free` nobody calls the callback. -/
theorem step_of_unreferenced (h : Unreferenced s) (hfreed : s.thread = .freed) {a : Action}
    (hs : step capacity s a = some s') : s'.thread = .freed ∧ s'.calls = s.calls := by
  cases a with
  | call c => simp [step, startCall, hfreed] at hs
  | thread => simp [step, runThread, hfreed] at hs
  | refuse => simp [step, refuse, hfreed] at hs
  | daemon late =>
      rcases h.daemon with hdaemon | hdaemon
      · simp only [step, runDaemon, hdaemon] at hs
        split at hs
        · cases hs
        · cases hs
          exact ⟨hfreed, rfl⟩
      · simp only [step, runDaemon, hdaemon, State.process, Option.some.injEq] at hs
        subst hs
        exact ⟨hfreed, rfl⟩
  | expire => simp [step, h.listed] at hs
  | others =>
      obtain ⟨-, hs⟩ := Option.ite_none_right_eq_some.mp hs
      obtain rfl := Option.some.inj hs
      exact ⟨hfreed, rfl⟩

/-- **A freed timer is not used**: in every order of the thread's steps, the daemon's, and
expiries, once `rhs_timer_free` has returned the daemon is not in the callback of the timer and
has neither the timer nor the event group before it, and this stays so: the callback is not
called again. -/
theorem unreferenced_of_freed (capacity : ℕ) (func : RHSTimerCallback) (type : RHSTimerType)
    (context : Context) {s : State}
    (h : Reach (step capacity) (fun _ _ => True) (.init (rhsTimerAlloc func type context)) s)
    (hfreed : s.thread = .freed) :
    Unreferenced s ∧ ∀ s', Reach (step capacity) (fun _ _ => True) s s' →
      Unreferenced s' ∧ s'.calls = s.calls := by
  refine ⟨(good_of_reach h).unreferenced hfreed, fun s' hs' => ?_⟩
  have hstays : Good s' ∧ s'.thread = .freed ∧ s'.calls = s.calls := by
    refine Reach.invariant (I := fun s' => Good s' ∧ s'.thread = .freed ∧ s'.calls = s.calls)
      ⟨good_of_reach h, hfreed, rfl⟩ ?_ hs'
    rintro mid a next ⟨hgood, hthread, hcalls⟩ - hs
    obtain ⟨hthread', hcalls'⟩ := step_of_unreferenced (hgood.unreferenced hthread) hthread hs
    exact ⟨hgood.step hs, hthread', hcalls'.trans hcalls⟩
  exact ⟨hstays.1.unreferenced hstays.2.1, hstays.2.2⟩

/-- A periodic timer that expires while it is being freed: the callback runs when the deletion
is already in the queue. -/
theorem unreferenced_of_freed_periodic :
    ∃ s, Reach (step 2) (fun _ _ => True) (.init (rhsTimerAlloc 1 .periodic 0)) s ∧
      s.thread = .freed ∧ s.calls = 1 ∧ Unreferenced s := by
  have hrun : runActions (step 2) (fun _ _ => True) (.init (rhsTimerAlloc 1 .periodic 0))
      [.call (.start 10), .thread, .daemon false, .daemon false, .call .free, .thread, .expire,
        .thread, .thread, .thread, .daemon false, .daemon false, .daemon false, .daemon false,
        .daemon false, .daemon false, .daemon false, .daemon false, .daemon false, .daemon false,
        .daemon false, .daemon false, .thread, .thread] = some _ := rfl
  have hreach := Reach.of_runActions hrun
  exact ⟨_, hreach, rfl, rfl, (unreferenced_of_freed 2 1 .periodic 0 hreach rfl).1⟩

end RhsCore.Timer
