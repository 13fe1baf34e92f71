import RhsCore.Core.Kernel
import RhsCore.Lib.Transition

/-!
# Critical sections

`core/critical.c` over the FreeRTOS ports that mask the kernel's interrupts with BASEPRI.  A
section masks in one of three ways, by what it finds when it is entered: where interrupts
already look masked it raises BASEPRI and keeps the old value, under the running kernel it
uses the kernel's own counted sections, and otherwise it sets PRIMASK.  The exit undoes what
the enter noted.

The three nest: PRIMASK hides the scheduler from what is entered below it, and a counted
section is entered only above other counted ones.

## Main definitions

* `Core`, `Port` — the masks, and the kernel's functions that change them.
* `rhsCriticalEnter`, `rhsCriticalExit` — the two calls.
* `Nest`, `step` — sections and suspensions of the scheduler, in any proper order.
* `Shape` — which sections are open, and what they have left of the masks.
* `critical_section_iff` — what holds inside an outermost section, and after it.
-/

namespace RhsCore.Critical

/-! ## The core and the kernel -/

/-- The port: `configMAX_SYSCALL_INTERRUPT_PRIORITY`, which must not be zero. -/
structure Port where
  maxSyscall : UInt32
  ne_zero : maxSyscall ≠ 0

/-- What the masks and the kernel's count are; `irqMode` is `__get_IPSR() != 0`. -/
structure Core where
  irqMode : Bool
  primask : Bool
  basepri : UInt32
  criticalNesting : ℕ
  scheduler : Scheduler
  deriving DecidableEq, Repr

/-- The interrupts that the kernel manages are masked. -/
def Core.Masked (port : Port) (c : Core) : Prop :=
  c.primask = true ∨ c.basepri ≠ 0 ∧ c.basepri ≤ port.maxSyscall

/-- `taskENTER_CRITICAL_FROM_ISR`. -/
def taskEnterCriticalFromIsr (port : Port) (c : Core) : UInt32 × Core :=
  (c.basepri, { c with basepri := port.maxSyscall })

/-- `taskEXIT_CRITICAL_FROM_ISR`. -/
def taskExitCriticalFromIsr (isrm : UInt32) (c : Core) : Core := { c with basepri := isrm }

/-- `taskENTER_CRITICAL`. -/
def taskEnterCritical (port : Port) (c : Core) : Core :=
  { c with basepri := port.maxSyscall, criticalNesting := c.criticalNesting + 1 }

/-- `taskEXIT_CRITICAL`: it asserts that a section is open, and unmasks when the last is
closed. -/
def taskExitCritical (c : Core) : Option Core :=
  if c.criticalNesting = 0 then none
  else
    some { c with
      basepri := if c.criticalNesting = 1 then 0 else c.basepri
      criticalNesting := c.criticalNesting - 1 }

theorem taskExitCritical_succ {c : Core} {n : ℕ} (h : c.criticalNesting = n + 1) :
    taskExitCritical c =
      some { c with basepri := if n = 0 then 0 else c.basepri, criticalNesting := n } := by
  rw [taskExitCritical, if_neg (by omega), h]
  simp

/-- `xTaskResumeAll`: it takes its suspension away in a section of the kernel's. -/
def resumeAll (port : Port) (c : Core) : Option Core :=
  (xTaskResumeAll c.scheduler false).bind fun (_, scheduler) =>
    taskExitCritical { taskEnterCritical port c with scheduler := scheduler }

/-! ## The calls -/

/-- `RHS_IS_ISR`. -/
def Core.rhsIsIsr (c : Core) : Bool := c.irqMode || c.primask

/-- `__RHSCriticalInfo`. -/
structure RHSCriticalInfo where
  isrm : UInt32
  fromIsr : Bool
  kernelRunning : Bool
  deriving DecidableEq, Repr

/-- `__rhs_critical_enter`. -/
def rhsCriticalEnter (port : Port) (c : Core) : RHSCriticalInfo × Core :=
  let kernelRunning := decide (c.scheduler.state = .running)
  if c.rhsIsIsr then
    let (isrm, c') := taskEnterCriticalFromIsr port c
    ({ isrm := isrm, fromIsr := true, kernelRunning := kernelRunning }, c')
  else if kernelRunning then
    ({ isrm := 0, fromIsr := false, kernelRunning := true }, taskEnterCritical port c)
  else ({ isrm := 0, fromIsr := false, kernelRunning := false }, { c with primask := true })

/-- `__rhs_critical_exit`. -/
def rhsCriticalExit (info : RHSCriticalInfo) (c : Core) : Option Core :=
  if info.fromIsr then some (taskExitCriticalFromIsr info.isrm c)
  else if info.kernelRunning then taskExitCritical c
  else some { c with primask := false }

/-! ## Nested sections -/

/-- Sections, and the suspensions among them. -/
inductive Call
  | enter
  | exit
  | suspendAll
  | resumeAll
  deriving DecidableEq, Repr

/-- The core, and what the open sections noted, the innermost first. -/
structure Nest where
  core : Core
  infos : List RHSCriticalInfo
  deriving DecidableEq, Repr

/-- One call.  What is left is what was entered last; the scheduler is suspended by tasks,
and resumed only while it is suspended. -/
def step (port : Port) (s : Nest) : Call → Option Nest
  | .enter =>
      let (info, c) := rhsCriticalEnter port s.core
      some { core := c, infos := info :: s.infos }
  | .exit =>
      match s.infos with
      | [] => none
      | info :: infos => (rhsCriticalExit info s.core).map fun c => { core := c, infos := infos }
  | .suspendAll =>
      if s.core.irqMode then none
      else some { s with core.scheduler := vTaskSuspendAll s.core.scheduler }
  | .resumeAll =>
      if s.core.irqMode then none
      else (resumeAll port s.core).map fun c => { s with core := c }

/-- The outermost section, just entered. -/
def outermost (port : Port) (c : Core) : Nest :=
  { core := (rhsCriticalEnter port c).2, infos := [(rhsCriticalEnter port c).1] }

/-- The outermost section stays open; `resumes` is whether the scheduler may be resumed. -/
def StaysOpen (resumes : Bool) (s : Nest) (a : Call) : Prop :=
  (a = .exit → 1 < s.infos.length) ∧ (a = .resumeAll → resumes = true)

/-- What is called inside a section of `c`. -/
abbrev Inside (port : Port) (resumes : Bool) (c : Core) : Nest → Prop :=
  Reach (step port) (StaysOpen resumes) (outermost port c)

/-- BASEPRI is what the kernel makes of its count. -/
def Counted (port : Port) (c : Core) : Prop :=
  c.basepri = if c.criticalNesting = 0 then 0 else port.maxSyscall

/-- When a section of `c` leaves BASEPRI as it was. -/
def Restores (port : Port) (resumes : Bool) (c : Core) : Prop :=
  c.rhsIsIsr = true ∨ Counted port c ∨ (c.scheduler.state ≠ .running ∧ resumes = false)

/-! ## Which sections are open -/

/-- What a section noted that set PRIMASK. -/
def disabledInfo : RHSCriticalInfo := { isrm := 0, fromIsr := false, kernelRunning := false }

/-- What a section noted that the kernel counts. -/
def countedInfo : RHSCriticalInfo := { isrm := 0, fromIsr := false, kernelRunning := true }

/-- What is noted below the sections that keep BASEPRI: perhaps one that set PRIMASK, and
`k` counted ones. -/
def notedBelow (disabled : Bool) (k : ℕ) : List RHSCriticalInfo :=
  (if disabled then [disabledInfo] else []) ++ List.replicate k countedInfo

/-- BASEPRI as it was found by the first of the sections that keep it. -/
def found (basepri : UInt32) : List RHSCriticalInfo → UInt32
  | [] => basepri
  | info :: isrs => found info.isrm isrs

/-- **The open sections** inside one of `c`: `isrs` keep BASEPRI, below them perhaps one set
PRIMASK, and below that `k` are counted. -/
structure Shape (port : Port) (resumes : Bool) (c : Core) (s : Nest)
    (isrs : List RHSCriticalInfo) (disabled : Bool) (k : ℕ) : Prop where
  irqMode : s.core.irqMode = c.irqMode
  primask : s.core.primask = (c.primask || disabled)
  nesting : s.core.criticalNesting = c.criticalNesting + k
  infos : s.infos = isrs ++ notedBelow disabled k
  fromIsr : ∀ info ∈ isrs, info.fromIsr = true
  hidden : isrs ≠ [] → s.core.rhsIsIsr = true
  alone : c.rhsIsIsr = true → disabled = false ∧ k = 0
  running : k ≠ 0 → c.scheduler.state = .running
  basepri : (k ≠ 0 ∨ disabled = false ∨ Counted port c ∨ resumes = false) →
    found s.core.basepri isrs = if k = 0 then c.basepri else port.maxSyscall
  irq : c.irqMode = true → isrs ≠ [] →
    s.core.basepri = port.maxSyscall ∧ ∀ info ∈ isrs.dropLast, info.isrm = port.maxSyscall

variable {port : Port} {resumes : Bool} {c : Core} {s s' : Nest}
  {isrs : List RHSCriticalInfo} {disabled : Bool} {k : ℕ}

/-- Nothing is open. -/
theorem shape_closed (port : Port) (resumes : Bool) (c : Core) :
    Shape port resumes c ⟨c, []⟩ [] false 0 where
  irqMode := rfl
  primask := (Bool.or_false _).symm
  nesting := rfl
  infos := rfl
  fromIsr := by simp
  hidden := by simp
  alone := fun _ => ⟨rfl, rfl⟩
  running := by simp
  basepri := fun _ => rfl
  irq := by simp

/-- Only where interrupts did not look masked is one open that does not keep BASEPRI. -/
theorem Shape.not_isr (h : Shape port resumes c s isrs disabled k)
    (hbelow : disabled = true ∨ k ≠ 0) : c.rhsIsIsr = false := by
  by_contra hisr
  obtain ⟨hdisabled, hk⟩ := h.alone (Bool.not_eq_false _ ▸ hisr)
  simp [hdisabled, hk] at hbelow

theorem found_of_ne_nil (basepri basepri' : UInt32) (h : isrs ≠ []) :
    found basepri isrs = found basepri' isrs := by
  cases isrs with
  | nil => exact absurd rfl h
  | cons info isrs => rfl

/-- A section is entered where interrupts look masked. -/
theorem Shape.enter_isr (h : Shape port resumes c s isrs disabled k)
    (hisr : s.core.rhsIsIsr = true) (kernelRunning : Bool) :
    Shape port resumes c
      ⟨{ s.core with basepri := port.maxSyscall },
        ⟨s.core.basepri, true, kernelRunning⟩ :: s.infos⟩
      (⟨s.core.basepri, true, kernelRunning⟩ :: isrs) disabled k where
  irqMode := h.irqMode
  primask := h.primask
  nesting := h.nesting
  infos := by rw [h.infos, List.cons_append]
  fromIsr := List.forall_mem_cons.mpr ⟨rfl, h.fromIsr⟩
  hidden := fun _ => hisr
  alone := h.alone
  running := h.running
  basepri := h.basepri
  irq := by
    intro hirq _
    refine ⟨rfl, ?_⟩
    cases isrs with
    | nil => simp
    | cons first isrs =>
        obtain ⟨hbasepri, hrest⟩ := h.irq hirq (List.cons_ne_nil _ _)
        rw [List.dropLast_cons_cons]
        exact List.forall_mem_cons.mpr ⟨hbasepri, hrest⟩

/-- Where interrupts do not look masked, all that is open is counted. -/
theorem Shape.of_not_isr (h : Shape port resumes c s isrs disabled k)
    (hisr : s.core.rhsIsIsr = false) :
    isrs = [] ∧ disabled = false ∧ c.rhsIsIsr = false := by
  obtain ⟨hirq, hmask⟩ := Bool.or_eq_false_iff.mp hisr
  rw [h.irqMode] at hirq
  rw [h.primask, Bool.or_eq_false_iff] at hmask
  refine ⟨?_, hmask.2, ?_⟩
  · by_contra hne
    rw [h.hidden hne] at hisr
    cases hisr
  · rw [Core.rhsIsIsr, hirq, hmask.1]
    rfl

/-- A counted section is entered. -/
theorem Shape.enter_counted (h : Shape port resumes c s isrs disabled k)
    (hisr : s.core.rhsIsIsr = false) (hrunning : k = 0 → c.scheduler.state = .running) :
    Shape port resumes c ⟨taskEnterCritical port s.core, countedInfo :: s.infos⟩ [] false
      (k + 1) := by
  obtain ⟨rfl, rfl, hc⟩ := h.of_not_isr hisr
  constructor
  · exact h.irqMode
  · exact h.primask
  · rw [← Nat.add_assoc, ← h.nesting]
    rfl
  · rw [h.infos]
    rfl
  · simp
  · simp
  · simp [hc]
  · intro _
    by_cases hk : k = 0
    · exact hrunning hk
    · exact h.running hk
  · intro _
    rfl
  · simp

/-- A section is entered that sets PRIMASK. -/
theorem Shape.enter_disabled (h : Shape port resumes c s isrs disabled k)
    (hisr : s.core.rhsIsIsr = false) :
    Shape port resumes c ⟨{ s.core with primask := true }, disabledInfo :: s.infos⟩ [] true k := by
  obtain ⟨rfl, rfl, hc⟩ := h.of_not_isr hisr
  constructor
  · exact h.irqMode
  · exact (Bool.or_true _).symm
  · exact h.nesting
  · rw [h.infos]
    rfl
  · simp
  · simp
  · simp [hc]
  · exact h.running
  · intro _
    exact h.basepri (.inr (.inl rfl))
  · simp

/-- A section is left that kept BASEPRI. -/
theorem Shape.exit_isr {info : RHSCriticalInfo}
    (h : Shape port resumes c s (info :: isrs) disabled k) :
    Shape port resumes c
      ⟨taskExitCriticalFromIsr info.isrm s.core, isrs ++ notedBelow disabled k⟩
      isrs disabled k where
  irqMode := h.irqMode
  primask := h.primask
  nesting := h.nesting
  infos := rfl
  fromIsr := (List.forall_mem_cons.mp h.fromIsr).2
  hidden := fun _ => h.hidden (List.cons_ne_nil _ _)
  alone := h.alone
  running := h.running
  basepri := h.basepri
  irq := by
    intro hirq hne
    obtain ⟨first, rest, rfl⟩ := List.exists_cons_of_ne_nil hne
    have hkept := (h.irq hirq (List.cons_ne_nil _ _)).2
    rw [List.dropLast_cons_cons] at hkept
    exact List.forall_mem_cons.mp hkept

/-- The section is left that set PRIMASK. -/
theorem Shape.exit_disabled (h : Shape port resumes c s [] true k)
    (hrestores : k ≠ 0 ∨ Counted port c ∨ resumes = false) :
    Shape port resumes c ⟨{ s.core with primask := false }, notedBelow false k⟩ [] false k := by
  have hc := h.not_isr (.inl rfl)
  constructor
  · exact h.irqMode
  · rw [(Bool.or_eq_false_iff.mp hc).2]
    rfl
  · exact h.nesting
  · rfl
  · simp
  · simp
  · simp [hc]
  · exact h.running
  · intro _
    exact h.basepri (hrestores.imp_right .inr)
  · simp

/-- A counted section is left that is not the last. -/
theorem Shape.exit_counted (h : Shape port resumes c s [] false (k + 1)) (hk : k ≠ 0) :
    ∃ core, taskExitCritical s.core = some core ∧
      Shape port resumes c ⟨core, notedBelow false k⟩ [] false k := by
  have hbasepri := h.basepri (.inl (Nat.succ_ne_zero k))
  have hexit := taskExitCritical_succ (n := c.criticalNesting + k) h.nesting
  refine ⟨_, hexit, ?_⟩
  constructor
  · exact h.irqMode
  · exact h.primask
  · rfl
  · rfl
  · simp
  · simp
  · simp [h.not_isr (.inr (Nat.succ_ne_zero k))]
  · exact fun _ => h.running (Nat.succ_ne_zero k)
  · intro _
    rw [if_neg hk]
    dsimp only [found] at hbasepri ⊢
    rw [if_neg (by omega), hbasepri, if_neg (Nat.succ_ne_zero k)]
  · simp

/-- The scheduler is suspended or resumed, as far as the sections are concerned. -/
theorem Shape.schedule (h : Shape port resumes c s isrs disabled k) (scheduler : Scheduler) :
    Shape port resumes c { s with core.scheduler := scheduler } isrs disabled k :=
  ⟨h.irqMode, h.primask, h.nesting, h.infos, h.fromIsr, h.hidden, h.alone, h.running, h.basepri,
    h.irq⟩

/-- The kernel's own section makes BASEPRI what the count says. -/
theorem Shape.resume (h : Shape port resumes c s isrs disabled k) (hopen : s.infos ≠ [])
    (hirq : s.core.irqMode = false) (hresumes : resumes = true) :
    Shape port resumes c
      { s with core.basepri := if s.core.criticalNesting = 0 then 0 else port.maxSyscall }
      isrs disabled k where
  irqMode := h.irqMode
  primask := h.primask
  nesting := h.nesting
  infos := h.infos
  fromIsr := h.fromIsr
  hidden := h.hidden
  alone := h.alone
  running := h.running
  basepri := by
    intro hguard
    by_cases hne : isrs = []
    swap
    · rw [found_of_ne_nil _ s.core.basepri hne]
      exact h.basepri hguard
    subst hne
    dsimp only [found]
    rw [h.nesting]
    by_cases hk : k = 0
    swap
    · rw [if_neg (by omega), if_neg hk]
    subst hk
    rw [Nat.add_zero, if_pos rfl]
    rcases hguard with hk | hdisabled | hcounted | hnone
    · exact absurd rfl hk
    · -- then nothing would be open
      rw [h.infos, hdisabled] at hopen
      exact absurd rfl hopen
    · exact hcounted.symm
    · rw [hnone] at hresumes
      cases hresumes
  irq := by
    intro hc
    rw [← h.irqMode, hirq] at hc
    cases hc

/-! ## Runs -/

theorem resumeAll_eq {core core' : Core} (h : resumeAll port core = some core') :
    ∃ scheduler, core' =
      { core with
        basepri := if core.criticalNesting = 0 then 0 else port.maxSyscall
        scheduler := scheduler } := by
  obtain ⟨⟨_, scheduler⟩, -, hexit⟩ := Option.bind_eq_some_iff.mp h
  refine ⟨scheduler, ?_⟩
  simpa [taskExitCritical, taskEnterCritical] using hexit.symm

/-- Whatever a section finds, it is one of the three. -/
theorem Shape.enter (h : Shape port resumes c s isrs disabled k)
    (hrunning : s.core.rhsIsIsr = false → k = 0 → s.core.scheduler.state = .running →
      c.scheduler.state = .running) :
    ∃ isrs' disabled' k', Shape port resumes c
      ⟨(rhsCriticalEnter port s.core).2, (rhsCriticalEnter port s.core).1 :: s.infos⟩
      isrs' disabled' k' := by
  rw [rhsCriticalEnter]
  split
  · rename_i hisr
    exact ⟨_, _, _, h.enter_isr hisr _⟩
  · rename_i hisr
    rw [Bool.not_eq_true] at hisr
    split
    · rename_i hstate
      exact ⟨_, _, _, h.enter_counted hisr fun hk => hrunning hisr hk (of_decide_eq_true hstate)⟩
    · exact ⟨_, _, _, h.enter_disabled hisr⟩

/-- A section is left, with another around it. -/
theorem Shape.exit (h : Shape port resumes c s isrs disabled k) (hopen : 1 < s.infos.length)
    (hs : step port s .exit = some s') :
    ∃ isrs' disabled' k', Shape port resumes c s' isrs' disabled' k' := by
  rw [step, h.infos] at hs
  cases isrs with
  | cons info isrs =>
      have hinfo := h.fromIsr info List.mem_cons_self
      rw [List.cons_append] at hs
      simp only [rhsCriticalExit, hinfo, if_true, Option.map_some, Option.some.injEq] at hs
      subst hs
      exact ⟨_, _, _, h.exit_isr⟩
  | nil =>
      rw [h.infos] at hopen
      cases disabled with
      | true =>
          have hk : k ≠ 0 := by
            rintro rfl
            simp [notedBelow] at hopen
          obtain rfl := Option.some.inj hs
          exact ⟨_, _, _, h.exit_disabled (.inl hk)⟩
      | false =>
          obtain ⟨k, rfl⟩ : ∃ n, k = n + 1 := by
            refine Nat.exists_eq_succ_of_ne_zero ?_
            rintro rfl
            simp [notedBelow] at hopen
          have hk : k ≠ 0 := by
            rintro rfl
            simp [notedBelow] at hopen
          obtain ⟨core, hexit, hshape⟩ := h.exit_counted hk
          change (taskExitCritical s.core).map _ = _ at hs
          rw [hexit] at hs
          obtain rfl := Option.some.inj hs
          exact ⟨_, _, _, hshape⟩

/-- **One call** inside a section keeps the shape. -/
theorem Shape.step (h : Shape port resumes c s isrs disabled k) (hopen : s.infos ≠ [])
    {a : Call} (ha : StaysOpen resumes s a) (hs : Critical.step port s a = some s') :
    s'.infos ≠ [] ∧ ∃ isrs' disabled' k', Shape port resumes c s' isrs' disabled' k' := by
  cases a with
  | enter =>
      obtain rfl := Option.some.inj hs
      refine ⟨List.cons_ne_nil _ _, h.enter ?_⟩
      -- something is open, and all of it is counted
      rintro hisr rfl -
      obtain ⟨rfl, rfl, -⟩ := h.of_not_isr hisr
      exact absurd h.infos hopen
  | exit =>
      have hmore := ha.1 rfl
      refine ⟨?_, h.exit hmore hs⟩
      obtain ⟨info, infos, hinfos⟩ := List.exists_cons_of_ne_nil hopen
      rw [Critical.step, hinfos] at hs
      obtain ⟨core, -, rfl⟩ := Option.map_eq_some_iff.mp hs
      rw [hinfos, List.length_cons] at hmore
      have hpos : 0 < infos.length := by omega
      exact List.length_pos_iff.mp hpos
  | suspendAll =>
      rw [Critical.step] at hs
      split at hs
      · cases hs
      · obtain rfl := Option.some.inj hs
        exact ⟨hopen, _, _, _, h.schedule _⟩
  | resumeAll =>
      rw [Critical.step] at hs
      split at hs
      · cases hs
      · rename_i hirq
        obtain ⟨core, hcore, rfl⟩ := Option.map_eq_some_iff.mp hs
        obtain ⟨scheduler, rfl⟩ := resumeAll_eq hcore
        rw [Bool.not_eq_true] at hirq
        exact ⟨hopen, _, _, _, (h.resume hopen hirq (ha.2 rfl)).schedule scheduler⟩

/-- **Everywhere inside a section**: by induction on the calls. -/
theorem shape_of_inside (h : Inside port resumes c s) :
    s.infos ≠ [] ∧ ∃ isrs disabled k, Shape port resumes c s isrs disabled k := by
  refine Reach.invariant (I := fun s => s.infos ≠ [] ∧ ∃ isrs disabled k,
    Shape port resumes c s isrs disabled k) ?_ ?_ h
  · exact ⟨List.cons_ne_nil _ _, (shape_closed port resumes c).enter fun _ _ hstate => hstate⟩
  · rintro s a s' ⟨hopen, isrs, disabled, k, hshape⟩ ha hs
    exact hshape.step hopen ha hs

/-- **What is open masks.** -/
theorem Shape.masked (h : Shape port resumes c s isrs disabled k) (hopen : s.infos ≠ []) :
    s.core.Masked port := by
  by_cases hprimask : s.core.primask = true
  · exact .inl hprimask
  right
  have hmax : s.core.basepri = port.maxSyscall := by
    rw [Bool.not_eq_true] at hprimask
    by_cases hisrs : isrs = []
    · subst hisrs
      have hdisabled := (Bool.or_eq_false_iff.mp (h.primask ▸ hprimask)).2
      have hk : k ≠ 0 := by
        rintro rfl
        rw [h.infos, hdisabled] at hopen
        exact hopen rfl
      have hbasepri := h.basepri (.inl hk)
      rwa [if_neg hk] at hbasepri
    · have hisr := h.hidden hisrs
      rw [Core.rhsIsIsr, hprimask, Bool.or_false, h.irqMode] at hisr
      exact (h.irq hisr hisrs).1
  rw [hmax]
  exact ⟨port.ne_zero, UInt32.le_refl _⟩

theorem notedBelow_eq_nil_iff : notedBelow disabled k = [] ↔ disabled = false ∧ k = 0 := by
  cases disabled <;> simp [notedBelow]

theorem notedBelow_eq_singleton_iff {info : RHSCriticalInfo} :
    notedBelow disabled k = [info] ↔
      (disabled = true ∧ k = 0 ∧ info = disabledInfo) ∨
      (disabled = false ∧ k = 1 ∧ info = countedInfo) := by
  cases disabled with
  | true => simp [notedBelow, @eq_comm _ info disabledInfo, and_comm]
  | false =>
      rcases k with _ | _ | k
      · simp [notedBelow]
      · simp [notedBelow, @eq_comm _ info countedInfo]
      · simp [notedBelow, List.replicate_succ]

/-- The outermost section is left that kept BASEPRI. -/
theorem Shape.close_isr {info : RHSCriticalInfo}
    (h : Shape port resumes c s [info] false 0) :
    rhsCriticalExit info s.core = some (taskExitCriticalFromIsr info.isrm s.core) ∧
      s.core.primask = c.primask ∧ s.core.criticalNesting = c.criticalNesting ∧
      info.isrm = c.basepri := by
  have hfrom := h.fromIsr info List.mem_cons_self
  have hprimask := h.primask
  rw [Bool.or_false] at hprimask
  exact ⟨if_pos hfrom, hprimask, h.nesting, h.basepri (.inr (.inl rfl))⟩

/-- The outermost section is left that set PRIMASK. -/
theorem Shape.close_disabled (h : Shape port resumes c s [] true 0) :
    c.primask = false ∧ s.core.criticalNesting = c.criticalNesting ∧
      (Restores port resumes c → s.core.basepri = c.basepri) := by
  have hc := h.not_isr (.inl rfl)
  refine ⟨(Bool.or_eq_false_iff.mp hc).2, h.nesting, fun hrestores => ?_⟩
  have hguard : Counted port c ∨ resumes = false := by
    rcases hrestores with hisr | hcounted | ⟨-, hnone⟩
    · rw [hc] at hisr
      cases hisr
    · exact .inl hcounted
    · exact .inr hnone
  exact h.basepri (.inr (.inr hguard))

/-- The outermost section is left that the kernel counts. -/
theorem Shape.close_counted (h : Shape port resumes c s [] false 1) :
    ∃ core, taskExitCritical s.core = some core ∧ core.primask = c.primask ∧
      core.criticalNesting = c.criticalNesting ∧
      (Restores port resumes c → core.basepri = c.basepri) := by
  have hprimask := h.primask
  have hbasepri := h.basepri (.inl Nat.one_ne_zero)
  rw [Bool.or_false] at hprimask
  rw [if_neg Nat.one_ne_zero] at hbasepri
  refine ⟨_, taskExitCritical_succ h.nesting, hprimask, rfl, fun hrestores => ?_⟩
  have hcounted : Counted port c := by
    rcases hrestores with hisr | hcounted | ⟨hstate, -⟩
    · rw [h.not_isr (.inr Nat.one_ne_zero)] at hisr
      cases hisr
    · exact hcounted
    · exact absurd (h.running Nat.one_ne_zero) hstate
  dsimp only [found] at hbasepri ⊢
  rw [hbasepri, hcounted]

/-- **The outermost section is left**: there is one section, and it is one of the three. -/
theorem Shape.close (h : Shape port resumes c s isrs disabled k) {info : RHSCriticalInfo}
    (hlast : s.infos = [info]) :
    ∃ core, rhsCriticalExit info s.core = some core ∧ core.primask = c.primask ∧
      core.criticalNesting = c.criticalNesting ∧
      (Restores port resumes c → core.basepri = c.basepri) := by
  have hinfos := h.infos
  rw [hlast] at hinfos
  cases isrs with
  | cons first isrs =>
      obtain ⟨rfl, hrest⟩ := List.cons.inj hinfos
      obtain ⟨rfl, hbelow⟩ := List.append_eq_nil_iff.mp hrest.symm
      obtain ⟨rfl, rfl⟩ := notedBelow_eq_nil_iff.mp hbelow
      obtain ⟨hexit, hprimask, hnesting, hbasepri⟩ := h.close_isr
      exact ⟨_, hexit, hprimask, hnesting, fun _ => hbasepri⟩
  | nil =>
      rcases notedBelow_eq_singleton_iff.mp hinfos.symm with ⟨rfl, rfl, rfl⟩ | ⟨rfl, rfl, rfl⟩
      · obtain ⟨hprimask, hnesting, hbasepri⟩ := h.close_disabled
        exact ⟨{ s.core with primask := false }, rfl, hprimask.symm, hnesting, hbasepri⟩
      · exact h.close_counted

/-! ## Sections that do not restore -/

/-- A counted section leaves BASEPRI as the kernel's count says. -/
theorem exit_counted (port : Port) (hisr : c.rhsIsIsr = false)
    (hstate : c.scheduler.state = .running) :
    ∃ core, (outermost port c).infos = [countedInfo] ∧
      rhsCriticalExit countedInfo (outermost port c).core = some core ∧
      core.basepri = if c.criticalNesting = 0 then 0 else port.maxSyscall := by
  have henter : outermost port c = ⟨taskEnterCritical port c, [countedInfo]⟩ := by
    simp [outermost, rhsCriticalEnter, hisr, hstate, countedInfo]
  have hexit : taskExitCritical (taskEnterCritical port c) = _ := taskExitCritical_succ rfl
  rw [henter]
  exact ⟨_, rfl, hexit, rfl⟩

/-- Where the scheduler is resumed in a section that set PRIMASK, so does the kernel's own. -/
theorem exit_disabled (port : Port) (hisr : c.rhsIsIsr = false)
    (hstate : c.scheduler.state ≠ .running) :
    ∃ s, Inside port true c s ∧ s.infos = [disabledInfo] ∧
      s.core.basepri = if c.criticalNesting = 0 then 0 else port.maxSyscall := by
  have henter : outermost port c = ⟨{ c with primask := true }, [disabledInfo]⟩ := by
    simp [outermost, rhsCriticalEnter, hisr, hstate, disabledInfo]
  have hirq : c.irqMode = false := (Bool.or_eq_false_iff.mp hisr).1
  have hsuspend : step port (outermost port c) .suspendAll =
      some ⟨{ c with primask := true, scheduler := vTaskSuspendAll c.scheduler },
        [disabledInfo]⟩ := by
    simp [henter, step, hirq]
  have hresume : step port ⟨{ c with primask := true, scheduler := vTaskSuspendAll c.scheduler },
      [disabledInfo]⟩ .resumeAll = some ⟨{ c with
        primask := true
        basepri := if c.criticalNesting = 0 then 0 else port.maxSyscall }, [disabledInfo]⟩ := by
    simp [step, hirq, resumeAll, xTaskResumeAll, vTaskSuspendAll, taskEnterCritical,
      taskExitCritical]
  refine ⟨_, (Reach.start.next ?_ hsuspend).next ?_ hresume, rfl, rfl⟩
  · simp [StaysOpen]
  · simp [StaysOpen]

/-- Where BASEPRI is not what the kernel's count says, a counted section makes it so, and so
does resuming the scheduler in a section that set PRIMASK. -/
theorem not_restored (h : ¬ Restores port resumes c) :
    ∃ s info core, Inside port resumes c s ∧ s.infos = [info] ∧
      rhsCriticalExit info s.core = some core ∧ core.basepri ≠ c.basepri := by
  obtain ⟨hisr, hrest⟩ := not_or.mp h
  obtain ⟨hcounted, hresumes⟩ := not_or.mp hrest
  rw [Bool.not_eq_true] at hisr
  by_cases hstate : c.scheduler.state = .running
  · obtain ⟨core, hinfos, hexit, hbasepri⟩ := exit_counted port hisr hstate
    refine ⟨_, _, core, .start, hinfos, hexit, fun heq => hcounted ?_⟩
    exact heq.symm.trans hbasepri
  · obtain rfl : resumes = true := by
      by_contra hnone
      exact hresumes ⟨hstate, Bool.not_eq_true _ ▸ hnone⟩
    obtain ⟨s, hs, hinfos, hbasepri⟩ := exit_disabled port hisr hstate
    refine ⟨s, _, _, hs, hinfos, rfl, fun heq => hcounted ?_⟩
    exact heq.symm.trans hbasepri

/-- **Nested critical sections**, in any order with suspensions of the scheduler: wherever one
is open the kernel's interrupts are masked, and when the outermost is left, PRIMASK and the
kernel's count are as they were found.  BASEPRI is, exactly where interrupts looked masked to
the outermost, where BASEPRI was what the kernel makes of its count, or where the scheduler was
not running and is not resumed inside. -/
theorem critical_section_iff (port : Port) (resumes : Bool) (c : Core) :
    (∀ s, Inside port resumes c s → s.core.Masked port ∧
      ∀ info, s.infos = [info] → ∃ core, rhsCriticalExit info s.core = some core ∧
        core.primask = c.primask ∧ core.criticalNesting = c.criticalNesting) ∧
    ((∀ s info core, Inside port resumes c s → s.infos = [info] →
      rhsCriticalExit info s.core = some core → core.basepri = c.basepri) ↔
      Restores port resumes c) := by
  constructor
  · intro s hs
    obtain ⟨hopen, isrs, disabled, k, hshape⟩ := shape_of_inside hs
    refine ⟨hshape.masked hopen, fun info hlast => ?_⟩
    obtain ⟨core, hexit, hprimask, hnesting, -⟩ := hshape.close hlast
    exact ⟨core, hexit, hprimask, hnesting⟩
  constructor
  · intro hall
    by_contra hnot
    obtain ⟨s, info, core, hs, hlast, hexit, hne⟩ := not_restored hnot
    exact hne (hall s info core hs hlast hexit)
  · intro hrestores s info core hs hlast hexit
    obtain ⟨-, isrs, disabled, k, hshape⟩ := shape_of_inside hs
    obtain ⟨core', hexit', -, -, hbasepri⟩ := hshape.close hlast
    obtain rfl : core' = core := Option.some.inj (hexit'.symm.trans hexit)
    exact hbasepri hrestores

/-- A task that has raised BASEPRI itself finds it lowered, and before the scheduler is started
a section in which it was suspended and resumed leaves BASEPRI raised: the kernel's count is not
zero until then. -/
theorem basepri_not_restored :
    let port : Port := ⟨0x50, by decide⟩
    let running : Core := ⟨false, false, 0x50, 0, ⟨true, 0⟩⟩
    let starting : Core := ⟨false, false, 0, 0xaaaaaaaa, ⟨false, 0⟩⟩
    runActions (step port) (fun _ _ => True) ⟨running, []⟩ [.enter, .exit] =
      some ⟨{ running with basepri := 0 }, []⟩ ∧
    runActions (step port) (fun _ _ => True) ⟨starting, []⟩
      [.enter, .suspendAll, .resumeAll, .exit] = some ⟨{ starting with basepri := 0x50 }, []⟩ := by
  decide

end RhsCore.Critical
