import Mathlib.Logic.Function.Basic
import RhsCore.Hal.Can
import RhsCore.Lib.Transition

/-!
# The interrupts of the CAN interfaces

`rhs_hal_can.c` over `rhs_hal_interrupt.c`.  A thread starts an interface: it writes callbacks
and their contexts, one word at a time, puts its handlers in the table of interrupts and enables
them.  An interrupt can come between any two of these steps, on each interface; the handler of
status changes may stop the interface it is about, which takes the handlers out again.

A step of the thread below is one write or one assertion.  An interrupt runs to its end: no
other comes in its handler, though the priorities of the source would let the reception come in
that of status changes.  The hardware may request any interrupt at any time.

## Main definitions

* `Op`, `rhsHalInterruptSetIsrEx`, `rhsHalCanDeinit`, `coStartNode` — what the functions do, step
  by step.
* `rhsHalInterruptCall` — an interrupt.
* `Interface.Ready` — what an interrupt needs.
* `can_interrupts_ready` — every interrupt that is enabled finds it.
-/

namespace RhsCore.CanIrq

/-! ## The state -/

/-- The three interrupts of an interface. -/
inductive Irq
  | rx0
  | sce
  | tx
  deriving DecidableEq

/-- The handlers of `rhs_hal_can.c`. -/
inductive Isr
  | canRxCallback
  | canSceCallback
  | canTxCallback
  deriving DecidableEq

/-- `RHSHalInterruptISRPair`. -/
structure IsrPair where
  isr : Option Isr
  context : Option RHSHalCANId
  deriving DecidableEq

/-- A callback and its context; `none` is a null pointer. -/
structure Callback where
  fn : Option ℕ
  context : Option ℕ
  deriving DecidableEq

/-- One step of a thread, which works on one interface. -/
inductive Op
  | assertEnabled (enabled : Bool)
  | setEnabled (enabled : Bool)
  | assertNotNull (p : Option ℕ)
  /-- `rx_callback = callback`, or that of another interrupt. -/
  | setCallback (irq : Irq) (fn : Option ℕ)
  /-- `rx_context = context`, or that of another interrupt. -/
  | setCallbackContext (irq : Irq) (context : Option ℕ)
  /-- `rhs_assert(isr_descr->isr == NULL)` -/
  | assertIsrNull (irq : Irq)
  /-- `isr_descr->isr = isr` -/
  | setIsr (irq : Irq) (isr : Option Isr)
  /-- `isr_descr->context = context` -/
  | setIsrContext (irq : Irq) (context : Option RHSHalCANId)
  | clearPending (irq : Irq)
  | enable (irq : Irq)
  | disable (irq : Irq)
  deriving DecidableEq

/-- An interface, its lines of the tables, and what the thread that starts it has still to do.
`given` are the callbacks of the last start. -/
structure Interface where
  enabled : Bool
  callback : Irq → Callback
  isr : Irq → IsrPair
  irqEnabled : Irq → Bool
  pending : Irq → Bool
  todo : List Op
  given : Irq → Callback

/-- The interfaces, and whether an assertion failed. -/
structure State where
  interface : RHSHalCANId → Interface
  crashed : Bool

def Interface.init : Interface where
  enabled := false
  callback _ := ⟨none, none⟩
  isr _ := ⟨none, none⟩
  irqEnabled _ := false
  pending _ := false
  todo := []
  given _ := ⟨none, none⟩

def State.init : State where
  interface _ := Interface.init
  crashed := false

namespace Interface

variable (i : Interface) (irq : Irq)

def setCallback (c : Callback) : Interface :=
  { i with callback := Function.update i.callback irq c }

def setIsr (p : IsrPair) : Interface := { i with isr := Function.update i.isr irq p }

def setPending (pending : Bool) : Interface :=
  { i with pending := Function.update i.pending irq pending }

def setIrqEnabled (enabled : Bool) : Interface :=
  { i with irqEnabled := Function.update i.irqEnabled irq enabled }

end Interface

/-! ## The functions -/

/-- What a step does; `none` where an assertion fails. -/
def Op.run (i : Interface) : Op → Option Interface
  | assertEnabled enabled => if i.enabled = enabled then some i else none
  | setEnabled enabled => some { i with enabled := enabled }
  | assertNotNull p => if p.isSome then some i else none
  | setCallback irq fn => some (i.setCallback irq { i.callback irq with fn := fn })
  | setCallbackContext irq context =>
      some (i.setCallback irq { i.callback irq with context := context })
  | assertIsrNull irq => if (i.isr irq).isr = none then some i else none
  | setIsr irq isr => some (i.setIsr irq { i.isr irq with isr := isr })
  | setIsrContext irq context => some (i.setIsr irq { i.isr irq with context := context })
  | clearPending irq => some (i.setPending irq false)
  | enable irq => some (i.setIrqEnabled irq true)
  | disable irq => some (i.setIrqEnabled irq false)

/-- All steps at once. -/
def runOps : Interface → List Op → Option Interface
  | i, [] => some i
  | i, op :: ops => (op.run i).bind fun i' => runOps i' ops

def rhsHalInterruptSetIsrEx (irq : Irq) (isr : Option Isr) (context : Option RHSHalCANId) :
    List Op :=
  (if isr.isSome then [.assertIsrNull irq] else [.disable irq, .clearPending irq]) ++
    [.setIsr irq isr, .setIsrContext irq context] ++
    if isr.isSome then [.clearPending irq, .enable irq] else []

/-- `rcan_start` succeeds; the assertion on it is left out. -/
def rhsHalCanInit : List Op := [.assertEnabled false, .setEnabled true]

def rhsHalCanDeinit : List Op :=
  [.assertEnabled true] ++ rhsHalInterruptSetIsrEx .sce none none ++
    rhsHalInterruptSetIsrEx .tx none none ++ rhsHalInterruptSetIsrEx .rx0 none none ++
    [.setEnabled false]

/-- The callback is written before its context, and both before the handler. -/
def setHandler (id : RHSHalCANId) (irq : Irq) (isr : Isr) (callback : Callback) : List Op :=
  [.setCallback irq callback.fn, .setCallbackContext irq callback.context] ++
    rhsHalInterruptSetIsrEx irq (some isr) (some id)

def rhsHalCanAsyncSce (id : RHSHalCANId) (callback : Callback) : List Op :=
  .assertEnabled true :: setHandler id .sce .canSceCallback callback

def rhsHalCanTxCmpltCb (id : RHSHalCANId) (callback : Callback) : List Op :=
  [.assertEnabled true, .assertNotNull callback.fn, .assertNotNull callback.context] ++
    setHandler id .tx .canTxCallback callback

def rhsHalCanAsyncRxStart (id : RHSHalCANId) (callback : Callback) : List Op :=
  [.assertEnabled true, .assertNotNull callback.fn, .assertNotNull callback.context] ++
    setHandler id .rx0 .canRxCallback callback

/-- What `co_start_node` does with the interface, which has no callback for transmissions; one
may be set after that for frames. -/
def coStartNode (id : RHSHalCANId) (rx : Callback) (tx : Option Callback) (sce : Callback) :
    List Op :=
  rhsHalCanInit ++ rhsHalCanAsyncRxStart id rx ++ tx.elim [] (rhsHalCanTxCmpltCb id) ++
    rhsHalCanAsyncSce id sce

/-! ## The interrupts -/

/-- A handler, with the interface that its context points to.  The callback asserts its own
context; that of a received frame calls `rhs_hal_can_rx`, which asserts that the interface is
enabled; that of a status change may stop the interface. -/
def Isr.run (i : Interface) (silent : Bool) : Isr → Option Interface
  | canRxCallback =>
      if (i.callback .rx0).fn.isSome then
        if (i.callback .rx0).context.isSome ∧ i.enabled then some i else none
      else some i
  | canSceCallback =>
      if (i.callback .sce).fn.isSome then
        if (i.callback .sce).context.isSome then
          if silent then runOps i rhsHalCanDeinit else some i
        else none
      else some i
  | canTxCallback =>
      if (i.callback .tx).fn.isSome then
        if (i.callback .tx).context.isSome then some i else none
      else some i

def State.set (s : State) (id : RHSHalCANId) (i : Interface) : State :=
  { s with interface := Function.update s.interface id i }

/-- What is left of the state after a step that may fail. -/
def State.after (s : State) (id : RHSHalCANId) : Option Interface → State
  | some i => s.set id i
  | none => { s with crashed := true }

/-- `rhs_hal_interrupt_call`: the handler asserts its context, which says the interface. -/
def rhsHalInterruptCall (s : State) (pair : IsrPair) (silent : Bool) : State :=
  match pair.isr, pair.context with
  | none, _ => s
  | some _, none => { s with crashed := true }
  | some isr, some id => s.after id (isr.run (s.interface id) silent)

/-! ## The system -/

inductive Action
  /-- A thread calls `co_start_node`. -/
  | start (id : RHSHalCANId) (rx : Callback) (tx : Option Callback) (sce : Callback)
  /-- The thread that starts the interface goes on. -/
  | thread (id : RHSHalCANId)
  /-- The hardware requests an interrupt. -/
  | request (id : RHSHalCANId) (irq : Irq)
  /-- The interrupt is taken; `silent` is what the status says. -/
  | interrupt (id : RHSHalCANId) (irq : Irq) (silent : Bool)
  deriving DecidableEq

/-- What the callbacks are, by interrupt. -/
def givenBy (rx : Callback) (tx : Option Callback) (sce : Callback) : Irq → Callback
  | .rx0 => rx
  | .tx => tx.getD ⟨none, none⟩
  | .sce => sce

def step (s : State) : Action → Option State
  | .start id rx tx sce =>
      if s.crashed = false ∧ (s.interface id).todo = [] then
        some (s.set id { s.interface id with
          todo := coStartNode id rx tx sce
          given := givenBy rx tx sce })
      else none
  | .thread id =>
      match (s.interface id).todo with
      | [] => none
      | op :: ops =>
          if s.crashed then none
          else some (s.after id ((op.run (s.interface id)).map fun i => { i with todo := ops }))
  | .request id irq =>
      some (s.set id ((s.interface id).setPending irq true))
  | .interrupt id irq silent =>
      if s.crashed = false ∧ (s.interface id).irqEnabled irq ∧ (s.interface id).pending irq then
        some (rhsHalInterruptCall (s.set id ((s.interface id).setPending irq false))
          ((s.interface id).isr irq) silent)
      else none

/-- Neither pointer is null. -/
def Callback.Set (c : Callback) : Prop := c.fn.isSome ∧ c.context.isSome

instance (c : Callback) : Decidable c.Set := inferInstanceAs (Decidable (_ ∧ _))

/-- **The use of the interfaces**: one that is not in use is started, with callbacks that are
there. -/
def Allowed (s : State) : Action → Prop
  | .start id rx tx sce => (s.interface id).enabled = false ∧ rx.Set ∧ (∀ c ∈ tx, c.Set) ∧ sce.Set
  | _ => True

instance (s : State) : (a : Action) → Decidable (Allowed s a)
  | .start id rx tx sce => inferInstanceAs (Decidable
      ((s.interface id).enabled = false ∧ rx.Set ∧ (∀ c ∈ tx, c.Set) ∧ sce.Set))
  | .thread _ | .request _ _ | .interrupt _ _ _ => inferInstanceAs (Decidable True)

/-- The handler of an interrupt. -/
def Irq.isr : Irq → Isr
  | .rx0 => .canRxCallback
  | .sce => .canSceCallback
  | .tx => .canTxCallback

/-- **What an interrupt needs**: its own handler with its own interface, which is enabled, and the
callback of the last start, whole. -/
structure Interface.Ready (id : RHSHalCANId) (i : Interface) (irq : Irq) : Prop where
  isr : i.isr irq = ⟨some irq.isr, some id⟩
  enabled : i.enabled = true
  given : i.callback irq = i.given irq
  set : (i.callback irq).Set

/-! ## One interface -/

/-- Every interrupt that is enabled has what it needs. -/
def Calm (id : RHSHalCANId) (i : Interface) : Prop :=
  ∀ irq, i.irqEnabled irq = true → i.Ready id irq

/-- No handler is there, and no interrupt is enabled. -/
def Cleared (i : Interface) : Prop :=
  ∀ irq, (i.isr irq).isr = none ∧ i.irqEnabled irq = false

/-- The steps to come fail nowhere, and interrupts can come between them.  Where that of status
changes is enabled, nothing is to come. -/
def Safe (id : RHSHalCANId) : Interface → List Op → Prop
  | i, [] => i.enabled = true ∨ Cleared i
  | i, op :: ops => ∃ i', op.run i = some i' ∧ Calm id i' ∧
      (i'.irqEnabled .sce = true → ops = []) ∧ Safe id i' ops

/-- The invariant of an interface. -/
structure Good (id : RHSHalCANId) (i : Interface) : Prop where
  calm : Calm id i
  last : i.irqEnabled .sce = true → i.todo = []
  safe : Safe id i i.todo

/-- The same but for what is pending and what is to do. -/
structure Same (i j : Interface) : Prop where
  enabled : i.enabled = j.enabled
  callback : i.callback = j.callback
  isr : i.isr = j.isr
  irqEnabled : i.irqEnabled = j.irqEnabled
  given : i.given = j.given

section Same

variable {id : RHSHalCANId} {i i' j : Interface} {op : Op} {ops : List Op}

theorem Same.calm (h : Same i j) (hi : Calm id i) : Calm id j := by
  intro irq hirq
  have hready := hi irq (h.irqEnabled ▸ hirq)
  refine ⟨h.isr ▸ hready.isr, h.enabled ▸ hready.enabled, ?_, h.callback ▸ hready.set⟩
  rw [← h.callback, ← h.given]
  exact hready.given

theorem Same.cleared (h : Same i j) (hi : Cleared i) : Cleared j := by
  intro irq
  rw [← h.isr, ← h.irqEnabled]
  exact hi irq

/-- A step does the same to both. -/
theorem Same.run (h : Same i j) (hrun : op.run i = some i') :
    ∃ j', op.run j = some j' ∧ Same i' j' := by
  obtain ⟨henabled, hcallback, hisr, hirq, hgiven⟩ := h
  cases op with
  | assertEnabled enabled | assertNotNull p | assertIsrNull irq =>
      simp only [Op.run, Option.ite_none_right_eq_some, Option.some.injEq] at hrun
      obtain ⟨hif, rfl⟩ := hrun
      exact ⟨j, by simp_all [Op.run], henabled, hcallback, hisr, hirq, hgiven⟩
  | _ =>
      obtain rfl := Option.some.inj hrun
      refine ⟨_, rfl, ?_⟩
      constructor <;>
        simp [Interface.setCallback, Interface.setIsr, Interface.setPending,
          Interface.setIrqEnabled, *]

theorem Same.safe (h : Same i j) (hi : Safe id i ops) : Safe id j ops := by
  induction ops generalizing i j with
  | nil => exact hi.imp (fun henabled => h.enabled ▸ henabled) h.cleared
  | cons op ops ih =>
      obtain ⟨i', hrun, hcalm, hlast, hsafe⟩ := hi
      obtain ⟨j', hrun', hsame⟩ := h.run hrun
      exact ⟨j', hrun', hsame.calm hcalm, hsame.irqEnabled ▸ hlast, ih hsame hsafe⟩

theorem Same.good (h : Same i j) (htodo : j.todo = i.todo) (hi : Good id i) : Good id j where
  calm := h.calm hi.calm
  last hsce := htodo ▸ hi.last (h.irqEnabled ▸ hsce)
  safe := htodo ▸ h.safe hi.safe

end Same

/-! ## Starting -/

section Starting

variable {id : RHSHalCANId} {done : List Irq} {irq : Irq} {i : Interface} {callback : Callback}
  {op : Op} {rest : List Op}

/-- The handlers of these interrupts are installed. -/
structure Started (id : RHSHalCANId) (done : List Irq) (i : Interface) : Prop where
  enabled : i.enabled = true
  ready : ∀ irq ∈ done, i.Ready id irq
  free : ∀ irq ∉ done, (i.isr irq).isr = none ∧ i.irqEnabled irq = false
  sce : Irq.sce ∉ done

/-- They are installed, and this one is about to be. -/
structure Installing (id : RHSHalCANId) (done : List Irq) (irq : Irq) (i : Interface) : Prop where
  enabled : i.enabled = true
  ready : ∀ other ∈ done, i.Ready id other
  free : ∀ other ∉ done, other ≠ irq → (i.isr other).isr = none ∧ i.irqEnabled other = false
  sce : Irq.sce ∉ done
  off : i.irqEnabled irq = false
  out : irq ∉ done

theorem Started.installing (h : Started id done i) (hirq : irq ∉ done) :
    Installing id done irq i where
  enabled := h.enabled
  ready := h.ready
  free other hother _ := h.free other hother
  sce := h.sce
  off := (h.free irq hirq).2
  out := hirq

/-- An interrupt that is enabled is installed. -/
theorem Installing.mem (h : Installing id done irq i) {other : Irq}
    (hother : i.irqEnabled other = true) : other ∈ done := by
  by_contra hmem
  by_cases heq : other = irq
  · subst heq
    simp [h.off] at hother
  · simp [(h.free other hmem heq).2] at hother

theorem Installing.calm (h : Installing id done irq i) : Calm id i := by
  intro other hother
  exact h.ready other (h.mem hother)

theorem Installing.last (h : Installing id done irq i) (hsce : i.irqEnabled .sce = true) :
    rest = [] :=
  absurd (h.mem hsce) h.sce

theorem Installing.ne (h : Installing id done irq i) {other : Irq} (hother : other ∈ done) :
    other ≠ irq := by
  intro heq
  exact h.out (heq ▸ hother)

/-- The callback may be written. -/
theorem Installing.setCallback (h : Installing id done irq i) (c : Callback) :
    Installing id done irq (i.setCallback irq c) := by
  refine ⟨h.enabled, ?_, h.free, h.sce, h.off, h.out⟩
  intro other hother
  have hready := h.ready other hother
  have hsame : (i.setCallback irq c).callback other = i.callback other := by
    simp [Interface.setCallback, h.ne hother]
  exact ⟨hready.isr, hready.enabled, hsame.trans hready.given, hsame ▸ hready.set⟩

/-- The handler may be written. -/
theorem Installing.setIsr (h : Installing id done irq i) (p : IsrPair) :
    Installing id done irq (i.setIsr irq p) := by
  have hsame {other : Irq} (hne : other ≠ irq) : (i.setIsr irq p).isr other = i.isr other := by
    simp [Interface.setIsr, hne]
  refine ⟨h.enabled, ?_, ?_, h.sce, h.off, h.out⟩
  · intro other hother
    have hready := h.ready other hother
    exact ⟨(hsame (h.ne hother)).trans hready.isr, hready.enabled, hready.given, hready.set⟩
  · intro other hother hne
    rw [hsame hne]
    exact h.free other hother hne

theorem Installing.setPending (h : Installing id done irq i) (pending : Bool) :
    Installing id done irq (i.setPending irq pending) := by
  refine ⟨h.enabled, ?_, h.free, h.sce, h.off, h.out⟩
  intro other hother
  have hready := h.ready other hother
  exact ⟨hready.isr, hready.enabled, hready.given, hready.set⟩

/-- A step that keeps the invariant of an installation is safe. -/
theorem Installing.safe {i' : Interface} (h : Installing id done irq i') (hrun : op.run i = some i')
    (hrest : Safe id i' rest) : Safe id i (op :: rest) :=
  ⟨i', hrun, h.calm, h.last, hrest⟩

/-- The interrupt that is about to be installed is enabled. -/
theorem Installing.enable (h : Installing id done irq i) (hready : i.Ready id irq) :
    Calm id (i.setIrqEnabled irq true) := by
  intro other hother
  have hother' : (i.Ready id other) := by
    by_cases hne : other = irq
    · exact hne ▸ hready
    · exact h.calm other (by simpa [Interface.setIrqEnabled, hne] using hother)
  exact ⟨hother'.isr, hother'.enabled, hother'.given, hother'.set⟩

theorem Installing.started (h : Installing id done irq i) (hready : i.Ready id irq)
    (hne : irq ≠ .sce) : Started id (irq :: done) (i.setIrqEnabled irq true) := by
  refine ⟨h.enabled, ?_, ?_, by simpa [Ne.symm hne] using h.sce⟩
  · intro other hother
    have hother' : i.Ready id other := by
      rcases List.mem_cons.mp hother with rfl | hmem
      · exact hready
      · exact h.ready other hmem
    exact ⟨hother'.isr, hother'.enabled, hother'.given, hother'.set⟩
  · intro other hother
    rw [List.mem_cons, not_or] at hother
    have hfree := h.free other hother.2 hother.1
    exact ⟨hfree.1, by simpa [Interface.setIrqEnabled, hother.1] using hfree.2⟩

/-- **A handler is installed**: the callback before its context, both before the handler, and
all of it before the interrupt is enabled. -/
theorem safe_setHandler (h : Started id done i) (hirq : irq ∉ done) (hset : callback.Set)
    (hgiven : i.given irq = callback) (hlast : irq = .sce → rest = [])
    (hrest : ∀ i', i'.enabled = true → i'.given = i.given →
      (irq ≠ .sce → Started id (irq :: done) i') → Safe id i' rest) :
    Safe id i (setHandler id irq irq.isr callback ++ rest) := by
  have hinstall := h.installing hirq
  have hnull := (h.free irq hirq).1
  have hfn := hinstall.setCallback { i.callback irq with fn := callback.fn }
  refine hfn.safe rfl ?_
  have hcontext := hfn.setCallback callback
  have hcallback : (i.setCallback irq { i.callback irq with fn := callback.fn }).setCallback irq
      callback = i.setCallback irq callback := by
    simp [Interface.setCallback]
  rw [hcallback] at hcontext
  refine hcontext.safe (by simp [Op.run, Interface.setCallback]) ?_
  refine hcontext.safe (by simp [Op.run, Interface.setCallback, hnull]) ?_
  have hisr := hcontext.setIsr { i.isr irq with isr := some irq.isr }
  refine hisr.safe rfl ?_
  have hpair := hcontext.setIsr ⟨some irq.isr, some id⟩
  refine hpair.safe (by simp [Op.run, Interface.setIsr, Interface.setCallback]) ?_
  have hpending := hpair.setPending false
  refine hpending.safe rfl ?_
  have hready : Interface.Ready id (((i.setCallback irq callback).setIsr irq
      ⟨some irq.isr, some id⟩).setPending irq false) irq := by
    refine ⟨?_, h.enabled, ?_, ?_⟩ <;>
      simp [Interface.setPending, Interface.setIsr, Interface.setCallback, hgiven, hset]
  refine ⟨_, rfl, hpending.enable hready, ?_, hrest _ h.enabled rfl (hpending.started hready)⟩
  intro hsce
  by_cases heq : irq = .sce
  · exact hlast heq
  · apply hpending.last
    simpa [Interface.setIrqEnabled, Ne.symm heq] using hsce

theorem Started.calm (h : Started id done i) : Calm id i := by
  intro other hother
  apply h.ready other
  by_contra hmem
  simp [(h.free other hmem).2] at hother

/-- An assertion that holds. -/
theorem Started.safe (h : Started id done i) (hrun : op.run i = some i) (hrest : Safe id i rest) :
    Safe id i (op :: rest) := by
  refine ⟨i, hrun, h.calm, fun hsce => ?_, hrest⟩
  simp [(h.free .sce h.sce).2] at hsce

/-- **A start is safe** on an interface that is not in use. -/
theorem safe_coStartNode {rx sce : Callback} {tx : Option Callback} (henabled : i.enabled = false)
    (hcleared : Cleared i) (hgiven : i.given = givenBy rx tx sce) (hrx : rx.Set)
    (htx : ∀ c ∈ tx, c.Set) (hsce : sce.Set) : Safe id i (coStartNode id rx tx sce) := by
  have hinit : Started id [] { i with enabled := true } :=
    ⟨rfl, by simp, fun irq _ => hcleared irq, by simp⟩
  have hcalm : Calm id i := by
    intro irq hirq
    simp [(hcleared irq).2] at hirq
  have hlast (done : List Irq) (j : Interface) (hj : Started id done j)
      (hsame : j.given = i.given) : Safe id j (rhsHalCanAsyncSce id sce) := by
    rw [rhsHalCanAsyncSce, ← List.append_nil (setHandler _ _ _ _)]
    refine hj.safe (by simp [Op.run, hj.enabled]) ?_
    refine safe_setHandler hj hj.sce hsce (by simp [hsame, hgiven, givenBy]) (fun _ => rfl) ?_
    intro k hk _ _
    exact .inl hk
  simp only [coStartNode, List.append_assoc]
  refine ⟨i, by simp [Op.run, henabled], hcalm, by simp [(hcleared .sce).2], ?_⟩
  refine ⟨_, rfl, hinit.calm, by simp [(hcleared .sce).2], ?_⟩
  refine hinit.safe (by simp [Op.run]) (hinit.safe (by simp [Op.run, hrx.1]) ?_)
  refine hinit.safe (by simp [Op.run, hrx.2]) ?_
  refine safe_setHandler hinit (by simp) hrx (by simp [hgiven, givenBy]) (by simp) ?_
  intro j henabled hj hstarted
  have hj' := hstarted (by simp)
  cases tx with
  | none => exact hlast _ j hj' hj
  | some c =>
      have hc := htx c rfl
      refine hj'.safe (by simp [Op.run, henabled]) (hj'.safe (by simp [Op.run, hc.1]) ?_)
      refine hj'.safe (by simp [Op.run, hc.2]) ?_
      refine safe_setHandler hj' (by simp) hc (by simp [hj, hgiven, givenBy]) (by simp) ?_
      intro k _ hk hstarted
      exact hlast _ k (hstarted (by simp)) (hk.trans hj)


end Starting


/-! ## Stopping -/

theorem runOps_append (i : Interface) (ops ops' : List Op) :
    runOps i (ops ++ ops') = (runOps i ops).bind fun i' => runOps i' ops' := by
  induction ops generalizing i with
  | nil => rfl
  | cons op ops ih => simp [runOps, ih, Option.bind_assoc]

/-- What a cleared interrupt leaves. -/
def Interface.clear (i : Interface) (irq : Irq) : Interface :=
  ((i.setIrqEnabled irq false).setPending irq false).setIsr irq ⟨none, none⟩

@[simp] theorem todo_clear (i : Interface) (irq : Irq) : (i.clear irq).todo = i.todo := rfl

@[simp] theorem isr_clear (i : Interface) (irq : Irq) :
    (i.clear irq).isr = Function.update i.isr irq ⟨none, none⟩ := rfl

@[simp] theorem irqEnabled_clear (i : Interface) (irq : Irq) :
    (i.clear irq).irqEnabled = Function.update i.irqEnabled irq false := rfl

theorem runOps_clear (i : Interface) (irq : Irq) :
    runOps i (rhsHalInterruptSetIsrEx irq none none) = some (i.clear irq) := by
  simp [rhsHalInterruptSetIsrEx, runOps, Op.run, Interface.clear, Interface.setIsr]

/-- **A stop leaves nothing**: no handler, and no interrupt that is enabled. -/
theorem runOps_rhsHalCanDeinit {i : Interface} (h : i.enabled = true) :
    ∃ i', runOps i rhsHalCanDeinit = some i' ∧ Cleared i' ∧ i'.todo = i.todo := by
  refine ⟨{ ((i.clear .sce).clear .tx).clear .rx0 with enabled := false }, ?_, ?_, by simp⟩
  · have hassert : runOps i [.assertEnabled true] = some i := by simp [runOps, Op.run, h]
    simp only [rhsHalCanDeinit, runOps_append, hassert, runOps_clear, Option.bind_some]
    rfl
  · intro irq
    cases irq <;> simp

theorem Cleared.good {id : RHSHalCANId} {i : Interface} (h : Cleared i) (htodo : i.todo = []) :
    Good id i := by
  refine ⟨fun irq hirq => ?_, fun _ => htodo, ?_⟩
  · simp [(h irq).2] at hirq
  · rw [htodo]
    exact .inr h

/-- **An interrupt keeps the invariant**, and no assertion of its handler fails. -/
theorem Good.isr {id : RHSHalCANId} {i : Interface} (h : Good id i) {irq : Irq}
    (hirq : i.irqEnabled irq = true) (silent : Bool) :
    ∃ i', irq.isr.run i silent = some i' ∧ Good id i' := by
  have hready := h.calm irq hirq
  have hset := hready.set
  cases irq with
  | rx0 => exact ⟨i, by simp [Irq.isr, Isr.run, hset.1, hset.2, hready.enabled], h⟩
  | tx => exact ⟨i, by simp [Irq.isr, Isr.run, hset.1, hset.2], h⟩
  | sce =>
      cases silent with
      | false => exact ⟨i, by simp [Irq.isr, Isr.run, hset.1, hset.2], h⟩
      | true =>
          obtain ⟨i', hrun, hcleared, htodo⟩ := runOps_rhsHalCanDeinit hready.enabled
          refine ⟨i', by simp [Irq.isr, Isr.run, hset.1, hset.2, hrun], hcleared.good ?_⟩
          rw [htodo]
          exact h.last hirq

/-! ## Runs -/

/-- The invariant. -/
structure AllGood (s : State) : Prop where
  crashed : s.crashed = false
  good : ∀ id, Good id (s.interface id)

variable {s s' : State} {id : RHSHalCANId}

theorem allGood_init : AllGood State.init :=
  ⟨rfl, fun _ => Cleared.good (fun _ => ⟨rfl, rfl⟩) rfl⟩

theorem AllGood.set (h : AllGood s) {i : Interface} (hi : Good id i) : AllGood (s.set id i) := by
  refine ⟨h.crashed, fun other => ?_⟩
  by_cases hother : other = id
  · subst hother
    simpa [State.set] using hi
  · simpa [State.set, hother] using h.good other

theorem AllGood.setPending (h : AllGood s) (irq : Irq) (pending : Bool) :
    AllGood (s.set id ((s.interface id).setPending irq pending)) :=
  h.set (Same.good (i := s.interface id) ⟨rfl, rfl, rfl, rfl, rfl⟩ rfl (h.good id))

/-- A start, where nothing is to do. -/
theorem AllGood.start (h : AllGood s) {rx sce : Callback} {tx : Option Callback}
    (htodo : (s.interface id).todo = []) (ha : Allowed s (.start id rx tx sce)) :
    AllGood (s.set id { s.interface id with
      todo := coStartNode id rx tx sce
      given := givenBy rx tx sce }) := by
  obtain ⟨henabled, hrx, htx, hsce⟩ := ha
  have hsafe := (h.good id).safe
  rw [htodo, Safe, henabled] at hsafe
  have hcleared : Cleared (s.interface id) := hsafe.resolve_left (by simp)
  refine h.set ⟨fun irq hirq => ?_, fun hlast => ?_, ?_⟩
  · simp [(hcleared irq).2] at hirq
  · simp [(hcleared .sce).2] at hlast
  · exact safe_coStartNode henabled hcleared rfl hrx htx hsce

/-- One step of the thread. -/
theorem AllGood.thread (h : AllGood s) {op : Op} {ops : List Op}
    (htodo : (s.interface id).todo = op :: ops) :
    AllGood (s.after id ((op.run (s.interface id)).map fun i => { i with todo := ops })) := by
  have hsafe := (h.good id).safe
  rw [htodo] at hsafe
  obtain ⟨i, hrun, hcalm, hlast, hsafe⟩ := hsafe
  have hsame : Same i { i with todo := ops } := ⟨rfl, rfl, rfl, rfl, rfl⟩
  rw [hrun]
  exact h.set ⟨hsame.calm hcalm, hlast, hsame.safe hsafe⟩

/-- An interrupt that is enabled. -/
theorem AllGood.interrupt (h : AllGood s) {irq : Irq}
    (hirq : (s.interface id).irqEnabled irq = true) (silent : Bool) :
    AllGood (rhsHalInterruptCall (s.set id ((s.interface id).setPending irq false))
      ((s.interface id).isr irq) silent) := by
  have hpending : AllGood (s.set id ((s.interface id).setPending irq false)) :=
    h.setPending irq false
  have hgood := hpending.good id
  simp only [State.set, Function.update_self] at hgood
  obtain ⟨i, hrun, hi⟩ := hgood.isr hirq silent
  rw [((h.good id).calm irq hirq).isr]
  simp only [rhsHalInterruptCall, State.set, Function.update_self, hrun]
  exact hpending.set hi

theorem AllGood.step {a : Action} (h : AllGood s) (ha : Allowed s a) (hs : step s a = some s') :
    AllGood s' := by
  cases a with
  | start id rx tx sce =>
      simp only [CanIrq.step, Option.ite_none_right_eq_some, Option.some.injEq] at hs
      obtain ⟨⟨-, htodo⟩, rfl⟩ := hs
      exact h.start htodo ha
  | thread id =>
      simp only [CanIrq.step] at hs
      split at hs
      · cases hs
      · rename_i op ops htodo
        rw [h.crashed, if_neg (by simp)] at hs
        obtain rfl := Option.some.inj hs
        exact h.thread htodo
  | request id irq =>
      obtain rfl := Option.some.inj hs
      exact h.setPending irq true
  | interrupt id irq silent =>
      simp only [CanIrq.step, Option.ite_none_right_eq_some, Option.some.injEq] at hs
      obtain ⟨⟨-, hirq, -⟩, rfl⟩ := hs
      exact h.interrupt hirq silent

/-- **Every interrupt finds what it needs.**  However the steps of starts, interrupts and stops
by interrupts follow each other, no assertion fails, and an interrupt that is enabled has its own
handler with its own interface, which is enabled, and the callback and the context that were
given with it. -/
theorem can_interrupts_ready (h : Reach step Allowed State.init s) :
    s.crashed = false ∧ ∀ id irq, (s.interface id).irqEnabled irq = true →
      (s.interface id).Ready id irq := by
  have hgood : AllGood s := h.invariant allGood_init fun _ _ _ hs ha hstep => hs.step ha hstep
  exact ⟨hgood.crashed, fun id irq hirq => (hgood.good id).calm irq hirq⟩

/-- A node is started, its line falls silent, and it is started again with another context. -/
theorem restarted_rx_ready : ∃ s, Reach step Allowed State.init s ∧
    ((s.interface .id1).irqEnabled .rx0 = true ∧ (s.interface .id1).irqEnabled .sce = false) ∧
    (s.interface .id1).callback .rx0 = ⟨some 1, some 20⟩ := by
  have hrun : Reach step Allowed State.init _ :=
    @Reach.of_runActions _ _ _ _ _
      (.start .id1 ⟨some 1, some 10⟩ none ⟨some 2, some 10⟩ ::
        List.replicate 20 (.thread .id1) ++
        [.request .id1 .sce, .interrupt .id1 .sce true,
          .start .id1 ⟨some 1, some 20⟩ none ⟨some 2, some 20⟩] ++
        List.replicate 12 (.thread .id1)) _ _ rfl
  have hready := (can_interrupts_ready hrun).2 .id1 .rx0 rfl
  exact ⟨_, hrun, ⟨rfl, rfl⟩, hready.given⟩

end RhsCore.CanIrq
