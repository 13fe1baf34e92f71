import Mathlib.Data.Nat.Notation
import RhsCore.Lib.Transition

/-!
# Interrupts

`rhs_hal_interrupt.c`: handlers are set and called with a context each, and the time in them
is summed up.  An interrupt can come between two steps of a thread, or of an interrupt of
lower priority.

A slot of the table is set by one thread.  The counter of cycles is read as the first thing
in an interrupt.

## Main definitions

* `rhsHalInterruptSetIsr` — the next step of setting a handler.
* `always_paired_iff` — when no handler is ever called with the context of another.
* `rhsHalInterruptCall` — the next step of an interrupt, about its time.
* `isr_time_accounts` — what the sum is.
-/

namespace RhsCore.Interrupt

/-! ## Handlers -/

/-- Where `rhs_hal_interrupt_set_isr_ex` is; handlers are numbers, with `none` for `NULL`. -/
inductive SetPc
  | away
  /-- Before the handler is stored. -/
  | isr (isr : Option ℕ) (context : ℕ)
  /-- Before the context is stored. -/
  | context (isr : Option ℕ) (context : ℕ)
  /-- Before the interrupt is enabled, if it is to be. -/
  | enable (isr : Option ℕ)
  deriving DecidableEq, Repr

/-- A slot of the table, and whether its interrupt is enabled.  `given` is the handler that
is to be called, with its context. -/
structure Slot where
  isr : Option ℕ
  context : ℕ
  enabled : Bool
  pc : SetPc
  given : Option (ℕ × ℕ)
  deriving DecidableEq, Repr

/-- `rhs_hal_interrupt` is zeroed. -/
def Slot.init : Slot where
  isr := none
  context := 0
  enabled := false
  pc := .away
  given := none

/-- A thread calls `rhs_hal_interrupt_set_isr_ex`: there must be no handler yet, or the
interrupt is disabled. -/
def Slot.call (isr : Option ℕ) (context : ℕ) (s : Slot) : Option Slot :=
  if s.pc = .away then
    match isr with
    | some f =>
        if s.isr = none then
          some { s with pc := .isr isr context, given := some (f, context) }
        else none
    | none => some { s with enabled := false, pc := .isr none context, given := none }
  else none

/-- The next step of `rhs_hal_interrupt_set_isr_ex`. -/
def rhsHalInterruptSetIsr (s : Slot) : Option Slot :=
  match s.pc with
  | .away => none
  | .isr isr context => some { s with isr := isr, pc := .context isr context }
  | .context isr context => some { s with context := context, pc := .enable isr }
  | .enable isr => some { s with enabled := s.enabled || isr.isSome, pc := .away }

/-- What happens to a slot; drivers enable and disable its interrupt on their own as well. -/
inductive SlotAction
  | call (isr : Option ℕ) (context : ℕ)
  | next
  | enableIrq
  | disableIrq
  deriving DecidableEq, Repr

def Slot.step (s : Slot) : SlotAction → Option Slot
  | .call isr context => s.call isr context
  | .next => rhsHalInterruptSetIsr s
  | .enableIrq => some { s with enabled := true }
  | .disableIrq => some { s with enabled := false }

/-- What an interrupt calls that comes now. -/
def Slot.dispatched (s : Slot) : Option (ℕ × ℕ) :=
  if s.enabled then s.isr.map fun isr => (isr, s.context) else none

/-- An interrupt that comes now calls nothing, or the handler that is to be called, with its
context. -/
def Slot.Paired (s : Slot) : Prop := ∀ call, s.dispatched = some call → s.given = some call

/-- A handler is stored while its interrupt is disabled, and drivers do not enable it between the
two stores, unless the context is there already; nor while it is being cleared and is still in
its slot. -/
def Slot.Allowed (s : Slot) : SlotAction → Prop
  | .next =>
      match s.pc with
      | .isr (some _) context => s.enabled = true → s.context = context
      | _ => True
  | .enableIrq =>
      match s.pc with
      | .isr none _ => s.isr = none
      | .context (some _) context => s.context = context
      | _ => True
  | _ => True

/-- What is in the slot at each place. -/
def Slot.Valid (s : Slot) : Prop :=
  match s.pc with
  | .away => s.isr.map (fun isr => (isr, s.context)) = s.given
  | .isr (some f) context => s.isr = none ∧ s.given = some (f, context)
  | .isr none _ => s.given = none
  | .context (some f) context => s.isr = some f ∧ s.given = some (f, context)
  | .context none _ => s.isr = none ∧ s.given = none
  | .enable isr => s.isr = isr ∧ isr.map (fun isr => (isr, s.context)) = s.given

variable {s s' : Slot}

theorem valid_init : Slot.init.Valid := rfl

theorem paired_init : Slot.init.Paired := fun _ h => nomatch h

theorem step_call {isr : Option ℕ} {context : ℕ}
    (hs : s.step (.call isr context) = some s') : s.pc = .away ∧
      ((∃ f, isr = some f ∧ s.isr = none ∧
        s' = { s with pc := .isr isr context, given := some (f, context) }) ∨
      (isr = none ∧
        s' = { s with enabled := false, pc := .isr none context, given := none })) := by
  simp only [Slot.step, Slot.call, Option.ite_none_right_eq_some] at hs
  refine ⟨hs.1, ?_⟩
  cases isr with
  | none => exact .inr ⟨rfl, (Option.some.inj hs.2).symm⟩
  | some f =>
      have hset := hs.2
      rw [Option.ite_none_right_eq_some, Option.some.injEq] at hset
      exact .inl ⟨f, rfl, hset.1, hset.2.symm⟩

theorem valid_step {a : SlotAction} (h : s.Valid) (hs : s.step a = some s') : s'.Valid := by
  cases a with
  | call isr context =>
      obtain ⟨-, ⟨f, rfl, hnone, rfl⟩ | ⟨rfl, rfl⟩⟩ := step_call hs
      · exact ⟨hnone, rfl⟩
      · rfl
  | next =>
      simp only [Slot.step, rhsHalInterruptSetIsr] at hs
      cases hp : s.pc with
      | away => simp [hp] at hs
      | isr isr context =>
          simp only [hp, Option.some.injEq] at hs
          rw [← hs]
          cases isr with
          | none =>
              simp only [Slot.Valid, hp] at h
              exact ⟨rfl, h⟩
          | some f =>
              simp only [Slot.Valid, hp] at h
              exact ⟨rfl, h.2⟩
      | context isr context =>
          simp only [hp, Option.some.injEq] at hs
          rw [← hs]
          cases isr with
          | none =>
              simp only [Slot.Valid, hp] at h
              exact ⟨h.1, h.2.symm⟩
          | some f =>
              simp only [Slot.Valid, hp] at h
              exact ⟨h.1, h.2.symm⟩
      | enable isr =>
          simp only [hp, Option.some.injEq] at hs
          simp only [Slot.Valid, hp] at h
          rw [← hs, Slot.Valid]
          simp only [h.1]
          exact h.2
  | enableIrq | disableIrq =>
      obtain rfl := Option.some.inj hs
      exact h

theorem paired_step_iff {a : SlotAction} (h : s.Valid) (hs : s.step a = some s') :
    s'.Paired ↔ s.Allowed a := by
  cases a with
  | call isr context =>
      refine iff_of_true ?_ trivial
      obtain ⟨-, ⟨f, rfl, hnone, rfl⟩ | ⟨rfl, rfl⟩⟩ := step_call hs
      · simp [Slot.Paired, Slot.dispatched, hnone]
      · simp [Slot.Paired, Slot.dispatched]
  | next =>
      simp only [Slot.step, rhsHalInterruptSetIsr] at hs
      cases hp : s.pc with
      | away => simp [hp] at hs
      | isr isr context =>
          simp only [hp, Option.some.injEq] at hs
          simp only [Slot.Valid, hp] at h
          rw [← hs]
          cases isr with
          | none => simp [Slot.Paired, Slot.dispatched, Slot.Allowed, hp]
          | some f =>
              -- the context is still what it was
              simp only [Slot.Paired, Slot.dispatched, Slot.Allowed, hp, h.2]
              cases s.enabled <;> simp [eq_comm]
      | context isr context =>
          simp only [hp, Option.some.injEq] at hs
          simp only [Slot.Valid, hp] at h
          rw [← hs]
          cases isr with
          | none => simp [Slot.Paired, Slot.dispatched, Slot.Allowed, hp, h.1]
          | some f => simp [Slot.Paired, Slot.dispatched, Slot.Allowed, hp, h.1, h.2]
      | enable isr =>
          simp only [hp, Option.some.injEq] at hs
          simp only [Slot.Valid, hp] at h
          rw [← hs]
          simp [Slot.Paired, Slot.dispatched, Slot.Allowed, hp, h.1, h.2]
  | enableIrq =>
      obtain rfl := Option.some.inj hs
      cases hp : s.pc with
      | away =>
          simp only [Slot.Valid, hp] at h
          simp [Slot.Paired, Slot.dispatched, Slot.Allowed, hp, h]
      | isr isr context =>
          simp only [Slot.Valid, hp] at h
          cases isr with
          | none =>
              simp only [Slot.Paired, Slot.dispatched, Slot.Allowed, hp, h]
              cases s.isr <;> simp
          | some f => simp [Slot.Paired, Slot.dispatched, Slot.Allowed, hp, h.1]
      | context isr context =>
          simp only [Slot.Valid, hp] at h
          cases isr with
          | none => simp [Slot.Paired, Slot.dispatched, Slot.Allowed, hp, h.1]
          | some f => simp [Slot.Paired, Slot.dispatched, Slot.Allowed, hp, h.1, h.2, eq_comm]
      | enable isr =>
          simp only [Slot.Valid, hp] at h
          simp [Slot.Paired, Slot.dispatched, Slot.Allowed, hp, h.1, h.2]
  | disableIrq =>
      obtain rfl := Option.some.inj hs
      simp [Slot.Paired, Slot.dispatched, Slot.Allowed]

/-- What the drivers do: they enable an interrupt on their own when it has its handler. -/
def Slot.Usual (s : Slot) (a : SlotAction) : Prop :=
  a = .enableIrq → s.pc = .away ∧ s.isr ≠ none

/-- An interrupt that is enabled has its handler, which nobody is setting. -/
structure Slot.Settled (s : Slot) : Prop where
  valid : s.Valid
  settled : s.enabled = true → s.pc = .away ∧ s.isr ≠ none

theorem settled_step {a : SlotAction} (h : s.Settled) (ha : s.Usual a)
    (hs : s.step a = some s') : s'.Settled := by
  refine ⟨valid_step h.valid hs, ?_⟩
  intro henabled
  cases a with
  | call isr context =>
      obtain ⟨-, ⟨f, rfl, hnone, rfl⟩ | ⟨rfl, rfl⟩⟩ := step_call hs
      · exact absurd hnone (h.settled henabled).2
      · cases henabled
  | next =>
      have haway (he : s.enabled = true) : s.pc = .away := (h.settled he).1
      simp only [Slot.step, rhsHalInterruptSetIsr] at hs
      cases hp : s.pc with
      | away => simp [hp] at hs
      | isr | context =>
          simp only [hp, Option.some.injEq] at hs
          rw [← hs] at henabled
          cases hp.symm.trans (haway henabled)
      | enable isr =>
          have hvalid := h.valid
          simp only [hp, Option.some.injEq] at hs
          simp only [Slot.Valid, hp] at hvalid
          rw [← hs] at henabled ⊢
          refine ⟨rfl, ?_⟩
          rcases Bool.or_eq_true_iff.mp henabled with he | he
          · cases hp.symm.trans (haway he)
          · rw [hvalid.1]
            exact Option.isSome_iff_ne_none.mp he
  | enableIrq =>
      obtain rfl := Option.some.inj hs
      exact ha rfl
  | disableIrq =>
      obtain rfl := Option.some.inj hs
      cases henabled

theorem Slot.Settled.paired (h : s.Settled) : s.Paired := by
  have hvalid := h.valid
  intro call hcall
  by_cases he : s.enabled = true
  · rw [Slot.Valid, (h.settled he).1] at hvalid
    rwa [Slot.dispatched, if_pos he, hvalid] at hcall
  · rw [Slot.dispatched, if_neg he] at hcall
    cases hcall

/-- **Handlers keep their contexts**: in every order of steps, an interrupt only ever calls the
handler that was set last, with the context it was set with, exactly if the interrupt was not
enabled while its handler was being stored, or was being cleared and still there; drivers that
enable it only when it has its handler never do that. -/
theorem always_paired_iff :
    (∀ as, Always Slot.step Slot.Paired Slot.init as ↔
      Each Slot.step Slot.Allowed Slot.init as) ∧
    ∀ s, Reach Slot.step Slot.Usual Slot.init s → s.Paired := by
  constructor
  · intro as
    exact always_iff_each (fun _ _ _ h hs => valid_step h hs)
      (fun _ _ _ h _ hs => paired_step_iff h hs) valid_init paired_init as
  · intro s h
    have hinit : Slot.init.Settled := ⟨valid_init, fun h => Bool.noConfusion h⟩
    exact (h.invariant hinit fun _ _ _ hI ha hs => settled_step hI ha hs).paired

/-- A driver that enables its interrupt before it sets the handler. -/
example : ∃ s, runActions Slot.step (fun _ _ => True) .init
    [.enableIrq, .call (some 1) 7, .next] = some s ∧ s.dispatched = some (1, 0) :=
  ⟨_, rfl, rfl⟩

/-! ## Time -/

/-- Where `rhs_hal_interrupt_call` is. -/
inductive Phase
  /-- In the handler, since `_isr_start`. -/
  | handling (isrStart : UInt32)
  /-- With `_time_in_isr`, before the sum is loaded. -/
  | measured (timeInIsr : UInt32)
  /-- Before the new sum is stored. -/
  | loaded (timeInIsr total : UInt32)
  deriving DecidableEq, Repr

def Phase.isHandling : Phase → Bool
  | .handling _ => true
  | _ => false

/-- The counter of cycles, the sum of the times, and the interrupts under way, the last to
come first.  `busy` counts the cycles in which a handler ran, `spent` counts each as often as
there were handlers begun, and `lost` is what was stored over. -/
structure State where
  cyccnt : UInt32
  counterTimeInIsrTotal : UInt32
  stack : List Phase
  busy : ℕ
  spent : ℕ
  lost : UInt32
  deriving DecidableEq, Repr

def init (cyccnt : UInt32) : State where
  cyccnt := cyccnt
  counterTimeInIsrTotal := 0
  stack := []
  busy := 0
  spent := 0
  lost := 0

/-- The next step of the last interrupt; a sum is loaded before it is stored. -/
def rhsHalInterruptCall (s : State) : Option State :=
  match s.stack with
  | [] => none
  | .handling isrStart :: rest =>
      some { s with stack := .measured (s.cyccnt - isrStart) :: rest }
  | .measured timeInIsr :: rest =>
      some { s with stack := .loaded timeInIsr s.counterTimeInIsrTotal :: rest }
  | .loaded timeInIsr total :: rest =>
      some { s with
        counterTimeInIsrTotal := total + timeInIsr
        stack := rest
        lost := s.lost + (s.counterTimeInIsrTotal - total) }

/-- A cycle passes, an interrupt comes, or the last one goes on. -/
inductive Action
  | tick
  | enter
  | next
  deriving DecidableEq, Repr

def step (s : State) : Action → Option State
  | .tick =>
      some { s with
        cyccnt := s.cyccnt + 1
        busy := s.busy + if s.stack.any Phase.isHandling then 1 else 0
        spent := s.spent + s.stack.countP Phase.isHandling }
  | .enter => some { s with stack := .handling s.cyccnt :: s.stack }
  | .next => rhsHalInterruptCall s

/-- No interrupt comes in another: all have one priority. -/
def Flat (s : State) (a : Action) : Prop := a = .enter → s.stack = []

/-- What an interrupt under way has to add. -/
def Phase.pending (cyccnt : UInt32) : Phase → UInt32
  | .handling isrStart => cyccnt - isrStart
  | .measured timeInIsr => timeInIsr
  | .loaded timeInIsr _ => timeInIsr

def pending (cyccnt : UInt32) : List Phase → UInt32
  | [] => 0
  | phase :: rest => phase.pending cyccnt + pending cyccnt rest

/-- One cycle more for each handler. -/
theorem pending_add_one (cyccnt : UInt32) (stack : List Phase) :
    pending (cyccnt + 1) stack =
      pending cyccnt stack + .ofNat (stack.countP Phase.isHandling) := by
  induction stack with
  | nil => rfl
  | cons phase stack ih =>
      rw [pending, pending, ih, List.countP_cons, UInt32.ofNat_add]
      cases phase <;> simp [Phase.pending, Phase.isHandling] <;> grind

/-- The sum, with what was stored over and what is to be added, is the time in all handlers. -/
def Accounted (s : State) : Prop :=
  s.counterTimeInIsrTotal + s.lost + pending s.cyccnt s.stack = .ofNat s.spent

variable {t t' : State}

theorem accounted_step {a : Action} (h : Accounted t) (hs : step t a = some t') :
    Accounted t' := by
  rw [Accounted] at h
  cases a with
  | tick =>
      obtain rfl := Option.some.inj hs
      rw [Accounted, pending_add_one, UInt32.ofNat_add, ← h, UInt32.add_assoc, UInt32.add_assoc,
        UInt32.add_assoc]
  | enter =>
      obtain rfl := Option.some.inj hs
      simpa [Accounted, pending, Phase.pending] using h
  | next =>
      simp only [step, rhsHalInterruptCall] at hs
      cases hstack : t.stack with
      | nil => simp [hstack] at hs
      | cons phase rest =>
          rw [hstack] at h
          cases phase with
          | handling isrStart =>
              simp only [hstack, Option.some.injEq] at hs
              rw [← hs]
              exact h
          | measured timeInIsr =>
              simp only [hstack, Option.some.injEq] at hs
              rw [← hs]
              exact h
          | loaded timeInIsr total =>
              simp only [hstack, Option.some.injEq] at hs
              rw [← hs]
              simp only [Accounted, pending, Phase.pending] at h ⊢
              grind

/-- Without interrupts in interrupts, each cycle is counted once and nothing is stored over. -/
structure Once (s : State) : Prop where
  stack : s.stack = [] ∨ ∃ phase, s.stack = [phase]
  loaded : ∀ timeInIsr total, s.stack = [.loaded timeInIsr total] →
    total = s.counterTimeInIsrTotal
  spent : s.spent = s.busy
  lost : s.lost = 0

theorem once_step {a : Action} (h : Once t) (ha : Flat t a) (hs : step t a = some t') :
    Once t' := by
  cases a with
  | tick =>
      obtain rfl := Option.some.inj hs
      refine { h with spent := ?_ }
      rcases h.stack with hstack | ⟨phase, hstack⟩
      · simp [hstack, h.spent]
      · cases phase <;> simp [hstack, h.spent, Phase.isHandling]
  | enter =>
      have hnil := ha rfl
      obtain rfl := Option.some.inj hs
      exact { h with stack := .inr ⟨_, congrArg _ hnil⟩, loaded := by simp [hnil] }
  | next =>
      simp only [step, rhsHalInterruptCall] at hs
      rcases h.stack with hstack | ⟨phase, hstack⟩
      · simp [hstack] at hs
      · cases phase with
        | handling isrStart =>
            simp only [hstack, Option.some.injEq] at hs
            rw [← hs]
            exact { h with stack := .inr ⟨_, rfl⟩, loaded := by simp }
        | measured timeInIsr =>
            simp only [hstack, Option.some.injEq] at hs
            rw [← hs]
            refine { h with stack := .inr ⟨_, rfl⟩, loaded := ?_ }
            intro _ _ heq
            simp at heq
            exact heq.2.symm
        | loaded timeInIsr total =>
            have htotal := h.loaded timeInIsr total hstack
            simp only [hstack, Option.some.injEq] at hs
            rw [← hs]
            refine { h with stack := .inl rfl, loaded := by simp, lost := ?_ }
            simp [h.lost, htotal]

/-- **The time in interrupts**: whenever none is under way, the sum and what was stored over
make the time of all handlers together, with that of a handler that came in another counted
for both; and where no interrupt comes in another, the sum is the time in which a handler ran,
modulo the word. -/
theorem isr_time_accounts (cyccnt : UInt32) :
    (∀ s, Reach step (fun _ _ => True) (init cyccnt) s → s.stack = [] →
      s.counterTimeInIsrTotal + s.lost = .ofNat s.spent) ∧
    ∀ s, Reach step Flat (init cyccnt) s → s.stack = [] →
      s.counterTimeInIsrTotal = .ofNat s.busy := by
  have haccounted {allowed : State → Action → Prop} {s : State}
      (h : Reach step allowed (init cyccnt) s) (hidle : s.stack = []) :
      s.counterTimeInIsrTotal + s.lost = .ofNat s.spent := by
    have hinit : Accounted (init cyccnt) := rfl
    have hs : Accounted s := h.invariant hinit fun _ _ _ hI _ hs => accounted_step hI hs
    rw [Accounted, hidle] at hs
    simpa [pending] using hs
  constructor
  · intro s h hidle
    exact haccounted h hidle
  · intro s h hidle
    have hinit : Once (init cyccnt) := ⟨.inl rfl, (fun _ _ h => nomatch h), rfl, rfl⟩
    have honce : Once s := h.invariant hinit fun _ _ _ hI ha hs => once_step hI ha hs
    have hsum := haccounted h hidle
    rwa [honce.lost, UInt32.add_zero, honce.spent] at hsum

instance (s : State) (a : Action) : Decidable (Flat s a) :=
  inferInstanceAs (Decidable (_ → _))

/-- A handler of three cycles with another in its second, and one that comes between load and
store; and two handlers one after the other. -/
theorem nested_and_single_accounted :
    (∃ s, Reach step (fun _ _ => True) (init 0) s ∧ s.busy = 4 ∧ s.spent = 5 ∧ s.lost = 1 ∧
      s.counterTimeInIsrTotal + s.lost = .ofNat s.spent) ∧
    ∃ s, Reach step Flat (init 0) s ∧ s.busy = 3 ∧ s.counterTimeInIsrTotal = .ofNat s.busy := by
  obtain ⟨hnested, hflat⟩ := isr_time_accounts 0
  have hrun : Reach step (fun _ _ => True) (init 0) _ :=
    @Reach.of_runActions _ _ _ _ _ [.enter, .tick, .enter, .tick, .next, .next, .next, .tick,
      .next, .next, .enter, .tick, .next, .next, .next, .next] _ _ rfl
  have hsingle : Reach step Flat (init 0) _ :=
    @Reach.of_runActions _ _ _ _ _ [.enter, .tick, .next, .next, .next, .tick, .enter, .tick,
      .tick, .next, .next, .next] _ _ rfl
  exact ⟨⟨_, hrun, rfl, rfl, rfl, hnested _ hrun rfl⟩, _, hsingle, rfl, hflat _ hsingle rfl⟩

end RhsCore.Interrupt
