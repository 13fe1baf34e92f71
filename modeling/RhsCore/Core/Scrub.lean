import RhsCore.Core.Thread
import RhsCore.Lib.Transition
import Mathlib.Data.List.Nodup
import Mathlib.Tactic.Common

/-!
# A stopped thread is its owner's

A body that has put its thread into the queue does not use it again, and the scrubber takes
it from the queue once.  Its last use of the thread is to report it stopped, so that a
thread that is stopped is used by its owner only until it is started and stops again.

## Main definitions

* `SlotOk`, `Good` — the invariant.
* `Moves` — how the states of the threads change in a step.
* `HandedOver` — what is promised in a state.
* `handedOver_of_reach` — it is kept in every run.
-/

namespace RhsCore.Thread

variable {ι : Type}

/-! ## The order of the states -/

/-- The state after another. -/
def RHSThreadState.next : RHSThreadState → RHSThreadState
  | .stopped => .starting
  | .starting => .running
  | .running => .stopping
  | .stopping => .stopped

def Slot.state (slot : Slot ι) : Option RHSThreadState := slot.object.map fun o => o.state

/-- A thread is allocated and freed when it is stopped, and its states are in order. -/
def StateMoves : Option RHSThreadState → Option RHSThreadState → Prop
  | none, none => True
  | none, some state' => state' = .stopped
  | some state, none => state = .stopped
  | some state, some state' => state' = state ∨ state' = state.next

def Moves (s s' : State ι) : Prop := ∀ t, StateMoves (s.slots t).state (s'.slots t).state

theorem StateMoves.refl (state : Option RHSThreadState) : StateMoves state state := by
  cases state with
  | none => exact trivial
  | some state => exact .inl rfl

theorem Moves.refl (s : State ι) : Moves s s := fun _ => .refl _

/-! ## The invariant -/

/-- What the body relies on. -/
def Body.Expects (t : ι) (o : RHSThread ι) (returned : Option Int32) : Body → Prop
  | .checkStorage | .setStorage => o.state = .starting ∧ o.localStorage = none
  | .checkStarting | .setRunning => o.state = .starting ∧ o.localStorage = some t
  | .call => o.state = .running ∧ o.localStorage = some t
  | .setRet ret => o.state = .running ∧ o.localStorage = some t ∧ returned = some ret
  | .checkService | .checkRunning | .setStopping =>
      o.state = .running ∧ o.localStorage = some t ∧ returned = some o.ret
  | .put | .suspend | .suspended =>
      o.state = .stopping ∧ o.localStorage = some t ∧ returned = some o.ret

/-- A thread in order. -/
inductive SlotOk (t : ι) : Slot ι → Prop
  | absent {wasStarted : Bool} {returned : Option Int32} :
      SlotOk t ⟨.absent, none, none, wasStarted, returned⟩
  | resting {owner : Owner} {o : RHSThread ι} {wasStarted : Bool} {returned : Option Int32}
      (howner : owner = .idle ∨ owner = .started ∨ owner = .joining)
      (hstate : o.state = .stopped) (hstack : o.stackBuffer = true)
      (hret : wasStarted = true → returned = some o.ret) :
      SlotOk t ⟨owner, some o, none, wasStarted, returned⟩
  | freeing {o : RHSThread ι} {wasStarted : Bool} {returned : Option Int32}
      (hstate : o.state = .stopped) : SlotOk t ⟨.freeing, some o, none, wasStarted, returned⟩
  | creating {o : RHSThread ι} {returned : Option Int32}
      (hstate : o.state = .starting) (hstack : o.stackBuffer = true) :
      SlotOk t ⟨.creating, some o, none, true, returned⟩
  | running {owner : Owner} {o : RHSThread ι} {body : Body} {returned : Option Int32}
      (howner : owner = .started ∨ owner = .joining) (hstack : o.stackBuffer = true)
      (hbody : body.Expects t o returned) : SlotOk t ⟨owner, some o, some body, true, returned⟩
  | deleted {owner : Owner} {o : RHSThread ι} {returned : Option Int32}
      (howner : owner = .started ∨ owner = .joining)
      (hstate : o.state = .stopping) (hstack : o.stackBuffer = true)
      (hret : returned = some o.ret) : SlotOk t ⟨owner, some o, none, true, returned⟩

/-- The body has put its thread into the queue. -/
def Slot.Leaving (slot : Slot ι) : Prop :=
  slot.task = some .suspend ∨ slot.task = some .suspended

/-- The task is deleted, and the thread is not yet stopped. -/
def Slot.Deleted (slot : Slot ι) : Prop := slot.task = none ∧ slot.state = some .stopping

/-- What the scrubber relies on. -/
def Scrubber.Expects (s : State ι) : Scrubber ι → Prop
  | .delete t => t ∉ s.queue ∧ (s.slots t).Leaving
  | .checkStorage t | .clearStorage t =>
      (s.slots t).Deleted ∧ ∀ o, (s.slots t).object = some o → o.localStorage = some t
  | .setStopped t => (s.slots t).Deleted
  | .get | .log => True

/-- **The invariant.** -/
structure Good (s : State ι) : Prop where
  slot : ∀ t, SlotOk t (s.slots t)
  queued : ∀ t ∈ s.queue, (s.slots t).Leaving
  nodup : s.queue.Nodup
  scrubber : s.scrubber.Expects s
  halted : ∀ why, s.halted = some why → why = .caller ∨ why = .service

theorem good_init : Good (State.init : State ι) where
  slot _ := .absent
  queued := nofun
  nodup := .nil
  scrubber := trivial
  halted := nofun

/-- The scrubber's next step uses the thread. -/
def Scrubber.Uses (t : ι) : Scrubber ι → Prop
  | .delete t' | .checkStorage t' | .clearStorage t' | .setStopped t' => t' = t
  | .get | .log => False

variable {s s' : State ι} {t : ι} {slot : Slot ι} {o : RHSThread ι}

theorem Good.halt (h : Good s) {why : Halt} (hwhy : why = .caller ∨ why = .service) :
    Good (s.halt why) :=
  { h with
    scrubber := h.scrubber
    halted := fun why' heq => by
      cases heq
      exact hwhy }

theorem use_some (ho : (s.slots t).object = some o) (f : RHSThread ι → State ι) :
    s.use t f = f o := by
  rw [State.use, ho]

/-! ## A thread on its own -/

/-- The owner of a thread that is not absent has it. -/
theorem SlotOk.object (h : SlotOk t slot) (howner : slot.owner ≠ .absent) :
    ∃ o, slot.object = some o := by
  cases h with
  | absent => exact absurd rfl howner
  | resting => exact ⟨_, rfl⟩
  | freeing => exact ⟨_, rfl⟩
  | creating => exact ⟨_, rfl⟩
  | running => exact ⟨_, rfl⟩
  | deleted => exact ⟨_, rfl⟩

/-- A thread that is stopped has no task, and its callback has returned what it keeps. -/
theorem SlotOk.stopped (h : SlotOk t slot) (ho : slot.object = some o)
    (hstate : o.state = .stopped) : slot.task = none ∧
      (slot.owner ≠ .freeing → o.stackBuffer = true) ∧
      (slot.owner ≠ .freeing → slot.wasStarted = true → slot.returned = some o.ret) := by
  cases h with
  | absent => cases ho
  | resting _ _ hstack hret =>
      cases ho
      exact ⟨rfl, fun _ => hstack, fun _ => hret⟩
  | freeing => exact ⟨rfl, fun hne => absurd rfl hne, fun hne => absurd rfl hne⟩
  | creating hstate' =>
      cases ho
      rw [hstate] at hstate'
      cases hstate'
  | @running _ _ body _ _ _ hbody =>
      cases ho
      cases body <;> simp [Body.Expects, hstate] at hbody
  | deleted _ hstate' =>
      cases ho
      rw [hstate] at hstate'
      cases hstate'

/-- A thread that was not started since it was joined is stopped. -/
theorem SlotOk.idle (h : SlotOk t slot) (howner : slot.owner = .idle)
    (ho : slot.object = some o) : o.state = .stopped := by
  cases h with
  | absent => cases ho
  | resting _ hstate =>
      cases ho
      exact hstate
  | freeing => cases howner
  | creating => cases howner
  | running howner' =>
      rcases howner' with rfl | rfl
      · cases howner
      · cases howner
  | deleted howner' =>
      rcases howner' with rfl | rfl
      · cases howner
      · cases howner

/-- No thread, and no task. -/
theorem SlotOk.gone (h : SlotOk t slot) (howner : slot.owner = .absent) :
    slot.task = none ∧ slot.state = none := by
  cases h with
  | absent => exact ⟨rfl, rfl⟩
  | _ => simp_all

theorem SlotOk.freed (h : SlotOk t slot) (howner : slot.owner = .freeing) :
    slot.task = none ∧ slot.state = some .stopped := by
  cases h with
  | freeing hstate => exact ⟨rfl, by rw [Slot.state, Option.map_some, hstate]⟩
  | _ => simp_all

/-- What the owner has when it creates the task. -/
theorem SlotOk.created (h : SlotOk t slot) (howner : slot.owner = .creating) :
    ∃ o returned, slot = ⟨.creating, some o, none, true, returned⟩ ∧ o.state = .starting ∧
      o.stackBuffer = true := by
  cases h with
  | creating hstate hstack => exact ⟨_, _, rfl, hstate, hstack⟩
  | _ => simp_all

theorem SlotOk.joining (h : SlotOk t slot) (howner : slot.owner = .idle ∨ slot.owner = .started) :
    SlotOk t { slot with owner := .joining } := by
  cases h with
  | absent => simp at howner
  | resting _ hstate hstack hret => exact .resting (.inr (.inr rfl)) hstate hstack hret
  | freeing => simp at howner
  | creating => simp at howner
  | running _ hstack hbody => exact .running (.inr rfl) hstack hbody
  | deleted _ hstate hstack hret => exact .deleted (.inr rfl) hstate hstack hret

/-- The thread of a task. -/
theorem SlotOk.busy (h : SlotOk t slot) {body : Body} (htask : slot.task = some body) :
    ∃ owner o returned, slot = ⟨owner, some o, some body, true, returned⟩ ∧
      (owner = .started ∨ owner = .joining) ∧ o.stackBuffer = true ∧
      body.Expects t o returned := by
  cases h with
  | running howner hstack hbody =>
      obtain rfl := Option.some.inj htask
      exact ⟨_, _, _, rfl, howner, hstack, hbody⟩
  | _ => cases htask

/-- The thread whose body has put it into the queue. -/
theorem SlotOk.taken (h : SlotOk t slot) (hleaving : slot.Leaving) :
    ∃ owner o body returned, slot = ⟨owner, some o, some body, true, returned⟩ ∧
      (owner = .started ∨ owner = .joining) ∧ o.stackBuffer = true ∧
      o.state = .stopping ∧ o.localStorage = some t ∧ returned = some o.ret := by
  rcases hleaving with htask | htask
  · obtain ⟨owner, o, returned, hslot, howner, hstack, hbody⟩ := h.busy htask
    exact ⟨owner, o, _, returned, hslot, howner, hstack, hbody⟩
  · obtain ⟨owner, o, returned, hslot, howner, hstack, hbody⟩ := h.busy htask
    exact ⟨owner, o, _, returned, hslot, howner, hstack, hbody⟩

/-- The thread whose task the scrubber has deleted. -/
theorem SlotOk.scrubbed (h : SlotOk t slot) (hdeleted : slot.Deleted) :
    ∃ owner o returned, slot = ⟨owner, some o, none, true, returned⟩ ∧
      (owner = .started ∨ owner = .joining) ∧ o.stackBuffer = true ∧
      o.state = .stopping ∧ returned = some o.ret := by
  obtain ⟨htask, hstate⟩ := hdeleted
  cases h with
  | deleted howner hstate' hstack hret => exact ⟨_, _, _, rfl, howner, hstack, hstate', hret⟩
  | _ => simp_all [Slot.state]

/-- The owner that has seen the thread stopped. -/
theorem SlotOk.joined (h : SlotOk t slot) (howner : slot.owner = .joining)
    (ho : slot.object = some o) (hstate : o.state = .stopped) :
    SlotOk t { slot with owner := .idle } := by
  have hne : slot.owner ≠ .freeing := by
    rw [howner]
    nofun
  obtain ⟨htask, hstack, hret⟩ := h.stopped ho hstate
  obtain ⟨owner, object, task, wasStarted, returned⟩ := slot
  obtain rfl : object = some o := ho
  obtain rfl : task = none := htask
  exact .resting (.inl rfl) hstate (hstack hne) (hret hne)

/-! ## The queue and the scrubber -/

/-- The thread is in the queue, and the body does not use it again. -/
theorem Good.enqueue (h : Good s) (hqueue : t ∉ s.queue) (hscrubber : ¬ s.scrubber.Uses t)
    (hleaving : (s.slots t).Leaving) : Good { s with queue := s.queue ++ [t] } := by
  have hexpects := h.scrubber
  refine { h with
    queued := fun t' ht' => ?_
    nodup := ?_
    scrubber := ?_ }
  · rcases List.mem_append.mp ht' with hmem | hmem
    · exact h.queued t' hmem
    · obtain rfl := List.mem_singleton.mp hmem
      exact hleaving
  · refine List.nodup_append'.mpr ⟨h.nodup, List.nodup_singleton t, ?_⟩
    rwa [List.disjoint_singleton]
  · cases hpc : s.scrubber with
    | delete t' =>
        rw [hpc] at hexpects hscrubber
        refine ⟨fun hmem => ?_, hexpects.2⟩
        rcases List.mem_append.mp hmem with hmem | hmem
        · exact hexpects.1 hmem
        · exact hscrubber (List.mem_singleton.mp hmem)
    | get => exact trivial
    | checkStorage t' =>
        rw [hpc] at hexpects
        exact hexpects
    | clearStorage t' =>
        rw [hpc] at hexpects
        exact hexpects
    | setStopped t' =>
        rw [hpc] at hexpects
        exact hexpects
    | log => exact trivial

/-- A thread the scrubber uses has left, or its task is deleted. -/
theorem Good.uses (h : Good s) (huses : s.scrubber.Uses t) :
    (s.slots t).Leaving ∨ (s.slots t).Deleted := by
  have hexpects := h.scrubber
  cases hpc : s.scrubber with
  | get =>
      rw [hpc] at huses
      exact huses.elim
  | delete t' =>
      rw [hpc] at huses hexpects
      obtain rfl : t' = t := huses
      exact .inl hexpects.2
  | checkStorage t' =>
      rw [hpc] at huses hexpects
      obtain rfl : t' = t := huses
      exact .inr hexpects.1
  | clearStorage t' =>
      rw [hpc] at huses hexpects
      obtain rfl : t' = t := huses
      exact .inr hexpects.1
  | setStopped t' =>
      rw [hpc] at huses hexpects
      obtain rfl : t' = t := huses
      exact .inr hexpects
  | log =>
      rw [hpc] at huses
      exact huses.elim

theorem Good.not_queued_of_deleted (h : Good s) (hdeleted : (s.slots t).Deleted) :
    t ∉ s.queue := by
  intro hmem
  rcases h.queued t hmem with heq | heq
  · rw [hdeleted.1] at heq
    cases heq
  · rw [hdeleted.1] at heq
    cases heq

/-- A thread whose body is before its put is not in the queue and not with the scrubber. -/
theorem Good.not_queued (h : Good s) {body : Body} (htask : (s.slots t).task = some body)
    (hsuspend : body ≠ .suspend) (hsuspended : body ≠ .suspended) :
    t ∉ s.queue ∧ ¬ s.scrubber.Uses t := by
  have hleaving : ¬ (s.slots t).Leaving := by
    rintro (heq | heq)
    · exact hsuspend (Option.some.inj (htask.symm.trans heq))
    · exact hsuspended (Option.some.inj (htask.symm.trans heq))
  refine ⟨fun hmem => hleaving (h.queued t hmem), fun huses => ?_⟩
  rcases h.uses huses with hleft | hdeleted
  · exact hleaving hleft
  · rw [hdeleted.1] at htask
    cases htask

/-- A thread that is stopped is not in the queue, and not with the scrubber. -/
theorem Good.stopped (h : Good s) (hstate : (s.slots t).state = some .stopped) :
    t ∉ s.queue ∧ ¬ s.scrubber.Uses t := by
  have hdeleted : ¬ (s.slots t).Deleted := by
    intro hdeleted
    rw [hdeleted.2] at hstate
    cases hstate
  have hleaving : ¬ (s.slots t).Leaving := by
    intro hleaving
    obtain ⟨owner, o, body, returned, hslot, -, -, hstopping, -⟩ := (h.slot t).taken hleaving
    rw [hslot, Slot.state, Option.map_some, hstopping] at hstate
    cases hstate
  refine ⟨fun hmem => hleaving (h.queued t hmem), fun huses => ?_⟩
  exact (h.uses huses).elim hleaving hdeleted

/-- The queue and the scrubber are as before. -/
def Frame (s s' : State ι) : Prop := s'.queue = s.queue ∧ s'.scrubber = s.scrubber

theorem frame_use {f : RHSThread ι → State ι} (hf : ∀ o, Frame s (f o)) : Frame s (s.use t f) := by
  rw [State.use]
  split
  · exact ⟨rfl, rfl⟩
  · exact hf _

theorem frame_ite {c : Prop} [Decidable c] {s₁ s₂ : State ι} (h₁ : Frame s s₁)
    (h₂ : Frame s s₂) : Frame s (if c then s₁ else s₂) := by
  split
  · exact h₁
  · exact h₂

/-! ## Steps that set one thread -/

/-- What others rely on is kept. -/
def Slot.Keeps (slot slot' : Slot ι) : Prop :=
  (slot.Leaving → slot'.Leaving) ∧
    (slot.Deleted → slot'.task = none ∧ slot'.object = slot.object)

theorem Slot.Keeps.of_stopped (htask : slot.task = none) (hstate : slot.state ≠ some .stopping)
    (slot' : Slot ι) : slot.Keeps slot' := by
  refine ⟨fun hleaving => ?_, fun hdeleted => absurd hdeleted.2 hstate⟩
  rcases hleaving with heq | heq
  · rw [htask] at heq
    cases heq
  · rw [htask] at heq
    cases heq

theorem Slot.Keeps.of_body {body : Body} (htask : slot.task = some body)
    (hsuspend : body ≠ .suspend) (hsuspended : body ≠ .suspended) (slot' : Slot ι) :
    slot.Keeps slot' := by
  refine ⟨fun hleaving => ?_, fun hdeleted => ?_⟩
  · rcases hleaving with heq | heq
    · exact absurd (Option.some.inj (htask.symm.trans heq)) hsuspend
    · exact absurd (Option.some.inj (htask.symm.trans heq)) hsuspended
  · rw [hdeleted.1] at htask
    cases htask

variable [DecidableEq ι]

theorem set_slots_self (s : State ι) (t : ι) (slot : Slot ι) : (s.set t slot).slots t = slot :=
  Function.update_self ..

theorem Moves.set (hslots : s'.slots = Function.update s.slots t slot)
    (h : StateMoves (s.slots t).state slot.state) : Moves s s' := by
  intro t'
  rw [hslots]
  by_cases ht : t' = t
  · subst ht
    rwa [Function.update_self]
  · rw [Function.update_of_ne ht]
    exact .refl _

theorem slotOk_set (h : ∀ t, SlotOk t (s.slots t)) (hslot : SlotOk t slot) (t' : ι) :
    SlotOk t' (Function.update s.slots t slot t') := by
  by_cases ht : t' = t
  · subst ht
    rwa [Function.update_self]
  · rw [Function.update_of_ne ht]
    exact h t'

theorem Slot.Keeps.leaving (hkeeps : (s.slots t).Keeps slot) (t' : ι)
    (h : (s.slots t').Leaving) : (Function.update s.slots t slot t').Leaving := by
  by_cases ht : t' = t
  · subst ht
    rw [Function.update_self]
    exact hkeeps.1 h
  · rwa [Function.update_of_ne ht]

theorem Slot.Keeps.deleted (hkeeps : (s.slots t).Keeps slot) (t' : ι)
    (h : (s.slots t').Deleted) : (Function.update s.slots t slot t').Deleted ∧
      (Function.update s.slots t slot t').object = (s.slots t').object := by
  by_cases ht : t' = t
  · subst ht
    obtain ⟨htask, hobject⟩ := hkeeps.2 h
    rw [Function.update_self]
    refine ⟨⟨htask, ?_⟩, hobject⟩
    rw [Slot.state, hobject]
    exact h.2
  · rw [Function.update_of_ne ht]
    exact ⟨h, rfl⟩

theorem Good.set (h : Good s) (hslot : SlotOk t slot) (hkeeps : (s.slots t).Keeps slot) :
    Good (s.set t slot) := by
  refine { h with
    slot := slotOk_set h.slot hslot
    queued := fun t' ht' => hkeeps.leaving t' (h.queued t' ht')
    scrubber := ?_ }
  have hscrubber := h.scrubber
  change s.scrubber.Expects (s.set t slot)
  cases hpc : s.scrubber with
  | get => exact trivial
  | delete t' =>
      rw [hpc] at hscrubber
      exact ⟨hscrubber.1, hkeeps.leaving t' hscrubber.2⟩
  | checkStorage t' =>
      rw [hpc] at hscrubber
      obtain ⟨hdeleted, hobject⟩ := hkeeps.deleted t' hscrubber.1
      exact ⟨hdeleted, fun o ho => hscrubber.2 o (hobject.symm.trans ho)⟩
  | clearStorage t' =>
      rw [hpc] at hscrubber
      obtain ⟨hdeleted, hobject⟩ := hkeeps.deleted t' hscrubber.1
      exact ⟨hdeleted, fun o ho => hscrubber.2 o (hobject.symm.trans ho)⟩
  | setStopped t' =>
      rw [hpc] at hscrubber
      exact (hkeeps.deleted t' hscrubber).1
  | log => exact trivial

/-! ## The owner -/

theorem good_start (h : Good s)
    (howner : (s.slots t).owner = .idle ∨ (s.slots t).owner = .started) :
    Good (rhsThreadStart s t) ∧ Moves s (rhsThreadStart s t) := by
  have hok := h.slot t
  have hne : (s.slots t).owner ≠ .absent ∧ (s.slots t).owner ≠ .freeing := by
    rcases howner with heq | heq <;> rw [heq] <;> exact ⟨nofun, nofun⟩
  obtain ⟨o, ho⟩ := hok.object hne.1
  rw [rhsThreadStart, use_some ho]
  split
  · rename_i hstart
    obtain ⟨htask, hstack, -⟩ := hok.stopped ho hstart.2.1
    have hstate : (s.slots t).state = some .stopped := by
      rw [Slot.state, ho, Option.map_some, hstart.2.1]
    refine ⟨h.set ?_ (.of_stopped htask (by rw [hstate]; nofun) _), Moves.set rfl ?_⟩
    · change SlotOk t ⟨_, _, (s.slots t).task, _, _⟩
      rw [htask]
      exact .creating rfl (hstack hne.2)
    · rw [hstate]
      exact .inr rfl
  · exact ⟨h.halt (.inl rfl), .refl s⟩

theorem good_create (h : Good s) (howner : (s.slots t).owner = .creating) :
    Good (xTaskCreateStatic s t) ∧ Moves s (xTaskCreateStatic s t) := by
  obtain ⟨o, returned, hslot, hstate, hstack⟩ := (h.slot t).created howner
  have ho : (s.slots t).object = some o := by rw [hslot]
  have hstate' : (s.slots t).state = some .starting := by
    rw [Slot.state, ho, Option.map_some, hstate]
  rw [xTaskCreateStatic, use_some ho, hslot]
  refine ⟨h.set (.running (.inl rfl) hstack ⟨hstate, rfl⟩) (.of_stopped ?_ ?_ _), Moves.set rfl ?_⟩
  · rw [hslot]
  · rw [hstate']
    nofun
  · rw [hstate']
    exact .inl hstate

/-- Only the place of the owner changes. -/
theorem Good.setOwner (h : Good s) (owner : Owner)
    (hslot : SlotOk t { s.slots t with owner := owner }) :
    Good (s.set t { s.slots t with owner := owner }) ∧
      Moves s (s.set t { s.slots t with owner := owner }) :=
  ⟨h.set hslot ⟨id, fun hdeleted => ⟨hdeleted.1, rfl⟩⟩, Moves.set rfl (.refl _)⟩

theorem good_join (h : Good s)
    (howner : (s.slots t).owner = .idle ∨ (s.slots t).owner = .started) :
    Good (rhsThreadJoin s t) ∧ Moves s (rhsThreadJoin s t) := by
  have hne : (s.slots t).owner ≠ .absent := by
    rcases howner with heq | heq <;> rw [heq] <;> nofun
  obtain ⟨o, ho⟩ := (h.slot t).object hne
  rw [rhsThreadJoin, use_some ho]
  split
  · exact ⟨h.halt (.inl rfl), .refl s⟩
  · exact h.setOwner .joining ((h.slot t).joining howner)

theorem good_poll (h : Good s) (howner : (s.slots t).owner = .joining) :
    Good (joinLoop s t) ∧ Moves s (joinLoop s t) := by
  have hne : (s.slots t).owner ≠ .absent := by
    rw [howner]
    nofun
  obtain ⟨o, ho⟩ := (h.slot t).object hne
  rw [joinLoop, use_some ho]
  split
  · rename_i hstate
    exact h.setOwner .idle ((h.slot t).joined howner ho hstate)
  · exact ⟨h, .refl s⟩

/-- The owner frees a thread that is stopped. -/
theorem good_free (h : Good s) (howner : (s.slots t).owner = .idle) :
    Good (rhsThreadFree s t) ∧ Moves s (rhsThreadFree s t) := by
  have hne : (s.slots t).owner ≠ .absent := by
    rw [howner]
    nofun
  obtain ⟨o, ho⟩ := (h.slot t).object hne
  have hstopped := (h.slot t).idle howner ho
  have hstate : (s.slots t).state = some .stopped := by
    rw [Slot.state, ho, Option.map_some, hstopped]
  obtain ⟨htask, -⟩ := (h.slot t).stopped ho hstopped
  rw [rhsThreadFree, use_some ho]
  split
  · exact ⟨h.halt (.inl rfl), .refl s⟩
  · refine ⟨h.set ?_ (.of_stopped htask (by rw [hstate]; nofun) _), Moves.set rfl ?_⟩
    · change SlotOk t ⟨_, _, (s.slots t).task, _, _⟩
      rw [htask]
      exact .freeing hstopped
    · rw [hstate]
      exact .inl hstopped

theorem good_freeThread (h : Good s) (howner : (s.slots t).owner = .freeing) :
    Good (freeThread s t) ∧ Moves s (freeThread s t) := by
  have hne : (s.slots t).owner ≠ .absent := by
    rw [howner]
    nofun
  obtain ⟨o, ho⟩ := (h.slot t).object hne
  obtain ⟨htask, hstate⟩ := (h.slot t).freed howner
  rw [freeThread, use_some ho]
  refine ⟨h.set ?_ (.of_stopped htask (by rw [hstate]; nofun) _), Moves.set rfl ?_⟩
  · change SlotOk t ⟨_, _, (s.slots t).task, _, _⟩
    rw [htask]
    exact .absent
  · rw [hstate]
    exact rfl

theorem good_alloc (h : Good s) (howner : (s.slots t).owner = .absent)
    (stackSize callback : UInt32) (isService : Bool) {s' : State ι}
    (hs : s' = s.set t { s.slots t with
      owner := .idle
      object := some (rhsThreadAlloc stackSize callback isService)
      wasStarted := false
      returned := none }) : Good s' ∧ Moves s s' := by
  subst hs
  obtain ⟨htask, hstate⟩ := (h.slot t).gone howner
  refine ⟨h.set ?_ (.of_stopped htask (by rw [hstate]; nofun) _), Moves.set rfl ?_⟩
  · change SlotOk t ⟨_, _, (s.slots t).task, _, _⟩
    rw [htask]
    exact .resting (.inl rfl) rfl rfl nofun
  · rw [hstate]
    exact rfl

theorem good_owner {call : Call} (h : Good s) (hs : runOwner s t call = some s') :
    Good s' ∧ Moves s s' := by
  cases call with
  | alloc stackSize callback isService =>
      obtain ⟨howner, heq⟩ := Option.ite_none_right_eq_some.mp hs
      exact good_alloc h howner _ _ _ (Option.some.inj heq).symm
  | start =>
      obtain ⟨howner, heq⟩ := Option.ite_none_right_eq_some.mp hs
      cases heq
      exact good_start h howner
  | create =>
      obtain ⟨howner, heq⟩ := Option.ite_none_right_eq_some.mp hs
      cases heq
      exact good_create h howner
  | join =>
      obtain ⟨howner, heq⟩ := Option.ite_none_right_eq_some.mp hs
      cases heq
      exact good_join h howner
  | poll =>
      obtain ⟨howner, heq⟩ := Option.ite_none_right_eq_some.mp hs
      cases heq
      exact good_poll h howner
  | free =>
      obtain ⟨howner, heq⟩ := Option.ite_none_right_eq_some.mp hs
      cases heq
      exact good_free h howner
  | freeObject =>
      obtain ⟨howner, heq⟩ := Option.ite_none_right_eq_some.mp hs
      cases heq
      exact good_freeThread h howner

/-! ## The body -/

/-- A step of the body, before the thread is in the queue. -/
theorem Good.advance (h : Good s) {owner : Owner} {body next : Body} {o' : RHSThread ι}
    {returned : Option Int32} (hslot : s.slots t = ⟨owner, some o, some body, true, returned⟩)
    (howner : owner = .started ∨ owner = .joining) (hstack : o'.stackBuffer = true)
    (hsuspend : body ≠ .suspend) (hsuspended : body ≠ .suspended)
    (hnext : next.Expects t o' returned)
    (hstate : o'.state = o.state ∨ o'.state = o.state.next) :
    Good (s.advance t o' next) ∧ Moves s (s.advance t o' next) := by
  have hkeeps : (s.slots t).Keeps { s.slots t with object := some o', task := some next } :=
    .of_body (by rw [hslot]) hsuspend hsuspended _
  refine ⟨h.set ?_ hkeeps, Moves.set rfl ?_⟩
  · rw [hslot]
    exact .running howner hstack hnext
  · rw [hslot]
    exact hstate

theorem good_put (h : Good s) {owner : Owner} {returned : Option Int32}
    (hslot : s.slots t = ⟨owner, some o, some .put, true, returned⟩)
    (howner : owner = .started ∨ owner = .joining) (hstack : o.stackBuffer = true)
    (hbody : Body.put.Expects t o returned) :
    Good ({ s with queue := s.queue ++ [t] }.advance t o .suspend) ∧
      Moves s ({ s with queue := s.queue ++ [t] }.advance t o .suspend) := by
  have htask : (s.slots t).task = some .put := by rw [hslot]
  obtain ⟨hqueue, hscrubber⟩ := h.not_queued htask nofun nofun
  obtain ⟨hgood, hmoves⟩ : Good (s.advance t o .suspend) ∧ Moves s (s.advance t o .suspend) :=
    h.advance hslot howner hstack nofun nofun hbody (.inl rfl)
  have hleaving : ((s.advance t o .suspend).slots t).Leaving := by
    rw [State.advance, set_slots_self]
    exact .inl rfl
  exact ⟨hgood.enqueue hqueue hscrubber hleaving, hmoves⟩

theorem good_suspend (h : Good s) {owner : Owner} {returned : Option Int32}
    (hslot : s.slots t = ⟨owner, some o, some .suspend, true, returned⟩)
    (howner : owner = .started ∨ owner = .joining) (hstack : o.stackBuffer = true)
    (hbody : Body.suspend.Expects t o returned) :
    Good (s.advance t o .suspended) ∧ Moves s (s.advance t o .suspended) := by
  have hkeeps : (s.slots t).Keeps { s.slots t with object := some o, task := some .suspended } := by
    refine ⟨fun _ => .inr rfl, fun hdeleted => ?_⟩
    rw [hslot] at hdeleted
    cases hdeleted.1
  refine ⟨h.set ?_ hkeeps, Moves.set rfl ?_⟩
  · rw [hslot]
    exact .running howner hstack hbody
  · rw [hslot]
    exact .inl rfl

theorem good_body (h : Good s) (hs : runBody s t = some s') : Good s' ∧ Moves s s' := by
  rw [runBody] at hs
  cases htask : (s.slots t).task with
  | none =>
      rw [htask] at hs
      cases hs
  | some body =>
      obtain ⟨owner, o, returned, hslot, howner, hstack, hbody⟩ := (h.slot t).busy htask
      have ho : (s.slots t).object = some o := by rw [hslot]
      rw [htask, ho] at hs
      simp only [hstack, if_true] at hs
      have hadvance {next : Body} {o' : RHSThread ι} (hstack' : o'.stackBuffer = true)
          (hsuspend : body ≠ .suspend) (hsuspended : body ≠ .suspended)
          (hnext : next.Expects t o' returned)
          (hstate : o'.state = o.state ∨ o'.state = o.state.next) :=
        h.advance hslot howner hstack' hsuspend hsuspended hnext hstate
      cases body with
      | checkStorage =>
          rw [rhsThreadBody, if_pos hbody.2] at hs
          cases hs
          exact hadvance hstack nofun nofun hbody (.inl rfl)
      | setStorage =>
          cases hs
          exact hadvance hstack nofun nofun ⟨hbody.1, rfl⟩ (.inl rfl)
      | checkStarting =>
          rw [rhsThreadBody, if_pos hbody.1] at hs
          cases hs
          exact hadvance hstack nofun nofun hbody (.inl rfl)
      | setRunning =>
          cases hs
          refine hadvance hstack nofun nofun ⟨rfl, hbody.2⟩ (.inr ?_)
          rw [hbody.1]
          rfl
      | call => cases hs
      | setRet ret =>
          cases hs
          exact hadvance hstack nofun nofun ⟨hbody.1, hbody.2.1, hbody.2.2⟩ (.inl rfl)
      | checkService =>
          rw [rhsThreadBody, Option.some.injEq] at hs
          split at hs
          · cases hs
            exact ⟨h.halt (.inr rfl), .refl s⟩
          · cases hs
            exact hadvance hstack nofun nofun hbody (.inl rfl)
      | checkRunning =>
          rw [rhsThreadBody, if_pos hbody.1] at hs
          cases hs
          exact hadvance hstack nofun nofun hbody (.inl rfl)
      | setStopping =>
          cases hs
          refine hadvance hstack nofun nofun ⟨rfl, hbody.2⟩ (.inr ?_)
          rw [hbody.1]
          rfl
      | put =>
          rw [rhsThreadBody] at hs
          split at hs
          · cases hs
            exact good_put h hslot howner hstack hbody
          · cases hs
      | suspend =>
          cases hs
          exact good_suspend h hslot howner hstack hbody
      | suspended => cases hs

theorem good_callback {ret : Int32} (h : Good s) (hs : runCallback s t ret = some s') :
    Good s' ∧ Moves s s' := by
  rw [runCallback] at hs
  split at hs
  · rename_i htask
    cases hs
    obtain ⟨owner, o, returned, hslot, howner, hstack, hbody⟩ := (h.slot t).busy htask
    refine ⟨h.set ?_ (.of_body htask nofun nofun _), Moves.set rfl (.refl _)⟩
    rw [hslot]
    exact .running howner hstack ⟨hbody.1, hbody.2, rfl⟩
  · cases hs

/-! ## The scrubber -/

/-- The scrubber changes a thread that is not in the queue. -/
theorem Good.scrub (h : Good s) (hslot : SlotOk t slot) (hqueue : t ∉ s.queue)
    {scrubber : Scrubber ι} (hscrubber : scrubber.Expects (s.set t slot)) :
    Good { s.set t slot with scrubber := scrubber } := by
  refine { h with
    slot := slotOk_set h.slot hslot
    queued := fun t' ht' => ?_
    scrubber := hscrubber }
  have ht : t' ≠ t := by
    intro heq
    rw [heq] at ht'
    exact hqueue ht'
  change (Function.update s.slots t slot t').Leaving
  rw [Function.update_of_ne ht]
  exact h.queued t' ht'

theorem good_get (h : Good s) (hpc : s.scrubber = .get) (hs : runScrubber s = some s') :
    Good s' ∧ Moves s s' := by
  rw [runScrubber, hpc] at hs
  cases hqueue : s.queue with
  | nil =>
      simp only [hqueue] at hs
      cases hs
  | cons t rest =>
      simp only [hqueue] at hs
      cases hs
      have hnodup := h.nodup
      have hqueued := h.queued
      rw [hqueue] at hnodup hqueued
      obtain ⟨hnot, hrest⟩ := List.nodup_cons.mp hnodup
      refine ⟨{ h with
        queued := fun t' ht' => hqueued t' (List.mem_cons_of_mem t ht')
        nodup := hrest
        scrubber := ⟨hnot, hqueued t List.mem_cons_self⟩ }, .refl s⟩

theorem good_delete (h : Good s) (hpc : s.scrubber = .delete t) :
    Good (vTaskDelete s t) ∧ Moves s (vTaskDelete s t) := by
  have hexpects := h.scrubber
  rw [hpc] at hexpects
  obtain ⟨owner, o, body, returned, hslot, howner, hstack, hstate, hstorage, hret⟩ :=
    (h.slot t).taken hexpects.2
  have ho : (s.slots t).object = some o := by rw [hslot]
  have htask : (s.slots t).task.isSome = true := by
    rw [hslot]
    rfl
  rw [vTaskDelete, use_some ho, if_pos htask, hslot]
  refine ⟨h.scrub (.deleted howner hstate hstack hret) hexpects.1 ?_, Moves.set rfl ?_⟩
  · rw [Scrubber.Expects, set_slots_self]
    refine ⟨⟨rfl, ?_⟩, fun o' ho' => ?_⟩
    · rw [Slot.state, Option.map_some, hstate]
    · cases ho'
      exact hstorage
  · rw [hslot]
    exact .refl _

theorem good_scrubber (h : Good s) (hs : runScrubber s = some s') : Good s' ∧ Moves s s' := by
  have hexpects := h.scrubber
  cases hpc : s.scrubber with
  | get => exact good_get h hpc hs
  | delete t =>
      rw [runScrubber, hpc] at hs
      cases hs
      exact good_delete h hpc
  | checkStorage t =>
      rw [hpc] at hexpects
      obtain ⟨owner, o, returned, hslot, -⟩ := (h.slot t).scrubbed hexpects.1
      have ho : (s.slots t).object = some o := by rw [hslot]
      simp only [runScrubber, hpc, use_some ho, if_pos (hexpects.2 o ho)] at hs
      cases hs
      exact ⟨{ h with scrubber := hexpects }, .refl s⟩
  | clearStorage t =>
      rw [hpc] at hexpects
      obtain ⟨owner, o, returned, hslot, howner, hstack, hstate, hret⟩ :=
        (h.slot t).scrubbed hexpects.1
      have ho : (s.slots t).object = some o := by rw [hslot]
      simp only [runScrubber, hpc, use_some ho] at hs
      cases hs
      have hcleared : SlotOk t
          { s.slots t with object := some { o with localStorage := none } } := by
        rw [hslot]
        exact .deleted howner hstate hstack hret
      refine ⟨h.scrub hcleared (h.not_queued_of_deleted hexpects.1) ?_, Moves.set rfl ?_⟩
      · rw [Scrubber.Expects, set_slots_self]
        exact ⟨hexpects.1.1, by rw [Slot.state, Option.map_some, hstate]⟩
      · rw [hslot]
        exact .inl rfl
  | setStopped t =>
      rw [hpc] at hexpects
      obtain ⟨owner, o, returned, hslot, howner, hstack, hstate, hret⟩ :=
        (h.slot t).scrubbed hexpects
      have ho : (s.slots t).object = some o := by rw [hslot]
      simp only [runScrubber, hpc, use_some ho] at hs
      cases hs
      have hstopped : SlotOk t { s.slots t with object := some { o with state := .stopped } } := by
        rw [hslot]
        exact .resting (.inr howner) rfl hstack fun _ => hret
      refine ⟨h.scrub hstopped (h.not_queued_of_deleted hexpects) trivial, Moves.set rfl ?_⟩
      rw [hslot]
      refine .inr ?_
      change RHSThreadState.stopped = o.state.next
      rw [hstate]
      rfl
  | log =>
      rw [runScrubber, hpc] at hs
      cases hs
      exact ⟨{ h with scrubber := trivial }, .refl s⟩

theorem good_step {a : Action ι} (h : Good s) (hs : step s a = some s') :
    Good s' ∧ Moves s s' := by
  unfold step at hs
  split at hs
  · cases hs
  · cases a with
    | owner t call => exact good_owner h hs
    | body t => exact good_body h hs
    | callback t ret => exact good_callback h hs
    | scrubber => exact good_scrubber h hs

/-! ## What it says -/

/-- The body puts its thread into the queue. -/
def Puts (t : ι) (s : State ι) (a : Action ι) : Prop :=
  a = .body t ∧ (s.slots t).task = some .put

/-- The states of the threads are in order; a join of a thread that was started returns when
its callback has, with the result in `ret` and without a task; the scrubber does not use a
thread from when it is stopped until its body puts it into the queue again; and nothing is
used after it is freed. -/
structure HandedOver (s : State ι) : Prop where
  moves : ∀ a s', step s a = some s' → Moves s s'
  joined : ∀ t s', step s (.owner t .poll) = some s' → (s'.slots t).owner = .idle →
    (s.slots t).wasStarted = true →
    ∃ o, (s.slots t).object = some o ∧ (s.slots t).returned = some o.ret ∧
      (s.slots t).task = none
  released : ∀ t, (s.slots t).state = some .stopped →
    ∀ s', Reach step (fun s a => ¬ Puts t s a) s s' → ¬ s'.scrubber.Uses t
  halted : ∀ why, s.halted = some why → why = .caller ∨ why = .service

theorem runOwner_poll (hs : runOwner s t .poll = some s') :
    (s.slots t).owner = .joining ∧ s' = joinLoop s t := by
  obtain ⟨howner, heq⟩ := Option.ite_none_right_eq_some.mp hs
  exact ⟨howner, (Option.some.inj heq).symm⟩

theorem Good.joined (h : Good s) (hs : step s (.owner t .poll) = some s')
    (hidle : (s'.slots t).owner = .idle) (hstarted : (s.slots t).wasStarted = true) :
    ∃ o, (s.slots t).object = some o ∧ (s.slots t).returned = some o.ret ∧
      (s.slots t).task = none := by
  unfold step at hs
  split at hs
  · cases hs
  · obtain ⟨howner, rfl⟩ := runOwner_poll hs
    have hne : (s.slots t).owner ≠ .absent ∧ (s.slots t).owner ≠ .freeing := by
      rw [howner]
      exact ⟨nofun, nofun⟩
    obtain ⟨o, ho⟩ := (h.slot t).object hne.1
    rw [joinLoop, use_some ho] at hidle
    split at hidle
    · rename_i hstate
      obtain ⟨htask, -, hret⟩ := (h.slot t).stopped ho hstate
      exact ⟨o, ho, hret hne.2 hstarted, htask⟩
    · rw [howner] at hidle
      cases hidle

theorem frame_runOwner {call : Call} (hs : runOwner s t call = some s') : Frame s s' := by
  cases call with
  | alloc stackSize callback isService =>
      cases (Option.ite_none_right_eq_some.mp hs).2
      exact ⟨rfl, rfl⟩
  | start =>
      cases (Option.ite_none_right_eq_some.mp hs).2
      exact frame_use fun o => frame_ite ⟨rfl, rfl⟩ ⟨rfl, rfl⟩
  | create =>
      cases (Option.ite_none_right_eq_some.mp hs).2
      exact frame_use fun o => frame_ite ⟨rfl, rfl⟩ ⟨rfl, rfl⟩
  | join =>
      cases (Option.ite_none_right_eq_some.mp hs).2
      exact frame_use fun o => frame_ite ⟨rfl, rfl⟩ ⟨rfl, rfl⟩
  | poll =>
      cases (Option.ite_none_right_eq_some.mp hs).2
      exact frame_use fun o => frame_ite ⟨rfl, rfl⟩ ⟨rfl, rfl⟩
  | free =>
      cases (Option.ite_none_right_eq_some.mp hs).2
      exact frame_use fun o => frame_ite ⟨rfl, rfl⟩ ⟨rfl, rfl⟩
  | freeObject =>
      cases (Option.ite_none_right_eq_some.mp hs).2
      exact frame_use fun o => ⟨rfl, rfl⟩

theorem rhsThreadBody_queue {body : Body} (hs : rhsThreadBody s t o body = some s') :
    Frame s s' ∨ body = .put ∧ s'.queue = s.queue ++ [t] ∧ s'.scrubber = s.scrubber := by
  cases body with
  | checkStorage =>
      cases hs
      exact .inl (frame_ite ⟨rfl, rfl⟩ ⟨rfl, rfl⟩)
  | checkStarting =>
      cases hs
      exact .inl (frame_ite ⟨rfl, rfl⟩ ⟨rfl, rfl⟩)
  | checkService =>
      cases hs
      exact .inl (frame_ite ⟨rfl, rfl⟩ ⟨rfl, rfl⟩)
  | checkRunning =>
      cases hs
      exact .inl (frame_ite ⟨rfl, rfl⟩ ⟨rfl, rfl⟩)
  | put =>
      rw [rhsThreadBody] at hs
      split at hs
      · cases hs
        exact .inr ⟨rfl, rfl, rfl⟩
      · cases hs
  | call => cases hs
  | suspended => cases hs
  | setStorage =>
      cases hs
      exact .inl ⟨rfl, rfl⟩
  | setRunning =>
      cases hs
      exact .inl ⟨rfl, rfl⟩
  | setRet ret =>
      cases hs
      exact .inl ⟨rfl, rfl⟩
  | setStopping =>
      cases hs
      exact .inl ⟨rfl, rfl⟩
  | suspend =>
      cases hs
      exact .inl ⟨rfl, rfl⟩

theorem runBody_queue (hs : runBody s t = some s') :
    Frame s s' ∨
      (s.slots t).task = some .put ∧ s'.queue = s.queue ++ [t] ∧ s'.scrubber = s.scrubber := by
  rw [runBody] at hs
  split at hs
  · cases hs
  · rename_i body htask
    split at hs
    · cases hs
      exact .inl ⟨rfl, rfl⟩
    · split at hs
      · refine (rhsThreadBody_queue hs).imp id fun ⟨hput, hqueue⟩ => ⟨?_, hqueue⟩
        rw [htask, hput]
      · cases hs
        exact .inl ⟨rfl, rfl⟩

/-- The scrubber takes a thread from the queue only. -/
theorem runScrubber_queue (hs : runScrubber s = some s') (hqueue : t ∉ s.queue)
    (huses : ¬ s.scrubber.Uses t) : t ∉ s'.queue ∧ ¬ s'.scrubber.Uses t := by
  have huse {t' : ι} {f : RHSThread ι → State ι} (hthread : ¬ t' = t)
      (hf : ∀ o, (f o).queue = s.queue ∧ ((f o).scrubber.Uses t → t' = t)) :
      t ∉ (s.use t' f).queue ∧ ¬ (s.use t' f).scrubber.Uses t := by
    rw [State.use]
    split
    · exact ⟨hqueue, huses⟩
    · rename_i o _
      rw [(hf o).1]
      exact ⟨hqueue, fun hf' => hthread ((hf o).2 hf')⟩
  cases hpc : s.scrubber with
  | get =>
      simp only [runScrubber, hpc] at hs
      split at hs
      · cases hs
      · rename_i t' rest hcons
        cases hs
        rw [hcons, List.mem_cons, not_or] at hqueue
        exact ⟨hqueue.2, fun heq => hqueue.1 heq.symm⟩
  | delete t' =>
      have hne : ¬ t' = t := by
        rwa [hpc] at huses
      simp only [runScrubber, hpc, vTaskDelete] at hs
      cases hs
      refine huse hne fun o => ?_
      split
      · exact ⟨rfl, id⟩
      · exact ⟨rfl, fun hf => by rwa [State.halt, hpc] at hf⟩
  | checkStorage t' =>
      have hne : ¬ t' = t := by
        rwa [hpc] at huses
      simp only [runScrubber, hpc] at hs
      cases hs
      refine huse hne fun o => ?_
      split
      · exact ⟨rfl, id⟩
      · exact ⟨rfl, fun hf => by rwa [State.halt, hpc] at hf⟩
  | clearStorage t' =>
      have hne : ¬ t' = t := by
        rwa [hpc] at huses
      simp only [runScrubber, hpc] at hs
      cases hs
      exact huse hne fun o => ⟨rfl, id⟩
  | setStopped t' =>
      have hne : ¬ t' = t := by
        rwa [hpc] at huses
      simp only [runScrubber, hpc] at hs
      cases hs
      exact huse hne fun o => ⟨rfl, False.elim⟩
  | log =>
      simp only [runScrubber, hpc] at hs
      cases hs
      exact ⟨hqueue, id⟩

/-- A thread gets to the scrubber by its body's put only. -/
theorem not_queued_step {a : Action ι} (hqueue : t ∉ s.queue) (huses : ¬ s.scrubber.Uses t)
    (ha : ¬ Puts t s a) (hs : step s a = some s') : t ∉ s'.queue ∧ ¬ s'.scrubber.Uses t := by
  unfold step at hs
  split at hs
  · cases hs
  · cases a with
    | owner t' call =>
        obtain ⟨hqueue', hscrubber⟩ := frame_runOwner hs
        rw [hqueue', hscrubber]
        exact ⟨hqueue, huses⟩
    | body t' =>
        obtain ⟨hqueue', hscrubber⟩ | ⟨hput, hqueue', hscrubber⟩ := runBody_queue hs
        · rw [hqueue', hscrubber]
          exact ⟨hqueue, huses⟩
        · rw [hqueue', hscrubber]
          refine ⟨fun hmem => ?_, huses⟩
          rcases List.mem_append.mp hmem with hmem | hmem
          · exact hqueue hmem
          · obtain rfl := List.mem_singleton.mp hmem
            exact ha ⟨rfl, hput⟩
    | callback t' ret =>
        simp only [runCallback] at hs
        split at hs
        · cases hs
          exact ⟨hqueue, huses⟩
        · cases hs
    | scrubber => exact runScrubber_queue hs hqueue huses

theorem Good.handedOver (h : Good s) : HandedOver s where
  moves _ _ hs := (good_step h hs).2
  joined _ _ := h.joined
  released t hstate _ hreach := by
    refine (hreach.invariant (I := fun s => t ∉ s.queue ∧ ¬ s.scrubber.Uses t) (h.stopped hstate)
      fun _ _ _ hnot ha hs => ?_).2
    exact not_queued_step hnot.1 hnot.2 ha hs
  halted := h.halted

/-- **A stopped thread is its owner's**, in every state reached by any threads, their owners
and the scrubber. -/
theorem handedOver_of_reach (h : Reach step (fun _ _ => True) State.init s) : HandedOver s :=
  (h.invariant good_init fun _ _ _ hgood _ hs => (good_step hgood hs).1).handedOver

/-! ## Two threads -/

/-- Both are started and end, the second one first; the first one is joined and started
again. -/
def twoThreadsRun : List (Action ℕ) :=
  List.flatten [
    [.owner 1 (.alloc 1024 7 false), .owner 2 (.alloc 1024 7 false), .owner 1 .start,
      .owner 1 .create, .owner 2 .start, .owner 2 .create],
    List.replicate 4 (.body 1), List.replicate 4 (.body 2), [.callback 2 (-1)],
    List.replicate 5 (.body 2), [.owner 1 .join, .callback 1 5], List.replicate 5 (.body 1),
    List.replicate 12 .scrubber, [.owner 1 .poll, .owner 1 .start, .owner 1 .create]]

theorem two_threads_handedOver : ∃ s : State ℕ,
    runActions step (fun _ _ => True) State.init twoThreadsRun = some s ∧
      (s.slots 2).returned = some (-1) ∧ HandedOver s := by
  have hrun : (runActions step (fun _ _ => True) (State.init : State ℕ) twoThreadsRun).map
      (fun s => (s.slots 2).returned) = some (some (-1)) := by decide
  obtain ⟨s, hs, hreturned⟩ := Option.map_eq_some_iff.mp hrun
  exact ⟨s, hs, hreturned, handedOver_of_reach (.of_runActions hs)⟩

end RhsCore.Thread
