import Mathlib.Data.List.Forall2
import RhsCore.Lib.Transition

/-!
# The list of threads

`rhs_thread_enumerate` takes a snapshot of the tasks, erases the list and adds one item for
each task of the snapshot.  The items come from `malloc`, whose memory holds whatever was in it
before, and what an item had as its counter is gone with the item.

## Main definitions

* `rhsThreadListErase`, `rhsThreadListAdd`, `rhsThreadListProcess`, `rhsThreadEnumerate` — the
  source functions.
* `OnePerTask` — the list has one item for each task of the snapshot.
* `Carried` — every counter of the previous call is there as `counterPrevious`.
* `Recycles` — the memory happens to hold the counters of the previous call.
* `Independent` — what memory held before does not show in the items.
* `carried_iff_recycles` — how these go together.
-/

namespace RhsCore.ThreadList

/-! ## The source -/

inductive ETaskState
  | eRunning
  | eReady
  | eBlocked
  | eSuspended
  | eDeleted
  | eInvalid
deriving DecidableEq

/-- What the scheduler tells about a task.  Pointers are addresses, of stack words of four
bytes for the stack. -/
structure TaskStatus where
  xTaskNumber : UInt32
  pcTaskName : UInt32
  uxCurrentPriority : UInt32
  pxStackBase : UInt32
  pxEndOfStack : UInt32
  eCurrentState : ETaskState
  ulRunTimeCounter : UInt32
  /-- The result of `uxTaskGetStackHighWaterMark` for the task. -/
  stackHighWaterMark : UInt32

structure RHSThreadListItem where
  thread : UInt32
  name : UInt32
  priority : UInt32
  stackAddress : UInt32
  stackSize : UInt32
  stackMinFree : UInt32
  state : String
  counterPrevious : UInt32
  counterCurrent : UInt32
  cpu : UInt32
  tick : UInt32

/-- The items are linked by their `next`, which is the order of the list. -/
structure RHSThreadList where
  item : List RHSThreadListItem
  runtimePrevious : UInt32
  runtimeCurrent : UInt32
  isrPrevious : UInt32
  isrCurrent : UInt32

def rhsThreadListCreate : RHSThreadList where
  item := []
  runtimePrevious := 0
  runtimeCurrent := 0
  isrPrevious := 0
  isrCurrent := 0

def rhsThreadListErase (list : RHSThreadList) : RHSThreadList := { list with item := [] }

/-- `fresh` is the memory that `malloc` returns, with what it held before. -/
def rhsThreadListAdd (list : RHSThreadList) (fresh : RHSThreadListItem) : RHSThreadList :=
  { list with item := fresh :: list.item }

def rhsThreadListSize (list : RHSThreadList) : UInt16 :=
  list.item.foldl (fun count _ => count + 1) 0

/-- What the loop of `rhs_thread_list_process` does to one item. -/
def processItem (runtimeCounter : UInt32) (item : RHSThreadListItem) : RHSThreadListItem :=
  let itemCounter := item.counterCurrent - item.counterPrevious
  let cpu : Float32 :=
    if itemCounter ≠ 0 ∧ item.counterPrevious ≠ 0 ∧ item.counterCurrent ≠ 0 then
      let cpu := itemCounter.toFloat32 / runtimeCounter.toFloat32 * 100
      if cpu > 200 then 0 else cpu
    else 0
  { item with cpu := cpu.toUInt32 }

def rhsThreadListProcess (instance_ : RHSThreadList) (runtime _tick : UInt32) : RHSThreadList :=
  let runtimePrevious := instance_.runtimeCurrent
  let runtimeCounter := runtime - runtimePrevious
  let count := rhsThreadListSize instance_
  -- `rhs_thread_list_at` finds the item, since `count` is at most the length
  { instance_ with
    runtimePrevious := runtimePrevious
    runtimeCurrent := runtime
    item := (List.range count.toNat).foldl
      (fun items i => items.modify i (processItem runtimeCounter)) instance_.item }

def rhsThreadStateName : ETaskState → String
  | .eRunning => "Running"
  | .eReady => "Ready"
  | .eBlocked => "Blocked"
  | .eSuspended => "Suspended"
  | .eDeleted => "Deleted"
  | .eInvalid => "Invalid"

/-- What `rhs_thread_enumerate` writes to the item of a task.  It does not write `thread`, and
reads `counterCurrent` before it writes it. -/
def writeItem (tick : UInt32) (task : TaskStatus) (item : RHSThreadListItem) :
    RHSThreadListItem :=
  { item with
    name := task.pcTaskName
    priority := task.uxCurrentPriority
    stackAddress := task.pxStackBase
    stackSize := (task.pxEndOfStack - task.pxStackBase) / 4 + 2
    stackMinFree := task.stackHighWaterMark
    state := rhsThreadStateName task.eCurrentState
    counterPrevious := item.counterCurrent
    counterCurrent := task.ulRunTimeCounter
    tick := tick }

/-- One call of `rhs_thread_enumerate`: the snapshot is `none` if there is no memory for it. -/
structure Call where
  tick : UInt32
  task : Option (List TaskStatus)
  totalRunTime : UInt32

/-- The loop of `rhs_thread_enumerate`.  `malloc` returns the blocks in turn, and a null pointer
when there are no more, which the loop writes through. -/
def addAll (tick : UInt32) :
    List TaskStatus → List RHSThreadListItem → RHSThreadList → Option RHSThreadList
  | [], _, list => some list
  | _ :: _, [], _ => none
  | task :: rest, fresh :: malloc, list =>
      let list := rhsThreadListAdd list fresh
      addAll tick rest malloc { list with item := list.item.modifyHead (writeItem tick task) }

def rhsThreadEnumerate (call : Call) (malloc : List RHSThreadListItem) (list : RHSThreadList) :
    Option RHSThreadList :=
  match call.task with
  | none => some list
  | some task =>
      (addAll call.tick task malloc (rhsThreadListErase list)).map fun list =>
        rhsThreadListProcess list call.totalRunTime call.tick

/-! ## Runs -/

/-- The list, the snapshot it was made from, and the tasks of the call before with their
items. -/
structure State where
  list : RHSThreadList
  snapshot : List TaskStatus
  previous : List (TaskStatus × RHSThreadListItem)

def State.init : State := ⟨rhsThreadListCreate, [], []⟩

/-- The tasks of the last snapshot with their items, which are in the other order. -/
def State.tasks (s : State) : List (TaskStatus × RHSThreadListItem) :=
  s.snapshot.reverse.zip s.list.item

def step (s : State) : Call × List RHSThreadListItem → Option State
  | (call, malloc) =>
      (rhsThreadEnumerate call malloc s.list).map fun list =>
        match call.task with
        | none => { s with list := list }
        | some task => ⟨list, task, s.tasks⟩

/-- The item tells about the task. -/
structure Describes (task : TaskStatus) (item : RHSThreadListItem) : Prop where
  name : item.name = task.pcTaskName
  priority : item.priority = task.uxCurrentPriority
  stackAddress : item.stackAddress = task.pxStackBase
  stackSize : item.stackSize = (task.pxEndOfStack - task.pxStackBase) / 4 + 2
  stackMinFree : item.stackMinFree = task.stackHighWaterMark
  state : item.state = rhsThreadStateName task.eCurrentState
  counterCurrent : item.counterCurrent = task.ulRunTimeCounter

/-- **One item per task**: the items are those of the snapshot, one for each task. -/
def OnePerTask (s : State) : Prop := List.Forall₂ Describes s.snapshot.reverse s.list.item

/-- The item's `counterPrevious` is the counter that the task had in the call before. -/
def Carries (previous : List (TaskStatus × RHSThreadListItem)) (task : TaskStatus)
    (item : RHSThreadListItem) : Prop :=
  ∀ old ∈ previous, old.1.xTaskNumber = task.xTaskNumber →
    item.counterPrevious = old.2.counterCurrent

/-- **The counters are carried**: every item has its task's counter of the call before. -/
def Carried (s : State) : Prop :=
  List.Forall₂ (Carries s.previous) s.snapshot.reverse s.list.item

/-- The memory that becomes the item of a task holds the counter that the task has now. -/
def Recycles (s : State) (a : Call × List RHSThreadListItem) : Prop :=
  ∀ task ∈ a.1.task, ∀ p ∈ task.zip a.2, ∀ old ∈ s.tasks,
    old.1.xTaskNumber = p.1.xTaskNumber → p.2.counterCurrent = old.2.counterCurrent

/-- The same call on two lists, with other memory. -/
def pairStep (s : State × State) :
    Call × List RHSThreadListItem × List RHSThreadListItem → Option (State × State)
  | (call, malloc, malloc') =>
      (step s.1 (call, malloc)).bind fun t =>
        (step s.2 (call, malloc')).map fun t' => (t, t')

def SameItems (s : State × State) : Prop := s.1.list.item = s.2.list.item

/-- **No item depends on the memory**: the items are the same whatever the memory held. -/
def Independent (calls : List Call) : Prop :=
  ∀ run : List (Call × List RHSThreadListItem × List RHSThreadListItem),
    run.map Prod.fst = calls → Always pairStep SameItems (State.init, State.init) run

/-! ## One call -/

variable {R : TaskStatus → RHSThreadListItem → Prop}

theorem forall₂_modify_iff {f : RHSThreadListItem → RHSThreadListItem}
    (hf : ∀ task item, R task (f item) ↔ R task item) {tasks : List TaskStatus}
    {items : List RHSThreadListItem} (i : ℕ) :
    List.Forall₂ R tasks (items.modify i f) ↔ List.Forall₂ R tasks items := by
  induction items generalizing tasks i with
  | nil => simp
  | cons item items ih =>
      cases tasks with
      | nil => cases i <;> simp
      | cons task tasks => cases i <;> simp [hf, ih]

/-- What does not look at `cpu` is not touched by `rhs_thread_list_process`. -/
theorem forall₂_process_iff
    (hR : ∀ runtimeCounter task item, R task (processItem runtimeCounter item) ↔ R task item)
    {tasks : List TaskStatus} {list : RHSThreadList} {runtime tick : UInt32} :
    List.Forall₂ R tasks (rhsThreadListProcess list runtime tick).item ↔
      List.Forall₂ R tasks list.item := by
  rw [rhsThreadListProcess]
  simp only
  generalize List.range (rhsThreadListSize list).toNat = turns
  generalize list.item = items
  induction turns generalizing items with
  | nil => rfl
  | cons i turns ih =>
      rw [List.foldl_cons, ih]
      exact forall₂_modify_iff (hR _) i

/-- The loop of `rhs_thread_enumerate` as a whole. -/
theorem addAll_eq_some_iff {tick : UInt32} {tasks : List TaskStatus}
    {malloc : List RHSThreadListItem} {list list' : RHSThreadList} :
    addAll tick tasks malloc list = some list' ↔
      tasks.length ≤ malloc.length ∧ list' = { list with
        item := (List.zipWith (writeItem tick) tasks malloc).reverse ++ list.item } := by
  induction tasks generalizing malloc list with
  | nil => simp [addAll, eq_comm]
  | cons task rest ih =>
      cases malloc with
      | nil => simp [addAll]
      | cons fresh malloc =>
          rw [addAll, ih]
          simp [rhsThreadListAdd]

theorem forall₂_zipWith_iff {f : TaskStatus → RHSThreadListItem → RHSThreadListItem}
    {tasks : List TaskStatus} {malloc : List RHSThreadListItem}
    (h : tasks.length ≤ malloc.length) :
    List.Forall₂ R tasks (List.zipWith f tasks malloc) ↔
      ∀ p ∈ tasks.zip malloc, R p.1 (f p.1 p.2) := by
  induction tasks generalizing malloc with
  | nil => simp
  | cons task rest ih =>
      cases malloc with
      | nil => simp at h
      | cons fresh malloc => simp [ih (Nat.le_of_succ_le_succ h)]

/-- **The items after a call**: those of the snapshot, each written on the memory that it was
given. -/
theorem forall₂_enumerate_iff
    (hR : ∀ runtimeCounter task item, R task (processItem runtimeCounter item) ↔ R task item)
    {call : Call} {task : List TaskStatus} (htask : call.task = some task)
    {malloc : List RHSThreadListItem} {list list' : RHSThreadList}
    (h : rhsThreadEnumerate call malloc list = some list') :
    List.Forall₂ R task.reverse list'.item ↔
      ∀ p ∈ task.zip malloc, R p.1 (writeItem call.tick p.1 p.2) := by
  rw [rhsThreadEnumerate, htask] at h
  obtain ⟨filled, hfilled, rfl⟩ := Option.map_eq_some_iff.mp h
  obtain ⟨hlen, rfl⟩ := addAll_eq_some_iff.mp hfilled
  rw [forall₂_process_iff hR, rhsThreadListErase, List.append_nil, List.forall₂_reverse_iff]
  exact forall₂_zipWith_iff hlen

/-- A step that takes a snapshot. -/
theorem step_snapshot {s s' : State} {call : Call} {task : List TaskStatus}
    {malloc : List RHSThreadListItem} (htask : call.task = some task)
    (h : step s (call, malloc) = some s') :
    rhsThreadEnumerate call malloc s.list = some s'.list ∧ s'.snapshot = task ∧
      s'.previous = s.tasks := by
  obtain ⟨list, hlist, rfl⟩ := Option.map_eq_some_iff.mp h
  simp [htask, hlist]

/-- Without memory for the snapshot nothing changes. -/
theorem step_none {s : State} {call : Call} {malloc : List RHSThreadListItem}
    (htask : call.task = none) : step s (call, malloc) = some s := by
  simp [step, rhsThreadEnumerate, htask]

theorem describes_writeItem (tick : UInt32) (task : TaskStatus) (item : RHSThreadListItem) :
    Describes task (writeItem tick task item) :=
  ⟨rfl, rfl, rfl, rfl, rfl, rfl, rfl⟩

theorem describes_processItem_iff (runtimeCounter : UInt32) (task : TaskStatus)
    (item : RHSThreadListItem) :
    Describes task (processItem runtimeCounter item) ↔ Describes task item :=
  ⟨fun ⟨h₁, h₂, h₃, h₄, h₅, h₆, h₇⟩ => ⟨h₁, h₂, h₃, h₄, h₅, h₆, h₇⟩,
    fun ⟨h₁, h₂, h₃, h₄, h₅, h₆, h₇⟩ => ⟨h₁, h₂, h₃, h₄, h₅, h₆, h₇⟩⟩

/-! ## All calls -/

theorem onePerTask_init : OnePerTask State.init := .nil

theorem carried_init : Carried State.init := .nil

theorem onePerTask_step {s s' : State} {a : Call × List RHSThreadListItem} (hs : OnePerTask s)
    (h : step s a = some s') : OnePerTask s' := by
  obtain ⟨call, malloc⟩ := a
  cases htask : call.task with
  | none =>
      rw [step_none htask, Option.some.injEq] at h
      subst h
      exact hs
  | some task =>
      obtain ⟨henum, rfl, -⟩ := step_snapshot htask h
      exact (forall₂_enumerate_iff describes_processItem_iff htask henum).mpr
        fun p _ => describes_writeItem _ _ _

/-- One call carries the counters exactly if the memory that it is given has them. -/
theorem carried_step_iff {s s' : State} {a : Call × List RHSThreadListItem} (hs : Carried s)
    (h : step s a = some s') : Carried s' ↔ Recycles s a := by
  obtain ⟨call, malloc⟩ := a
  cases htask : call.task with
  | none =>
      rw [step_none htask, Option.some.injEq] at h
      subst h
      simp [hs, Recycles, htask]
  | some task =>
      obtain ⟨henum, hsnapshot, hprevious⟩ := step_snapshot htask h
      rw [Carried, hsnapshot, hprevious,
        forall₂_enumerate_iff (fun _ _ _ => Iff.rfl) htask henum]
      simp [Recycles, htask, Carries, writeItem]

/-- **The exact condition**: the counters are carried all along a run exactly if every call is
given memory that has them. -/
theorem always_carried_iff (run : List (Call × List RHSThreadListItem)) :
    Always step (fun s => OnePerTask s ∧ Carried s) State.init run ↔
      Each step Recycles State.init run := by
  refine always_iff_each (J := OnePerTask) (fun s a s' => onePerTask_step)
    (fun s a s' _ hs h => ?_) onePerTask_init ⟨onePerTask_init, carried_init⟩ run
  rw [and_iff_right (onePerTask_step hs.1 h)]
  exact carried_step_iff hs.2 h

/-! ## What the memory held -/

/-- A block of memory with something in the place of `thread`. -/
def block (thread : UInt32) : RHSThreadListItem where
  thread := thread
  name := 0
  priority := 0
  stackAddress := 0
  stackSize := 0
  stackMinFree := 0
  state := ""
  counterPrevious := 0
  counterCurrent := 0
  cpu := 0
  tick := 0

theorem exists_step {call : Call} {malloc : List RHSThreadListItem}
    (h : ∀ task ∈ call.task, task.length ≤ malloc.length) (s : State) :
    ∃ s', step s (call, malloc) = some s' := by
  cases htask : call.task with
  | none => exact ⟨s, step_none htask⟩
  | some task =>
      have hadd : addAll call.tick task malloc (rhsThreadListErase s.list) = some _ :=
        addAll_eq_some_iff.mpr ⟨h task htask, rfl⟩
      simp [step, rhsThreadEnumerate, htask, hadd]

/-- The items keep in `thread` what was in the memory. -/
theorem forall₂_thread {s s' : State} {call : Call} {task : List TaskStatus}
    (htask : call.task = some task) {n : ℕ} {thread : UInt32}
    (h : step s (call, List.replicate n (block thread)) = some s') :
    List.Forall₂ (fun _ item => item.thread = thread) task.reverse s'.list.item := by
  obtain ⟨henum, -, -⟩ := step_snapshot htask h
  refine (forall₂_enumerate_iff (fun _ _ _ => Iff.rfl) htask henum).mpr fun p hp => ?_
  have hblock : p.2 = block thread := List.eq_of_mem_replicate (List.of_mem_zip hp).2
  simp [writeItem, hblock, block]

theorem pairStep_eq {s s' t t' : State} {call : Call} {malloc malloc' : List RHSThreadListItem}
    (h : step s (call, malloc) = some t) (h' : step s' (call, malloc') = some t') :
    pairStep (s, s') (call, malloc, malloc') = some (t, t') := by
  simp [pairStep, h, h']

/-- A task is seen in its item's `thread`, where the memory differs. -/
theorem not_sameItems {s s' t t' : State} {call : Call} {task : TaskStatus}
    {rest : List TaskStatus} (htask : call.task = some (task :: rest)) {n : ℕ}
    (h : step s (call, List.replicate n (block 0)) = some t)
    (h' : step s' (call, List.replicate n (block 1)) = some t') : ¬ SameItems (t, t') := by
  intro hsame
  have hzero := forall₂_thread htask h
  have hone := forall₂_thread htask h'
  rw [← hsame] at hone
  cases hitems : t.list.item with
  | nil => simp [hitems] at hzero
  | cons item items =>
      rw [hitems] at hzero hone
      obtain ⟨_, _, h₀, -, -⟩ := List.forall₂_cons_right_iff.mp hzero
      obtain ⟨_, _, h₁, -, -⟩ := List.forall₂_cons_right_iff.mp hone
      exact absurd (h₀.symm.trans h₁) (by decide)

/-- Where no item depends on the memory, the first call has no tasks. -/
theorem head_empty {call : Call} {calls : List Call} {s s' : State}
    (h : ∀ run : List (Call × List RHSThreadListItem × List RHSThreadListItem),
      run.map Prod.fst = call :: calls → Always pairStep SameItems (s, s') run) :
    ∀ task ∈ call.task, task = [] := by
  intro tasks htasks
  cases tasks with
  | nil => rfl
  | cons task rest =>
      let blocks (thread : UInt32) := List.replicate (task :: rest).length (block thread)
      have hstep (thread : UInt32) (s : State) : ∃ t, step s (call, blocks thread) = some t := by
        refine exists_step (fun tasks' htasks' => ?_) s
        obtain rfl : task :: rest = tasks' := Option.some.inj (htasks.symm.trans htasks')
        simp [blocks]
      obtain ⟨t, ht⟩ := hstep 0 s
      obtain ⟨t', ht'⟩ := hstep 1 s'
      have hall := h ((call, blocks 0, blocks 1) :: calls.map fun call => (call, [], []))
        (by simp [Function.comp_def])
      exact absurd (hall.2 _ (pairStep_eq ht ht')).start (not_sameItems htasks ht ht')

/-- And so do the others, which are reached without any memory. -/
theorem all_empty {calls : List Call} {s s' : State}
    (h : ∀ run : List (Call × List RHSThreadListItem × List RHSThreadListItem),
      run.map Prod.fst = calls → Always pairStep SameItems (s, s') run) :
    ∀ call ∈ calls, ∀ task ∈ call.task, task = [] := by
  induction calls generalizing s s' with
  | nil => simp
  | cons call calls ih =>
      have hhead := head_empty h
      have hstep (s : State) : ∃ t, step s (call, []) = some t :=
        exists_step (fun task htask => by simp [hhead task htask]) s
      obtain ⟨t, ht⟩ := hstep s
      obtain ⟨t', ht'⟩ := hstep s'
      have hrest : ∀ run : List (Call × List RHSThreadListItem × List RHSThreadListItem),
          run.map Prod.fst = calls → Always pairStep SameItems (t, t') run := by
        intro run hrun
        exact (h ((call, [], []) :: run) (by simp [hrun])).2 _ (pairStep_eq ht ht')
      exact List.forall_mem_cons.mpr ⟨hhead, ih hrest⟩

/-- Without tasks there are no items. -/
theorem item_eq_nil_step {s s' : State} {call : Call} {malloc : List RHSThreadListItem}
    (hempty : ∀ task ∈ call.task, task = []) (hs : s.list.item = [])
    (h : step s (call, malloc) = some s') : s'.list.item = [] := by
  cases htask : call.task with
  | none =>
      rw [step_none htask, Option.some.injEq] at h
      subst h
      exact hs
  | some task =>
      obtain rfl := hempty task htask
      obtain ⟨henum, -, -⟩ := step_snapshot htask h
      have hitems : List.Forall₂ (fun _ _ => True) ([] : List TaskStatus).reverse s'.list.item :=
        (forall₂_enumerate_iff (fun _ _ _ => Iff.rfl) htask henum).mpr (by simp)
      simpa using hitems

theorem independent_of_empty {calls : List Call}
    (hempty : ∀ call ∈ calls, ∀ task ∈ call.task, task = []) : Independent calls := by
  rintro run rfl
  have hquiet : Always pairStep (fun s => s.1.list.item = [] ∧ s.2.list.item = [])
      (State.init, State.init) run := by
    refine Always.of_step ?_ ⟨rfl, rfl⟩
    rintro ⟨call, malloc, malloc'⟩ hmem ⟨s, s'⟩ _ ⟨hs, hs'⟩ hpair
    have hcall : ∀ task ∈ call.task, task = [] :=
      hempty call (List.mem_map_of_mem (f := Prod.fst) hmem)
    obtain ⟨t, ht, hrest⟩ := Option.bind_eq_some_iff.mp hpair
    obtain ⟨t', ht', rfl⟩ := Option.map_eq_some_iff.mp hrest
    exact ⟨item_eq_nil_step hcall hs ht, item_eq_nil_step hcall hs' ht'⟩
  exact hquiet.imp fun s hs => hs.1.trans hs.2.symm

/-- A call without tasks has no item to be given memory. -/
theorem recycles_of_empty {run : List (Call × List RHSThreadListItem)}
    (hempty : ∀ call ∈ run.map Prod.fst, ∀ task ∈ call.task, task = []) :
    Each step Recycles State.init run := by
  refine Each.of_forall (fun a ha s task htask p hp => ?_) State.init
  obtain rfl := hempty a.1 (List.mem_map_of_mem ha) task htask
  simp at hp

/-- **What the list of threads holds.**  There is one item for each task, always.  The counters
of the call before are carried exactly if the memory of the new items happens to hold them.  And
neither the memory shows in the items nor is a counter lost, whatever the memory, exactly if no
snapshot has a task. -/
theorem carried_iff_recycles (calls : List Call) :
    (∀ run : List (Call × List RHSThreadListItem), run.map Prod.fst = calls →
      Always step OnePerTask State.init run ∧
        (Always step (fun s => OnePerTask s ∧ Carried s) State.init run ↔
          Each step Recycles State.init run)) ∧
      ((∀ run : List (Call × List RHSThreadListItem), run.map Prod.fst = calls →
          Always step (fun s => OnePerTask s ∧ Carried s) State.init run) ∧ Independent calls ↔
        ∀ call ∈ calls, ∀ task ∈ call.task, task = []) := by
  refine ⟨fun run _ => ⟨?_, always_carried_iff run⟩, fun h => all_empty h.2, fun hempty => ?_⟩
  · exact Always.of_step (fun a _ s s' => onePerTask_step) onePerTask_init
  · refine ⟨fun run hrun => ?_, independent_of_empty hempty⟩
    exact (always_carried_iff run).mpr (recycles_of_empty (hrun ▸ hempty))

/-- A task that has run for `counter`. -/
def shell (counter : UInt32) : TaskStatus where
  xTaskNumber := 1
  pcTaskName := 0x08001000
  uxCurrentPriority := 16
  pxStackBase := 0x20001000
  pxEndOfStack := 0x200013f8
  eCurrentState := .eRunning
  ulRunTimeCounter := counter
  stackHighWaterMark := 100

/-- The shell is there in two calls, and the memory of its second item is all zero. -/
def topTwice : List (Call × List RHSThreadListItem) :=
  [(⟨1000, some [shell 500], 1000⟩, [block 0]), (⟨2000, some [shell 900], 2000⟩, [block 0])]

theorem counter_lost : ¬ Always step Carried State.init topTwice ∧
    ¬ Independent (topTwice.map Prod.fst) := by
  constructor
  · intro h
    have hfirst := h.2 _ rfl
    have hrecycles : Recycles _ (⟨2000, some [shell 900], 2000⟩, [block 0]) :=
      (carried_step_iff hfirst.start rfl).mp (hfirst.2 _ rfl).start
    have hzero : (0 : UInt32) = 500 :=
      hrecycles _ rfl (shell 900, block 0) List.mem_cons_self _ List.mem_cons_self rfl
    exact absurd hzero (by decide)
  · intro h
    exact absurd (all_empty h _ List.mem_cons_self _ rfl) (List.cons_ne_nil _ _)

end RhsCore.ThreadList
