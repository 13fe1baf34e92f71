import RhsCore.Core.EventFlag
import RhsCore.Lib.Transition
import Mathlib.Data.Nat.Init
import Mathlib.Logic.Function.Basic

/-!
# The registry of records

`core/record.c`: named records behind one mutex.  A thread that opens a record counts
itself as a holder under the mutex, and then waits, without it, until the record has been
created.  It reads the record through a pointer it got under the mutex.

The pointer is to an entry of the dictionary, and good as long as the entry is there;
an entry that is erased and made anew is another one.  Each entry has a number here, and
reading through a pointer to an entry that is gone is a fault.

The registry has been initialised, and names are not `NULL`.

## Main definitions

* `RecordData`, `State` — an entry, and the registry with the threads that use it.
* `Call`, `Pc`, `step` — what a thread can call, and the steps of the calls.
* `holders` — how many opens of a name are counted and not yet closed.
-/

namespace RhsCore.Record

/-- `RHS_RECORD_FLAG_READY`. -/
def rhsRecordFlagReady : UInt32 := 1

abbrev Tid := ℕ
abbrev Name := String

/-- A pointer that is not `NULL`. -/
abbrev Ptr := ℕ

/-- `RHSRecordData`, with the number of the entry; missing data is `NULL`. -/
structure RecordData where
  id : ℕ
  flags : UInt32
  data : Option Ptr
  holdersCount : UInt32
  deriving DecidableEq, Repr

/-- The calls that take the mutex. -/
inductive Call
  | create (name : Name) (data : Ptr)
  | destroy (name : Name)
  | open (name : Name)
  | close (name : Name)
  | exists (name : Name)
  deriving DecidableEq, Repr

/-- What a call does when it has released the mutex: it returns, or an open waits. -/
inductive Outcome
  | done (result : Option Bool)
  | wait (name : Name) (id : ℕ)
  deriving DecidableEq, Repr

/-- Where a thread is. -/
inductive Pc
  /-- In none of the calls; what the last one returned, if it was a truth value. -/
  | idle (result : Option Bool)
  /-- Before `rhs_record_lock`. -/
  | wantLock (c : Call)
  | locked (c : Call)
  /-- In a create, before the flag is set. -/
  | filled (name : Name) (id : ℕ)
  /-- Before `rhs_record_unlock`. -/
  | unlocking (o : Outcome)
  /-- In `rhs_event_flag_wait`. -/
  | waiting (name : Name) (id : ℕ)
  /-- Before the data is read. -/
  | woken (name : Name) (id : ℕ)
  deriving DecidableEq, Repr

/-- A create: the data it was given, and the entry it filled. -/
structure Created where
  name : Name
  id : ℕ
  data : Ptr
  deriving DecidableEq, Repr

/-- An open that has returned: the entry it was given, and what it returned. -/
structure Opened where
  name : Name
  id : ℕ
  result : Option Ptr
  deriving DecidableEq, Repr

/-- The registry and the threads. -/
structure State where
  mutex : Option Tid
  records : Name → Option RecordData
  /-- The number of the next entry. -/
  next : ℕ
  pc : Tid → Pc
  /-- An assertion failed. -/
  crashed : Bool
  /-- A pointer was used whose entry was gone. -/
  fault : Bool
  /-- Who has counted itself as a holder of which name, and not yet taken that back. -/
  holding : List (Tid × Name)
  created : List Created
  opened : List Opened

/-- After `rhs_record_init`. -/
def State.init : State where
  mutex := none
  records := fun _ => none
  next := 0
  pc := fun _ => .idle none
  crashed := false
  fault := false
  holding := []
  created := []
  opened := []

/-- How many opens of the name are counted and not yet closed. -/
def holders (s : State) (name : Name) : ℕ := s.holding.countP fun h => h.2 = name

/-- `rhs_assert` fails. -/
def crash (s : State) : State := { s with crashed := true }

/-- The thread goes on at `pc`. -/
def State.goto (s : State) (t : Tid) (pc : Pc) : State :=
  { s with pc := Function.update s.pc t pc }

/-- `rhs_record_put`, also for what is written through a pointer to the entry. -/
def rhsRecordPut (s : State) (name : Name) (r : RecordData) : State :=
  { s with records := Function.update s.records name (some r) }

/-- `rhs_record_erase`. -/
def rhsRecordErase (s : State) (name : Name) : State :=
  { s with records := Function.update s.records name none }

/-- `rhs_record_data_get_or_create`. -/
def rhsRecordDataGetOrCreate (s : State) (name : Name) : State × RecordData :=
  match s.records name with
  | some r => (s, r)
  | none =>
      let r := { id := s.next, flags := 0, data := none, holdersCount := 0 }
      ({ rhsRecordPut s name r with next := s.next + 1 }, r)

/-- What a pointer to the entry `id` of a name points to. -/
def deref (s : State) (name : Name) (id : ℕ) : Option RecordData :=
  (s.records name).filter fun r => r.id = id

/-- `rhs_record_create`, between the lock and the setting of the flag. -/
def rhsRecordCreate (s : State) (t : Tid) (name : Name) (data : Ptr) : State :=
  let (s, r) := rhsRecordDataGetOrCreate s name
  if r.data ≠ none then crash s
  else
    { (rhsRecordPut s name { r with data := some data }).goto t (.filled name r.id) with
      created := s.created ++ [{ name := name, id := r.id, data := data }] }

/-- `rhs_record_destroy`, under the lock. -/
def rhsRecordDestroy (s : State) (t : Tid) (name : Name) : State :=
  match s.records name with
  | none => crash s
  | some r =>
      if r.holdersCount = 0 then
        (rhsRecordErase s name).goto t (.unlocking (.done (some true)))
      else s.goto t (.unlocking (.done (some false)))

/-- `rhs_record_open`, under the lock. -/
def rhsRecordOpen (s : State) (t : Tid) (name : Name) : State :=
  let (s, r) := rhsRecordDataGetOrCreate s name
  { (rhsRecordPut s name { r with holdersCount := r.holdersCount + 1 }).goto t
      (.unlocking (.wait name r.id)) with
    holding := s.holding ++ [(t, name)] }

/-- `rhs_record_close`, under the lock. -/
def rhsRecordClose (s : State) (t : Tid) (name : Name) : State :=
  match s.records name with
  | none => crash s
  | some r =>
      { (rhsRecordPut s name { r with holdersCount := r.holdersCount - 1 }).goto t
          (.unlocking (.done none)) with
        holding := s.holding.erase (t, name) }

/-- `rhs_record_exists`, under the lock. -/
def rhsRecordExists (s : State) (t : Tid) (name : Name) : State :=
  s.goto t (.unlocking (.done (some (s.records name).isSome)))

/-- What a call does under the lock. -/
def underLock (s : State) (t : Tid) : Call → State
  | .create name data => rhsRecordCreate s t name data
  | .destroy name => rhsRecordDestroy s t name
  | .open name => rhsRecordOpen s t name
  | .close name => rhsRecordClose s t name
  | .exists name => rhsRecordExists s t name

/-- The setting of the flag in `rhs_record_create`. -/
def setReady (s : State) (t : Tid) (name : Name) (id : ℕ) : State :=
  match deref s name id with
  | none => { s with fault := true }
  | some r =>
      (rhsRecordPut s name { r with flags := eventGroupSetBits r.flags rhsRecordFlagReady }).goto t
        (.unlocking (.done none))

/-- The options of the wait in `rhs_record_open`. -/
def openOptions : UInt32 := rhsFlagWaitAny ||| rhsFlagNoClear

/-- The wait in `rhs_record_open`. -/
def waitReady (s : State) (t : Tid) (name : Name) (id : ℕ) : Option State :=
  match deref s name id with
  | none => some { s with fault := true }
  | some r =>
      (eventGroupWaitBits rhsRecordFlagReady (openOptions &&& rhsFlagNoClear = 0)
          (openOptions &&& rhsFlagWaitAll ≠ 0) r.flags).map fun (rflags, left) =>
        let s := rhsRecordPut s name { r with flags := left }
        if rhsEventFlagWait rhsRecordFlagReady openOptions rhsWaitForever rflags =
            rhsRecordFlagReady then
          s.goto t (.woken name id)
        else crash s

/-- What `rhs_record_open` returns. -/
def readData (s : State) (t : Tid) (name : Name) (id : ℕ) : State :=
  match deref s name id with
  | none => { s with fault := true }
  | some r =>
      { s.goto t (.idle none) with
        opened := s.opened ++ [{ name := name, id := id, result := r.data }] }

/-- The next step of a thread in the call it is in. -/
def run (s : State) (t : Tid) : Option State :=
  match s.pc t with
  | .idle _ => none
  | .wantLock c =>
      if s.mutex = none then some { s.goto t (.locked c) with mutex := some t } else none
  | .locked c => some (underLock s t c)
  | .filled name id => some (setReady s t name id)
  | .unlocking (.done result) => some { s.goto t (.idle result) with mutex := none }
  | .unlocking (.wait name id) => some { s.goto t (.waiting name id) with mutex := none }
  | .waiting name id => waitReady s t name id
  | .woken name id => some (readData s t name id)

/-- What can happen next. -/
inductive Action
  /-- A thread calls one of the functions. -/
  | call (t : Tid) (c : Call)
  /-- `rhs_record_create` is called with `NULL`. -/
  | createNull (t : Tid) (name : Name)
  | run (t : Tid)
  deriving DecidableEq, Repr

/-- What it does; nothing happens any more after a crash or a fault. -/
def step (s : State) (a : Action) : Option State :=
  if s.crashed ∨ s.fault then none
  else
    match a with
    | .call t c =>
        match s.pc t with
        | .idle _ => some (s.goto t (.wantLock c))
        | _ => none
    | .createNull t _ =>
        match s.pc t with
        | .idle _ => some (crash s)
        | _ => none
    | .run t => run s t

end RhsCore.Record
