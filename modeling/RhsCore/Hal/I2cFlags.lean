import RhsCore.Hal.I2cTransfer

/-!
# The flags a transfer leaves

NACKF and STOPF stay set until they are cleared.  The bus sets them at any time; after a
byte or an address that is not acknowledged it sets NACKF and then, in every mode, STOPF.
A transfer clears NACKF always and STOPF only if it asked for the stop itself, and the next
transfer takes either of them for an abort of its own.

## Main definitions

* `Moment` — an access of the transfer, or a flag that the bus sets.
* `BusFlags.run` — the flags after a sequence of moments.
* `ClearedLater` — what the bus sets is cleared afterwards.
* `flags_clear_iff` — when a transfer leaves neither flag set.
-/

namespace RhsCore.I2cTransfer

open Prog

/-! ## The flags over time -/

/-- NACKF and STOPF of `ISR`. -/
structure BusFlags where
  nack : Bool
  stop : Bool
  deriving DecidableEq, Repr

/-- The two flags. -/
inductive BusFlag
  | nack
  | stop
  deriving DecidableEq, Repr

def BusFlag.isr : BusFlag → IsrFlag
  | .nack => .nack
  | .stop => .stop

def BusFlags.get (f : BusFlags) : BusFlag → Bool
  | .nack => f.nack
  | .stop => f.stop

def BusFlags.set (f : BusFlags) (flag : BusFlag) (value : Bool) : BusFlags :=
  match flag with
  | .nack => { f with nack := value }
  | .stop => { f with stop := value }

/-- The bus sets a flag, or the transfer makes an access. -/
inductive Moment
  | raise (flag : BusFlag)
  | access (e : Event Access.Ans)

/-- The access clears the flag. -/
def Moment.clears (flag : BusFlag) : Moment → Bool
  | .access ⟨.clearFlag cleared, _⟩ => cleared = flag.isr
  | _ => false

/-- The flags after a moment. -/
def BusFlags.after (f : BusFlags) (m : Moment) : BusFlags :=
  match m with
  | .raise flag => f.set flag true
  | .access _ =>
      { nack := f.nack && !m.clears .nack, stop := f.stop && !m.clears .stop }

/-- The flags after a sequence of moments. -/
def BusFlags.run (f : BusFlags) (ms : List Moment) : BusFlags := ms.foldl BusFlags.after f

/-- The accesses among the moments. -/
def accesses (ms : List Moment) : List (Event Access.Ans) :=
  ms.filterMap fun
    | .raise _ => none
    | .access e => some e

/-- The bus sets the flag at some moment. -/
def Raised (flag : BusFlag) (ms : List Moment) : Prop := .raise flag ∈ ms

/-- Whenever the bus sets the flag, it is cleared later on. -/
def ClearedLater (flag : BusFlag) : List Moment → Prop
  | [] => True
  | m :: ms =>
      (m = .raise flag → ms.any (Moment.clears flag) = true) ∧ ClearedLater flag ms

/-- A flag is read as it is. -/
def BusFlags.reads (f : BusFlags) : Moment → Bool
  | .access ⟨.isActiveFlag .nack, seen⟩ => seen = f.nack
  | .access ⟨.isActiveFlag .stop, seen⟩ => seen = f.stop
  | .access ⟨.isr endMask, seen⟩ => .stop ∉ endMask ∨ seen = f.stop
  | _ => true

/-- What is read of the two flags is what they are. -/
def Consistent : BusFlags → List Moment → Bool
  | _, [] => true
  | f, m :: ms => f.reads m && Consistent (f.after m) ms

variable {f : BusFlags} {flag : BusFlag} {ms : List Moment}

@[simp] theorem BusFlags.get_after_raise (f : BusFlags) (flag raised : BusFlag) :
    (f.after (.raise raised)).get flag = (f.get flag || decide (raised = flag)) := by
  cases flag with
  | nack => cases raised <;> simp [BusFlags.after, BusFlags.set, BusFlags.get]
  | stop => cases raised <;> simp [BusFlags.after, BusFlags.set, BusFlags.get]

@[simp] theorem BusFlags.get_after_access (f : BusFlags) (flag : BusFlag)
    (e : Event Access.Ans) :
    (f.after (.access e)).get flag = (f.get flag && !(Moment.access e).clears flag) := by
  cases flag with
  | nack => rfl
  | stop => rfl

/-- **A flag is clear at the end** exactly if it was cleared after the bus last set it, and,
if it was set at the start, cleared at all. -/
theorem BusFlags.get_run_iff : (f.run ms).get flag = false ↔
    ClearedLater flag ms ∧ (f.get flag = true → ms.any (Moment.clears flag) = true) := by
  induction ms generalizing f with
  | nil => simp [BusFlags.run, ClearedLater]
  | cons m ms ih =>
      change ((f.after m).run ms).get flag = false ↔ _
      rw [ih]
      cases m with
      | raise raised =>
          by_cases hraised : raised = flag
          · simp [ClearedLater, Moment.clears, hraised]
            tauto
          · simp [ClearedLater, Moment.clears, hraised]
      | access e =>
          cases hclears : (Moment.access e).clears flag with
          | true => simp [ClearedLater, hclears]
          | false => simp [ClearedLater, hclears]

/-- Whether a flag is cleared among the moments can be read off the accesses. -/
theorem any_clears_iff : ms.any (Moment.clears flag) = true ↔
    ∃ e ∈ accesses ms, e.1 = .clearFlag flag.isr := by
  rw [List.any_eq_true]
  constructor
  · rintro ⟨m, hm, hclears⟩
    cases m with
    | raise raised => cases hclears
    | access e =>
        refine ⟨e, List.mem_filterMap.mpr ⟨_, hm, rfl⟩, ?_⟩
        obtain ⟨o, answer⟩ := e
        cases o with
        | clearFlag cleared => exact congrArg Access.clearFlag (of_decide_eq_true hclears)
        | _ => cases hclears
  · rintro ⟨⟨o, answer⟩, he, rfl⟩
    obtain ⟨m, hm, he⟩ := List.mem_filterMap.mp he
    cases m with
    | raise raised => cases he
    | access e =>
        obtain rfl := Option.some.inj he
        exact ⟨_, hm, decide_eq_true rfl⟩

/-- A flag that is never cleared is never set. -/
theorem clearedLater_of_never (h : ms.any (Moment.clears flag) = false) :
    ClearedLater flag ms ↔ ¬ Raised flag ms := by
  induction ms with
  | nil => simp [ClearedLater, Raised]
  | cons m ms ih =>
      rw [List.any_cons, Bool.or_eq_false_iff] at h
      simp [ClearedLater, Raised, h.2, ih h.2, eq_comm]

/-! ## What a transfer clears -/

/-- An access that clears nothing. -/
def Keeps (o : Access) : Prop := ∀ flag, o ≠ .clearFlag flag

/-- An access of the loop: it neither clears a flag nor looks for the end. -/
def InLoop (o : Access) : Prop := Keeps o ∧ ∀ endMask, o ≠ .isr endMask

theorem Waits.inLoop {o : Access} (h : Waits o) : InLoop o := by
  constructor
  · rintro flag rfl
    exact h
  · rintro endMask rfl
    exact h

theorem inLoop_moveByte (bound : ℕ) (data : ℕ → UInt8) (ends : RHSHalI2cEnd) (read : Bool)
    (x : Loop) : (moveByte bound data ends read x).Uses InLoop := by
  rw [moveByte]
  split
  · refine Uses.bind ((waits_nackLastByte ends x).mono fun _ => Waits.inLoop) fun _ _ _ => ?_
    refine ⟨by simp [InLoop, Keeps], fun there => ?_⟩
    cases there with
    | true => exact ⟨by simp [InLoop, Keeps], fun _ => uses_ret⟩
    | false => exact uses_ret
  · refine Uses.bind ⟨by simp [InLoop, Keeps], fun room => ?_⟩ fun _ x' _ =>
      Uses.bind ((waits_waitForComplete bound x').mono fun _ => Waits.inLoop)
        fun _ _ _ => uses_ret
    cases room with
    | true => exact ⟨by simp [InLoop, Keeps], fun _ => uses_ret⟩
    | false => exact uses_ret

theorem inLoop_transferTurn (bound : ℕ) (data : ℕ → UInt8) (ends : RHSHalI2cEnd) (read : Bool)
    (x : Loop) : (transferTurn bound data ends read x).Uses InLoop := by
  rw [transferTurn]
  split
  · exact uses_ret
  · exact Uses.bind (waits_expiredOrAborted.mono fun _ => Waits.inLoop) fun _ _ _ =>
      Uses.bind (inLoop_moveByte bound data ends read x) fun _ _ _ => uses_ret

/-- What the loop does. -/
theorem inLoop_of_mem {bound n : ℕ} {data : ℕ → UInt8} {ends : RHSHalI2cEnd} {read : Bool}
    {x : Loop} {log : List (Event Access.Ans)} {r : Except Halt (Bool × Loop)}
    (h : Exec (Prog.iter (transferTurn bound data ends read) n x) log r) :
    ∀ e ∈ log, InLoop e.1 :=
  (uses_iter (fun _ => True) (fun x _ => inLoop_transferTurn bound data ends read x)
    (fun _ _ _ _ _ => trivial) trivial).of_mem h

/-- An access of the wait for the end. -/
def AtEnd (o : Access) : Prop := o = .timerIsExpired ∨ ∃ endMask, o = .isr endMask

theorem AtEnd.keeps {o : Access} (h : AtEnd o) : Keeps o := by
  rintro flag rfl
  rcases h with h | ⟨_, h⟩
  · cases h
  · cases h

theorem atEnd_waitForEndIf (bound : ℕ) (ends : RHSHalI2cEnd) (ended : Bool) :
    (waitForEndIf bound ends ended).Uses AtEnd := by
  rw [waitForEndIf]
  split
  swap
  · exact uses_ret
  refine uses_iter (fun _ => True) (fun _ _ => ?_) (fun _ _ _ _ _ => trivial) trivial
  refine ⟨.inr ⟨_, rfl⟩, fun seen => ?_⟩
  cases seen with
  | true => exact uses_ret
  | false =>
      refine ⟨.inl rfl, fun expired => ?_⟩
      cases expired with
      | true => exact uses_ret
      | false => exact uses_ret

/-- **What a transfer clears**: NACKF, and STOPF if it asked for the stop. -/
theorem clears_iff {bound size : ℕ} {data : ℕ → UInt8} {ends : RHSHalI2cEnd} {read : Bool}
    {log : List (Event Access.Ans)} {r : Bool × List UInt8}
    (h : Exec (rhsHalI2cTransfer bound data size ends read) log (.ok r)) (flag : BusFlag) :
    (∃ e ∈ log, e.1 = .clearFlag flag.isr) ↔ flag = .nack ∨ ends = .stop := by
  obtain ⟨success, stored⟩ := r
  obtain ⟨ended, x, l₁, l₂, l₃, rfl, hloop, hend, hclear, -⟩ := transfer_parts h
  have hloopKeeps : ∀ e ∈ l₁, Keeps e.1 := fun e he => (inLoop_of_mem hloop e he).1
  have hendKeeps : ∀ e ∈ l₂, Keeps e.1 := fun e he =>
    ((atEnd_waitForEndIf bound ends ended).of_mem hend e he).keeps
  obtain rfl := exec_clearFlags hclear
  have hnone {l : List (Event Access.Ans)} (hl : ∀ e ∈ l, Keeps e.1) :
      ¬ ∃ e ∈ l, e.1 = .clearFlag flag.isr := by
    rintro ⟨e, he, heq⟩
    exact hl e he _ heq
  simp only [List.mem_append, or_and_right, exists_or, hnone hloopKeeps,
    hnone hendKeeps, false_or]
  cases flag with
  | nack => simp [BusFlag.isr]
  | stop =>
      by_cases hstop : ends = .stop
      · simp [hstop, BusFlag.isr]
      · simp [hstop, BusFlag.isr]

/-- **A transfer leaves neither flag set** exactly if NACK is not raised after it was cleared,
and STOP not after it was cleared, if it is cleared; if it is not, STOP must neither be set
before the transfer nor raised during it. -/
theorem flags_clear_iff {bound size : ℕ} {data : ℕ → UInt8} {ends : RHSHalI2cEnd} {read : Bool}
    {r : Bool × List UInt8}
    (h : Exec (rhsHalI2cTransfer bound data size ends read) (accesses ms) (.ok r)) :
    f.run ms = { nack := false, stop := false } ↔
      ClearedLater .nack ms ∧
        if ends = .stop then ClearedLater .stop ms else f.stop = false ∧ ¬ Raised .stop ms := by
  have hflags : f.run ms = { nack := false, stop := false } ↔
      (f.run ms).get .nack = false ∧ (f.run ms).get .stop = false := by
    obtain ⟨nack, stop⟩ := f.run ms
    simp [BusFlags.get]
  have hnack : ms.any (Moment.clears .nack) = true :=
    any_clears_iff.mpr ((clears_iff h .nack).mpr (.inl rfl))
  rw [hflags, BusFlags.get_run_iff, BusFlags.get_run_iff]
  by_cases hstop : ends = .stop
  · have hstopped : ms.any (Moment.clears .stop) = true :=
      any_clears_iff.mpr ((clears_iff h .stop).mpr (.inr hstop))
    simp [hnack, hstopped, hstop]
  · have hkept : ms.any (Moment.clears .stop) = false := by
      rw [← Bool.not_eq_true, any_clears_iff, clears_iff h .stop]
      simp [hstop]
    rw [clearedLater_of_never hkept]
    simp [hnack, hkept, hstop, BusFlags.get, and_comm]

/-! ## A chained write that is not acknowledged -/

/-- The log of a transfer of these bytes by a script. -/
def scriptedLog (size : ℕ) (ends : RHSHalI2cEnd) (script : List Bool) :
    List (Event Access.Ans) :=
  (run scripted (rhsHalI2cTransfer 1 (fun _ => 0x10) size ends false) script).log

/-- The address of a write that is to be continued is not acknowledged. -/
def nackedPause : List Moment :=
  .raise .nack :: .raise .stop :: (scriptedLog 1 .pause [false, true, false]).map .access

/-- Then a write of two bytes, in which the bus sets no flag. -/
def nextWrite : List Moment := (scriptedLog 2 .stop [false, true, true]).map .access

/-- STOP is left set, and the next write fails with no event of its own on the bus. -/
theorem stop_left_set :
    Exec (rhsHalI2cTransfer 1 (fun _ => 0x10) 1 .pause false) (accesses nackedPause)
        (.ok (false, [])) ∧
      Consistent ⟨false, false⟩ nackedPause = true ∧
      BusFlags.run ⟨false, false⟩ nackedPause = ⟨false, true⟩ ∧
      Exec (rhsHalI2cTransfer 1 (fun _ => 0x10) 2 .stop false) (accesses nextWrite)
        (.ok (false, [])) ∧
      Consistent ⟨false, true⟩ nextWrite = true ∧
      ¬ Raised .nack nextWrite ∧ ¬ Raised .stop nextWrite := by
  refine ⟨?_, rfl, rfl, ?_, rfl, by simp [Raised, nextWrite], by simp [Raised, nextWrite]⟩
  · exact exec_run scripted (rhsHalI2cTransfer 1 (fun _ => 0x10) 1 .pause false) _
  · exact exec_run scripted (rhsHalI2cTransfer 1 (fun _ => 0x10) 2 .stop false) _

/-- A write that is to be continued and is acknowledged leaves no flag. -/
theorem no_flag_left : ∃ ms,
    Exec (rhsHalI2cTransfer 2 (fun _ => 0x10) 1 .pause false) (accesses ms) (.ok (true, [])) ∧
      BusFlags.run ⟨false, false⟩ ms = ⟨false, false⟩ := by
  have hexec : Exec (rhsHalI2cTransfer 2 (fun _ => 0x10) 1 .pause false)
      (accesses ((run scripted (rhsHalI2cTransfer 2 (fun _ => 0x10) 1 .pause false)
        [false, false, false, true, true, true]).log.map .access)) (.ok (true, [])) :=
    exec_run scripted (rhsHalI2cTransfer 2 (fun _ => 0x10) 1 .pause false) _
  refine ⟨_, hexec, (flags_clear_iff hexec).mpr ⟨?_, rfl, ?_⟩⟩
  · refine ⟨nofun, nofun, nofun, nofun, nofun, nofun, nofun, nofun, trivial⟩
  · simp [Raised]

end RhsCore.I2cTransfer
