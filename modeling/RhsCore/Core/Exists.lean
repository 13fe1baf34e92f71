import RhsCore.Core.Record

/-!
# Which records exist

`rhs_record_exists` looks for an entry in the dictionary.  An open makes an entry as well,
to wait at, and there it finds one that nobody has created.

## Main definitions

* `Observed` — the registry, with the names that are created and not destroyed since.
* `Agrees` — what `rhs_record_exists` returns is whether the name is one of them.
* `always_agrees_iff` — in which runs it always is.
-/

namespace RhsCore.Record

/-- The registry, and which names have been created and not destroyed since. -/
structure Observed where
  registry : State
  live : Name → Bool

def Observed.init : Observed where
  registry := .init
  live := fun _ => false

/-- Which names are created and not destroyed after a step from `s` to `s'`: a create counts
if its assertion holds, and a destroy if it returns true. -/
def liveAfter (s s' : State) (live : Name → Bool) : Action → Name → Bool
  | .run t =>
      match s.pc t with
      | .locked (.create name _) => if s'.crashed then live else Function.update live name true
      | .locked (.destroy name) =>
          if s'.pc t = .unlocking (.done (some true)) then Function.update live name false
          else live
      | _ => live
  | _ => live

def observedStep (s : Observed) (a : Action) : Option Observed :=
  (step s.registry a).map fun registry =>
    { registry := registry, live := liveAfter s.registry registry s.live a }

/-- Whoever asks, `rhs_record_exists` returns whether the name is created and not destroyed
since. -/
def Agrees (s : Observed) : Prop :=
  ∀ t name, (rhsRecordExists s.registry t name).pc t = .unlocking (.done (some (s.live name)))

/-- The locked part of an open is for a name that is created and not destroyed. -/
def OpensLive (s : Observed) : Action → Prop
  | .run t =>
      match s.registry.pc t with
      | .locked (.open name) => s.live name = true
      | _ => True
  | _ => True

/-! ## The entries of the dictionary -/

/-- Which names have an entry. -/
def known (s : State) : Name → Bool := fun name => (s.records name).isSome

variable {s s' : State} {t : Tid} {name : Name}

@[simp] theorem known_goto (s : State) (t : Tid) (pc : Pc) : known (s.goto t pc) = known s := rfl

@[simp] theorem known_crash (s : State) : known (crash s) = known s := rfl

@[simp] theorem known_rhsRecordPut (s : State) (name : Name) (r : RecordData) :
    known (rhsRecordPut s name r) = Function.update (known s) name true := by
  funext name'
  by_cases h : name' = name
  · subst h
    simp [known, rhsRecordPut]
  · simp [known, rhsRecordPut, h]

@[simp] theorem known_rhsRecordErase (s : State) (name : Name) :
    known (rhsRecordErase s name) = Function.update (known s) name false := by
  funext name'
  by_cases h : name' = name
  · subst h
    simp [known, rhsRecordErase]
  · simp [known, rhsRecordErase, h]

/-- An entry that is written is there already. -/
theorem update_known {r : RecordData} (h : s.records name = some r) :
    Function.update (known s) name true = known s := by
  have htrue : known s name = true := by
    rw [known, h]
    rfl
  rw [← htrue, Function.update_eq_self]

theorem known_rhsRecordDataGetOrCreate (s : State) (name : Name) :
    known (rhsRecordDataGetOrCreate s name).1 = Function.update (known s) name true := by
  rw [rhsRecordDataGetOrCreate]
  split
  · rename_i r hr
    exact (update_known hr).symm
  · exact known_rhsRecordPut s name _

theorem known_of_deref {id : ℕ} {r : RecordData} (h : deref s name id = some r) :
    Function.update (known s) name true = known s := by
  obtain ⟨hr, -⟩ := Option.filter_eq_some_iff.mp h
  exact update_known hr

theorem agrees_iff {s : Observed} : Agrees s ↔ known s.registry = s.live := by
  rw [funext_iff]
  constructor
  · intro h name
    have ht := h 0 name
    simp only [rhsRecordExists, State.goto, Function.update_self, Pc.unlocking.injEq,
      Outcome.done.injEq, Option.some.injEq] at ht
    exact ht
  · intro h t name
    have hname : (s.registry.records name).isSome = s.live name := h name
    simp only [rhsRecordExists, State.goto, Function.update_self, hname]

/-! ## One step -/

/-- A create makes the entry there, unless its assertion fails. -/
theorem known_rhsRecordCreate (hrunning : s.crashed = false) (t : Tid) (name : Name) (data : Ptr) :
    known (rhsRecordCreate s t name data) =
      if (rhsRecordCreate s t name data).crashed then known s
      else Function.update (known s) name true := by
  rw [rhsRecordCreate]
  cases hr : s.records name with
  | none =>
      simp only [rhsRecordDataGetOrCreate, hr, ne_eq, not_true_eq_false, if_false]
      rw [if_neg (by simp [State.goto, rhsRecordPut, hrunning])]
      change known (rhsRecordPut (rhsRecordPut s name _) name _) = _
      rw [known_rhsRecordPut, known_rhsRecordPut, Function.update_idem]
  | some r =>
      simp only [rhsRecordDataGetOrCreate, hr]
      split
      · rw [if_pos (by rfl), known_crash]
      · rw [if_neg (by simp [State.goto, rhsRecordPut, hrunning])]
        exact known_rhsRecordPut s name _

/-- A destroy that returns true takes it away. -/
theorem known_rhsRecordDestroy (hpc : s.pc t = .locked (.destroy name)) :
    known (rhsRecordDestroy s t name) =
      if (rhsRecordDestroy s t name).pc t = .unlocking (.done (some true)) then
        Function.update (known s) name false
      else known s := by
  rw [rhsRecordDestroy]
  split
  · rw [if_neg (by simp [crash, hpc]), known_crash]
  · split
    · rw [if_pos (by simp [State.goto]), known_goto, known_rhsRecordErase]
    · rw [if_neg (by simp [State.goto]), known_goto]

theorem known_rhsRecordOpen (s : State) (t : Tid) (name : Name) :
    known (rhsRecordOpen s t name) = Function.update (known s) name true := by
  change known (rhsRecordPut (rhsRecordDataGetOrCreate s name).1 name _) = _
  rw [known_rhsRecordPut, known_rhsRecordDataGetOrCreate, Function.update_idem]

theorem known_rhsRecordClose (s : State) (t : Tid) (name : Name) :
    known (rhsRecordClose s t name) = known s := by
  rw [rhsRecordClose]
  split
  · exact known_crash s
  · rename_i r hr
    exact (known_rhsRecordPut s name _).trans (update_known hr)

/-- What is done to an entry through a pointer leaves the entries as they are. -/
theorem known_setReady (s : State) (t : Tid) (name : Name) (id : ℕ) :
    known (setReady s t name id) = known s := by
  rw [setReady]
  split
  · rfl
  · rename_i r hr
    rw [known_goto, known_rhsRecordPut, known_of_deref hr]

theorem known_waitReady {id : ℕ} (h : waitReady s t name id = some s') : known s' = known s := by
  rw [waitReady] at h
  split at h
  · exact Option.some.inj h ▸ rfl
  · rename_i r hr
    obtain ⟨⟨rflags, left⟩, -, rfl⟩ := Option.map_eq_some_iff.mp h
    dsimp only
    split
    · rw [known_goto, known_rhsRecordPut, known_of_deref hr]
    · rw [known_crash, known_rhsRecordPut, known_of_deref hr]

theorem known_readData (s : State) (t : Tid) (name : Name) (id : ℕ) :
    known (readData s t name id) = known s := by
  rw [readData]
  split
  · rfl
  · rfl

/-- **A step of a thread**: its entries and the names that are created change alike, except
that an open makes an entry. -/
theorem known_run {live : Name → Bool} (hlive : known s = live) (hrunning : s.crashed = false)
    (h : run s t = some s') :
    known s' =
      match s.pc t with
      | .locked (.open name) => Function.update live name true
      | _ => liveAfter s s' live (.run t) := by
  subst hlive
  rw [run] at h
  cases hpc : s.pc t with
  | idle result =>
      rw [hpc] at h
      cases h
  | wantLock c =>
      rw [hpc] at h
      obtain ⟨-, h⟩ := Option.ite_none_right_eq_some.mp h
      simp only [← Option.some.inj h, liveAfter, hpc]
      rfl
  | locked c =>
      rw [hpc] at h
      obtain rfl := Option.some.inj h
      cases c with
      | create name data =>
          simp only [liveAfter, hpc]
          exact known_rhsRecordCreate hrunning t name data
      | destroy name =>
          simp only [liveAfter, hpc]
          exact known_rhsRecordDestroy hpc
      | «open» name => exact known_rhsRecordOpen s t name
      | close name =>
          simp only [liveAfter, hpc]
          exact known_rhsRecordClose s t name
      | «exists» name =>
          simp only [liveAfter, hpc]
          rfl
  | filled name id =>
      rw [hpc] at h
      simp only [← Option.some.inj h, liveAfter, hpc]
      exact known_setReady s t name id
  | unlocking o =>
      rw [hpc] at h
      cases o with
      | done result =>
          simp only [← Option.some.inj h, liveAfter, hpc]
          rfl
      | wait name id =>
          simp only [← Option.some.inj h, liveAfter, hpc]
          rfl
  | waiting name id =>
      rw [hpc] at h
      simp only [liveAfter, hpc]
      exact known_waitReady h
  | woken name id =>
      rw [hpc] at h
      simp only [← Option.some.inj h, liveAfter, hpc]
      exact known_readData s t name id

/-- A step keeps the agreement exactly if it is not an open of a name that is not there. -/
theorem agrees_step_iff {s s' : Observed} {a : Action} (h : Agrees s)
    (hs : observedStep s a = some s') : Agrees s' ↔ OpensLive s a := by
  rw [agrees_iff] at h ⊢
  obtain ⟨registry, hstep, rfl⟩ := Option.map_eq_some_iff.mp hs
  have hrunning : ¬ (s.registry.crashed ∨ s.registry.fault) := by
    intro hdown
    simp [step, hdown] at hstep
  simp only [step, if_neg hrunning] at hstep
  dsimp only
  cases a with
  | call t c =>
      refine iff_of_true ?_ trivial
      dsimp only at hstep
      split at hstep
      · rw [← Option.some.inj hstep, known_goto, h]
        rfl
      · cases hstep
  | createNull t name =>
      refine iff_of_true ?_ trivial
      dsimp only at hstep
      split at hstep
      · rw [← Option.some.inj hstep, known_crash, h]
        rfl
      · cases hstep
  | run t =>
      have hcrashed : s.registry.crashed = false := by
        cases hc : s.registry.crashed with
        | false => rfl
        | true => exact absurd (.inl hc) hrunning
      rw [known_run h hcrashed hstep]
      simp only [OpensLive]
      split
      · rename_i name hpc
        simp only [liveAfter, hpc]
        constructor
        · intro heq
          rw [← heq, Function.update_self]
        · intro hopen
          rw [← hopen, Function.update_eq_self]
      · exact iff_of_true rfl trivial

/-! ## Every run -/

/-- **`rhs_record_exists` returns true for exactly the names that are created and not
destroyed since**, all along a run, exactly if no thread opens a name that is not. -/
theorem always_agrees_iff (as : List Action) :
    Always observedStep Agrees Observed.init as ↔ Each observedStep OpensLive Observed.init as := by
  refine always_iff_each (J := fun _ => True) (fun _ _ _ _ _ => trivial)
    (fun s a s' _ h hs => agrees_step_iff h hs) trivial ?_ as
  exact agrees_iff.mpr rfl

/-- A thread opens a name that nobody has created. -/
theorem opened_name_exists :
    ¬ Always observedStep Agrees Observed.init [.call 0 (.open "x"), .run 0, .run 0] := by
  intro h
  have hrun : runActions observedStep (fun _ _ => True) Observed.init
      [.call 0 (.open "x"), .run 0, .run 0] = some _ := rfl
  have hknown := congrFun (agrees_iff.mp (h.last hrun)) "x"
  exact absurd hknown (by decide)

end RhsCore.Record
