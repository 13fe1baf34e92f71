import Mathlib.Data.Nat.Notation
import Mathlib.Data.Option.Basic

/-!
# Transition systems

Parties that take turns in any order: a state, actions, and what an action does in a
state if it can happen there at all.  A run is restricted by saying which actions are
allowed in which states.

## Main definitions

* `Reach step allowed init` — the states reached from `init` by allowed actions.
* `Reach.invariant` — what one action preserves, every run preserves.
* `runActions` — a run computed from its actions.
* `rank_add_work_le` — what bounds the work of a run.
* `Always`, `Each` — something holds in every state of a run, or at every step of it.
* `always_iff_each` — the step condition that is exactly what an invariant needs.
* `always_iff_last` — where it is enough to look at the end of a run.
-/

namespace RhsCore

variable {σ α : Type} {step : σ → α → Option σ} {allowed : σ → α → Prop} {init : σ}

/-- The states reached from `init`, each action allowed in the state it is taken in. -/
inductive Reach (step : σ → α → Option σ) (allowed : σ → α → Prop) (init : σ) : σ → Prop
  | start : Reach step allowed init init
  | next {s s' : σ} {a : α} : Reach step allowed init s → allowed s a → step s a = some s' →
      Reach step allowed init s'

namespace Reach

/-- **The invariant rule**: what holds at the start and is preserved by every allowed
action holds in every state reached. -/
theorem invariant {I : σ → Prop} (hinit : I init)
    (hstep : ∀ s a s', I s → allowed s a → step s a = some s' → I s') {s : σ}
    (h : Reach step allowed init s) : I s := by
  induction h with
  | start => exact hinit
  | next _ ha hs ih => exact hstep _ _ _ ih ha hs

/-- A run can be continued. -/
theorem trans {mid s : σ} (h : Reach step allowed init mid) (h' : Reach step allowed mid s) :
    Reach step allowed init s := by
  induction h' with
  | start => exact h
  | next _ ha hs ih => exact ih.next ha hs

end Reach

/-- The state after a list of actions, if each can happen and is allowed. -/
def runActions (step : σ → α → Option σ) (allowed : σ → α → Prop)
    [∀ s a, Decidable (allowed s a)] : σ → List α → Option σ
  | s, [] => some s
  | s, a :: as =>
      if allowed s a then (step s a).bind fun s' => runActions step allowed s' as else none

theorem runActions_append [∀ s a, Decidable (allowed s a)] (s : σ) (as bs : List α) :
    runActions step allowed s (as ++ bs) =
      (runActions step allowed s as).bind fun mid => runActions step allowed mid bs := by
  induction as generalizing s with
  | nil => rfl
  | cons a as ih =>
      simp only [List.cons_append, runActions, ih]
      split
      · rw [Option.bind_assoc]
      · rfl

theorem Reach.of_runActions [∀ s a, Decidable (allowed s a)] {as : List α} {s s' : σ}
    (h : runActions step allowed s as = some s') : Reach step allowed s s' := by
  induction as generalizing s with
  | nil =>
      obtain rfl : s = s' := Option.some.inj h
      exact .start
  | cons a as ih =>
      rw [runActions] at h
      split at h
      · rename_i ha
        obtain ⟨mid, hmid, hrest⟩ := Option.bind_eq_some_iff.mp h
        exact (Reach.start.next ha hmid).trans (ih hrest)
      · cases h

/-- **The rank rule**: where steps that work lower a rank, and only steps that are paid for
raise it, each by no more than `c`, what was paid bounds the work of a run. -/
theorem rank_add_work_le [∀ s a, Decidable (allowed s a)] {I : σ → Prop} {rank : σ → ℕ}
    {works pays : α → Bool} {c : ℕ}
    (hI : ∀ s a s', I s → allowed s a → step s a = some s' → I s')
    (hstep : ∀ s a s', I s → step s a = some s' →
      rank s' + (if works a then 1 else 0) ≤ rank s + c * (if pays a then 1 else 0))
    {as : List α} {s s' : σ} (h : I s) (hrun : runActions step allowed s as = some s') :
    rank s' + as.countP works ≤ rank s + c * as.countP pays := by
  induction as generalizing s with
  | nil =>
      obtain rfl : s = s' := Option.some.inj hrun
      exact Nat.le_refl _
  | cons a as ih =>
      rw [runActions] at hrun
      split at hrun
      · rename_i ha
        obtain ⟨mid, hmid, hrest⟩ := Option.bind_eq_some_iff.mp hrun
        have hfirst := hstep s a mid h hmid
        have hlater := ih (hI s a mid h ha hmid) hrest
        rw [List.countP_cons, List.countP_cons, Nat.mul_add]
        omega
      · cases hrun

/-! ## Along one run -/

/-- `I` holds in every state of the run. -/
def Always (step : σ → α → Option σ) (I : σ → Prop) : σ → List α → Prop
  | s, [] => I s
  | s, a :: as => I s ∧ ∀ s', step s a = some s' → Always step I s' as

/-- Every step of the run is allowed in the state it is taken in. -/
def Each (step : σ → α → Option σ) (allowed : σ → α → Prop) : σ → List α → Prop
  | _, [] => True
  | s, a :: as => ∀ s', step s a = some s' → allowed s a ∧ Each step allowed s' as

theorem Each.cons {s s' : σ} {a : α} {as : List α} (hs : step s a = some s')
    (ha : allowed s a) (h : Each step allowed s' as) : Each step allowed s (a :: as) := by
  intro next hnext
  obtain rfl : s' = next := Option.some.inj (hs.symm.trans hnext)
  exact ⟨ha, h⟩

theorem Always.start {I : σ → Prop} {s : σ} {as : List α} (h : Always step I s as) : I s := by
  cases as with
  | nil => exact h
  | cons a as => exact h.1

theorem Always.imp {I J : σ → Prop} (himp : ∀ s, I s → J s) {s : σ} {as : List α}
    (h : Always step I s as) : Always step J s as := by
  induction as generalizing s with
  | nil => exact himp s h
  | cons a as ih => exact ⟨himp s h.1, fun s' hs => ih (h.2 s' hs)⟩

/-- What the steps of a run preserve holds all along it. -/
theorem Always.of_step {I : σ → Prop} {as : List α}
    (hstep : ∀ a ∈ as, ∀ s s', I s → step s a = some s' → I s') {s : σ} (h : I s) :
    Always step I s as := by
  induction as generalizing s with
  | nil => exact h
  | cons a as ih =>
      refine ⟨h, fun s' hs => ?_⟩
      exact ih (fun a' ha' => hstep a' (List.mem_cons_of_mem _ ha'))
        (hstep a List.mem_cons_self s s' h hs)

/-- What is allowed in every state is allowed at every step. -/
theorem Each.of_forall {as : List α} (h : ∀ a ∈ as, ∀ s, allowed s a) (s : σ) :
    Each step allowed s as := by
  induction as generalizing s with
  | nil => trivial
  | cons a as ih =>
      intro s' _
      exact ⟨h a List.mem_cons_self s, ih (fun a' ha' => h a' (List.mem_cons_of_mem _ ha')) s'⟩

/-- What holds all along a run holds in its last state. -/
theorem Always.last {I : σ → Prop} {s s' : σ} {as : List α} (h : Always step I s as)
    (hrun : runActions step (fun _ _ => True) s as = some s') : I s' := by
  induction as generalizing s with
  | nil =>
      obtain rfl : s = s' := Option.some.inj hrun
      exact h
  | cons a as ih =>
      rw [runActions, if_pos trivial] at hrun
      obtain ⟨mid, hmid, hrest⟩ := Option.bind_eq_some_iff.mp hrun
      exact ih (h.2 mid hmid) hrest

/-- What a step preserves where `I` holds is there at the end of a run on which `I` holds. -/
theorem Always.invariant {I J : σ → Prop}
    (hstep : ∀ s a s', I s → J s → step s a = some s' → J s') {s s' : σ} {as : List α}
    (h : Always step I s as) (hj : J s)
    (hrun : runActions step (fun _ _ => True) s as = some s') : J s' := by
  induction as generalizing s with
  | nil =>
      obtain rfl : s = s' := Option.some.inj hrun
      exact hj
  | cons a as ih =>
      rw [runActions, if_pos trivial] at hrun
      obtain ⟨mid, hmid, hrest⟩ := Option.bind_eq_some_iff.mp hrun
      exact ih (h.2 mid hmid) (hstep s a mid h.start hj hmid) hrest

/-- **The exact step condition**: where every step taken with `I` keeps `I` exactly if it is
allowed, `I` holds all along a run exactly if every step of the run is allowed. -/
theorem always_iff_each {I J : σ → Prop} (hJ : ∀ s a s', J s → step s a = some s' → J s')
    (hiff : ∀ s a s', J s → I s → step s a = some s' → (I s' ↔ allowed s a)) {s : σ}
    (hj : J s) (h : I s) (as : List α) : Always step I s as ↔ Each step allowed s as := by
  induction as generalizing s with
  | nil => exact ⟨fun _ => trivial, fun _ => h⟩
  | cons a as ih =>
      constructor
      · intro hall s' hs
        have hrest := hall.2 s' hs
        exact ⟨(hiff s a s' hj h hs).mp hrest.start, (ih (hJ s a s' hj hs) hrest.start).mp hrest⟩
      · intro heach
        refine ⟨h, fun s' hs => ?_⟩
        obtain ⟨ha, hrest⟩ := heach s' hs
        exact (ih (hJ s a s' hj hs) ((hiff s a s' hj h hs).mpr ha)).mpr hrest

/-- Where no step mends what is broken, `I` held all along a run if it holds at its end. -/
theorem always_iff_last {I J : σ → Prop} (hJ : ∀ s a s', J s → step s a = some s' → J s')
    (hback : ∀ s a s', J s → step s a = some s' → I s' → I s) {s s' : σ} (hj : J s) {as : List α}
    (hrun : runActions step (fun _ _ => True) s as = some s') :
    Always step I s as ↔ I s' := by
  refine ⟨fun h => h.last hrun, fun h => ?_⟩
  induction as generalizing s with
  | nil =>
      obtain rfl : s = s' := Option.some.inj hrun
      exact h
  | cons a as ih =>
      rw [runActions, if_pos trivial] at hrun
      obtain ⟨mid, hmid, hrest⟩ := Option.bind_eq_some_iff.mp hrun
      have hall := ih (hJ s a mid hj hmid) hrest
      refine ⟨hback s a mid hj hmid hall.start, fun mid' hmid' => ?_⟩
      obtain rfl : mid = mid' := Option.some.inj (hmid.symm.trans hmid')
      exact hall

end RhsCore
