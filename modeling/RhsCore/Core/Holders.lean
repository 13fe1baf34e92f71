import RhsCore.Core.Record
import Mathlib.Algebra.Group.Nat.Defs
import Mathlib.Data.List.Basic
import Mathlib.Tactic.Common

/-!
# The holders of a record

Threads create, open, close, destroy and look up records in any order, and none closes
what it has not opened.  The count of a name is then the number of its opens that have
not been closed; a record that is counted is not erased, so that a thread that waits for
it, or reads it, finds the entry it was given; and what an open returns is what the
create of that entry was given.

The count is a 32-bit `size_t`.  An open that would be number `2 ^ 32` of a name makes it
`0`, so such an open is ruled out.

## Main definitions

* `Good` — the invariant: the registry's part, and what each thread relies on.
* `Stays` — what a thread's step leaves alone for the others.
* `Safe` — what the registry promises in a state.
* `safe_of_reach` — it keeps the promise in every run.
-/

namespace RhsCore.Record

variable {s s' : State} {t : Tid} {name : Name} {id : ℕ} {r : RecordData} {pc : Pc}

/-! ## The invariant -/

/-- Between `rhs_record_lock` and the end of `rhs_record_unlock`. -/
def Pc.InLock : Pc → Prop
  | .locked _ | .filled _ _ | .unlocking _ => True
  | _ => False

/-- The entry `id` of the name is there. -/
def Has (s : State) (name : Name) (id : ℕ) : Prop :=
  ∃ r, s.records name = some r ∧ r.id = id

/-- The entry is there and has its data. -/
def HasData (s : State) (name : Name) (id : ℕ) : Prop :=
  ∃ r, s.records name = some r ∧ r.id = id ∧ r.data ≠ none

/-- A thread closes what it has opened. -/
def CallOk (s : State) (t : Tid) : Call → Prop
  | .close name => (t, name) ∈ s.holding
  | _ => True

/-- What a thread relies on. -/
def ThreadOk (s : State) (t : Tid) : Pc → Prop
  | .wantLock c | .locked c => CallOk s t c
  | .filled name id => HasData s name id
  | .unlocking (.wait name id) | .waiting name id => (t, name) ∈ s.holding ∧ Has s name id
  | .woken name id => (t, name) ∈ s.holding ∧ HasData s name id
  | .idle _ | .unlocking (.done _) => True

/-- An entry of the dictionary is in order. -/
structure EntryOk (s : State) (name : Name) (r : RecordData) : Prop where
  id_lt : r.id < s.next
  counted : r.holdersCount.toNat = holders s name
  ready : r.flags = 0 ∨ r.flags = rhsRecordFlagReady ∧ r.data ≠ none
  created : ∀ data, { name := name, id := r.id, data := data } ∈ s.created ↔ r.data = some data

/-- The registry's part. -/
structure Registry (s : State) : Prop where
  entry : ∀ name r, s.records name = some r → EntryOk s name r
  absent : ∀ name, s.records name = none → holders s name = 0
  created_lt : ∀ c ∈ s.created, c.id < s.next
  created_unique : ∀ c ∈ s.created, ∀ c' ∈ s.created, c.name = c'.name → c.id = c'.id → c = c'
  opened : ∀ o ∈ s.opened, ∃ data, o.result = some data ∧
    { name := o.name, id := o.id, data := data } ∈ s.created
  fault : s.fault = false

/-- The invariant of every run. -/
structure Good (s : State) : Prop extends Registry s where
  lock : ∀ t, (s.pc t).InLock → s.mutex = some t
  thread : ∀ t, ThreadOk s t (s.pc t)

/-- What a step of `t` leaves alone for the other threads: only under the lock is an entry
erased, and only one that nobody holds. -/
structure Stays (s s' : State) (t : Tid) : Prop where
  pc : ∀ t' ≠ t, s'.pc t' = s.pc t'
  holding : ∀ t' ≠ t, ∀ name, (t', name) ∈ s.holding → (t', name) ∈ s'.holding
  erased : ∀ name, s.records name ≠ none → s'.records name = none →
    holders s name = 0 ∧ s.mutex = some t
  same : ∀ name r r', s.records name = some r → s'.records name = some r' →
    r'.id = r.id ∧ (r.data ≠ none → r'.data ≠ none)

/-! ## Holders and entries -/

theorem holders_pos (h : (t, name) ∈ s.holding) : 0 < holders s name :=
  List.countP_pos_iff.mpr ⟨_, h, decide_eq_true rfl⟩

/-- One more holder. -/
theorem holders_append (h : s'.holding = s.holding ++ [(t, name)]) (n : Name) :
    holders s' n = holders s n + if name = n then 1 else 0 := by
  simp [holders, h]

/-- One holder less. -/
theorem holders_erase (hmem : (t, name) ∈ s.holding)
    (h : s'.holding = s.holding.erase (t, name)) (n : Name) :
    holders s' n = holders s n - if name = n then 1 else 0 := by
  rw [holders, holders, h, (List.perm_cons_erase hmem).countP_eq]
  simp [List.countP_cons]

theorem deref_eq (h : s.records name = some r) : deref s name r.id = some r := by
  simp [deref, h]

@[simp] theorem goto_pc_self (s : State) (t : Tid) (pc : Pc) : (s.goto t pc).pc t = pc :=
  Function.update_self ..

theorem goto_pc_of_ne {t' : Tid} (h : t' ≠ t) (s : State) (pc : Pc) :
    (s.goto t pc).pc t' = s.pc t' :=
  Function.update_of_ne h ..

/-! ## What the others rely on stays -/

theorem Has.ne_none (h : Has s name id) : s.records name ≠ none := by
  obtain ⟨r, hr, -⟩ := h
  rw [hr]
  exact Option.some_ne_none r

theorem HasData.has (h : HasData s name id) : Has s name id := by
  obtain ⟨r, hr, hid, -⟩ := h
  exact ⟨r, hr, hid⟩

theorem Has.stays (h : Has s name id) (hst : Stays s s' t) (hne : s'.records name ≠ none) :
    Has s' name id := by
  obtain ⟨r, hr, hid⟩ := h
  obtain ⟨r', hr'⟩ := Option.ne_none_iff_exists'.mp hne
  exact ⟨r', hr', (hst.same name r r' hr hr').1.trans hid⟩

theorem HasData.stays (h : HasData s name id) (hst : Stays s s' t)
    (hne : s'.records name ≠ none) : HasData s' name id := by
  obtain ⟨r, hr, hid, hdata⟩ := h
  obtain ⟨r', hr'⟩ := Option.ne_none_iff_exists'.mp hne
  have hsame := hst.same name r r' hr hr'
  exact ⟨r', hr', hsame.1.trans hid, hsame.2 hdata⟩

/-- An entry that is held is not erased. -/
theorem Stays.ne_none_of_held (hst : Stays s s' t) (h : Has s name id)
    (hheld : 0 < holders s name) : s'.records name ≠ none := by
  intro hnone
  exact absurd (hst.erased name h.ne_none hnone).1 (Nat.ne_of_gt hheld)

/-- The other threads find what they rely on. -/
theorem Stays.thread (hst : Stays s s' t) (h : Good s) {t' : Tid} (hne : t' ≠ t) :
    ThreadOk s' t' (s'.pc t') := by
  rw [hst.pc t' hne]
  have hok := h.thread t'
  have hcall : ∀ c, CallOk s t' c → CallOk s' t' c := by
    intro c hc
    cases c with
    | close name => exact hst.holding t' hne name hc
    | _ => trivial
  have hhas : ∀ name id, (t', name) ∈ s.holding ∧ Has s name id →
      (t', name) ∈ s'.holding ∧ Has s' name id := by
    intro name id hheld
    exact ⟨hst.holding t' hne name hheld.1,
      hheld.2.stays hst (hst.ne_none_of_held hheld.2 (holders_pos hheld.1))⟩
  cases hpc : s.pc t' with
  | idle _ => trivial
  | wantLock c =>
      rw [hpc] at hok
      exact hcall c hok
  | locked c =>
      rw [hpc] at hok
      exact hcall c hok
  | filled name id =>
      rw [hpc] at hok
      -- it has the mutex, so `t` has not
      have hlock : s.mutex = some t' := h.lock t' (by rw [hpc]; trivial)
      refine HasData.stays hok hst fun hnone => hne ?_
      have hmutex := (hst.erased name (HasData.has hok).ne_none hnone).2
      rw [hlock] at hmutex
      exact Option.some.inj hmutex
  | unlocking o =>
      rw [hpc] at hok
      cases o with
      | done _ => trivial
      | wait name id => exact hhas name id hok
  | waiting name id =>
      rw [hpc] at hok
      exact hhas name id hok
  | woken name id =>
      rw [hpc] at hok
      exact ⟨hst.holding t' hne name hok.1,
        hok.2.stays hst (hst.ne_none_of_held hok.2.has (holders_pos hok.1))⟩

/-- A step keeps the invariant if it keeps the registry's part, the lock, and what its own
thread relies on. -/
theorem Good.of_stays (h : Good s) (hst : Stays s s' t) (hreg : Registry s')
    (hlock : ∀ t', (s'.pc t').InLock → s'.mutex = some t') (hself : ThreadOk s' t (s'.pc t)) :
    Good s' := by
  refine { hreg with lock := hlock, thread := fun t' => ?_ }
  by_cases hne : t' = t
  · rw [hne]
    exact hself
  · exact hst.thread h hne

/-- A thread that has the lock, or goes on without it. -/
theorem Good.lock_goto (h : Good s) (hin : pc.InLock → (s.pc t).InLock) (t' : Tid) :
    ((s.goto t pc).pc t').InLock → s.mutex = some t' := by
  intro hin'
  by_cases hne : t' = t
  · subst hne
    rw [goto_pc_self] at hin'
    exact h.lock t' (hin hin')
  · rw [goto_pc_of_ne hne] at hin'
    exact h.lock t' hin'

/-- Only the thread's own place has changed. -/
theorem stays_goto (s : State) (t : Tid) (pc : Pc) : Stays s (s.goto t pc) t where
  pc := fun _ hne => goto_pc_of_ne hne s pc
  holding := fun _ _ _ hmem => hmem
  erased := fun _ hr hnone => absurd hnone hr
  same := by
    intro name r r' hr hr'
    cases hr.symm.trans hr'
    exact ⟨rfl, fun hdata => hdata⟩

theorem stays_crash (s : State) (t : Tid) : Stays s (crash s) t where
  pc := fun _ _ => rfl
  holding := fun _ _ _ hmem => hmem
  erased := fun _ hr hnone => absurd hnone hr
  same := (stays_goto s t (s.pc t)).same

/-- The registry's part has to do neither with the lock nor with where the threads are. -/
theorem Registry.elsewhere (h : Registry s) (mutex : Option Tid) (pc : Tid → Pc)
    (crashed : Bool) : Registry { s with mutex := mutex, pc := pc, crashed := crashed } := by
  refine ⟨fun name r hr => ?_, h.absent, h.created_lt, h.created_unique, h.opened, h.fault⟩
  have hentry := h.entry name r hr
  exact ⟨hentry.id_lt, hentry.counted, hentry.ready, hentry.created⟩

theorem Good.crash (h : Good s) : Good (crash s) :=
  h.of_stays (stays_crash s 0) (h.elsewhere s.mutex s.pc true) h.lock (h.thread 0)

/-- The thread goes on at `pc`, under the lock or without it. -/
theorem Good.goto (h : Good s) (hin : pc.InLock → (s.pc t).InLock) (hself : ThreadOk s t pc) :
    Stays s (s.goto t pc) t ∧ Good (s.goto t pc) := by
  refine ⟨stays_goto s t pc, h.of_stays (stays_goto s t pc) ?_ (h.lock_goto hin) ?_⟩
  · exact h.elsewhere s.mutex _ s.crashed
  · rw [goto_pc_self]
    exact hself

/-! ## Writing an entry -/

/-- The thread writes an entry, and may change its own place and holds. -/
theorem stays_put {r' : RecordData}
    (hrec : s'.records = Function.update s.records name (some r'))
    (hpc : ∀ t' ≠ t, s'.pc t' = s.pc t')
    (hholding : ∀ t' ≠ t, ∀ name, (t', name) ∈ s.holding → (t', name) ∈ s'.holding)
    (hsame : ∀ r, s.records name = some r → r'.id = r.id ∧ (r.data ≠ none → r'.data ≠ none)) :
    Stays s s' t where
  pc := hpc
  holding := hholding
  erased := by
    intro n hr hnone
    rw [hrec, Function.update_apply] at hnone
    split at hnone
    · cases hnone
    · exact absurd hnone hr
  same := by
    intro n r₁ r₂ hr₁ hr₂
    rw [hrec, Function.update_apply] at hr₂
    split at hr₂
    · rename_i heq
      rw [heq] at hr₁
      cases hr₂
      exact hsame r₁ hr₁
    · cases hr₁.symm.trans hr₂
      exact ⟨rfl, fun hdata => hdata⟩

/-- The other entries are as they were. -/
theorem Registry.put (h : Registry s) {r' : RecordData}
    (hrec : s'.records = Function.update s.records name (some r')) (hok : EntryOk s' name r')
    (hnext : s.next ≤ s'.next) (hholders : ∀ n ≠ name, holders s' n = holders s n)
    (hcreated : ∀ c : Created, c.name ≠ name → (c ∈ s'.created ↔ c ∈ s.created))
    (hlt : ∀ c ∈ s'.created, c.id < s'.next)
    (hunique : ∀ c ∈ s'.created, ∀ c' ∈ s'.created, c.name = c'.name → c.id = c'.id → c = c')
    (hopened : ∀ o ∈ s'.opened, ∃ data, o.result = some data ∧
      { name := o.name, id := o.id, data := data } ∈ s'.created)
    (hfault : s'.fault = false) : Registry s' := by
  refine ⟨?_, ?_, hlt, hunique, hopened, hfault⟩
  · intro n r hr
    rw [hrec, Function.update_apply] at hr
    split at hr
    · rename_i heq
      cases hr
      rw [heq]
      exact hok
    · rename_i hne
      have hentry := h.entry n r hr
      refine ⟨Nat.lt_of_lt_of_le hentry.id_lt hnext, ?_, hentry.ready, fun data => ?_⟩
      · rw [hholders n hne]
        exact hentry.counted
      · rw [hcreated _ hne]
        exact hentry.created data
  · intro n hr
    rw [hrec, Function.update_apply] at hr
    split at hr
    · cases hr
    · rename_i hne
      rw [hholders n hne]
      exact h.absent n hr

/-- What `rhs_record_data_get_or_create` leaves: the entry is there, and nothing that a
thread relies on has changed. -/
structure Placed (s s₁ : State) (name : Name) (r : RecordData) : Prop where
  good : Good s₁
  here : s₁.records name = some r
  pc : s₁.pc = s.pc
  mutex : s₁.mutex = s.mutex
  holding : s₁.holding = s.holding
  stays : ∀ t s', Stays s₁ s' t → Stays s s' t

theorem exists_placed (h : Good s) (name : Name) :
    ∃ s₁ r, rhsRecordDataGetOrCreate s name = (s₁, r) ∧ Placed s s₁ name r := by
  rw [rhsRecordDataGetOrCreate]
  cases hr : s.records name with
  | some r => exact ⟨s, r, rfl, h, hr, rfl, rfl, rfl, fun _ _ hst => hst⟩
  | none =>
      let r : RecordData := { id := s.next, flags := 0, data := none, holdersCount := 0 }
      let s₁ : State := { rhsRecordPut s name r with next := s.next + 1 }
      have hst : ∀ t, Stays s s₁ t := by
        intro t
        refine stays_put rfl (fun _ _ => rfl) (fun _ _ _ hmem => hmem) fun r₁ hr₁ => ?_
        cases hr.symm.trans hr₁
      have hok : EntryOk s₁ name r := by
        refine ⟨Nat.lt_succ_self _, (h.absent name hr).symm, .inl rfl, fun data => ?_⟩
        refine iff_of_false (fun hmem => ?_) nofun
        exact absurd (h.created_lt _ hmem) (Nat.lt_irrefl _)
      have hreg : Registry s₁ := h.put rfl hok (Nat.le_succ _) (fun _ _ => rfl)
        (fun _ _ => Iff.rfl) (fun c hc => Nat.lt_succ_of_lt (h.created_lt c hc))
        h.created_unique h.opened h.fault
      have hgood : Good s₁ :=
        h.of_stays (hst 0) hreg h.lock ((hst 1).thread h Nat.zero_ne_one)
      refine ⟨s₁, r, rfl, hgood, Function.update_self .., rfl, rfl, rfl, fun t s' hst' => ?_⟩
      have hsame : ∀ n, s.records n ≠ none → s₁.records n = s.records n := by
        intro n hn
        refine Function.update_of_ne (fun heq => hn ?_) ..
        rw [heq]
        exact hr
      refine ⟨hst'.pc, hst'.holding, fun n hn hnone => ?_, fun n r₁ r₂ hr₁ hr₂ => ?_⟩
      · exact hst'.erased n (by rw [hsame n hn]; exact hn) hnone
      · refine hst'.same n r₁ r₂ ?_ hr₂
        rw [hsame n (by rw [hr₁]; exact Option.some_ne_none _), hr₁]

/-- The thread writes an entry that is there and keeps its number and its data, and goes on
at `pc`. -/
theorem Good.turn (h : Good s) (pc : Pc) {r' : RecordData} (hr : s.records name = some r)
    (hrec : s'.records = Function.update s.records name (some r'))
    (hid : r'.id = r.id) (hdata : r.data ≠ none → r'.data ≠ none)
    (hpc : s'.pc = (s.goto t pc).pc) (hin : pc.InLock → (s.pc t).InLock)
    (hmutex : s'.mutex = s.mutex)
    (hholding : ∀ t' ≠ t, ∀ name, (t', name) ∈ s.holding → (t', name) ∈ s'.holding)
    (hreg : Registry s') (hself : ThreadOk s' t pc) : Stays s s' t ∧ Good s' := by
  have hst : Stays s s' t := by
    refine stays_put hrec (fun t' hne => ?_) hholding fun r₁ hr₁ => ?_
    · rw [hpc, goto_pc_of_ne hne]
    · cases hr.symm.trans hr₁
      exact ⟨hid, hdata⟩
  refine ⟨hst, h.of_stays hst hreg ?_ ?_⟩
  · rw [hpc, hmutex]
    exact h.lock_goto hin
  · rw [hpc, goto_pc_self]
    exact hself

/-! ## Under the lock -/

/-- No create has filled an entry that has no data. -/
theorem EntryOk.not_created (h : EntryOk s name r) (hdata : r.data = none) {c : Created}
    (hc : c ∈ s.created) (hname : c.name = name) : c.id ≠ r.id := by
  intro hid
  have hmem : { name := name, id := r.id, data := c.data } ∈ s.created := by
    rw [← hname, ← hid]
    exact hc
  have hd := (h.created c.data).mp hmem
  rw [hdata] at hd
  cases hd

/-- A create fills the entry, and is the only one that has. -/
theorem Registry.create (h : Registry s) (hr : s.records name = some r) (hdata : r.data = none)
    (t : Tid) (pc : Pc) (data : Ptr) :
    Registry { (rhsRecordPut s name { r with data := some data }).goto t pc with
      created := s.created ++ [{ name := name, id := r.id, data := data }] } := by
  have hentry := h.entry name r hr
  have hmem : ∀ {c}, c ∈ s.created ++ [{ name := name, id := r.id, data := data }] →
      c ∈ s.created ∨ c = { name := name, id := r.id, data := data } := by
    intro c hc
    exact (List.mem_append.mp hc).imp_right List.mem_singleton.mp
  refine h.put rfl ⟨hentry.id_lt, hentry.counted, ?_, fun d => ?_⟩ (Nat.le_refl _)
    (fun _ _ => rfl) (fun c hne => ?_) (fun c hc => ?_) (fun c hc c' hc' hname hid => ?_)
    (fun o ho => ?_) h.fault
  · exact hentry.ready.imp_right fun hready => ⟨hready.1, nofun⟩
  · constructor
    · intro hd
      rcases hmem hd with hold | hnew
      · exact absurd rfl (hentry.not_created hdata hold rfl)
      · cases hnew
        rfl
    · intro hd
      cases hd
      exact List.mem_append_right _ (List.mem_singleton_self _)
  · refine List.mem_append.trans (or_iff_left fun hc => hne ?_)
    rw [List.mem_singleton.mp hc]
  · rcases hmem hc with hold | hnew
    · exact h.created_lt c hold
    · rw [hnew]
      exact hentry.id_lt
  · rcases hmem hc with hold | rfl
    · rcases hmem hc' with hold' | rfl
      · exact h.created_unique c hold c' hold' hname hid
      · exact absurd hid (hentry.not_created hdata hold hname)
    · rcases hmem hc' with hold' | rfl
      · exact absurd hid.symm (hentry.not_created hdata hold' hname.symm)
      · rfl
  · obtain ⟨d, hresult, hold⟩ := h.opened o ho
    exact ⟨d, hresult, List.mem_append_left _ hold⟩

theorem turn_create (h : Good s) (hin : (s.pc t).InLock) (name : Name) (data : Ptr) :
    Stays s (rhsRecordCreate s t name data) t ∧ Good (rhsRecordCreate s t name data) := by
  obtain ⟨s₁, r, heq, hplaced⟩ := exists_placed h name
  have hgood := hplaced.good
  simp only [rhsRecordCreate, heq]
  split
  · exact ⟨hplaced.stays _ _ (stays_crash s₁ t), hgood.crash⟩
  rename_i hnull
  have hdata : r.data = none := not_not.mp hnull
  suffices hturn : Stays s₁ _ t ∧ Good _ from ⟨hplaced.stays _ _ hturn.1, hturn.2⟩
  exact hgood.turn (.filled name r.id) hplaced.here rfl rfl (fun _ => nofun) rfl
    (fun _ => hplaced.pc ▸ hin) rfl (fun _ _ _ hmem => hmem)
    (hgood.create hplaced.here hdata t _ data) ⟨_, Function.update_self .., rfl, nofun⟩

theorem turn_open (h : Good s) (hin : (s.pc t).InLock) (name : Name)
    (hcount : holders s name + 1 < 2 ^ 32) :
    Stays s (rhsRecordOpen s t name) t ∧ Good (rhsRecordOpen s t name) := by
  obtain ⟨s₁, r, heq, hplaced⟩ := exists_placed h name
  have hgood := hplaced.good
  have hentry := hgood.entry name r hplaced.here
  simp only [rhsRecordOpen, heq]
  suffices hturn : Stays s₁ _ t ∧ Good _ from ⟨hplaced.stays _ _ hturn.1, hturn.2⟩
  refine hgood.turn (.unlocking (.wait name r.id)) hplaced.here rfl rfl (fun hd => hd) rfl
    (fun _ => hplaced.pc ▸ hin) rfl (fun _ _ _ hmem => List.mem_append_left _ hmem) ?_
    ⟨List.mem_append_right _ (List.mem_singleton_self _), _, Function.update_self .., rfl⟩
  refine hgood.toRegistry.put rfl ⟨hentry.id_lt, ?_, hentry.ready, hentry.created⟩ (Nat.le_refl _)
    (fun n hne => ?_) (fun _ _ => Iff.rfl) hgood.created_lt hgood.created_unique hgood.opened
    hgood.fault
  · have hcounted := hentry.counted
    have hsame : holders s₁ name = holders s name := by rw [holders, hplaced.holding, holders]
    rw [holders_append rfl, if_pos rfl, UInt32.toNat_add, hcounted, hsame]
    exact Nat.mod_eq_of_lt hcount
  · rw [holders_append rfl, if_neg (Ne.symm hne)]
    rfl

theorem turn_close (h : Good s) (hin : (s.pc t).InLock) (name : Name)
    (hmem : (t, name) ∈ s.holding) :
    Stays s (rhsRecordClose s t name) t ∧ Good (rhsRecordClose s t name) := by
  rw [rhsRecordClose]
  split
  · exact ⟨stays_crash s t, h.crash⟩
  rename_i r hr
  have hentry := h.entry name r hr
  have hpos := holders_pos hmem
  refine h.turn (.unlocking (.done none)) hr rfl rfl (fun hd => hd) rfl (fun _ => hin) rfl
    (fun t' hne n hn => ?_) ?_ trivial
  · exact (List.mem_erase_of_ne fun heq => hne (congrArg Prod.fst heq)).mpr hn
  refine h.toRegistry.put rfl ⟨hentry.id_lt, ?_, hentry.ready, hentry.created⟩ (Nat.le_refl _)
    (fun n hne => ?_) (fun _ _ => Iff.rfl) h.created_lt h.created_unique h.opened h.fault
  · have hcounted := hentry.counted
    have hone : (1 : UInt32) ≤ r.holdersCount := by
      rw [UInt32.le_iff_toNat_le, hcounted]
      exact hpos
    rw [holders_erase hmem rfl, if_pos rfl, UInt32.toNat_sub_of_le _ _ hone, hcounted]
    rfl
  · rw [holders_erase hmem rfl, if_neg (Ne.symm hne)]
    rfl

/-- Every other entry is as it was. -/
theorem records_of_erase {n : Name} (hr : (rhsRecordErase s name).records n = some r) :
    n ≠ name ∧ s.records n = some r := by
  simp only [rhsRecordErase, Function.update_apply] at hr
  split at hr
  · cases hr
  · exact ⟨‹_›, hr⟩

/-- An entry that nobody holds can be erased under the lock. -/
theorem stays_erase (hnone : holders s name = 0) (hlock : s.mutex = some t) (pc : Pc) :
    Stays s ((rhsRecordErase s name).goto t pc) t where
  pc := fun _ hne => goto_pc_of_ne hne ..
  holding := fun _ _ _ hmem => hmem
  erased := by
    intro n hn hn'
    by_cases heq : n = name
    · rw [heq]
      exact ⟨hnone, hlock⟩
    · exact absurd ((Function.update_of_ne heq ..).symm.trans hn') hn
  same := by
    intro n r₁ r₂ hr₁ hr₂
    cases hr₁.symm.trans (records_of_erase hr₂).2
    exact ⟨rfl, fun hdata => hdata⟩

theorem Registry.erase (h : Registry s) (hnone : holders s name = 0) (t : Tid) (pc : Pc) :
    Registry ((rhsRecordErase s name).goto t pc) := by
  refine ⟨fun n r hr => ?_, fun n hn => ?_, h.created_lt, h.created_unique, h.opened, h.fault⟩
  · have hentry := h.entry n r (records_of_erase hr).2
    exact ⟨hentry.id_lt, hentry.counted, hentry.ready, hentry.created⟩
  · by_cases heq : n = name
    · rw [heq]
      exact hnone
    · exact h.absent n ((Function.update_of_ne heq ..).symm.trans hn)

theorem turn_destroy (h : Good s) (hin : (s.pc t).InLock) (name : Name) :
    Stays s (rhsRecordDestroy s t name) t ∧ Good (rhsRecordDestroy s t name) := by
  rw [rhsRecordDestroy]
  split
  · exact ⟨stays_crash s t, h.crash⟩
  rename_i r hr
  split
  · rename_i hzero
    have hnone : holders s name = 0 := by
      rw [← (h.entry name r hr).counted, hzero]
      rfl
    have hst := stays_erase hnone (h.lock t hin) (.unlocking (.done (some true)))
    refine ⟨hst, h.of_stays hst (h.erase hnone t _) (h.lock_goto fun _ => hin) ?_⟩
    rw [goto_pc_self]
    trivial
  · exact h.goto (fun _ => hin) trivial

/-- What the call of a thread that has the lock does. -/
theorem turn_underLock (h : Good s) {c : Call} (hpc : s.pc t = .locked c)
    (hcount : ∀ name, c = .open name → holders s name + 1 < 2 ^ 32) :
    Stays s (underLock s t c) t ∧ Good (underLock s t c) := by
  have hin : (s.pc t).InLock := by
    rw [hpc]
    trivial
  cases c with
  | create name data => exact turn_create h hin name data
  | destroy name => exact turn_destroy h hin name
  | «open» name => exact turn_open h hin name (hcount name rfl)
  | close name =>
      have hok := h.thread t
      rw [hpc] at hok
      exact turn_close h hin name hok
  | «exists» name => exact h.goto (fun _ => hin) trivial

/-! ## Outside the lock -/

/-- `rhs_event_flag_set` leaves no other flags than the one of a record that is ready. -/
theorem eventGroupSetBits_ready (h : EntryOk s name r) :
    eventGroupSetBits r.flags rhsRecordFlagReady = rhsRecordFlagReady := by
  rcases h.ready with hflags | hflags
  · rw [hflags]
    decide
  · rw [hflags.1]
    decide

theorem turn_setReady (h : Good s) (hpc : s.pc t = .filled name id) :
    Stays s (setReady s t name id) t ∧ Good (setReady s t name id) := by
  have hok := h.thread t
  rw [hpc] at hok
  obtain ⟨r, hr, rfl, hdata⟩ := hok
  have hentry := h.entry name r hr
  have hin : (s.pc t).InLock := by
    rw [hpc]
    trivial
  rw [setReady, deref_eq hr]
  refine h.turn (.unlocking (.done none)) hr rfl rfl (fun hd => hd) rfl (fun _ => hin) rfl
    (fun _ _ _ hmem => hmem) ?_ trivial
  refine h.toRegistry.put rfl ⟨hentry.id_lt, hentry.counted, ?_, hentry.created⟩ (Nat.le_refl _)
    (fun _ _ => rfl) (fun _ _ => Iff.rfl) h.created_lt h.created_unique h.opened h.fault
  exact .inr ⟨eventGroupSetBits_ready hentry, hdata⟩

theorem rhsRecordPut_self (hr : s.records name = some r) : rhsRecordPut s name r = s := by
  rw [rhsRecordPut, ← hr, Function.update_eq_self]

/-- The wait ends when the record is ready, and leaves the flag set. -/
theorem waitReady_eq (hready : r.flags = 0 ∨ r.flags = rhsRecordFlagReady)
    (hr : s.records name = some r) (t : Tid) :
    waitReady s t name r.id =
      if r.flags = rhsRecordFlagReady then some (s.goto t (.woken name r.id)) else none := by
  have hput : rhsRecordPut s name { r with flags := r.flags } = s := rhsRecordPut_self hr
  rw [waitReady, deref_eq hr]
  dsimp only
  rcases hready with hflags | hflags
  · have hwait : eventGroupWaitBits rhsRecordFlagReady (openOptions &&& rhsFlagNoClear = 0)
        (openOptions &&& rhsFlagWaitAll ≠ 0) r.flags = none := by
      rw [hflags]
      decide
    rw [hwait, if_neg (by rw [hflags]; decide)]
    rfl
  · have hwait : eventGroupWaitBits rhsRecordFlagReady (openOptions &&& rhsFlagNoClear = 0)
        (openOptions &&& rhsFlagWaitAll ≠ 0) r.flags = some (r.flags, r.flags) := by
      rw [hflags]
      decide
    have hstatus : rhsEventFlagWait rhsRecordFlagReady openOptions rhsWaitForever r.flags =
        rhsRecordFlagReady := by
      rw [hflags]
      decide
    rw [hwait, Option.map_some, if_pos hflags]
    simp only [hput, if_pos hstatus]

theorem turn_waitReady (h : Good s) (hpc : s.pc t = .waiting name id)
    (hs : waitReady s t name id = some s') : Stays s s' t ∧ Good s' := by
  have hok := h.thread t
  rw [hpc] at hok
  obtain ⟨hmem, r, hr, rfl⟩ := hok
  have hentry := h.entry name r hr
  rw [waitReady_eq (hentry.ready.imp_right And.left) hr] at hs
  split at hs
  · rename_i hflags
    cases hs
    have hdata : r.data ≠ none := by
      rcases hentry.ready with hzero | hready
      · rw [hflags] at hzero
        exact absurd hzero (by decide)
      · exact hready.2
    exact h.goto nofun ⟨hmem, r, hr, rfl, hdata⟩
  · cases hs

theorem turn_readData (h : Good s) (hpc : s.pc t = .woken name id) :
    Stays s (readData s t name id) t ∧ Good (readData s t name id) := by
  have hok := h.thread t
  rw [hpc] at hok
  obtain ⟨-, r, hr, rfl, hdata⟩ := hok
  have hentry := h.entry name r hr
  obtain ⟨data, hdata⟩ := Option.ne_none_iff_exists'.mp hdata
  have hput : (s.goto t (.idle none)).records =
      Function.update s.records name (some r) := by
    rw [← hr, Function.update_eq_self]
    rfl
  rw [readData, deref_eq hr]
  refine h.turn (.idle none) hr hput rfl (fun hd => hd) rfl nofun rfl
    (fun _ _ _ hmem => hmem) ?_ trivial
  refine ⟨fun n r₁ hr₁ => ?_, h.absent, h.created_lt, h.created_unique, fun o ho => ?_, h.fault⟩
  · have hentry := h.entry n r₁ hr₁
    exact ⟨hentry.id_lt, hentry.counted, hentry.ready, hentry.created⟩
  · rcases List.mem_append.mp ho with ho | ho
    · exact h.opened o ho
    · rw [List.mem_singleton.mp ho]
      exact ⟨data, hdata, (hentry.created data).mpr hdata⟩

/-! ## The lock -/

theorem turn_lock (h : Good s) {c : Call} (hpc : s.pc t = .wantLock c) (hfree : s.mutex = none) :
    Stays s { s.goto t (.locked c) with mutex := some t } t ∧
      Good { s.goto t (.locked c) with mutex := some t } := by
  have hst : Stays s { s.goto t (.locked c) with mutex := some t } t :=
    { stays_goto s t (.locked c) with }
  have hok := h.thread t
  rw [hpc] at hok
  refine ⟨hst, h.of_stays hst (h.elsewhere _ _ _) (fun t' hin => ?_) ?_⟩
  · by_cases hne : t' = t
    · rw [hne]
    · -- nobody had the lock
      have hlock := h.lock t' (goto_pc_of_ne hne s _ ▸ hin)
      rw [hfree] at hlock
      cases hlock
  · exact (goto_pc_self s t (.locked c)).symm ▸ hok

theorem turn_unlock (h : Good s) {o : Outcome} (hpc : s.pc t = .unlocking o) (hin : ¬ pc.InLock)
    (hself : ThreadOk s t pc) :
    Stays s { s.goto t pc with mutex := none } t ∧ Good { s.goto t pc with mutex := none } := by
  have hst : Stays s { s.goto t pc with mutex := none } t := { stays_goto s t pc with }
  refine ⟨hst, h.of_stays hst (h.elsewhere _ _ _) (fun t' hin' => ?_) ?_⟩
  · by_cases hne : t' = t
    · subst hne
      exact absurd (goto_pc_self s t' pc ▸ hin') hin
    · -- the thread had the lock, and no other
      have hlock := h.lock t' (goto_pc_of_ne hne s _ ▸ hin')
      rw [h.lock t (by rw [hpc]; trivial)] at hlock
      exact absurd (Option.some.inj hlock).symm hne
  · exact (goto_pc_self s t pc).symm ▸ hself

/-! ## Every step -/

/-- A thread closes only what it has opened. -/
def ClosesOwn (s : State) : Action → Prop
  | .call t c => CallOk s t c
  | _ => True

/-- An open that is about to be counted can be. -/
def CountFits (s : State) : Pc → Prop
  | .locked (.open name) => holders s name + 1 < 2 ^ 32
  | _ => True

/-- No name is open `2 ^ 32` times at once. -/
def Allowed (s : State) : Action → Prop
  | .run t => CountFits s (s.pc t)
  | a => ClosesOwn s a

/-- A thread's step in a call. -/
theorem turn_run (h : Good s) (ha : Allowed s (.run t)) (hs : run s t = some s') :
    Stays s s' t ∧ Good s' := by
  rw [run] at hs
  cases hpc : s.pc t with
  | idle _ => simp [hpc] at hs
  | wantLock c =>
      simp only [hpc] at hs
      split at hs
      · rename_i hfree
        cases hs
        exact turn_lock h hpc hfree
      · cases hs
  | locked c =>
      simp only [hpc, Option.some.injEq] at hs
      subst hs
      refine turn_underLock h hpc fun name hc => ?_
      rw [Allowed, hpc, hc] at ha
      exact ha
  | filled name id =>
      simp only [hpc, Option.some.injEq] at hs
      subst hs
      exact turn_setReady h hpc
  | unlocking o =>
      have hok := h.thread t
      rw [hpc] at hok
      cases o with
      | done result =>
          simp only [hpc, Option.some.injEq] at hs
          subst hs
          exact turn_unlock h hpc (fun hin => hin) trivial
      | wait name id =>
          simp only [hpc, Option.some.injEq] at hs
          subst hs
          exact turn_unlock h hpc (fun hin => hin) hok
  | waiting name id =>
      simp only [hpc] at hs
      exact turn_waitReady h hpc hs
  | woken name id =>
      simp only [hpc, Option.some.injEq] at hs
      subst hs
      exact turn_readData h hpc

/-- The thread whose step it is. -/
def Action.tid : Action → Tid
  | .call t _ | .createNull t _ | .run t => t

/-- With nothing wrong, a thread goes on in its call. -/
theorem step_run (hcrashed : s.crashed = false) (hfault : s.fault = false) :
    step s (.run t) = run s t := by
  simp [step, hcrashed, hfault]

/-- Every step keeps the invariant. -/
theorem turn_step {a : Action} (h : Good s) (ha : Allowed s a) (hs : step s a = some s') :
    Stays s s' a.tid ∧ Good s' := by
  unfold step at hs
  split at hs
  · cases hs
  cases a with
  | call t c =>
      simp only at hs
      split at hs
      · cases hs
        exact h.goto (fun hin => hin.elim) ha
      · cases hs
  | createNull t name =>
      simp only at hs
      split at hs
      · cases hs
        exact ⟨stays_crash s t, h.crash⟩
      · cases hs
  | run t => exact turn_run h ha hs

theorem good_init : Good State.init where
  entry := nofun
  absent := fun _ _ => rfl
  created_lt := nofun
  created_unique := nofun
  opened := nofun
  fault := rfl
  lock := nofun
  thread := fun _ => trivial

theorem good_of_reach (h : Reach step Allowed State.init s) : Good s :=
  h.invariant good_init fun _ _ _ hgood ha hs => (turn_step hgood ha hs).2

/-! ## What the registry promises -/

/-- The registry's promises in a state. -/
structure Safe (s : State) : Prop where
  /-- A name's count is the number of its opens that are counted and not yet closed. -/
  counted : ∀ name,
    ((s.records name).elim 0 fun r => r.holdersCount.toNat) = holders s name
  /-- A record that has a holder is not erased. -/
  kept : ∀ a s' name r, Allowed s a → step s a = some s' → s.records name = some r →
    0 < holders s name → ∃ r', s'.records name = some r' ∧ r'.id = r.id
  /-- To destroy it returns false and changes nothing. -/
  destroy : ∀ t s' name, s.pc t = .locked (.destroy name) → 0 < holders s name →
    step s (.run t) = some s' → s' = s.goto t (.unlocking (.done (some false)))
  /-- A thread that waits finds its record, and goes on when that is ready. -/
  waits : ∀ t name id, s.pc t = .waiting name id → ∃ r, s.records name = some r ∧ r.id = id ∧
    run s t = if r.flags = rhsRecordFlagReady then some (s.goto t (.woken name id)) else none
  /-- An open returns what the create of the entry it was given was called with. -/
  returned : ∀ o ∈ s.opened, ∃ data, o.result = some data ∧
    { name := o.name, id := o.id, data := data } ∈ s.created
  /-- There is one such create. -/
  created_unique : ∀ c ∈ s.created, ∀ c' ∈ s.created, c.name = c'.name → c.id = c'.id → c = c'
  /-- No pointer is used whose entry is gone. -/
  fault : s.fault = false

theorem Good.counted (h : Good s) (name : Name) :
    ((s.records name).elim 0 fun r => r.holdersCount.toNat) = holders s name := by
  cases hr : s.records name with
  | none => exact (h.absent name hr).symm
  | some r => exact (h.entry name r hr).counted

theorem Good.kept (h : Good s) {a : Action} (ha : Allowed s a) (hs : step s a = some s')
    (hr : s.records name = some r) (hheld : 0 < holders s name) :
    ∃ r', s'.records name = some r' ∧ r'.id = r.id := by
  have hst := (turn_step h ha hs).1
  have hhas : Has s name r.id := ⟨r, hr, rfl⟩
  exact hhas.stays hst (hst.ne_none_of_held hhas hheld)

theorem Good.destroy_held (h : Good s) (hpc : s.pc t = .locked (.destroy name))
    (hheld : 0 < holders s name) (hs : step s (.run t) = some s') :
    s' = s.goto t (.unlocking (.done (some false))) := by
  unfold step at hs
  split at hs
  · cases hs
  simp only [run, hpc, underLock, rhsRecordDestroy, Option.some.injEq] at hs
  cases hr : s.records name with
  | none =>
      rw [h.absent name hr] at hheld
      exact absurd hheld (Nat.lt_irrefl 0)
  | some r =>
      have hcounted := (h.entry name r hr).counted
      have hcount : r.holdersCount ≠ 0 := by
        intro hzero
        rw [← hcounted, hzero] at hheld
        exact absurd hheld (by decide)
      simp only [hr, if_neg hcount] at hs
      exact hs.symm

theorem Good.waits (h : Good s) (hpc : s.pc t = .waiting name id) :
    ∃ r, s.records name = some r ∧ r.id = id ∧ run s t =
      if r.flags = rhsRecordFlagReady then some (s.goto t (.woken name id)) else none := by
  have hok := h.thread t
  rw [hpc] at hok
  obtain ⟨-, r, hr, rfl⟩ := hok
  refine ⟨r, hr, rfl, ?_⟩
  simp only [run, hpc]
  exact waitReady_eq ((h.entry name r hr).ready.imp_right And.left) hr t

/-- **The registry keeps its promises** in every run in which no thread closes what it has
not opened, and no name is open `2 ^ 32` times at once. -/
theorem safe_of_reach (h : Reach step Allowed State.init s) : Safe s := by
  have hgood := good_of_reach h
  constructor
  · exact hgood.counted
  · intro a s' name r ha hs hr hheld
    exact hgood.kept ha hs hr hheld
  · intro t s' name hpc hheld hs
    exact hgood.destroy_held hpc hheld hs
  · intro t name id hpc
    exact hgood.waits hpc
  · exact hgood.opened
  · exact hgood.created_unique
  · exact hgood.fault

instance (s : State) (t : Tid) : (c : Call) → Decidable (CallOk s t c)
  | .close _ => inferInstanceAs (Decidable (_ ∈ _))
  | .create _ _ | .destroy _ | .open _ | .exists _ => inferInstanceAs (Decidable True)

instance (s : State) : (pc : Pc) → Decidable (CountFits s pc)
  | .locked (.open _) => inferInstanceAs (Decidable (_ < _))
  | .locked (.create _ _) | .locked (.destroy _) | .locked (.close _) | .locked (.exists _)
  | .idle _ | .wantLock _ | .filled _ _ | .unlocking _ | .waiting _ _ | .woken _ _ =>
      inferInstanceAs (Decidable True)

instance (s : State) : (a : Action) → Decidable (Allowed s a)
  | .run t => inferInstanceAs (Decidable (CountFits s (s.pc t)))
  | .call t c => inferInstanceAs (Decidable (CallOk s t c))
  | .createNull _ _ => inferInstanceAs (Decidable True)

/-- The steps of a call that need not wait. -/
def callRun (t : Tid) (c : Call) (steps : ℕ) : List Action :=
  .call t c :: List.replicate steps (.run t)

/-- One thread opens the record before the other has created it; it is destroyed once it is
closed. -/
def openFirstRun : List Action :=
  callRun 0 (.open "rtc") 3 ++ callRun 1 (.create "rtc" 7) 4 ++ [.run 0, .run 0] ++
    callRun 1 (.destroy "rtc") 3 ++ callRun 0 (.close "rtc") 3 ++ callRun 1 (.destroy "rtc") 3

theorem open_first_run_safe : ∃ s, runActions step Allowed State.init openFirstRun = some s ∧
    s.opened = [⟨"rtc", 0, some 7⟩] ∧ s.records "rtc" = none ∧ Safe s := by
  have hrun : runActions step Allowed State.init openFirstRun = some _ := rfl
  exact ⟨_, hrun, rfl, rfl, safe_of_reach (.of_runActions hrun)⟩

/-! ## A count of 32 bits -/

/-- Thread 0 has created the record and opened it `n` times. -/
structure OpenedTimes (n : ℕ) (s : State) : Prop where
  mutex : s.mutex = none
  pc : s.pc 0 = .idle none
  crashed : s.crashed = false
  fault : s.fault = false
  records : s.records "rtc" =
    some { id := 0, flags := 1, data := some 7, holdersCount := UInt32.ofNat n }
  holders : holders s "rtc" = n

instance (s : State) : (a : Action) → Decidable (ClosesOwn s a)
  | .call t c => inferInstanceAs (Decidable (CallOk s t c))
  | .createNull _ _ | .run _ => inferInstanceAs (Decidable True)

theorem exists_openedTimes_zero : ∃ s, Reach step ClosesOwn State.init s ∧ OpenedTimes 0 s := by
  have hrun : runActions step ClosesOwn State.init (callRun 0 (.create "rtc" 7) 4) = some _ := rfl
  exact ⟨_, .of_runActions hrun, rfl, rfl, rfl, rfl, rfl, rfl⟩

theorem exists_openedTimes_succ {n : ℕ} (h : OpenedTimes n s) :
    ∃ s', Reach step ClosesOwn s s' ∧ OpenedTimes (n + 1) s' := by
  let r₀ : RecordData := { id := 0, flags := 1, data := some 7, holdersCount := UInt32.ofNat n }
  let r : RecordData := { r₀ with holdersCount := r₀.holdersCount + 1 }
  let s₁ : State := s.goto 0 (.wantLock (.open "rtc"))
  let s₂ : State := { s₁.goto 0 (.locked (.open "rtc")) with mutex := some 0 }
  let s₃ : State := { (rhsRecordPut s₂ "rtc" r).goto 0 (.unlocking (.wait "rtc" 0)) with
    holding := s.holding ++ [(0, "rtc")] }
  let s₄ : State := { s₃.goto 0 (.waiting "rtc" 0) with mutex := none }
  let s₅ : State := s₄.goto 0 (.woken "rtc" 0)
  let s₆ : State := { s₅.goto 0 (.idle none) with
    opened := s.opened ++ [{ name := "rtc", id := 0, result := some 7 }] }
  have h₁ : step s (.call 0 (.open "rtc")) = some s₁ := by
    simp [step, h.crashed, h.fault, h.pc, s₁]
  have h₂ : step s₁ (.run 0) = some s₂ := by
    rw [step_run (s := s₁) h.crashed h.fault]
    simp [run, s₂, s₁, State.goto, h.mutex]
  have h₃ : step s₂ (.run 0) = some s₃ := by
    rw [step_run (s := s₂) h.crashed h.fault]
    have hpc : s₂.pc 0 = .locked (.open "rtc") := goto_pc_self s₁ 0 _
    have hrec : s₂.records "rtc" = some r₀ := h.records
    have hplaced : rhsRecordDataGetOrCreate s₂ "rtc" = (s₂, r₀) := by
      rw [rhsRecordDataGetOrCreate, hrec]
    simp only [run, hpc, underLock, rhsRecordOpen, hplaced]
    rfl
  have h₄ : step s₃ (.run 0) = some s₄ := by
    rw [step_run (s := s₃) h.crashed h.fault]
    simp [run, s₄, s₃, State.goto]
  have hr : s₄.records "rtc" = some r := by
    simp [s₄, s₃, State.goto, rhsRecordPut]
  have h₅ : step s₄ (.run 0) = some s₅ := by
    rw [step_run (s := s₄) h.crashed h.fault]
    simp only [run, s₄, State.goto, Function.update_self]
    exact (waitReady_eq (.inr rfl) hr 0).trans (if_pos rfl)
  have h₆ : step s₅ (.run 0) = some s₆ := by
    rw [step_run (s := s₅) h.crashed h.fault]
    have hpc : s₅.pc 0 = .woken "rtc" 0 := goto_pc_self s₄ 0 _
    have hderef : deref s₅ "rtc" 0 = some r := deref_eq hr
    simp only [run, hpc, readData, hderef]
    rfl
  have hnext : ∀ {mid s' : State}, Reach step ClosesOwn s mid → step mid (.run 0) = some s' →
      Reach step ClosesOwn s s' := fun hmid hs => hmid.next (a := .run 0) trivial hs
  have hcall : Reach step ClosesOwn s s₁ := Reach.start.next (a := .call 0 (.open "rtc")) trivial h₁
  have hreach : Reach step ClosesOwn s s₆ :=
    hnext (hnext (hnext (hnext (hnext hcall h₂) h₃) h₄) h₅) h₆
  refine ⟨s₆, hreach, rfl, goto_pc_self s₅ 0 _, h.crashed, h.fault, ?_, ?_⟩
  · rw [UInt32.ofNat_add]
    exact hr
  · rw [holders_append (s := s) rfl, h.holders, if_pos rfl]

theorem exists_openedTimes (n : ℕ) : ∃ s, Reach step ClosesOwn State.init s ∧ OpenedTimes n s := by
  induction n with
  | zero => exact exists_openedTimes_zero
  | succ n ih =>
      obtain ⟨s, hreach, hs⟩ := ih
      obtain ⟨s', hmore, hs'⟩ := exists_openedTimes_succ hs
      exact ⟨s', hreach.trans hmore, hs'⟩

/-- After `2 ^ 32` opens of one thread the count is `0`. -/
theorem holders_count_wraps : ¬ ∀ s, Reach step ClosesOwn State.init s → ∀ name,
    ((s.records name).elim 0 fun r => r.holdersCount.toNat) = holders s name := by
  intro hall
  obtain ⟨s, hreach, hs⟩ := exists_openedTimes (2 ^ 32)
  have hcount := hall s hreach "rtc"
  rw [hs.records, hs.holders] at hcount
  exact absurd hcount (by decide)

end RhsCore.Record
