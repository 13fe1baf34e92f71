import RhsCore.Lib.Transition
import RhsCore.Net.Worker
import Mathlib.Data.List.Basic
import Mathlib.Data.List.Perm.Basic

/-!
# The listeners and their connections

The worker's list is to say which listening connections are open.  It does as long as
every listen succeeds, and a reset finds nothing else on the port of its URI than the entry
it removes: the connections are closed by their port, the entry is removed by its URI, and
an entry is added even if Mongoose could not listen.

## Main definitions

* `opened` — what the open connections were opened for.
* `Matched` — they are the entries of the list.
* `Matching` — the messages that keep it so.
* `matched_iff` — they do, and no others.
-/

namespace RhsCore.NetWorker

/-! ## Two ways to take entries out of a list -/

section Removal

variable {α : Type} {p q : α → Bool}

theorem find?_append_eraseP_perm (q : α → Bool) (l : List α) :
    ((l.find? q).toList ++ l.eraseP q).Perm l := by
  induction l with
  | nil => exact .nil
  | cons a l ih =>
      by_cases ha : q a = true
      · rw [List.find?_cons_of_pos ha, List.eraseP_cons_of_pos ha]
        exact .refl _
      · rw [List.find?_cons_of_neg ha, List.eraseP_cons_of_neg ha]
        exact List.perm_middle.trans (ih.cons a)

/-- To drop all entries of one kind, or the first of another, is the same exactly if the
first of the one are the entries of the other. -/
theorem filter_not_perm_eraseP_iff (l : List α) :
    (l.filter fun a => !p a).Perm (l.eraseP q) ↔ l.filter p = (l.find? q).toList := by
  have hall : ((l.filter p) ++ l.filter fun a => !p a).Perm
      ((l.find? q).toList ++ l.eraseP q) :=
    (List.filter_append_perm p l).trans (find?_append_eraseP_perm q l).symm
  have hlist : (l.filter p).Perm (l.find? q).toList ↔ l.filter p = (l.find? q).toList := by
    cases l.find? q with
    | none => exact List.perm_nil
    | some a => exact List.perm_singleton
  rw [← hlist]
  constructor
  · intro hrest
    exact (List.perm_append_right_iff _).mp (hall.trans (hrest.symm.append_left _))
  · intro hfirst
    exact (List.perm_append_left_iff _).mp (hall.trans (hfirst.symm.append_right _))

end Removal

/-! ## What is open -/

variable {m : Mongoose} {s s' : Net} {uri : String}

/-- What the open connections were opened for. -/
def opened (s : Net) : List NetListener := s.conns.filterMap fun c => c.listener

/-- The port, as a connection for the URI has it. -/
def locPort (m : Mongoose) (uri : String) : UInt16 := m.mgHtons (m.mgUrlPort uri)

/-- A connection is on the port of its listener, and none is closing. -/
structure InOrder (m : Mongoose) (s : Net) : Prop where
  port : ∀ c ∈ s.conns, ∀ l, c.listener = some l → c.locPort = locPort m l.uri
  notClosing : ∀ c ∈ s.conns, c.isClosing = false

theorem mgMgrPoll_eq (h : InOrder m s) : mgMgrPoll s = s := by
  have hfilter : (s.conns.filter fun c => !c.isClosing) = s.conns := by
    rw [List.filter_eq_self]
    intro c hc
    rw [h.notClosing c hc]
    rfl
  rw [mgMgrPoll, hfilter]

theorem inOrder_mgListen (h : InOrder m s) (listens : Bool) (l : NetListener) :
    InOrder m (mgListen m listens l s) := by
  cases listens with
  | false => exact h
  | true =>
      constructor
      · intro c hc l' hl
        rcases List.mem_cons.mp hc with rfl | hc
        · cases hl
          rfl
        · exact h.port c hc l' hl
      · intro c hc
        rcases List.mem_cons.mp hc with rfl | hc
        · rfl
        · exact h.notClosing c hc

/-! ## Closing and removing -/

/-- To mark the connections on a port and poll leaves the others. -/
theorem filter_map_closing (port : UInt16) {conns : List MgConnection}
    (h : ∀ c ∈ conns, c.isClosing = false) :
    ((conns.map fun c => if c.locPort = port then { c with isClosing := true } else c).filter
        fun c => !c.isClosing) = conns.filter fun c => !decide (c.locPort = port) := by
  induction conns with
  | nil => rfl
  | cons c conns ih =>
      have hc : c.isClosing = false := h c List.mem_cons_self
      have hrest := ih fun c hc => h c (List.mem_cons_of_mem _ hc)
      rw [List.map_cons]
      by_cases hport : c.locPort = port
      · rw [if_pos hport, List.filter_cons_of_neg (by simp),
          List.filter_cons_of_neg (by simp [hport])]
        exact hrest
      · rw [if_neg hport, List.filter_cons_of_pos (by simp [hc]),
          List.filter_cons_of_pos (by simp [hport]), hrest]

theorem netListenersRemove_snd (listeners : List NetListener) (uri : String) :
    (netListenersRemove listeners uri).2 = listeners.eraseP fun l => l.uri = uri := by
  induction listeners with
  | nil => rfl
  | cons l listeners ih =>
      by_cases hl : l.uri = uri
      · simp [netListenersRemove, hl]
      · simp [netListenersRemove, hl, ih]

theorem netWorker_rstTcp (h : InOrder m s) (listens : Bool) (uri : String) :
    netWorker m listens s (.rstTcp uri) =
      if m.mgAton uri then
        { conns := s.conns.filter fun c => !decide (c.locPort = locPort m uri),
          listeners := s.listeners.eraseP fun l => l.uri = uri }
      else s := by
  simp only [netWorker, mgMgrPoll_eq h]
  split
  · rw [mgMgrPoll, filter_map_closing _ h.notClosing, netListenersRemove_snd]
    rfl
  · rfl

/-- Which of the open connections a reset leaves. -/
theorem filterMap_filter_port (h : InOrder m s) (port : UInt16) :
    ((s.conns.filter fun c => !decide (c.locPort = port)).filterMap fun c => c.listener) =
      (opened s).filter fun l => !decide (locPort m l.uri = port) := by
  rw [opened, List.filterMap_filter, List.filter_filterMap]
  refine List.filterMap_congr fun c hc => ?_
  cases hl : c.listener with
  | none => simp
  | some l => simp [h.port c hc l hl, Option.filter]

/-! ## The worker's runs -/

/-- A message, and whether Mongoose can open a connection when it is processed. -/
abbrev Turn := Bool × NetApiEventMessage

def step (m : Mongoose) (s : Net) (a : Turn) : Option Net := some (netWorker m a.1 s a.2)

theorem inOrder_netWorker (h : InOrder m s) (listens : Bool) (msg : NetApiEventMessage) :
    InOrder m (netWorker m listens s msg) := by
  cases msg with
  | setHttp uri fn context =>
      simp only [netWorker, mgMgrPoll_eq h]
      exact { inOrder_mgListen h listens _ with }
  | setTcp uri fn context =>
      simp only [netWorker, mgMgrPoll_eq h]
      exact { inOrder_mgListen h listens _ with }
  | rstTcp uri =>
      rw [netWorker_rstTcp h]
      split
      · exact ⟨fun c hc => h.port c (List.mem_of_mem_filter hc),
          fun c hc => h.notClosing c (List.mem_of_mem_filter hc)⟩
      · exact h

theorem inOrder_init (m : Mongoose) (mdns : Option UInt16) : InOrder m (Net.init mdns) := by
  cases mdns with
  | none => exact ⟨nofun, nofun⟩
  | some port =>
      constructor
      · intro c hc l hl
        cases List.mem_singleton.mp hc
        cases hl
      · intro c hc
        cases List.mem_singleton.mp hc
        rfl

/-- The open connections are those of the entries of the list. -/
def Matched (s : Net) : Prop := (opened s).Perm s.listeners

/-- The messages that keep it so: Mongoose can listen, and on the port of a reset there is
the entry the reset removes, and no other. -/
def Matching (m : Mongoose) (s : Net) : Turn → Prop
  | (listens, .setHttp _ _ _) | (listens, .setTcp _ _ _) => listens = true
  | (_, .rstTcp uri) => m.mgAton uri = true →
      (s.listeners.filter fun l => locPort m l.uri = locPort m uri) =
        (s.listeners.find? fun l => l.uri = uri).toList

/-- An entry is added whether or not there is a connection for it. -/
theorem matched_add_iff (h : Matched s) (listens : Bool) (l : NetListener) :
    Matched { mgListen m listens l s with
      listeners := (mgListen m listens l s).listeners ++ [l] } ↔ listens = true := by
  cases listens with
  | true => exact iff_of_true ((h.cons l).trans (List.perm_append_singleton l _).symm) rfl
  | false =>
      refine iff_of_false (fun hperm => ?_) Bool.false_ne_true
      have hlength := (h.symm.trans hperm).length_eq
      rw [List.length_append] at hlength
      exact absurd hlength (Nat.ne_of_lt (Nat.lt_succ_self _))

theorem matched_rstTcp_iff (hin : InOrder m s) (h : Matched s) (listens : Bool) (uri : String) :
    Matched (netWorker m listens s (.rstTcp uri)) ↔ Matching m s (listens, .rstTcp uri) := by
  rw [netWorker_rstTcp hin]
  split
  · rename_i haton
    have hopened : (opened s).filter (fun l => !decide (locPort m l.uri = locPort m uri)) |>.Perm
        (s.listeners.filter fun l => !decide (locPort m l.uri = locPort m uri)) := h.filter _
    rw [Matched, opened, filterMap_filter_port hin]
    constructor
    · intro hperm _
      exact (filter_not_perm_eraseP_iff _).mp (hopened.symm.trans hperm)
    · intro hmatch
      exact hopened.trans ((filter_not_perm_eraseP_iff _).mpr (hmatch haton))
  · rename_i haton
    exact iff_of_true h fun htrue => absurd htrue haton

theorem matched_step_iff (hin : InOrder m s) (h : Matched s) {a : Turn}
    (hs : step m s a = some s') : Matched s' ↔ Matching m s a := by
  cases hs
  obtain ⟨listens, msg⟩ := a
  cases msg with
  | setHttp uri fn context =>
      simp only [netWorker, mgMgrPoll_eq hin]
      exact matched_add_iff h listens _
  | setTcp uri fn context =>
      simp only [netWorker, mgMgrPoll_eq hin]
      exact matched_add_iff h listens _
  | rstTcp uri => exact matched_rstTcp_iff hin h listens uri

/-- **The list says what is open** in every state of a run exactly if every listen of the
run succeeds, and no reset meets an entry on its port but the one it removes. -/
theorem matched_iff (m : Mongoose) (mdns : Option UInt16) (run : List Turn) :
    Always (step m) Matched (Net.init mdns) run ↔
      Each (step m) (Matching m) (Net.init mdns) run := by
  apply always_iff_each (J := InOrder m)
  · intro s a s' h hs
    cases hs
    exact inOrder_netWorker h _ _
  · intro s a s' hin h hs
    exact matched_step_iff hin h hs
  · exact inOrder_init m mdns
  · cases mdns with
    | none => exact .nil
    | some _ => exact .nil

/-! ## Three runs -/

/-- Mongoose, as far as URLs of port 502 go. -/
def port502 : Mongoose where
  mgUrlPort := fun _ => 502
  mgHtons := fun x => x <<< 8 ||| x >>> 8
  mgAton := fun _ => true

/-- Mongoose cannot listen. -/
def failedRun : List Turn := [(false, .setTcp "tcp://0.0.0.0:502" 1 0)]

/-- There are two listeners on a port, and one is reset. -/
def sharedPortRun : List Turn :=
  [(true, .setTcp "tcp://0.0.0.0:502" 1 0), (true, .setTcp "tcp://192.168.1.2:502" 2 0),
    (true, .rstTcp "tcp://0.0.0.0:502")]

theorem listeners_drift : ¬ Always (step port502) Matched (Net.init none) failedRun ∧
    ¬ Always (step port502) Matched (Net.init none) sharedPortRun := by
  constructor
  · intro hall
    have hlast := hall.last rfl
    exact absurd hlast.length_eq (by decide)
  · intro hall
    have hlast := hall.last rfl
    exact absurd hlast.length_eq (by decide)

end RhsCore.NetWorker
