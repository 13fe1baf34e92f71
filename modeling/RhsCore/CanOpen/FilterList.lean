import Mathlib.Data.List.Induction
import Mathlib.Logic.Function.Basic
import RhsCore.Lib.Linked
import RhsCore.Lib.Transition

/-!
# The list of shown CAN identifiers

`can_open_cli.c` keeps a linked list of identifiers, and `can_rx_irq_cb` walks it when a
frame is received, to decide whether the frame is shown.  The command line works in a
thread without a lock, so that a frame can be received between any two of its steps; the
interrupt itself is not interrupted by the thread, and only reads.

A step below is what the thread does up to and with its next write to the list or to the
heap.  `malloc` returns any block that is not in use, or none.

## Main definitions

* `Heap`, `Pc`, `State`, `step` — the blocks, and the thread that executes the commands.
* `shown` — the walk of `can_rx_irq_cb`.
* `listed` — the list that the log tells of.
* `Holds` — the blocks in use are those of a list and the one in hand.
* `filter_list_safe` — between any two steps the walk is safe, and shows the list.
-/

namespace RhsCore.CanOpenCli

/-! ## The heap -/

/-- The address of a block. -/
abbrev Addr := ℕ

/-- The source's `FilterId`; `none` is a field that was not written since `malloc`. -/
structure FilterId where
  id : Option UInt16
  next : Option (Option Addr)
  deriving DecidableEq

/-- `filter_list`, and the blocks in use. -/
structure Heap where
  filterList : Option Addr
  block : Addr → Option FilterId

/-- A block that is not in use is read, written or released, a field is read that was not
written, or a loop takes more turns than it is given. -/
inductive Fault
  | released (a : Addr)
  | uninitialised (a : Addr)
  | outOfFuel
  deriving DecidableEq

/-- A `FilterId**`: `&filter_list`, or the `next` of a block. -/
inductive Slot
  | filterList
  | next (a : Addr)
  deriving DecidableEq

namespace Heap

variable (h : Heap)

def id (a : Addr) : Except Fault UInt16 :=
  match h.block a with
  | none => .error (.released a)
  | some n => n.id.elim (.error (.uninitialised a)) .ok

def next (a : Addr) : Except Fault (Option Addr) :=
  match h.block a with
  | none => .error (.released a)
  | some n => n.next.elim (.error (.uninitialised a)) .ok

def setBlock (a : Addr) (n : Option FilterId) : Heap :=
  { h with block := Function.update h.block a n }

/-- The block is written as `f` says. -/
def write (a : Addr) (f : FilterId → FilterId) : Except Fault Heap :=
  match h.block a with
  | none => .error (.released a)
  | some n => .ok (h.setBlock a (some (f n)))

def free (a : Addr) : Except Fault Heap :=
  match h.block a with
  | none => .error (.released a)
  | some _ => .ok (h.setBlock a none)

def load : Slot → Except Fault (Option Addr)
  | .filterList => .ok h.filterList
  | .next a => h.next a

def store (p : Option Addr) : Slot → Except Fault Heap
  | .filterList => .ok { h with filterList := p }
  | .next a => h.write a fun n => { n with next := some p }

end Heap

/-! ## The commands -/

/-- What `can_open_cli` does with the list. -/
inductive Command
  | add (id : UInt16)
  | remove (id : UInt16)
  | clear
  | list
  deriving DecidableEq

/-- The lines that the commands log. -/
inductive Line
  | failed
  | added (id : UInt16)
  | removed (id : UInt16)
  | notFound (id : UInt16)
  | cleared
  | header
  | listed (id : UInt16)
  deriving DecidableEq

/-- Where the thread is. -/
inductive Pc
  /-- Outside the commands. -/
  | idle
  /-- Before `malloc`. -/
  | add (id : UInt16)
  /-- Before `new_node->id = id`. -/
  | addId (new : Addr) (id : UInt16)
  /-- Before `new_node->next = filter_list`. -/
  | addNext (new : Addr) (id : UInt16)
  /-- Before `filter_list = new_node`. -/
  | addLink (new : Addr) (id : UInt16)
  /-- Before the test of the loop of `remove_filter_id`. -/
  | remove (current : Slot) (id : UInt16)
  /-- Before `*current = (*current)->next`. -/
  | unlink (current : Slot) (toDelete : Addr) (id : UInt16)
  /-- Before `free(to_delete)` in `remove_filter_id`. -/
  | removeFree (toDelete : Addr) (id : UInt16)
  /-- Before the test of the loop of `clear_filter_list`. -/
  | clear
  /-- Before `free(to_delete)` in `clear_filter_list`. -/
  | clearFree (toDelete : Addr)
  /-- Before the test of the loop of `list_filter_ids`. -/
  | list (current : Option Addr)
  /-- Before the last line of a command is logged. -/
  | report (line : Line)
  /-- The behaviour is undefined. -/
  | fault (f : Fault)
  deriving DecidableEq

/-- The heap, the thread, and what was logged. -/
structure State where
  heap : Heap
  pc : Pc
  log : List Line

def State.init : State where
  heap := { filterList := none, block := fun _ => none }
  pc := .idle
  log := []

/-- What the thread writes, where it goes on, and what it logs. -/
abbrev Effect := Except Fault (Heap × Pc × List Line)

/-- `add_filter_id` with what `malloc` returns. -/
def addFilterId (malloc : Option Addr) (h : Heap) (id : UInt16) : Effect :=
  match malloc with
  | none => .ok (h, .report .failed, [])
  | some new => .ok (h.setBlock new (some ⟨none, none⟩), .addId new id, [])

/-- One turn of the loop of `remove_filter_id`, up to its writes. -/
def removeFilterId (h : Heap) (current : Slot) (id : UInt16) : Effect := do
  match ← h.load current with
  | none => .ok (h, .report (.notFound id), [])
  | some a =>
      if (← h.id a) = id then .ok (h, .unlink current a id, [])
      else .ok (h, .remove (.next a) id, [])

/-- One turn of the loop of `clear_filter_list`, up to `free`. -/
def clearFilterList (h : Heap) : Effect :=
  match h.filterList with
  | none => .ok (h, .report .cleared, [])
  | some toDelete => do
      let next ← h.next toDelete
      .ok ({ h with filterList := next }, .clearFree toDelete, [])

/-- One turn of the loop of `list_filter_ids`. -/
def listFilterIds (h : Heap) : Option Addr → Effect
  | none => .ok (h, .idle, [])
  | some current => do
      let id ← h.id current
      let next ← h.next current
      .ok (h, .list next, [.listed id])

/-- The thread goes on. -/
def thread (malloc : Option Addr) (h : Heap) : Pc → Option Effect
  | .idle => none
  | .add id => some (addFilterId malloc h id)
  | .addId new id => some do
      let h ← h.write new fun n => { n with id := some id }
      .ok (h, .addNext new id, [])
  | .addNext new id => some do
      let h ← h.write new fun n => { n with next := some h.filterList }
      .ok (h, .addLink new id, [])
  | .addLink new id => some (.ok ({ h with filterList := some new }, .report (.added id), []))
  | .remove current id => some (removeFilterId h current id)
  | .unlink current toDelete id => some do
      let next ← h.next toDelete
      let h ← h.store next current
      .ok (h, .removeFree toDelete id, [])
  | .removeFree toDelete id => some do
      let h ← h.free toDelete
      .ok (h, .report (.removed id), [])
  | .clear => some (clearFilterList h)
  | .clearFree toDelete => some do
      let h ← h.free toDelete
      .ok (h, .clear, [])
  | .list current => some (listFilterIds h current)
  | .report line => some (.ok (h, .idle, [line]))
  | .fault _ => none

/-- Where a command begins, and what it logs first. -/
def Command.entry (h : Heap) : Command → Pc × List Line
  | .add id => (.add id, [])
  | .remove id => (.remove .filterList id, [])
  | .clear => (.clear, [])
  | .list => (.list h.filterList, [.header])

inductive Action
  | call (c : Command)
  | thread (malloc : Option Addr)
  deriving DecidableEq

/-- What the thread did. -/
def State.after (s : State) : Effect → State
  | .error f => { s with pc := .fault f }
  | .ok (h, pc, lines) => { heap := h, pc := pc, log := s.log ++ lines }

/-- A block that is not in use, or none. -/
def Heap.Fresh (h : Heap) (malloc : Option Addr) : Prop :=
  ∀ new ∈ malloc, h.block new = none

instance (h : Heap) (malloc : Option Addr) : Decidable (h.Fresh malloc) :=
  inferInstanceAs (Decidable (∀ new ∈ malloc, h.block new = none))

def step (s : State) : Action → Option State
  | .call c =>
      if s.pc = .idle then
        some { s with pc := (c.entry s.heap).1, log := s.log ++ (c.entry s.heap).2 }
      else none
  | .thread malloc =>
      if s.heap.Fresh malloc then (thread malloc s.heap s.pc).map s.after else none

/-! ## The interrupt -/

/-- The loop of `can_rx_irq_cb`: whether the frame is shown. -/
def shown : ℕ → Heap → Option Addr → UInt32 → Except Fault Bool
  | 0, _, _, _ => .error .outOfFuel
  | _ + 1, _, none, _ => .ok false
  | fuel + 1, h, some current, frameId => do
      let id ← h.id current
      if frameId = id.toUInt32 then .ok true
      else
        let next ← h.next current
        shown fuel h next frameId

/-! ## What the list is -/

/-- What a line tells of the list. -/
def Line.apply (ids : List UInt16) : Line → List UInt16
  | .added id => id :: ids
  | .removed id => ids.erase id
  | .cleared => []
  | _ => ids

/-- **The list that the log tells of.** -/
def listed (log : List Line) : List UInt16 := log.foldl Line.apply []

/-- A node of the list, all of whose fields were written. -/
def Heap.node (h : Heap) (a : Addr) : Option (UInt16 × Option Addr) := do
  let n ← h.block a
  let id ← n.id
  let next ← n.next
  some (id, next)

/-- The nodes of a list, each with its address. -/
abbrev Nodes := List (Addr × UInt16 × Option Addr)

def Nodes.ids (nodes : Nodes) : List UInt16 := nodes.map fun x => x.2.1

/-- The block that the thread holds outside the list. -/
def Pc.inHand : Pc → Option Addr
  | .addId new _ | .addNext new _ | .addLink new _ => some new
  | .removeFree toDelete _ | .clearFree toDelete => some toDelete
  | _ => none

/-- **The blocks in use are those of the list and the one in hand.** -/
structure Holds (h : Heap) (nodes : Nodes) (inHand : Option Addr) : Prop where
  chain : Chain Prod.snd h.node h.filterList nodes
  inUse : ∀ a, (h.block a).isSome ↔ a ∈ nodes.map Prod.fst ∨ inHand = some a
  apart : ∀ a, inHand = some a → a ∉ nodes.map Prod.fst

/-- The list beside the one that the log tells of. -/
def Pc.Agrees (log : List Line) (ids : List UInt16) : Pc → Prop
  | .removeFree _ id => ids = (listed log).erase id
  | .clear | .clearFree _ => ids <:+ listed log
  | .list none => ids = listed log ∧ ∃ start, log = start ++ .header :: ids.map .listed
  | .report line => ids = line.apply (listed log)
  | .fault _ => False
  | _ => ids = listed log

/-! ## Blocks -/

section Blocks

variable {h : Heap} {a b : Addr} {n : Option FilterId} {id : UInt16} {next p : Option Addr}

@[simp] theorem filterList_setBlock : (h.setBlock a n).filterList = h.filterList := rfl

@[simp] theorem block_setBlock_self : (h.setBlock a n).block a = n := by
  simp [Heap.setBlock]

@[simp] theorem block_setBlock_of_ne (hne : b ≠ a) : (h.setBlock a n).block b = h.block b := by
  simp [Heap.setBlock, hne]

@[simp] theorem node_setBlock_of_ne (hne : b ≠ a) : (h.setBlock a n).node b = h.node b := by
  simp [Heap.node, hne]

@[simp] theorem node_with_filterList : { h with filterList := p }.node = h.node := rfl

theorem node_eq_some_iff :
    h.node a = some (id, next) ↔ h.block a = some ⟨some id, some next⟩ := by
  rcases hb : h.block a with _ | ⟨_ | i, _ | q⟩ <;> simp [Heap.node, hb]

theorem block_of_node (hn : h.node a = some (id, next)) :
    h.block a = some ⟨some id, some next⟩ :=
  node_eq_some_iff.mp hn

theorem id_of_node (hn : h.node a = some (id, next)) : h.id a = .ok id := by
  simp [Heap.id, block_of_node hn]

theorem next_of_node (hn : h.node a = some (id, next)) : h.next a = .ok next := by
  simp [Heap.next, block_of_node hn]

end Blocks

/-! ## The list in the heap -/

section Lists

variable {h : Heap} {a : Addr} {n : Option FilterId} {nodes before after after' : Nodes}
  {id : UInt16} {next p inHand : Option Addr}

@[simp] theorem ids_nil : Nodes.ids [] = [] := rfl

@[simp] theorem ids_cons (x : Addr × UInt16 × Option Addr) :
    Nodes.ids (x :: nodes) = x.2.1 :: Nodes.ids nodes := rfl

@[simp] theorem ids_append :
    Nodes.ids (before ++ after) = Nodes.ids before ++ Nodes.ids after :=
  List.map_append

/-- A chain is there whatever is done to a block that is not in it. -/
theorem chain_setBlock (hchain : Chain Prod.snd h.node p nodes) (ha : a ∉ nodes.map Prod.fst) :
    Chain Prod.snd (h.setBlock a n).node p nodes := by
  apply hchain.congr
  intro x hx
  apply node_setBlock_of_ne
  intro heq
  exact ha (heq ▸ List.mem_map_of_mem hx)

/-- **The walk shows what is in the list.** -/
theorem shown_eq (hchain : Chain Prod.snd h.node p nodes) {fuel : ℕ} (hfuel : nodes.length < fuel)
    (frameId : UInt32) :
    shown fuel h p frameId = .ok (decide (∃ id ∈ nodes.ids, frameId = id.toUInt32)) := by
  induction nodes generalizing p fuel with
  | nil =>
      obtain ⟨fuel, rfl⟩ := Nat.exists_eq_add_of_lt hfuel
      simp [shown, Chain.nil_iff.mp hchain]
  | cons x nodes ih =>
      obtain ⟨fuel, rfl⟩ := Nat.exists_eq_add_of_lt hfuel
      obtain ⟨a, id, next⟩ := x
      obtain ⟨rfl, hnode, hrest⟩ := Chain.cons_iff.mp hchain
      have hfuel' : nodes.length < nodes.length + 1 + fuel := by omega
      have hids := ih hrest hfuel'
      simp only [List.length_cons, shown, id_of_node hnode, next_of_node hnode, ids_cons]
      by_cases hid : frameId = id.toUInt32
      · simp [Bind.bind, Except.bind, hid]
      · simp [Bind.bind, Except.bind, hid, hids]

/-- The pointer to what comes after these nodes. -/
def slotAfter (before : Nodes) : Slot :=
  before.getLast?.elim .filterList fun x => .next x.1

@[simp] theorem slotAfter_nil : slotAfter [] = .filterList := rfl

@[simp] theorem slotAfter_concat (x : Addr × UInt16 × Option Addr) :
    slotAfter (before ++ [x]) = .next x.1 := by
  simp [slotAfter]

/-- What the pointer points to. -/
theorem load_slotAfter (hchain : Chain Prod.snd h.node h.filterList (before ++ after)) :
    ∃ p, h.load (slotAfter before) = .ok p ∧ Chain Prod.snd h.node p after := by
  induction before using List.reverseRecOn with
  | nil => exact ⟨h.filterList, rfl, hchain⟩
  | append_singleton before x =>
      obtain ⟨a, id, next⟩ := x
      rw [List.append_assoc] at hchain
      have hx := (Chain.cons_iff.mp hchain.suffix).2
      refine ⟨next, ?_, hx.2⟩
      rw [slotAfter_concat]
      exact next_of_node hx.1

/-- The block that is in hand. -/
theorem Holds.isSome_inHand (hh : Holds h nodes (some a)) : (h.block a).isSome :=
  (hh.inUse a).mpr (.inr rfl)

/-- **Relinking**: the pointer behind the first nodes is made to point to a later node. -/
theorem store_slotAfter (hchain : Chain Prod.snd h.node h.filterList (before ++ after'))
    (hafter : Chain Prod.snd h.node next after) (hsub : after ⊆ after') :
    ∃ h' before', h.store next (slotAfter before) = .ok h' ∧
      Chain Prod.snd h'.node h'.filterList (before' ++ after) ∧
      Nodes.ids before' = Nodes.ids before ∧ before'.map Prod.fst = before.map Prod.fst ∧
      ∀ b, (h'.block b).isSome = (h.block b).isSome := by
  induction before using List.reverseRecOn with
  | nil => exact ⟨{ h with filterList := next }, [], rfl, hafter, rfl, rfl, fun _ => rfl⟩
  | append_singleton before x =>
      obtain ⟨b, i, q⟩ := x
      have hnodup := hchain.nodup
      rw [List.append_assoc] at hchain
      have hb := block_of_node (Chain.cons_iff.mp hchain.suffix).2.1
      simp only [List.append_assoc, List.map_append, List.map_cons,
        List.singleton_append, List.nodup_append, List.nodup_cons] at hnodup
      have hbefore : b ∉ before.map Prod.fst := by
        intro hmem
        exact hnodup.2.2 b hmem b List.mem_cons_self rfl
      have hout : b ∉ after.map Prod.fst := by
        intro hmem
        exact hnodup.2.1.1 (List.map_subset Prod.fst hsub hmem)
      refine ⟨h.setBlock b (some ⟨some i, some next⟩), before ++ [(b, i, next)], ?_, ?_, ?_, ?_, ?_⟩
      · simp [Heap.store, Heap.write, hb]
      · rw [List.append_assoc]
        apply hchain.relink
        · intro y hy
          apply node_setBlock_of_ne
          intro heq
          exact hbefore (heq ▸ List.mem_map_of_mem hy)
        · exact node_eq_some_iff.mpr block_setBlock_self
        · exact chain_setBlock hafter hout
      · simp
      · simp
      · intro c
        by_cases hc : c = b
        · subst hc
          simp [hb]
        · simp [hc]

/-- **A node is taken out of the list**: it is in hand then. -/
theorem Holds.unlink (hh : Holds h (before ++ (a, id, next) :: after) none) :
    ∃ h' before', h.store next (slotAfter before) = .ok h' ∧
      Holds h' (before' ++ after) (some a) ∧ Nodes.ids before' = Nodes.ids before := by
  have hrest := (Chain.cons_iff.mp hh.chain.suffix).2.2
  obtain ⟨h', before', hstore, hchain, hids, haddr, hblock⟩ :=
    store_slotAfter hh.chain hrest (List.subset_cons_self _ _)
  refine ⟨h', before', hstore, ⟨hchain, ?_, ?_⟩, hids⟩
  · intro b
    have hinUse := hh.inUse b
    simp only [List.map_append, List.map_cons, List.mem_append, List.mem_cons] at hinUse
    simp only [hblock, List.map_append, haddr, List.mem_append, Option.some.injEq]
    tauto
  · intro b hb
    have hnodup := hh.chain.nodup
    simp only [List.map_append, List.map_cons, List.nodup_append, List.nodup_cons] at hnodup
    simp only [List.map_append, haddr, List.mem_append, not_or, ← Option.some.inj hb]
    exact ⟨fun hbefore => hnodup.2.2 a hbefore a List.mem_cons_self rfl, hnodup.2.1.1⟩

/-- The block in hand is released. -/
theorem Holds.free (hh : Holds h nodes (some a)) :
    ∃ h', h.free a = .ok h' ∧ Holds h' nodes none := by
  obtain ⟨n, hn⟩ := Option.isSome_iff_exists.mp hh.isSome_inHand
  refine ⟨h.setBlock a none, by simp [Heap.free, hn], ?_, ?_, by simp⟩
  · exact chain_setBlock hh.chain (hh.apart a rfl)
  · intro b
    by_cases hb : b = a
    · subst hb
      simpa using hh.apart b rfl
    · have hinUse := hh.inUse b
      simp only [Option.some.injEq, Ne.symm hb, or_false] at hinUse
      simpa [hb] using hinUse

/-- A field of the block in hand is written. -/
theorem Holds.write (hh : Holds h nodes (some a)) (f : FilterId → FilterId) :
    ∃ n, h.block a = some n ∧ h.write a f = .ok (h.setBlock a (some (f n))) ∧
      Holds (h.setBlock a (some (f n))) nodes (some a) := by
  obtain ⟨n, hn⟩ := Option.isSome_iff_exists.mp hh.isSome_inHand
  refine ⟨n, hn, by simp [Heap.write, hn], ?_, ?_, hh.apart⟩
  · exact chain_setBlock hh.chain (hh.apart a rfl)
  · intro b
    by_cases hb : b = a
    · subst hb
      simp
    · simpa [hb] using hh.inUse b

/-- A new block is in hand. -/
theorem Holds.malloc (hh : Holds h nodes none) (ha : h.block a = none) (n : FilterId) :
    Holds (h.setBlock a (some n)) nodes (some a) := by
  have hout : a ∉ nodes.map Prod.fst := by
    intro hmem
    have hsome := (hh.inUse a).mpr (.inl hmem)
    simp [ha] at hsome
  refine ⟨chain_setBlock hh.chain hout, ?_, ?_⟩
  · intro b
    by_cases hb : b = a
    · subst hb
      simp
    · simpa [hb, Ne.symm hb] using hh.inUse b
  · intro b hb
    exact Option.some.inj hb ▸ hout

/-- **The block in hand becomes the first of the list.** -/
theorem Holds.link (hh : Holds h nodes (some a))
    (hn : h.block a = some ⟨some id, some h.filterList⟩) :
    Holds { h with filterList := some a } ((a, id, h.filterList) :: nodes) none := by
  refine ⟨.cons (node_eq_some_iff.mpr hn) hh.chain, ?_, by simp⟩
  intro b
  have hinUse := hh.inUse b
  rw [Option.some.injEq] at hinUse
  simp only [List.map_cons, List.mem_cons]
  tauto


end Lists


/-! ## The thread -/

/-- What the thread knows of the list where it is. -/
def Pc.At (h : Heap) (nodes : Nodes) (log : List Line) : Pc → Prop
  | .idle | .add _ | .addId _ _ => nodes.ids = listed log
  | .addNext new id =>
      nodes.ids = listed log ∧ ∃ n, h.block new = some n ∧ n.id = some id
  | .addLink new id =>
      nodes.ids = listed log ∧ h.block new = some ⟨some id, some h.filterList⟩
  | .remove current id =>
      nodes.ids = listed log ∧ ∃ before after, nodes = before ++ after ∧
        current = slotAfter before ∧ id ∉ Nodes.ids before
  | .unlink current toDelete id =>
      nodes.ids = listed log ∧ ∃ before next after,
        nodes = before ++ (toDelete, id, next) :: after ∧
        current = slotAfter before ∧ id ∉ Nodes.ids before
  | .removeFree _ id => nodes.ids = (listed log).erase id
  | .clear | .clearFree _ => nodes.ids <:+ listed log
  | .list current =>
      nodes.ids = listed log ∧ ∃ before after start, nodes = before ++ after ∧
        Chain Prod.snd h.node current after ∧
        log = start ++ .header :: (Nodes.ids before).map .listed
  | .report line => nodes.ids = line.apply (listed log)
  | .fault _ => False

/-- The invariant. -/
def Good (s : State) : Prop :=
  ∃ nodes, Holds s.heap nodes s.pc.inHand ∧ s.pc.At s.heap nodes s.log

theorem listed_append (log lines : List Line) :
    listed (log ++ lines) = lines.foldl Line.apply (listed log) :=
  List.foldl_append

@[simp] theorem listed_concat (log : List Line) (line : Line) :
    listed (log ++ [line]) = line.apply (listed log) :=
  listed_append log [line]

theorem good_init : Good State.init :=
  ⟨[], ⟨.nil, by simp [State.init, Pc.inHand], by simp [State.init, Pc.inHand]⟩, rfl⟩

variable {s s' : State} {h : Heap} {log : List Line}

/-- A command begins with the list that the log tells of. -/
theorem Good.call (hs : Good s) (hidle : s.pc = .idle) (c : Command) :
    Good { s with pc := (c.entry s.heap).1, log := s.log ++ (c.entry s.heap).2 } := by
  obtain ⟨nodes, hholds, hat⟩ := hs
  rw [hidle] at hholds hat
  have hids : nodes.ids = listed s.log := hat
  cases c with
  | add id =>
      refine ⟨nodes, hholds, ?_⟩
      simp only [Command.entry, List.append_nil]
      exact hids
  | remove id =>
      refine ⟨nodes, hholds, ?_⟩
      simp only [Command.entry, List.append_nil]
      exact ⟨hids, [], nodes, rfl, rfl, List.not_mem_nil⟩
  | clear =>
      refine ⟨nodes, hholds, ?_⟩
      simp only [Command.entry, List.append_nil]
      show nodes.ids <:+ listed s.log
      exact hids ▸ List.suffix_refl _
  | list =>
      refine ⟨nodes, hholds, ?_⟩
      simp only [Command.entry]
      exact ⟨hids.trans (listed_concat s.log .header).symm, [], nodes, s.log, rfl, hholds.chain,
        rfl⟩

/-- What an effect leaves is good. -/
def Keeps (log : List Line) (e : Effect) : Prop :=
  ∃ h pc lines nodes, e = .ok (h, pc, lines) ∧ Holds h nodes pc.inHand ∧
    pc.At h nodes (log ++ lines)

theorem Keeps.good {e : Effect} (he : Keeps s.log e) : Good (s.after e) := by
  obtain ⟨h, pc, lines, nodes, rfl, hholds, hat⟩ := he
  exact ⟨nodes, hholds, hat⟩

variable {nodes : Nodes} {a : Addr} {id : UInt16}

theorem keeps_addFilterId (hh : Holds h nodes none) (hids : nodes.ids = listed log)
    {malloc : Option Addr} (hfresh : h.Fresh malloc) :
    Keeps log (addFilterId malloc h id) := by
  cases malloc with
  | none =>
      refine ⟨h, _, _, nodes, rfl, hh, ?_⟩
      rw [List.append_nil]
      exact hids
  | some new =>
      refine ⟨_, _, _, nodes, rfl, hh.malloc (hfresh new rfl) _, ?_⟩
      rw [List.append_nil]
      exact hids

theorem keeps_removeFilterId (hh : Holds h nodes none) {current : Slot}
    (hat : (Pc.remove current id).At h nodes log) : Keeps log (removeFilterId h current id) := by
  obtain ⟨hids, before, after, rfl, rfl, hbefore⟩ := hat
  obtain ⟨p, hload, hchain⟩ := load_slotAfter hh.chain
  cases after with
  | nil =>
      obtain rfl := Chain.nil_iff.mp hchain
      refine ⟨h, .report (.notFound id), [], before ++ [], ?_, hh, ?_⟩
      · simp [removeFilterId, hload, Bind.bind, Except.bind]
      · rw [List.append_nil log]
        exact hids
  | cons x after =>
      obtain ⟨a, i, next⟩ := x
      obtain ⟨rfl, hnode, -⟩ := Chain.cons_iff.mp hchain
      by_cases hid : i = id
      · subst hid
        refine ⟨h, .unlink (slotAfter before) a i, [], _, ?_, hh, ?_⟩
        · simp [removeFilterId, hload, id_of_node hnode, Bind.bind, Except.bind]
        · rw [List.append_nil]
          exact ⟨hids, before, next, after, rfl, rfl, hbefore⟩
      · refine ⟨h, .remove (.next a) id, [], before ++ (a, i, next) :: after, ?_, hh, ?_⟩
        · simp [removeFilterId, hload, id_of_node hnode, hid, Bind.bind, Except.bind]
        · rw [List.append_nil]
          refine ⟨hids, before ++ [(a, i, next)], after, by simp, by simp, ?_⟩
          simpa using ⟨hbefore, Ne.symm hid⟩

theorem keeps_clearFilterList (hh : Holds h nodes none) (hids : nodes.ids <:+ listed log) :
    Keeps log (clearFilterList h) := by
  cases nodes with
  | nil =>
      refine ⟨h, .report .cleared, [], [], ?_, hh, rfl⟩
      simp [clearFilterList, Chain.nil_iff.mp hh.chain]
  | cons x nodes =>
      obtain ⟨a, i, next⟩ := x
      obtain ⟨hhead, hnode, -⟩ := Chain.cons_iff.mp hh.chain
      have hfirst : Holds h ([] ++ (a, i, next) :: nodes) none := hh
      obtain ⟨h', before', hstore, hholds, hbefore⟩ := hfirst.unlink
      obtain rfl : before' = [] := by simpa [Nodes.ids] using hbefore
      obtain rfl := Except.ok.inj hstore
      refine ⟨_, .clearFree a, [], nodes, ?_, hholds, ?_⟩
      · simp [clearFilterList, hhead, next_of_node hnode, Bind.bind, Except.bind]
      · rw [List.append_nil]
        exact (List.suffix_cons _ _).trans hids

theorem keeps_listFilterIds (hh : Holds h nodes none) {current : Option Addr}
    (hat : (Pc.list current).At h nodes log) : Keeps log (listFilterIds h current) := by
  obtain ⟨hids, before, after, start, rfl, hchain, rfl⟩ := hat
  cases after with
  | nil =>
      obtain rfl := Chain.nil_iff.mp hchain
      refine ⟨h, .idle, [], _, rfl, hh, ?_⟩
      rw [List.append_nil (start ++ _)]
      exact hids
  | cons x after =>
      obtain ⟨a, i, next⟩ := x
      obtain ⟨rfl, hnode, hrest⟩ := Chain.cons_iff.mp hchain
      refine ⟨h, .list next, [.listed i], before ++ (a, i, next) :: after, ?_, hh, ?_⟩
      · simp [listFilterIds, id_of_node hnode, next_of_node hnode, Bind.bind, Except.bind]
      · have hsame := listed_concat (start ++ .header :: (Nodes.ids before).map .listed) (.listed i)
        exact ⟨hids.trans hsame.symm, before ++ [(a, i, next)], after, start, by simp, hrest,
          by simp⟩

/-- **The thread keeps the list** and does nothing undefined. -/
theorem keeps_thread {pc : Pc} (hh : Holds h nodes pc.inHand) (hat : pc.At h nodes log)
    {malloc : Option Addr} (hfresh : h.Fresh malloc) {e : Effect}
    (he : thread malloc h pc = some e) : Keeps log e := by
  cases pc with
  | idle => cases he
  | add id =>
      obtain rfl := Option.some.inj he
      exact keeps_addFilterId hh hat hfresh
  | addId new id =>
      obtain rfl := Option.some.inj he
      obtain ⟨n, hn, hwrite, hholds⟩ := hh.write fun n => { n with id := some id }
      refine ⟨_, .addNext new id, [], nodes, by simp [hwrite, Bind.bind, Except.bind], hholds, ?_⟩
      rw [List.append_nil]
      exact ⟨hat, _, block_setBlock_self, rfl⟩
  | addNext new id =>
      obtain rfl := Option.some.inj he
      obtain ⟨hids, n, hn, hid⟩ := hat
      obtain ⟨m, hm, hwrite, hholds⟩ :=
        hh.write fun n => { n with next := some h.filterList }
      refine ⟨_, .addLink new id, [], nodes, by simp [hwrite, Bind.bind, Except.bind], hholds, ?_⟩
      rw [List.append_nil]
      refine ⟨hids, ?_⟩
      rw [hn] at hm
      simp [← Option.some.inj hm, hid]
  | addLink new id =>
      obtain rfl := Option.some.inj he
      obtain ⟨hids, hn⟩ := hat
      refine ⟨_, .report (.added id), [], _, rfl, hh.link hn, ?_⟩
      rw [List.append_nil]
      exact congrArg (id :: ·) hids
  | remove current id =>
      obtain rfl := Option.some.inj he
      exact keeps_removeFilterId hh hat
  | unlink current toDelete id =>
      obtain rfl := Option.some.inj he
      obtain ⟨hids, before, next, after, rfl, rfl, hbefore⟩ := hat
      have hnode := (Chain.cons_iff.mp hh.chain.suffix).2.1
      obtain ⟨h', before', hstore, hholds, hsame⟩ := Holds.unlink hh
      refine ⟨h', .removeFree toDelete id, [], before' ++ after, ?_, hholds, ?_⟩
      · simp [next_of_node hnode, hstore, Bind.bind, Except.bind]
      · rw [List.append_nil]
        show Nodes.ids (before' ++ after) = (listed log).erase id
        rw [← hids, ids_append, ids_append, ids_cons, hsame,
          List.erase_append_right _ hbefore, List.erase_cons_head]
  | removeFree toDelete id =>
      obtain rfl := Option.some.inj he
      obtain ⟨h', hfree, hholds⟩ := Holds.free hh
      refine ⟨h', .report (.removed id), [], nodes, ?_, hholds, ?_⟩
      · simp [hfree, Bind.bind, Except.bind]
      · rw [List.append_nil]
        exact hat
  | clear =>
      obtain rfl := Option.some.inj he
      exact keeps_clearFilterList hh hat
  | clearFree toDelete =>
      obtain rfl := Option.some.inj he
      obtain ⟨h', hfree, hholds⟩ := Holds.free hh
      refine ⟨h', .clear, [], nodes, ?_, hholds, ?_⟩
      · simp [hfree, Bind.bind, Except.bind]
      · rw [List.append_nil]
        exact hat
  | list current =>
      obtain rfl := Option.some.inj he
      exact keeps_listFilterIds hh hat
  | report line =>
      obtain rfl := Option.some.inj he
      exact ⟨h, .idle, [line], nodes, rfl, hh, Eq.trans hat (listed_concat log line).symm⟩
  | fault f => exact hat.elim

theorem good_step {a : Action} (hs : Good s) (hstep : step s a = some s') : Good s' := by
  cases a with
  | call c =>
      simp only [step] at hstep
      split at hstep
      · rename_i hidle
        exact Option.some.inj hstep ▸ hs.call hidle c
      · cases hstep
  | thread malloc =>
      simp only [step] at hstep
      split at hstep
      · rename_i hfresh
        obtain ⟨e, he, rfl⟩ := Option.map_eq_some_iff.mp hstep
        obtain ⟨nodes, hholds, hat⟩ := hs
        exact (keeps_thread hholds hat hfresh he).good
      · cases hstep

theorem good_of_reach (hreach : Reach step (fun _ _ => True) State.init s) : Good s :=
  hreach.invariant good_init fun _ _ _ hs _ hstep => good_step hs hstep

theorem Pc.At.agrees {pc : Pc} (hat : pc.At h nodes log) : pc.Agrees log nodes.ids := by
  cases pc with
  | list current =>
      obtain ⟨hids, before, after, start, rfl, hchain, hlog⟩ := hat
      cases current with
      | some a => exact hids
      | none =>
          have hafter : after = [] := by
            cases hchain
            rfl
          subst hafter
          exact ⟨hids, start, by simpa using hlog⟩
  | addNext new id => exact hat.1
  | addLink new id => exact hat.1
  | remove current id => exact hat.1
  | unlink current toDelete id => exact hat.1
  | _ => exact hat

/-- **The list can be walked at any time.**  Between any two steps of the thread, in whatever
order commands come and whatever `malloc` returns, the list is the one that the log tells of,
but for the command under way; a frame is shown exactly if its identifier is in it; and each
block in use is in the list or in the thread's hand. -/
theorem filter_list_safe (hreach : Reach step (fun _ _ => True) State.init s) :
    ∃ nodes : Nodes, Holds s.heap nodes s.pc.inHand ∧ s.pc.Agrees s.log nodes.ids ∧
      ∀ fuel frameId, nodes.length < fuel →
        shown fuel s.heap s.heap.filterList frameId =
          .ok (decide (∃ id ∈ nodes.ids, frameId = id.toUInt32)) := by
  obtain ⟨nodes, hholds, hat⟩ := good_of_reach hreach
  exact ⟨nodes, hholds, hat.agrees, fun _ frameId hfuel => shown_eq hholds.chain hfuel frameId⟩

/-- An identifier is added and removed again, and `free` is still to come. -/
theorem one_id_safe : ∃ s, Reach step (fun _ _ => True) State.init s ∧
    s.pc = .removeFree 0 0x123 ∧ s.log = [.added 0x123] ∧
    shown 1 s.heap s.heap.filterList 0x123 = .ok false := by
  have hreach : Reach step (fun _ _ => True) State.init _ :=
    @Reach.of_runActions _ _ _ _ _ [.call (.add 0x123), .thread (some 0), .thread none,
      .thread none, .thread none, .thread none, .call (.remove 0x123), .thread none,
      .thread none] _ _ rfl
  obtain ⟨nodes, -, hids, hshown⟩ := filter_list_safe hreach
  have hempty : nodes = [] := List.map_eq_nil_iff.mp hids
  subst hempty
  exact ⟨_, hreach, rfl, rfl, by simpa using hshown 1 0x123 (by decide)⟩

end RhsCore.CanOpenCli
