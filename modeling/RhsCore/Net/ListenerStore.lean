import Mathlib.Data.List.Forall2
import Mathlib.Logic.Function.Basic
import RhsCore.Lib.ForRange
import RhsCore.Lib.Linked
import RhsCore.Net.Worker

/-!
# The listeners in the heap

`net_listeners.c` as it works: the nodes and their URIs are blocks of the heap, linked by
`next`, and a block that was released cannot be read.  Adding and removing do to the blocks
what the list functions do to the list.  The end of `net_worker` does not: it removes the node
that it stands on, and then asks it for the next.

## Main definitions

* `Node`, `Store` — the blocks.
* `netListenersAdd`, `netListenersRemove`, `netWorkerTeardown` — the source functions.
* `Represents` — the blocks are those of a list.
* `exists_represents` — every list is represented by some blocks.
* `add_refines`, `remove_refines` — the functions on the blocks and those on the list.
* `TearsDown`, `tearsDown_iff` — when the end of `net_worker` does what it is for.
-/

namespace RhsCore.ListenerStore

open NetWorker (NetListener NetListenerType MgEventHandler)

/-! ## The source -/

/-- The address of a block. -/
abbrev Addr := ℕ

/-- The source's `NetListener`, with its pointers. -/
structure Node where
  type : NetListenerType
  uri : Addr
  fn : MgEventHandler
  context : NetWorker.Context
  next : Option Addr
  deriving DecidableEq

/-- `net->listeners`, and the blocks that are allocated; `freed` are the nodes released so
far. -/
structure Store where
  listeners : Option Addr
  node : Addr → Option Node
  chars : Addr → Option String
  freed : List Addr

/-- A block is read that is not allocated, or a loop takes more turns than it is given. -/
inductive Fault
  | released (a : Addr)
  | outOfFuel
  deriving DecidableEq

def Store.read (s : Store) (a : Addr) : Except Fault Node :=
  match s.node a with
  | some n => .ok n
  | none => .error (.released a)

def Store.readChars (s : Store) (a : Addr) : Except Fault String :=
  match s.chars a with
  | some uri => .ok uri
  | none => .error (.released a)

def Store.write (s : Store) (a : Addr) (n : Node) : Store :=
  { s with node := Function.update s.node a (some n) }

def Store.writeChars (s : Store) (a : Addr) (uri : String) : Store :=
  { s with chars := Function.update s.chars a (some uri) }

def Store.free (s : Store) (a : Addr) : Store :=
  { s with node := Function.update s.node a none, freed := s.freed ++ [a] }

def Store.freeChars (s : Store) (a : Addr) : Store :=
  { s with chars := Function.update s.chars a none }

/-- `while (current->next != NULL) current = current->next` -/
def lastFrom : ℕ → Store → Addr → Except Fault Addr
  | 0, _, _ => .error .outOfFuel
  | fuel + 1, s, current => do
      let n ← s.read current
      match n.next with
      | none => .ok current
      | some next => lastFrom fuel s next

/-- The new listener is added to the end of the list. -/
def linkLast (fuel : ℕ) (s : Store) (listener : Addr) : Except Fault Store :=
  match s.listeners with
  | none => .ok { s with listeners := some listener }
  | some head => do
      let current ← lastFrom fuel s head
      let n ← s.read current
      .ok (s.write current { n with next := some listener })

/-- `listener` and `listenerUri` are what `malloc` returns. -/
def netListenersAdd (fuel : ℕ) (s : Store) (type : NetListenerType) (uri : String)
    (fn : MgEventHandler) (context : NetWorker.Context) (listener listenerUri : Addr) :
    Except Fault Store :=
  let s := s.writeChars listenerUri uri
  linkLast fuel (s.write listener ⟨type, listenerUri, fn, context, none⟩) listener

/-- The listener to remove is found at `current`, whose node is `n`. -/
def removeFound (s : Store) (previous : Option Addr) (current : Addr) (n : Node) :
    Except Fault (Bool × Store) := do
  let s ←
    match previous with
    | none => .ok { s with listeners := n.next }
    | some previous => do
        let before ← s.read previous
        .ok (s.write previous { before with next := n.next })
  .ok (true, (s.freeChars n.uri).free current)

/-- The loop of `net_listeners_remove`. -/
def removeFrom : ℕ → Store → Option Addr → Option Addr → Addr → Except Fault (Bool × Store)
  | 0, _, _, _, _ => .error .outOfFuel
  | _ + 1, s, _, none, _ => .ok (false, s)
  | fuel + 1, s, previous, some current, uri => do
      let n ← s.read current
      let currentUri ← s.readChars n.uri
      let wanted ← s.readChars uri
      if currentUri = wanted then removeFound s previous current n
      else removeFrom fuel s (some current) n.next uri

def netListenersRemove (fuel : ℕ) (s : Store) (uri : Addr) : Except Fault (Bool × Store) :=
  removeFrom fuel s none s.listeners uri

/-- The loop at the end of `net_worker`, where `fuel` bounds the loop of each removal too. -/
def teardownFrom (fuel : ℕ) : ℕ → Store → Option Addr → Except Fault Store
  | 0, _, _ => .error .outOfFuel
  | _ + 1, s, none => .ok s
  | turns + 1, s, some listener => do
      let n ← s.read listener
      let (_, s) ← netListenersRemove fuel s n.uri
      -- `listener = listener->next`
      let n ← s.read listener
      teardownFrom fuel turns s n.next

def netWorkerTeardown (fuel : ℕ) (s : Store) : Except Fault Store :=
  teardownFrom fuel fuel s s.listeners

/-! ## What the blocks represent -/

/-- The node is the entry's, and its URI is allocated. -/
structure Entry (chars : Addr → Option String) (x : Addr × Node) (listener : NetListener) :
    Prop where
  type : x.2.type = listener.type
  uri : chars x.2.uri = some listener.uri
  fn : x.2.fn = listener.fn
  context : x.2.context = listener.context

/-- **The store represents the list**: its nodes are those of the list, each with a URI of its
own. -/
structure Represents (s : Store) (nodes : List (Addr × Node)) (listeners : List NetListener) :
    Prop where
  chain : Chain Node.next s.node s.listeners nodes
  entries : List.Forall₂ (Entry s.chars) nodes listeners
  uris : (nodes.map fun x => x.2.uri).Nodup

/-- **The teardown does what it is for**: every node is released once, none is left in the list,
and no released node is read. -/
def TearsDown (fuel : ℕ) (s : Store) (nodes : List (Addr × Node)) : Prop :=
  ∃ s' freed, netWorkerTeardown fuel s = .ok s' ∧ s'.listeners = none ∧
    s'.freed = s.freed ++ freed ∧ freed.Perm (nodes.map Prod.fst)

/-! ## Blocks -/

section Blocks

variable {s : Store} {a : Addr} {n : Node} {uri : String}

theorem read_eq (h : s.node a = some n) : s.read a = .ok n := by
  rw [Store.read, h]

theorem read_released (h : s.node a = none) : s.read a = .error (.released a) := by
  rw [Store.read, h]

theorem readChars_eq (h : s.chars a = some uri) : s.readChars a = .ok uri := by
  rw [Store.readChars, h]

end Blocks

/-- Only the URIs of the nodes count. -/
theorem entries_congr {chars chars' : Addr → Option String} {nodes : List (Addr × Node)}
    {listeners : List NetListener} (h : List.Forall₂ (Entry chars) nodes listeners)
    (hchars : ∀ x ∈ nodes, chars' x.2.uri = chars x.2.uri) :
    List.Forall₂ (Entry chars') nodes listeners := by
  induction h with
  | nil => exact .nil
  | cons hx _ ih =>
      rw [List.forall_mem_cons] at hchars
      exact .cons ⟨hx.type, hchars.1.trans hx.uri, hx.fn, hx.context⟩ (ih hchars.2)

theorem exists_entry {chars : Addr → Option String} {nodes : List (Addr × Node)}
    {listeners : List NetListener} (h : List.Forall₂ (Entry chars) nodes listeners)
    {x : Addr × Node} (hx : x ∈ nodes) : ∃ listener, Entry chars x listener := by
  induction h with
  | nil => cases hx
  | cons hentry _ ih =>
      rcases List.mem_cons.mp hx with rfl | hx
      · exact ⟨_, hentry⟩
      · exact ih hx

/-- Where a node goes on does not show in its entry. -/
theorem entries_relink {chars : Addr → Option String} {before after : List (Addr × Node)}
    {b : Addr} {n : Node} {listeners : List NetListener} (next : Option Addr)
    (h : List.Forall₂ (Entry chars) (before ++ (b, n) :: after) listeners) :
    List.Forall₂ (Entry chars) (before ++ (b, { n with next := next }) :: after) listeners := by
  induction before generalizing listeners with
  | nil =>
      cases h with
      | cons hn hafter => exact .cons ⟨hn.type, hn.uri, hn.fn, hn.context⟩ hafter
  | cons x before ih =>
      cases h with
      | cons hx hrest => exact .cons hx (ih hrest)

/-! ## Adding -/

theorem lastFrom_eq {fuel : ℕ} {s : Store} {head a : Addr} {n : Node}
    {before : List (Addr × Node)}
    (h : Chain Node.next s.node (some head) (before ++ [(a, n)])) (hfuel : before.length < fuel) :
    lastFrom fuel s head = .ok a := by
  induction before generalizing fuel head with
  | nil =>
      obtain ⟨fuel, rfl⟩ := Nat.exists_eq_add_of_lt hfuel
      obtain ⟨hhead, ha, hnext⟩ := Chain.cons_iff.mp h
      obtain rfl := Option.some.inj hhead
      simp [lastFrom, read_eq ha, Chain.nil_iff.mp hnext]
  | cons x before ih =>
      obtain ⟨fuel, rfl⟩ := Nat.exists_eq_add_of_lt hfuel
      obtain ⟨hhead, hx, hrest⟩ := Chain.cons_iff.mp h
      obtain rfl := Option.some.inj hhead
      obtain ⟨next, hnext⟩ := hrest.exists_head
      rw [hnext] at hrest
      simp only [lastFrom, read_eq hx, ok_bind, hnext]
      exact ih hrest (by simp; omega)

/-- **The frame rule**: what is done to other blocks does not change the list. -/
theorem represents_update {s : Store} {nodes : List (Addr × Node)} {listeners : List NetListener}
    (h : Represents s nodes listeners) {a uri : Addr} (ha : a ∉ nodes.map Prod.fst)
    (huri : uri ∉ nodes.map fun x => x.2.uri) (n : Option Node) (chars : Option String)
    (freed : List Addr) :
    Represents { s with
      node := Function.update s.node a n
      chars := Function.update s.chars uri chars
      freed := freed } nodes listeners := by
  refine ⟨h.chain.congr fun x hx => ?_, entries_congr h.entries fun x hx => ?_, h.uris⟩
  · refine Function.update_of_ne (fun heq => ha ?_) _ _
    exact heq ▸ List.mem_map_of_mem hx
  · refine Function.update_of_ne (fun heq => huri ?_) _ _
    exact heq ▸ List.mem_map_of_mem (f := fun x => x.2.uri) hx

/-- Every list is represented by some store. -/
theorem exists_represents (listeners : List NetListener) :
    ∃ s nodes, Represents s nodes listeners ∧ ∀ a, listeners.length ≤ a →
      a ∉ nodes.map Prod.fst ∧ a ∉ nodes.map fun x => x.2.uri := by
  induction listeners with
  | nil => exact ⟨⟨none, fun _ => none, fun _ => none, []⟩, [], ⟨.nil, .nil, .nil⟩, by simp⟩
  | cons listener listeners ih =>
      obtain ⟨s, nodes, h, hfresh⟩ := ih
      let a := listeners.length
      let n : Node := ⟨listener.type, a, listener.fn, listener.context, s.listeners⟩
      obtain ⟨ha, huri⟩ := hfresh a (Nat.le_refl a)
      have hrest := represents_update h ha huri (some n) (some listener.uri) s.freed
      refine ⟨{ s with
        listeners := some a
        node := Function.update s.node a (some n)
        chars := Function.update s.chars a (some listener.uri) }, (a, n) :: nodes, ?_, ?_⟩
      · exact {
          chain := .cons (Function.update_self _ _ _) hrest.chain
          entries := .cons ⟨rfl, Function.update_self _ _ _, rfl, rfl⟩ hrest.entries
          uris := List.nodup_cons.mpr ⟨huri, h.uris⟩ }
      · intro b hb
        have hlt : a < b := hb
        obtain ⟨hb₁, hb₂⟩ := hfresh b (Nat.le_of_lt hlt)
        simp only [List.map_cons, List.mem_cons, not_or]
        exact ⟨⟨Nat.ne_of_gt hlt, hb₁⟩, Nat.ne_of_gt hlt, hb₂⟩

/-- A node that is linked to the end of the list. -/
theorem represents_concat {s : Store} {before : List (Addr × Node)} {b a : Addr} {last n : Node}
    {listeners : List NetListener} {listener : NetListener}
    (h : Represents s (before ++ [(b, last)]) listeners) (ha : s.node a = some n)
    (hnext : n.next = none) (hentry : Entry s.chars (a, n) listener)
    (haddr : a ∉ (before ++ [(b, last)]).map Prod.fst)
    (huri : n.uri ∉ (before ++ [(b, last)]).map fun x => x.2.uri) :
    Represents (s.write b { last with next := some a })
      (before ++ (b, { last with next := some a }) :: [(a, n)]) (listeners ++ [listener]) where
  chain := by
    have hbefore : b ∉ before.map Prod.fst := by
      have hnodup := h.chain.nodup
      rw [List.map_append, List.nodup_append] at hnodup
      exact fun hb => hnodup.2.2 b hb b (by simp) rfl
    have hab : a ≠ b := by
      rintro rfl
      simp at haddr
    refine h.chain.relink (fun x hx => ?_) (Function.update_self _ _ _) ?_
    · refine Function.update_of_ne (fun heq => hbefore ?_) _ _
      exact heq ▸ List.mem_map_of_mem hx
    · exact .cons ((Function.update_of_ne hab _ _).trans ha) (hnext ▸ .nil)
  entries := by
    have hall : List.Forall₂ (Entry s.chars) (before ++ (b, last) :: [(a, n)])
        (listeners ++ [listener]) := by
      simpa using List.rel_append h.entries (.cons hentry .nil)
    exact entries_relink (some a) hall
  uris := by
    have hnodup : ((before ++ [(b, last)]).map (fun x => x.2.uri) ++ [n.uri]).Nodup := by
      refine List.nodup_append.mpr ⟨h.uris, List.nodup_singleton _, fun other hother u hu => ?_⟩
      rw [List.mem_singleton.mp hu]
      rintro rfl
      exact huri hother
    simpa using hnodup

/-- **Adding**: `net_listeners_add` puts the entry at the end of the list. -/
theorem add_refines {fuel : ℕ} {s : Store} {nodes : List (Addr × Node)}
    {listeners : List NetListener} (h : Represents s nodes listeners)
    (hfuel : listeners.length ≤ fuel) (type : NetListenerType) (uri : String)
    (fn : MgEventHandler) (context : NetWorker.Context) {listener listenerUri : Addr}
    (hlistener : s.node listener = none) (huri : s.chars listenerUri = none) :
    ∃ s' nodes', netListenersAdd fuel s type uri fn context listener listenerUri = .ok s' ∧
      Represents s' nodes' (NetWorker.netListenersAdd listeners type uri fn context) := by
  let n : Node := ⟨type, listenerUri, fn, context, none⟩
  let s₁ := (s.writeChars listenerUri uri).write listener n
  have haddr : listener ∉ nodes.map Prod.fst := by
    intro hmem
    obtain ⟨x, hx, rfl⟩ := List.mem_map.mp hmem
    exact Option.some_ne_none _ ((h.chain.get hx).symm.trans hlistener)
  have huris : listenerUri ∉ nodes.map fun x => x.2.uri := by
    intro hmem
    obtain ⟨x, hx, rfl⟩ := List.mem_map.mp hmem
    obtain ⟨entry, hentry⟩ := exists_entry h.entries hx
    exact Option.some_ne_none _ (hentry.uri.symm.trans huri)
  have h₁ : Represents s₁ nodes listeners := represents_update h haddr huris (some n) (some uri) _
  have hn : s₁.node listener = some n := Function.update_self _ _ _
  have hentry : Entry s₁.chars (listener, n)
      { type := type, uri := uri, fn := fn, context := context } :=
    ⟨rfl, Function.update_self _ _ _, rfl, rfl⟩
  rcases List.eq_nil_or_concat' nodes with rfl | ⟨before, ⟨b, last⟩, rfl⟩
  · have hhead : s.listeners = none := Chain.nil_iff.mp h.chain
    obtain rfl := List.forall₂_nil_left_iff.mp h.entries
    refine ⟨{ s₁ with listeners := some listener }, [(listener, n)], ?_, ?_⟩
    · simp [netListenersAdd, linkLast, Store.write, Store.writeChars, hhead, s₁, n]
    · exact ⟨.cons hn .nil, .cons hentry .nil, List.nodup_singleton _⟩
  · obtain ⟨head, hhead⟩ := h.chain.exists_head
    have hchain : Chain Node.next s₁.node (some head) (before ++ [(b, last)]) := hhead ▸ h₁.chain
    have hlen : before.length < fuel := by
      have := h.entries.length_eq
      simp at this
      omega
    refine ⟨_, _, ?_, represents_concat h₁ hn rfl hentry haddr huris⟩
    have hlast : lastFrom fuel s₁ head = .ok b := lastFrom_eq hchain hlen
    have hread : s₁.read b = .ok last := read_eq (hchain.get (x := (b, last)) (by simp))
    have hhead₁ : s₁.listeners = some head := hhead
    change linkLast fuel s₁ listener = _
    simp only [linkLast, hhead₁, hlast, hread, ok_bind]

/-! ## Removing -/

section Remove

variable {fuel : ℕ} {s : Store} {current previous : Option Addr} {a uri : Addr} {n : Node}
  {wanted : String} {nodes tail : List (Addr × Node)} {listeners : List NetListener}

/-- The loop passes the node. -/
def Passes (chars : Addr → Option String) (wanted : String) (x : Addr × Node) : Prop :=
  ∃ other, chars x.2.uri = some other ∧ other ≠ wanted

theorem removeFrom_of_passes (ha : s.node a = some n) (huri : s.chars uri = some wanted)
    (hpasses : Passes s.chars wanted (a, n)) :
    removeFrom (fuel + 1) s previous (some a) uri = removeFrom fuel s (some a) n.next uri := by
  obtain ⟨other, hother, hne⟩ := hpasses
  simp only [removeFrom, read_eq ha, readChars_eq hother, readChars_eq huri, ok_bind, if_neg hne]

theorem removeFrom_found (skip : List (Addr × Node))
    (h : Chain Node.next s.node current (skip ++ (a, n) :: tail))
    (huri : s.chars uri = some wanted) (hskip : ∀ x ∈ skip, Passes s.chars wanted x)
    (ha : s.chars n.uri = some wanted) (hfuel : skip.length < fuel) :
    removeFrom fuel s previous current uri =
      removeFound s (skip.foldl (fun _ x => some x.1) previous) a n := by
  induction skip generalizing fuel current previous with
  | nil =>
      obtain ⟨fuel, rfl⟩ := Nat.exists_eq_add_of_lt hfuel
      obtain ⟨rfl, hread, -⟩ := Chain.cons_iff.mp h
      simp [removeFrom, read_eq hread, readChars_eq ha, readChars_eq huri]
  | cons x skip ih =>
      obtain ⟨fuel, rfl⟩ := Nat.exists_eq_add_of_lt hfuel
      obtain ⟨rfl, hread, hrest⟩ := Chain.cons_iff.mp h
      rw [List.forall_mem_cons] at hskip
      rw [removeFrom_of_passes hread huri hskip.1]
      exact ih hrest hskip.2 (by simp; omega)

theorem removeFrom_notFound (h : Chain Node.next s.node current nodes)
    (huri : s.chars uri = some wanted) (hskip : ∀ x ∈ nodes, Passes s.chars wanted x)
    (hfuel : nodes.length < fuel) : removeFrom fuel s previous current uri = .ok (false, s) := by
  induction nodes generalizing fuel current previous with
  | nil =>
      obtain ⟨fuel, rfl⟩ := Nat.exists_eq_add_of_lt hfuel
      obtain rfl := Chain.nil_iff.mp h
      rfl
  | cons x nodes ih =>
      obtain ⟨fuel, rfl⟩ := Nat.exists_eq_add_of_lt hfuel
      obtain ⟨rfl, hread, hrest⟩ := Chain.cons_iff.mp h
      rw [List.forall_mem_cons] at hskip
      rw [removeFrom_of_passes hread huri hskip.1]
      exact ih hrest hskip.2 (by simp; omega)

/-- The first entry with the URI, where the list has one. -/
theorem entries_split (h : List.Forall₂ (Entry s.chars) nodes listeners) (wanted : String) :
    ((∀ x ∈ nodes, Passes s.chars wanted x) ∧
        NetWorker.netListenersRemove listeners wanted = (false, listeners)) ∨
      ∃ skip a n tail before after, nodes = skip ++ (a, n) :: tail ∧
        (∀ x ∈ skip, Passes s.chars wanted x) ∧ s.chars n.uri = some wanted ∧
        List.Forall₂ (Entry s.chars) (skip ++ tail) (before ++ after) ∧
        NetWorker.netListenersRemove listeners wanted = (true, before ++ after) := by
  induction h with
  | nil => exact .inl ⟨by simp, rfl⟩
  | @cons x listener nodes listeners hx hrest ih =>
      by_cases huri : listener.uri = wanted
      · refine .inr ⟨[], x.1, x.2, nodes, [], listeners, rfl, by simp, huri ▸ hx.uri, hrest, ?_⟩
        simp [NetWorker.netListenersRemove, huri]
      · have hpasses : Passes s.chars wanted x := ⟨listener.uri, hx.uri, huri⟩
        obtain ⟨hall, hremove⟩ | ⟨skip, a, n, tail, before, after, rfl, hskip, ha, hsplit,
          hremove⟩ := ih
        · refine .inl ⟨List.forall_mem_cons.mpr ⟨hpasses, hall⟩, ?_⟩
          simp [NetWorker.netListenersRemove, huri, hremove]
        · refine .inr ⟨x :: skip, a, n, tail, listener :: before, after, rfl,
            List.forall_mem_cons.mpr ⟨hpasses, hskip⟩, ha, .cons hx hsplit, ?_⟩
          simp [NetWorker.netListenersRemove, huri, hremove]

/-- The node before the one that is found goes on to the one after it. -/
theorem represents_unlink {init : List (Addr × Node)} {b : Addr} {before : Node}
    {rest : List NetListener}
    (h : Represents s (init ++ (b, before) :: (a, n) :: tail) listeners)
    (hrest : List.Forall₂ (Entry s.chars) (init ++ (b, before) :: tail) rest) :
    Represents (s.write b { before with next := n.next })
      (init ++ (b, { before with next := n.next }) :: tail) rest where
  chain := by
    have hnodup := h.chain.nodup
    rw [List.map_append, List.map_cons, List.nodup_middle, List.nodup_cons] at hnodup
    have hframe : ∀ x : Addr × Node, x ∈ init ∨ x ∈ tail →
        Function.update s.node b (some { before with next := n.next }) x.1 = s.node x.1 := by
      rintro ⟨c, m⟩ hx
      refine Function.update_of_ne (fun heq => hnodup.1 ?_) _ _
      obtain rfl : c = b := heq
      rcases hx with hx | hx
      · exact List.mem_append_left _ (List.mem_map.mpr ⟨_, hx, rfl⟩)
      · exact List.mem_append_right _ (List.mem_cons_of_mem _ (List.mem_map.mpr ⟨_, hx, rfl⟩))
    have htail : Chain Node.next s.node n.next tail :=
      (Chain.cons_iff.mp (Chain.cons_iff.mp h.chain.suffix).2.2).2.2
    exact h.chain.relink (fun x hx => hframe x (.inl hx)) (Function.update_self _ _ _)
      (htail.congr fun x hx => hframe x (.inr hx))
  entries := entries_relink n.next hrest
  uris := by
    have hsub : List.Sublist ((init ++ (b, before) :: tail).map fun x => x.2.uri)
        ((init ++ (b, before) :: (a, n) :: tail).map fun x => x.2.uri) :=
      (((List.sublist_cons_self _ _).cons_cons _).append_left _).map _
    simpa using h.uris.sublist hsub

/-- The node that is found is taken out of the list, and released with its URI. -/
theorem removeFound_represents (skip : List (Addr × Node)) {rest : List NetListener}
    (h : Represents s (skip ++ (a, n) :: tail) listeners)
    (hrest : List.Forall₂ (Entry s.chars) (skip ++ tail) rest) :
    ∃ s' nodes', removeFound s (skip.foldl (fun _ x => some x.1) none) a n = .ok (true, s') ∧
      Represents s' nodes' rest ∧ s'.node a = none := by
  have haddr := h.chain.nodup
  rw [List.map_append, List.map_cons, List.nodup_middle, List.nodup_cons, ← List.map_append]
    at haddr
  have huris := h.uris
  rw [List.map_append, List.map_cons, List.nodup_middle, List.nodup_cons, ← List.map_append]
    at huris
  rcases List.eq_nil_or_concat' skip with rfl | ⟨init, ⟨b, before⟩, rfl⟩
  · have htail : Represents { s with listeners := n.next } tail rest :=
      ⟨(Chain.cons_iff.mp h.chain).2.2, hrest, huris.2⟩
    exact ⟨_, tail, rfl, represents_update htail haddr.1 huris.1 none none _,
      Function.update_self _ _ _⟩
  · rw [List.append_assoc] at h hrest haddr huris
    have hread : s.read b = .ok before := read_eq (h.chain.get (x := (b, before)) (by simp))
    have hunlinked := represents_unlink h hrest
    refine ⟨((s.write b { before with next := n.next }).freeChars n.uri).free a,
      init ++ (b, { before with next := n.next }) :: tail, ?_,
      represents_update hunlinked ?_ ?_ none none _, Function.update_self _ _ _⟩
    · simp only [List.foldl_append, List.foldl_cons, List.foldl_nil, removeFound, hread, ok_bind]
    · simpa using haddr.1
    · simpa using huris.1

/-- **Removing**: `net_listeners_remove` takes out the first entry with the URI, and says
whether there was one. -/
theorem remove_refines (h : Represents s nodes listeners) (huri : s.chars uri = some wanted)
    (hfuel : listeners.length < fuel) :
    ∃ s' nodes', netListenersRemove fuel s uri =
        .ok ((NetWorker.netListenersRemove listeners wanted).1, s') ∧
      Represents s' nodes' (NetWorker.netListenersRemove listeners wanted).2 := by
  have hlen := h.entries.length_eq
  obtain ⟨hall, hremove⟩ | ⟨skip, a, n, tail, before, after, rfl, hskip, ha, hsplit,
    hremove⟩ := entries_split h.entries wanted
  · rw [hremove]
    exact ⟨s, nodes, removeFrom_notFound h.chain huri hall (hlen ▸ hfuel), h⟩
  · obtain ⟨s', nodes', hfound, hrest, -⟩ := removeFound_represents skip h hsplit
    rw [hremove]
    refine ⟨s', nodes', ?_, hrest⟩
    rw [netListenersRemove, removeFrom_found skip h.chain huri hskip ha ?_, hfound]
    simp at hlen
    omega

end Remove

/-! ## The end of the worker -/

/-- The first turn removes the node that the loop stands on. -/
theorem teardown_cons {fuel : ℕ} {s : Store} {a : Addr} {n : Node} {tail : List (Addr × Node)}
    {listeners : List NetListener} (h : Represents s ((a, n) :: tail) listeners) :
    netWorkerTeardown (fuel + 1) s = .error (.released a) := by
  cases hentries : h.entries with
  | cons hn htail =>
      obtain ⟨s', -, hfound, -, hfreed⟩ :=
        removeFound_represents [] h htail
      obtain ⟨hhead, ha, -⟩ := Chain.cons_iff.mp h.chain
      have hremove : netListenersRemove (fuel + 1) s n.uri = .ok (true, s') := by
        rw [netListenersRemove, removeFrom_found [] h.chain hn.uri (by simp) hn.uri
          (Nat.succ_pos fuel)]
        exact hfound
      simp [netWorkerTeardown, teardownFrom, hhead, read_eq ha, hremove, read_released hfreed]

/-- **The end of the worker**: it does what it is for exactly if no listener is registered.
Otherwise it reads the first node after it has released it. -/
theorem tearsDown_iff {fuel : ℕ} {s : Store} {nodes : List (Addr × Node)}
    {listeners : List NetListener} (h : Represents s nodes listeners)
    (hfuel : listeners.length < fuel) :
    (TearsDown fuel s nodes ↔ listeners = []) ∧
      (listeners ≠ [] →
        ∃ a, s.listeners = some a ∧ netWorkerTeardown fuel s = .error (.released a)) := by
  obtain ⟨fuel, rfl⟩ := Nat.exists_eq_add_of_lt hfuel
  cases nodes with
  | nil =>
      obtain rfl := List.forall₂_nil_left_iff.mp h.entries
      have hhead : s.listeners = none := Chain.nil_iff.mp h.chain
      have hdone : TearsDown (([] : List NetListener).length + fuel + 1) s [] := by
        refine ⟨s, [], ?_, hhead, (List.append_nil _).symm, .nil⟩
        simp [netWorkerTeardown, teardownFrom, hhead]
      exact ⟨iff_of_true hdone rfl, fun hne => absurd rfl hne⟩
  | cons x nodes =>
      have hne : listeners ≠ [] := by
        rintro rfl
        cases h.entries
      have hfault : netWorkerTeardown (listeners.length + fuel + 1) s = .error (.released x.1) :=
        teardown_cons h
      refine ⟨iff_of_false ?_ hne, fun _ => ⟨x.1, (Chain.cons_iff.mp h.chain).1, hfault⟩⟩
      rintro ⟨s', freed, hok, -⟩
      rw [hfault] at hok
      cases hok

/-! ### Two listeners of one URI -/

def httpNode : Node := ⟨.http, 10, 0, 0, some 2⟩

def tcpNode : Node := ⟨.tcp, 20, 1, 0, none⟩

def sameUri : Store where
  listeners := some 1
  node a := if a = 1 then some httpNode else if a = 2 then some tcpNode else none
  chars a := if a = 10 ∨ a = 20 then some "http://0.0.0.0:80" else none
  freed := []

def sameUriListeners : List NetListener :=
  [⟨.http, "http://0.0.0.0:80", 0, 0⟩, ⟨.tcp, "http://0.0.0.0:80", 1, 0⟩]

theorem sameUri_represents :
    Represents sameUri [(1, httpNode), (2, tcpNode)] sameUriListeners where
  chain := .cons rfl (.cons rfl .nil)
  entries := .cons ⟨rfl, rfl, rfl, rfl⟩ (.cons ⟨rfl, rfl, rfl, rfl⟩ .nil)
  uris := by decide

theorem tearsDown_iff_sameUri :
    (TearsDown 3 sameUri [(1, httpNode), (2, tcpNode)] ↔ sameUriListeners = []) ∧
      (sameUriListeners ≠ [] →
        ∃ a, sameUri.listeners = some a ∧ netWorkerTeardown 3 sameUri = .error (.released a)) :=
  tearsDown_iff sameUri_represents (by decide)

/-- Their teardown reads the first node after its release, however many turns it may take. -/
theorem sameUri_read_released (fuel : ℕ) :
    netWorkerTeardown (fuel + 1) sameUri = .error (.released 1) :=
  teardown_cons sameUri_represents

theorem not_tearsDown_sameUri :
    ¬ ∃ fuel, TearsDown fuel sameUri [(1, httpNode), (2, tcpNode)] := by
  rintro ⟨fuel, s', freed, hok, -⟩
  cases fuel with
  | zero => cases hok
  | succ fuel =>
      rw [sameUri_read_released fuel] at hok
      cases hok

end RhsCore.ListenerStore
