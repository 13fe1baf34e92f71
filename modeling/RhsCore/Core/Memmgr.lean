import Mathlib.Algebra.Group.Nat.Defs
import Mathlib.Data.List.Basic
import Mathlib.Data.Nat.Notation
import Mathlib.Logic.Function.Basic

/-!
# Memory management

`core/memmgr.c`: `realloc` and `calloc` over the heap of the kernel.  The kernel is not part
of the repository: where it puts a block, what is in the block, and whether it can allocate
one, is a parameter.

## Main definitions

* `Heap`, `PortHeap` — allocated blocks, and the kernel's allocation.
* `realloc`, `calloc` — the functions of the source.
* `Call.Contract` — what the C library promises for them.
* `Call.Within` — the calls that keep it.
* `contract_iff` — they do, and no others.
-/

namespace RhsCore.Memmgr

/-- A pointer; 0 is `NULL`. -/
abbrev Ptr := ℕ

/-- The allocated blocks, with their bytes. -/
structure Heap where
  blocks : Ptr → Option (List UInt8)
  /-- How often bytes behind a block were read, and bytes at `NULL` written. -/
  overreads : ℕ
  nullWrites : ℕ

/-- The kernel: the block `pvPortMalloc` finds, with the bytes that happen to be in it, if it
finds one; the heap after `vPortFree`; and the bytes behind a block. -/
structure PortHeap where
  pvPortMalloc : Heap → UInt32 → Option (Ptr × List UInt8)
  vPortFree : Heap → Ptr → Heap
  behind : Heap → Ptr → ℕ → UInt8

/-- What the source relies on: a block is not in use, large enough, and in a memory of
32-bit addresses; a block that is freed is gone, and nothing else is. -/
structure PortHeap.Lawful (port : PortHeap) : Prop where
  nonnull : ∀ h size p bytes, port.pvPortMalloc h size = some (p, bytes) → p ≠ 0
  fresh : ∀ h size p bytes, port.pvPortMalloc h size = some (p, bytes) → h.blocks p = none
  large : ∀ h size p bytes, port.pvPortMalloc h size = some (p, bytes) →
    size.toNat ≤ bytes.length
  addressable : ∀ h size p bytes, port.pvPortMalloc h size = some (p, bytes) →
    bytes.length < 2 ^ 32
  free : ∀ h ptr, ptr ≠ 0 →
    port.vPortFree h ptr = { h with blocks := Function.update h.blocks ptr none }

/-! ## The functions -/

/-- `malloc`. -/
def malloc (port : PortHeap) (h : Heap) (size : UInt32) : Ptr × Heap :=
  match port.pvPortMalloc h size with
  | none => (0, h)
  | some (p, bytes) => (p, { h with blocks := Function.update h.blocks p (some bytes) })

/-- Byte `i` from the start of a block. -/
def byteAt (port : PortHeap) (h : Heap) (ptr : Ptr) (i : ℕ) : UInt8 :=
  ((h.blocks ptr).getD []).getD i (port.behind h ptr i)

/-- `memcpy(p, ptr, size)` between two blocks. -/
def memcpy (port : PortHeap) (h : Heap) (p ptr : Ptr) (size : UInt32) : Heap where
  blocks := Function.update h.blocks p ((h.blocks p).map fun bytes =>
    (List.range size.toNat).map (byteAt port h ptr) ++ bytes.drop size.toNat)
  overreads := h.overreads + if ((h.blocks ptr).getD []).length < size.toNat then 1 else 0
  nullWrites := h.nullWrites + if p = 0 then 1 else 0

/-- `realloc`. -/
def realloc (port : PortHeap) (h : Heap) (ptr : Ptr) (size : UInt32) : Ptr × Heap :=
  if size = 0 then (0, port.vPortFree h ptr)
  else
    let (p, h) := malloc port h size
    if ptr ≠ 0 then (p, port.vPortFree (memcpy port h p ptr size) ptr) else (p, h)

/-- `memset(p, 0, size)`. -/
def memsetZero (h : Heap) (p : Ptr) (size : UInt32) : Heap :=
  { h with
    blocks := Function.update h.blocks p ((h.blocks p).map fun bytes =>
      List.replicate size.toNat 0 ++ bytes.drop size.toNat) }

/-- `calloc`; the product is of 32 bits. -/
def calloc (port : PortHeap) (h : Heap) (nmemb size : UInt32) : Ptr × Heap :=
  let (p, h) := malloc port h (nmemb * size)
  if p ≠ 0 then (p, memsetZero h p (nmemb * size)) else (p, h)

/-! ## What they promise -/

/-- `realloc` with a size, or `calloc`. -/
inductive Call
  | realloc (ptr : Ptr) (size : UInt32)
  | calloc (nmemb size : UInt32)

/-- The block is allocated, or there is none; a size of zero frees it. -/
def Call.Valid (h : Heap) : Call → Prop
  | .realloc ptr size => (ptr ≠ 0 → ∃ old, h.blocks ptr = some old) ∧ size ≠ 0
  | .calloc _ _ => True

/-- The contract of the C library. -/
def Call.Contract (port : PortHeap) (h : Heap) : Call → Prop
  | .realloc ptr size =>
      let (p, h') := Memmgr.realloc port h ptr size
      h'.overreads = h.overreads ∧
        ((p = 0 ∧ h'.blocks ptr = h.blocks ptr) ∨
          ∃ new, p ≠ 0 ∧ h'.blocks p = some new ∧ size.toNat ≤ new.length ∧
            ∀ old, ptr ≠ 0 → h.blocks ptr = some old →
              new.take (min old.length size.toNat) = old.take (min old.length size.toNat))
  | .calloc nmemb size =>
      let (p, h') := Memmgr.calloc port h nmemb size
      p = 0 ∨ ∃ new, h'.blocks p = some new ∧ nmemb.toNat * size.toNat ≤ new.length ∧
        ∀ i < nmemb.toNat * size.toNat, new[i]? = some 0

/-- `realloc` allocates a first block, or finds one that is no larger than the old one; the
product of `calloc` does not wrap, or cannot be allocated as it is. -/
def Call.Within (port : PortHeap) (h : Heap) : Call → Prop
  | .realloc ptr size => ptr = 0 ∨
      (port.pvPortMalloc h size).isSome ∧ ∀ old, h.blocks ptr = some old → size.toNat ≤ old.length
  | .calloc nmemb size =>
      port.pvPortMalloc h (nmemb * size) = none ∨ nmemb.toNat * size.toNat < 2 ^ 32

/-! ## When they keep it -/

variable {port : PortHeap} {h : Heap} {ptr p : Ptr} {size nmemb : UInt32}
  {old bytes : List UInt8}

theorem malloc_none (hp : port.pvPortMalloc h size = none) : malloc port h size = (0, h) := by
  rw [malloc, hp]

theorem malloc_some (hp : port.pvPortMalloc h size = some (p, bytes)) :
    malloc port h size = (p, { h with blocks := Function.update h.blocks p (some bytes) }) := by
  rw [malloc, hp]

/-- What is copied from a block that is long enough. -/
theorem map_byteAt (hold : h.blocks ptr = some old) {n : ℕ} (hn : n ≤ old.length) :
    (List.range n).map (byteAt port h ptr) = old.take n := by
  refine List.ext_getElem (by simp [hn]) fun i hi hi' => ?_
  have hlt : i < old.length := by
    rw [List.length_map, List.length_range] at hi
    exact Nat.lt_of_lt_of_le hi hn
  rw [List.getElem_map, List.getElem_range, List.getElem_take, byteAt, hold, Option.getD_some,
    List.getD_eq_getElem?_getD, List.getElem?_eq_getElem hlt, Option.getD_some]

/-- A first block is allocated. -/
theorem realloc_null (hport : port.Lawful) (hsize : size ≠ 0) :
    (Call.realloc 0 size).Contract port h := by
  rw [Call.Contract, realloc, if_neg hsize]
  cases hp : port.pvPortMalloc h size with
  | none =>
      rw [malloc_none hp]
      exact ⟨rfl, .inl ⟨rfl, rfl⟩⟩
  | some block =>
      obtain ⟨p, bytes⟩ := block
      rw [malloc_some hp]
      refine ⟨rfl, .inr ⟨bytes, hport.nonnull h size p bytes hp, Function.update_self ..,
        hport.large h size p bytes hp, fun _ hne => absurd rfl hne⟩⟩

/-- The old block is lost when there is no new one. -/
theorem realloc_fails (hport : port.Lawful) (hsize : size ≠ 0) (hptr : ptr ≠ 0)
    (hold : h.blocks ptr = some old) (hp : port.pvPortMalloc h size = none) :
    ¬ (Call.realloc ptr size).Contract port h := by
  rw [Call.Contract, realloc, if_neg hsize, malloc_none hp]
  simp only [if_pos hptr, hport.free _ ptr hptr]
  rintro ⟨-, ⟨-, hkept⟩ | ⟨new, hnull, -⟩⟩
  · rw [Function.update_self, hold] at hkept
    cases hkept
  · exact hnull rfl

/-- The heap after a block has moved: the new block begins with what was read from the old
one, which is free. -/
def moved (port : PortHeap) (h : Heap) (ptr p : Ptr) (size : UInt32) (old bytes : List UInt8) :
    Heap where
  blocks := Function.update
    (Function.update h.blocks p (some ((List.range size.toNat).map
      (byteAt port { h with blocks := Function.update h.blocks p (some bytes) } ptr) ++
        bytes.drop size.toNat))) ptr none
  overreads := h.overreads + if old.length < size.toNat then 1 else 0
  nullWrites := h.nullWrites

theorem realloc_moves (hport : port.Lawful) (hsize : size ≠ 0) (hptr : ptr ≠ 0)
    (hold : h.blocks ptr = some old) (hp : port.pvPortMalloc h size = some (p, bytes)) :
    realloc port h ptr size = (p, moved port h ptr p size old bytes) := by
  have hne : ptr ≠ p := by
    intro heq
    rw [heq, hport.fresh h size p bytes hp] at hold
    cases hold
  have hnull : p ≠ 0 := hport.nonnull h size p bytes hp
  rw [realloc, if_neg hsize, malloc_some hp]
  simp only [if_pos hptr, hport.free _ ptr hptr, memcpy, Function.update_self,
    Function.update_of_ne hne, hold, Option.map_some, Option.getD_some, Function.update_idem,
    if_neg hnull, Nat.add_zero, moved]

/-- A block that moves is read past its end exactly when it grows. -/
theorem realloc_moves_iff (hport : port.Lawful) (hsize : size ≠ 0) (hptr : ptr ≠ 0)
    (hold : h.blocks ptr = some old) (hp : port.pvPortMalloc h size = some (p, bytes)) :
    (Call.realloc ptr size).Contract port h ↔ size.toNat ≤ old.length := by
  have hne : p ≠ ptr := by
    intro heq
    rw [← heq, hport.fresh h size p bytes hp] at hold
    cases hold
  rw [Call.Contract, realloc_moves hport hsize hptr hold hp]
  constructor
  · intro hcontract
    by_contra hgrows
    have hread : h.overreads + 1 = h.overreads := by
      simpa [moved, Nat.lt_of_not_le hgrows] using hcontract.1
    exact absurd hread (Nat.succ_ne_self _)
  · intro hle
    have hread : ∀ h' : Heap, h'.blocks ptr = some old →
        (List.range size.toNat).map (byteAt port h' ptr) = old.take size.toNat :=
      fun h' hold' => map_byteAt hold' hle
    have hlarge := hport.large h size p bytes hp
    refine ⟨by simp [moved, Nat.not_lt_of_le hle], .inr
      ⟨old.take size.toNat ++ bytes.drop size.toNat, hport.nonnull h size p bytes hp, ?_, ?_, ?_⟩⟩
    · have hkept : Function.update h.blocks p (some bytes) ptr = some old := by
        rw [Function.update_of_ne hne.symm, hold]
      simp only [moved, Function.update_of_ne hne, Function.update_self]
      rw [hread _ hkept]
    · rw [List.length_append, List.length_take, List.length_drop]
      omega
    · intro old' _ hold'
      rw [hold, Option.some.injEq] at hold'
      subst hold'
      rw [Nat.min_eq_right hle, List.take_append_of_le_length (by simp [hle]), List.take_take,
        Nat.min_self]

/-- The block `calloc` returns. -/
theorem calloc_some (hport : port.Lawful)
    (hp : port.pvPortMalloc h (nmemb * size) = some (p, bytes)) :
    (calloc port h nmemb size).1 = p ∧ (calloc port h nmemb size).2.blocks p =
      some (List.replicate (nmemb * size).toNat 0 ++ bytes.drop (nmemb * size).toNat) := by
  rw [calloc, malloc_some hp]
  simp [hport.nonnull h _ p bytes hp, memsetZero]

theorem calloc_iff (hport : port.Lawful) (h : Heap) (nmemb size : UInt32) :
    (Call.calloc nmemb size).Contract port h ↔ (Call.calloc nmemb size).Within port h := by
  have hproduct : (nmemb * size).toNat = nmemb.toNat * size.toNat % 2 ^ 32 :=
    UInt32.toNat_mul nmemb size
  rw [Call.Contract, Call.Within]
  cases hp : port.pvPortMalloc h (nmemb * size) with
  | none =>
      rw [calloc, malloc_none hp]
      simp
  | some block =>
      obtain ⟨p, bytes⟩ := block
      obtain ⟨hfst, hblock⟩ := calloc_some hport hp
      have hlarge := hport.large h _ p bytes hp
      have haddr := hport.addressable h _ p bytes hp
      simp only [hfst, hblock, hport.nonnull h _ p bytes hp, false_or, reduceCtorEq]
      constructor
      · rintro ⟨new, hnew, hlen, -⟩
        rw [Option.some.injEq] at hnew
        -- the block is as long as what was asked for, and the memory holds no longer one
        rw [← hnew, List.length_append, List.length_replicate, List.length_drop] at hlen
        omega
      · intro hfits
        rw [Nat.mod_eq_of_lt hfits] at hproduct
        refine ⟨_, rfl, ?_, ?_⟩
        · rw [List.length_append, List.length_replicate, hproduct]
          omega
        · intro i hi
          rw [List.getElem?_append_left (by rwa [List.length_replicate, hproduct]),
            List.getElem?_replicate_of_lt (by rwa [hproduct])]

/-- **What the allocator keeps**: the contract holds exactly for a `realloc` without an old
block, or to a new one that is not larger, and for a `calloc` whose product does not wrap or
that fails. -/
theorem contract_iff (hport : port.Lawful) {call : Call} (hcall : call.Valid h) :
    call.Contract port h ↔ call.Within port h := by
  cases call with
  | calloc nmemb size => exact calloc_iff hport h nmemb size
  | realloc ptr size =>
      obtain ⟨hblock, hsize⟩ := hcall
      by_cases hptr : ptr = 0
      · subst hptr
        exact iff_of_true (realloc_null hport hsize) (.inl rfl)
      · obtain ⟨old, hold⟩ := hblock hptr
        cases hp : port.pvPortMalloc h size with
        | none =>
            refine iff_of_false (realloc_fails hport hsize hptr hold hp) ?_
            simp [Call.Within, hptr, hp]
        | some block =>
            obtain ⟨p, bytes⟩ := block
            rw [realloc_moves_iff hport hsize hptr hold hp]
            simp [Call.Within, hptr, hp, hold]

/-- A kernel that has room for one block. -/
def oneBlock : PortHeap where
  pvPortMalloc h size :=
    if h.blocks 4096 = none then some (4096, List.replicate size.toNat 0) else none
  vPortFree h ptr :=
    if ptr = 0 then h else { h with blocks := Function.update h.blocks ptr none }
  behind _ _ _ := 0

theorem lawful_oneBlock : oneBlock.Lawful := by
  have hfound : ∀ h size p bytes, oneBlock.pvPortMalloc h size = some (p, bytes) →
      h.blocks 4096 = none ∧ p = 4096 ∧ bytes = List.replicate size.toNat 0 := by
    intro h size p bytes hp
    simp only [oneBlock] at hp
    split at hp
    · rename_i hfree
      cases hp
      exact ⟨hfree, rfl, rfl⟩
    · cases hp
  constructor
  · intro h size p bytes hp
    rw [(hfound h size p bytes hp).2.1]
    decide
  · intro h size p bytes hp
    obtain ⟨hfree, hp, -⟩ := hfound h size p bytes hp
    rw [hp, hfree]
  · intro h size p bytes hp
    rw [(hfound h size p bytes hp).2.2]
    simp
  · intro h size p bytes hp
    rw [(hfound h size p bytes hp).2.2, List.length_replicate]
    exact size.toNat_lt
  · intro h ptr hptr
    exact if_neg hptr

/-- A hundred bytes of 66, as in the unit test. -/
def testHeap : Heap where
  blocks := Function.update (fun _ => none) 8 (some (List.replicate 100 66))
  overreads := 0
  nullWrites := 0

/-- The block of the unit test grows, and a hundred bytes behind it are read. -/
theorem growing_reads_behind : ¬ (Call.realloc 8 200).Contract oneBlock testHeap := by
  intro hcontract
  have hread : (realloc oneBlock testHeap 8 200).2.overreads = testHeap.overreads := hcontract.1
  exact absurd hread (by decide)

/-- To half its size it moves as it should. -/
theorem shrinking_keeps_contract : (Call.realloc 8 50).Contract oneBlock testHeap := by
  have hvalid : (Call.realloc 8 50).Valid testHeap := ⟨fun _ => ⟨_, rfl⟩, by decide⟩
  refine (contract_iff lawful_oneBlock hvalid).2 (.inr ⟨by decide, fun old hold => ?_⟩)
  cases hold
  decide

end RhsCore.Memmgr
