import Mathlib.Data.List.Nodup

/-!
# Linked lists in a store

A list of nodes that are found one from the other, the last of which has no next.

## Main definitions

* `Chain next m p l` — from the pointer `p` the store `m` holds the nodes `l`, each with its
  address.
* `Chain.congr` — a store that agrees on the nodes holds them too.
* `Chain.unique`, `Chain.nodup` — there is one such list, and no node is in it twice.
* `Chain.relink` — a node's `next` is changed.
-/

namespace RhsCore

variable {A N : Type} {next : N → Option A} {m m' : A → Option N} {p : Option A}
  {l l' r r' : List (A × N)} {a : A} {n n' : N}

/-- From `p` the store holds the nodes of the list, in its order. -/
inductive Chain (next : N → Option A) (m : A → Option N) : Option A → List (A × N) → Prop
  | nil : Chain next m none []
  | cons {a : A} {n : N} {l : List (A × N)} : m a = some n → Chain next m (next n) l →
      Chain next m (some a) ((a, n) :: l)

namespace Chain

@[simp] theorem nil_iff : Chain next m p [] ↔ p = none := by
  constructor
  · intro h
    cases h
    rfl
  · rintro rfl
    exact .nil

@[simp] theorem cons_iff :
    Chain next m p ((a, n) :: l) ↔ p = some a ∧ m a = some n ∧ Chain next m (next n) l := by
  constructor
  · intro h
    cases h with
    | cons ha hl => exact ⟨rfl, ha, hl⟩
  · rintro ⟨rfl, ha, hl⟩
    exact .cons ha hl

/-- **The frame rule**: only the nodes of the list count. -/
theorem congr (h : Chain next m p l) (hm : ∀ x ∈ l, m' x.1 = m x.1) : Chain next m' p l := by
  induction h with
  | nil => exact .nil
  | cons ha _ ih =>
      rw [List.forall_mem_cons] at hm
      exact .cons (hm.1.trans ha) (ih hm.2)

/-- What the store holds at a node's address. -/
theorem get (h : Chain next m p l) {x : A × N} (hx : x ∈ l) : m x.1 = some x.2 := by
  induction h with
  | nil => cases hx
  | cons ha _ ih =>
      rcases List.mem_cons.mp hx with rfl | hx
      · exact ha
      · exact ih hx

theorem unique (h : Chain next m p l) (h' : Chain next m p l') : l = l' := by
  induction h generalizing l' with
  | nil => cases h' with | nil => rfl
  | cons ha _ ih =>
      cases h' with
      | cons ha' hl' =>
          obtain rfl := Option.some.inj (ha.symm.trans ha')
          rw [ih hl']

/-- A chain with nodes has a first one. -/
theorem exists_head (h : Chain next m p (l ++ (a, n) :: r)) : ∃ b, p = some b := by
  cases l with
  | nil => exact ⟨a, (cons_iff.mp h).1⟩
  | cons x l => exact ⟨x.1, (cons_iff.mp h).1⟩

/-- A later part of a chain is a chain. -/
theorem suffix (h : Chain next m p (l ++ (a, n) :: r)) :
    Chain next m (some a) ((a, n) :: r) := by
  induction l generalizing p with
  | nil =>
      obtain ⟨rfl, ha, hr⟩ := cons_iff.mp h
      exact .cons ha hr
  | cons x l ih => exact ih (cons_iff.mp h).2.2

/-- No node is there twice: the list would go on for ever. -/
theorem nodup (h : Chain next m p l) : (l.map Prod.fst).Nodup := by
  induction h with
  | nil => exact List.nodup_nil
  | @cons a n l ha hl ih =>
      refine List.nodup_cons.mpr ⟨fun hmem => ?_, ih⟩
      obtain ⟨⟨b, n'⟩, hx, rfl⟩ := List.mem_map.mp hmem
      obtain ⟨before, after, rfl⟩ := List.append_of_mem hx
      have hsame := unique (.cons ha hl) (suffix hl)
      have hlen := congrArg List.length hsame
      simp at hlen
      omega

/-- **Relinking**: where a node goes on to another chain, so does the list. -/
theorem relink (h : Chain next m p (l ++ (a, n) :: r)) (hl : ∀ x ∈ l, m' x.1 = m x.1)
    (ha : m' a = some n') (hr : Chain next m' (next n') r') :
    Chain next m' p (l ++ (a, n') :: r') := by
  induction l generalizing p with
  | nil =>
      obtain ⟨rfl, -, -⟩ := cons_iff.mp h
      exact .cons ha hr
  | cons x l ih =>
      obtain ⟨rfl, hx, hrest⟩ := cons_iff.mp h
      rw [List.forall_mem_cons] at hl
      exact .cons (hl.1.trans hx) (ih hrest hl.2)

end Chain

end RhsCore
