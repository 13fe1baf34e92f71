import Mathlib.Data.List.Nodup
import Mathlib.Logic.Function.Basic

/-!
# Writing to a store

A list of writes, one after the other.  What a key holds afterwards is decided by the last
write to it; a key that is not written keeps what it held.

## Main definitions

* `writeAll kvs m` — the store `m` after the writes `kvs`.
-/

namespace RhsCore

variable {K V : Type} [DecidableEq K] {kvs : List (K × V)} {k : K}

/-- The store after the writes, the first of the list first. -/
def writeAll : List (K × V) → (K → V) → K → V
  | [], m => m
  | kv :: kvs, m => writeAll kvs (Function.update m kv.1 kv.2)

theorem writeAll_append (kvs kvs' : List (K × V)) (m : K → V) :
    writeAll (kvs ++ kvs') m = writeAll kvs' (writeAll kvs m) := by
  induction kvs generalizing m with
  | nil => rfl
  | cons kv kvs ih => exact ih _

/-- A key that is not written keeps what it holds. -/
theorem writeAll_of_not_mem (h : k ∉ kvs.map Prod.fst) (m : K → V) :
    writeAll kvs m k = m k := by
  induction kvs generalizing m with
  | nil => rfl
  | cons kv kvs ih =>
      rw [List.map_cons, List.mem_cons, not_or] at h
      rw [writeAll, ih h.2, Function.update_of_ne h.1]

/-- What a written key holds does not depend on what it held. -/
theorem writeAll_congr_of_mem (h : k ∈ kvs.map Prod.fst) (m m' : K → V) :
    writeAll kvs m k = writeAll kvs m' k := by
  induction kvs generalizing m m' with
  | nil => cases h
  | cons kv kvs ih =>
      rw [writeAll, writeAll]
      by_cases hlater : k ∈ kvs.map Prod.fst
      · exact ih hlater _ _
      · have hfirst : k = kv.1 := (List.mem_cons.mp h).resolve_right hlater
        rw [writeAll_of_not_mem hlater, writeAll_of_not_mem hlater, hfirst,
          Function.update_self, Function.update_self]

/-- Where no key is written twice, each holds what was written to it. -/
theorem writeAll_of_nodup (hnodup : (kvs.map Prod.fst).Nodup) {v : V} (h : (k, v) ∈ kvs)
    (m : K → V) : writeAll kvs m k = v := by
  induction kvs generalizing m with
  | nil => cases h
  | cons kv kvs ih =>
      rw [List.map_cons, List.nodup_cons] at hnodup
      rw [writeAll]
      rcases List.mem_cons.mp h with rfl | hlater
      · rw [writeAll_of_not_mem hnodup.1, Function.update_self]
      · exact ih hnodup.2 hlater _

/-- **Writes through an injection** of the keys are writes to what the keys stand for. -/
theorem writeAll_map {K' : Type} [DecidableEq K'] {f : K → K'} (hf : Function.Injective f)
    (m : K' → V) (k : K) :
    writeAll (kvs.map fun kv => (f kv.1, kv.2)) m (f k) = writeAll kvs (fun k => m (f k)) k := by
  induction kvs generalizing m with
  | nil => rfl
  | cons kv kvs ih =>
      rw [List.map_cons, writeAll, writeAll, ih]
      congr 1
      funext k'
      by_cases h : k' = kv.1
      · simp [h]
      · simp [h, hf.ne h]

omit [DecidableEq K] in
/-- A key that stands for nothing is not written. -/
theorem writeAll_map_of_not_mem {K' : Type} [DecidableEq K'] {f : K → K'} {k' : K'}
    (h : ∀ k, f k ≠ k') (m : K' → V) :
    writeAll (kvs.map fun kv => (f kv.1, kv.2)) m k' = m k' := by
  apply writeAll_of_not_mem
  simp only [List.map_map, List.mem_map, not_exists, not_and]
  intro kv _
  exact h kv.1

end RhsCore
