import Mathlib.Data.List.TakeWhile

/-!
# Strings that end with a NUL

## Main definitions

* `CString` — a string, as the characters in front of its end.
* `CString.stored` — the memory that holds one.
* `CString.takeWhile_stored` — up to the first NUL, that memory is the string.
-/

namespace RhsCore

/-- A string, up to its end. -/
abbrev CString := List Char

namespace CString

/-- A string in memory: its characters, the NUL, and what lies behind. -/
def stored (s : CString) (behind : List Char) : List Char := s ++ '\x00' :: behind

/-- What lies behind the NUL is not part of the string. -/
theorem takeWhile_stored {s : CString} (hs : '\x00' ∉ s) (behind : List Char) :
    (stored s behind).takeWhile (· ≠ '\x00') = s := by
  have hne : ∀ c ∈ s, decide (c ≠ '\x00') = true := by
    intro c hc
    rw [decide_eq_true_eq]
    rintro rfl
    exact hs hc
  rw [stored, List.takeWhile_append_of_pos hne, List.takeWhile_cons_of_neg (by simp),
    List.append_nil]

end CString
end RhsCore
