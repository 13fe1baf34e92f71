import Mathlib.Data.Set.Insert
import Mathlib.Data.List.TakeWhile
import RhsCore.Lib.CString
import RhsCore.Lib.Slots
import RhsCore.Lib.Transition

/-!
# Excluding tags from the log

`core/log.c`: a table of copies of the tags that are not to be logged.  A copy has sixteen
bytes and an end only if the tag is shorter; where it has none, a comparison goes on into
whatever lies behind the copy at that moment.  A tag is copied as often as it is excluded,
and one copy is freed each time it is admitted again.

## Main definitions

* `Tag`, `strncpy`, `readCopy` — a tag, its copy, and the string that a copy is read as.
* `rhsLogExcludeTag`, `rhsLogUnexcludeTag`, `rhsLogPrintFormat` — the functions of the source.
* `LogRun`, `Action`, `step` — the table beside the set it stands for.
* `Agrees` — the table suppresses the tags of the set and no others.
* `always_filters_iff` — the calls after which it does.
-/

namespace RhsCore.Log
open Slots

/-! ## The source's functions -/

/-- `RHSLogLevel`. -/
inductive RHSLogLevel
  | default
  | none
  | error
  | warn
  | info
  | debug
  | trace
  deriving DecidableEq, Repr

/-- The value of a level. -/
def RHSLogLevel.toNat : RHSLogLevel → ℕ
  | .default => 0
  | .none => 1
  | .error => 2
  | .warn => 3
  | .info => 4
  | .debug => 5
  | .trace => 6

/-- `MAX_TAG_COUNT`. -/
abbrev maxTagCount : ℕ := 32

/-- `MAX_TAG_LENGTH`. -/
abbrev maxTagLength : ℕ := 16

/-- A string: the characters in front of its NUL. -/
abbrev Tag := { s : CString // '\x00' ∉ s }

/-- `strncpy` into a block of sixteen bytes: the rest is filled, the end may be missing. -/
def strncpy (tag : Tag) : List Char :=
  tag.1.take maxTagLength ++ List.replicate (maxTagLength - tag.1.length) '\x00'

/-- The string that a copy is read as, with `behind` in memory behind it. -/
def readCopy (copy behind : List Char) : List Char := (copy ++ behind).takeWhile (· ≠ '\x00')

/-- What lies behind the copy of a slot. -/
abbrev Memory := ℕ → List Char

/-- `strcmp(exclude_tag[i], tag) == 0`. -/
def strcmpEqual (memory : Memory) (tag : Tag) (i : ℕ) (copy : List Char) : Bool :=
  decide (readCopy copy (memory i) = tag.1)

/-- `log_level` and `exclude_tag`. -/
structure LogState where
  logLevel : RHSLogLevel
  excludeTag : List (Option (List Char))
  length_excludeTag : excludeTag.length = maxTagCount

/-- The log before any call. -/
def LogState.init : LogState where
  logLevel := .debug
  excludeTag := List.replicate maxTagCount none
  length_excludeTag := List.length_replicate

/-- `rhs_log_exclude_tag`; `allocated` is whether `malloc` found a block.  What `malloc`
returned is not looked at: without a block the tag is copied to `NULL`, which ends the
program. -/
def rhsLogExcludeTag (allocated : Bool) (tag : Tag) (s : LogState) : Option LogState :=
  if none ∈ s.excludeTag ∧ allocated = false then none
  else some { s with
    excludeTag := fill (strncpy tag) s.excludeTag
    length_excludeTag := (length_fill _ _).trans s.length_excludeTag }

/-- `rhs_log_unexclude_tag`. -/
def rhsLogUnexcludeTag (memory : Memory) (tag : Tag) (s : LogState) : LogState :=
  { s with
    excludeTag := clear (strcmpEqual memory tag) 0 s.excludeTag
    length_excludeTag := (length_clear _ _ _).trans s.length_excludeTag }

/-- `rhs_log_set_level`. -/
def rhsLogSetLevel (level : RHSLogLevel) (s : LogState) : LogState :=
  { s with logLevel := if level = .default then .debug else level }

/-- What becomes of a message. -/
inductive Printed
  | aboveLevel
  | excluded
  | busy
  | printed
  deriving DecidableEq, Repr

/-- `rhs_log_print_format`; `acquired` is whether the output is free. -/
def rhsLogPrintFormat (memory : Memory) (acquired : Bool) (level : RHSLogLevel) (tag : Tag)
    (s : LogState) : Printed :=
  if s.logLevel.toNat < level.toNat then .aboveLevel
  else if any (strcmpEqual memory tag) 0 s.excludeTag then .excluded
  else if acquired then .printed
  else .busy

/-! ## Copies -/

/-- A tag whose copy has an end. -/
def Short (tag : Tag) : Prop := tag.1.length < maxTagLength

instance : DecidablePred Short := fun tag => inferInstanceAs (Decidable (tag.1.length < _))

/-- A copy with an end is read as its tag. -/
theorem readCopy_of_short {tag : Tag} (h : Short tag) (behind : List Char) :
    readCopy (strncpy tag) behind = tag.1 := by
  obtain ⟨k, hk⟩ : ∃ k, maxTagLength - tag.1.length = k + 1 :=
    ⟨maxTagLength - tag.1.length - 1, by have := h; simp only [Short] at this; omega⟩
  have htake : tag.1.take maxTagLength = tag.1 := List.take_of_length_le (Nat.le_of_lt h)
  rw [readCopy, strncpy, htake, hk, List.replicate_succ, List.append_assoc, List.cons_append]
  exact CString.takeWhile_stored tag.2 _

/-- One without is read as its sixteen characters and what lies behind. -/
theorem readCopy_of_long {tag : Tag} (h : ¬ Short tag) (behind : List Char) :
    readCopy (strncpy tag) behind =
      tag.1.take maxTagLength ++ behind.takeWhile (· ≠ '\x00') := by
  have hlen : maxTagLength - tag.1.length = 0 := by
    have := h
    simp only [Short] at this
    omega
  rw [readCopy, strncpy, hlen, List.replicate_zero, List.append_nil,
    List.takeWhile_append_of_pos]
  intro c hc
  have hne : c ≠ '\x00' := by
    rintro rfl
    exact tag.2 (List.mem_of_mem_take hc)
  simpa using hne

/-- The copies of short tags are told apart, also from those of long ones. -/
theorem strncpy_eq_iff {tag tag' : Tag} (h : Short tag) :
    strncpy tag' = strncpy tag ↔ tag' = tag := by
  constructor
  · intro heq
    have hread := readCopy_of_short h []
    rw [← heq] at hread
    by_cases h' : Short tag'
    · rw [readCopy_of_short h'] at hread
      exact Subtype.ext hread
    · rw [readCopy_of_long h', List.takeWhile_nil, List.append_nil] at hread
      have hlen := congrArg List.length hread
      have hshort := h
      simp only [List.length_take, Short] at hlen h' hshort
      omega
  · rintro rfl
    rfl

/-! ## The table and the set -/

/-- The log, and the set of the tags that were excluded and not admitted since. -/
structure LogRun where
  log : LogState
  excluded : Set Tag

def LogRun.init : LogRun where
  log := .init
  excluded := ∅

/-- A call; the memory behind the copies is what it is at that moment. -/
inductive Action
  | exclude (allocated : Bool) (tag : Tag)
  | unexclude (memory : Memory) (tag : Tag)
  | setLevel (level : RHSLogLevel)

def step (s : LogRun) : Action → Option LogRun
  | .exclude allocated tag => (rhsLogExcludeTag allocated tag s.log).map fun log =>
      { log := log, excluded := insert tag s.excluded }
  | .unexclude memory tag =>
      some { log := rhsLogUnexcludeTag memory tag s.log, excluded := s.excluded \ {tag} }
  | .setLevel level => some { s with log := rhsLogSetLevel level s.log }

/-- **Agreement**: of the messages that the level lets through, those with a tag of the set are
suppressed and no others, whatever lies behind the copies. -/
def Agrees (s : LogRun) : Prop :=
  ∀ (memory : Memory) (acquired : Bool) (level : RHSLogLevel) (tag : Tag),
    level.toNat ≤ s.log.logLevel.toNat →
      (rhsLogPrintFormat memory acquired level tag s.log = .excluded ↔ tag ∈ s.excluded)

/-- Every entry of the table is a copy of some tag. -/
def Copies (s : LogRun) : Prop :=
  ∀ copy, some copy ∈ s.log.excludeTag → ∃ tag, copy = strncpy tag

/-- The entries are copies of short tags, and these are the set. -/
structure Faithful (s : LogRun) : Prop where
  short : ∀ copy, some copy ∈ s.log.excludeTag → ∃ tag, Short tag ∧ copy = strncpy tag
  mem_iff : ∀ tag, tag ∈ s.excluded ↔ Short tag ∧ some (strncpy tag) ∈ s.log.excludeTag

variable {s s' : LogRun}

theorem print_excluded_iff {memory : Memory} {acquired : Bool} {level : RHSLogLevel} {tag : Tag}
    (hlevel : level.toNat ≤ s.log.logLevel.toNat) :
    rhsLogPrintFormat memory acquired level tag s.log = .excluded ↔
      ∃ k copy, s.log.excludeTag[k]? = some (some copy) ∧ readCopy copy (memory k) = tag.1 := by
  have hany : any (strcmpEqual memory tag) 0 s.log.excludeTag = true ↔
      ∃ k copy, s.log.excludeTag[k]? = some (some copy) ∧ readCopy copy (memory k) = tag.1 := by
    rw [any_eq_true_iff]
    simp only [strcmpEqual, decide_eq_true_eq, Nat.zero_add]
  rw [← hany, rhsLogPrintFormat, if_neg (Nat.not_lt.mpr hlevel)]
  split
  · rename_i h
    simp [h]
  · rename_i h
    cases acquired <;> simp [h]

/-- The first sixteen characters of a tag, which are a tag of their own. -/
def Tag.cut (tag : Tag) : Tag :=
  ⟨tag.1.take maxTagLength, fun hnul => tag.2 (List.mem_of_mem_take hnul)⟩

theorem length_cut {tag : Tag} (h : ¬ Short tag) : tag.cut.1.length = maxTagLength := by
  rw [Short, Nat.not_lt] at h
  rw [Tag.cut, List.length_take, Nat.min_eq_left h]

/-- With an end right behind it, a long copy is read as its sixteen characters. -/
theorem readCopy_nil {tag : Tag} (h : ¬ Short tag) : readCopy (strncpy tag) [] = tag.cut.1 := by
  rw [readCopy_of_long h, List.takeWhile_nil, List.append_nil, Tag.cut]

/-- With another character there, no copy is read as so many. -/
theorem length_readCopy_ne (tag : Tag) :
    (readCopy (strncpy tag) ['x']).length ≠ maxTagLength := by
  by_cases hshort : Short tag
  · rw [readCopy_of_short hshort]
    exact Nat.ne_of_lt hshort
  · have hx : (['x'].takeWhile (· ≠ '\x00')).length = 1 := by decide
    have hcut := length_cut hshort
    rw [Tag.cut] at hcut
    rw [readCopy_of_long hshort, List.length_append, hcut, hx]
    exact Nat.succ_ne_self _

/-- A copy that has no end is read as different tags in different memories. -/
theorem short_of_agrees (hcopies : Copies s) (h : Agrees s) {copy : List Char}
    (hmem : some copy ∈ s.log.excludeTag) : ∃ tag, Short tag ∧ copy = strncpy tag := by
  obtain ⟨tag, rfl⟩ := hcopies copy hmem
  by_contra hlong
  have hlong : ¬ Short tag := fun hshort => hlong ⟨tag, hshort, rfl⟩
  have hlevel : RHSLogLevel.default.toNat ≤ s.log.logLevel.toNat := Nat.zero_le _
  obtain ⟨k, hk⟩ := List.getElem?_of_mem hmem
  have hcut : tag.cut ∈ s.excluded := by
    rw [← h (fun _ => []) true .default tag.cut hlevel, print_excluded_iff hlevel]
    exact ⟨k, _, hk, readCopy_nil hlong⟩
  rw [← h (fun _ => ['x']) true .default tag.cut hlevel, print_excluded_iff hlevel] at hcut
  obtain ⟨j, copy, hj, hread⟩ := hcut
  obtain ⟨tag', rfl⟩ := hcopies copy (List.mem_of_getElem? hj)
  apply length_readCopy_ne tag'
  rw [hread, length_cut hlong]

theorem print_excluded_iff_of_short
    (hshort : ∀ copy, some copy ∈ s.log.excludeTag → ∃ tag, Short tag ∧ copy = strncpy tag)
    {memory : Memory} {acquired : Bool} {level : RHSLogLevel} {tag : Tag}
    (hlevel : level.toNat ≤ s.log.logLevel.toNat) :
    rhsLogPrintFormat memory acquired level tag s.log = .excluded ↔
      Short tag ∧ some (strncpy tag) ∈ s.log.excludeTag := by
  rw [print_excluded_iff hlevel]
  constructor
  · rintro ⟨k, copy, hk, hread⟩
    have hmem := List.mem_of_getElem? hk
    obtain ⟨tag', htag', rfl⟩ := hshort copy hmem
    rw [readCopy_of_short htag'] at hread
    obtain rfl : tag' = tag := Subtype.ext hread
    exact ⟨htag', hmem⟩
  · rintro ⟨htag, hmem⟩
    obtain ⟨k, hk⟩ := List.getElem?_of_mem hmem
    exact ⟨k, _, hk, readCopy_of_short htag _⟩

/-- **What agreement comes to**. -/
theorem agrees_iff_faithful (hcopies : Copies s) : Agrees s ↔ Faithful s := by
  constructor
  · intro h
    have hshort (copy : List Char) (hmem : some copy ∈ s.log.excludeTag) :=
      short_of_agrees hcopies h hmem
    refine ⟨hshort, fun tag => ?_⟩
    have hlevel : RHSLogLevel.default.toNat ≤ s.log.logLevel.toNat := Nat.zero_le _
    rw [← h (fun _ => []) true .default tag hlevel, print_excluded_iff_of_short hshort hlevel]
  · intro h memory acquired level tag hlevel
    rw [print_excluded_iff_of_short h.short hlevel, h.mem_iff]

/-! ## Which calls keep it -/

/-- A tag may be excluded if it is short and a slot is free, or if it is excluded already and
none is; it may be admitted again if at most one slot holds it. -/
def Allowed (s : LogRun) : Action → Prop
  | .exclude _ tag =>
      (none ∈ s.log.excludeTag ∧ Short tag) ∨ (none ∉ s.log.excludeTag ∧ tag ∈ s.excluded)
  | .unexclude _ tag => s.log.excludeTag.count (some (strncpy tag)) ≤ 1
  | .setLevel _ => True

/-- What excluding a tag leaves. -/
theorem exclude_eq {allocated : Bool} {tag : Tag}
    (hs : step s (.exclude allocated tag) = some s') :
    s'.log.excludeTag = fill (strncpy tag) s.log.excludeTag ∧
      s'.excluded = insert tag s.excluded := by
  obtain ⟨log, hlog, rfl⟩ := Option.map_eq_some_iff.mp hs
  rw [rhsLogExcludeTag] at hlog
  split at hlog
  · cases hlog
  · cases hlog
    exact ⟨rfl, rfl⟩

theorem copies_step {a : Action} (h : Copies s) (hs : step s a = some s') : Copies s' := by
  intro copy hmem
  cases a with
  | exclude allocated tag =>
      rw [(exclude_eq hs).1] at hmem
      by_cases hfree : none ∈ s.log.excludeTag
      · rcases (mem_fill_iff hfree).mp hmem with rfl | hmem
        · exact ⟨tag, rfl⟩
        · exact h copy hmem
      · rw [fill_of_full hfree] at hmem
        exact h copy hmem
  | unexclude memory tag =>
      cases hs
      exact h copy (mem_of_mem_clear hmem)
  | setLevel level =>
      cases hs
      exact h copy hmem

/-- A tag that gets a slot of its own. -/
theorem faithful_fill_iff (h : Faithful s) {tag : Tag} (hfree : none ∈ s.log.excludeTag)
    (htable : s'.log.excludeTag = fill (strncpy tag) s.log.excludeTag)
    (hset : s'.excluded = insert tag s.excluded) : Faithful s' ↔ Short tag := by
  constructor
  · intro h'
    exact ((h'.mem_iff tag).mp (by simp [hset])).1
  · intro htag
    constructor
    · intro copy hmem
      rw [htable] at hmem
      rcases (mem_fill_iff hfree).mp hmem with rfl | hmem
      · exact ⟨tag, htag, rfl⟩
      · exact h.short copy hmem
    · intro tag'
      rw [htable, hset, Set.mem_insert_iff, mem_fill_iff hfree, h.mem_iff]
      constructor
      · rintro (rfl | ⟨htag', hmem⟩)
        · exact ⟨htag, .inl rfl⟩
        · exact ⟨htag', .inr hmem⟩
      · rintro ⟨htag', heq | hmem⟩
        · exact .inl ((strncpy_eq_iff htag).mp heq)
        · exact .inr ⟨htag', hmem⟩

/-- A tag that gets none must be there already. -/
theorem faithful_insert_iff (h : Faithful s) {tag : Tag}
    (htable : s'.log.excludeTag = s.log.excludeTag)
    (hset : s'.excluded = insert tag s.excluded) : Faithful s' ↔ tag ∈ s.excluded := by
  constructor
  · intro h'
    rw [h.mem_iff, ← htable, ← h'.mem_iff, hset]
    exact Set.mem_insert tag _
  · intro hin
    constructor
    · intro copy hmem
      rw [htable] at hmem
      exact h.short copy hmem
    · intro tag'
      rw [htable, hset, Set.insert_eq_of_mem hin]
      exact h.mem_iff tag'

/-- Excluding a tag. -/
theorem faithful_exclude_iff (h : Faithful s) {allocated : Bool} {tag : Tag}
    (hs : step s (.exclude allocated tag) = some s') :
    Faithful s' ↔ Allowed s (.exclude allocated tag) := by
  obtain ⟨htable, hset⟩ := exclude_eq hs
  by_cases hfree : none ∈ s.log.excludeTag
  · rw [faithful_fill_iff h hfree htable hset]
    simp [Allowed, hfree]
  · rw [fill_of_full hfree] at htable
    rw [faithful_insert_iff h htable hset]
    simp [Allowed, hfree]

/-- Admitting one again. -/
theorem faithful_unexclude_iff (h : Faithful s) {memory : Memory} {tag : Tag}
    (hs : step s (.unexclude memory tag) = some s') :
    Faithful s' ↔ Allowed s (.unexclude memory tag) := by
  cases hs
  have hwanted (k : ℕ) (copy : List Char) (hmem : some copy ∈ s.log.excludeTag) :
      strcmpEqual memory tag k copy = true ↔ copy = strncpy tag := by
    obtain ⟨tag', htag', rfl⟩ := h.short copy hmem
    rw [strcmpEqual, decide_eq_true_eq, readCopy_of_short htag', eq_comm (a := strncpy tag'),
      strncpy_eq_iff htag', Subtype.ext_iff]
    exact eq_comm
  have hgone := notMem_clear_iff hwanted 0
  rw [Allowed, ← hgone]
  constructor
  · intro h' hmem
    obtain ⟨tag', htag', heq⟩ := h'.short _ hmem
    obtain rfl := (strncpy_eq_iff htag').mp heq
    exact ((h'.mem_iff tag).mpr ⟨htag', hmem⟩).2 rfl
  · intro hnot
    constructor
    · intro copy hmem
      exact h.short copy (mem_of_mem_clear hmem)
    · intro tag'
      by_cases heq : tag' = tag
      · rw [heq]
        constructor
        · intro hin
          exact absurd rfl hin.2
        · intro hin
          exact absurd hin.2 hnot
      · rw [Set.mem_sdiff, Set.mem_singleton_iff, h.mem_iff]
        constructor
        · rintro ⟨⟨htag', hmem⟩, -⟩
          have hne : strncpy tag' ≠ strncpy tag :=
            fun hc => heq ((strncpy_eq_iff htag').mp hc.symm).symm
          exact ⟨htag', (mem_clear_of_ne hwanted hne 0).mpr hmem⟩
        · rintro ⟨htag', hmem⟩
          exact ⟨⟨htag', mem_of_mem_clear hmem⟩, heq⟩

/-- **Exactly when the table is the set**: it suppresses what it should in every state of a run
if and only if each call of the run is allowed where it is made. -/
theorem always_filters_iff (as : List Action) :
    Always step Agrees .init as ↔ Each step Allowed .init as := by
  have hinit : Copies .init := by
    intro copy hmem
    cases List.eq_of_mem_replicate hmem
  have hagrees : Agrees .init := by
    rw [agrees_iff_faithful hinit]
    constructor
    · intro copy hmem
      cases List.eq_of_mem_replicate hmem
    · intro tag
      constructor
      · intro h
        cases h
      · intro h
        cases List.eq_of_mem_replicate h.2
  refine always_iff_each (fun s a s' => copies_step) ?_ hinit hagrees as
  intro s a s' hcopies h hs
  rw [agrees_iff_faithful hcopies] at h
  rw [agrees_iff_faithful (copies_step hcopies hs)]
  cases a with
  | exclude allocated tag => exact faithful_exclude_iff h hs
  | unexclude memory tag => exact faithful_unexclude_iff h hs
  | setLevel level =>
      cases hs
      exact ⟨fun _ => trivial, fun _ => ⟨h.short, h.mem_iff⟩⟩

def net : Tag := ⟨['n', 'e', 't'], by decide⟩

/-- **Excluded twice, admitted once**: the messages stay suppressed. -/
theorem excluded_twice_admitted_once :
    ∃ s, runActions step (fun _ _ => True) .init
        [.exclude true net, .exclude true net, .unexclude (fun _ => []) net] = some s ∧
      rhsLogPrintFormat (fun _ => []) true .error net s.log = .excluded ∧ net ∉ s.excluded := by
  refine ⟨_, rfl, by decide, ?_⟩
  intro hin
  exact hin.2 rfl

end RhsCore.Log
