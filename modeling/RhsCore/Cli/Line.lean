import RhsCore.Cli.CliApp
import RhsCore.Lib.Transition
import Mathlib.Data.List.TakeWhile

/-!
# The bounds of the line

The line holds what was typed as long as there is room for it and for the end of the
string: for 63 characters.  The next one leaves the line without an end, and the one after
is written behind it.

## Main definitions

* `Synced` — the line holds what was typed.
* `Held` — the line is in its bounds, and lookups are of what was typed.
* `Fits` — the characters that keep it so.
* `held_iff` — they do, and no others.
-/

namespace RhsCore.CliApp

variable {commands : CliCommandDict} {s s' : Cli} {c : Char} {typed : CString}

/-! ## Strings in the line -/

/-- A line that holds some characters, and zeros after them. -/
def padded (typed : CString) : List Char :=
  typed ++ List.replicate (maxLineLength - typed.length) nul

/-- There is no end of a string in the characters. -/
def NoNul (typed : CString) : Prop := ∀ c ∈ typed, c ≠ nul

theorem takeWhile_append_nul {before after : CString} (h : NoNul before) :
    (before ++ nul :: after).takeWhile (· ≠ nul) = before := by
  exact CString.takeWhile_stored (fun hnul => h nul hnul rfl) after

theorem padded_eq (h : typed.length < maxLineLength) :
    padded typed =
      typed ++ nul :: List.replicate (maxLineLength - typed.length - 1) nul := by
  rw [padded, ← List.replicate_succ]
  congr 2
  omega

/-- The line holds what was typed. -/
structure Synced (s : Cli) : Prop where
  room : s.typed.length < maxLineLength
  cursor : s.cursorPosition.toNat = s.typed.length
  line : s.line.toList = padded s.typed
  noNul : NoNul s.typed
  inside : s.overrun = false
  lookups : s.lookups = s.expected

theorem synced_cliAlloc : Synced cliAlloc where
  room := by decide
  cursor := rfl
  line := by decide
  noNul := nofun
  inside := rfl
  lookups := rfl

/-! ## A carriage return -/

theorem string_zero (h : Synced s) : s.string 0 = s.typed := by
  rw [Cli.string, h.line, List.drop_zero, padded_eq h.room, takeWhile_append_nul h.noNul]

theorem findIdx?_space {before after : CString} (h : ' ' ∉ before) :
    (before ++ ' ' :: after).findIdx? (· = ' ') = some before.length := by
  induction before with
  | nil => rfl
  | cons c before ih =>
      rw [List.mem_cons, not_or] at h
      simp [List.findIdx?_cons, Ne.symm h.1, ih h.2]

/-- The line with a space, and what the source makes of it. -/
theorem string_split {before after : CString} (h : Synced s)
    (htyped : s.typed = before ++ ' ' :: after) :
    ({ s with line := s.line.setIfInBounds before.length nul } : Cli).string 0 = before ∧
      ({ s with line := s.line.setIfInBounds before.length nul } : Cli).string
        (before.length + 1) = after := by
  have hline : (s.line.setIfInBounds before.length nul).toList =
      before ++ nul :: (after ++ nul ::
        List.replicate (maxLineLength - s.typed.length - 1) nul) := by
    rw [Vector.toList_setIfInBounds, h.line, padded_eq h.room, htyped]
    simp
  have hbefore : NoNul before := fun c hc => h.noNul c (by simp [htyped, hc])
  have hafter : NoNul after := fun c hc => h.noNul c (by simp [htyped, hc])
  constructor
  · rw [Cli.string, hline, List.drop_zero, takeWhile_append_nul hbefore]
  · rw [Cli.string, hline, List.drop_length_add_append, List.drop_one, List.tail_cons,
      takeWhile_append_nul hafter]

theorem lookupOf_split {before after : CString} (h : ' ' ∉ before) :
    lookupOf commands (before ++ ' ' :: after) =
      { key := before, called := (commands before).map fun command => (command, some after) } := by
  have hne : ∀ c ∈ before, decide (c ≠ ' ') = true := by
    intro c hc
    rw [decide_eq_true_eq]
    intro heq
    exact h (heq ▸ hc)
  have htake : (before ++ ' ' :: after).takeWhile (· ≠ ' ') = before := by
    rw [List.takeWhile_append_of_pos hne, List.takeWhile_cons_of_neg (by simp), List.append_nil]
  have hdrop : ((before ++ ' ' :: after).dropWhile (· ≠ ' ')).tail = after := by
    rw [List.dropWhile_append_of_pos hne, List.dropWhile_cons_of_neg (by simp), List.tail_cons]
  have hmem : ' ' ∈ before ++ ' ' :: after := by simp
  simp only [lookupOf, htake, hdrop, if_pos hmem]

theorem lookupOf_plain (h : ' ' ∉ typed) :
    lookupOf commands typed =
      { key := typed, called := (commands typed).map fun command => (command, none) } := by
  have htake : typed.takeWhile (· ≠ ' ') = typed := by
    rw [List.takeWhile_eq_self_iff]
    intro c hc
    rw [decide_eq_true_eq]
    intro heq
    exact h (heq ▸ hc)
  simp only [lookupOf, htake, if_neg h]

/-- What was typed is looked up. -/
theorem cliHandleEnter_eq (h : Synced s) : cliHandleEnter commands s =
    cliReset { s with lookups := s.lookups ++ [lookupOf commands s.typed] } := by
  have hend : s.line.toList.contains nul = true := by
    rw [h.line, padded_eq h.room]
    simp
  have hread := string_zero h
  simp only [cliHandleEnter, hend, Bool.not_true, Bool.or_false]
  by_cases hspace : ' ' ∈ s.typed
  · obtain ⟨before, after, htyped, hbefore⟩ := List.eq_append_cons_of_mem hspace
    obtain ⟨hkey, hargs⟩ := string_split h htyped
    have hfind : (s.string 0).findIdx? (· = ' ') = some before.length := by
      rw [hread, htyped, findIdx?_space hbefore]
    have hlookup : lookupOf commands (before ++ ' ' :: after) = _ := lookupOf_split hbefore
    rw [← htyped] at hlookup
    simp only [hfind, hkey, hargs, hlookup]
    rfl
  · have hfind : (s.string 0).findIdx? (· = ' ') = none := by
      rw [hread, List.findIdx?_eq_none_iff]
      intro c hc
      rw [decide_eq_false_iff_not]
      intro heq
      exact hspace (heq ▸ hc)
    simp only [hfind]
    rw [hread, lookupOf_plain hspace]

/-! ## One character -/

/-- A run: characters are typed. -/
def step (commands : CliCommandDict) (s : Cli) (c : Char) : Option Cli :=
  some (cliProcessInput commands s c)

/-- The line and what is looked up are as they should be. -/
structure Held (s : Cli) : Prop where
  cursor : s.cursorPosition.toNat ≤ maxLineLength - 1
  inside : s.overrun = false
  terminated : s.line.toList[s.cursorPosition.toNat]? = some nul
  lookups : s.lookups = s.expected
  empty : s.typed = [] →
    s.cursorPosition = 0 ∧ s.line = Vector.replicate maxLineLength nul

/-- A printable character comes when less than 63 were typed since the carriage return. -/
def Fits (s : Cli) (c : Char) : Prop :=
  printable (cliGetc s c).1 = true → s.typed.length < maxLineLength - 1

theorem Synced.held (h : Synced s) : Held s := by
  refine ⟨?_, h.inside, ?_, h.lookups, fun hempty => ⟨?_, ?_⟩⟩
  · rw [h.cursor]
    exact Nat.le_pred_of_lt h.room
  · rw [h.line, h.cursor, padded_eq h.room]
    simp
  · rw [← UInt8.toNat_inj, h.cursor, hempty]
    rfl
  · rw [← Vector.toList_inj, h.line, hempty]
    decide

/-- There is no room for the end of the string, or a byte outside the line was used. -/
def Overfull (s : Cli) : Prop :=
  s.overrun = true ∨
    s.cursorPosition.toNat = maxLineLength ∧ s.line.toList.contains nul = false

theorem Overfull.not_held (h : Overfull s) : ¬ Held s := by
  intro hheld
  rcases h with hover | ⟨hfull, -⟩
  · rw [hheld.inside] at hover
    cases hover
  · have hcursor := hheld.cursor
    rw [hfull] at hcursor
    exact absurd hcursor (by decide)

/-- What a character does: nothing, a carriage return, or it is put into the line. -/
theorem cliProcessInput_cases (commands : CliCommandDict) (s : Cli) (c : Char) :
    ∃ enter, (printable (cliGetc s c).1 = false ∧
        (cliProcessInput commands s c = { s with enter := enter } ∨
          cliProcessInput commands s c = { cliHandleEnter commands { s with enter := enter } with
            typed := [], expected := s.expected ++ [lookupOf commands s.typed] })) ∨
      (printable (cliGetc s c).1 = true ∧ cliProcessInput commands s c = { s with
        enter := enter
        overrun := s.overrun || decide (maxLineLength ≤ s.cursorPosition.toNat)
        line := s.line.setIfInBounds s.cursorPosition.toNat (cliGetc s c).1
        cursorPosition := s.cursorPosition + 1
        typed := s.typed ++ [(cliGetc s c).1] }) := by
  obtain ⟨enter, henter⟩ : ∃ enter, (cliGetc s c).2 = { s with enter := enter } := by
    rw [cliGetc]
    split
    · exact ⟨true, rfl⟩
    · split
      · exact ⟨false, rfl⟩
      · exact ⟨s.enter, rfl⟩
  refine ⟨enter, ?_⟩
  simp only [cliProcessInput, henter]
  generalize (cliGetc s c).1 = inChr
  by_cases hcr : inChr = cliSymbolAsciiCR
  · subst hcr
    exact .inl ⟨rfl, .inr rfl⟩
  · by_cases hprint : printable inChr = true
    · have hne (k : Char) (hk : printable k = false) : inChr ≠ k := by
        intro heq
        rw [heq, hk] at hprint
        cases hprint
      rw [if_neg (hne _ rfl), if_neg (hne _ rfl), if_neg (hne _ rfl), if_neg (hne _ rfl),
        if_neg (hne _ rfl), if_neg (not_or.mpr ⟨hne _ rfl, hne _ rfl⟩), if_neg hcr, if_pos hprint]
      exact .inr ⟨hprint, rfl⟩
    · refine .inl ⟨Bool.eq_false_iff.mpr hprint, .inl ?_⟩
      simp only [hcr, Bool.eq_false_iff.mpr hprint, Bool.false_eq_true, if_false, ite_self]

/-- Before the end of the line, a character is put where the end of the string was. -/
theorem set_padded (h : typed.length < maxLineLength) (c : Char) :
    (padded typed).set typed.length c =
      typed ++ c :: List.replicate (maxLineLength - typed.length - 1) nul := by
  rw [padded_eq h]
  simp

theorem Synced.enter (h : Synced s) (commands : CliCommandDict) (enter : Bool) :
    Synced { cliHandleEnter commands { s with enter := enter } with
      typed := [], expected := s.expected ++ [lookupOf commands s.typed] } := by
  have henter : Synced { s with enter := enter } := { h with }
  rw [cliHandleEnter_eq henter]
  refine ⟨Nat.succ_pos _, rfl, ?_, nofun, h.inside, ?_⟩
  · exact synced_cliAlloc.line
  · exact congrArg (· ++ _) h.lookups

theorem Synced.putChar (h : Synced s) (hfits : s.typed.length < maxLineLength - 1)
    (hprint : printable c = true) (enter : Bool) :
    Synced { s with
      enter := enter
      overrun := s.overrun || decide (maxLineLength ≤ s.cursorPosition.toNat)
      line := s.line.setIfInBounds s.cursorPosition.toNat c
      cursorPosition := s.cursorPosition + 1
      typed := s.typed ++ [c] } := by
  have hcursor := h.cursor
  have hmax : maxLineLength = 64 := rfl
  constructor
  · rw [List.length_append]
    exact Nat.add_lt_of_lt_sub hfits
  · rw [List.length_append, ← hcursor, UInt8.toNat_add]
    refine Nat.mod_eq_of_lt ?_
    simp
    omega
  · rw [Vector.toList_setIfInBounds, h.line, hcursor, set_padded h.room, padded,
      List.length_append, List.append_assoc]
    rfl
  · intro c' hc'
    rcases List.mem_append.mp hc' with hc' | hc'
    · exact h.noNul c' hc'
    · rw [List.mem_singleton.mp hc']
      intro hnul
      rw [hnul] at hprint
      cases hprint
  · have hroom := h.room
    simp [h.inside, hcursor]
    omega
  · exact h.lookups

theorem overfull_typed (h : Synced s) (hfull : ¬ s.typed.length < maxLineLength - 1)
    (hprint : printable c = true) (enter : Bool) :
    Overfull { s with
      enter := enter
      overrun := s.overrun || decide (maxLineLength ≤ s.cursorPosition.toNat)
      line := s.line.setIfInBounds s.cursorPosition.toNat c
      cursorPosition := s.cursorPosition + 1
      typed := s.typed ++ [c] } := by
  have hcursor := h.cursor
  have hroom := h.room
  have hlength : s.typed.length = maxLineLength - 1 := by omega
  refine .inr ⟨?_, ?_⟩
  · rw [UInt8.toNat_add, hcursor, hlength]
    rfl
  · have hnul : nul ≠ c := by
      intro heq
      rw [← heq] at hprint
      cases hprint
    rw [Vector.toList_setIfInBounds, h.line, hcursor, set_padded h.room, hlength]
    have hmem : nul ∉ s.typed := fun hmem => h.noNul nul hmem rfl
    simp [hnul, hmem]

theorem overrun_cliHandleEnter (commands : CliCommandDict) (s : Cli) :
    (cliHandleEnter commands s).overrun = (s.overrun || !s.line.toList.contains nul) := by
  simp only [cliHandleEnter]
  split
  · rfl
  · rfl

/-- Once the line is too full, it is not mended. -/
theorem Overfull.step (h : Overfull s) (commands : CliCommandDict) (c : Char) :
    Overfull (cliProcessInput commands s c) := by
  obtain ⟨enter, ⟨-, heq | heq⟩ | ⟨-, heq⟩⟩ := cliProcessInput_cases commands s c
  · rw [heq]
    exact h
  · rw [heq]
    refine .inl ((overrun_cliHandleEnter commands _).trans ?_)
    rcases h with hover | ⟨-, hend⟩
    · simp [hover]
    · rw [hend]
      exact Bool.or_true _
  · rw [heq]
    refine .inl ?_
    rcases h with hover | ⟨hcursor, -⟩
    · simp [hover]
    · simp [hcursor]

/-- What a character does to a line that holds what was typed. -/
theorem Synced.step (h : Synced s) (commands : CliCommandDict) (c : Char) :
    (Fits s c → Synced (cliProcessInput commands s c)) ∧
      (¬ Fits s c → Overfull (cliProcessInput commands s c)) := by
  obtain ⟨enter, ⟨hprint, heq⟩ | ⟨hprint, heq⟩⟩ := cliProcessInput_cases commands s c
  · have hfits : Fits s c := by
      intro htrue
      rw [hprint] at htrue
      cases htrue
    refine ⟨fun _ => ?_, fun hnot => absurd hfits hnot⟩
    rcases heq with heq | heq
    · rw [heq]
      exact { h with }
    · rw [heq]
      exact h.enter commands enter
  · rw [heq]
    constructor
    · intro hfits
      exact h.putChar (hfits hprint) hprint enter
    · intro hnot
      exact overfull_typed h (fun hlt => hnot fun _ => hlt) hprint enter

theorem held_step_iff (h : Synced s ∨ Overfull s) (hheld : Held s)
    (hs : step commands s c = some s') : Held s' ↔ Fits s c := by
  cases hs
  rcases h with h | h
  · constructor
    · intro hafter
      by_contra hnot
      exact ((h.step commands c).2 hnot).not_held hafter
    · intro hfits
      exact ((h.step commands c).1 hfits).held
  · exact absurd hheld h.not_held

theorem synced_or_overfull_step (h : Synced s ∨ Overfull s) (hs : step commands s c = some s') :
    Synced s' ∨ Overfull s' := by
  cases hs
  rcases h with h | h
  · by_cases hfits : Fits s c
    · exact .inl ((h.step commands c).1 hfits)
    · exact .inr ((h.step commands c).2 hfits)
  · exact .inr (h.step commands c)

/-- **The bounds of the line**: it is in its bounds, and what was typed is looked up, in
every state of a run exactly if never more than 63 printable characters come without a
carriage return. -/
theorem held_iff (commands : CliCommandDict) (chars : List Char) :
    Always (step commands) Held cliAlloc chars ↔ Each (step commands) Fits cliAlloc chars :=
  always_iff_each (J := fun s => Synced s ∨ Overfull s)
    (fun _ _ _ h hs => synced_or_overfull_step h hs)
    (fun _ _ _ h hheld hs => held_step_iff h hheld hs) (.inl synced_cliAlloc)
    synced_cliAlloc.held chars

/-- A line of 64 characters. -/
def longLine : List Char := List.replicate maxLineLength 'a'

theorem long_line_overflows : ¬ Always (step fun _ => none) Held cliAlloc longLine := by
  have hrun : (runActions (step fun _ => none) (fun _ _ => True) cliAlloc longLine).map
      (fun s => s.cursorPosition.toNat) = some 64 := by decide +kernel
  obtain ⟨s, hs, hcursor⟩ := Option.map_eq_some_iff.mp hrun
  intro h
  have hlast := (h.last hs).cursor
  rw [hcursor] at hlast
  exact absurd hlast (by decide)

end RhsCore.CliApp
