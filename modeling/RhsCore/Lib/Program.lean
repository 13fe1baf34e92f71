import Mathlib.Logic.Basic
import Mathlib.Data.List.Basic
import Mathlib.Tactic.ByContra

/-!
# Programs that talk to their environment

A program is a tree: it returns, it halts, or it performs an operation and goes on
with whatever the environment answers.  A driver, an interrupt handler or a kernel
wrapper is such a program, and what is left open — the hardware, a third-party
library, another thread — is the environment.

Two readings of a program are given.  `Exec` relates it to every log of operations
and answers that any environment can produce, which is what a safety statement
quantifies over.  `run` executes it against one environment with a state of its
own, which is what an interleaving is built from; `exec_run` says that the second
is an instance of the first.

## Main definitions

* `Prog O Ans α` — programs over operations `O`, answered by `Ans`.
* `Prog.Exec` — the logs and results of a program, under all environments.
* `Prog.Uses` — every operation a program can reach is an allowed one.
* `Prog.Returns` — the program ends with a result, under all environments.
* `Prog.iter` — a bounded loop, with its induction and termination rules.
* `Prog.run`, `Prog.runFor` — execution against one environment, whole or up to a point.
* `Prog.Served` — an environment that has choices, along a log.
-/

namespace RhsCore

/-- Why a program ended without a result: it gave up for good, or the bound on one
of its loops was too small to follow it. -/
inductive Halt
  | crash
  | fuel
  deriving DecidableEq, Repr

/-- A program over operations `O`, where the environment answers `o` in `Ans o`. -/
inductive Prog (O : Type) (Ans : O → Type) (α : Type) where
  | ret (a : α)
  | halt (h : Halt)
  | call (o : O) (k : Ans o → Prog O Ans α)

/-- An operation together with the answer it got. -/
abbrev Event {O : Type} (Ans : O → Type) := (o : O) × Ans o

namespace Prog

variable {O : Type} {Ans : O → Type} {α β σ s : Type}

/-- Sequencing: halting skips the rest. -/
def bind : Prog O Ans α → (α → Prog O Ans β) → Prog O Ans β
  | .ret a, f => f a
  | .halt h, _ => .halt h
  | .call o k, f => .call o fun a => (k a).bind f

instance : Monad (Prog O Ans) where
  pure := .ret
  bind := bind

/-- Perform one operation and return its answer. -/
def op (o : O) : Prog O Ans (Ans o) := .call o .ret

@[simp] theorem pure_eq (a : α) : (pure a : Prog O Ans α) = .ret a := rfl
@[simp] theorem ret_bind (a : α) (f : α → Prog O Ans β) : (.ret a >>= f) = f a := rfl
@[simp] theorem halt_bind (h : Halt) (f : α → Prog O Ans β) : (.halt h >>= f) = .halt h := rfl
@[simp] theorem call_bind (o : O) (k : Ans o → Prog O Ans α) (f : α → Prog O Ans β) :
    (.call o k >>= f) = .call o fun a => k a >>= f := rfl
@[simp] theorem op_bind (o : O) (f : Ans o → Prog O Ans β) : (op o >>= f) = .call o f := rfl

theorem bind_assoc (p : Prog O Ans α) (f : α → Prog O Ans β) {γ : Type} (g : β → Prog O Ans γ) :
    (p >>= f) >>= g = p >>= fun a => f a >>= g := by
  induction p with
  | ret a => rfl
  | halt h => rfl
  | call o k ih =>
      simp only [call_bind]
      exact congrArg _ (funext ih)

/-! ## Every environment -/

/-- `Exec p log r`: some environment answers `p` as in `log` and lets it end in `r`. -/
inductive Exec : Prog O Ans α → List (Event Ans) → Except Halt α → Prop
  | ret (a : α) : Exec (.ret a) [] (.ok a)
  | halt (h : Halt) : Exec (.halt h) [] (.error h)
  | call {o : O} {k : Ans o → Prog O Ans α} {log : List (Event Ans)} {r : Except Halt α}
      (a : Ans o) (h : Exec (k a) log r) : Exec (.call o k) (⟨o, a⟩ :: log) r

@[simp] theorem exec_ret_iff {a : α} {log : List (Event Ans)} {r : Except Halt α} :
    Exec (.ret a : Prog O Ans α) log r ↔ log = [] ∧ r = .ok a := by
  constructor
  · rintro ⟨⟩; exact ⟨rfl, rfl⟩
  · rintro ⟨rfl, rfl⟩; exact .ret a

@[simp] theorem exec_halt_iff {h : Halt} {log : List (Event Ans)} {r : Except Halt α} :
    Exec (.halt h : Prog O Ans α) log r ↔ log = [] ∧ r = .error h := by
  constructor
  · rintro ⟨⟩; exact ⟨rfl, rfl⟩
  · rintro ⟨rfl, rfl⟩; exact .halt h

@[simp] theorem exec_call_iff {o : O} {k : Ans o → Prog O Ans α} {log : List (Event Ans)}
    {r : Except Halt α} :
    Exec (.call o k) log r ↔ ∃ a l, log = ⟨o, a⟩ :: l ∧ Exec (k a) l r := by
  constructor
  · rintro ⟨⟩
    rename_i log a h
    exact ⟨a, log, rfl, h⟩
  · rintro ⟨a, l, rfl, h⟩; exact .call a h

/-- An operation on its own returns what it is answered. -/
theorem exec_op_iff {o : O} {log : List (Event Ans)} {a : Ans o} :
    Exec (.call o .ret) log (.ok a) ↔ log = [⟨o, a⟩] := by
  simp only [exec_call_iff, exec_ret_iff]
  constructor
  · rintro ⟨b, l, rfl, rfl, hb⟩
    rw [Except.ok.inj hb]
  · rintro rfl
    exact ⟨a, [], rfl, rfl, rfl⟩

/-- A sequence runs its first part to the end, unless that part halts. -/
theorem exec_bind_iff {p : Prog O Ans α} {f : α → Prog O Ans β} {log : List (Event Ans)}
    {r : Except Halt β} :
    Exec (p >>= f) log r ↔
      (∃ h, Exec p log (.error h) ∧ r = .error h) ∨
      ∃ a l₁ l₂, Exec p l₁ (.ok a) ∧ Exec (f a) l₂ r ∧ log = l₁ ++ l₂ := by
  induction p generalizing log with
  | ret a => simp
  | halt h => simp
  | call o k ih =>
      simp only [call_bind, exec_call_iff, ih]
      constructor
      · rintro ⟨a, l, rfl, ⟨h, hp, rfl⟩ | ⟨b, l₁, l₂, hp, hf, rfl⟩⟩
        · exact .inl ⟨h, ⟨a, l, rfl, hp⟩, rfl⟩
        · exact .inr ⟨b, ⟨o, a⟩ :: l₁, l₂, ⟨a, l₁, rfl, hp⟩, hf, rfl⟩
      · rintro (⟨h, ⟨a, l, rfl, hp⟩, rfl⟩ | ⟨b, _, l₂, ⟨a, l₁, rfl, hp⟩, hf, rfl⟩)
        · exact ⟨a, l, rfl, .inl ⟨h, hp, rfl⟩⟩
        · exact ⟨a, l₁ ++ l₂, rfl, .inr ⟨b, l₁, l₂, hp, hf, rfl⟩⟩

theorem exec_bind_ok_iff {p : Prog O Ans α} {f : α → Prog O Ans β} {log : List (Event Ans)}
    {b : β} :
    Exec (p >>= f) log (.ok b) ↔
      ∃ a l₁ l₂, Exec p l₁ (.ok a) ∧ Exec (f a) l₂ (.ok b) ∧ log = l₁ ++ l₂ := by
  simp [exec_bind_iff]

/-! ## Allowed operations -/

/-- Every operation that `p` can perform, whatever it is answered, is allowed. -/
def Uses (allowed : O → Prop) : Prog O Ans α → Prop
  | .ret _ => True
  | .halt _ => True
  | .call o k => allowed o ∧ ∀ a, (k a).Uses allowed

@[simp] theorem uses_ret {allowed : O → Prop} {a : α} :
    (.ret a : Prog O Ans α).Uses allowed := trivial
@[simp] theorem uses_halt {allowed : O → Prop} {h : Halt} :
    (.halt h : Prog O Ans α).Uses allowed := trivial
@[simp] theorem uses_call {allowed : O → Prop} {o : O} {k : Ans o → Prog O Ans α} :
    (.call o k : Prog O Ans α).Uses allowed ↔ allowed o ∧ ∀ a, (k a).Uses allowed := Iff.rfl

/-- A sequence needs its second part to behave only on the results of the first. -/
theorem Uses.bind {allowed : O → Prop} {p : Prog O Ans α} {f : α → Prog O Ans β}
    (hp : p.Uses allowed) (hf : ∀ log a, Exec p log (.ok a) → (f a).Uses allowed) :
    (p >>= f).Uses allowed := by
  induction p with
  | ret a => exact hf [] a (.ret a)
  | halt h => trivial
  | call o k ih =>
      refine ⟨hp.1, fun a => ih a (hp.2 a) ?_⟩
      intro log b h
      exact hf _ b (.call a h)

theorem Uses.mono {allowed allowed' : O → Prop} (h : ∀ o, allowed o → allowed' o)
    {p : Prog O Ans α} (hp : p.Uses allowed) : p.Uses allowed' := by
  induction p with
  | ret a => trivial
  | halt e => trivial
  | call o k ih => exact ⟨h o hp.1, fun a => ih a (hp.2 a)⟩

/-- The log of a program shows only operations that it uses. -/
theorem Uses.of_mem {allowed : O → Prop} {p : Prog O Ans α} {log : List (Event Ans)}
    {r : Except Halt α} (hp : p.Uses allowed) (h : Exec p log r) :
    ∀ e ∈ log, allowed e.1 := by
  induction h with
  | ret a => simp
  | halt h => simp
  | call a h ih =>
      intro e he
      rcases List.mem_cons.mp he with rfl | he
      · exact hp.1
      · exact ih (hp.2 a) e he

/-! ## Loops -/

/-- Run `body` from a loop state until it leaves with a result, at most `n` times. -/
def iter (body : s → Prog O Ans (s ⊕ β)) : ℕ → s → Prog O Ans β
  | 0, _ => .halt .fuel
  | n + 1, x => body x >>= fun
      | .inl x' => iter body n x'
      | .inr b => .ret b

theorem exec_iter_succ_iff {body : s → Prog O Ans (s ⊕ β)} {n : ℕ} {x : s}
    {log : List (Event Ans)} {r : Except Halt β} :
    Exec (iter body (n + 1) x) log r ↔
      (∃ h, Exec (body x) log (.error h) ∧ r = .error h) ∨
      (∃ b, Exec (body x) log (.ok (.inr b)) ∧ r = .ok b) ∨
      ∃ x' l₁ l₂, Exec (body x) l₁ (.ok (.inl x')) ∧ Exec (iter body n x') l₂ r ∧
        log = l₁ ++ l₂ := by
  rw [iter, exec_bind_iff]
  apply or_congr_right
  constructor
  · rintro ⟨x' | b, l₁, l₂, hb, hr, rfl⟩
    · exact .inr ⟨x', l₁, l₂, hb, hr, rfl⟩
    · rw [exec_ret_iff] at hr
      obtain ⟨rfl, rfl⟩ := hr
      exact .inl ⟨b, by simpa using hb, rfl⟩
  · rintro (⟨b, hb, rfl⟩ | ⟨x', l₁, l₂, hb, hr, rfl⟩)
    · exact ⟨.inr b, log, [], hb, by simp, by simp⟩
    · exact ⟨.inl x', l₁, l₂, hb, hr, rfl⟩

/-- **The loop invariant.**  When a loop returns, it does so from a turn that was
entered with the invariant `I`, which sees the log so far and the loop state. -/
theorem exec_iter_ok {body : s → Prog O Ans (s ⊕ β)} (I : List (Event Ans) → s → Prop)
    (hstep : ∀ pre x l x', I pre x → Exec (body x) l (.ok (.inl x')) → I (pre ++ l) x')
    {n : ℕ} {x : s} {pre log : List (Event Ans)} {b : β} (hI : I pre x)
    (h : Exec (iter body n x) log (.ok b)) :
    ∃ x' l₁ l₂, log = l₁ ++ l₂ ∧ I (pre ++ l₁) x' ∧ Exec (body x') l₂ (.ok (.inr b)) := by
  induction n generalizing x pre log with
  | zero => simp [iter] at h
  | succ n ih =>
      rw [exec_iter_succ_iff] at h
      rcases h with ⟨e, -, he⟩ | ⟨c, hc, hr⟩ | ⟨x', l₁, l₂, hb, hr, rfl⟩
      · cases he
      · cases hr
        exact ⟨x, [], log, rfl, by simpa using hI, hc⟩
      · obtain ⟨y, m₁, m₂, rfl, hIy, hy⟩ := ih (hstep pre x l₁ x' hI hb) hr
        exact ⟨y, l₁ ++ m₁, m₂, by simp, by simpa using hIy, hy⟩

/-- A loop that ends has ended in a turn. -/
theorem exec_iter_last {body : s → Prog O Ans (s ⊕ β)} {n : ℕ} {x : s}
    {log : List (Event Ans)} {b : β} (h : Exec (iter body n x) log (.ok b)) :
    ∃ x' l₁ l₂, log = l₁ ++ l₂ ∧ Exec (body x') l₂ (.ok (.inr b)) := by
  induction n generalizing x log with
  | zero => simp [iter] at h
  | succ n ih =>
      rw [exec_iter_succ_iff] at h
      rcases h with ⟨e, -, he⟩ | ⟨c, hc, hr⟩ | ⟨x', l₁, l₂, -, hr, rfl⟩
      · cases he
      · cases hr
        exact ⟨x, [], log, rfl, hc⟩
      · obtain ⟨y, m₁, m₂, rfl, hlast⟩ := ih hr
        exact ⟨y, l₁ ++ m₁, m₂, by simp, hlast⟩

/-- A loop whose turns stay allowed under an invariant stays allowed. -/
theorem uses_iter {allowed : O → Prop} {body : s → Prog O Ans (s ⊕ β)} (I : s → Prop)
    (huses : ∀ x, I x → (body x).Uses allowed)
    (hstep : ∀ x l x', I x → Exec (body x) l (.ok (.inl x')) → I x')
    {n : ℕ} {x : s} (hI : I x) : (iter body n x).Uses allowed := by
  induction n generalizing x with
  | zero => trivial
  | succ n ih =>
      refine Uses.bind (huses x hI) ?_
      rintro log (x' | b) h
      · exact ih (hstep x log x' hI h)
      · trivial

/-! ## Programs that always return -/

/-- `p` ends with a result, whatever it is answered. -/
def Returns (p : Prog O Ans α) : Prop := ∀ log h, ¬ Exec p log (.error h)

@[simp] theorem returns_ret {a : α} : (.ret a : Prog O Ans α).Returns := by
  simp [Returns]

@[simp] theorem returns_call_iff {o : O} {k : Ans o → Prog O Ans α} :
    (.call o k : Prog O Ans α).Returns ↔ ∀ a, (k a).Returns := by
  simp only [Returns, exec_call_iff, not_exists, not_and]
  exact ⟨fun h a log e => h _ e a log rfl, fun h log e a l _ => h a l e⟩

theorem Returns.bind {p : Prog O Ans α} {f : α → Prog O Ans β} (hp : p.Returns)
    (hf : ∀ log a, Exec p log (.ok a) → (f a).Returns) : (p >>= f).Returns := by
  intro log h hr
  rw [exec_bind_iff] at hr
  rcases hr with ⟨e, he, -⟩ | ⟨a, l₁, l₂, ha, hr, rfl⟩
  · exact hp log e he
  · exact hf l₁ a ha l₂ h hr

/-- **Termination.**  If every turn that goes on lowers a measure, a bound above the
measure is never exhausted. -/
theorem returns_iter {body : s → Prog O Ans (s ⊕ β)} (I : s → Prop) (m : s → ℕ)
    (hbody : ∀ x, I x → (body x).Returns)
    (hstep : ∀ x l x', I x → Exec (body x) l (.ok (.inl x')) → I x' ∧ m x' < m x)
    {n : ℕ} {x : s} (hI : I x) (hn : m x < n) : (iter body n x).Returns := by
  induction n generalizing x with
  | zero => omega
  | succ n ih =>
      refine Returns.bind (hbody x hI) ?_
      rintro log (x' | b) h
      · obtain ⟨hI', hm⟩ := hstep x log x' hI h
        exact ih hI' (by omega)
      · exact returns_ret

/-- A loop that can always make a turn towards the result `b` can end in it. -/
theorem exec_iter_exists {body : s → Prog O Ans (s ⊕ β)} (m : s → ℕ) (b : β)
    (hstep : ∀ x, (∃ l, Exec (body x) l (.ok (.inr b))) ∨
      ∃ l x', Exec (body x) l (.ok (.inl x')) ∧ m x' < m x)
    {n : ℕ} {x : s} (hn : m x < n) : ∃ log, Exec (iter body n x) log (.ok b) := by
  induction n generalizing x with
  | zero => omega
  | succ n ih =>
      rcases hstep x with ⟨l, h⟩ | ⟨l, x', h, hm⟩
      · exact ⟨l, exec_iter_succ_iff.mpr (.inr (.inl ⟨b, h, rfl⟩))⟩
      · obtain ⟨l', h'⟩ := ih (x := x') (by omega)
        exact ⟨l ++ l', exec_iter_succ_iff.mpr (.inr (.inr ⟨x', l, l', h, h', rfl⟩))⟩

/-! ## One environment -/

/-- What an execution leaves behind. -/
structure Run (Ans : O → Type) (σ α : Type) where
  log : List (Event Ans)
  state : σ
  result : Except Halt α

/-- Execute a program against an environment with state `σ`. -/
def run (h : (o : O) → σ → Ans o × σ) : Prog O Ans α → σ → Run Ans σ α
  | .ret a, x => ⟨[], x, .ok a⟩
  | .halt e, x => ⟨[], x, .error e⟩
  | .call o k, x =>
      let t := run h (k (h o x).1) (h o x).2
      ⟨⟨o, (h o x).1⟩ :: t.log, t.state, t.result⟩

/-- What an environment does is among what all environments do. -/
theorem exec_run (h : (o : O) → σ → Ans o × σ) (p : Prog O Ans α) (x : σ) :
    Exec p (run h p x).log (run h p x).result := by
  induction p generalizing x with
  | ret a => exact .ret a
  | halt e => exact .halt e
  | call o k ih => exact .call _ (ih _ _)

/-- Execute at most `n` operations: the log, what is left of the program, and the
environment's state. -/
def runFor (h : (o : O) → σ → Ans o × σ) : ℕ → Prog O Ans α → σ →
    List (Event Ans) × Prog O Ans α × σ
  | n + 1, .call o k, x =>
      let t := runFor h n (k (h o x).1) (h o x).2
      (⟨o, (h o x).1⟩ :: t.1, t.2)
  | _, p, x => ([], p, x)

/-- Stopping after `n` operations shows the first `n` of the whole log. -/
theorem runFor_log (h : (o : O) → σ → Ans o × σ) (n : ℕ) (p : Prog O Ans α) (x : σ) :
    (runFor h n p x).1 = (run h p x).log.take n := by
  induction n generalizing p x with
  | zero => cases p <;> rfl
  | succ n ih =>
      cases p with
      | ret a => rfl
      | halt e => rfl
      | call o k => exact congrArg _ (ih _ _)

/-- A property of the environment's state that an operation updates as `f` does can be
read off the log. -/
theorem runFor_state {γ : Type} (h : (o : O) → σ → Ans o × σ) (view : σ → γ) (f : γ → O → γ)
    (hf : ∀ o x, view (h o x).2 = f (view x) o) (n : ℕ) (p : Prog O Ans α) (x : σ) :
    view (runFor h n p x).2.2 = ((runFor h n p x).1.map (·.1)).foldl f (view x) := by
  induction n generalizing p x with
  | zero => cases p <;> rfl
  | succ n ih =>
      cases p with
      | ret a => rfl
      | halt e => rfl
      | call o k =>
          simp only [runFor, List.map_cons, List.foldl_cons, ← hf]
          exact ih _ _

/-! ## An environment that has choices -/

/-- `Served step x log y`: with steps of the environment that answer as in the log, it gets
from `x` to `y`. -/
inductive Served (step : σ → (o : O) → Ans o → σ → Prop) : σ → List (Event Ans) → σ → Prop
  | nil (x : σ) : Served step x [] x
  | cons {x y z : σ} {o : O} {a : Ans o} {log : List (Event Ans)} (h : step x o a y)
      (hrest : Served step y log z) : Served step x (⟨o, a⟩ :: log) z

section Served

variable {step : σ → (o : O) → Ans o → σ → Prop} {x y z : σ} {log l₁ l₂ : List (Event Ans)}

@[simp] theorem served_nil_iff : Served step x [] z ↔ z = x := by
  constructor
  · rintro ⟨⟩
    rfl
  · rintro rfl
    exact .nil z

@[simp] theorem served_cons_iff {o : O} {a : Ans o} :
    Served step x (⟨o, a⟩ :: log) z ↔ ∃ y, step x o a y ∧ Served step y log z := by
  constructor
  · rintro ⟨⟩
    exact ⟨_, ‹_›, ‹_›⟩
  · rintro ⟨y, h, hrest⟩
    exact .cons h hrest

/-- A log can be cut anywhere. -/
theorem served_append_iff :
    Served step x (l₁ ++ l₂) z ↔ ∃ y, Served step x l₁ y ∧ Served step y l₂ z := by
  induction l₁ generalizing x with
  | nil => simp
  | cons e l₁ ih =>
      obtain ⟨o, a⟩ := e
      simp only [List.cons_append, served_cons_iff, ih]
      constructor
      · rintro ⟨y, h, w, h₁, h₂⟩
        exact ⟨w, ⟨y, h, h₁⟩, h₂⟩
      · rintro ⟨w, ⟨y, h, h₁⟩, h₂⟩
        exact ⟨y, h, w, h₁, h₂⟩

/-- What allowed operations leave alone, a log of them leaves alone. -/
theorem Served.keeps {γ : Type} {view : σ → γ} {allowed : O → Prop}
    (hstep : ∀ x o a y, allowed o → step x o a y → view y = view x)
    (h : Served step x log z) (hlog : ∀ e ∈ log, allowed e.1) : view z = view x := by
  induction h with
  | nil x => rfl
  | cons hs _ ih =>
      have hrest := ih fun e he => hlog e (List.mem_cons_of_mem _ he)
      exact hrest.trans (hstep _ _ _ _ (hlog _ List.mem_cons_self) hs)

/-- An environment that can match every step can match a log. -/
theorem Served.simulates {τ : Type} {step' : τ → (o : O) → Ans o → τ → Prop} {R : σ → τ → Prop}
    {allowed : O → Prop}
    (hstep : ∀ x u o a y, allowed o → R x u → step x o a y → ∃ v, R y v ∧ step' u o a v)
    (h : Served step x log z) (hlog : ∀ e ∈ log, allowed e.1) {u : τ} (hR : R x u) :
    ∃ v, R z v ∧ Served step' u log v := by
  induction h generalizing u with
  | nil x => exact ⟨u, hR, .nil u⟩
  | cons hs _ ih =>
      obtain ⟨v, hv, hs'⟩ := hstep _ _ _ _ _ (hlog _ List.mem_cons_self) hR hs
      obtain ⟨w, hw, hrest⟩ := ih (fun e he => hlog e (List.mem_cons_of_mem _ he)) hv
      exact ⟨w, hw, .cons hs' hrest⟩

/-- An environment that always chooses in the same way is one of them. -/
theorem served_run (h : (o : O) → σ → Ans o × σ) (hstep : ∀ x o, step x o (h o x).1 (h o x).2)
    (p : Prog O Ans α) (x : σ) : Served step x (run h p x).log (run h p x).state := by
  induction p generalizing x with
  | ret a => exact .nil x
  | halt e => exact .nil x
  | call o k ih => exact .cons (hstep x o) (ih _ _)

end Served

end Prog
end RhsCore
