import RhsCore.Lib.Program

/-!
# Programs over programs

A handler says which program over lower operations performs an operation.  Interpreting a
program through it puts one layer of a system on top of another: what is allowed above
stays allowed below, and every log below is a log above with each of its operations
written out.

## Main definitions

* `Prog.interp` — a program with each operation replaced by what performs it.
* `Prog.Expands` — a log with each operation written out.
* `Prog.Uses.interp`, `Prog.exec_interp_ok_iff` — the two readings, through a handler.
* `Prog.eval` — the result where each operation always gets the same answer.
-/

namespace RhsCore.Prog

variable {O O' : Type} {Ans : O → Type} {Ans' : O' → Type} {α β s : Type}

/-- Perform each operation as the handler `h` says. -/
def interp (h : (o : O) → Prog O' Ans' (Ans o)) : Prog O Ans α → Prog O' Ans' α
  | .ret a => .ret a
  | .halt e => .halt e
  | .call o k => h o >>= fun a => (k a).interp h

variable {h : (o : O) → Prog O' Ans' (Ans o)}

@[simp] theorem interp_ret (a : α) : (.ret a : Prog O Ans α).interp h = .ret a := rfl
@[simp] theorem interp_halt (e : Halt) : (.halt e : Prog O Ans α).interp h = .halt e := rfl
@[simp] theorem interp_call (o : O) (k : Ans o → Prog O Ans α) :
    (.call o k : Prog O Ans α).interp h = h o >>= fun a => (k a).interp h := rfl

/-- A sequence is interpreted part by part. -/
theorem interp_bind (p : Prog O Ans α) (f : α → Prog O Ans β) :
    (p >>= f).interp h = p.interp h >>= fun a => (f a).interp h := by
  induction p with
  | ret a => rfl
  | halt e => rfl
  | call o k ih =>
      simp only [call_bind, interp_call, bind_assoc]
      exact congrArg _ (funext ih)

/-- Returning what is there changes nothing. -/
@[simp] theorem bind_ret (p : Prog O Ans α) : (p >>= .ret) = p := by
  induction p with
  | ret a => rfl
  | halt e => rfl
  | call o k ih =>
      simp only [call_bind]
      exact congrArg _ (funext ih)

/-! ## Allowed operations -/

/-- Nothing is forbidden if everything is allowed. -/
theorem uses_true (p : Prog O Ans α) : p.Uses fun _ => True := by
  induction p with
  | ret a => trivial
  | halt e => trivial
  | call o k ih => exact ⟨trivial, ih⟩

/-- If allowed operations are performed by allowed operations, so is a program of them. -/
theorem Uses.interp {allowed : O → Prop} {allowed' : O' → Prop} {p : Prog O Ans α}
    (hp : p.Uses allowed) (hh : ∀ o, allowed o → (h o).Uses allowed') :
    (p.interp h).Uses allowed' := by
  induction p with
  | ret a => trivial
  | halt e => trivial
  | call o k ih => exact Uses.bind (hh o hp.1) fun _ a _ => ih a (hp.2 a)

/-! ## Logs written out -/

/-- `Expands h log log'`: with each operation of `log` written out, it is `log'`. -/
inductive Expands (h : (o : O) → Prog O' Ans' (Ans o)) :
    List (Event Ans) → List (Event Ans') → Prop
  | nil : Expands h [] []
  | cons {o : O} {a : Ans o} {l : List (Event Ans')} {log : List (Event Ans)}
      {log' : List (Event Ans')} (hl : Exec (h o) l (.ok a)) (hrest : Expands h log log') :
      Expands h (⟨o, a⟩ :: log) (l ++ log')

/-- **A result below is a result above**, in which each operation got an answer that its
handler can give. -/
theorem exec_interp_ok_iff {p : Prog O Ans α} {log' : List (Event Ans')} {r : α} :
    Exec (p.interp h) log' (.ok r) ↔ ∃ log, Exec p log (.ok r) ∧ Expands h log log' := by
  induction p generalizing log' with
  | ret a =>
      simp only [interp_ret, exec_ret_iff]
      constructor
      · rintro ⟨rfl, hr⟩
        exact ⟨[], ⟨rfl, hr⟩, .nil⟩
      · rintro ⟨log, ⟨rfl, hr⟩, hlog⟩
        cases hlog
        exact ⟨rfl, hr⟩
  | halt e => simp
  | call o k ih =>
      simp only [interp_call, exec_bind_ok_iff, ih, exec_call_iff]
      constructor
      · rintro ⟨a, l, _, ha, ⟨log, hk, hlog⟩, rfl⟩
        exact ⟨⟨o, a⟩ :: log, ⟨a, log, rfl, hk⟩, .cons ha hlog⟩
      · rintro ⟨_, ⟨a, log, rfl, hk⟩, hlog⟩
        cases hlog with
        | cons ha hrest => exact ⟨a, _, _, ha, ⟨log, hk, hrest⟩, rfl⟩

/-- A log whose answers its handler can give can be written out. -/
theorem exists_expands {log : List (Event Ans)}
    (hlog : ∀ e ∈ log, ∃ l, Exec (h e.1) l (.ok e.2)) : ∃ log', Expands h log log' := by
  induction log with
  | nil => exact ⟨[], .nil⟩
  | cons e log ih =>
      obtain ⟨log', hrest⟩ := ih fun e he => hlog e (List.mem_cons_of_mem _ he)
      obtain ⟨l, hl⟩ := hlog e List.mem_cons_self
      exact ⟨l ++ log', .cons hl hrest⟩

/-- What performs an operation of a log is part of the log written out. -/
theorem Expands.exists_of_mem {log : List (Event Ans)} {log' : List (Event Ans')}
    {e : Event Ans} (hlog : Expands h log log') (he : e ∈ log) :
    ∃ l, Exec (h e.1) l (.ok e.2) ∧ l ⊆ log' := by
  induction hlog with
  | nil => simp at he
  | cons hl hrest ih =>
      rcases List.mem_cons.mp he with rfl | he
      · exact ⟨_, hl, List.subset_append_left _ _⟩
      · obtain ⟨l, hexec, hsub⟩ := ih he
        exact ⟨l, hexec, fun e' he' => List.mem_append_right _ (hsub he')⟩

/-! ## An environment that always answers alike -/

/-- The result of a program where `answers o` is the answer to `o` each time. -/
def eval (answers : (o : O) → Ans o) (p : Prog O Ans α) : Except Halt α :=
  (run (fun o (_ : Unit) => (answers o, ())) p ()).result

section

variable {answers : (o : O) → Ans o} {answers' : (o : O') → Ans' o}

@[simp] theorem eval_ret (a : α) : (.ret a : Prog O Ans α).eval answers = .ok a := rfl
@[simp] theorem eval_halt (e : Halt) : (.halt e : Prog O Ans α).eval answers = .error e := rfl
@[simp] theorem eval_call (o : O) (k : Ans o → Prog O Ans α) :
    (.call o k : Prog O Ans α).eval answers = (k (answers o)).eval answers := rfl

/-- Such an environment is one of them. -/
theorem exists_exec_of_eval {p : Prog O Ans α} {r : Except Halt α} (h : p.eval answers = r) :
    ∃ log, Exec p log r := by
  subst h
  exact ⟨_, exec_run _ p ()⟩

theorem eval_bind_of_ok {p : Prog O Ans α} {f : α → Prog O Ans β} {a : α}
    (h : p.eval answers = .ok a) : (p >>= f).eval answers = (f a).eval answers := by
  induction p with
  | ret b =>
      obtain rfl := Except.ok.inj h
      rfl
  | halt e => cases h
  | call o k ih => exact ih (answers o) h

/-- Where the handler gives the answers that are expected above. -/
theorem eval_interp (hh : ∀ o, (h o).eval answers' = .ok (answers o)) (p : Prog O Ans α) :
    (p.interp h).eval answers' = p.eval answers := by
  induction p with
  | ret a => rfl
  | halt e => rfl
  | call o k ih =>
      rw [interp_call, eval_bind_of_ok (hh o)]
      exact ih (answers o)

end

end RhsCore.Prog
