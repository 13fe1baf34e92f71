import RhsCore.Lib.Transition

/-!
# Sending on the RS-485 bus

`rhs_hal_serial_tx` as it is built for `BMPLC_M`.  The pin PA15 enables the bus driver:
what the UART shifts out while the pin is low does not reach the bus.

The UART has two stages, and it works on its own.  Each access of the call to the UART or
to the pin is one step, and the UART can move a byte on between any two of them.

## Main definitions

* `Usart` — the two stages, with the steps they take by themselves.
* `rhsHalSerialTx` — the next step of the call.
* `Driven` — with the pin low, no byte of the buffer is on its way.
* `driven_iff` — when no order of steps gets the pin low too early.
-/

namespace RhsCore.Serial

/-! ## The UART -/

/-- A byte on its way: one of the buffer, or one that was written before the call. -/
structure Frame where
  byte : UInt8
  ours : Bool
  deriving DecidableEq, Repr

/-- The UART: whether it is enabled, its data register, and its shift register. -/
structure Usart where
  enabled : Bool
  tdr : Option Frame
  shift : Option Frame
  deriving DecidableEq, Repr

/-- `LL_USART_IsActiveFlag_TXE`: the data register can be written. -/
def Usart.txe (u : Usart) : Bool := u.tdr.isNone

/-- `LL_USART_TransmitData8`. -/
def Usart.transmitData8 (u : Usart) (byte : UInt8) : Usart := { u with tdr := some ⟨byte, true⟩ }

/-- The data register moves to the shift register. -/
def Usart.load (u : Usart) : Option Usart :=
  if u.shift = none ∧ u.tdr ≠ none then some { u with tdr := none, shift := u.tdr } else none

/-- The last bit of the byte in the shift register is out. -/
def Usart.complete (u : Usart) : Option (Frame × Usart) :=
  u.shift.map fun frame => (frame, { u with shift := none })

/-- The bytes of the buffer that are in a register. -/
def own : Option Frame → List UInt8
  | some ⟨byte, true⟩ => [byte]
  | _ => []

/-- The bytes of the buffer that are in the UART, the oldest first. -/
def Usart.own (u : Usart) : List UInt8 := Serial.own u.shift ++ Serial.own u.tdr

/-! ## The call -/

/-- Where the call is. -/
inductive Pc
  /-- Before `rhs_assert(serial->enabled == true)`. -/
  | entered
  /-- Before `LL_USART_IsEnabled`. -/
  | checking
  /-- Before PA15 is set. -/
  | enabling
  /-- At the head of the loop, with these bytes left. -/
  | sending (rest : List UInt8)
  /-- TXE has been seen. -/
  | writing (byte : UInt8) (rest : List UInt8)
  | returned
  | crashed
  deriving DecidableEq, Repr

/-- The call with its UART.  `pin` is PA15, and `sent` are the bytes of the buffer that
have been driven onto the bus completely. -/
structure State where
  enabled : Bool
  buffer : List UInt8
  usart : Usart
  pin : Bool
  pc : Pc
  sent : List UInt8
  deriving DecidableEq, Repr

/-- The call begins.  The UART may still be busy with bytes of an earlier one. -/
def init (enabled usartEnabled : Bool) (tdr shift : Option UInt8) (buffer : List UInt8) :
    State where
  enabled := enabled
  buffer := buffer
  usart :=
    { enabled := usartEnabled
      tdr := tdr.map fun byte => ⟨byte, false⟩
      shift := shift.map fun byte => ⟨byte, false⟩ }
  pin := false
  pc := .entered
  sent := []

/-- The next step of `rhs_hal_serial_tx`. -/
def rhsHalSerialTx (s : State) : Option State :=
  match s.pc with
  | .entered => some { s with pc := if s.enabled then .checking else .crashed }
  | .checking => some { s with pc := if s.usart.enabled then .enabling else .returned }
  | .enabling => some { s with pin := true, pc := .sending s.buffer }
  | .sending [] => some { s with pin := false, pc := .returned }
  | .sending (byte :: rest) =>
      some (if s.usart.txe then { s with pc := .writing byte rest } else s)
  | .writing byte rest =>
      some { s with usart := s.usart.transmitData8 byte, pc := .sending rest }
  | .returned => none
  | .crashed => none

/-- A byte is out: it has been driven if the pin was still set. -/
def State.shifted (s : State) (frame : Frame) (u : Usart) : State :=
  { s with usart := u, sent := if s.pin then s.sent ++ own (some frame) else s.sent }

/-- Who goes next. -/
inductive Action
  | call
  | load
  | complete
  deriving DecidableEq, Repr

def step (s : State) : Action → Option State
  | .call => rhsHalSerialTx s
  | .load => s.usart.load.map fun u => { s with usart := u }
  | .complete => s.usart.complete.map fun (frame, u) => s.shifted frame u

/-- With the pin low, no byte of the buffer is in the data register or the shift register. -/
def Driven (s : State) : Prop := s.pin = false → s.usart.own = []

instance (s : State) : Decidable (Driven s) := inferInstanceAs (Decidable (_ → _))

/-! ## What the UART does to the bytes -/

@[simp] theorem own_none : own none = [] := rfl
@[simp] theorem own_ours (byte : UInt8) : own (some ⟨byte, true⟩) = [byte] := rfl

@[simp] theorem own_earlier (byte : Option UInt8) :
    own (byte.map fun byte => ⟨byte, false⟩) = [] := by
  cases byte <;> rfl

/-- Moving a byte on loses none. -/
theorem Usart.own_load {u u' : Usart} (h : u.load = some u') :
    u'.own = u.own ∧ u'.enabled = u.enabled ∧ u'.tdr = none := by
  obtain ⟨hready, h⟩ := Option.ite_none_right_eq_some.mp h
  rw [← Option.some.inj h]
  simp [Usart.own, hready.1]

/-- The byte that gets out is the oldest. -/
theorem Usart.own_complete {u u' : Usart} {frame : Frame} (h : u.complete = some (frame, u')) :
    u.own = Serial.own (some frame) ++ u'.own ∧ u'.enabled = u.enabled ∧ u'.tdr = u.tdr := by
  obtain ⟨shifted, hshift, h⟩ := Option.map_eq_some_iff.mp h
  obtain ⟨rfl, rfl⟩ := Prod.mk.inj h
  simp [Usart.own, hshift]

theorem Usart.own_transmitData8 {u : Usart} (h : u.tdr = none) (byte : UInt8) :
    (u.transmitData8 byte).own = u.own ++ [byte] := by
  simp [Usart.transmitData8, Usart.own, h]

/-! ## What holds where -/

/-- What is known at each place of the call, as long as the pin was never low too early. -/
def Place (s : State) : Prop :=
  match s.pc with
  | .sending rest =>
      s.pin = true ∧ (s.enabled = true ∧ s.usart.enabled = true) ∧
        s.sent ++ s.usart.own ++ rest = s.buffer
  | .writing byte rest =>
      s.pin = true ∧ (s.enabled = true ∧ s.usart.enabled = true) ∧ s.usart.tdr = none ∧
        s.sent ++ s.usart.own ++ byte :: rest = s.buffer
  | .returned =>
      s.pin = false ∧ s.enabled = true ∧
        if s.usart.enabled then s.sent ++ s.usart.own = s.buffer else s.usart.own = []
  | .enabling =>
      s.pin = false ∧ (s.enabled = true ∧ s.usart.enabled = true) ∧ s.sent = [] ∧
        s.usart.own = []
  | .checking => s.pin = false ∧ s.enabled = true ∧ s.sent = [] ∧ s.usart.own = []
  | .entered => s.pin = false ∧ s.sent = [] ∧ s.usart.own = []
  | .crashed => s.usart.own = []

theorem place_init (enabled usartEnabled : Bool) (tdr shift : Option UInt8)
    (buffer : List UInt8) : Place (init enabled usartEnabled tdr shift buffer) := by
  simp [Place, init, Usart.own]

/-- **A step of the call** keeps what is known. -/
theorem Place.call {s s' : State} (h : Place s) (hs : rhsHalSerialTx s = some s') : Place s' := by
  obtain ⟨enabled, buffer, u, pin, pc, sent⟩ := s
  cases pc with
  | entered =>
      rw [← Option.some.inj hs]
      cases enabled <;> simp_all [Place]
  | checking =>
      rw [← Option.some.inj hs]
      by_cases hu : u.enabled = true
      · simp_all [Place]
      · simp_all [Place]
  | enabling =>
      rw [← Option.some.inj hs]
      simp_all [Place]
  | sending rest =>
      cases rest with
      | nil =>
          rw [← Option.some.inj hs]
          simp_all [Place]
      | cons byte rest =>
          rw [← Option.some.inj hs]
          by_cases htxe : u.txe = true
          · simp_all [Place, Usart.txe]
          · simp_all [Place]
  | writing byte rest =>
      rw [← Option.some.inj hs]
      obtain ⟨hpin, hon, htdr, hbytes⟩ := h
      refine ⟨hpin, hon, ?_⟩
      have hown := Usart.own_transmitData8 htdr byte
      simp_all
  | returned => cases hs
  | crashed => cases hs

/-- **A step of the UART** keeps it too, unless the pin is low too early. -/
theorem Place.load {s : State} {u : Usart} (h : Place s) (hs : s.usart.load = some u) :
    Place { s with usart := u } := by
  obtain ⟨hown, henabled, htdr⟩ := Usart.own_load hs
  simp only [Place, hown, henabled, htdr] at h ⊢
  split at h <;> simp_all

theorem Place.complete {s : State} {u : Usart} {frame : Frame} (h : Place s) (hd : Driven s)
    (hs : s.usart.complete = some (frame, u)) : Place (s.shifted frame u) := by
  obtain ⟨hown, henabled, htdr⟩ := Usart.own_complete hs
  have hlow : s.pin = false → own (some frame) = [] ∧ u.own = [] := by
    intro hpin
    rw [Driven, hown] at hd
    exact List.append_eq_nil_iff.mp (hd hpin)
  simp only [Place, State.shifted, hown, henabled, htdr] at h ⊢
  split at h <;> simp_all

theorem Place.step {s s' : State} {a : Action} (h : Place s) (hd : Driven s)
    (hs : step s a = some s') : Place s' := by
  cases a with
  | call => exact h.call hs
  | load =>
      obtain ⟨u, hu, rfl⟩ := Option.map_eq_some_iff.mp hs
      exact h.load hu
  | complete =>
      obtain ⟨⟨frame, u⟩, hu, rfl⟩ := Option.map_eq_some_iff.mp hs
      exact h.complete hd hu

/-- What no step changes. -/
def State.fixed (s : State) : List UInt8 × Bool × Bool := (s.buffer, s.enabled, s.usart.enabled)

theorem fixed_step {s s' : State} {a : Action} (hs : step s a = some s') :
    s'.fixed = s.fixed := by
  cases a with
  | call =>
      rw [step, rhsHalSerialTx] at hs
      split at hs
      · exact Option.some.inj hs ▸ rfl
      · exact Option.some.inj hs ▸ rfl
      · exact Option.some.inj hs ▸ rfl
      · exact Option.some.inj hs ▸ rfl
      · rw [← Option.some.inj hs]
        split <;> rfl
      · exact Option.some.inj hs ▸ rfl
      · cases hs
      · cases hs
  | load =>
      obtain ⟨u, hu, rfl⟩ := Option.map_eq_some_iff.mp hs
      simp [State.fixed, (Usart.own_load hu).2.1]
  | complete =>
      obtain ⟨⟨frame, u⟩, hu, rfl⟩ := Option.map_eq_some_iff.mp hs
      simp [State.fixed, State.shifted, (Usart.own_complete hu).2.1]

/-! ## When the pin is low too early -/

/-- A call that sends nothing cannot get the pin low too early. -/
theorem Place.driven {s : State} (h : Place s)
    (hnothing : s.buffer = [] ∨ s.enabled = false ∨ s.usart.enabled = false) : Driven s := by
  intro hpin
  simp only [Place, hpin] at h
  split at h
  · simp at h
  · simp at h
  · obtain ⟨-, henabled, hrest⟩ := h
    by_cases husart : s.usart.enabled = true
    · have hbuffer : s.buffer = [] := by simpa [henabled, husart] using hnothing
      rw [if_pos husart, hbuffer] at hrest
      exact (List.append_eq_nil_iff.mp hrest).2
    · rwa [if_neg husart] at hrest
  · exact h.2.2.2
  · exact h.2.2.2
  · exact h.2.2
  · exact h

/-- The UART gets a byte out of its data register if it is left to. -/
theorem exists_txe (s : State) : ∃ s', Reach step (fun _ _ => True) s s' ∧
    s'.usart.tdr = none ∧ s'.pc = s.pc := by
  by_cases htdr : s.usart.tdr = none
  · exact ⟨s, .start, htdr, rfl⟩
  · cases hshift : s.usart.shift with
    | none =>
        have hload : step s .load =
            some { s with usart := { s.usart with tdr := none, shift := s.usart.tdr } } := by
          simp [step, Usart.load, hshift, htdr]
        exact ⟨_, Reach.start.next trivial hload, rfl, rfl⟩
    | some frame =>
        have hcomplete : step s .complete =
            some (s.shifted frame { s.usart with shift := none }) := by
          simp [step, Usart.complete, hshift]
        have hload : step (s.shifted frame { s.usart with shift := none }) .load =
            some { s.shifted frame { s.usart with shift := none } with
              usart := { s.usart with tdr := none, shift := s.usart.tdr } } := by
          simp [step, Usart.load, State.shifted, htdr]
        exact ⟨_, (Reach.start.next trivial hcomplete).next trivial hload, rfl, rfl⟩

/-- With bytes left to send, the pin can get low with the last of them in the data register. -/
theorem exists_not_driven {start s : State} {byte : UInt8} {rest : List UInt8}
    (hreach : Reach step (fun _ _ => True) start s) (hpc : s.pc = .sending (byte :: rest)) :
    ∃ s', Reach step (fun _ _ => True) start s' ∧ ¬ Driven s' := by
  induction rest generalizing s byte with
  | nil =>
      obtain ⟨s₁, htxe, htdr, hpc₁⟩ := exists_txe s
      have hpoll : step s₁ .call = some { s₁ with pc := .writing byte [] } := by
        simp [step, rhsHalSerialTx, hpc₁, hpc, Usart.txe, htdr]
      have hall := (((hreach.trans htxe).next trivial hpoll).next (a := .call) trivial rfl).next
        (a := .call) trivial rfl
      refine ⟨_, hall, fun h => ?_⟩
      have hown := h rfl
      simp [Usart.transmitData8, Usart.own] at hown
  | cons byte' rest ih =>
      obtain ⟨s₁, htxe, htdr, hpc₁⟩ := exists_txe s
      have hpoll : step s₁ .call = some { s₁ with pc := .writing byte (byte' :: rest) } := by
        simp [step, rhsHalSerialTx, hpc₁, hpc, Usart.txe, htdr]
      have hall := ((hreach.trans htxe).next trivial hpoll).next (a := .call) trivial rfl
      exact ih hall rfl

/-- **The pin never gets low too early**, in any order of steps, exactly if the call sends
nothing: nothing after the last byte is written waits for the UART to send it. -/
theorem driven_iff (enabled usartEnabled : Bool) (tdr shift : Option UInt8)
    (buffer : List UInt8) :
    (∀ s, Reach step (fun _ _ => True) (init enabled usartEnabled tdr shift buffer) s →
      Driven s) ↔ buffer = [] ∨ enabled = false ∨ usartEnabled = false := by
  constructor
  · intro hall
    by_contra hsends
    simp only [not_or, Bool.not_eq_false] at hsends
    obtain ⟨hbuffer, rfl, rfl⟩ := hsends
    obtain ⟨byte, rest, rfl⟩ := List.exists_cons_of_ne_nil hbuffer
    have hrun : runActions step (fun _ _ => True) (init true true tdr shift (byte :: rest))
        [.call, .call, .call] = some _ := rfl
    obtain ⟨s, hreach, hearly⟩ := exists_not_driven (.of_runActions hrun) rfl
    exact hearly (hall s hreach)
  · intro hnothing s hreach
    have hfixed : Place s ∧ Driven s ∧
        s.fixed = (init enabled usartEnabled tdr shift buffer).fixed := by
      apply hreach.invariant
      · have hplace := place_init enabled usartEnabled tdr shift buffer
        exact ⟨hplace, hplace.driven hnothing, rfl⟩
      · intro s a s' hs _ hstep
        obtain ⟨hplace, hdriven, hfixed⟩ := hs
        have hplace' := hplace.step hdriven hstep
        have hfixed' := (fixed_step hstep).trans hfixed
        obtain ⟨hbuffer, henabled, husart⟩ : s'.buffer = buffer ∧ s'.enabled = enabled ∧
            s'.usart.enabled = usartEnabled := by
          simpa [State.fixed, init] using hfixed'
        refine ⟨hplace', hplace'.driven ?_, hfixed'⟩
        rwa [hbuffer, henabled, husart]
    exact hfixed.2.1

/-- One byte: the pin is low while the byte is in the data register. -/
theorem early_release_of_one_byte :
    ¬ ∀ s, Reach step (fun _ _ => True) (init true true none none [0x55]) s → Driven s := by
  intro hall
  have hrun : runActions step (fun _ _ => True) (init true true none none [0x55])
      [.call, .call, .call, .call, .call, .call] = some _ := rfl
  exact absurd (hall _ (.of_runActions hrun)) (by decide)

/-- On a run on which the pin is never low too early, a call that returns has driven the
whole buffer onto the bus. -/
theorem sent_of_always {usartEnabled : Bool} {tdr shift : Option UInt8} {buffer : List UInt8}
    {as : List Action} {s : State}
    (h : Always step Driven (init true usartEnabled tdr shift buffer) as)
    (hrun : runActions step (fun _ _ => True) (init true usartEnabled tdr shift buffer) as = some s)
    (hpc : s.pc = .returned) (husart : s.usart.enabled = true) : s.sent = buffer := by
  have hplace : Place s ∧ s.fixed = (init true usartEnabled tdr shift buffer).fixed := by
    apply h.invariant _ ⟨place_init true usartEnabled tdr shift buffer, rfl⟩ hrun
    intro s a s' hdriven hs hstep
    exact ⟨hs.1.step hdriven hstep, (fixed_step hstep).trans hs.2⟩
  obtain ⟨hplace, hfixed⟩ := hplace
  have hbuffer : s.buffer = buffer := by
    simp only [State.fixed, init, Prod.mk.injEq] at hfixed
    exact hfixed.1
  simp only [Place, hpc, husart, if_true] at hplace
  have hown := h.last hrun hplace.1
  rw [← hbuffer, ← hplace.2.2, hown, List.append_nil]

end RhsCore.Serial
