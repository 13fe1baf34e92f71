import Mathlib.Data.List.Basic
import Mathlib.Data.Nat.Notation
import RhsCore.Lib.Transition

/-!
# The speaker and the notification service

`rhs_hal_speaker.c` with a mutex for the speaker, and `notification_srv` of
`notification_app.c`, which takes sequences of messages from its queue and plays them.  Other
tasks may use the speaker as well, each only while the mutex is theirs.

A tone stands for its frequency and volume.  A delay ends when it ends, and the service gives
up to wait for the speaker only when someone else has it.

## Main definitions

* `notificationSrv`, `acquireTimeout` — the next step of the service.
* `heard` — the tone behind the messages that had an effect.
* `speaker_follows` — what is played, in every order of steps.
-/

namespace RhsCore.Speaker

variable {τ : Type}

/-! ## The tasks -/

/-- `NotificationMessage` -/
inductive Message (τ : Type)
  | soundOn (tone : τ)
  | soundOff
  | delay (length : ℕ)
  | doNotReset
  deriving DecidableEq, Repr

inductive Task
  | srv
  | other (id : ℕ)
  deriving DecidableEq, Repr

/-- Where `notification_srv` is. -/
inductive SrvPc (τ : Type)
  /-- In `rhs_message_queue_get`. -/
  | getting
  /-- Before the first message of the rest of a sequence. -/
  | playing (rest : List (Message τ))
  /-- In `rhs_hal_speaker_acquire(30)`. -/
  | acquiring (tone : τ) (rest : List (Message τ))
  /-- Before `rhs_hal_speaker_start`. -/
  | starting (tone : τ) (rest : List (Message τ))
  deriving DecidableEq, Repr

/-- The service and the speaker.  `put` are the sequences that were put into the queue, and
`handled` the messages the service is through with, each with whether it had an effect;
`taken` says whether another task ever had the speaker. -/
structure State (τ : Type) where
  queue : List (List (Message τ))
  srv : SrvPc τ
  owner : Option Task
  tone : Option τ
  put : List (List (Message τ))
  handled : List (Message τ × Bool)
  taken : Bool
  deriving DecidableEq, Repr

/-- The service has put `sequence_success` into its own queue. -/
def init (sequenceSuccess : List (Message τ)) : State τ where
  queue := [sequenceSuccess]
  srv := .getting
  owner := none
  tone := none
  put := [sequenceSuccess]
  handled := []
  taken := false

def rhsHalSpeakerIsMine (task : Task) (s : State τ) : Bool := s.owner = some task

def rhsHalSpeakerAcquire (task : Task) (s : State τ) : Option (State τ) :=
  if s.owner = none then some { s with owner := some task } else none

def rhsHalSpeakerStart (tone : τ) (s : State τ) : State τ := { s with tone := some tone }

def rhsHalSpeakerStop (s : State τ) : State τ := { s with tone := none }

def rhsHalSpeakerRelease (task : Task) (s : State τ) : Option (State τ) :=
  if rhsHalSpeakerIsMine task s then some { rhsHalSpeakerStop s with owner := none } else none

/-- The service is through with a message. -/
def State.next (s : State τ) (m : Message τ) (effect : Bool) (rest : List (Message τ)) :
    State τ :=
  { s with srv := .playing rest, handled := s.handled ++ [(m, effect)] }

/-- The next step of `notification_srv`. -/
def notificationSrv (s : State τ) : Option (State τ) :=
  match s.srv with
  | .getting =>
      match s.queue with
      | [] => none
      | sequence :: queue => some { s with queue := queue, srv := .playing sequence }
  | .playing [] => some { s with srv := .getting }
  | .playing (.soundOn tone :: rest) =>
      if rhsHalSpeakerIsMine .srv s then some { s with srv := .starting tone rest }
      else some { s with srv := .acquiring tone rest }
  | .playing (.soundOff :: rest) =>
      if rhsHalSpeakerIsMine .srv s then
        (rhsHalSpeakerRelease .srv s).map fun s => s.next .soundOff true rest
      else some (s.next .soundOff true rest)
  | .playing (.delay length :: rest) => some (s.next (.delay length) true rest)
  | .playing (.doNotReset :: rest) => some (s.next .doNotReset true rest)
  | .acquiring tone rest =>
      (rhsHalSpeakerAcquire .srv s).map fun s => { s with srv := .starting tone rest }
  | .starting tone rest => some ((rhsHalSpeakerStart tone s).next (.soundOn tone) true rest)

/-- 30 ticks have passed in `rhs_hal_speaker_acquire`. -/
def acquireTimeout (s : State τ) : Option (State τ) :=
  match s.srv with
  | .acquiring tone rest =>
      if s.owner = none then none else some (s.next (.soundOn tone) false rest)
  | _ => none

/-- `notification_message`, into the queue of 8. -/
def notificationMessage (sequence : List (Message τ)) (s : State τ) : Option (State τ) :=
  if s.queue.length < 8 then
    some { s with queue := s.queue ++ [sequence], put := s.put ++ [sequence] }
  else none

/-- Who goes next; the last four are another task's calls. -/
inductive Action (τ : Type)
  | srv
  | timeout
  | message (sequence : List (Message τ))
  | acquire (id : ℕ)
  | start (id : ℕ) (tone : τ)
  | stop (id : ℕ)
  | release (id : ℕ)
  deriving DecidableEq, Repr

def step (s : State τ) : Action τ → Option (State τ)
  | .srv => notificationSrv s
  | .timeout => acquireTimeout s
  | .message sequence => notificationMessage sequence s
  | .acquire id => (rhsHalSpeakerAcquire (.other id) s).map fun s => { s with taken := true }
  | .start id tone =>
      if rhsHalSpeakerIsMine (.other id) s then some (rhsHalSpeakerStart tone s) else none
  | .stop id => if rhsHalSpeakerIsMine (.other id) s then some (rhsHalSpeakerStop s) else none
  | .release id => rhsHalSpeakerRelease (.other id) s

/-! ## What is played -/

/-- The messages of a sequence that are still to be handled. -/
def SrvPc.rest : SrvPc τ → List (Message τ)
  | .getting => []
  | .playing rest => rest
  | .acquiring tone rest | .starting tone rest => .soundOn tone :: rest

/-- A message, and the tone before it. -/
def Message.sound (m : Message τ) (tone : Option τ) : Option τ :=
  match m with
  | .soundOn tone => some tone
  | .soundOff => none
  | .delay _ | .doNotReset => tone

/-- The tone that messages leave. -/
def wanted (ms : List (Message τ)) : Option τ := ms.foldl (fun tone m => m.sound tone) none

/-- The tone that is left by those that had an effect. -/
def heard (handled : List (Message τ × Bool)) : Option τ :=
  wanted ((handled.filter (·.2)).map Prod.fst)

variable {s s' : State τ} {sequenceSuccess : List (Message τ)}

theorem heard_append_true (handled : List (Message τ × Bool)) (m : Message τ) :
    heard (handled ++ [(m, true)]) = m.sound (heard handled) := by
  simp [heard, wanted]

theorem heard_append_false (handled : List (Message τ × Bool)) (m : Message τ) :
    heard (handled ++ [(m, false)]) = heard handled := by
  simp [heard]

/-- Where all had an effect, what is heard is what was wanted. -/
theorem heard_of_all {handled : List (Message τ × Bool)} (h : ∀ e ∈ handled, e.2 = true) :
    heard handled = wanted (handled.map Prod.fst) := by
  rw [heard, List.filter_eq_self.mpr h]

/-- Every message is handled, or is to be handled in its turn; and the speaker plays what the
service let be heard, while it is the service's. -/
structure Good (s : State τ) : Prop where
  order : s.handled.map Prod.fst ++ s.srv.rest ++ s.queue.flatten = s.put.flatten
  room : s.queue.length ≤ 8
  silent : s.owner = none → s.tone = none
  mine : heard s.handled = if s.owner = some .srv then s.tone else none
  starting : ∀ tone rest, s.srv = .starting tone rest → s.owner = some .srv
  acquiring : ∀ tone rest, s.srv = .acquiring tone rest → s.owner ≠ some .srv
  kept : s.owner = some .srv → s.tone = none → ∃ tone rest, s.srv = .starting tone rest
  alone : s.taken = false →
    (s.owner = none ∨ s.owner = some .srv) ∧ ∀ e ∈ s.handled, e.2 = true

theorem good_init (sequenceSuccess : List (Message τ)) : Good (init sequenceSuccess) where
  order := rfl
  room := by simp [init]
  silent := fun _ => rfl
  mine := rfl
  starting := by simp [init]
  acquiring := by simp [init]
  kept := fun h => nomatch h
  alone := fun _ => ⟨.inl rfl, fun _ h => nomatch h⟩

/-- The service is through with a message, and the speaker may have changed. -/
theorem Good.next (h : Good s) {m : Message τ} {rest : List (Message τ)} {effect : Bool}
    {owner : Option Task} {tone : Option τ} (hrest : s.srv.rest = m :: rest)
    (hheard : heard (s.handled ++ [(m, effect)]) = if owner = some .srv then tone else none)
    (hsilent : owner = none → tone = none) (hkept : owner = some .srv → tone ≠ none)
    (halone : s.taken = false → effect = true ∧ (owner = none ∨ owner = some .srv)) :
    Good ({ s with owner := owner, tone := tone }.next m effect rest) where
  order := by
    have horder := h.order
    rw [hrest] at horder
    simpa [State.next, SrvPc.rest] using horder
  room := h.room
  silent := hsilent
  mine := hheard
  starting := by simp [State.next]
  acquiring := by simp [State.next]
  kept := fun ho ht => absurd ht (hkept ho)
  alone := by
    intro htaken
    obtain ⟨heffect, howner⟩ := halone htaken
    refine ⟨howner, ?_⟩
    intro e he
    rcases List.mem_append.mp he with he | he
    · exact (h.alone htaken).2 e he
    · rw [List.mem_singleton.mp he]
      exact heffect

/-- A message that leaves the speaker alone. -/
theorem Good.next_same (h : Good s) {m : Message τ} {rest : List (Message τ)} {effect : Bool}
    (hrest : s.srv.rest = m :: rest) (hnot : ∀ tone rest, s.srv ≠ .starting tone rest)
    (hheard : heard (s.handled ++ [(m, effect)]) = heard s.handled)
    (heffect : s.taken = false → effect = true) : Good (s.next m effect rest) := by
  refine h.next hrest (hheard.trans h.mine) h.silent ?_ ?_
  · intro howner htone
    obtain ⟨tone, rest, hs⟩ := h.kept howner htone
    exact hnot tone rest hs
  · intro htaken
    exact ⟨heffect htaken, (h.alone htaken).1⟩

theorem good_notificationSrv (h : Good s) (hs : notificationSrv s = some s') : Good s' := by
  have horder := h.order
  rw [notificationSrv] at hs
  cases hw : s.srv with
  | getting =>
      have hkept (howner : s.owner = some .srv) : s.tone ≠ none := by
        intro htone
        obtain ⟨_, _, hstart⟩ := h.kept howner htone
        cases hw.symm.trans hstart
      cases hq : s.queue with
      | nil => simp [hw, hq] at hs
      | cons sequence queue =>
          simp only [hw, hq, Option.some.injEq] at hs
          rw [← hs]
          refine { h with order := ?_, room := ?_, starting := by simp, acquiring := by simp,
                          kept := ?_ }
          · simpa [hw, hq, SrvPc.rest] using horder
          · have hroom := h.room
            rw [hq, List.length_cons] at hroom
            exact Nat.le_of_succ_le hroom
          · intro howner htone
            exact absurd htone (hkept howner)
  | playing ms =>
      have hnot : ∀ tone rest, s.srv ≠ .starting tone rest := by simp [hw]
      have hkept (howner : s.owner = some .srv) : s.tone ≠ none := by
        intro htone
        obtain ⟨tone, rest, hstart⟩ := h.kept howner htone
        exact hnot tone rest hstart
      cases ms with
      | nil =>
          simp only [hw, Option.some.injEq] at hs
          rw [← hs]
          refine { h with order := ?_, starting := by simp, acquiring := by simp, kept := ?_ }
          · simpa [hw, SrvPc.rest] using horder
          · intro howner htone
            exact absurd htone (hkept howner)
      | cons m rest =>
          have hrest : s.srv.rest = m :: rest := by rw [hw, SrvPc.rest]
          cases m with
          | soundOn tone =>
              simp only [hw, rhsHalSpeakerIsMine, decide_eq_true_eq] at hs
              by_cases hmine : s.owner = some .srv
              · rw [if_pos hmine] at hs
                rw [← Option.some.inj hs]
                refine { h with order := ?_, starting := ?_, acquiring := by simp, kept := ?_ }
                · simpa [hw, SrvPc.rest] using horder
                · intro _ _ _
                  exact hmine
                · intro _ _
                  exact ⟨tone, rest, rfl⟩
              · rw [if_neg hmine] at hs
                rw [← Option.some.inj hs]
                refine { h with order := ?_, starting := by simp, acquiring := ?_, kept := ?_ }
                · simpa [hw, SrvPc.rest] using horder
                · intro _ _ _
                  exact hmine
                · intro howner _
                  exact absurd howner hmine
          | soundOff =>
              simp only [hw, rhsHalSpeakerRelease, rhsHalSpeakerIsMine, decide_eq_true_eq] at hs
              by_cases hmine : s.owner = some .srv
              · simp only [hmine, if_true, Option.map_some, Option.some.injEq] at hs
                rw [← hs]
                apply h.next hrest
                · rw [heard_append_true]
                  rfl
                · intro _
                  rfl
                · intro howner
                  cases howner
                · intro _
                  exact ⟨rfl, .inl rfl⟩
              · rw [if_neg hmine] at hs
                rw [← Option.some.inj hs]
                apply h.next_same hrest hnot
                · rw [heard_append_true, h.mine, if_neg hmine]
                  rfl
                · intro _
                  rfl
          | delay | doNotReset =>
              simp only [hw, Option.some.injEq] at hs
              rw [← hs]
              apply h.next_same hrest hnot
              · rw [heard_append_true]
                rfl
              · intro _
                rfl
  | acquiring tone rest =>
      simp only [hw, rhsHalSpeakerAcquire] at hs
      by_cases hfree : s.owner = none
      · rw [if_pos hfree] at hs
        rw [← Option.some.inj hs]
        refine { h with order := ?_, silent := ?_, mine := ?_, starting := ?_,
                        acquiring := by simp, kept := ?_, alone := ?_ }
        · simpa [hw, SrvPc.rest] using horder
        · intro howner
          cases howner
        · -- nobody had the speaker, so that it was silent
          simp [h.mine, hfree, h.silent hfree]
        · intro _ _ _
          rfl
        · intro _ _
          exact ⟨tone, rest, rfl⟩
        · intro htaken
          exact ⟨.inr rfl, (h.alone htaken).2⟩
      · rw [if_neg hfree] at hs
        cases hs
  | starting tone rest =>
      have hmine := h.starting tone rest hw
      simp only [hw, Option.some.injEq] at hs
      rw [← hs]
      apply h.next (by rw [hw, SrvPc.rest])
      · rw [heard_append_true, if_pos hmine]
        rfl
      · intro howner
        rw [hmine] at howner
        cases howner
      · intro _ htone
        cases htone
      · intro _
        exact ⟨rfl, .inr hmine⟩

theorem good_acquireTimeout (h : Good s) (hs : acquireTimeout s = some s') : Good s' := by
  rw [acquireTimeout] at hs
  cases hw : s.srv with
  | acquiring tone rest =>
      simp only [hw] at hs
      by_cases hfree : s.owner = none
      · rw [if_pos hfree] at hs
        cases hs
      · rw [if_neg hfree] at hs
        rw [← Option.some.inj hs]
        apply h.next_same (by rw [hw, SrvPc.rest]) (by simp [hw])
        · rw [heard_append_false]
        · -- the service does not wait for itself
          intro htaken
          rcases (h.alone htaken).1 with hnone | hsrv
          · exact absurd hnone hfree
          · exact absurd hsrv (h.acquiring tone rest hw)
  | _ =>
      rw [hw] at hs
      cases hs

theorem good_notificationMessage {sequence : List (Message τ)} (h : Good s)
    (hs : notificationMessage sequence s = some s') : Good s' := by
  rw [notificationMessage, Option.ite_none_right_eq_some, Option.some.injEq] at hs
  rw [← hs.2]
  refine { h with order := ?_, room := ?_ }
  · have horder := h.order
    simp only [List.flatten_append, List.flatten_singleton, ← List.append_assoc, horder]
  · simp only [List.length_append, List.length_singleton]
    exact hs.1

/-- What another task does with the speaker. -/
theorem Good.other (h : Good s) {owner : Option Task} {tone : Option τ} {taken : Bool}
    (hbefore : s.owner ≠ some .srv) (hafter : owner ≠ some .srv)
    (hsilent : owner = none → tone = none)
    (halone : taken = false → s.taken = false ∧ owner = none) :
    Good { s with owner := owner, tone := tone, taken := taken } where
  order := h.order
  room := h.room
  silent := hsilent
  mine := by
    rw [if_neg hafter, h.mine, if_neg hbefore]
  starting := fun tone rest hs => absurd (h.starting tone rest hs) hbefore
  acquiring := fun _ _ _ => hafter
  kept := fun howner => absurd howner hafter
  alone := by
    intro htaken
    obtain ⟨hsame, howner⟩ := halone htaken
    exact ⟨.inl howner, (h.alone hsame).2⟩

/-- Where another task has the speaker, one took it. -/
theorem Good.taken (h : Good s) {id : ℕ} (hother : s.owner = some (.other id)) :
    s.taken = true := by
  by_contra htaken
  rcases (h.alone (Bool.not_eq_true _ ▸ htaken)).1 with howner | howner
  · cases hother.symm.trans howner
  · cases hother.symm.trans howner

theorem good_step {a : Action τ} (h : Good s) (hs : step s a = some s') : Good s' := by
  cases a with
  | srv => exact good_notificationSrv h hs
  | timeout => exact good_acquireTimeout h hs
  | message sequence => exact good_notificationMessage h hs
  | acquire id =>
      simp only [step, rhsHalSpeakerAcquire] at hs
      by_cases hfree : s.owner = none
      · rw [if_pos hfree] at hs
        rw [← Option.some.inj hs]
        exact h.other (by simp [hfree]) (by simp) (by simp) (by simp)
      · rw [if_neg hfree] at hs
        cases hs
  | start id tone =>
      simp only [step, rhsHalSpeakerIsMine, decide_eq_true_eq, Option.ite_none_right_eq_some,
        Option.some.injEq] at hs
      rw [← hs.2]
      apply h.other (by simp [hs.1]) (by simp [hs.1]) (by simp [hs.1])
      simp [h.taken hs.1]
  | stop id =>
      simp only [step, rhsHalSpeakerIsMine, decide_eq_true_eq, Option.ite_none_right_eq_some,
        Option.some.injEq] at hs
      rw [← hs.2]
      apply h.other (by simp [hs.1]) (by simp [hs.1]) (by simp [hs.1])
      simp [h.taken hs.1]
  | release id =>
      simp only [step, rhsHalSpeakerRelease, rhsHalSpeakerIsMine, decide_eq_true_eq,
        Option.ite_none_right_eq_some, Option.some.injEq] at hs
      rw [← hs.2]
      apply h.other (by simp [hs.1]) (by simp) (fun _ => rfl)
      simp [rhsHalSpeakerStop, h.taken hs.1]

/-- **The speaker follows the service**: all messages of all sequences are handled in order;
while the speaker is the service's it plays what it let be heard, and otherwise nothing of
it; a speaker that is nobody's is silent; and as long as no other task has taken the speaker,
it plays what the messages ask for.  Between two sequences the service keeps the speaker
exactly if a tone was not ended. -/
theorem speaker_follows (h : Reach step (fun _ _ => True) (init sequenceSuccess) s) :
    s.handled.map Prod.fst ++ s.srv.rest ++ s.queue.flatten = s.put.flatten ∧
      s.queue.length ≤ 8 ∧ (s.owner = none → s.tone = none) ∧
      heard s.handled = (if s.owner = some .srv then s.tone else none) ∧
      (s.taken = false → s.tone = wanted (s.handled.map Prod.fst)) ∧
      (s.srv = .getting → (s.owner = some .srv ↔ heard s.handled ≠ none)) := by
  have hgood : Good s := h.invariant (good_init _) fun _ _ _ hI _ hs => good_step hI hs
  refine ⟨hgood.order, hgood.room, hgood.silent, hgood.mine, ?_, ?_⟩
  · intro htaken
    obtain ⟨howner, hall⟩ := hgood.alone htaken
    rw [← heard_of_all hall, hgood.mine]
    rcases howner with howner | howner
    · simp [howner, hgood.silent howner]
    · simp [howner]
  · intro hgetting
    rw [hgood.mine]
    constructor
    · intro howner htone
      rw [if_pos howner] at htone
      obtain ⟨tone, rest, hs⟩ := hgood.kept howner htone
      cases hgetting.symm.trans hs
    · intro hne
      by_contra howner
      rw [if_neg howner] at hne
      exact hne rfl

/-- A tone that is not ended, and the speaker is kept from the other task. -/
theorem open_tone_keeps_speaker : ∃ s, Reach step (fun _ _ => True) (init [.soundOn 440]) s ∧
    s.srv = .getting ∧ step s (.acquire 0) = none ∧ s.tone = some 440 ∧
    (s.owner = some .srv ↔ heard s.handled ≠ none) := by
  have hrun : Reach step (fun _ _ => True) (init [.soundOn 440]) _ :=
    @Reach.of_runActions _ _ _ _ _ [.srv, .srv, .srv, .srv, .srv] _ _ rfl
  exact ⟨_, hrun, rfl, rfl, rfl, (speaker_follows hrun).2.2.2.2.2 rfl⟩

end RhsCore.Speaker
