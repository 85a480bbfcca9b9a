import PacketProbe.TransitionRuns

/-!
# A callback slot and its teardown

A thread that delivers messages copies the callback out of a slot under a lock and calls
the copy without it. Another thread empties the slot, which may change the owner of the
callback, and then destroys the owner. Nothing makes the second thread wait for a copy.
-/

namespace CallbackSlots
open TransitionRuns

universe u v w

variable {σ : Type u} {μ : Type v} {τ : Type w}

/-- How far the teardown has come. -/
inductive Phase where
  | running | emptied | destroyed
  deriving DecidableEq

/-- The owner, the slot, and the message being delivered together with whether the copy
made for it can be called. -/
structure Slot (σ : Type u) (μ : Type v) where
  owner : σ
  registered : Bool := true
  copied : Option (μ × Bool) := none
  phase : Phase := .running

inductive Action (μ : Type v) (τ : Type w) where
  | copy (message : μ)
  | invoke
  | empty (how : τ)
  | destroy

/-- What the callback does to the owner, and what emptying the slot does to it; the
latter may fail. -/
structure Owner (σ : Type u) (μ : Type v) (τ : Type w) where
  call : σ → μ → σ
  close : σ → τ → Option σ

/-- The slot may be emptied again until the owner is destroyed. -/
inductive Step (o : Owner σ μ τ) : Slot σ μ → Action μ τ → Slot σ μ → Prop
  | copy (s : Slot σ μ) (message : μ) (hidle : s.copied = none) :
      Step o s (.copy message) { s with copied := some (message, s.registered) }
  | call (s : Slot σ μ) (message : μ) (hcopied : s.copied = some (message, true)) :
      Step o s .invoke { s with copied := none, owner := o.call s.owner message }
  | skip (s : Slot σ μ) (message : μ) (hcopied : s.copied = some (message, false)) :
      Step o s .invoke { s with copied := none }
  | empty (s : Slot σ μ) (how : τ) (owner : σ) (halive : s.phase ≠ .destroyed)
      (hclose : o.close s.owner how = some owner) :
      Step o s (.empty how) { s with owner, registered := false, phase := .emptied }
  | destroy (s : Slot σ μ) (hemptied : s.phase = .emptied) :
      Step o s .destroy { s with phase := .destroyed }

/-- A copy for this message that will be called. -/
def Outstanding (s : Slot σ μ) (message : μ) : Prop := s.copied = some (message, true)

/-- The callback is called in this step, after its owner was destroyed. -/
def CallsDestroyed (s : Slot σ μ) (a : Action μ τ) : Prop :=
  a = .invoke ∧ s.phase = .destroyed ∧ ∃ message, Outstanding s message

/-- The owner is not destroyed while a copy is outstanding. -/
def WaitsToDestroy (s : Slot σ μ) (a : Action μ τ) : Prop :=
  a = .destroy → ∀ message, ¬ Outstanding s message

/-- The slot is not emptied while a copy is outstanding whose call would be a hazard. -/
def WaitsToEmpty (hazard : σ → μ → Prop) (s : Slot σ μ) (a : Action μ τ) : Prop :=
  ∀ how message, a = .empty how → Outstanding s message → ¬ hazard s.owner message

/-- Closing an owner that satisfies `I` establishes `P`, calls without hazard keep it, and
no closing makes a call hazardous. -/
structure Seals (o : Owner σ μ τ) (hazard : σ → μ → Prop) (I P : σ → Prop) : Prop where
  call : ∀ owner message, I owner → I (o.call owner message)
  close : ∀ owner how closed, I owner → o.close owner how = some closed → I closed ∧ P closed
  keep : ∀ owner message, I owner → P owner → ¬ hazard owner message → P (o.call owner message)
  hazard : ∀ owner how closed message, I owner → o.close owner how = some closed →
    hazard closed message → hazard owner message

variable {o : Owner σ μ τ} {s t : Slot σ μ} {a : Action μ τ} {actions : List (Action μ τ)}
  {hazard : σ → μ → Prop} {I P : σ → Prop}

/-- What has been emptied stays empty. -/
theorem registered_of_step (hs : s.phase ≠ .running → s.registered = false) (hstep : Step o s a t) :
    t.phase ≠ .running → t.registered = false := by
  cases hstep with
  | copy message hidle => exact hs
  | call message hcopied => exact hs
  | skip message hcopied => exact hs
  | empty how owner halive hclose => exact fun _ => rfl
  | destroy hemptied => exact fun _ => hs (by simp [hemptied])

/-- Nothing copied out of an empty slot can be called, and what was copied before is gone
when the owner is. -/
structure Quiet (s : Slot σ μ) : Prop where
  registered : s.phase ≠ .running → s.registered = false
  copied : s.phase = .destroyed → ∀ message, ¬ Outstanding s message

theorem Quiet.step (hs : Quiet s) (hwaits : WaitsToDestroy s a) (hstep : Step o s a t) :
    Quiet t := by
  refine ⟨registered_of_step hs.registered hstep, ?_⟩
  cases hstep with
  | copy message hidle =>
    intro hphase m hm
    have hphase : s.phase = .destroyed := hphase
    have hregistered := hs.registered (by simp [hphase])
    simp [Outstanding, hregistered] at hm
  | call message hcopied => exact fun _ _ h => nomatch h
  | skip message hcopied => exact fun _ _ h => nomatch h
  | empty how owner halive hclose => exact fun h => nomatch h
  | destroy hemptied => exact fun _ => hwaits rfl

/-- If the destruction waits, no call comes after it. -/
theorem not_callsDestroyed_of_run {owner : σ}
    (hrun : Run (Guarded (Step o) WaitsToDestroy) { owner } actions s) (a : Action μ τ) :
    ¬ CallsDestroyed s a := by
  have hquiet : Quiet s := by
    refine hrun.invariant (fun s a t hs hstep => hs.step hstep.1 hstep.2) ⟨?_, ?_⟩
    · exact fun hphase => absurd rfl hphase
    · exact fun hphase => nomatch hphase
  rintro ⟨-, hphase, message, hmessage⟩
  exact hquiet.copied hphase message hmessage

/-- If it does not wait, the next step may call the destroyed owner. -/
theorem callsDestroyed_of_destroy {message : μ} (hstep : Step o s .destroy t)
    (hmessage : Outstanding s message) :
    CallsDestroyed t (.invoke : Action μ τ) ∧
      Step o t .invoke { t with copied := none, owner := o.call t.owner message } := by
  cases hstep with
  | destroy hemptied => exact ⟨⟨rfl, rfl, message, hmessage⟩, .call _ message hmessage⟩

/-- The owner satisfies `I`, and from its closing on `P`, which no call still to come
breaks. -/
structure Sealed (hazard : σ → μ → Prop) (I P : σ → Prop) (s : Slot σ μ) : Prop where
  registered : s.phase ≠ .running → s.registered = false
  owner : I s.owner
  closed : s.phase ≠ .running → P s.owner
  copied : s.phase ≠ .running → ∀ message, Outstanding s message → ¬ hazard s.owner message

theorem Sealed.step (hseals : Seals o hazard I P) (hs : Sealed hazard I P s)
    (hwaits : WaitsToEmpty hazard s a) (hstep : Step o s a t) : Sealed hazard I P t := by
  have hregistered := registered_of_step hs.registered hstep
  cases hstep with
  | copy message hidle =>
    refine ⟨hregistered, hs.owner, hs.closed, fun hphase m hm => ?_⟩
    simp [Outstanding, hs.registered hphase] at hm
  | call message hcopied =>
    refine ⟨hregistered, hseals.call _ _ hs.owner, fun hphase => ?_, fun _ _ h => nomatch h⟩
    exact hseals.keep _ _ hs.owner (hs.closed hphase) (hs.copied hphase message hcopied)
  | skip message hcopied => exact ⟨hregistered, hs.owner, hs.closed, fun _ _ h => nomatch h⟩
  | empty how owner halive hclose =>
    obtain ⟨howner, hclosed⟩ := hseals.close _ _ _ hs.owner hclose
    refine ⟨hregistered, howner, fun _ => hclosed, fun _ m hm hhazard => ?_⟩
    exact hwaits how m rfl hm (hseals.hazard _ _ _ _ hs.owner hclose hhazard)
  | destroy hemptied =>
    have hphase : s.phase ≠ .running := by simp [hemptied]
    exact ⟨hregistered, hs.owner, fun _ => hs.closed hphase, fun _ => hs.copied hphase⟩

/-- If emptying the slot waits, what closing the owner established holds from then on. -/
theorem closed_of_run (hseals : Seals o hazard I P) {owner : σ} (howner : I owner)
    (hrun : Run (Guarded (Step o) (WaitsToEmpty hazard)) { owner } actions s)
    (hphase : s.phase ≠ .running) : P s.owner := by
  have hsealed : Sealed hazard I P s := by
    refine hrun.invariant (fun s a t hs hstep => hs.step hseals hstep.1 hstep.2)
      ⟨?_, howner, ?_, ?_⟩
    all_goals exact fun hphase => absurd rfl hphase
  exact hsealed.closed hphase

end CallbackSlots
