import SequencedFeed.Slot
set_option autoImplicit false

/-!
# Conservation of connections in a slot

Each installation of a connection, accepted or refused, leads to one close of it, and the only one that can be
outstanding is that of the connection held. What an operation does to a slot, to the close calls and to the gauge is
stated once for its effects; the law then goes through the operations one by one.
-/

namespace SequencedFeed

variable {ι : Type}

namespace SlotEffect

/-- What an effect adds to the gauge. -/
def balance : SlotEffect ι → Int
  | .enter => 1
  | .refuse _ => 0
  | .release _ => -1

theorem active_meter (effect : SlotEffect ι) (metrics : Metrics) :
    (effect.meter metrics).active = metrics.active + effect.balance := by
  cases effect with
  | enter => rfl
  | refuse connection => exact (Int.add_zero _).symm
  | release connection => rfl

end SlotEffect

namespace SlotLedger

def play [DecidableEq ι] (ledger : SlotLedger ι) (steps : List (SlotStep ι)) : SlotLedger ι :=
  steps.foldl apply ledger

/-! ### The books after an operation -/

section Settle

variable (ledger : SlotLedger ι)

private theorem recorded (effects : List (SlotEffect ι)) (ledger : SlotLedger ι) :
    (effects.foldl record ledger).slot = ledger.slot ∧
      (effects.foldl record ledger).closed =
        (effects.filterMap SlotEffect.closed?).reverse ++ ledger.closed ∧
      (effects.foldl record ledger).metrics.active =
        effects.foldl (fun total effect => total + effect.balance) ledger.metrics.active := by
  induction effects generalizing ledger with
  | nil => exact ⟨rfl, rfl, rfl⟩
  | cons effect rest ih =>
      obtain ⟨slot, closed, active⟩ := ih (ledger.record effect)
      refine ⟨slot, closed.trans ?_, active.trans ?_⟩
      · cases here : effect.closed? <;> simp [record, here]
      · rw [List.foldl_cons, ← effect.active_meter]
        rfl

theorem settle_slot (change : Slot ι × List (SlotEffect ι)) : (ledger.settle change).slot = change.1 :=
  (recorded change.2 { ledger with slot := change.1 }).1

theorem closes_settle [DecidableEq ι] (change : Slot ι × List (SlotEffect ι)) (connection : ι) :
    (ledger.settle change).closes connection =
      ledger.closes connection + (change.2.filterMap SlotEffect.closed?).count connection := by
  obtain ⟨-, closed, -⟩ := recorded change.2 { ledger with slot := change.1 }
  rw [closes, settle, closed, List.count_append, List.count_reverse, Nat.add_comm]
  rfl

theorem active_settle (change : Slot ι × List (SlotEffect ι)) :
    (ledger.settle change).metrics.active =
      change.2.foldl (fun total effect => total + effect.balance) ledger.metrics.active :=
  (recorded change.2 { ledger with slot := change.1 }).2.2

end Settle

/-! ### The law -/

variable [DecidableEq ι]

def holds (ledger : SlotLedger ι) (connection : ι) : Nat :=
  if ledger.slot.held = some connection then 1 else 0

/-- The slot after some operations: whatever was installed is closed or held, the gauge shows what is held, and
nothing is held once the slot has been shut down. -/
structure Conserves (ledger : SlotLedger ι) (past : List (SlotStep ι)) : Prop where
  closes : ∀ connection, ledger.closes connection + ledger.holds connection = past.count (.install connection)
  active : ledger.metrics.active = if ledger.slot.held.isSome then 1 else 0
  mark : ledger.slot.shuttingDown = true ↔ .shutDown ∈ past
  empty : ledger.slot.shuttingDown = true → ledger.slot.held = none

variable {ledger : SlotLedger ι} {past : List (SlotStep ι)}

private theorem count_install (past : List (SlotStep ι)) (step : SlotStep ι) (connection : ι) :
    (past ++ [step]).count (.install connection) =
      past.count (.install connection) + if step = .install connection then 1 else 0 := by
  rw [List.count_append, List.count_singleton]
  simp only [beq_iff_eq]

private theorem count_released (held : Option ι) (connection : ι) :
    ((Slot.released held).filterMap SlotEffect.closed?).count connection =
      if held = some connection then 1 else 0 := by
  cases held with
  | none => rfl
  | some other => simp [Slot.released, SlotEffect.closed?, List.count_singleton]

theorem Conserves.install (conserves : ledger.Conserves past) (connection : ι) :
    (ledger.apply (.install connection)).Conserves (past ++ [.install connection]) := by
  cases stopped : ledger.slot.shuttingDown with
  | true =>
      have change : ledger.slot.install connection = (ledger.slot, [.refuse connection]) := if_pos stopped
      have slot : (ledger.apply (.install connection)).slot = ledger.slot := by rw [apply, change, settle_slot]
      refine ⟨fun other => ?_, ?_, ?_, ?_⟩
      · rw [holds, slot, apply, change, closes_settle, count_install, ← conserves.closes, holds]
        simp only [List.filterMap_cons, SlotEffect.closed?, List.filterMap_nil, List.count_singleton, beq_iff_eq,
          SlotStep.install.injEq]
        omega
      · rw [slot, ← conserves.active, apply, change, active_settle]
        exact Int.add_zero _
      · simp [slot, conserves.mark]
      · rw [slot]
        exact conserves.empty
  | false =>
      have change : ledger.slot.install connection =
          ({ ledger.slot with held := some connection }, .enter :: Slot.released ledger.slot.held) := by
        simp [Slot.install, stopped]
      have slot : (ledger.apply (.install connection)).slot = { ledger.slot with held := some connection } := by
        rw [apply, change, settle_slot]
      refine ⟨fun other => ?_, ?_, ?_, ?_⟩
      · rw [holds, slot, apply, change, closes_settle, count_install, ← conserves.closes, holds,
          List.filterMap_cons_none rfl, count_released]
        simp only [Option.some.injEq, SlotStep.install.injEq]
      · rw [slot, apply, change, active_settle, List.foldl_cons, conserves.active]
        cases ledger.slot.held <;> rfl
      · simp [slot, conserves.mark]
      · simp [slot, stopped]

theorem Conserves.discard (conserves : ledger.Conserves past) (connection : ι) :
    (ledger.apply (.discard connection)).Conserves (past ++ [.discard connection]) := by
  by_cases held : ledger.slot.held = some connection
  · have change : ledger.slot.discard connection = ({ ledger.slot with held := none }, [.release connection]) :=
      if_pos held
    have slot : (ledger.apply (.discard connection)).slot = { ledger.slot with held := none } := by
      rw [apply, change, settle_slot]
    refine ⟨fun other => ?_, ?_, ?_, ?_⟩
    · rw [holds, slot, apply, change, closes_settle, count_install, ← conserves.closes, holds, held]
      simp only [List.filterMap_cons, SlotEffect.closed?, List.filterMap_nil, List.count_singleton, beq_iff_eq,
        Option.some.injEq, reduceCtorEq, if_false]
    · rw [slot, apply, change, active_settle, List.foldl_cons, conserves.active, held]
      rfl
    · simp [slot, conserves.mark]
    · simp [slot]
  · have change : ledger.slot.discard connection = (ledger.slot, []) := if_neg held
    have same : ledger.apply (.discard connection) = ledger := by rw [apply, change]; rfl
    rw [same]
    refine ⟨fun other => ?_, conserves.active, ?_, conserves.empty⟩
    · rw [count_install, ← conserves.closes]
      simp
    · simp [conserves.mark]

theorem Conserves.shutDown (conserves : ledger.Conserves past) :
    (ledger.apply .shutDown).Conserves (past ++ [.shutDown]) := by
  have slot : (ledger.apply .shutDown).slot = ⟨none, true⟩ := settle_slot ..
  refine ⟨fun other => ?_, ?_, ?_, ?_⟩
  · rw [holds, slot, apply, closes_settle, count_install, ← conserves.closes, holds, Slot.shutDown, count_released]
    simp
  · rw [slot, apply, active_settle, conserves.active, Slot.shutDown]
    cases ledger.slot.held <;> rfl
  · simp [slot]
  · simp [slot]

theorem conserves_fresh : (fresh : SlotLedger ι).Conserves [] where
  closes _ := rfl
  active := rfl
  mark := by simp [fresh, Slot.empty]
  empty _ := rfl

theorem Conserves.apply (conserves : ledger.Conserves past) (step : SlotStep ι) :
    (ledger.apply step).Conserves (past ++ [step]) := by
  cases step with
  | install connection => exact conserves.install connection
  | discard connection => exact conserves.discard connection
  | shutDown => exact conserves.shutDown

theorem Conserves.play (conserves : ledger.Conserves past) (steps : List (SlotStep ι)) :
    (ledger.play steps).Conserves (past ++ steps) := by
  induction steps generalizing ledger past with
  | nil => rwa [List.append_nil]
  | cons step rest ih =>
      have next := ih (conserves.apply step)
      rwa [List.append_assoc] at next

/-- A connection that is held and then is not has been closed once in between, by the operation between. -/
theorem Conserves.removed (conserves : ledger.Conserves past) {step : SlotStep ι} {connection : ι}
    (held : ledger.slot.held = some connection) (gone : (ledger.apply step).slot.held ≠ some connection) :
    (ledger.apply step).closes connection = ledger.closes connection + 1 := by
  have before := conserves.closes connection
  have after := (conserves.apply step).closes connection
  rw [holds, if_pos held] at before
  rw [holds, if_neg gone, count_install, ← before] at after
  have other : step ≠ .install connection := by
    rintro rfl
    have isOpen : ledger.slot.shuttingDown ≠ true := fun stopped => by
      rw [conserves.empty stopped] at held
      cases held
    refine gone ?_
    rw [SlotLedger.apply, settle_slot, Slot.install, if_neg isOpen]
  rw [if_neg other] at after
  exact after

/-- Whatever is done to a slot and in whichever order, the close calls on a connection are its installations so far,
but for one if it is held. The gauge shows whether a connection is held. From the first shutdown on the slot holds
nothing and accepts nothing; before it, it accepts everything and holds what was installed last. So a connection that
is installed once is not closed while it is held and is closed once by the operation that removes it or refuses it. -/
theorem closes_follow_installations (steps : List (SlotStep ι)) :
    let ledger := (fresh : SlotLedger ι).play steps
    (∀ connection, ledger.closes connection + (if ledger.slot.held = some connection then 1 else 0) =
      steps.count (.install connection)) ∧
    ledger.metrics.active = (if ledger.slot.held.isSome then 1 else 0) ∧
    (ledger.slot.shuttingDown = true ↔ .shutDown ∈ steps) ∧
    (.shutDown ∈ steps → ledger.slot.held = none ∧ ledger.accepts = false ∧
      ∀ connection, (ledger.apply (.install connection)).slot = ledger.slot) ∧
    (.shutDown ∉ steps → ledger.accepts = true ∧
      ∀ connection, (ledger.apply (.install connection)).slot.held = some connection) ∧
    (∀ connection, steps.count (.install connection) = 1 →
      ledger.closes connection = if ledger.slot.held = some connection then 0 else 1) ∧
    ∀ connection step, ledger.slot.held = some connection → (ledger.apply step).slot.held ≠ some connection →
      (ledger.apply step).closes connection = ledger.closes connection + 1 := by
  intro ledger
  have conserves : ledger.Conserves steps := conserves_fresh.play steps
  refine ⟨conserves.closes, conserves.active, conserves.mark, fun stopped => ?_, fun unstopped => ?_, ?_,
    fun connection step => conserves.removed⟩
  · have mark := conserves.mark.mpr stopped
    refine ⟨conserves.empty mark, by rw [accepts, mark]; rfl, fun connection => ?_⟩
    rw [apply, settle_slot, Slot.install, if_pos mark]
  · have mark : ledger.slot.shuttingDown = false := Bool.eq_false_iff.mpr fun mark => unstopped (conserves.mark.mp mark)
    refine ⟨by rw [accepts, mark]; rfl, fun connection => ?_⟩
    rw [apply, settle_slot, Slot.install, if_neg (ne_true_of_eq_false mark)]
  · intro connection once
    have law := conserves.closes connection
    rw [once, holds] at law
    by_cases held : ledger.slot.held = some connection
    · rw [if_pos held] at law ⊢
      omega
    · rw [if_neg held] at law ⊢
      exact law

/-- The first connection is installed twice over, replaced, and discarded too late; the second one is refused when it
comes back after the shutdown. -/
example :
    let ledger := (fresh : SlotLedger Nat).play
      [.install 1, .install 1, .install 2, .discard 1, .shutDown, .install 2, .shutDown]
    ledger.closes 1 = 2 ∧ ledger.closes 2 = 2 ∧ ledger.slot = ⟨none, true⟩ ∧ ledger.metrics.gauge = some 0 := by
  decide

end SlotLedger

end SequencedFeed
