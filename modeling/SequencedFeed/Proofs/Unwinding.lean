import SequencedFeed.Proofs.Rest
import SequencedFeed.Proofs.Stopping
set_option autoImplicit false

/-!
# A stopped client comes to rest

Every move of a stopped client lowers the rank of its phase and takes no time, so the client comes to rest at
the instant of its stop: nothing is left of its phase but a sink call, until that call returns.
-/

namespace SequencedFeed

namespace Phase

/-- What is left at an instant of a phase in which the client was stopped before. -/
def leftAt (phase : Phase) (now : Nat) : Phase :=
  match phase with
  | .sinking start mark due => if due ≤ now then .idle else .sinking start mark due
  | _ => .idle

/-- The instant at which the sink call in progress returns; the present one if there is none. -/
def busyUntil (phase : Phase) (now : Nat) : Nat :=
  match phase with
  | .sinking _ _ due => max now due
  | _ => now

theorem leftAt_of_unsinking {phase : Phase} (unsinking : phase.isSinking = false) (now : Nat) :
    phase.leftAt now = .idle := by
  cases phase <;> first | rfl | cases unsinking

theorem leftAt_leftAt (phase : Phase) {now later : Nat} (passes : now ≤ later) :
    (phase.leftAt now).leftAt later = phase.leftAt later := by
  cases phase with
  | sinking start mark due =>
      by_cases late : due ≤ now
      · simp only [leftAt, if_pos late, if_pos (Nat.le_trans late passes)]
      · simp only [leftAt, if_neg late]
  | _ => rfl

theorem leftAt_eq_idle_iff (phase : Phase) {now later : Nat} (passes : now ≤ later) :
    phase.leftAt later = .idle ↔ phase.busyUntil now ≤ later := by
  cases phase with
  | sinking start mark due =>
      simp only [leftAt, busyUntil, Nat.max_le, passes, true_and]
      split <;> simp [*]
  | _ => simp only [leftAt, busyUntil, passes]

theorem leftAt_cases (phase : Phase) (now : Nat) :
    phase.leftAt now = .idle ∨
      ∃ start mark due, phase = .sinking start mark due ∧ phase.leftAt now = phase ∧ now < due := by
  cases phase with
  | sinking start mark due =>
      by_cases late : due ≤ now
      · exact .inl (if_pos late)
      · exact .inr ⟨start, mark, due, rfl, if_neg late, Nat.lt_of_not_le late⟩
  | _ => exact .inl rfl

end Phase

namespace Client

variable {client client' : Client} {stage stage' : Stage}

/-! ### The sink call of a stopped client -/

theorem Moves.unsinking (consistent : client.Consistent stage) (moves : client.Moves stage client' stage')
    (stopped : client'.isShuttingDown = true) : client'.phase.isSinking = false := by
  cases moves with
  | pass passes =>
      cases passes with
      | skip | abandon => exact (phaseAfterDial_plain ..).2.2
      | _ => rfl
  | skipCancelled => exact (phaseAfterDial_plain ..).2.2
  | @dial episode outcome _ here enabled isOpen going next =>
      cases ends : outcome.ends <;> simp [Outcome.phase, ends, Phase.isSinking]
  | endDial here going late ended =>
      cases ended with
      | install | refuse => exact (phaseAfterDial_plain ..).2.2
      | fail => exact (phaseAfterFailure_plain ..).2.2
  | takeFrame here reads takes =>
      have before := (congrArg Slot.shuttingDown takes.settled.slot).symm.trans stopped
      exact absurd before (ne_true_of_eq_false (consistent.isOpen_of_frame here reads))
  | endReading | drop | reconnect | getInLine => rfl
  | @endSink start due mark here late =>
      rw [endSink_phase]
      cases mark <;> rfl
  | endSend observed ends =>
      rw [endSend_phase]
      rfl

theorem Acts.sinking (consistent : client.Consistent stage) (acts : client.Acts stage client' stage')
    (stopped : client'.isShuttingDown = true) (sinking : client'.phase.isSinking = true) :
    client'.phase = client.phase := by
  cases acts with
  | start starts =>
      cases starts with
      | report barred => rfl
      | first enabled unstarted => cases sinking
  | cancel => rfl
  | stop => rw [stop_eq]
  | move moves =>
      obtain ⟨next, around, moved, rfl, rfl⟩ := moves_of_move moves
      have unsinking : next.phase.isSinking = false := moved.unsinking consistent stopped
      exact absurd sinking (ne_true_of_eq_false unsinking)

theorem start_left (task : client.phase ≠ .idle → client.started = true) (stage : Stage) (now : Nat) :
    (client.start stage).phase.leftAt now = client.phase.leftAt now := by
  have starts := client.start_starts stage
  revert starts
  generalize client.start stage = started
  intro starts
  cases starts with
  | report barred => rfl
  | first enabled unstarted =>
      by_cases idle : client.phase = .idle
      · rw [idle]
        rfl
      · rw [task idle] at unstarted
        cases unstarted

/-! ### What is left -/

theorem atRest_of_left {phase : Phase} (left : client.phase = phase.leftAt stage.now) :
    client.atRest stage := by
  rw [atRest_iff, proceed?]
  rcases phase.leftAt_cases stage.now with idle | ⟨start, mark, due, rfl, same, ahead⟩
  · rw [left, idle]
  · rw [left, same]
    exact if_neg (Nat.not_le_of_lt ahead)

theorem due_of_left {phase : Phase} {now due : Nat} (left : client.phase = phase.leftAt now)
    (waits : client.due? = some due) (before : Nat) : now < due ∧ due ≤ phase.busyUntil before := by
  rw [due?, left] at waits
  rcases phase.leftAt_cases now with idle | ⟨start, mark, other, rfl, same, ahead⟩
  · rw [idle] at waits
    cases waits
  · rw [same] at waits
    obtain rfl := Option.some.inj waits
    exact ⟨ahead, Nat.le_max_right ..⟩

theorem waits_of_left {phase : Phase} {now before : Nat} (left : client.phase = phase.leftAt now)
    (passes : before ≤ now) (busy : phase.leftAt now ≠ .idle) :
    client.due? = some (phase.busyUntil before) := by
  rcases phase.leftAt_cases now with idle | ⟨start, mark, due, rfl, same, ahead⟩
  · exact absurd idle busy
  · rw [due?, left, same]
    have later : before ≤ due := Nat.le_of_lt (Nat.lt_of_le_of_lt passes ahead)
    exact congrArg some (Nat.max_eq_right later).symm

/-! ### Coming to rest -/

theorem phaseAfterDial_stopping (stopping : client.shouldStop = true) (episode : Episode) :
    stoppingRank (client.phaseAfterDial episode) ≤ 3 ∧ client.phaseAfterDial episode ≠ .ready := by
  cases episode with
  | startUp =>
      rw [phaseAfterDial, if_pos stopping]
      exact ⟨Nat.zero_le _, fun same => by cases same⟩
  | reconnect waited => exact ⟨Nat.le_refl _, fun same => by cases same⟩

theorem Passes.unwinds {phase : Phase} (passes : client.Passes stage phase)
    (stopping : client.shouldStop = true) :
    stoppingRank phase < stoppingRank client.phase ∧ phase ≠ .ready ∧ client.phase.isSinking = false := by
  cases passes with
  | @skip episode here barred =>
      obtain ⟨low, unready⟩ := phaseAfterDial_stopping stopping episode
      rw [here]
      exact ⟨Nat.lt_of_le_of_lt low (by decide : 3 < 7), unready, rfl⟩
  | @abandon episode here cancelled =>
      obtain ⟨low, unready⟩ := phaseAfterDial_stopping stopping episode
      cases inside : client.phase with
      | hanging => exact ⟨Nat.lt_of_le_of_lt low (by decide : 3 < 7), unready, rfl⟩
      | dialling => exact ⟨Nat.lt_of_le_of_lt low (by decide : 3 < 9), unready, rfl⟩
      | _ =>
          rw [inside] at here
          cases here
  | giveUp here | retry here | endBackOff here | redial here | handOver here | leave here
  | leaveUnconnected here | beginRead here | letGo here | letGoInLine here =>
      rw [here]
      exact ⟨by simp only [stoppingRank]; decide, nofun, rfl⟩

/-- A move of a stopped client leads down in rank, and not to the end of start-up. -/
theorem Moves.unwinds (consistent : client.Consistent stage) (moves : client.Moves stage client' stage')
    (stopped : client.isShuttingDown = true) :
    stoppingRank client'.phase < stoppingRank client.phase ∧ client'.phase ≠ .ready ∧
      stage'.stopAsked = stage.stopAsked ∧ client.phase.leftAt stage.now = .idle := by
  have stopping : client.shouldStop = true := Bool.or_eq_true_iff.mpr (.inr stopped)
  have going {claim : Prop} (going : client.shouldStop = false) : claim := by
    rw [stopping] at going
    cases going
  cases moves with
  | pass passes =>
      obtain ⟨low, unready, unsinking⟩ := passes.unwinds stopping
      exact ⟨low, unready, rfl, Phase.leftAt_of_unsinking unsinking _⟩
  | skipCancelled here enabled isOpen cancelled => exact absurd stopped (ne_true_of_eq_false isOpen)
  | dial here enabled isOpen going next => exact absurd stopped (ne_true_of_eq_false isOpen)
  | endDial here going' late ended =>
      rw [consistent.cancelled_of_stopped here nofun nofun stopped] at going'
      cases going'
  | takeFrame here reads takes =>
      exact absurd stopped (ne_true_of_eq_false (consistent.isOpen_of_frame here reads))
  | endReading here fails stopping =>
      obtain ⟨links, rfl⟩ := fails.links
      rw [here]
      exact ⟨Nat.zero_lt_two, nofun, rfl, rfl⟩
  | drop here fails going' changed => exact going going'
  | reconnect here unconnected going' => exact going going'
  | @endSink start due mark here late =>
      rw [here, endSink_phase]
      cases mark with
      | none => exact ⟨(by decide : 3 < 6), nofun, rfl, if_pos late⟩
      | some mark => exact ⟨(by decide : 5 < 6), nofun, rfl, if_pos late⟩
  | getInLine here observed sent =>
      rw [here]
      exact ⟨(by decide : 4 < 5), nofun, rfl, rfl⟩
  | endSend observed ends =>
      rw [endSend_phase]
      cases ends with
      | atOnce here =>
          rw [here]
          exact ⟨(by decide : 3 < 5), nofun, rfl, rfl⟩
      | inLine here =>
          rw [here]
          exact ⟨(by decide : 3 < 4), nofun, rfl, rfl⟩

/-- A stopped client at rest, with what an attempt to bring it there leaves of its stage. -/
structure Rests (client : Client) (stage : Stage) (result : Client × Stage) : Prop where
  phase : result.1.phase = client.phase.leftAt stage.now
  now : result.2.now = stage.now
  asked : result.2.stopAsked = stage.stopAsked

/-- As many moves as the rank of its phase bring a stopped client to rest. -/
theorem Consistent.moveUpTo_rests (consistent : client.Consistent stage)
    (stopped : client.isShuttingDown = true) {count : Nat} (enough : stoppingRank client.phase ≤ count) :
    client.Rests stage (moveUpTo count client stage) := by
  -- after the first move the client is out of the sink, and so nothing is left of its phase
  induction count generalizing client stage with
  | zero =>
      refine ⟨?_, rfl, rfl⟩
      cases here : client.phase with
      | idle => exact here
      | _ =>
          rw [here] at enough
          cases enough
  | succ count ih =>
      unfold moveUpTo
      cases moved : client.move? stage with
      | none =>
          refine ⟨?_, rfl, rfl⟩
          rcases consistent.rest_of_stopped moved stopped with idle | ⟨start, mark, due, here, ahead⟩
          · rw [idle]
            rfl
          · rw [here]
            exact (if_neg (Nat.not_le_of_lt ahead)).symm
      | some next =>
          obtain ⟨client', stage'⟩ := next
          have acts : client.Acts stage client' stage' := .move moved
          obtain ⟨next, around, moves, rfl, rfl⟩ := moves_of_move moved
          obtain ⟨low, -, asked, left⟩ := moves.unwinds consistent stopped
          obtain ⟨scripts, links, channel, stopAsked, rfl⟩ := moves.surroundings
          obtain ⟨phase, now, asked'⟩ := ih (consistent.acts acts) (acts.stopped stopped) (by
            show stoppingRank next.phase ≤ count
            omega)
          refine ⟨?_, now, asked'.trans asked⟩
          have unsinking := moves.unsinking consistent (acts.stopped stopped)
          exact (phase.trans (Phase.leftAt_of_unsinking unsinking _)).trans left.symm

theorem Consistent.moveToReady_eq (consistent : client.Consistent stage)
    (stopped : client.isShuttingDown = true) (count : Nat) :
    moveToReady count client stage = moveUpTo count client stage := by
  induction count generalizing client stage with
  | zero => rfl
  | succ count ih =>
      unfold moveToReady moveUpTo
      cases moved : client.move? stage with
      | none => rfl
      | some next =>
          obtain ⟨client', stage'⟩ := next
          have acts : client.Acts stage client' stage' := .move moved
          obtain ⟨next, around, moves, rfl, rfl⟩ := moves_of_move moved
          obtain ⟨-, unready, -⟩ := moves.unwinds consistent stopped
          simp only [if_neg unready]
          exact ih (consistent.acts acts) (acts.stopped stopped)

private theorem rank_le_work (stopped : client.isShuttingDown = true) :
    stoppingRank client.phase ≤ client.work stage := by
  have stopping : client.shouldStop = true := Bool.or_eq_true_iff.mpr (.inr stopped)
  rw [work, rank, if_pos stopping]
  exact Nat.le_add_right ..

theorem Consistent.settle_rests (consistent : client.Consistent stage)
    (stopped : client.isShuttingDown = true) : client.Rests stage (client.settle stage) :=
  consistent.moveUpTo_rests stopped (rank_le_work stopped)

theorem Consistent.takeTurn_rests (consistent : client.Consistent stage)
    (stopped : client.isShuttingDown = true) : client.Rests stage (client.takeTurn stage) := by
  rw [takeTurn, consistent.moveToReady_eq stopped]
  exact consistent.moveUpTo_rests stopped (rank_le_work stopped)

end Client

end SequencedFeed
