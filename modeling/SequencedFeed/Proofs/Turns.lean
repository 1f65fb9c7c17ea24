import SequencedFeed.Proofs.Standstill
set_option autoImplicit false

/-!
# Turns

A client among others moves in turns, and leaves its reading for a later turn if its start-up ends in one. So two
turns bring it to rest, the same one to which it would come without a pause. A client that never asks for a stop
changes nothing of a stage without a channel but its connections and its scripts.
-/

namespace SequencedFeed

theorem DialScript.next_calm {script : DialScript} (calm : ∀ outcome ∈ script.outcomes, outcome.stops = false) :
    script.next.1.stops = false ∧ ∀ outcome ∈ script.next.2.outcomes, outcome.stops = false := by
  obtain ⟨outcomes, beyond⟩ := script
  cases outcomes with
  | nil => cases beyond <;> exact ⟨rfl, List.forall_mem_nil _⟩
  | cons first rest =>
      exact ⟨calm first (List.mem_cons_self ..), fun other member => calm other (List.mem_cons_of_mem _ member)⟩

namespace Client

variable {client client' : Client} {stage stage' : Stage}

/-! ### Two turns -/

theorem Moves.past (moves : client.Moves stage client' stage') (past : client.phase.episode? ≠ some .startUp) :
    client'.phase.episode? ≠ some .startUp ∧ client'.phase ≠ .ready := by
  have after {client : Client} {episode : Episode} (late : episode ≠ .startUp) :
      (client.phaseAfterDial episode).episode? ≠ some .startUp ∧ client.phaseAfterDial episode ≠ .ready := by
    cases episode with
    | startUp => exact absurd rfl late
    | reconnect waited => exact ⟨by simp [phaseAfterDial, Phase.episode?], by simp [phaseAfterDial]⟩
  have late {episode : Episode} (inside : client.phase.episode? = some episode) : episode ≠ .startUp :=
    fun same => past (same ▸ inside)
  have dialled {episode : Episode} (inside : client.phase.dial? = some episode) :
      client.phase.episode? = some episode := by
    cases here : client.phase <;> rw [here] at inside <;> cases inside <;> rfl
  cases moves with
  | pass passes =>
      cases passes with
      | skip here => exact after (late (by rw [here]; rfl))
      | abandon here => exact after (late (dialled here))
      | retry here => exact absurd rfl (late (by rw [here]; rfl))
      | giveUp | endBackOff | redial | handOver | leave | leaveUnconnected | beginRead | letGo | letGoInLine =>
          exact ⟨by simp [Phase.episode?], by simp⟩
  | skipCancelled here => exact after (late (by rw [here]; rfl))
  | @dial episode outcome _ here enabled isOpen going next =>
      have begun := late (by rw [here]; rfl)
      obtain ⟨ends, delay, stops⟩ := outcome
      cases ends <;> exact ⟨by simpa [Outcome.phase, Phase.episode?] using begun, by simp [Outcome.phase]⟩
  | @endDial episode ends stops due _ _ here going late' ended =>
      have begun : episode ≠ .startUp := late (by rw [here]; rfl)
      cases ended with
      | install | refuse => exact after begun
      | fail =>
          cases episode with
          | startUp => exact absurd rfl begun
          | reconnect waited =>
              rw [enter_phase, phaseAfterFailure]
              split <;> exact ⟨by simp [Phase.episode?], by simp⟩
  | takeFrame here reads takes =>
      cases takes with
      | blank | undecodable | apply => exact ⟨by simp [Phase.episode?], by simp⟩
      | @pass envelope phase filled decoded uncalled next =>
          subst next
          cases envelope.mark? <;> exact ⟨by simp [phaseAfterSink, Phase.episode?], by simp [phaseAfterSink]⟩
  | endReading | drop | reconnect => exact ⟨by simp [Phase.episode?, firstBackingOff], by simp [firstBackingOff]⟩
  | @endSink start due mark here late =>
      rw [endSink_phase]
      cases mark <;> exact ⟨by simp [phaseAfterSink, Phase.episode?], by simp [phaseAfterSink]⟩
  | getInLine => exact ⟨by simp [Phase.episode?], by simp⟩
  | endSend =>
      rw [endSend_phase]
      exact ⟨by simp [Phase.episode?], by simp⟩

/-- Whether a client is past its start-up, or can do nothing now. -/
def Turned (client : Client) (stage : Stage) : Prop :=
  client.atRest stage ∨ client.phase.episode? ≠ some .startUp

theorem Consistent.settle_moveToReady (consistent : client.Consistent stage) (pauses : client.Pauses stage) (count : Nat) :
    client.settle stage = (moveToReady count client stage).1.settle (moveToReady count client stage).2 := by
  induction count generalizing client stage with
  | zero => rfl
  | succ count ih =>
      unfold moveToReady
      cases moved : client.move? stage with
      | none => rfl
      | some next =>
          obtain ⟨client', stage'⟩ := next
          have acts : client.Acts stage client' stage' := .move moved
          rw [consistent.settle_of_move pauses moved]
          by_cases ready : client'.phase = .ready
          · simp only [if_pos ready]
          · simp only [if_neg ready]
            exact ih (consistent.acts acts) (acts.pauses pauses)

/-- A turn ends at rest, or with the start-up. -/
theorem Consistent.moveToReady_turned (consistent : client.Consistent stage) (pauses : client.Pauses stage) {count : Nat}
    (enough : client.toil stage ≤ count) :
    (moveToReady count client stage).1.Turned (moveToReady count client stage).2 := by
  induction count generalizing client stage with
  | zero => exact .inl (consistent.moveUpTo_atRest pauses enough)
  | succ count ih =>
      unfold moveToReady
      cases moved : client.move? stage with
      | none => exact .inl moved
      | some next =>
          obtain ⟨client', stage'⟩ := next
          have acts : client.Acts stage client' stage' := .move moved
          have less := consistent.toil_lt_of_move pauses moved
          by_cases ready : client'.phase = .ready
          · simp only [if_pos ready]
            exact .inr (by simp [ready, Phase.episode?])
          · simp only [if_neg ready]
            exact ih (consistent.acts acts) (acts.pauses pauses) (by omega)

theorem Consistent.moveToReady_atRest (consistent : client.Consistent stage) (pauses : client.Pauses stage) {count : Nat}
    (enough : client.toil stage ≤ count) (turned : client.Turned stage) :
    (moveToReady count client stage).1.atRest (moveToReady count client stage).2 := by
  induction count generalizing client stage with
  | zero => exact consistent.moveUpTo_atRest pauses enough
  | succ count ih =>
      unfold moveToReady
      cases moved : client.move? stage with
      | none => exact moved
      | some next =>
          obtain ⟨client', stage'⟩ := next
          have acts : client.Acts stage client' stage' := .move moved
          have less := consistent.toil_lt_of_move pauses moved
          have past : client.phase.episode? ≠ some .startUp := by
            rcases turned with rest | past
            · cases rest.symm.trans moved
            · exact past
          have later : client'.phase.episode? ≠ some .startUp ∧ client'.phase ≠ .ready := by
            obtain ⟨next, around, moves, rfl, rfl⟩ := moves_of_move moved
            exact moves.past past
          simp only [if_neg later.2]
          exact ih (consistent.acts acts) (acts.pauses pauses) (by omega) (.inr later.1)

/-! ### Clients that ask for nothing -/

/-- A client whose dials never ask for a stop, on a stage without a channel. -/
structure Calm (client : Client) (stage : Stage) : Prop where
  silent : stage.channel = none
  outcomes : ∀ outcome ∈ (stage.script client.url).outcomes, outcome.stops = false
  dialling : ∀ episode ends stops due, client.phase = .dialling episode ends stops due → stops = false

theorem Calm.of_undialled {later : Stage} (calm : client.Calm stage) (options : client'.options = client.options)
    (undialled : client'.phase.dial? = none) (silent : later.channel = none) (scripts : later.scripts = stage.scripts) :
    client'.Calm later := by
  refine ⟨silent, ?_, fun episode ends stops due here => ?_⟩
  · rw [url_eq options, Stage.script, scripts]
    exact calm.outcomes
  · rw [here] at undialled
    cases undialled

theorem Calm.moves (calm : client.Calm stage) (moves : client.Moves stage client' stage') :
    client'.Calm stage' ∧ ∃ scripts links, stage' = { stage with scripts, links } := by
  have options := moves.keeps.options
  have aside {links : List Link} (undialled : client'.phase.dial? = none) :
      client'.Calm { stage with links } ∧
        ∃ scripts links', ({ stage with links } : Stage) = { stage with scripts, links := links' } :=
    ⟨calm.of_undialled options undialled calm.silent rfl, stage.scripts, links, rfl⟩
  cases moves with
  | pass passes => exact aside passes.undialled
  | skipCancelled here => exact aside (phaseAfterDial_undialled ..)
  | @dial episode outcome _ here enabled isOpen going next =>
      have taken := DialScript.next_calm calm.outcomes
      rw [Stage.script_nextOutcome next] at taken
      obtain ⟨-, rfl⟩ := Prod.mk.inj next
      refine ⟨⟨calm.silent, taken.2, fun episode' ends stops due dials => ?_⟩, _, stage.links, rfl⟩
      obtain ⟨unasked, -⟩ := taken
      obtain ⟨dialEnds, after, asks⟩ := outcome
      cases dialEnds with
      | none => cases dials
      | some dialEnds =>
          obtain ⟨-, -, rfl, -⟩ := Phase.dialling.inj dials
          exact unasked
  | @endDial episode ends stops due _ _ here going late ended =>
      obtain rfl := calm.dialling _ _ _ _ here
      have undialled : client'.phase.dial? = none := by
        cases ended with
        | install | refuse => exact phaseAfterDial_undialled ..
        | fail => exact (phaseAfterFailure_plain ..).1
      obtain ⟨links, rfl⟩ := ended.links
      exact aside undialled
  | takeFrame here reads takes =>
      obtain ⟨links, rfl⟩ := reads.links
      exact aside (Phase.undialled_of_unseeking takes.settled.unseeking)
  | endReading here fails stopping =>
      obtain ⟨links, rfl⟩ := fails.links
      exact aside rfl
  | drop here fails going changed =>
      obtain ⟨links, rfl⟩ := fails.links
      obtain ⟨links', rfl⟩ := changeSlot_links changed
      exact aside rfl
  | reconnect here unconnected going => exact aside rfl
  | @endSink start due mark here late =>
      refine aside ?_
      rw [endSink_phase]
      cases mark <;> rfl
  | getInLine here observed sent => cases calm.silent.symm.trans observed
  | endSend observed ends => cases calm.silent.symm.trans observed

end Client

end SequencedFeed
