import SequencedFeed.Proofs.Consistency
set_option autoImplicit false

/-!
# Nothing begins after a stop

Whatever ends in a client that is shutting down has begun nothing: no dial, no connection, no sink call, no
confirmation. The check that prevents it depends on where the stop finds the task, so the main step goes
through the rules; a stop that strikes inside a dial is part of the move that ends the dial.
-/

namespace SequencedFeed

def Stage.queue (stage : Stage) : List Nat :=
  (stage.channel.map Channel.queue).getD []

namespace Client

variable {client middle client' : Client} {stage stage' : Stage}

/-- What was added to the history begins nothing. -/
def AddsQuietly (client client' : Client) : Prop :=
  ∃ added, client'.history = added ++ client.history ∧ ∀ entry ∈ added, entry.2.isBeginning = false

theorem addsQuietly_iff : AddsQuietly client client' ↔
    OnlyAdds (fun occurrence => occurrence.isBeginning = false) client.history client'.history :=
  Iff.rfl

theorem AddsQuietly.of_eq (same : client'.history = client.history) : AddsQuietly client client' :=
  addsQuietly_iff.mpr (.of_eq same)

theorem AddsQuietly.trans (first : AddsQuietly client middle) (second : AddsQuietly middle client') :
    AddsQuietly client client' :=
  addsQuietly_iff.mpr ((addsQuietly_iff.mp first).trans (addsQuietly_iff.mp second))

theorem AddsQuietly.note (client : Client) (now : Nat) {occurrence : Occurrence}
    (quiet : occurrence.isBeginning = false) : AddsQuietly client (client.note now occurrence) :=
  addsQuietly_iff.mpr ((OnlyAdds.of_eq rfl).cons now quiet)

theorem stop_addsQuietly (client : Client) (stage : Stage) :
    AddsQuietly client (client.stop stage).1 := by
  rw [stop_eq]
  exact AddsQuietly.note client stage.now rfl

private theorem endSink_addsQuietly (client : Client) (now start : Nat) (mark : Option Nat) :
    AddsQuietly client (client.endSink now start mark) := by
  refine ⟨_, (endSink_history client now start mark).trans (List.append_cons ..), fun entry member => ?_⟩
  rcases List.mem_append.mp member with reported | returned
  · split at reported
    · obtain rfl := List.mem_singleton.mp reported
      rfl
    · cases reported
  · obtain rfl := List.mem_singleton.mp returned
    rfl

theorem EndsDial.shuttingDown {episode : Episode} {ends : DialEnd}
    (ended : EndsDial client stage episode ends client' stage') :
    client'.isShuttingDown = client.isShuttingDown := by
  cases ended with
  | @install link next around isOpen changed =>
      obtain ⟨metrics, rfl⟩ := changeSlot_kept changed
      change (client.slot.install link).1.shuttingDown = client.slot.shuttingDown
      rw [Slot.install, isOpen, if_neg Bool.false_ne_true]
  | refuse stopped => rfl
  | fail => rfl

/-- A dial that nobody has cancelled is only left by its end. -/
theorem Moves.endsDial (moves : client.Moves stage client' stage') {episode : Episode} {ends : DialEnd}
    {stops : Bool} {due : Nat} (here : client.phase = .dialling episode ends stops due)
    (going : client.cancelled = false) :
    EndsDial (client.beforeOutcome stage stops).1 (client.beforeOutcome stage stops).2 episode ends client'
      stage' := by
  cases moves with
  | pass passes =>
      have cancelled := passes.cancelled_of_dial (congrArg Phase.dial? here)
      rw [going] at cancelled
      cases cancelled
  | endDial here' going late ended =>
      obtain ⟨rfl, rfl, rfl, -⟩ := Phase.dialling.inj (here.symm.trans here')
      exact ended
  | endSend observed ends =>
      have unseeking := ends.unseeking
      rw [here] at unseeking
      cases unseeking
  | skipCancelled here' | dial here' | takeFrame here' | endReading here' | drop here' | reconnect here'
  | endSink here' | getInLine here' =>
      rw [here] at here'
      cases here'

private theorem EndsDial.addsQuietly {episode : Episode} {ends : DialEnd}
    (ended : EndsDial client stage episode ends client' stage')
    (stopped : client'.slot.shuttingDown = true) : AddsQuietly client client' := by
  cases ended with
  | @install link next around isOpen changed =>
      obtain ⟨metrics, rfl⟩ := changeSlot_kept changed
      change (client.slot.install link).1.shuttingDown = true at stopped
      simp [Slot.install, isOpen] at stopped
  | refuse refused => exact (AddsQuietly.note _ _ rfl).trans (AddsQuietly.note _ _ rfl)
  | @fail error =>
      have ended : AddsQuietly client (client.note stage.now (.dialEnded (.fail error))) :=
        .note _ _ rfl
      exact ended.trans (AddsQuietly.note _ _ rfl)

private theorem leave_queue (channel : Channel) (sender : Nat) :
    (channel.leave sender).queue = channel.queue :=
  rfl

theorem EndsSend.abandoned {mark : Nat} {how : SendEnd} {channel channel' : Channel}
    (ends : client.EndsSend stage mark how channel channel') (cancelled : client.cancelled = true) :
    how = .abandoned ∧ channel'.queue = channel.queue := by
  cases ends with
  | atOnce here sent =>
      simp only [Channel.beginSend, cancelled, if_true, Prod.mk.injEq, Sending.ended.injEq] at sent
      obtain ⟨rfl, rfl⟩ := sent
      exact ⟨rfl, rfl⟩
  | inLine here sent =>
      simp only [Channel.resumeSend, cancelled, if_true, Prod.mk.injEq, Sending.ended.injEq] at sent
      obtain ⟨rfl, rfl⟩ := sent
      exact ⟨rfl, leave_queue ..⟩

theorem Moves.addsQuietly (consistent : client.Consistent stage)
    (moves : client.Moves stage client' stage') (stopped : client'.slot.shuttingDown = true) :
    AddsQuietly client client' := by
  have task := moves.task
  cases moves with
  | pass passes => exact .of_eq rfl
  | skipCancelled here enabled isOpen cancelled => exact .note _ _ rfl
  | dial here enabled isOpen going next =>
      exact absurd stopped (ne_true_of_eq_false isOpen)
  | @endDial episode ends stops due _ _ here going late ended =>
      cases stops with
      | false => exact ended.addsQuietly stopped
      | true => exact (stop_addsQuietly ..).trans (ended.addsQuietly stopped)
  | takeFrame here reads takes =>
      have before := (congrArg Slot.shuttingDown takes.settled.slot).symm.trans stopped
      exact absurd before (ne_true_of_eq_false (consistent.isOpen_of_frame here reads))
  | endReading here fails stopping => exact .note _ _ rfl
  | @drop link since error around next last here fails going changed =>
      obtain ⟨metrics, rfl⟩ := changeSlot_kept changed
      have isOpen := (discard_shuttingDown client.slot link).trans (going_of_shouldStop going).2
      exact absurd stopped (ne_true_of_eq_false isOpen)
  | reconnect here unconnected going =>
      exact absurd stopped (ne_true_of_eq_false (going_of_shouldStop going).2)
  | endSink here late => exact endSink_addsQuietly ..
  | getInLine here observed sent => exact .of_eq rfl
  | @endSend mark how channel channel' observed ends =>
      have slot := endSend_slot client stage.now mark how
      -- the channel lets go of whoever is cancelled before it looks for room
      have cancelled := consistent.cancelled_of_unseeking task ends.unseeking (slot ▸ stopped)
      obtain ⟨rfl, -⟩ := ends.abandoned cancelled
      exact .of_eq rfl

/-! ### The channel -/

theorem Moves.queue (consistent : client.Consistent stage) (moves : client.Moves stage client' stage')
    (stopped : client'.slot.shuttingDown = true) : stage'.queue = stage.queue := by
  have task := moves.task
  cases moves with
  | pass | skipCancelled | reconnect | endSink => rfl
  | dial here enabled isOpen going next =>
      have same : stage'.channel = stage.channel := (congrArg (fun found => found.2.channel) next).symm
      rw [Stage.queue, same, Stage.queue]
  | @endDial episode ends stops due _ _ here going late ended =>
      obtain ⟨links, rfl⟩ := ended.links
      cases stops with
      | false => rfl
      | true =>
          obtain ⟨links, same⟩ := stop_links client { stage with stopAsked := true }
          rw [beforeOutcome, if_pos rfl, same]
          rfl
  | takeFrame here reads takes =>
      obtain ⟨links, rfl⟩ := reads.links
      rfl
  | endReading here fails stopping =>
      obtain ⟨links, rfl⟩ := fails.links
      rfl
  | drop here fails going changed =>
      obtain ⟨links, rfl⟩ := fails.links
      obtain ⟨links', rfl⟩ := changeSlot_links changed
      rfl
  | @getInLine mark deadline channel channel' here observed sent =>
      have cancelled := consistent.cancelled_of_unseeking task (by rw [here]; rfl) stopped
      simp [Channel.beginSend, cancelled] at sent
  | @endSend mark how channel channel' observed ends =>
      have slot := endSend_slot client stage.now mark how
      have cancelled := consistent.cancelled_of_unseeking task ends.unseeking (slot ▸ stopped)
      obtain ⟨-, same⟩ := ends.abandoned cancelled
      simp only [Stage.queue, observed, Option.map_some, Option.getD_some, same]

/-! ### Whatever happens -/

theorem Acts.addsQuietly (consistent : client.Consistent stage) (acts : client.Acts stage client' stage')
    (stopped : client'.slot.shuttingDown = true) : AddsQuietly client client' := by
  cases acts with
  | start starts =>
      cases starts with
      | report barred => exact .note _ _ rfl
      | first enabled unstarted => exact .of_eq rfl
  | cancel => exact .of_eq rfl
  | stop => exact stop_addsQuietly client stage
  | move moves =>
      obtain ⟨next, around, moved, rfl, rfl⟩ := moves_of_move moves
      have quiet : AddsQuietly client next := moved.addsQuietly consistent stopped
      exact quiet

theorem Acts.queue (consistent : client.Consistent stage) (acts : client.Acts stage client' stage')
    (stopped : client'.slot.shuttingDown = true) : stage'.queue = stage.queue := by
  cases acts with
  | start starts => rfl
  | cancel => rfl
  | stop =>
      obtain ⟨links, same⟩ := stop_links client stage
      rw [same]
      rfl
  | move moves =>
      obtain ⟨next, around, moved, rfl, rfl⟩ := moves_of_move moves
      have same : around.queue = stage.queue := moved.queue consistent stopped
      exact same

theorem Acts.stopped (acts : client.Acts stage client' stage') (stopped : client.slot.shuttingDown = true) :
    client'.slot.shuttingDown = true := by
  cases acts with
  | start starts =>
      cases starts with
      | report barred => exact stopped
      | first enabled unstarted => exact stopped
  | cancel => exact stopped
  | stop => rw [stop_eq]
  | move moves =>
      obtain ⟨next, around, moved, rfl, rfl⟩ := moves_of_move moves
      exact moved.keeps.stopped stopped

/-- Nothing was begun from one state of a client to a later one: no dial, no connection, no sink call, no
confirmation. -/
structure BeginsNothing (client client' : Client) : Prop where
  dials : client'.dials = client.dials
  installs : client'.installs = client.installs
  sinkCalls : client'.sinkCalls = client.sinkCalls
  deliveries : seen Occurrence.delivered? client'.history = seen Occurrence.delivered? client.history

theorem AddsQuietly.beginsNothing (quiet : AddsQuietly client client') : BeginsNothing client client' := by
  have kept {α : Type} (pick : Nat × Occurrence → Option α)
      (blind : ∀ entry, entry.2.isBeginning = false → pick entry = none) :
      client'.history.filterMap pick = client.history.filterMap pick :=
    (addsQuietly_iff.mp quiet).filterMap_eq blind
  refine ⟨congrArg List.reverse (kept _ ?_), congrArg List.reverse (kept _ ?_),
    congrArg List.reverse (kept _ ?_), congrArg List.reverse (kept _ ?_)⟩ <;>
  · rintro ⟨time, occurrence⟩ unbegun
    cases occurrence <;> first | rfl | cases unbegun

end Client

namespace Client

variable {client middle client' : Client} {stage stage' : Stage}

theorem BeginsNothing.refl (client : Client) : BeginsNothing client client :=
  ⟨rfl, rfl, rfl, rfl⟩

theorem BeginsNothing.trans (first : BeginsNothing client middle) (second : BeginsNothing middle client') :
    BeginsNothing client client' where
  dials := second.dials.trans first.dials
  installs := second.installs.trans first.installs
  sinkCalls := second.sinkCalls.trans first.sinkCalls
  deliveries := second.deliveries.trans first.deliveries

/-- From one state of a stopped client to a later one: it is still shutting down, holds no connection and
has begun nothing. -/
structure StaysStopped (client client' : Client) : Prop where
  shuttingDown : client'.isShuttingDown = true
  unconnected : client'.isConnected = false
  beginsNothing : BeginsNothing client client'

theorem Consistent.unconnected (consistent : client.Consistent stage)
    (stopped : client.isShuttingDown = true) : client.isConnected = false := by
  rw [isConnected, consistent.stopped stopped]
  rfl

theorem Consistent.staysStopped (consistent : client.Consistent stage)
    (stopped : client.isShuttingDown = true) : client.StaysStopped client :=
  ⟨stopped, consistent.unconnected stopped, .refl client⟩

theorem StaysStopped.acts (stays : client.StaysStopped middle) (consistent : middle.Consistent stage)
    (acts : middle.Acts stage client' stage') : client.StaysStopped client' := by
  have stopped := acts.stopped stays.shuttingDown
  have quiet := acts.addsQuietly consistent stopped
  exact ⟨stopped, (consistent.acts acts).unconnected stopped, stays.beginsNothing.trans quiet.beginsNothing⟩

end Client

theorem Stage.Changes.queue_suffix {stage stage' : Stage} (changes : stage.Changes stage') :
    stage'.queue <:+ stage.queue := by
  have named (name : String) (change : Link → Link) :
      (stage.changeNamed name change).queue = stage.queue := by
    obtain ⟨links, same⟩ := stage.changeNamed_links name change
    rw [same]
    rfl
  cases changes with
  | push name item times => exact named .. ▸ List.suffix_rfl
  | hangUp name => exact named .. ▸ List.suffix_rfl
  | receive most =>
      unfold Stage.receive
      cases observed : stage.channel with
      | none => exact List.suffix_rfl
      | some channel =>
          simp only [Stage.queue, observed, Option.map_some, Option.getD_some]
          exact List.drop_suffix ..
  | closeReceiver =>
      cases observed : stage.channel with
      | none => simp [Stage.queue, Stage.closeReceiver, observed]
      | some channel => simp [Stage.queue, Stage.closeReceiver, Channel.closeReceiver, observed]
  | time instant => exact List.suffix_rfl

namespace ClientRun

variable {run later : ClientRun}

/-- A step into a state that is shutting down begins nothing, even if the stop is part of the step. -/
theorem Step.beginsNothing (reachable : run.Reachable) (step : Step run later)
    (stopped : later.client.isShuttingDown = true) :
    run.client.BeginsNothing later.client ∧ later.stage.queue <:+ run.stage.queue := by
  rcases step.acts with acts | ⟨same, kept | changes⟩
  · have quiet := acts.addsQuietly reachable.consistent stopped
    exact ⟨quiet.beginsNothing, acts.queue reachable.consistent stopped ▸ List.suffix_rfl⟩
  · exact ⟨same ▸ .refl _, kept ▸ List.suffix_rfl⟩
  · exact ⟨same ▸ .refl _, changes.queue_suffix⟩

theorem Reaches.staysStopped (reachable : run.Reachable) (reaches : run.Reaches later)
    (stopped : run.client.isShuttingDown = true) :
    run.client.StaysStopped later.client ∧ later.stage.queue <:+ run.stage.queue := by
  refine reaches.keeps (fun state => run.client.StaysStopped state.client ∧
    state.stage.queue <:+ run.stage.queue) reachable
    ⟨reachable.consistent.staysStopped stopped, List.suffix_rfl⟩ ?_
  intro before after reachable ⟨stays, left⟩ step
  have stays' : run.client.StaysStopped after.client := by
    rcases step.acts with acts | ⟨same, -⟩
    · exact stays.acts reachable.consistent acts
    · rw [same]
      exact stays
  exact ⟨stays', (step.beginsNothing reachable stays'.shuttingDown).2.trans left⟩

end ClientRun

end SequencedFeed
