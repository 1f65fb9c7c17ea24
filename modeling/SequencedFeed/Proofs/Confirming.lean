import SequencedFeed.Proofs.Readings
import SequencedFeed.Proofs.Running
import SequencedFeed.Proofs.Sending
set_option autoImplicit false

/-!
# Marks are confirmed frame by frame

A client handles one frame after the other: the sink call that the frame asks for, then the sending of its mark,
and only then the next read.
-/

namespace SequencedFeed

namespace Phase

def isHandling : Phase → Bool
  | .sinking .. => true
  | .confirming _ => true
  | .sending .. => true
  | _ => false

def isSending : Phase → Bool
  | .sending .. => true
  | _ => false

theorem unsending_of_unhandling {phase : Phase} (elsewhere : phase.isHandling = false) : phase.isSending = false := by
  cases phase <;> first | rfl | cases elsewhere

end Phase

def Stage.receives (stage : Stage) : Bool :=
  match stage.channel with
  | none => false
  | some channel => channel.isOpen

theorem Stage.receives_eq {stage stage' : Stage} (same : stage'.channel = stage.channel) :
    stage'.receives = stage.receives := by
  rw [receives, same, receives]

namespace Client

variable {client client' : Client} {stage stage' : Stage}

/-! ### Moves beside frames -/

/-- A move that has nothing to do with a frame. A cancelled client that is between two frames ends with it. -/
structure Aside (client : Client) (stage : Stage) (client' : Client) (stage' : Stage) : Prop where
  elsewhere : client.phase.isHandling = false
  stays : client'.phase.isHandling = false
  leaves : client'.phase = .idle ∨ client.cancelled = false ∨ client.phase ≠ .looping
  task : client.phase ≠ .idle
  history : FramesAside client.history client'.history
  channel : stage'.channel = stage.channel
  counted : client'.metrics.confirmationErrors = client.metrics.confirmationErrors

inductive HandlesOn (client : Client) (stage : Stage) : Client → Stage → Prop
  | takeFrame {link since : Nat} {frame : List UInt8} {client' : Client} {stage' : Stage}
      (here : client.phase = .reading link since) (reads : stage.Reads link (.ok frame) stage')
      (takes : TakesFrame (client.note stage.now (.read link (.ok frame))) stage.now frame client') :
      HandlesOn client stage client' stage'
  | endSink {start due : Nat} {mark : Option Nat} (here : client.phase = .sinking start mark due)
      (late : due ≤ stage.now) : HandlesOn client stage (client.endSink stage.now start mark) stage
  | getInLine {mark deadline : Nat} {channel channel' : Channel} (here : client.phase = .confirming mark)
      (observed : stage.channel = some channel)
      (sent : channel.beginSend client.number mark client.options.confirmationTimeout client.cancelled
        stage.now = (.inLine deadline, channel')) :
      HandlesOn client stage (client.enter (.sending mark deadline)) { stage with channel := some channel' }
  | endSend {mark : Nat} {how : SendEnd} {channel channel' : Channel} (observed : stage.channel = some channel)
      (ends : EndsSend client stage mark how channel channel') :
      HandlesOn client stage (client.endSend stage.now mark how) { stage with channel := some channel' }

private theorem isHandling_phaseAfterDial (client : Client) (episode : Episode) :
    (client.phaseAfterDial episode).isHandling = false := by
  cases episode with
  | startUp =>
      rw [phaseAfterDial]
      split <;> rfl
  | reconnect => rfl

private theorem isHandling_phaseAfterFailure (client : Client) (now : Nat) (episode : Episode) :
    (client.phaseAfterFailure now episode).isHandling = false := by
  cases episode with
  | startUp => rfl
  | reconnect =>
      rw [phaseAfterFailure]
      split <;> rfl

private theorem Passes.unhandling {phase : Phase} (passes : client.Passes stage phase)
    (observed : stage.channel ≠ none) :
    client.phase.isHandling = false ∧ phase.isHandling = false ∧
      (phase = .idle ∨ client.cancelled = false ∨ client.phase ≠ .looping) := by
  cases passes with
  | skip here =>
      rw [here]
      exact ⟨rfl, isHandling_phaseAfterDial .., .inr (.inr nofun)⟩
  | abandon here =>
      refine ⟨?_, isHandling_phaseAfterDial .., .inr (.inr ?_)⟩
      · cases there : client.phase <;> rw [there] at here <;> first | rfl | cases here
      · intro there
        rw [there] at here
        cases here
  | giveUp here | retry here | endBackOff here | redial here | handOver here =>
      rw [here]
      exact ⟨rfl, rfl, .inr (.inr nofun)⟩
  | leave here | leaveUnconnected here =>
      rw [here]
      exact ⟨rfl, rfl, .inl rfl⟩
  | beginRead here going =>
      rw [here]
      exact ⟨rfl, rfl, .inr (.inl going)⟩
  | letGo here unobserved | letGoInLine here unobserved => exact absurd unobserved observed

private theorem EndsDial.aside {episode : Episode} {ends : DialEnd}
    (ended : EndsDial client stage episode ends client' stage') :
    FramesAside client.history client'.history ∧ client'.phase.isHandling = false ∧
      client'.metrics.confirmationErrors = client.metrics.confirmationErrors ∧ stage'.channel = stage.channel := by
  have same : FramesAside client.history client.history := .of_eq rfl
  cases ended with
  | install isOpen changed =>
      obtain ⟨links, rfl⟩ := changeSlot_links changed
      obtain ⟨gauge, rfl⟩ := changeSlot_gauge changed
      exact ⟨((same.cons _ ⟨rfl, rfl⟩).cons _ ⟨rfl, rfl⟩).cons _ ⟨rfl, rfl⟩, isHandling_phaseAfterDial .., rfl, rfl⟩
  | @refuse link stopped =>
      obtain ⟨links, rest⟩ := closeHeld_links stage (some link)
      rw [rest]
      exact ⟨(same.cons _ ⟨rfl, rfl⟩).cons _ ⟨rfl, rfl⟩, isHandling_phaseAfterDial .., rfl, rfl⟩
  | fail =>
      refine ⟨(same.cons _ ⟨rfl, rfl⟩).cons _ ?_, isHandling_phaseAfterFailure .., rfl, rfl⟩
      cases episode <;> exact ⟨rfl, rfl⟩

private theorem isBeside_readReport (client : Client) (error : TransportError) :
    (Occurrence.log (client.readReport error)).isBeside := by
  unfold readReport
  split <;> exact ⟨rfl, rfl⟩

/-- A client with a channel either goes on with a frame, or does something that has nothing to do with any. -/
theorem Moves.aside_or (moves : client.Moves stage client' stage') (observed : stage.channel ≠ none) :
    client.Aside stage client' stage' ∨ client.HandlesOn stage client' stage' := by
  have same : FramesAside client.history client.history := .of_eq rfl
  have task := moves.task
  cases moves with
  | pass passes =>
      obtain ⟨elsewhere, stays, leaves⟩ := passes.unhandling observed
      exact .inl ⟨elsewhere, stays, leaves, task, same, rfl, rfl⟩
  | skipCancelled here =>
      refine .inl ⟨?_, isHandling_phaseAfterDial .., .inr (.inr ?_), task, same.cons _ ⟨rfl, rfl⟩, rfl, rfl⟩ <;>
        rw [here] <;> first | rfl | exact nofun
  | @dial episode outcome _ here enabled isOpen going next =>
      refine .inl ⟨?_, ?_, .inr (.inl going), task, (same.cons _ ⟨rfl, rfl⟩).cons _ ⟨rfl, rfl⟩,
        (congrArg (fun found => found.2.channel) next).symm, rfl⟩
      · rw [here]
        rfl
      · rw [enter_phase, Outcome.phase]
        split <;> rfl
  | @endDial episode ends stops due _ _ here going late ended =>
      obtain ⟨history, stays, counted, channel⟩ := ended.aside
      have before : FramesAside client.history (client.beforeOutcome stage stops).1.history ∧
          (client.beforeOutcome stage stops).1.metrics.confirmationErrors = client.metrics.confirmationErrors ∧
          (client.beforeOutcome stage stops).2.channel = stage.channel := by
        cases stops with
        | false => exact ⟨same, rfl, rfl⟩
        | true =>
            rw [beforeOutcome, if_pos rfl, stop_eq]
            obtain ⟨links, rest⟩ := closeHeld_links { stage with stopAsked := true } client.slot.held
            rw [rest]
            refine ⟨same.cons _ ⟨rfl, rfl⟩, ?_, rfl⟩
            cases client.slot.held <;> rfl
      refine .inl ⟨?_, stays, .inr (.inl going), task, before.1.trans history, channel.trans before.2.2,
        counted.trans before.2.1⟩
      rw [here]
      rfl
  | takeFrame here reads takes => exact .inr (.takeFrame here reads takes)
  | endReading here fails stopping =>
      obtain ⟨links, rfl⟩ := fails.links
      refine .inl ⟨?_, rfl, .inl rfl, task, same.cons _ ⟨rfl, rfl⟩, rfl, rfl⟩
      rw [here]
      rfl
  | drop here fails going changed =>
      obtain ⟨links, rfl⟩ := fails.links
      obtain ⟨links', rfl⟩ := changeSlot_links changed
      obtain ⟨gauge, rfl⟩ := changeSlot_gauge changed
      refine .inl ⟨?_, rfl, .inr (.inl (going_of_shouldStop going).1), task,
        (same.cons _ ⟨rfl, rfl⟩).cons _ (isBeside_readReport ..), rfl, rfl⟩
      rw [here]
      rfl
  | reconnect here unconnected going =>
      refine .inl ⟨?_, rfl, .inr (.inl (going_of_shouldStop going).1), task, same.cons _ (isBeside_readReport ..), rfl,
        rfl⟩
      rw [here]
      rfl
  | endSink here late => exact .inr (.endSink here late)
  | getInLine here observed sent => exact .inr (.getInLine here observed sent)
  | endSend observed ends => exact .inr (.endSend observed ends)

/-! ### The channel of one client -/

/-- The only sender in line is the client, while it is sending, and nobody is in line without a receiver. -/
structure Shares (client : Client) (channel : Channel) : Prop where
  bounded : channel.Bounded
  line : channel.isOpen = true → channel.line = if client.phase.isSending then [client.number] else []
  gone : channel.isOpen = false → channel.line = []

variable {channel channel' : Channel}

theorem Shares.aside (shares : client.Shares channel) (number : client'.number = client.number)
    (sending : client'.phase.isSending = client.phase.isSending) : client'.Shares channel where
  bounded := shares.bounded
  line isOpen := by
    rw [number, sending]
    exact shares.line isOpen
  gone := shares.gone

theorem Shares.receive (shares : client.Shares channel) (most : Option Nat) :
    client.Shares (channel.receive most).2 where
  bounded := shares.bounded.receive most
  line isOpen := (Channel.grant_line _).trans (shares.line isOpen)
  gone closed := (Channel.grant_line _).trans (shares.gone closed)

theorem shares_closeReceiver (client : Client) (channel : Channel) : client.Shares channel.closeReceiver where
  bounded := channel.bounded_closeReceiver
  line isOpen := by cases isOpen
  gone _ := rfl

theorem Shares.line_nil (shares : client.Shares channel) (unsending : client.phase.isSending = false) :
    channel.granted = [] ∧ channel.waiting = [] := by
  have line : channel.line = [] := by
    cases isOpen : channel.isOpen with
    | false => exact shares.gone isOpen
    | true =>
        rw [shares.line isOpen, unsending]
        rfl
  exact List.append_eq_nil_iff.mp line

theorem Shares.full (shares : client.Shares channel) (sending : client.phase.isSending = true)
    (isOpen : channel.isOpen = true) (ungranted : client.number ∉ channel.granted) :
    channel.granted = [] ∧ channel.waiting = [client.number] ∧ channel.queue.length = channel.capacity := by
  have line := shares.line isOpen
  rw [sending, if_pos rfl, Channel.line, List.append_eq_singleton_iff] at line
  obtain ⟨granted, waiting⟩ | ⟨granted, waiting⟩ := line
  · have full := shares.bounded.full (by rw [waiting]; exact List.cons_ne_nil _ _)
    rw [granted] at full
    exact ⟨granted, waiting, full⟩
  · exact absurd (granted ▸ List.mem_singleton_self _) ungranted

theorem Shares.full_of_room (shares : client.Shares channel) (unsending : client.phase.isSending = false)
    (full : channel.room = 0) : channel.queue.length = channel.capacity := by
  obtain ⟨granted, -⟩ := shares.line_nil unsending
  have fits := shares.bounded.fits
  rw [granted] at fits
  rw [Channel.room, granted] at full
  simp only [List.length_nil] at fits full
  omega

theorem Shares.getInLine (shares : client.Shares channel) {mark deadline now : Nat}
    (here : client.phase = .confirming mark)
    (sent : channel.beginSend client.number mark client.options.confirmationTimeout client.cancelled now =
      (.inLine deadline, channel')) : (client.enter (.sending mark deadline)).Shares channel' := by
  have unsending : client.phase.isSending = false := by
    rw [here]
    rfl
  obtain ⟨granted, waiting⟩ := shares.line_nil unsending
  cases Channel.begins_of_beginSend sent with
  | wait going isOpen full patient =>
      refine ⟨shares.bounded.enqueue full _, fun _ => ?_, fun closed => absurd isOpen (ne_true_of_eq_false closed)⟩
      simp only [Channel.line, Channel.enqueue, granted, waiting]
      rfl

theorem Shares.line_erase (shares : client.Shares channel) (sending : client.phase.isSending = true) :
    channel.line.Nodup ∧ channel.line.erase client.number = [] := by
  cases isOpen : channel.isOpen with
  | true =>
      rw [shares.line isOpen, sending]
      exact ⟨List.pairwise_singleton .., List.erase_cons_head ..⟩
  | false =>
      rw [shares.gone isOpen]
      exact ⟨List.nodup_nil, rfl⟩

/-- How the sending of a mark ends: the mark is in the channel exactly if it was delivered, an unsuccessful end
other than by cancellation has its reason in the channel, and the client leaves the line. -/
theorem Shares.endSend (shares : client.Shares channel) {mark : Nat} {how : SendEnd}
    (ends : EndsSend client stage mark how channel channel') :
    (client.endSend stage.now mark how).Shares channel' ∧ channel'.isOpen = channel.isOpen ∧
      channel'.capacity = channel.capacity ∧
      channel'.queue = channel.queue ++ (if how = .delivered then [mark] else []) ∧
      (how = .timedOut → channel.isOpen = true ∧ channel.queue.length = channel.capacity) ∧
      (how = .closed → channel.isOpen = false) ∧ (how = .abandoned → client.cancelled = true) := by
  have number : (client.endSend stage.now mark how).number = client.number := (endSend_kept ..).1
  have unsending : (client.endSend stage.now mark how).phase.isSending = false := by
    rw [endSend_phase]
    rfl
  cases ends with
  | atOnce here sent =>
      have before : client.phase.isSending = false := by
        rw [here]
        rfl
      obtain ⟨granted, waiting⟩ := shares.line_nil before
      have aside := shares.aside number (unsending.trans before.symm)
      cases Channel.begins_of_beginSend sent with
      | abandon stops => exact ⟨aside, rfl, rfl, (List.append_nil _).symm, nofun, nofun, fun _ => stops⟩
      | lose going closed => exact ⟨aside, rfl, rfl, (List.append_nil _).symm, nofun, fun _ => closed, nofun⟩
      | expire going isOpen full spent =>
          exact ⟨aside, rfl, rfl, (List.append_nil _).symm, fun _ => ⟨isOpen, shares.full_of_room before full⟩, nofun,
            nofun⟩
      | put going isOpen free =>
          refine ⟨⟨shares.bounded.put free mark, fun _ => ?_,
            fun closed => absurd isOpen (ne_true_of_eq_false closed)⟩, rfl, rfl, rfl, nofun, nofun, nofun⟩
          simp only [unsending, Channel.line, Channel.put, granted, waiting]
          rfl
  | @inLine deadline here sent =>
      have sending : client.phase.isSending = true := by
        rw [here]
        rfl
      obtain ⟨distinct, line⟩ := shares.line_erase sending
      have leaves : (client.endSend stage.now mark how).Shares (channel.leave client.number) := by
        have left := (Channel.leave_line distinct client.number).trans line
        refine ⟨shares.bounded.leave _, fun _ => ?_, fun _ => left⟩
        rw [left, unsending]
        rfl
      cases Channel.resumes_of_resumeSend sent with
      | abandon stops => exact ⟨leaves, rfl, rfl, (List.append_nil _).symm, nofun, nofun, fun _ => stops⟩
      | lose going ungranted closed =>
          refine ⟨⟨shares.bounded, fun isOpen => absurd isOpen (ne_true_of_eq_false closed), shares.gone⟩, rfl, rfl,
            (List.append_nil _).symm, nofun, fun _ => closed, nofun⟩
      | expire going ungranted isOpen late =>
          obtain ⟨-, -, full⟩ := shares.full sending isOpen ungranted
          exact ⟨leaves, rfl, rfl, (List.append_nil _).symm, fun _ => ⟨isOpen, full⟩, nofun, nofun⟩
      | redeem going granted =>
          have used := (Channel.redeem_line granted mark).trans line
          refine ⟨⟨shares.bounded.redeem granted mark, fun _ => ?_, fun _ => used⟩, rfl, rfl, rfl, nofun, nofun, nofun⟩
          rw [used, unsending]
          rfl

end Client

end SequencedFeed
