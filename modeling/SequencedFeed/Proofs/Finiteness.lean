import SequencedFeed.Proofs.Endurance
import SequencedFeed.Proofs.Plans
import SequencedFeed.Proofs.Standstill
set_option autoImplicit false

/-!
# Only finitely much happens

On a stage on which dials go as planned a client makes no more moves at an instant than its work says, in whatever
state it is, and then waits. From timer to timer at least a millisecond passes, so a sleep is over after as many
timers as it has milliseconds at most. A connection that fails at once does not change that: whatever was to be
replaced failed a millisecond or more before the dial that is to replace it.
-/

namespace SequencedFeed

/-- Whether a read failed, or a dial that was to replace a connection. -/
def Occurrence.isSetback : Occurrence → Bool
  | .read _ (.error _) => true
  | .log (.silent ..) => true
  | .log (.readFailed ..) => true
  | .log (.redialFailed ..) => true
  | _ => false

def Phase.dialsNext : Phase → Bool
  | .connecting _ => true
  | .retrying _ => true
  | .backingOff .. => true
  | _ => false

namespace Client

variable {client client' : Client} {stage stage' : Stage}

/-! ### Moves in a row -/

/-- So many moves lead from one state to another, with no time between them. -/
inductive MovesOn : Nat → Client → Stage → Client → Stage → Prop
  | stay (client : Client) (stage : Stage) : MovesOn 0 client stage client stage
  | next {count : Nat} {client client' later : Client} {stage stage' around : Stage}
      (moved : client.move? stage = some (client', stage')) (others : MovesOn count client' stage' later around) :
      MovesOn (count + 1) client stage later around

theorem MovesOn.toil_le {count : Nat} {later : Client} {around : Stage} (moves : MovesOn count client stage later around)
    (consistent : client.Consistent stage) (pauses : client.Pauses stage) :
    count + later.toil around ≤ client.toil stage := by
  induction moves with
  | stay client stage => exact Nat.le_of_eq (Nat.zero_add _)
  | next moved others ih =>
      have acts := Client.Acts.move moved
      have less := consistent.toil_lt_of_move pauses moved
      have rest := ih (consistent.acts acts) (acts.pauses pauses)
      omega

theorem movesOn_moveUpTo (most : Nat) (client : Client) (stage : Stage) :
    ∃ count, MovesOn count client stage (moveUpTo most client stage).1 (moveUpTo most client stage).2 := by
  induction most generalizing client stage with
  | zero => exact ⟨0, .stay ..⟩
  | succ most ih =>
      unfold moveUpTo
      cases moved : client.move? stage with
      | none => exact ⟨0, .stay ..⟩
      | some next =>
          obtain ⟨count, others⟩ := ih next.1 next.2
          exact ⟨count + 1, .next moved others⟩

/-- A client that has no move either has no task or waits for something, which lies ahead if it is an instant. -/
structure Waits (client : Client) (stage : Stage) : Prop where
  rest : client.atRest stage
  task : client.phase = .idle ∨ ∃ wait, client.phase.wait? = some wait
  ahead : ∀ due, client.due? = some due → stage.now < due

theorem waits_of_atRest (rest : client.atRest stage) : client.Waits stage where
  rest := rest
  task := by
    by_cases idle : client.phase = .idle
    · exact .inl idle
    · exact .inr (wait_of_atRest rest idle)
  ahead _ waits := lt_due_of_atRest rest waits

theorem pauses_of_planned (client : Client) (plans : List (String × List PlannedDial)) (capacity : Option Nat) :
    client.Pauses (Stage.planned plans capacity) := by
  intro endless
  have script : (Stage.planned plans capacity).script client.url =
      { outcomes := (PlannedDial.allOutcomes (firstOf 0 plans client.url) (plansOf plans client.url)).1, beyond := none } :=
    plannedScripts_lookup plans client.url 0
  rw [script] at endless
  cases endless

/-! ### Dials after setbacks -/

def SetBackBefore (history : List (Nat × Occurrence)) (instant : Nat) : Prop :=
  ∀ entry ∈ history, entry.2.isSetback = true → entry.1 < instant

/-- A history up to now in which every dial began later than the setbacks before it. -/
structure Spaced (history : List (Nat × Occurrence)) (now : Nat) : Prop where
  apart : history.Pairwise fun later earlier =>
    later.2.dial?.isSome = true → earlier.2.isSetback = true → earlier.1 < later.1
  past : SetBackBefore history (now + 1)

section

variable {history : List (Nat × Occurrence)} {now instant : Nat}

theorem SetBackBefore.mono (before : SetBackBefore history now) (passes : now ≤ instant) :
    SetBackBefore history instant :=
  fun entry member setback => Nat.lt_of_lt_of_le (before entry member setback) passes

theorem SetBackBefore.cons (before : SetBackBefore history instant) {time : Nat} {occurrence : Occurrence}
    (new : occurrence.isSetback = true → time < instant) : SetBackBefore ((time, occurrence) :: history) instant :=
  List.forall_mem_cons.mpr ⟨new, before⟩

theorem Spaced.note (spaced : Spaced history now) {occurrence : Occurrence} (undialled : occurrence.dial? = none) :
    Spaced ((now, occurrence) :: history) now where
  apart := List.pairwise_cons.mpr ⟨fun _ _ dials => (by simp [undialled] at dials), spaced.apart⟩
  past := spaced.past.cons fun _ => Nat.lt_succ_self now

theorem Spaced.dial (spaced : Spaced history now) (before : SetBackBefore history now) (url : String) :
    Spaced ((now, .dialBegun url) :: history) now where
  apart := List.pairwise_cons.mpr ⟨fun entry member _ setback => before entry member setback, spaced.apart⟩
  past := spaced.past.cons fun _ => Nat.lt_succ_self now

theorem Spaced.later (spaced : Spaced history now) (passes : now ≤ instant) : Spaced history instant where
  apart := spaced.apart
  past := spaced.past.mono (Nat.succ_le_succ passes)

end

/-- A client that dials again only when some time has passed since the last setback. At start-up there are none. -/
structure Paced (client : Client) (now : Nat) : Prop where
  spaced : Spaced client.history now
  fresh : client.started = false ∨ client.phase.owner? = some .supervisor →
    ∀ entry ∈ client.history, entry.2.isSetback = false
  waits : ∀ {wait : Duration} {due : Nat}, client.phase = .backingOff wait due → SetBackBefore client.history due
  dials : ∀ {wait : Duration}, client.phase = .connecting (.reconnect wait) → SetBackBefore client.history now

namespace Paced

variable {now : Nat}

private theorem started_up (started : client.started = true) (reads : client.phase.owner? ≠ some .supervisor) :
    ¬(client.started = false ∨ client.phase.owner? = some .supervisor) := by
  rintro (unstarted | supervises)
  · exact ne_false_of_eq_true started unstarted
  · exact reads supervises

theorem go (spaced : Spaced client.history now) (started : client.started = true)
    (reads : client.phase.owner? ≠ some .supervisor) (calm : client.phase.dialsNext = false) : client.Paced now where
  spaced := spaced
  fresh startsUp := absurd startsUp (started_up started reads)
  waits here := by
    rw [here] at calm
    cases calm
  dials here := by
    rw [here] at calm
    cases calm

theorem read (spaced : Spaced client.history now) (started : client.started = true)
    (unseeking : client.phase.isSeeking = false) : client.Paced now := by
  refine .go spaced started (fun supervises => ?_) ?_
  · cases here : client.phase <;> simp [here, Phase.isSeeking, Phase.owner?] at unseeking supervises
  · cases here : client.phase <;> first | rfl | (rw [here] at unseeking; cases unseeking)

theorem backOff (spaced : Spaced client.history now) (started : client.started = true) {wait : Duration} {due : Nat}
    (here : client.phase = .backingOff wait due) (ahead : now < due) : client.Paced now where
  spaced := spaced
  fresh startsUp := absurd startsUp (started_up started (by rw [here]; exact fun supervises => by cases supervises))
  waits here' := by
    obtain ⟨rfl, rfl⟩ := Phase.backingOff.inj (here.symm.trans here')
    exact spaced.past.mono ahead
  dials here' := by
    rw [here] at here'
    cases here'

theorem redial (spaced : Spaced client.history now) (started : client.started = true) {wait : Duration}
    (here : client.phase = .connecting (.reconnect wait)) (before : SetBackBefore client.history now) :
    client.Paced now where
  spaced := spaced
  fresh startsUp := absurd startsUp (started_up started (by rw [here]; exact fun supervises => by cases supervises))
  waits here' := by
    rw [here] at here'
    cases here'
  dials _ := before

theorem supervise (spaced : Spaced client.history now) (supervises : client.phase.owner? = some .supervisor)
    (fresh : ∀ entry ∈ client.history, entry.2.isSetback = false) : client.Paced now where
  spaced := spaced
  fresh _ := fresh
  waits here := by
    rw [here] at supervises
    cases supervises
  dials here := by
    rw [here] at supervises
    cases supervises

theorem report (paced : client.Paced now) {event : LogEvent} (mild : (Occurrence.log event).isSetback = false)
    (started : client'.started = client.started) (phase : client'.phase = client.phase)
    (history : client'.history = (now, .log event) :: client.history) : client'.Paced now := by
  have unset {instant : Nat} (before : SetBackBefore client.history instant) : SetBackBefore client'.history instant := by
    rw [history]
    exact before.cons fun setback => absurd setback (ne_true_of_eq_false mild)
  exact
    { spaced := by
        rw [history]
        exact paced.spaced.note rfl
      fresh := by
        rw [started, phase, history]
        exact fun startsUp => List.forall_mem_cons.mpr ⟨mild, paced.fresh startsUp⟩
      waits := fun here => unset (paced.waits (phase ▸ here))
      dials := fun here => unset (paced.dials (phase ▸ here)) }

theorem stop (paced : client.Paced now) (stage : Stage) (clock : stage.now = now) : (client.stop stage).1.Paced now := by
  have mild : (Occurrence.log (.closing client.url)).isSetback = false := rfl
  rw [stop_eq, clock]
  exact paced.report mild rfl rfl rfl

end Paced

private theorem TakesFrame.paced {now : Nat} {frame : List UInt8} (takes : client.TakesFrame now frame client')
    (spaced : Spaced client.history now) (started : client.started = true) : client'.Paced now := by
  have next (mark : Option Nat) : (phaseAfterSink mark).isSeeking = false := by cases mark <;> rfl
  cases takes with
  | blank empty => exact .read spaced started rfl
  | undecodable filled refused => exact .read (spaced.note rfl) started rfl
  | pass filled decoded uncalled same =>
      subst same
      exact .read (spaced.note rfl) started (next _)
  | apply filled decoded called => exact .read ((spaced.note rfl).note rfl) started rfl

private theorem EndsDial.paced {episode : Episode} {ends : DialEnd}
    (ended : EndsDial client stage episode ends client' stage') (paced : client.Paced stage.now)
    (started : client.started = true) (owner : client.phase.owner? = some episode.owner) :
    client'.Paced stage.now := by
  cases ended with
  | install isOpen changed =>
      obtain ⟨metrics, rfl⟩ := changeSlot_kept changed
      obtain ⟨links, rfl⟩ := changeSlot_links changed
      obtain ⟨unseeking, -⟩ := phaseAfterDial_plain _ episode
      exact .read (((paced.spaced.note rfl).note rfl).note rfl) started unseeking
  | refuse stopped =>
      obtain ⟨unseeking, -⟩ := phaseAfterDial_plain client episode
      exact .read ((paced.spaced.note rfl).note rfl) started unseeking
  | @fail error =>
      have spaced : Spaced ((stage.now, .log (client.dialReport error episode)) ::
          (stage.now, .dialEnded (.fail error)) :: client.history) stage.now := (paced.spaced.note rfl).note rfl
      cases episode with
      | startUp =>
          have fresh := paced.fresh (.inr owner)
          exact .supervise spaced rfl (List.forall_mem_cons.mpr ⟨rfl, List.forall_mem_cons.mpr ⟨rfl, fresh⟩⟩)
      | reconnect waited =>
          cases stopping : client.shouldStop with
          | true =>
              have next : client.phaseAfterFailure stage.now (.reconnect waited) = .looping := by
                simp [phaseAfterFailure, stopping]
              exact .read spaced started (by rw [enter_phase, next]; rfl)
          | false =>
              have next : client.phaseAfterFailure stage.now (.reconnect waited) =
                  .backingOff (client.options.backoff.next waited)
                    (expiry stage.now (client.options.backoff.next waited).millis) := by
                simp [phaseAfterFailure, stopping]
              exact .backOff spaced started next (lt_expiry (client.options.backoff.next_pos waited))

private theorem Passes.paced {phase : Phase} (passes : client.Passes stage phase) (paced : client.Paced stage.now)
    (started : client.started = true) : (client.enter phase).Paced stage.now := by
  have read (unseeking : phase.isSeeking = false) : (client.enter phase).Paced stage.now :=
    .read paced.spaced started unseeking
  cases passes with
  | skip | abandon => exact read (phaseAfterDial_plain ..).1
  | retry here going late =>
      have fresh := paced.fresh (.inr (by rw [here]; rfl))
      exact .supervise paced.spaced rfl fresh
  | redial here going late => exact .redial paced.spaced started rfl ((paced.waits here).mono late)
  | giveUp | endBackOff | handOver | leave | leaveUnconnected | beginRead | letGo | letGoInLine => exact read rfl

private theorem Moves.paced (moves : client.Moves stage client' stage') (consistent : client.Consistent stage)
    (paced : client.Paced stage.now) : client'.Paced stage.now := by
  have started : client.started = true := consistent.phase.started moves.task
  have spaced := paced.spaced
  cases moves with
  | pass passes => exact passes.paced paced started
  | skipCancelled here enabled isOpen cancelled =>
      exact .read (spaced.note rfl) started (phaseAfterDial_plain ..).1
  | @dial episode outcome _ here enabled isOpen going next =>
      have owner := outcome_owner outcome episode stage.now
      have told {instant : Nat} (before : SetBackBefore client.history instant) :
          SetBackBefore ((stage.now, .log (.connecting client.url)) :: client.history) instant :=
        before.cons fun setback => absurd setback Bool.false_ne_true
      cases episode with
      | startUp =>
          have fresh := paced.fresh (.inr (by rw [here]; rfl))
          have before : SetBackBefore client.history stage.now := fun entry member setback =>
            absurd setback (ne_true_of_eq_false (fresh entry member))
          exact .supervise ((spaced.note rfl).dial (told before) _) owner
            (List.forall_mem_cons.mpr ⟨rfl, List.forall_mem_cons.mpr ⟨rfl, fresh⟩⟩)
      | reconnect waited =>
          have reads : (outcome.phase (.reconnect waited) stage.now).owner? ≠ some .supervisor := by
            rw [owner]
            exact fun supervises => by cases supervises
          refine .go ((spaced.note rfl).dial (told (paced.dials here)) _) started reads ?_
          obtain ⟨ends, after, stops⟩ := outcome
          cases ends <;> rfl
  | @endDial episode ends stops due _ _ here going late ended =>
      have owner : client.phase.owner? = some episode.owner := by rw [here]; rfl
      cases stops with
      | false => exact ended.paced paced started owner
      | true =>
          have stopped := paced.stop { stage with stopAsked := true } rfl
          obtain ⟨links, same⟩ := stop_links client { stage with stopAsked := true }
          have kept := (stop_keeps client { stage with stopAsked := true }).started
          simp only [beforeOutcome, if_true, same] at ended
          exact ended.paced stopped (kept.trans started) (by rw [stop_eq]; exact owner)
  | takeFrame here reads takes => exact takes.paced (spaced.note rfl) started
  | endReading here fails stopping => exact .read (spaced.note rfl) started rfl
  | drop here fails going changed =>
      obtain ⟨metrics, rfl⟩ := changeSlot_kept changed
      obtain ⟨links, rfl⟩ := changeSlot_links changed
      obtain ⟨links', rfl⟩ := fails.links
      exact .backOff ((spaced.note rfl).note rfl) started rfl (lt_expiry client.options.backoff.first_pos)
  | reconnect here unconnected going =>
      exact .backOff (spaced.note rfl) started rfl (lt_expiry client.options.backoff.first_pos)
  | @endSink start due mark here late =>
      obtain ⟨-, -, -, same, -⟩ := endSink_kept client stage.now start mark
      refine .read ?_ (same.trans started) (by rw [endSink_phase]; cases mark <;> rfl)
      rw [endSink_history]
      split
      · exact (spaced.note rfl).note rfl
      · exact spaced.note rfl
  | getInLine here observed sent => exact .read spaced started rfl
  | @endSend mark how channel channel' observed ends =>
      obtain ⟨-, -, -, same, -⟩ := endSend_kept client stage.now mark how
      refine .read ?_ (same.trans started) (by rw [endSend_phase]; rfl)
      rw [endSend_history]
      cases how with
      | abandoned => exact spaced
      | delivered | timedOut | closed => exact spaced.note rfl

theorem paced_lasts : Client.Lasts fun _ client stage => client.Paced stage.now where
  acts consistent paced acts := by
    cases acts with
    | start starts =>
        cases starts with
        | report barred known =>
            refine paced.report ?_ rfl rfl rfl
            rcases known with rfl | rfl <;> rfl
        | first enabled unstarted => exact .supervise paced.spaced rfl (paced.fresh (.inl unstarted))
    | cancel => exact { paced with }
    | stop =>
        obtain ⟨links, same⟩ := stop_links _ _
        rw [same]
        exact paced.stop _ rfl
    | move moves =>
        obtain ⟨next, around, moved, rfl, rfl⟩ := moves_of_move moves
        obtain ⟨scripts, links, channel, stopAsked, same⟩ := moved.surroundings
        have kept := moved.paced consistent paced
        rw [same]
        exact { kept with }
  around paced _ now _ := by
    rw [now]
    exact paced
  receive most paced := by
    rw [Stage.receive_now]
    exact paced
  waits _ paced passes _ :=
    { spaced := paced.spaced.later passes
      fresh := paced.fresh
      waits := paced.waits
      dials := fun here => (paced.dials here).mono passes }

theorem paced_closes : Client.Closes fun _ client stage => client.Paced stage.now :=
  fun paced => paced

theorem paced_make (number : Nat) (options : ClientOptions) (sink : SinkScript) (now : Nat) :
    (make number options sink).Paced now where
  spaced := ⟨.nil, List.forall_mem_nil _⟩
  fresh _ := List.forall_mem_nil _
  waits here := by cases here
  dials here := by cases here

end Client

namespace ClientRun

variable {run : ClientRun}

/-- No more timers go off in a sleep than it has milliseconds, and then nothing is due before it ends. -/
theorem Still.fires (still : run.Still) (millis : Nat) :
    (∀ count later, timed.Fires (run.stage.now + millis) count run later → count ≤ millis) ∧
      ∃ count later, timed.Fires (run.stage.now + millis) count run later ∧
        (∀ due, later.client.due? = some due → run.stage.now + millis < due) ∧
        (run.begin (.sleep millis)).1 = timed.wake (run.stage.now + millis) later := by
  have wakes (instant : Nat) (run : ClientRun) (still : run.Still) (passes : run.stage.now ≤ instant)
      (early : ∀ due, timed.due? run = some due → instant ≤ due) :
      (timed.wake instant run).Still ∧ (timed.wake instant run).stage.now = instant := still.wake passes early
  have ahead (run : ClientRun) (due : Nat) (still : run.Still) (waits : timed.due? run = some due) :
      run.stage.now < due := still.ahead waits
  have before : run.stage.now ≤ run.stage.now + millis := Nat.le_add_right ..
  refine ⟨fun count later fires => ?_, ?_⟩
  · have most := Timed.fires_le timed Still (fun run => run.stage.now) wakes ahead fires still before
    omega
  · exact Timed.pass_fires timed Still (fun run => run.stage.now) wakes ahead still before

/-- Every instant comes to rest. On a stage on which dials go as planned, with whatever a client waits for being as
short as it may, no state that it can get into allows more moves than its work counts. It comes to rest by a row of
moves, and then it has no task any more or waits for a dial, a frame, the sink, room in the channel or an instant
that is yet to come. No more timers go off in a sleep than it has milliseconds. And whatever fails, no dial begins
in the millisecond in which a read or the dial for another connection failed before it. -/
theorem every_instant_comes_to_rest (plans : List (String × List PlannedDial)) (capacity : Option Nat)
    (options : ClientOptions) (sink : SinkScript) :
    let fresh := make (Stage.planned plans capacity) options sink
    (∀ run, fresh.Reaches run →
      (∀ count client stage, Client.MovesOn count run.client run.stage client stage →
        count ≤ run.client.work run.stage) ∧
      ∃ count client stage, Client.MovesOn count run.client run.stage client stage ∧
        run.client.settle run.stage = (client, stage) ∧ client.Waits stage) ∧
    ∀ steps, let run := fresh.play steps
      (∀ millis,
        (∀ count later, timed.Fires (run.stage.now + millis) count run later → count ≤ millis) ∧
        ∃ count later, timed.Fires (run.stage.now + millis) count run later ∧
          (∀ due, later.client.due? = some due → run.stage.now + millis < due) ∧
          (run.begin (.sleep millis)).1 = timed.wake (run.stage.now + millis) later) ∧
      run.client.history.Pairwise fun later earlier =>
        later.2.dial?.isSome = true → earlier.2.isSetback = true → earlier.1 + 1 ≤ later.1 := by
  intro fresh
  have opening : Stage.Opening (Stage.planned plans capacity) := .planned plans capacity
  have pauses : fresh.client.Pauses fresh.stage := Client.pauses_of_planned _ plans capacity
  refine ⟨fun run reaches => ⟨fun count client stage moves => ?_, ?_⟩, fun steps => ⟨?_, ?_⟩⟩
  · have consistent := (Reachable.later ⟨_, options, sink, opening, .refl⟩ reaches).consistent
    have less := moves.toil_le consistent (reaches.settings.2 pauses)
    have enough : run.client.toil run.stage ≤ run.client.work run.stage := Client.toil_le_work
    omega
  · have consistent := (Reachable.later ⟨_, options, sink, opening, .refl⟩ reaches).consistent
    obtain ⟨count, moves⟩ := Client.movesOn_moveUpTo (run.client.work run.stage) run.client run.stage
    exact ⟨count, _, _, moves, rfl, Client.waits_of_atRest (consistent.settle_atRest (reaches.settings.2 pauses))⟩
  · exact fun millis => ((still_make opening pauses sink).play steps).fires millis
  · have paced := (rested_play opening pauses sink Client.paced_lasts (Client.paced_make 0 options sink _) steps
      fun _ => @Client.paced_closes).holds
    exact paced.spaced.apart

/-- Nothing is waited for, the first four dials begin in one millisecond, and both connections fail the first read
at once. From then on a millisecond passes before every dial. -/
theorem every_instant_comes_to_rest_without_delays :
    let none := Duration.ofMillis 0
    let options : ClientOptions :=
      { ClientOptions.standard "ws://feed" with
        backoff := ⟨none, none⟩, supervisorDelay := none, confirmationTimeout := none }
    let plans := [("ws://feed", [⟨.failNext 3, 0, false⟩, ⟨.connect "first", 0, false⟩, ⟨.failNext 2, 0, false⟩,
      ⟨.connect "second", 0, false⟩])]
    let fresh := make (Stage.planned plans (some 0)) options ⟨true, 0⟩
    let started := ((fresh.play [.hangUp "first", .hangUp "second"]).begin .start).1
    let later := fresh.play [.hangUp "first", .hangUp "second", .start, .sleep 5]
    fresh.Reaches started ∧
      (∀ count client stage, Client.MovesOn count started.client started.stage client stage → count ≤ 73) ∧
      (∀ count last, timed.Fires 15 count later last → count ≤ 10) ∧
      later.client.dials.map Prod.fst = [0, 0, 0, 0, 1, 2, 3, 4] ∧
      later.client.history.Pairwise fun later earlier =>
        later.2.dial?.isSome = true → earlier.2.isSetback = true → earlier.1 + 1 ≤ later.1 := by
  intro none options plans fresh started later
  have reaches : fresh.Reaches started := (reaches_play fresh _).trans (reaches_begin _ .start)
  have opened : make (Stage.planned plans (some 0)) options ⟨true, 0⟩ = fresh := rfl
  have slept : fresh.play [.hangUp "first", .hangUp "second", .start, .sleep 5] = later := rfl
  have clock : later.stage.now + 10 = 15 := by decide
  have work : started.client.work started.stage = 73 := by decide
  have dials : later.client.dials.map Prod.fst = [0, 0, 0, 0, 1, 2, 3, 4] := by decide
  obtain ⟨rests, sleeps⟩ := every_instant_comes_to_rest plans (some 0) options ⟨true, 0⟩
  obtain ⟨moves, -⟩ := rests started reaches
  obtain ⟨fires, paced⟩ := sleeps [.hangUp "first", .hangUp "second", .start, .sleep 5]
  rw [opened, slept] at fires paced
  refine ⟨reaches, ?_, ?_, dials, paced⟩
  · rw [← work]
    exact moves
  · rw [← clock]
    exact (fires 10).1

end ClientRun

end SequencedFeed
