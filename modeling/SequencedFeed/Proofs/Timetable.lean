import SequencedFeed.Proofs.Endurance
import SequencedFeed.Proofs.Settling
set_option autoImplicit false

/-!
# When dials begin

The failures of a client make its timetable: the first dial is due at its start, and every failed dial and
every failed read sets the next one. A client that goes on keeps to its timetable, neither early nor late, and
one that is to stop dials no more.
-/

namespace SequencedFeed

namespace Occurrence

def setsDial : Occurrence → Bool
  | .dialEnded (.fail _) => true
  | .read _ (.error _) => true
  | _ => false

def concernsDials : Occurrence → Bool
  | .dialBegun _ => true
  | occurrence => occurrence.setsDial

end Occurrence

/-! ### Timetables -/

/-- How many dials have failed since a read failed last; `none` before any read has failed. -/
def failedTries : List (Nat × Occurrence) → Option Nat
  | [] => none
  | (_, .read _ (.error _)) :: _ => some 0
  | (_, .dialEnded (.fail _)) :: earlier => (failedTries earlier).map (· + 1)
  | _ :: earlier => failedTries earlier

namespace ClientOptions

/-- The wait before the next dial: the same after every failure at start-up, one step longer after every
failure of a reconnect. -/
def waitAfter (options : ClientOptions) : Option Nat → Nat
  | none => options.supervisorDelay.millis
  | some failed =>
      min ((failed + 1) * options.backoff.normalized.step.millis) options.backoff.normalized.most.millis

/-- When dials are due, oldest first: at the start, and after the wait that each failure makes necessary. -/
def timetable (options : ClientOptions) (first : Nat) : List (Nat × Occurrence) → List Nat
  | [] => [first]
  | (time, occurrence) :: earlier =>
      if occurrence.setsDial then
        options.timetable first earlier ++ [time + options.waitAfter (failedTries ((time, occurrence) :: earlier))]
      else options.timetable first earlier

end ClientOptions

def dialTimes : List (Nat × Occurrence) → List Nat
  | [] => []
  | (time, .dialBegun _) :: earlier => dialTimes earlier ++ [time]
  | _ :: earlier => dialTimes earlier

theorem dials_times (client : Client) : client.dials.map Prod.fst = dialTimes client.history := by
  unfold Client.dials
  induction client.history with
  | nil => rfl
  | cons entry earlier ih =>
      obtain ⟨time, occurrence⟩ := entry
      cases occurrence with
      | dialBegun url =>
          rw [dialTimes, ← ih]
          simp
      | _ => exact ih

/-! ### Occurrences beside the timetable -/

theorem Occurrence.setsDial_of_aside {occurrence : Occurrence} (aside : occurrence.concernsDials = false) :
    occurrence.setsDial = false := by
  cases occurrence with
  | dialBegun url => cases aside
  | _ => exact aside

private theorem failedTries_aside {occurrence : Occurrence} (aside : occurrence.setsDial = false) (time : Nat)
    (earlier : List (Nat × Occurrence)) : failedTries ((time, occurrence) :: earlier) = failedTries earlier := by
  cases occurrence with
  | dialEnded ends =>
      cases ends with
      | connect link => rfl
      | fail error => cases aside
  | read link result =>
      cases result with
      | ok frame => rfl
      | error error => cases aside
  | _ => rfl

private theorem dialTimes_aside {occurrence : Occurrence} (aside : occurrence.concernsDials = false) (time : Nat)
    (earlier : List (Nat × Occurrence)) : dialTimes ((time, occurrence) :: earlier) = dialTimes earlier := by
  cases occurrence with
  | dialBegun url => cases aside
  | _ => rfl

def DialsAside : List (Nat × Occurrence) → List (Nat × Occurrence) → Prop :=
  OnlyAdds fun occurrence => occurrence.concernsDials = false

section

variable {earlier later : List (Nat × Occurrence)} (aside : DialsAside earlier later)
include aside

theorem DialsAside.failedTries_eq : failedTries later = failedTries earlier := by
  obtain ⟨added, rfl, beside⟩ := aside
  induction added with
  | nil => rfl
  | cons entry rest ih =>
      obtain ⟨here, others⟩ := List.forall_mem_cons.mp beside
      exact (failedTries_aside (Occurrence.setsDial_of_aside here) ..).trans (ih others)

theorem DialsAside.dialTimes_eq : dialTimes later = dialTimes earlier := by
  obtain ⟨added, rfl, beside⟩ := aside
  induction added with
  | nil => rfl
  | cons entry rest ih =>
      obtain ⟨here, others⟩ := List.forall_mem_cons.mp beside
      exact (dialTimes_aside here ..).trans (ih others)

theorem DialsAside.timetable_eq (options : ClientOptions) (first : Nat) :
    options.timetable first later = options.timetable first earlier := by
  obtain ⟨added, rfl, beside⟩ := aside
  induction added with
  | nil => rfl
  | cons entry rest ih =>
      obtain ⟨here, others⟩ := List.forall_mem_cons.mp beside
      rw [List.cons_append, ClientOptions.timetable, Occurrence.setsDial_of_aside here]
      exact ih others

end

namespace Phase

/-- When the task dials next, if it is about to or waits for that. -/
def dialDue? (phase : Phase) (now : Nat) : Option Nat :=
  match phase with
  | .connecting _ => some now
  | .retrying due => some due
  | .backingOff _ due => some due
  | _ => none

/-- The episode that the dials of a phase belong to. -/
def episode? : Phase → Option Episode
  | .connecting episode => some episode
  | .hanging episode => some episode
  | .dialling episode _ _ _ => some episode
  | .retrying _ => some .startUp
  | .backingOff wait _ => some (.reconnect wait)
  | _ => none

theorem dialDue_of_unseeking {phase : Phase} (unseeking : phase.isSeeking = false) (now : Nat) :
    phase.dialDue? now = none ∧ phase.episode? = none := by
  cases phase <;> first | exact ⟨rfl, rfl⟩ | cases unseeking

end Phase

def ClientOptions.episodeAfter (options : ClientOptions) : Option Nat → Episode
  | none => .startUp
  | some failed => .reconnect (options.backoff.delay failed)

/-- A client on its way through its timetable: everything that was due has begun, and the task is about to
begin what is due next, or waits for it. -/
structure Client.KeepsPace (client : Client) (now first : Nat) : Prop where
  next : client.options.timetable first client.history =
    dialTimes client.history ++ (client.phase.dialDue? now).toList
  ahead : ∀ due, client.phase.dialDue? now = some due → now ≤ due
  episode : ∀ episode, client.phase.episode? = some episode →
    episode = client.options.episodeAfter (failedTries client.history)

/-- A client that was started dials by its timetable, and keeps pace with it until it is to stop. -/
structure Client.OnTime (client : Client) (now first : Nat) : Prop where
  started : client.started = true
  dialled : dialTimes client.history <+: client.options.timetable first client.history
  past : ∀ time ∈ dialTimes client.history, time ≤ now
  pace : client.shouldStop = false → client.KeepsPace now first

namespace Client

variable {client client' : Client} {stage stage' : Stage} {now first : Nat}

theorem OnTime.aside (onTime : client.OnTime now first) (started : client'.started = client.started)
    (options : client'.options = client.options) (history : DialsAside client.history client'.history)
    (going : client'.shouldStop = false → client.shouldStop = false)
    (due : client'.shouldStop = false → client'.phase.dialDue? now = client.phase.dialDue? now)
    (episode : client'.shouldStop = false → ∀ episode, client'.phase.episode? = some episode →
      client.phase.episode? = some episode) : client'.OnTime now first where
  started := started.trans onTime.started
  dialled := by
    rw [options, history.dialTimes_eq, history.timetable_eq]
    exact onTime.dialled
  past := by
    rw [history.dialTimes_eq]
    exact onTime.past
  pace goes := by
    have pace := onTime.pace (going goes)
    refine ⟨?_, ?_, fun episode' here => ?_⟩
    · rw [options, history.dialTimes_eq, history.timetable_eq, due goes]
      exact pace.next
    · rw [due goes]
      exact pace.ahead
    · rw [options, history.failedTries_eq]
      exact pace.episode episode' (episode goes episode' here)

theorem OnTime.stopping (onTime : client.OnTime now first) (started : client'.started = client.started)
    (options : client'.options = client.options) (history : DialsAside client.history client'.history)
    (stopping : client'.shouldStop = true) : client'.OnTime now first := by
  have stops {claim : Prop} (going : client'.shouldStop = false) : claim := by
    rw [stopping] at going
    cases going
  exact onTime.aside started options history stops stops stops

theorem OnTime.stop (onTime : client.OnTime now first) (stage : Stage) :
    (client.stop stage).1.OnTime now first := by
  have keeps := stop_keeps client stage
  have same : DialsAside client.history client.history := .of_eq rfl
  refine onTime.stopping keeps.started keeps.options ?_ ?_ <;> rw [stop_eq]
  · exact same.cons stage.now rfl
  · exact Bool.or_true _

theorem OnTime.unseeking (onTime : client.OnTime now first) (started : client'.started = client.started)
    (options : client'.options = client.options) (history : DialsAside client.history client'.history)
    (stop : client'.shouldStop = client.shouldStop) (undue : client.phase.dialDue? now = none)
    (unseeking : client'.phase.isSeeking = false) : client'.OnTime now first := by
  obtain ⟨due, outside⟩ := Phase.dialDue_of_unseeking unseeking now
  refine onTime.aside started options history stop.symm.trans (fun _ => due.trans undue.symm) ?_
  intro _ episode here
  rw [outside] at here
  cases here

private theorem dialTimes_of_sets {occurrence : Occurrence} (sets : occurrence.setsDial = true) (time : Nat)
    (earlier : List (Nat × Occurrence)) : dialTimes ((time, occurrence) :: earlier) = dialTimes earlier := by
  cases occurrence with
  | dialBegun url => cases sets
  | _ => rfl

theorem OnTime.fails (onTime : client.OnTime now first) (started : client'.started = client.started)
    (options : client'.options = client.options) {occurrence : Occurrence} (sets : occurrence.setsDial = true)
    (history : DialsAside ((now, occurrence) :: client.history) client'.history)
    (going : client'.shouldStop = false → client.shouldStop = false ∧ client.phase.dialDue? now = none)
    (due : client'.shouldStop = false → client'.phase.dialDue? now =
      some (now + client.options.waitAfter (failedTries ((now, occurrence) :: client.history))))
    (episode : client'.shouldStop = false → client'.phase.episode? =
      some (client.options.episodeAfter (failedTries ((now, occurrence) :: client.history)))) :
    client'.OnTime now first := by
  have times : dialTimes client'.history = dialTimes client.history :=
    history.dialTimes_eq.trans (dialTimes_of_sets sets ..)
  have table : client'.options.timetable first client'.history = client.options.timetable first client.history ++
      [now + client.options.waitAfter (failedTries ((now, occurrence) :: client.history))] := by
    rw [options, history.timetable_eq, ClientOptions.timetable, if_pos sets]
  refine ⟨started.trans onTime.started, ?_, ?_, fun goes => ?_⟩
  · rw [times, table]
    exact onTime.dialled.trans (List.prefix_append ..)
  · rw [times]
    exact onTime.past
  · obtain ⟨before, none⟩ := going goes
    have next := (onTime.pace before).next
    rw [none, Option.toList_none, List.append_nil] at next
    refine ⟨?_, fun later waits => ?_, fun episode' here => ?_⟩
    · rw [table, times, next, due goes]
      rfl
    · rw [due goes] at waits
      obtain rfl := Option.some.inj waits
      exact Nat.le_add_right ..
    · rw [episode goes] at here
      rw [options, history.failedTries_eq]
      exact (Option.some.inj here).symm

/-! ### Moves keep a client on time -/

/-- The wait of every failed try is the one that the timetable counts with. -/
private theorem expiry_delay (tells : client.options.TellsTime) (now failed : Nat) :
    expiry now (client.options.backoff.delay failed).millis = now + client.options.waitAfter (some failed) := by
  rw [expiry_of_le (tells.delay_le failed), Backoff.delay_millis tells.step tells.most]
  rfl

private theorem OnTime.passes (onTime : client.OnTime stage.now first) (consistent : client.Consistent stage)
    {phase : Phase} (passes : client.Passes stage phase) : (client.enter phase).OnTime stage.now first := by
  have enabled := consistent.enabled onTime.started
  have kept (going : client.shouldStop = false) :
      phase.dialDue? stage.now = client.phase.dialDue? stage.now ∧ phase.episode? = client.phase.episode? := by
    obtain ⟨uncancelled, isOpen⟩ := going_of_shouldStop going
    have ahead := (onTime.pace going).ahead
    -- a wait that is over has just ended
    have ends {due : Nat} (waits : client.phase.dialDue? stage.now = some due) (late : due ≤ stage.now) :
        some stage.now = client.phase.dialDue? stage.now := by
      rw [waits, Nat.le_antisymm (ahead due waits) late]
    cases passes with
    | skip here barred =>
        rcases barred with disabled | stopped
        · exact absurd disabled (ne_true_of_eq_false enabled)
        · exact absurd stopped (ne_true_of_eq_false isOpen)
    | abandon here cancelled | giveUp here cancelled | leave here cancelled =>
        exact absurd cancelled (ne_true_of_eq_false uncancelled)
    | endBackOff here stopping | leaveUnconnected here unconnected stopping =>
        exact absurd stopping (ne_true_of_eq_false going)
    | retry here _ late | redial here _ late =>
        refine ⟨ends ?_ late, ?_⟩ <;> rw [here] <;> rfl
    | handOver here | beginRead here | letGo here | letGoInLine here =>
        rw [here]
        exact ⟨rfl, rfl⟩
  refine onTime.aside rfl rfl (.of_eq rfl) (fun going => going) (fun going => (kept going).1) ?_
  intro going episode there
  rw [← (kept going).2]
  exact there

private theorem TakesFrame.dialsAside {frame : List UInt8} (takes : client.TakesFrame now frame client') :
    DialsAside client.history client'.history := by
  have same : DialsAside client.history client.history := .of_eq rfl
  cases takes with
  | blank empty => exact same
  | undecodable | pass => exact same.cons now rfl
  | apply => exact (same.cons now rfl).cons now rfl

private theorem OnTime.endsDial (onTime : client.OnTime now first) (time : stage.now = now)
    (tells : client.options.TellsTime) {episode : Episode} {ends : DialEnd} {stops : Bool} {due : Nat}
    (here : client.phase = .dialling episode ends stops due)
    (ended : EndsDial client stage episode ends client' stage') : client'.OnTime now first := by
  subst time
  have same : DialsAside client.history client.history := .of_eq rfl
  have undue : client.phase.dialDue? stage.now = none := by rw [here]; rfl
  cases ended with
  | @install link next around isOpen changed =>
      obtain ⟨gauge, rfl⟩ := changeSlot_gauge changed
      refine onTime.unseeking rfl rfl (((same.cons _ rfl).cons _ rfl).cons _ rfl) ?_ undue
        (phaseAfterDial_plain ..).1
      change (client.cancelled || (client.slot.install link).1.shuttingDown) = client.shouldStop
      rw [Slot.install, isOpen, shouldStop, isOpen]
      rfl
  | @refuse link stopped =>
      have stopping : client.shouldStop = true := Bool.or_eq_true_iff.mpr (.inr stopped)
      exact onTime.stopping rfl rfl ((same.cons _ rfl).cons _ rfl) stopping
  | @fail error =>
      have sets : (Occurrence.dialEnded (.fail error)).setsDial = true := rfl
      have tries : failedTries ((stage.now, .dialEnded (.fail error)) :: client.history) =
          (failedTries client.history).map (· + 1) := rfl
      have settled : DialsAside ((stage.now, .dialEnded (.fail error)) :: client.history)
          ((stage.now, .log (client.dialReport error episode)) ::
            (stage.now, .dialEnded (.fail error)) :: client.history) :=
        OnlyAdds.cons (.of_eq rfl) stage.now rfl
      have waits (going : client.shouldStop = false) :
          (client.phaseAfterFailure stage.now episode).dialDue? stage.now =
              some (stage.now + client.options.waitAfter ((failedTries client.history).map (· + 1))) ∧
            (client.phaseAfterFailure stage.now episode).episode? =
              some (client.options.episodeAfter ((failedTries client.history).map (· + 1))) := by
        have belongs := (onTime.pace going).episode episode (by rw [here]; rfl)
        cases counted : failedTries client.history with
        | none =>
            rw [counted] at belongs
            subst belongs
            refine ⟨congrArg some ?_, rfl⟩
            exact expiry_of_le tells.supervisor_le
        | some failed =>
            rw [counted] at belongs
            subst belongs
            have next : client.options.backoff.next (client.options.backoff.delay failed) =
                client.options.backoff.delay (failed + 1) := rfl
            simp only [ClientOptions.episodeAfter, phaseAfterFailure, going, Bool.false_eq_true, if_false,
              next, expiry_delay tells]
            exact ⟨rfl, rfl⟩
      refine onTime.fails rfl rfl sets settled (fun going => ⟨going, undue⟩) (fun going => ?_) fun going => ?_
      · rw [tries]
        exact (waits going).1
      · rw [tries]
        exact (waits going).2

theorem OnTime.dial (onTime : client.OnTime stage.now first) {episode : Episode} {outcome : Outcome}
    (here : client.phase = .connecting episode) (going : client.shouldStop = false) :
    (((client.log stage.now (.connecting client.url)).note stage.now (.dialBegun client.url)).enter
      (outcome.phase episode stage.now)).OnTime stage.now first := by
  have pace := onTime.pace going
  have table : client.options.timetable first client.history = dialTimes client.history ++ [stage.now] := by
    have next := pace.next
    rw [here] at next
    exact next
  have belongs := pace.episode episode (by rw [here]; rfl)
  refine ⟨onTime.started, ?_, fun time member => ?_, fun _ => ⟨?_, ?_, ?_⟩⟩
  · exact table ▸ List.prefix_rfl
  · rcases List.mem_append.mp member with before | now
    · exact onTime.past time before
    · exact Nat.le_of_eq (List.mem_singleton.mp now)
  · rw [enter_phase, Outcome.phase]
    split <;> exact table.trans (List.append_nil _).symm
  · rw [enter_phase, Outcome.phase]
    split <;> exact fun due waits => by cases waits
  · rw [enter_phase, Outcome.phase]
    split <;> exact fun other same => (Option.some.inj same).symm.trans belongs

theorem OnTime.drop (onTime : client.OnTime stage.now first) (tells : client.options.TellsTime) {link since : Nat}
    {error : TransportError} {around : Stage} (here : client.phase = .reading link since)
    (fails : FailsRead client stage link since error around) (going : client.shouldStop = false)
    (changed : (((client.note stage.now (.read link (.error error))).log stage.now (client.readReport error)).count
        .read).changeSlot around (client.slot.discard link) = (client', stage')) :
    (client'.enter (client'.firstBackingOff stage'.now)).OnTime stage.now first := by
  have now : stage'.now = stage.now := by
    obtain ⟨links, rfl⟩ := fails.links
    obtain ⟨links', rfl⟩ := changeSlot_links changed
    rfl
  obtain ⟨gauge, rfl⟩ := changeSlot_gauge changed
  have sets : (Occurrence.read link (.error error)).setsDial = true := rfl
  refine onTime.fails rfl rfl sets (OnlyAdds.cons (.of_eq rfl) stage.now rfl) (fun _ => ⟨going, ?_⟩)
    (fun _ => ?_) fun _ => rfl
  · rw [here]
    rfl
  · rw [now]
    exact congrArg some (expiry_delay tells stage.now 0)

theorem OnTime.moves (onTime : client.OnTime stage.now first) (consistent : client.Consistent stage)
    (endures : client.Endures stage) (tells : client.options.TellsTime)
    (moves : client.Moves stage client' stage') : client'.OnTime stage.now first := by
  have same : DialsAside client.history client.history := .of_eq rfl
  cases moves with
  | pass passes => exact onTime.passes consistent passes
  | skipCancelled here enabled isOpen cancelled =>
      have stopping : client.shouldStop = true := Bool.or_eq_true_iff.mpr (.inl cancelled)
      exact onTime.stopping rfl rfl (same.cons stage.now rfl) stopping
  | dial here enabled isOpen going next =>
      exact onTime.dial here (Bool.or_eq_false_iff.mpr ⟨going, isOpen⟩)
  | @endDial episode ends stops due _ _ here going late ended =>
      cases stops with
      | false => exact onTime.endsDial rfl tells here ended
      | true =>
          have now : (client.stop { stage with stopAsked := true }).2.now = stage.now := by
            obtain ⟨links, same⟩ := stop_links client { stage with stopAsked := true }
            rw [same]
          have keeps := stop_keeps client { stage with stopAsked := true }
          have stopped := onTime.stop { stage with stopAsked := true }
          rw [← keeps.options] at tells
          exact stopped.endsDial now tells ((beforeOutcome_phase true).trans here) ended
  | @takeFrame link since frame _ _ here reads takes =>
      obtain ⟨unseeking, -, -, options, started, cancelled, slot⟩ := takes.settled
      have history := takes.dialsAside
      refine onTime.unseeking started options ?_ ?_ (by rw [here]; rfl) unseeking
      · exact (same.cons stage.now rfl).trans history
      · exact shouldStop_eq cancelled slot
  | @endReading link since error _ here fails stopping =>
      have stops {claim : Prop} (going : client.shouldStop = false) : claim := by
        rw [stopping] at going
        cases going
      have sets : (Occurrence.read link (.error error)).setsDial = true := rfl
      exact onTime.fails rfl rfl sets (.of_eq rfl) stops stops stops
  | drop here fails going changed => exact onTime.drop tells here fails going changed
  | reconnect here unconnected going =>
      -- a task that looks for no connection has one
      have connected := (endures.lives onTime.started going).connected (by rw [here]; rfl)
      rw [isConnected, unconnected] at connected
      cases connected
  | @endSink start due mark here late =>
      obtain ⟨-, options, -, started, cancelled, slot, -⟩ := endSink_kept client stage.now start mark
      refine onTime.unseeking started options ?_ ?_ (by rw [here]; rfl) ?_
      · rw [endSink_history]
        split
        · exact (same.cons stage.now rfl).cons stage.now rfl
        · exact same.cons stage.now rfl
      · exact shouldStop_eq cancelled slot
      · rw [endSink_phase]
        cases mark <;> rfl
  | getInLine here observed sent =>
      exact onTime.unseeking rfl rfl same rfl (by rw [here]; rfl) rfl
  | @endSend mark how channel channel' observed ends =>
      obtain ⟨-, options, -, started, cancelled, slot, -⟩ := endSend_kept client stage.now mark how
      refine onTime.unseeking started options ?_ ?_ (Phase.dialDue_of_unseeking ends.unseeking _).1 ?_
      · rw [endSend_history]
        cases how with
        | delivered | timedOut | closed => exact same.cons stage.now rfl
        | abandoned => exact same
      · exact shouldStop_eq cancelled slot
      · rw [endSend_phase]
        rfl

theorem OnTime.wait (onTime : client.OnTime now first) {instant : Nat} (passes : now ≤ instant)
    (still : client.phase.dialDue? now = client.phase.dialDue? instant)
    (early : ∀ due, client.phase.dialDue? now = some due → instant ≤ due) : client.OnTime instant first where
  started := onTime.started
  dialled := onTime.dialled
  past time member := Nat.le_trans (onTime.past time member) passes
  pace going := by
    have pace := onTime.pace going
    refine ⟨?_, fun due waits => ?_, pace.episode⟩
    · rw [← still]
      exact pace.next
    · rw [← still] at waits
      exact early due waits

end Client

end SequencedFeed
