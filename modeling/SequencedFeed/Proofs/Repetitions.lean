import SequencedFeed.Envelope.Text
import SequencedFeed.Proofs.Cancelling
import SequencedFeed.Proofs.Pasts
import SequencedFeed.Proofs.Standstill
import Mathlib.Data.List.Induction
set_option autoImplicit false

/-!
# Starting again and stopping again

Only the first start and the first stop do anything. Whoever starts a client again that was started, or stops one
again that was stopped, finds a record of the call in its log, and a call that stops it returns when the others do.
Nothing else in the answers to the steps of a scenario tells whether that was done, however often and wherever.
-/

namespace SequencedFeed

/-- A step that is given, or one more call like one that was made before. -/
inductive RepeatedStep
  | given (step : ScenarioStep)
  | startAgain
  | stopAgain

namespace RepeatedStep

def step : RepeatedStep → ScenarioStep
  | .given step => step
  | .startAgain => .start
  | .stopAgain => .stop

def given? : RepeatedStep → Option ScenarioStep
  | .given step => some step
  | _ => none

/-- Of a call that stops the client, whether it is given. -/
def stopGiven? : RepeatedStep → Option Bool
  | .given .stop => some true
  | .stopAgain => some false
  | _ => none

end RepeatedStep

/-- Of the instants at which several calls have returned, those that belong to given calls. Calls return in order. -/
def givenReturns (given : List Bool) (returns : List Nat) : List Nat :=
  ((given.zip returns).filter Prod.fst).map Prod.snd

namespace Client

/-- What a client records that is started once more. -/
def startedAgain (client : Client) : LogEvent :=
  if client.options.endpoint.isDisabled then .disabled else .alreadyStarted client.url

end Client

/-! ### Clients with different pasts -/

namespace Client

structure HasEnded (client : Client) : Prop where
  idle : client.phase = .idle
  started : client.started = true
  stopped : client.slot.shuttingDown = true

/-- Clients that have had the same happen to them, each after a past of its own. It does not matter any more whether
the token of one that has ended is cancelled. -/
inductive Twins (past past' : List (Nat × Occurrence)) : Client → Client → Prop
  | same (client : Client) : Twins past past' (client.onto past) (client.onto past')
  | ended {client : Client} (ended : client.HasEnded) (cancelled cancelled' : Bool) :
      Twins past past' ({ client with cancelled }.onto past) ({ client with cancelled := cancelled' }.onto past')

variable {client mate : Client} {past past' : List (Nat × Occurrence)} {stage : Stage}

theorem HasEnded.bare (ended : client.HasEnded) : client.bare.HasEnded :=
  ⟨ended.idle, ended.started, ended.stopped⟩

theorem HasEnded.settle (ended : client.HasEnded) (stage : Stage) : client.settle stage = (client, stage) := by
  refine settle_atRest (atRest_iff.mpr ?_)
  simp only [proceed?, ended.idle]

namespace Twins

theorem kept (twins : Twins past past' client mate) :
    client.options = mate.options ∧ client.started = mate.started ∧ client.slot = mate.slot ∧
      client.phase = mate.phase ∧ client.retryCount = mate.retryCount ∧ client.metrics = mate.metrics := by
  cases twins with
  | same | ended => exact ⟨rfl, rfl, rfl, rfl, rfl, rfl⟩

theorem due (twins : Twins past past' client mate) : client.due? = mate.due? := by
  cases twins with
  | same | ended => rfl

theorem rebase (twins : Twins past past' client mate) : Twins client.history mate.history client mate := by
  cases twins with
  | same client => exact .same client.bare
  | ended ended cancelled cancelled' => exact .ended ended.bare cancelled cancelled'

theorem note (twins : Twins past past' client mate) (now : Nat) (occurrence : Occurrence) :
    Twins ((now, occurrence) :: client.history) mate.history (client.note now occurrence) mate := by
  cases twins with
  | same client => exact .same client.bare
  | ended ended cancelled cancelled' => exact .ended ended.bare cancelled cancelled'

theorem added (twins : Twins past past' client mate) :
    ∃ new, client.history = new ++ past ∧ mate.history = new ++ past' := by
  cases twins with
  | same client => exact ⟨client.history, rfl, rfl⟩
  | @ended client => exact ⟨client.history, rfl, rfl⟩

theorem recancel (twins : Twins past past' client mate) (ended : client.HasEnded) (cancelled : Bool) :
    Twins past past' { client with cancelled } mate := by
  cases twins with
  | same client =>
      have bare : client.HasEnded := ⟨ended.idle, ended.started, ended.stopped⟩
      exact .ended bare cancelled client.cancelled
  | ended bare _ cancelled' => exact .ended bare cancelled cancelled'

theorem settle (twins : Twins past past' client mate) (stage : Stage) :
    Twins past past' (client.settle stage).1 (mate.settle stage).1 ∧
      (client.settle stage).2 = (mate.settle stage).2 := by
  cases twins with
  | same client =>
      rw [settle_onto, settle_onto]
      exact ⟨.same _, rfl⟩
  | @ended client ended cancelled cancelled' =>
      have parted (cancelled : Bool) (past : List (Nat × Occurrence)) :
          ({ client with cancelled }.onto past).HasEnded := ⟨ended.idle, ended.started, ended.stopped⟩
      rw [(parted cancelled past).settle, (parted cancelled' past').settle]
      exact ⟨.ended ended cancelled cancelled', rfl⟩

/-! ### Calls -/

theorem cancel (twins : Twins past past' client mate) : Twins past past' client.cancel mate.cancel := by
  cases twins with
  | same client => exact .same client.cancel
  | @ended client ended cancelled cancelled' =>
      have both (cancelled : Bool) (past : List (Nat × Occurrence)) :
          ({ client with cancelled }.onto past).cancel = { client with cancelled := true }.onto past := by
        simp [Client.cancel, onto, ended.started]
      rw [both, both]
      exact .same _

theorem start (twins : Twins past past' client mate) (stage : Stage) :
    Twins past past' (client.start stage) (mate.start stage) := by
  cases twins with
  | same client =>
      rw [start_onto, start_onto]
      exact .same _
  | @ended client ended cancelled cancelled' =>
      -- it was started before, so a start adds a record whatever the token says
      obtain ⟨event, reported⟩ : ∃ event, ∀ (cancelled : Bool) (past : List (Nat × Occurrence)),
          ({ client with cancelled }.onto past).start stage =
            Client.onto { client.log stage.now event with cancelled } past := by
        simp only [start_onto]
        by_cases disabled : client.options.endpoint.isDisabled = true
        · exact ⟨.disabled, fun _ _ => by rw [Client.start, if_pos disabled]; rfl⟩
        · exact ⟨.alreadyStarted client.url, fun _ _ => by rw [Client.start, if_neg disabled, if_pos ended.started]; rfl⟩
      have ended' : (client.log stage.now event).HasEnded := ⟨ended.idle, ended.started, ended.stopped⟩
      rw [reported, reported]
      exact .ended ended' cancelled cancelled'

theorem stop (twins : Twins past past' client mate) (stage : Stage) :
    Twins past past' (client.stop stage).1 (mate.stop stage).1 ∧ (client.stop stage).2 = (mate.stop stage).2 := by
  cases twins with
  | same client =>
      rw [stop_onto, stop_onto]
      exact ⟨.same _, rfl⟩
  | @ended client ended cancelled cancelled' =>
      have both (cancelled : Bool) (past : List (Nat × Occurrence)) :
          ({ client with cancelled }.onto past).stop stage =
            (({ client with cancelled := true }.stop stage).1.onto past, ({ client with cancelled := true }.stop stage).2) := by
        rw [stop_onto, stop_eq, stop_eq]
        simp [ended.started, Client.url]
      rw [both, both]
      exact ⟨.same _, rfl⟩

theorem stop_again (twins : Twins past past' client mate) (consistent : client.Consistent stage)
    (rest : client.atRest stage) (stopped : client.isShuttingDown = true) :
    Twins ((stage.now, .log (.closing client.url)) :: client.history) mate.history (client.stop stage).1 mate ∧
      (client.stop stage).2 = stage := by
  have told := twins.note stage.now (.log (.closing client.url))
  have slot : client.slot = ⟨none, true⟩ := by
    have held := consistent.stopped stopped
    have marked : client.slot.shuttingDown = true := stopped
    rw [← held, ← marked]
  have same : client.stop stage =
      ({ client.note stage.now (.log (.closing client.url)) with cancelled := client.cancelled || client.started },
        stage) := by
    rw [stop_eq, slot]
    simp [Metrics.released, Stage.closeHeld, Client.note, ← slot]
  -- only the token of a client that was stopped before its first start may still change
  have settled : (client.cancelled || client.started) = client.cancelled ∨ client.HasEnded := by
    rcases consistent.rest_of_stopped rest stopped with idle | ⟨start, mark, due, here, -⟩
    · cases started : client.started with
      | true => exact .inr ⟨idle, started, stopped⟩
      | false => exact .inl (Bool.or_false _)
    · have cancelled := consistent.cancelled_of_unseeking (by simp [here]) (by simp [here, Phase.isSeeking]) stopped
      exact .inl (by rw [cancelled, Bool.true_or])
  rw [same]
  refine ⟨?_, rfl⟩
  rcases settled with unchanged | ended
  · rw [unchanged]
    exact told
  · exact told.recancel ⟨ended.idle, ended.started, ended.stopped⟩ _

end Twins

end Client

/-! ### Calls that wait for a stop -/

section

variable (given : List Bool) (returns : List Nat)

theorem givenReturns_cons (flag : Bool) (time : Nat) :
    givenReturns (flag :: given) (time :: returns) =
      (if flag then [time] else []) ++ givenReturns given returns := by
  cases flag <;> rfl

theorem givenReturns_nil : givenReturns given [] = [] := by
  rw [givenReturns, List.zip_nil_right]
  rfl

theorem givenReturns_concat (flag : Bool) (inside : returns.length ≤ given.length) :
    givenReturns (given ++ [flag]) returns = givenReturns given returns := by
  induction given generalizing returns with
  | nil =>
      rw [List.eq_nil_of_length_eq_zero (Nat.le_zero.mp inside), givenReturns_nil, givenReturns_nil]
  | cons first rest ih =>
      cases returns with
      | nil => rw [givenReturns_nil, givenReturns_nil]
      | cons time times =>
          rw [List.cons_append, givenReturns_cons, givenReturns_cons, ih times (Nat.le_of_succ_le_succ inside)]

theorem givenReturns_append (waiting now : Nat) (all : returns.length + waiting = given.length) :
    givenReturns given (returns ++ List.replicate waiting now) =
      givenReturns given returns ++ List.replicate ((given.drop returns.length).count true) now := by
  induction given generalizing returns waiting with
  | nil =>
      obtain ⟨none, nobody⟩ : returns.length = 0 ∧ waiting = 0 := Nat.add_eq_zero_iff.mp all
      rw [List.eq_nil_of_length_eq_zero none, nobody]
      rfl
  | cons first rest ih =>
      cases returns with
      | cons time times =>
          have others : times.length + waiting = rest.length := by
            simp only [List.length_cons] at all
            omega
          rw [List.cons_append, givenReturns_cons, givenReturns_cons, ih times waiting others, List.append_assoc]
          rfl
      | nil =>
          obtain ⟨fewer, rfl⟩ : ∃ fewer, waiting = fewer + 1 := ⟨rest.length, by simpa using all⟩
          have others := ih [] fewer (by simpa using all)
          rw [List.nil_append] at others
          rw [List.nil_append, List.replicate_succ, givenReturns_cons, others, givenReturns_nil]
          cases first with
          | true => simp [givenReturns_nil, List.replicate_succ]
          | false => simp [givenReturns_nil]

end

namespace ClientRun

/-- Two runs of which the second one leaves out calls that were made before. All else has gone on alike since they had
a past each, and the `given` calls that stop the client return alike. -/
structure Twins (past past' : List (Nat × Occurrence)) (given : List Bool) (run mate : ClientRun) : Prop where
  stage : run.stage = mate.stage
  client : run.client.Twins past past' mate.client
  calls : run.stopped.length + run.waiting = given.length
  returned : mate.stopped = givenReturns given run.stopped
  waiting : mate.waiting = (given.drop run.stopped.length).count true

variable {run mate : ClientRun} {past past' : List (Nat × Occurrence)} {given : List Bool}

namespace Twins

theorem collect (twins : run.Twins past past' given mate) : run.collect.Twins past past' given mate.collect := by
  have idle : run.client.isIdle = mate.client.isIdle := by
    obtain ⟨-, -, -, phase, -⟩ := twins.client.kept
    rw [Client.isIdle, Client.isIdle, phase]
  unfold ClientRun.collect
  rw [← idle]
  split
  · exact
      { stage := twins.stage
        client := twins.client
        calls := by
          simp only [List.length_append, List.length_replicate, Nat.add_zero]
          exact twins.calls
        returned := by
          simp only [givenReturns_append given run.stopped run.waiting _ twins.calls, twins.returned, twins.waiting,
            twins.stage]
        waiting := by
          have all := twins.calls
          simp [List.drop_eq_nil_of_le, all] }
  · exact twins

theorem settle (twins : run.Twins past past' given mate) : run.settle.Twins past past' given mate.settle := by
  obtain ⟨clients, stages⟩ := twins.client.settle run.stage
  have settled : Twins past past' given
      ⟨(run.client.settle run.stage).2, (run.client.settle run.stage).1, run.waiting, run.stopped⟩
      ⟨(mate.client.settle mate.stage).2, (mate.client.settle mate.stage).1, mate.waiting, mate.stopped⟩ := by
    rw [← twins.stage]
    exact ⟨stages, clients, twins.calls, twins.returned, twins.waiting⟩
  exact settled.collect

theorem wake (twins : run.Twins past past' given mate) (instant : Nat) :
    (timed.wake instant run).Twins past past' given (timed.wake instant mate) := by
  have later : Twins past past' given { run with stage := { run.stage with now := instant } }
      { mate with stage := { mate.stage with now := instant } } :=
    { twins with stage := by rw [twins.stage] }
  rw [wake_eq, wake_eq]
  exact later.settle

theorem pass (twins : run.Twins past past' given mate) (start finish : Nat) :
    (timed.pass start finish run).Twins past past' given (timed.pass start finish mate) :=
  Timed.pass_alike (fun twins => twins.client.due) (fun instant _ _ twins => twins.wake instant) start finish twins

theorem ask (twins : run.Twins past past' given mate) (flag : Bool) {before before' : List (Nat × Occurrence)}
    {client client' : Client} (clients : client.Twins before before' client') (stage : Stage) :
    Twins before before' (given ++ [flag]) ⟨stage, client, run.waiting + 1, run.stopped⟩
      ⟨stage, client', mate.waiting + if flag then 1 else 0, mate.stopped⟩ := by
  have calls := twins.calls
  have inside : run.stopped.length ≤ given.length := by omega
  refine ⟨rfl, clients, ?_, ?_, ?_⟩
  · rw [List.length_append, List.length_singleton, ← calls]
    exact (Nat.add_assoc ..).symm
  · rw [givenReturns_concat given run.stopped flag inside]
    exact twins.returned
  · rw [List.drop_append_of_le_length inside, List.count_append, ← twins.waiting]
    cases flag <;> rfl

private theorem begin (twins : run.Twins past past' given mate) (step : ScenarioStep) :
    (run.begin step).1.Twins past past' (given ++ (RepeatedStep.given step).stopGiven?.toList) (mate.begin step).1 := by
  have here (stage : Stage) {client client' : Client} (clients : client.Twins past past' client') :
      Twins past past' given { run with stage, client } { mate with stage, client := client' } :=
    { twins with stage := rfl, client := clients }
  cases step
  case stop =>
    obtain ⟨clients, stages⟩ := twins.client.stop run.stage
    simp only [ClientRun.begin, ← twins.stage, ← stages]
    exact twins.ask true clients _
  all_goals simp only [RepeatedStep.stopGiven?, Option.toList_none, List.append_nil, ClientRun.begin, ← twins.stage]
  case look => exact twins
  case start => exact here _ (twins.client.start run.stage)
  case cancel => exact here _ twins.client.cancel
  case sleep => exact twins.pass _ _
  case push | hangUp | receive | closeReceiver => exact here _ twins.client

theorem apply (twins : run.Twins past past' given mate) (step : ScenarioStep) :
    (run.apply step).1.Twins past past' (given ++ (RepeatedStep.given step).stopGiven?.toList) (mate.apply step).1 ∧
      (run.apply step).2 = (mate.apply step).2 := by
  refine ⟨by simpa only [apply_eq] using (twins.begin step).settle, ?_⟩
  cases step with
  | receive most => exact congrArg (fun stage => (Stage.receive stage most).1) twins.stage
  | _ => rfl

theorem rebase (twins : run.Twins past past' given mate) :
    run.Twins run.client.history mate.client.history given mate :=
  { twins with client := twins.client.rebase }

theorem startAgain (twins : run.Twins past past' given mate) (still : mate.Still)
    (barred : mate.client.options.endpoint.isDisabled = true ∨ mate.client.started = true) :
    (run.apply .start).1.Twins ((mate.stage.now, .log mate.client.startedAgain) :: run.client.history)
      mate.client.history given mate := by
  have same : run.client.start run.stage = run.client.log mate.stage.now mate.client.startedAgain := by
    obtain ⟨options, started, -⟩ := twins.client.kept
    rw [← options, ← started] at barred
    rw [twins.stage, Client.startedAgain, ← Client.url_eq options, ← options, Client.start]
    split
    · rfl
    · next enabled =>
        rw [if_pos (barred.resolve_left enabled)]
  have begun : Twins ((mate.stage.now, .log mate.client.startedAgain) :: run.client.history) mate.client.history given
      { run with client := run.client.start run.stage } mate := by
    rw [same]
    exact { twins with client := twins.client.note mate.stage.now _ }
  have settled := begun.settle
  rw [still.settle] at settled
  rw [apply_eq, ClientRun.begin]
  exact settled

theorem stopAgain (twins : run.Twins past past' given mate) (still : run.Still) (still' : mate.Still)
    (stopped : mate.client.isShuttingDown = true) :
    (run.apply .stop).1.Twins ((mate.stage.now, .log (.closing mate.client.url)) :: run.client.history)
      mate.client.history (given ++ [false]) mate := by
  obtain ⟨options, -, slot, -⟩ := twins.client.kept
  have stopped' : run.client.isShuttingDown = true := by
    rw [Client.isShuttingDown, slot]
    exact stopped
  obtain ⟨clients, stage⟩ := twins.client.stop_again still.consistent still.rest stopped'
  rw [Client.url_eq options] at clients
  have begun := (twins.ask false clients (run.client.stop run.stage).2).settle
  have alone : (⟨(run.client.stop run.stage).2, mate.client, mate.waiting, mate.stopped⟩ : ClientRun) = mate := by
    rw [stage, twins.stage]
  simp only [Bool.false_eq_true, if_false, Nat.add_zero, alone, still'.settle] at begun
  rw [apply_eq, ClientRun.begin, ← twins.stage]
  exact begun

end Twins

/-! ### Answers -/

/-- What is visible of a step once the client rests again: what is new in the log, among the dials and among the sink
calls, what was received, and how things stand. -/
structure Answer where
  time : Nat
  logs : List LogRecord
  dials : List (Nat × String)
  sinkCalls : List (Nat × SinkCall)
  confirmed : List Nat
  retryCount : Nat
  connected : Bool
  shuttingDown : Bool
  closes : List (String × Nat)
  metrics : Metrics

def answer (run : ClientRun) (step : ScenarioStep) : Answer :=
  let (later, confirmed) := run.apply step
  { time := later.stage.now
    logs := later.client.records.drop run.client.records.length
    dials := later.client.dials.drop run.client.dials.length
    sinkCalls := later.client.sinkCalls.drop run.client.sinkCalls.length
    confirmed
    retryCount := later.client.retryCount
    connected := later.client.isConnected
    shuttingDown := later.client.isShuttingDown
    closes := later.stage.links.map fun link => (link.name, link.closes)
    metrics := later.client.metrics }

def answers (run : ClientRun) : List ScenarioStep → List Answer
  | [] => []
  | step :: rest => run.answer step :: (run.apply step).1.answers rest

/-- The answers if a call that is made once more is recorded and otherwise is nothing but a look. -/
def expected (run : ClientRun) : List RepeatedStep → List Answer
  | [] => []
  | .given step :: rest => run.answer step :: (run.apply step).1.expected rest
  | .startAgain :: rest =>
      { run.answer .look with logs := [⟨run.stage.now, run.client.startedAgain⟩] } :: run.expected rest
  | .stopAgain :: rest =>
      { run.answer .look with logs := [⟨run.stage.now, .closing run.client.url⟩] } :: run.expected rest

/-- A client is only started once more after a start, and only stopped once more after a stop: one that was given, or
one that a dial asked for. -/
def RepeatsCalls (run : ClientRun) (steps : List RepeatedStep) : Prop :=
  ∀ place,
    (steps[place]? = some .startAgain → .start ∈ (steps.take place).filterMap RepeatedStep.given?) ∧
    (steps[place]? = some .stopAgain → .stop ∈ (steps.take place).filterMap RepeatedStep.given? ∨
      (run.play ((steps.take place).filterMap RepeatedStep.given?)).client.isShuttingDown = true)

theorem answers_append (run : ClientRun) (steps others : List ScenarioStep) :
    run.answers (steps ++ others) = run.answers steps ++ (run.play steps).answers others := by
  induction steps generalizing run with
  | nil => rfl
  | cons step rest ih => rw [List.cons_append, answers, answers, play_cons, ih, List.cons_append]

theorem expected_append (run : ClientRun) (steps others : List RepeatedStep) :
    run.expected (steps ++ others) =
      run.expected steps ++ (run.play (steps.filterMap RepeatedStep.given?)).expected others := by
  induction steps generalizing run with
  | nil => rfl
  | cons step rest ih =>
      cases step with
      | given step => exact congrArg (run.answer step :: ·) (ih _)
      | startAgain | stopAgain => exact congrArg (List.cons _) (ih run)

theorem RepeatsCalls.earlier {steps others : List RepeatedStep} (repeats : run.RepeatsCalls (steps ++ others)) :
    run.RepeatsCalls steps := by
  intro place
  have whole := repeats place
  by_cases inside : place < steps.length
  · rw [List.getElem?_append_left inside, List.take_append_of_le_length (Nat.le_of_lt inside)] at whole
    exact whole
  · rw [List.getElem?_eq_none (Nat.le_of_not_lt inside)]
    exact ⟨fun beyond => (by cases beyond), fun beyond => (by cases beyond)⟩

theorem RepeatsCalls.last {steps : List RepeatedStep} {step : RepeatedStep} (repeats : run.RepeatsCalls (steps ++ [step])) :
    (step = .startAgain → .start ∈ steps.filterMap RepeatedStep.given?) ∧
    (step = .stopAgain → .stop ∈ steps.filterMap RepeatedStep.given? ∨
      (run.play (steps.filterMap RepeatedStep.given?)).client.isShuttingDown = true) := by
  have whole := repeats steps.length
  rw [List.getElem?_concat_length, List.take_left' rfl, Option.some.injEq, Option.some.injEq] at whole
  exact whole

private theorem view_new {α : Type} (view : Nat × Occurrence → Option α) (new past : List (Nat × Occurrence)) :
    ((new ++ past).filterMap view).reverse.drop (past.filterMap view).reverse.length = (new.filterMap view).reverse := by
  rw [List.filterMap_append, List.reverse_append, List.drop_left]

namespace Twins

theorem answer {step step' : ScenarioStep}
    (twins : (run.apply step).1.Twins run.client.history mate.client.history given (mate.apply step').1)
    (received : (run.apply step).2 = (mate.apply step').2) : run.answer step = mate.answer step' := by
  obtain ⟨new, added, added'⟩ := twins.client.added
  obtain ⟨-, -, slot, -, retryCount, metrics⟩ := twins.client.kept
  simp only [ClientRun.answer, received, Client.records, Client.dials, Client.sinkCalls, added, added', view_new,
    Client.isConnected, Client.isShuttingDown, slot, retryCount, metrics, twins.stage]

theorem reports {event : LogEvent} {step : ScenarioStep}
    (alone : (run.apply step).1.Twins ((mate.stage.now, .log event) :: run.client.history) mate.client.history given mate)
    (received : (run.apply step).2 = []) (still : mate.Still) :
    run.answer step = { mate.answer .look with logs := [⟨mate.stage.now, event⟩] } := by
  obtain ⟨new, added, nothing⟩ := alone.client.added
  obtain ⟨-, -, slot, -, retryCount, metrics⟩ := alone.client.kept
  obtain rfl : new = [] := List.eq_nil_of_length_eq_zero (by simpa using congrArg List.length nothing)
  have looked : (mate.apply .look).1 = mate := (apply_eq mate .look).trans still.settle
  have silent : (mate.apply .look).2 = [] := rfl
  have one : (run.apply step).1.client.history = [(mate.stage.now, .log event)] ++ run.client.history := added
  simp only [ClientRun.answer, received, looked, silent, Client.records, Client.dials, Client.sinkCalls, one, view_new,
    List.drop_length, Client.isConnected, Client.isShuttingDown, slot, retryCount, metrics, alone.stage]
  rfl

/-- One more step, which may be left out of the second run if it repeats a call. -/
theorem next (twins : run.Twins past past' given mate) (still : run.Still) (still' : mate.Still) (step : RepeatedStep)
    (started : step = .startAgain →
      mate.client.options.endpoint.isDisabled = true ∨ mate.client.started = true)
    (stopped : step = .stopAgain → mate.client.isShuttingDown = true) :
    (∃ past past', (run.apply step.step).1.Twins past past' (given ++ step.stopGiven?.toList)
      (mate.play step.given?.toList)) ∧ [run.answer step.step] = mate.expected [step] := by
  cases step with
  | given step =>
      obtain ⟨applied, received⟩ := twins.rebase.apply step
      exact ⟨⟨_, _, applied⟩, congrArg (fun answer => [answer]) (applied.answer received)⟩
  | startAgain =>
      have alone := twins.startAgain still' (started rfl)
      have nobody : given ++ RepeatedStep.startAgain.stopGiven?.toList = given := List.append_nil given
      rw [nobody]
      exact ⟨⟨_, _, alone⟩, congrArg (fun answer => [answer]) (alone.reports rfl still')⟩
  | stopAgain =>
      have alone := twins.stopAgain still still' (stopped rfl)
      exact ⟨⟨_, _, alone⟩, congrArg (fun answer => [answer]) (alone.reports rfl still')⟩

end Twins

/-! ### From the opening on -/

section

variable {fresh : ClientRun} {steps : List ScenarioStep}

private theorem Reachable.barred (reachable : fresh.Reachable) (started : .start ∈ steps) :
    (fresh.play steps).client.options.endpoint.isDisabled = true ∨ (fresh.play steps).client.started = true := by
  obtain ⟨before, rest, rfl⟩ := List.append_of_mem started
  have here : (fresh.play before).Reachable := reachable.later (reaches_play ..)
  have begun : (fresh.play before).Reaches ((fresh.play before).begin .start).1 := reaches_begin _ .start
  have reaches := reaches_play_cons (fresh.play before) .start rest
  rw [play_append, reaches.settings.1.trans begun.settings.1]
  cases enabled : (fresh.play before).client.options.endpoint.isDisabled with
  | true => exact .inl rfl
  | false => exact .inr (reaches.started (here.later begun) (Client.started_of_start enabled))

private theorem Reachable.stays_stopped (reachable : fresh.Reachable) (stopped : .stop ∈ steps) :
    (fresh.play steps).client.isShuttingDown = true := by
  obtain ⟨before, rest, rfl⟩ := List.append_of_mem stopped
  have here : ((fresh.play before).begin .stop).1.Reachable :=
    reachable.later ((reaches_play ..).trans (reaches_begin _ .stop))
  have begun : ((fresh.play before).begin .stop).1.client.isShuttingDown = true := by
    simp only [begin, Client.isShuttingDown, Client.stop_eq]
  rw [play_append]
  exact (reaches_play_cons (fresh.play before) .stop rest).keeps (fun run => run.client.isShuttingDown = true) here begun
    fun _ stopped step => step.stopped stopped

end

/-- By induction on the steps from the front: what is left out of the second run changes nothing of the first one. -/
private theorem RepeatsCalls.twins {stage : Stage} (opening : stage.Opening) {options : ClientOptions}
    (pauses : (stage.script options.endpoint.url).beyond.isSome = true → 0 < options.supervisorDelay.millis)
    (sink : SinkScript) (steps : List RepeatedStep) (repeats : (make stage options sink).RepeatsCalls steps) :
    (∃ past past', ((make stage options sink).play (steps.map RepeatedStep.step)).Twins past past'
      (steps.filterMap RepeatedStep.stopGiven?)
      ((make stage options sink).play (steps.filterMap RepeatedStep.given?))) ∧
    (make stage options sink).answers (steps.map RepeatedStep.step) = (make stage options sink).expected steps := by
  have reachable : (make stage options sink).Reachable := reachable_play opening options sink []
  have still := still_make opening pauses sink
  have opened : (make stage options sink).Twins [] [] [] (make stage options sink) :=
    ⟨rfl, .same (Client.make 0 options sink), rfl, rfl, rfl⟩
  generalize make stage options sink = fresh at *
  induction steps using List.reverseRecOn with
  | nil => exact ⟨⟨[], [], opened⟩, rfl⟩
  | append_singleton steps last ih =>
      obtain ⟨⟨past, past', twins⟩, answers⟩ := ih repeats.earlier
      obtain ⟨started, stopped⟩ := repeats.last
      obtain ⟨next, answer⟩ := twins.next (still.play _) (still.play _) last (reachable.barred ∘ started)
        (fun again => (stopped again).elim reachable.stays_stopped id)
      have alone {α : Type} (view : RepeatedStep → Option α) : [last].filterMap view = (view last).toList := by
        cases viewed : view last <;> simp [viewed]
      refine ⟨?_, ?_⟩
      · rw [List.map_append, List.filterMap_append, List.filterMap_append, alone, alone, play_append, play_append]
        exact next
      · rw [List.map_append, answers_append, expected_append, answers, ← answer]
        rfl

private theorem Reachable.undialled (reachable : run.Reachable) :
    run.client.started = false → run.client.dials = [] := by
  refine reachable.invariant (fun client _ => client.started = false → client.dials = []) (fun _ _ _ _ _ => rfl)
    (fun reachable undialled acts => ?_) (fun undialled _ => undialled)
  cases acts with
  | start starts =>
      cases starts with
      | report => exact undialled
      | first => exact fun unstarted => by cases unstarted
  | cancel => exact undialled
  | stop =>
      rw [Client.stop_eq]
      exact undialled
  | move moves =>
      obtain ⟨next, around, moved, rfl, rfl⟩ := Client.moves_of_move moves
      have started := reachable.consistent.phase.started moved.task
      exact fun unstarted => absurd (moved.keeps.started.symm.trans unstarted) (ne_false_of_eq_true started)

/-- Only the first start and the first stop of a client do anything. Wherever its steps are mixed with further starts
that come after one, and further stops that come after one, in whatever state it is, the answers to the given steps
are the answers to them alone, and the answer to a repeated call is a record of it and a look. Calls return in order
and each of them returns; the given ones return when they would without the others. A client without an address has no
task and does not dial, whatever is done. -/
theorem starts_and_stops_once {stage : Stage} (opening : stage.Opening) (options : ClientOptions) (sink : SinkScript) :
    let fresh := make stage options sink
    (((stage.script options.endpoint.url).beyond.isSome = true → 0 < options.supervisorDelay.millis) →
      ∀ steps, fresh.RepeatsCalls steps →
        fresh.answers (steps.map RepeatedStep.step) = fresh.expected steps ∧
        ∀ count, let run := fresh.play ((steps.take count).map RepeatedStep.step)
          let mate := fresh.play ((steps.take count).filterMap RepeatedStep.given?)
          let given := (steps.take count).filterMap RepeatedStep.stopGiven?
          run.stopped.length + run.waiting = given.length ∧ mate.stopped = givenReturns given run.stopped) ∧
    (options.endpoint.url = "" → ∀ run, fresh.Reaches run → run.client.phase = .idle ∧ run.client.dials = []) := by
  intro fresh
  refine ⟨fun pauses steps repeats => ⟨(repeats.twins opening pauses sink steps).2, fun count => ?_⟩,
    fun nowhere run reaches => ?_⟩
  · have earlier : fresh.RepeatsCalls (steps.take count) := by
      rw [← List.take_append_drop count steps] at repeats
      exact repeats.earlier
    obtain ⟨⟨past, past', twins⟩, -⟩ := earlier.twins opening pauses sink _
    exact ⟨twins.calls, twins.returned⟩
  · have reachable : run.Reachable := ⟨stage, options, sink, opening, reaches⟩
    have disabled : run.client.options.endpoint.isDisabled = true := by
      rw [reaches.settings.1]
      exact decide_eq_true nowhere
    have unstarted : run.client.started = false := by
      refine Bool.eq_false_iff.mpr fun started => ?_
      exact ne_false_of_eq_true disabled (reachable.consistent.enabled started)
    refine ⟨?_, reachable.undialled unstarted⟩
    by_contra task
    exact ne_true_of_eq_false unstarted (reachable.consistent.phase.started task)

/-- A client is started again while it reads and while it is stopped, and stopped again twice while its sink is busy and
once when all is over. The given calls return at 5 and at 7, those between them at 5, 5 and 7. -/
theorem starts_and_stops_once_around_sink_call :
    let stage := Stage.planned [("ws://feed", [⟨.connect "first", 0, false⟩])] none
    let fresh := make stage (ClientOptions.standard "ws://feed") ⟨false, 5⟩
    let steps : List RepeatedStep :=
      [.given .start, .startAgain, .given (.push "first" (.ok (batchFrame 7 [.null])) 1), .given .stop, .stopAgain,
        .startAgain, .given (.sleep 1), .stopAgain, .given (.sleep 6), .stopAgain, .given .stop]
    fresh.RepeatsCalls steps ∧
      fresh.answers (steps.map RepeatedStep.step) = fresh.expected steps ∧
      (fresh.play (steps.map RepeatedStep.step)).stopped = [5, 5, 5, 7, 7] ∧
      (fresh.play (steps.filterMap RepeatedStep.given?)).stopped = [5, 7] ∧
      ∀ run, (make stage (ClientOptions.standard "") ⟨false, 5⟩).Reaches run →
        run.client.phase = .idle ∧ run.client.dials = [] := by
  intro stage fresh steps
  have opening : stage.Opening := .planned ..
  have pauses : (stage.script (ClientOptions.standard "ws://feed").endpoint.url).beyond.isSome = true →
      0 < (ClientOptions.standard "ws://feed").supervisorDelay.millis := by decide
  have repeats : fresh.RepeatsCalls steps := by
    intro place
    match place with
    | 0 | 1 | 2 | 3 | 4 | 5 | 6 | 7 | 8 | 9 | 10 => simp [steps, RepeatedStep.given?]
    | place + 11 => simp [steps]
  have stopped : (fresh.play (steps.map RepeatedStep.step)).stopped = [5, 5, 5, 7, 7] := by decide +kernel
  obtain ⟨repeated, -⟩ := starts_and_stops_once opening (ClientOptions.standard "ws://feed") ⟨false, 5⟩
  obtain ⟨answers, returns⟩ := repeated pauses steps repeats
  obtain ⟨-, returned⟩ := returns 11
  obtain ⟨-, nothing⟩ := starts_and_stops_once opening (ClientOptions.standard "") ⟨false, 5⟩
  have whole : steps.take 11 = steps := rfl
  rw [whole, stopped] at returned
  exact ⟨repeats, answers, stopped, returned, nothing rfl⟩

end ClientRun

end SequencedFeed
