import SequencedFeed.Fleet
import SequencedFeed.Proofs.Consistency
set_option autoImplicit false

/-!
# Reachable states of several clients

A run of several clients in single steps: something happens to one of them, or around all of them. Every
scenario step is a chain of these, however the clients take their turns, so what holds of each client after
every step of any order holds in every scenario.
-/

namespace SequencedFeed

namespace Fleet

def put (fleet : Fleet) (number : Nat) (client : Client) (stage : Stage) : Fleet :=
  { fleet with clients := fleet.clients.set number client, stage }

inductive Step (fleet : Fleet) : Fleet → Prop
  | act {number : Nat} {client client' : Client} {stage' : Stage}
      (found : fleet.clients[number]? = some client) (acts : client.Acts fleet.stage client' stage') :
      Step fleet (fleet.put number client' stage')
  | around {stage' : Stage} (changes : fleet.stage.Changes stage') : Step fleet { fleet with stage := stage' }
  | aside (tokenCancelled stopAsked : Bool) (reports : List LogRecord) (waiting : Nat) (stopped : List Nat) :
      Step fleet
        { fleet with
          stage := { fleet.stage with tokenCancelled, stopAsked }
          reports, waiting, stopped }

def Reaches : Fleet → Fleet → Prop :=
  Relation.ReflTransGen Step

/-- The states of all runs, of the clients of any settings on any stage on which nothing has happened
yet. -/
def Reachable (fleet : Fleet) : Prop :=
  ∃ stage settings sequence sink, Stage.Opening stage ∧ (make stage settings sequence sink).Reaches fleet

theorem Reachable.after {fleet later : Fleet} (reachable : fleet.Reachable)
    (reaches : fleet.Reaches later) : later.Reachable := by
  obtain ⟨stage, settings, sequence, sink, opening, reached⟩ := reachable
  exact ⟨stage, settings, sequence, sink, opening, reached.trans reaches⟩

/-! ### Each client by itself -/

section

variable {fleet next : Fleet}

theorem Step.length (step : Step fleet next) : next.clients.length = fleet.clients.length := by
  cases step with
  | act found acts => exact List.length_set
  | around changes => rfl
  | aside => rfl

theorem Step.of_client (step : Step fleet next) {number : Nat} {client : Client}
    (found : fleet.clients[number]? = some client) :
    ∃ client', next.clients[number]? = some client' ∧
      (client.Acts fleet.stage client' next.stage ∨ client' = client ∧ fleet.stage.Later next.stage) := by
  cases step with
  | @act other before after stage' found' acts =>
      by_cases same : other = number
      · subst same
        obtain rfl := Option.some.inj (found'.symm.trans found)
        refine ⟨after, ?_, .inl acts⟩
        exact List.getElem?_set_self (List.getElem?_eq_some_iff.mp found).1
      · exact ⟨client, (List.getElem?_set_ne same).trans found, .inr ⟨rfl, acts.later⟩⟩
  | around changes => exact ⟨client, found, .inr ⟨rfl, changes.grows.later⟩⟩
  | aside => exact ⟨client, found, .inr ⟨rfl, .of_eq rfl rfl⟩⟩

theorem Step.before (step : Step fleet next) {number : Nat} {client' : Client}
    (found : next.clients[number]? = some client') :
    ∃ client, fleet.clients[number]? = some client ∧
      (client.Acts fleet.stage client' next.stage ∨ client' = client ∧ fleet.stage.Later next.stage) := by
  have inside : number < fleet.clients.length := step.length ▸ (List.getElem?_eq_some_iff.mp found).1
  have here := List.getElem?_eq_getElem inside
  obtain ⟨after, found', happens⟩ := step.of_client here
  obtain rfl := Option.some.inj (found'.symm.trans found)
  exact ⟨_, here, happens⟩

end

theorem Reaches.length {fleet later : Fleet} (reaches : fleet.Reaches later) :
    later.clients.length = fleet.clients.length := by
  induction reaches with
  | refl => rfl
  | tail reaches step ih => exact step.length.trans ih

theorem Reaches.names {fleet later : Fleet} (reaches : fleet.Reaches later) :
    later.stage.names = fleet.stage.names := by
  induction reaches with
  | refl => rfl
  | tail reaches step ih =>
      refine Eq.trans ?_ ih
      cases step with
      | act found acts => exact acts.later.names
      | around changes => exact changes.grows.names
      | aside => rfl

theorem make_client {stage : Stage} {settings : FeedSettings} {sequence : Nat} {sink : SinkScript}
    {number : Nat} {client : Client}
    (found : (make stage settings sequence sink).clients[number]? = some client) :
    ∃ options, client = Client.make number options sink := by
  unfold make at found
  split at found
  · simp only [crew, List.getElem?_mapIdx, Option.map_eq_some_iff] at found
    obtain ⟨url, -, rfl⟩ := found
    exact ⟨_, rfl⟩
  · cases found

@[simp] theorem make_stage (stage : Stage) (settings : FeedSettings) (sequence : Nat) (sink : SinkScript) :
    (make stage settings sequence sink).stage = stage := by
  unfold make
  split <;> rfl

theorem Reachable.consistent {fleet : Fleet} (reachable : fleet.Reachable) {number : Nat} {client : Client}
    (found : fleet.clients[number]? = some client) : client.Consistent fleet.stage := by
  obtain ⟨stage, settings, sequence, sink, opening, reached⟩ := reachable
  induction reached generalizing number client with
  | refl =>
      obtain ⟨options, rfl⟩ := make_client found
      rw [make_stage]
      exact .make opening number options sink
  | tail reaches step ih =>
      obtain ⟨before, found', acts | ⟨rfl, later⟩⟩ := step.before found
      · exact (ih found').acts acts
      · exact (ih found').later later

/-- What holds of every new client and is kept by everything that happens to a client holds of each client of
a reachable fleet. -/
theorem Reachable.each {fleet : Fleet} (reachable : fleet.Reachable) (holds : Client → Prop)
    (make : ∀ number options sink, holds (Client.make number options sink))
    (acts : ∀ {client client' : Client} {stage stage' : Stage}, holds client →
      client.Acts stage client' stage' → holds client')
    {number : Nat} {client : Client} (found : fleet.clients[number]? = some client) : holds client := by
  obtain ⟨stage, settings, sequence, sink, opening, reached⟩ := reachable
  induction reached generalizing number client with
  | refl =>
      obtain ⟨options, rfl⟩ := make_client found
      exact make number options sink
  | tail reaches step ih =>
      obtain ⟨before, found', happens | ⟨rfl, later⟩⟩ := step.before found
      · exact acts (ih found') happens
      · exact ih found'

/-! ### Scenarios -/

section

variable (change : Client → Stage → Client × Stage) (fits : Stage → Prop)

/-- A change that may happen to each client, on every stage that fits and leaving one that fits, may happen
to all of them in order. -/
private theorem reaches_forAll
    (happens : ∀ client stage, fits stage → fits (change client stage).2 ∧
      (client.Acts stage (change client stage).1 (change client stage).2 ∨
        change client stage = (client, stage)))
    (fleet : Fleet) (done rest : List Client) (stage : Stage) (fitting : fits stage) :
    Reaches { fleet with clients := done ++ rest, stage }
      { fleet with
        clients := done ++ (forAll change rest stage).1
        stage := (forAll change rest stage).2 } := by
  induction rest generalizing done stage with
  | nil => exact .refl
  | cons client rest ih =>
      obtain ⟨fitting', happens⟩ := happens client stage fitting
      have others := ih (done ++ [(change client stage).1]) (change client stage).2 fitting'
      simp only [List.append_assoc, List.singleton_append] at others
      rcases happens with acts | same
      · have found : (done ++ client :: rest)[done.length]? = some client := by simp
        have step : Step { fleet with clients := done ++ client :: rest, stage }
            (put { fleet with clients := done ++ client :: rest, stage } done.length
              (change client stage).1 (change client stage).2) := .act found acts
        simp only [put, List.set_append_right _ _ (Nat.le_refl _), Nat.sub_self, List.set_cons_zero] at step
        exact others.head step
      · simp only [same] at others
        simp only [forAll, same]
        exact others

private theorem reaches_changeAll
    (happens : ∀ client stage, fits stage → fits (change client stage).2 ∧
      (client.Acts stage (change client stage).1 (change client stage).2 ∨
        change client stage = (client, stage)))
    (fleet : Fleet) (fitting : fits fleet.stage) : fleet.Reaches (fleet.changeAll change) := by
  have reached := reaches_forAll change fits happens fleet [] fleet.clients fleet.stage fitting
  simp only [List.nil_append] at reached
  exact reached

end

theorem reaches_stop (fleet : Fleet) : fleet.Reaches fleet.stop :=
  reaches_changeAll _ (fun _ => True) (fun _ _ _ => ⟨trivial, .inl .stop⟩) fleet trivial

theorem reaches_start (fleet : Fleet) : fleet.Reaches fleet.start := by
  have reported : Step fleet (fleet.report (.startingClients fleet.size)) :=
    .aside fleet.stage.tokenCancelled fleet.stage.stopAsked _ fleet.waiting fleet.stopped
  have started := reaches_changeAll (fun client stage => (client.start stage, stage)) (fun _ => True)
    (fun client stage _ => ⟨trivial, .inl (.start (Client.start_starts client stage))⟩)
    (fleet.report (.startingClients fleet.size)) trivial
  exact started.head reported

theorem reaches_cancel (fleet : Fleet) : fleet.Reaches fleet.cancel := by
  have token : Step fleet { fleet with stage := { fleet.stage with tokenCancelled := true } } :=
    .aside true fleet.stage.stopAsked fleet.reports fleet.waiting fleet.stopped
  have cancels (client : Client) (stage : Stage) (cancelled : stage.tokenCancelled = true) :
      stage.tokenCancelled = true ∧
        (client.Acts stage client.cancel stage ∨ (client.cancel, stage) = (client, stage)) := by
    have acts : client.Acts stage client.cancel { stage with tokenCancelled := true } := .cancel
    rw [← cancelled] at acts
    exact ⟨cancelled, .inl acts⟩
  have cancelled := reaches_changeAll (fun client stage => (client.cancel, stage))
    (fun stage => stage.tokenCancelled = true) cancels
    { fleet with stage := { fleet.stage with tokenCancelled := true } } rfl
  exact cancelled.head token

private theorem reaches_passOnStop (fleet : Fleet) (asker : Nat) :
    fleet.Reaches (fleet.passOnStop asker) := by
  unfold passOnStop
  split
  · have heard : Step fleet { fleet with stage := { fleet.stage with stopAsked := false } } :=
      .aside fleet.stage.tokenCancelled false fleet.reports fleet.waiting fleet.stopped
    refine (reaches_changeAll _ (fun _ => True) (fun client stage _ => ⟨trivial, ?_⟩) _ trivial).head heard
    split
    · exact .inr rfl
    · exact .inl .stop
  · exact .refl

private theorem reaches_turn (count : Nat) (fleet : Fleet) (number : Nat) (client : Client)
    (stage : Stage) (inside : number < fleet.clients.length) :
    Reaches (fleet.put number client stage)
      (fleet.put number (Client.moveToReady count client stage).1
        (Client.moveToReady count client stage).2) := by
  induction count generalizing client stage with
  | zero => exact .refl
  | succ count ih =>
      cases moves : client.move? stage with
      | none =>
          simp only [Client.moveToReady, moves]
          exact .refl
      | some next =>
          obtain ⟨client', stage'⟩ := next
          have found : (fleet.put number client stage).clients[number]? = some client :=
            List.getElem?_set_self inside
          have moved : Step (fleet.put number client stage) (fleet.put number client' stage') := by
            have step : Step (fleet.put number client stage)
                ((fleet.put number client stage).put number client' stage') := .act found (.move moves)
            simp only [put, List.set_set] at step
            exact step
          simp only [Client.moveToReady, moves]
          split
          · exact .single moved
          · exact (ih client' stage').head moved

theorem reaches_turnOf (fleet : Fleet) (number : Nat) : fleet.Reaches (fleet.turnOf number) := by
  unfold turnOf
  cases found : fleet.clients[number]? with
  | none => exact .refl
  | some client =>
      obtain ⟨inside, here⟩ := List.getElem?_eq_some_iff.mp found
      have turn := reaches_turn (client.work fleet.stage) fleet number client fleet.stage inside
      have same : fleet.put number client fleet.stage = fleet := by
        rw [put, ← here, List.set_getElem_self]
      rw [same] at turn
      exact turn.trans (reaches_passOnStop _ number)

theorem reaches_round (fleet : Fleet) : fleet.Reaches fleet.round := by
  have turns (numbers : List Nat) (fleet : Fleet) : fleet.Reaches (numbers.foldl turnOf fleet) := by
    induction numbers generalizing fleet with
    | nil => exact .refl
    | cons number rest ih => exact (reaches_turnOf fleet number).trans (ih _)
  exact turns fleet.turns fleet

theorem reaches_settle (fleet : Fleet) : fleet.Reaches fleet.settle := by
  have collected (fleet : Fleet) : fleet.Reaches fleet.collect := by
    unfold collect
    split
    · exact .single (.aside fleet.stage.tokenCancelled fleet.stage.stopAsked fleet.reports _ _)
    · exact .refl
  exact ((reaches_round fleet).trans (reaches_round _)).trans (collected _)

theorem wake_eq (instant : Nat) (fleet : Fleet) :
    timed.wake instant fleet = settle { fleet with stage := { fleet.stage with now := instant } } :=
  rfl

theorem reaches_wake (instant : Nat) (fleet : Fleet) : fleet.Reaches (timed.wake instant fleet) := by
  have passed : Step fleet { fleet with stage := { fleet.stage with now := instant } } := .around (.time instant)
  rw [wake_eq]
  exact (reaches_settle _).head passed

theorem reaches_begin (fleet : Fleet) (step : ScenarioStep) : fleet.Reaches (fleet.begin step).1 := by
  cases step with
  | look => exact .refl
  | start => exact reaches_start fleet
  | cancel => exact reaches_cancel fleet
  | stop =>
      exact (reaches_stop fleet).tail
        (.aside fleet.stop.stage.tokenCancelled fleet.stop.stage.stopAsked fleet.stop.reports _ _)
  | sleep millis =>
      have wakes (instant : Nat) (state : Fleet) (reached : fleet.Reaches state) :
          fleet.Reaches (timed.wake instant state) := reached.trans (reaches_wake instant state)
      have here : fleet.Reaches fleet := .refl
      simp only [begin]
      exact Timed.pass_keeps wakes fleet.stage.now (fleet.stage.now + millis) here
  | push name item times => exact .single (.around (.push name item times))
  | hangUp name => exact .single (.around (.hangUp name))
  | receive most => exact .single (.around (.receive most))
  | closeReceiver => exact .single (.around .closeReceiver)

theorem apply_eq (fleet : Fleet) (step : ScenarioStep) :
    (fleet.apply step).1 = (fleet.begin step).1.settle :=
  rfl

theorem reaches_apply (fleet : Fleet) (step : ScenarioStep) : fleet.Reaches (fleet.apply step).1 := by
  rw [apply_eq]
  exact (reaches_begin fleet step).trans (reaches_settle _)

def play (fleet : Fleet) (steps : List ScenarioStep) : Fleet :=
  steps.foldl (fun fleet step => (fleet.apply step).1) fleet

theorem play_cons (fleet : Fleet) (step : ScenarioStep) (steps : List ScenarioStep) :
    fleet.play (step :: steps) = (fleet.apply step).1.play steps :=
  rfl

theorem reaches_play (fleet : Fleet) (steps : List ScenarioStep) : fleet.Reaches (fleet.play steps) := by
  induction steps generalizing fleet with
  | nil => exact .refl
  | cons step rest ih => exact (reaches_apply fleet step).trans (ih _)

theorem reachable_play {stage : Stage} (opening : stage.Opening) (settings : FeedSettings) (sequence : Nat)
    (sink : SinkScript) (steps : List ScenarioStep) :
    Reachable ((make stage settings sequence sink).play steps) :=
  ⟨stage, settings, sequence, sink, opening, reaches_play _ steps⟩

end Fleet

end SequencedFeed
