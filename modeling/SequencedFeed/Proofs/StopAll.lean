import Mathlib
import SequencedFeed.Proofs.Stopping
import SequencedFeed.Proofs.Together
set_option autoImplicit false

/-!
# A stop of several clients reaches all of them

Between two steps of a scenario either all clients of a fleet are shutting down or none, also when one of
their dials has asked for the stop. Together with what holds of each client after its own stop, nothing
begins anywhere after a stop of the fleet.
-/

namespace SequencedFeed

variable {client client' : Client} {stage stage' : Stage}

theorem Client.Moves.asks (moves : client.Moves stage client' stage') :
    client'.isShuttingDown = client.isShuttingDown ∧ stage'.stopAsked = stage.stopAsked ∨
      client'.isShuttingDown = true ∧ stage'.stopAsked = true := by
  cases moves with
  | pass | skipCancelled | reconnect | getInLine => exact .inl ⟨rfl, rfl⟩
  | dial here enabled isOpen going next =>
      exact .inl ⟨rfl, (congrArg (fun found => found.2.stopAsked) next).symm⟩
  | @endDial episode ends stops due _ _ here going late ended =>
      obtain ⟨links, rfl⟩ := ended.links
      have same := ended.shuttingDown
      cases stops with
      | false => exact .inl ⟨same, rfl⟩
      | true =>
          obtain ⟨links', stopped⟩ := Client.stop_links client { stage with stopAsked := true }
          refine .inr ⟨same.trans ?_, ?_⟩
          · rw [Client.beforeOutcome, if_pos rfl, Client.stop_eq]
            rfl
          · rw [Client.beforeOutcome, if_pos rfl, stopped]
  | takeFrame here reads takes =>
      obtain ⟨links, rfl⟩ := reads.links
      exact .inl ⟨congrArg Slot.shuttingDown takes.settled.slot, rfl⟩
  | endReading here fails stopping =>
      obtain ⟨links, rfl⟩ := fails.links
      exact .inl ⟨rfl, rfl⟩
  | drop here fails going changed =>
      obtain ⟨links, rfl⟩ := fails.links
      obtain ⟨links', rfl⟩ := Client.changeSlot_links changed
      obtain ⟨metrics, rfl⟩ := Client.changeSlot_kept changed
      exact .inl ⟨Client.discard_shuttingDown .., rfl⟩
  | @endSink start due mark here late =>
      have slot := Client.endSink_slot client stage.now start mark
      exact .inl ⟨congrArg Slot.shuttingDown slot, rfl⟩
  | @endSend mark how channel channel' observed ends =>
      have slot := Client.endSend_slot client stage.now mark how
      exact .inl ⟨congrArg Slot.shuttingDown slot, rfl⟩

private theorem moveToReady_asks (count : Nat) (client : Client) (stage : Stage) :
    (Client.moveToReady count client stage).1.number = client.number ∧
      ((Client.moveToReady count client stage).1.isShuttingDown = client.isShuttingDown ∧
          (Client.moveToReady count client stage).2.stopAsked = stage.stopAsked ∨
        (Client.moveToReady count client stage).1.isShuttingDown = true ∧
          (Client.moveToReady count client stage).2.stopAsked = true) := by
  induction count generalizing client stage with
  | zero => exact ⟨rfl, .inl ⟨rfl, rfl⟩⟩
  | succ count ih =>
      cases moved : client.move? stage with
      | none =>
          have stays : Client.moveToReady (count + 1) client stage = (client, stage) := by
            simp only [Client.moveToReady, moved]
          rw [stays]
          exact ⟨rfl, .inl ⟨rfl, rfl⟩⟩
      | some next =>
          obtain ⟨client', stage'⟩ := next
          have first : client'.number = client.number ∧
              (client'.isShuttingDown = client.isShuttingDown ∧ stage'.stopAsked = stage.stopAsked ∨
                client'.isShuttingDown = true ∧ stage'.stopAsked = true) := by
            obtain ⟨next, around, moves, rfl, rfl⟩ := Client.moves_of_move moved
            exact ⟨moves.keeps.number, moves.asks⟩
          simp only [Client.moveToReady, moved]
          split
          · exact first
          · obtain ⟨number, rest⟩ := ih client' stage'
            refine ⟨number.trans first.1, ?_⟩
            rcases rest with ⟨stopped, asked⟩ | both
            · rcases first.2 with ⟨stopped', asked'⟩ | ⟨stopped', asked'⟩
              · exact .inl ⟨stopped.trans stopped', asked.trans asked'⟩
              · exact .inr ⟨stopped.trans stopped', asked.trans asked'⟩
            · exact .inr both

namespace Fleet

/-! ### All clients at once -/

private theorem forAll_get {change : Client → Stage → Client × Stage} (clients : List Client) (stage : Stage)
    {number : Nat} {client' : Client} (found : (forAll change clients stage).1[number]? = some client') :
    ∃ client stage', clients[number]? = some client ∧ client' = (change client stage').1 := by
  induction clients generalizing stage number with
  | nil => simp [forAll] at found
  | cons first rest ih =>
      cases number with
      | zero =>
          obtain rfl := Option.some.inj found
          exact ⟨first, stage, rfl, rfl⟩
      | succ number => exact ih (change first stage).2 found

theorem forAll_stage {change : Client → Stage → Client × Stage} (fits : Stage → Prop)
    (keeps : ∀ client stage, fits stage → fits (change client stage).2) (clients : List Client)
    (stage : Stage) (fitting : fits stage) : fits (forAll change clients stage).2 := by
  induction clients generalizing stage with
  | nil => exact fitting
  | cons first rest ih => exact ih _ (keeps first stage fitting)

def Numbered (fleet : Fleet) : Prop :=
  ∀ (place : Nat) (client : Client), fleet.clients[place]? = some client → client.number = place

def AllStopped (fleet : Fleet) : Prop :=
  ∀ client ∈ fleet.clients, client.isShuttingDown = true

/-- How a fleet stands between two steps: no request to stop is left to be passed on, and all clients are
shutting down or none. -/
structure Agreed (fleet : Fleet) : Prop where
  heard : fleet.stage.stopAsked = false
  numbered : fleet.Numbered
  together : (∀ client ∈ fleet.clients, client.isShuttingDown = false) ∨ fleet.AllStopped

variable {fleet : Fleet} {change : Client → Stage → Client × Stage}

theorem Numbered.mem_turns (numbered : fleet.Numbered) {place : Nat} {client : Client}
    (found : fleet.clients[place]? = some client) : place ∈ fleet.turns := by
  rw [Fleet.turns, ← numbered place client found]
  exact List.mem_map_of_mem (List.mem_mergeSort.mpr (List.mem_of_getElem? found))

private theorem changeAll_mem {client' : Client} (member : client' ∈ (fleet.changeAll change).clients) :
    ∃ (place : Nat) (client : Client) (stage : Stage), fleet.clients[place]? = some client ∧
      client' = (change client stage).1 := by
  obtain ⟨place, found⟩ := List.getElem?_of_mem member
  exact ⟨place, forAll_get _ _ found⟩

private theorem Agreed.changeAll (agreed : fleet.Agreed)
    (keeps : ∀ (client : Client) (stage : Stage), (change client stage).1.number = client.number ∧
      (change client stage).1.isShuttingDown = client.isShuttingDown ∧
        (change client stage).2.stopAsked = stage.stopAsked) : (fleet.changeAll change).Agreed where
  heard := forAll_stage (fun stage => stage.stopAsked = false)
    (fun client stage heard => (keeps client stage).2.2.trans heard) _ _ agreed.heard
  numbered place client' found := by
    obtain ⟨client, stage, found', rfl⟩ := forAll_get _ _ found
    exact (keeps client stage).1.trans (agreed.numbered place client found')
  together := by
    refine agreed.together.imp (fun none client' member => ?_) fun all client' member => ?_
    · obtain ⟨place, client, stage, found, rfl⟩ := changeAll_mem member
      exact (keeps client stage).2.1.trans (none client (List.mem_of_getElem? found))
    · obtain ⟨place, client, stage, found, rfl⟩ := changeAll_mem member
      exact (keeps client stage).2.1.trans (all client (List.mem_of_getElem? found))

/-- Everybody is stopped, except for those who were before. -/
private theorem agreed_of_stops (heard : fleet.stage.stopAsked = false) (numbered : fleet.Numbered)
    (keeps : ∀ (client : Client) (stage : Stage), (change client stage).1.number = client.number ∧
      (change client stage).2.stopAsked = stage.stopAsked)
    (stops : ∀ (client : Client) (stage : Stage), client ∈ fleet.clients →
      (change client stage).1.isShuttingDown = true) : (fleet.changeAll change).Agreed where
  heard := forAll_stage (fun stage => stage.stopAsked = false)
    (fun client stage heard => (keeps client stage).2.trans heard) _ _ heard
  numbered place client' found := by
    obtain ⟨client, stage, found', rfl⟩ := forAll_get _ _ found
    exact (keeps client stage).1.trans (numbered place client found')
  together := by
    refine .inr fun client' member => ?_
    obtain ⟨place, client, stage, found, rfl⟩ := changeAll_mem member
    exact stops client stage (List.mem_of_getElem? found)

private theorem stop_stops (client : Client) (stage : Stage) :
    (client.stop stage).1.number = client.number ∧ (client.stop stage).1.isShuttingDown = true ∧
      (client.stop stage).2.stopAsked = stage.stopAsked := by
  obtain ⟨links, same⟩ := Client.stop_links client stage
  rw [same]
  refine ⟨(Client.stop_keeps client stage).number, ?_, rfl⟩
  rw [Client.stop_eq]
  rfl

theorem Agreed.stop (agreed : fleet.Agreed) : fleet.stop.Agreed ∧ fleet.stop.AllStopped := by
  refine ⟨agreed_of_stops agreed.heard agreed.numbered
    (fun client stage => ⟨(stop_stops client stage).1, (stop_stops client stage).2.2⟩)
    fun client stage _ => (stop_stops client stage).2.1, ?_⟩
  intro client' member
  obtain ⟨place, client, stage, found, rfl⟩ := changeAll_mem member
  exact (stop_stops client stage).2.1

theorem passOnStop_of_heard (heard : fleet.stage.stopAsked = false) (asker : Nat) :
    fleet.passOnStop asker = fleet := by
  rw [passOnStop, if_neg]
  exact ne_true_of_eq_false heard

private theorem Agreed.passOnStop {asker : Nat} (numbered : fleet.Numbered)
    (asked : fleet.stage.stopAsked = true)
    (stopped : ∀ client, fleet.clients[asker]? = some client → client.isShuttingDown = true) :
    (fleet.passOnStop asker).Agreed := by
  rw [Fleet.passOnStop, if_pos asked]
  refine agreed_of_stops rfl numbered (fun client stage => ?_) fun client stage member => ?_
  · split
    · exact ⟨rfl, rfl⟩
    · exact ⟨(stop_stops client stage).1, (stop_stops client stage).2.2⟩
  · by_cases same : client.number = asker
    · rw [if_pos same]
      obtain ⟨place, found⟩ := List.getElem?_of_mem member
      rw [← numbered place client found, same] at found
      exact stopped client found
    · rw [if_neg same]
      exact (stop_stops client stage).2.1

private theorem Numbered.put (numbered : fleet.Numbered) {number : Nat} {client client' : Client}
    {stage' : Stage} (found : fleet.clients[number]? = some client)
    (same : client'.number = client.number) : (fleet.put number client' stage').Numbered := by
  intro place other found'
  by_cases here : number = place
  · subst here
    have inside := (List.getElem?_eq_some_iff.mp found).1
    obtain rfl := Option.some.inj ((List.getElem?_set_self inside).symm.trans found')
    exact same.trans (numbered number client found)
  · exact numbered place other ((List.getElem?_set_ne here).symm.trans found')

private theorem Agreed.put (agreed : fleet.Agreed) {number : Nat} {client client' : Client}
    {stage' : Stage} (found : fleet.clients[number]? = some client)
    (same : client'.number = client.number) (stopped : client'.isShuttingDown = client.isShuttingDown)
    (heard : stage'.stopAsked = false) : (fleet.put number client' stage').Agreed := by
  have present := List.mem_of_getElem? found
  refine { heard, numbered := agreed.numbered.put found same, together := ?_ }
  refine agreed.together.imp (fun none other member => ?_) fun all other member => ?_
  · rcases List.mem_or_eq_of_mem_set member with before | rfl
    · exact none other before
    · exact stopped.trans (none client present)
  · rcases List.mem_or_eq_of_mem_set member with before | rfl
    · exact all other before
    · exact stopped.trans (all client present)

theorem Agreed.turnOf (agreed : fleet.Agreed) (number : Nat) : (fleet.turnOf number).Agreed := by
  unfold Fleet.turnOf
  cases found : fleet.clients[number]? with
  | none => exact agreed
  | some client =>
      obtain ⟨⟨client', stage'⟩, turn⟩ : ∃ after, client.takeTurn fleet.stage = after := ⟨_, rfl⟩
      have result := moveToReady_asks (client.work fleet.stage) client fleet.stage
      rw [← Client.takeTurn, turn] at result
      obtain ⟨same, asks⟩ := result
      simp only [turn]
      rcases asks with ⟨stopped, asked⟩ | ⟨stopped, asked⟩
      · have heard : stage'.stopAsked = false := asked.trans agreed.heard
        have kept := agreed.put found same stopped heard
        rw [← passOnStop_of_heard kept.heard number] at kept
        exact kept
      · -- the client has stopped itself, and the others are stopped right after its turn
        refine Agreed.passOnStop (agreed.numbered.put found same) asked fun other found' => ?_
        have inside := (List.getElem?_eq_some_iff.mp found).1
        obtain rfl := Option.some.inj ((List.getElem?_set_self inside).symm.trans found')
        exact stopped

theorem Agreed.settle (agreed : fleet.Agreed) : fleet.settle.Agreed := by
  have turns (numbers : List Nat) (fleet : Fleet) (agreed : fleet.Agreed) :
      (numbers.foldl Fleet.turnOf fleet).Agreed := by
    induction numbers generalizing fleet with
    | nil => exact agreed
    | cons number rest ih => exact ih _ (agreed.turnOf number)
  have round (fleet : Fleet) (agreed : fleet.Agreed) : fleet.round.Agreed := turns fleet.turns fleet agreed
  have collect (fleet : Fleet) (agreed : fleet.Agreed) : fleet.collect.Agreed := by
    unfold Fleet.collect
    split
    · exact ⟨agreed.heard, agreed.numbered, agreed.together⟩
    · exact agreed
  exact collect _ (round _ (round fleet agreed))

theorem Agreed.around (agreed : fleet.Agreed) {stage : Stage} (changes : fleet.stage.Changes stage) :
    Agreed { fleet with stage } :=
  ⟨changes.asked.trans agreed.heard, agreed.numbered, agreed.together⟩

theorem Agreed.begin (agreed : fleet.Agreed) (step : ScenarioStep) :
    (fleet.begin step).1.Agreed := by
  cases step with
  | look => exact agreed
  | start =>
      have reported : (fleet.report (.startingClients fleet.size)).Agreed :=
        ⟨agreed.heard, agreed.numbered, agreed.together⟩
      refine reported.changeAll fun client stage => ?_
      unfold Client.start
      split
      · exact ⟨rfl, rfl, rfl⟩
      · split <;> exact ⟨rfl, rfl, rfl⟩
  | cancel =>
      have cancelled : Agreed { fleet with stage := { fleet.stage with tokenCancelled := true } } :=
        ⟨agreed.heard, agreed.numbered, agreed.together⟩
      exact cancelled.changeAll fun client stage => ⟨rfl, rfl, rfl⟩
  | stop =>
      obtain ⟨heard, numbered, together⟩ := agreed.stop.1
      exact ⟨heard, numbered, together⟩
  | sleep millis =>
      have wakes (instant : Nat) (state : Fleet) (agreed : state.Agreed) :
          (timed.wake instant state).Agreed := by
        rw [wake_eq]
        exact (agreed.around (.time instant)).settle
      simp only [Fleet.begin]
      exact Timed.pass_keeps wakes fleet.stage.now (fleet.stage.now + millis) agreed
  | push name item times => exact agreed.around (.push name item times)
  | hangUp name => exact agreed.around (.hangUp name)
  | receive most => exact agreed.around (.receive most)
  | closeReceiver => exact agreed.around .closeReceiver

theorem Agreed.play (agreed : fleet.Agreed) (steps : List ScenarioStep) :
    (fleet.play steps).Agreed := by
  induction steps generalizing fleet with
  | nil => exact agreed
  | cons step rest ih =>
      have next : (fleet.apply step).1.Agreed := by
        rw [apply_eq]
        exact (agreed.begin step).settle
      exact ih next

theorem agreed_make {stage : Stage} (opening : stage.Opening) (settings : FeedSettings)
    (sequence : Nat) (sink : SinkScript) : (make stage settings sequence sink).Agreed := by
  have heard : stage.stopAsked = false := by cases opening <;> rfl
  refine { heard := by rw [make_stage, heard], numbered := fun place client found => ?_, together := .inl ?_ }
  · obtain ⟨options, rfl⟩ := make_client found
    rfl
  · intro client member
    obtain ⟨place, found⟩ := List.getElem?_of_mem member
    obtain ⟨options, rfl⟩ := make_client found
    rfl

/-! ### Each client after its stop -/

variable {next later : Fleet}

theorem Step.beginsNothing (reachable : fleet.Reachable) (step : Step fleet next) {number : Nat}
    {client client' : Client} (found : fleet.clients[number]? = some client)
    (found' : next.clients[number]? = some client') (stopped : client'.isShuttingDown = true) :
    client.BeginsNothing client' := by
  obtain ⟨after, found'', happens⟩ := step.of_client found
  obtain rfl := Option.some.inj (found''.symm.trans found')
  rcases happens with acts | ⟨rfl, -⟩
  · exact (acts.addsQuietly (reachable.consistent found) stopped).beginsNothing
  · exact .refl _

theorem Reaches.staysStopped (reachable : fleet.Reachable) (reaches : fleet.Reaches later) {number : Nat}
    {client : Client} (found : fleet.clients[number]? = some client)
    (stopped : client.isShuttingDown = true) :
    ∃ client', later.clients[number]? = some client' ∧ client.StaysStopped client' := by
  induction reaches with
  | refl => exact ⟨client, found, (reachable.consistent found).staysStopped stopped⟩
  | tail reaches step ih =>
      obtain ⟨middle, there, stays⟩ := ih
      obtain ⟨after, found', acts | ⟨rfl, -⟩⟩ := step.of_client there
      · exact ⟨after, found', stays.acts ((reachable.after reaches).consistent there) acts⟩
      · exact ⟨after, found', stays⟩

theorem Reaches.queue_suffix (reachable : fleet.Reachable) (reaches : fleet.Reaches later)
    (stopped : fleet.AllStopped) : later.AllStopped ∧ later.stage.queue <:+ fleet.stage.queue := by
  induction reaches with
  | refl => exact ⟨stopped, List.suffix_rfl⟩
  | @tail middle after reaches step ih =>
      obtain ⟨stopped, left⟩ := ih
      have stopped' : after.AllStopped := by
        intro client' member
        obtain ⟨place, found⟩ := List.getElem?_of_mem member
        obtain ⟨client, found', acts | ⟨rfl, -⟩⟩ := step.before found
        · exact acts.stopped (stopped client (List.mem_of_getElem? found'))
        · exact stopped client' (List.mem_of_getElem? found')
      refine ⟨stopped', List.IsSuffix.trans ?_ left⟩
      cases step with
      | @act number client client' stage' found acts =>
          have still := acts.stopped (stopped client (List.mem_of_getElem? found))
          exact acts.queue ((reachable.after reaches).consistent found) still ▸ List.suffix_rfl
      | around changes => exact changes.queue_suffix
      | aside => exact List.suffix_rfl

end Fleet

theorem Client.Moves.stopped_of_dial (moves : client.Moves stage client' stage') {episode : Episode}
    {ends : DialEnd} {due : Nat} (here : client.phase = .dialling episode ends true due)
    (going : client.cancelled = false) : client'.isShuttingDown = true :=
  (moves.endsDial here going).shuttingDown.trans (beforeOutcome_stopped client stage)

/-- Once a client has been stopped, by a step or inside a dial, nothing begins any more, whatever happens
then and wherever the stop found it. The step that contains the stop begins nothing either, and the channel
gets no value. This holds of each client of a fleet; a stop of the fleet reaches all of them, and so does
a stop that one of their dials asks for. -/
theorem nothing_begins_after_stop :
    (∀ run : ClientRun, run.Reachable →
      (run.begin .stop).1.client.isShuttingDown = true ∧
      (∀ episode ends due client stage, run.client.phase = .dialling episode ends true due →
        run.client.cancelled = false → run.client.move? run.stage = some (client, stage) →
          client.isShuttingDown = true) ∧
      (∀ next, run.Step next → next.client.isShuttingDown = true →
        run.client.BeginsNothing next.client ∧ next.stage.queue <:+ run.stage.queue) ∧
      ∀ later, run.Reaches later → run.client.isShuttingDown = true →
        run.client.StaysStopped later.client ∧ later.stage.queue <:+ run.stage.queue) ∧
    (∀ fleet : Fleet, fleet.Reachable →
      (∀ next (number : Nat) client client', fleet.Step next → fleet.clients[number]? = some client →
        next.clients[number]? = some client' → client'.isShuttingDown = true →
          client.BeginsNothing client') ∧
      (∀ later (number : Nat) client, fleet.Reaches later → fleet.clients[number]? = some client →
        client.isShuttingDown = true →
          ∃ client', later.clients[number]? = some client' ∧ client.StaysStopped client') ∧
      ∀ later, fleet.Reaches later → fleet.AllStopped →
        later.AllStopped ∧ later.stage.queue <:+ fleet.stage.queue) ∧
    ∀ stage settings sequence sink steps, Stage.Opening stage →
      let fleet := (Fleet.make stage settings sequence sink).play steps
      fleet.stop.AllStopped ∧
        ((∃ client ∈ fleet.clients, client.isShuttingDown = true) → fleet.AllStopped) := by
  refine ⟨fun run reachable => ⟨?_, ?_, ?_, ?_⟩, fun fleet reachable => ⟨?_, ?_, ?_⟩, ?_⟩
  · simp only [ClientRun.begin, Client.stop_eq]
    rfl
  · intro episode ends due client stage here going moved
    obtain ⟨next, around, moves, rfl, rfl⟩ := Client.moves_of_move moved
    exact moves.stopped_of_dial here going
  · exact fun next step stopped => step.beginsNothing reachable stopped
  · exact fun later reaches stopped => reaches.staysStopped reachable stopped
  · exact fun next number client client' step found found' stopped =>
      step.beginsNothing reachable found found' stopped
  · exact fun later number client reaches found stopped => reaches.staysStopped reachable found stopped
  · exact fun later reaches stopped => reaches.queue_suffix reachable stopped
  · intro stage settings sequence sink steps opening fleet
    have agreed : fleet.Agreed := (Fleet.agreed_make opening settings sequence sink).play steps
    refine ⟨agreed.stop.2, fun some => ?_⟩
    obtain ⟨client, member, stopped⟩ := some
    rcases agreed.together with none | all
    · exact absurd stopped (ne_true_of_eq_false (none client member))
    · exact all

/-- The first of two dials asks for a stop, and the other client, which reads, is stopped as well. -/
theorem nothing_begins_after_stop_in_dial :
    let fleet := (Fleet.make
      (Stage.planned
        [("ws://slow", [⟨.connect "late", 10, true⟩]), ("ws://fast", [⟨.connect "early", 0, false⟩])] none)
      ⟨["ws://slow", "ws://fast"], .ofSeconds 20⟩ 0 ⟨false, 0⟩).play [.start, .sleep 10]
    fleet.AllStopped ∧ (fleet.apply .start).1.AllStopped := by
  intro fleet
  have asked : fleet.clients.any Client.isShuttingDown = true := by
    subst fleet
    cbv
  have opening : Stage.Opening (Stage.planned
      [("ws://slow", [⟨.connect "late", 10, true⟩]), ("ws://fast", [⟨.connect "early", 0, false⟩])] none) :=
    .planned ..
  obtain ⟨-, later, whole⟩ := nothing_begins_after_stop
  have all : fleet.AllStopped := (whole _ _ _ _ _ opening).2 (List.any_eq_true.mp asked)
  have reachable : fleet.Reachable := Fleet.reachable_play opening _ _ _ _
  exact ⟨all, ((later fleet reachable).2.2 _ (Fleet.reaches_apply fleet .start) all).1⟩

end SequencedFeed
