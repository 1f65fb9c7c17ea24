import SequencedFeed.Proofs.Timetable
set_option autoImplicit false

/-!
# Runs by the timetable

Every step of a run leaves the client at rest and on time, because time passes from one instant that something
is due to the next. So a dial has begun for everything in the timetable that has come due, at that very
instant, and for nothing else.
-/

namespace SequencedFeed

namespace Client

variable {client client' : Client} {stage stage' : Stage} {first : Nat}

theorem Acts.options (acts : client.Acts stage client' stage') : client'.options = client.options := by
  cases acts with
  | start starts =>
      cases starts with
      | report | first => rfl
  | cancel => rfl
  | stop => exact (stop_keeps client stage).options
  | move moves =>
      obtain ⟨next, around, moved, rfl, rfl⟩ := moves_of_move moves
      exact moved.keeps.options

theorem Acts.pauses (pauses : client.Pauses stage) (acts : client.Acts stage client' stage') :
    client'.Pauses stage' := by
  cases acts with
  | start starts =>
      cases starts with
      | report | first => exact pauses
  | cancel => exact pauses
  | stop =>
      obtain ⟨links, same⟩ := stop_links client stage
      rw [Pauses, Client.url, (stop_keeps client stage).options, same]
      exact pauses
  | move moves =>
      obtain ⟨next, around, moved, rfl, rfl⟩ := moves_of_move moves
      have after : next.Pauses around := pauses.moves moved
      exact after

/-- All that keeps a client on time while it moves. -/
structure Scheduled (client : Client) (stage : Stage) (first : Nat) : Prop where
  consistent : client.Consistent stage
  endures : client.Endures stage
  tells : client.options.TellsTime
  pauses : client.Pauses stage
  onTime : client.OnTime stage.now first

theorem Scheduled.move (scheduled : client.Scheduled stage first)
    (moved : client.move? stage = some (client', stage')) :
    client'.Scheduled stage' first ∧ stage'.now = stage.now := by
  have acts : client.Acts stage client' stage' := .move moved
  obtain ⟨next, around, moves, rfl, rfl⟩ := moves_of_move moved
  have now : around.now = stage.now := by
    obtain ⟨scripts, links, channel, stopAsked, rfl⟩ := moves.surroundings
    rfl
  have onTime : next.OnTime stage.now first :=
    scheduled.onTime.moves scheduled.consistent scheduled.endures scheduled.tells moves
  rw [← now] at onTime
  refine ⟨⟨scheduled.consistent.acts acts, scheduled.endures.acts scheduled.consistent acts, ?_,
    acts.pauses scheduled.pauses, ?_⟩, now⟩
  · rw [acts.options]
    exact scheduled.tells
  · exact onTime.aside rfl rfl (.of_eq rfl) (fun going => going) (fun _ => rfl) fun _ _ there => there

theorem Scheduled.settle (scheduled : client.Scheduled stage first) :
    (client.settle stage).1.Scheduled (client.settle stage).2 first ∧
      (client.settle stage).2.now = stage.now := by
  have moved (count : Nat) : ∀ (client : Client) (stage : Stage), client.Scheduled stage first →
      (moveUpTo count client stage).1.Scheduled (moveUpTo count client stage).2 first ∧
        (moveUpTo count client stage).2.now = stage.now := by
    induction count with
    | zero => exact fun _ _ scheduled => ⟨scheduled, rfl⟩
    | succ count ih =>
        intro client stage scheduled
        unfold moveUpTo
        cases moves : client.move? stage with
        | none => exact ⟨scheduled, rfl⟩
        | some next =>
            obtain ⟨scheduled, now⟩ := scheduled.move moves
            obtain ⟨rests, later⟩ := ih next.1 next.2 scheduled
            exact ⟨rests, later.trans now⟩
  exact moved (client.work stage) client stage scheduled

theorem OnTime.of_start (onTime : client.OnTime stage.now first) (stage' : Stage) :
    (client.start stage').OnTime stage.now first := by
  have starts := client.start_starts stage'
  revert starts
  generalize client.start stage' = started
  intro starts
  cases starts with
  | report barred =>
      have told : DialsAside client.history client.history := .of_eq rfl
      exact onTime.aside rfl rfl (told.cons stage'.now rfl) (fun going => going) (fun _ => rfl)
        fun _ _ there => there
  | first enabled unstarted => exact absurd onTime.started (ne_true_of_eq_false unstarted)

/-- A client at rest is not about to dial, and a dial that it waits for is what it is woken for. -/
theorem dialDue_of_atRest (rest : client.atRest stage) (now : Nat) :
    client.phase.dialDue? now = client.phase.dialDue? stage.now ∧
      ∀ due, client.phase.dialDue? now = some due → client.due? = some due := by
  rw [atRest_iff, proceed?] at rest
  unfold due?
  cases here : client.phase with
  | connecting episode => simp [here] at rest
  | retrying | backingOff => exact ⟨rfl, fun _ waits => waits⟩
  | _ => exact ⟨rfl, fun _ waits => by cases waits⟩

end Client

namespace ClientRun

variable {run later : ClientRun} {first : Nat}

/-- A run between two steps: the client is at rest and on time. -/
structure Punctual (first : Nat) (run : ClientRun) : Prop where
  scheduled : run.client.Scheduled run.stage first
  rest : run.client.atRest run.stage

theorem settle_punctual (scheduled : run.client.Scheduled run.stage first) :
    run.settle.Punctual first ∧ run.settle.stage.now = run.stage.now := by
  have rest := scheduled.consistent.settle_atRest scheduled.pauses
  obtain ⟨settled, now⟩ := scheduled.settle
  simp only [settle]
  refine ⟨⟨?_, ?_⟩, ?_⟩
  · rw [(collect_kept _).1, (collect_kept _).2]
    exact settled
  · rw [(collect_kept _).1, (collect_kept _).2]
    exact rest
  · rw [(collect_kept _).2]
    exact now

theorem Punctual.wake (punctual : run.Punctual first) {instant : Nat} (passes : run.stage.now ≤ instant)
    (early : ∀ due, timed.due? run = some due → instant ≤ due) :
    (timed.wake instant run).Punctual first ∧ (timed.wake instant run).stage.now = instant := by
  obtain ⟨scheduled, rest⟩ := punctual
  obtain ⟨still, -⟩ := Client.dialDue_of_atRest rest instant
  have waits := (Client.dialDue_of_atRest rest run.stage.now).2
  have changes : run.stage.Changes { run.stage with now := instant } := .time instant
  rw [wake_eq]
  refine settle_punctual ⟨scheduled.consistent.later changes.grows.later, ?_, scheduled.tells,
    scheduled.pauses, ?_⟩
  · exact { scheduled.endures with bidden := scheduled.endures.bidden }
  · exact scheduled.onTime.wait passes still.symm fun due next => early due (waits due next)

theorem Punctual.pass (punctual : run.Punctual first) {finish : Nat} (passes : run.stage.now ≤ finish) :
    (timed.pass run.stage.now finish run).Punctual first ∧
      (timed.pass run.stage.now finish run).stage.now = finish :=
  Timed.pass_through timed (Punctual first) (fun state => state.stage.now)
    (fun _ _ punctual passes early => punctual.wake passes early)
    (fun _ _ punctual waits => Client.lt_due_of_atRest punctual.rest waits) punctual passes

private theorem Punctual.around (punctual : run.Punctual first) {stage : Stage}
    (changes : run.stage.Changes stage) (now : stage.now = run.stage.now) :
    run.client.Scheduled stage first := by
  obtain ⟨scheduled, -⟩ := punctual
  have grows := changes.grows
  refine ⟨scheduled.consistent.later grows.later, ?_, scheduled.tells, ?_, ?_⟩
  · exact { scheduled.endures with bidden := by rw [grows.token]; exact scheduled.endures.bidden }
  · rw [Client.Pauses, Stage.script, grows.scripts]
    exact scheduled.pauses
  · rw [now]
    exact scheduled.onTime

private theorem Punctual.acts (punctual : run.Punctual first) {client : Client} {stage : Stage}
    (acts : run.client.Acts run.stage client stage) (onTime : client.OnTime stage.now first) :
    client.Scheduled stage first := by
  obtain ⟨scheduled, -⟩ := punctual
  refine ⟨scheduled.consistent.acts acts, scheduled.endures.acts scheduled.consistent acts, ?_,
    acts.pauses scheduled.pauses, onTime⟩
  rw [acts.options]
  exact scheduled.tells

theorem Punctual.apply (punctual : run.Punctual first) (step : ScenarioStep) :
    (run.apply step).1.Punctual first := by
  have onTime := punctual.scheduled.onTime
  rw [apply_eq]
  refine (settle_punctual ?_).1
  cases step with
  | look => exact punctual.scheduled
  | start => exact punctual.acts (.start (Client.start_starts ..)) (onTime.of_start run.stage)
  | cancel =>
      have cancelled : run.client.cancel.OnTime run.stage.now first := by
        refine onTime.stopping rfl rfl (.of_eq rfl) ?_
        rw [Client.shouldStop, Client.cancel, onTime.started, Bool.or_true, Bool.true_or]
      exact punctual.acts .cancel cancelled
  | stop =>
      have stopped := onTime.stop run.stage
      obtain ⟨links, same⟩ := Client.stop_links run.client run.stage
      have now : (run.client.stop run.stage).2.now = run.stage.now := by rw [same]
      rw [← now] at stopped
      exact punctual.acts .stop stopped
  | sleep millis => exact (punctual.pass (Nat.le_add_right run.stage.now millis)).1.scheduled
  | push name item times => exact punctual.around (.push name item times) (run.stage.changeNamed_now ..)
  | hangUp name => exact punctual.around (.hangUp name) (run.stage.changeNamed_now ..)
  | receive most => exact punctual.around (.receive most) (run.stage.receive_now most)
  | closeReceiver => exact punctual.around .closeReceiver rfl

theorem Punctual.play (punctual : run.Punctual first) (steps : List ScenarioStep) :
    (run.play steps).Punctual first := by
  induction steps generalizing run with
  | nil => exact punctual
  | cons step rest ih => exact ih (punctual.apply step)

/-! ### From the start on -/

theorem Step.settings (step : Step run later) : later.client.options = run.client.options ∧
    (run.client.Pauses run.stage → later.client.Pauses later.stage) := by
  rcases step.acts with acts | ⟨client, stage | changes⟩
  · exact ⟨acts.options, fun pauses => acts.pauses pauses⟩
  · rw [client, stage]
    exact ⟨rfl, id⟩
  · refine ⟨congrArg Client.options client, fun pauses => ?_⟩
    rw [client, Client.Pauses, Stage.script, changes.grows.scripts]
    exact pauses

theorem Reaches.settings (reaches : run.Reaches later) : later.client.options = run.client.options ∧
    (run.client.Pauses run.stage → later.client.Pauses later.stage) := by
  induction reaches with
  | refl => exact ⟨rfl, id⟩
  | tail reaches step ih =>
      obtain ⟨options, pauses⟩ := step.settings
      exact ⟨options.trans ih.1, pauses ∘ ih.2⟩

/-- A client before its start: it has no task and has done nothing about dials. -/
structure Untouched (run : ClientRun) : Prop where
  unstarted : run.client.started = false
  idle : run.client.phase = .idle
  history : DialsAside [] run.client.history

theorem Untouched.settle (untouched : run.Untouched) : run.settle.Untouched := by
  have still (count : Nat) : Client.moveUpTo count run.client run.stage = (run.client, run.stage) := by
    have rest : run.client.move? run.stage = none := by
      rw [Client.move?, Client.proceed?, untouched.idle]
      rfl
    cases count with
    | zero => rfl
    | succ count => rw [Client.moveUpTo, rest]
  have kept : run.settle.client = run.client := by
    rw [ClientRun.settle, Client.settle, still, (collect_kept _).1]
  exact ⟨kept ▸ untouched.unstarted, kept ▸ untouched.idle, kept ▸ untouched.history⟩

theorem Untouched.apply (untouched : run.Untouched) {step : ScenarioStep} (other : step ≠ .start) :
    (run.apply step).1.Untouched := by
  obtain ⟨unstarted, idle, history⟩ := untouched
  rw [apply_eq]
  refine Untouched.settle ?_
  cases step with
  | start => exact absurd rfl other
  | sleep millis =>
      have wakes (instant : Nat) (state : ClientRun) (untouched : state.Untouched) :
          (timed.wake instant state).Untouched := by
        rw [wake_eq]
        exact Untouched.settle ⟨untouched.unstarted, untouched.idle, untouched.history⟩
      exact Timed.pass_keeps wakes run.stage.now (run.stage.now + millis) ⟨unstarted, idle, history⟩
  | stop =>
      have told : DialsAside [] (run.client.stop run.stage).1.history := by
        rw [Client.stop_eq]
        exact history.cons run.stage.now rfl
      refine ⟨(Client.stop_keeps ..).started.trans unstarted, ?_, told⟩
      change (run.client.stop run.stage).1.phase = .idle
      rw [Client.stop_eq]
      exact idle
  | look | cancel | push | hangUp | receive | closeReceiver => exact ⟨unstarted, idle, history⟩

theorem Untouched.play (untouched : run.Untouched) {steps : List ScenarioStep}
    (unstarted : ScenarioStep.start ∉ steps) : (run.play steps).Untouched := by
  induction steps generalizing run with
  | nil => exact untouched
  | cons step rest ih =>
      obtain ⟨other, later⟩ := List.ne_and_not_mem_of_not_mem_cons unstarted
      exact ih (untouched.apply other.symm) later

theorem Untouched.start (untouched : run.Untouched) (reachable : run.Reachable)
    (enabled : run.client.options.endpoint.isDisabled = false) (tells : run.client.options.TellsTime)
    (pauses : run.client.Pauses run.stage) : (run.apply .start).1.Punctual run.stage.now := by
  obtain ⟨unstarted, idle, history⟩ := untouched
  have begun : (run.begin .start).1.Reachable := reachable.later (reaches_begin run .start)
  have started : run.client.start run.stage =
      { run.client with
        started := true
        cancelled := run.stage.tokenCancelled
        phase := .connecting .startUp } := by
    rw [Client.start, enabled, unstarted]
    rfl
  have onTime : (run.client.start run.stage).OnTime run.stage.now run.stage.now := by
    rw [started]
    refine ⟨rfl, ?_, ?_, fun _ => ⟨?_, ?_, ?_⟩⟩
    · rw [history.dialTimes_eq]
      exact List.nil_prefix
    · rw [history.dialTimes_eq]
      exact List.forall_mem_nil _
    · rw [history.dialTimes_eq, history.timetable_eq]
      rfl
    · exact fun due waits => Nat.le_of_eq (Option.some.inj waits)
    · intro episode here
      rw [history.failedTries_eq]
      exact (Option.some.inj here).symm
  have acts : run.client.Acts run.stage (run.client.start run.stage) run.stage := .start (Client.start_starts ..)
  rw [apply_eq]
  refine (settle_punctual ⟨begun.consistent, begun.endures, ?_, acts.pauses pauses, onTime⟩).1
  change (run.client.start run.stage).options.TellsTime
  rw [acts.options]
  exact tells

/-- A client begins no dial before it is started for the first time. From then on the times of its dials are the
first ones in its timetable, whose first entry is the instant of the start. As long as its token is not
cancelled and nobody stops it, it has begun a dial for every entry that has come due. Where dials fail without
end, the waits at start-up must not be empty: such a client would never let any time pass. -/
theorem dials_keep_to_timetable {stage : Stage} (opening : stage.Opening) {options : ClientOptions}
    (enabled : options.endpoint.isDisabled = false) (tells : options.TellsTime)
    (pauses : (stage.script options.endpoint.url).beyond.isSome = true → 0 < options.supervisorDelay.millis)
    (sink : SinkScript) {before : List ScenarioStep} (unstarted : ScenarioStep.start ∉ before)
    (after : List ScenarioStep) :
    let idle := (make stage options sink).play before
    let run := idle.play (.start :: after)
    let begun := run.client.dials.map Prod.fst
    let due := options.timetable idle.stage.now run.client.history
    idle.client.dials = [] ∧ begun <+: due ∧
      (run.stage.tokenCancelled = false → run.client.isShuttingDown = false →
        begun = due.filter (· ≤ run.stage.now)) := by
  intro idle run begun due
  have opened : (make stage options sink).Reachable := reachable_play opening options sink []
  have reaches := reaches_play (make stage options sink) before
  have reachable : idle.Reachable := opened.later reaches
  obtain ⟨same, paused⟩ := reaches.settings
  have untouched : idle.Untouched := Untouched.play ⟨rfl, rfl, .of_eq rfl⟩ unstarted
  have punctual : run.Punctual idle.stage.now := by
    refine (untouched.start reachable ?_ ?_ (paused pauses)).play after
    · rw [same]
      exact enabled
    · rw [same]
      exact tells
  have later : run.client.options = options :=
    (reaches_play idle (.start :: after)).settings.1.trans same
  have table : due = run.client.options.timetable idle.stage.now run.client.history :=
    congrArg (fun options => options.timetable idle.stage.now run.client.history) later.symm
  have onTime := punctual.scheduled.onTime
  have times : begun = dialTimes run.client.history := dials_times run.client
  refine ⟨?_, ?_, fun uncancelled unstopped => ?_⟩
  · have none := dials_times idle.client
    rw [untouched.history.dialTimes_eq] at none
    exact List.map_eq_nil_iff.mp none
  · rw [times, table]
    exact onTime.dialled
  · have spared : run.client.cancelled = false := by
      refine Bool.eq_false_iff.mpr fun cancelled => ?_
      rcases punctual.scheduled.endures.bidden cancelled with token | stopped
      · exact absurd token (ne_true_of_eq_false uncancelled)
      · exact absurd stopped (ne_true_of_eq_false unstopped)
    have pace := onTime.pace (Bool.or_eq_false_iff.mpr ⟨spared, unstopped⟩)
    have next : due = begun ++ (run.client.phase.dialDue? run.stage.now).toList := by
      rw [times, table]
      exact pace.next
    have here : begun.filter (· ≤ run.stage.now) = begun := by
      rw [List.filter_eq_self, times]
      exact fun time member => decide_eq_true (onTime.past time member)
    have ahead : (run.client.phase.dialDue? run.stage.now).toList.filter (· ≤ run.stage.now) = [] := by
      rw [List.filter_eq_nil_iff]
      intro due waits
      have waits := (Client.dialDue_of_atRest punctual.rest _).2 due (Option.mem_toList.mp waits)
      have later := Client.lt_due_of_atRest punctual.rest waits
      simpa using later
    rw [next, List.filter_append, here, ahead, List.append_nil]

/-- A dial at start-up fails, a read fails after the second dial, and the dial that follows fails too: the waits
are five seconds, half a second and a second. -/
theorem dials_keep_to_timetable_through_failures :
    let stage := Stage.planned
      [("ws://feed", [⟨.failNext 1, 0, false⟩, ⟨.connect "first", 0, false⟩, ⟨.failNext 1, 5, false⟩,
        ⟨.connect "second", 5, false⟩])] none
    let run := ((make stage (ClientOptions.standard "ws://feed") ⟨false, 0⟩).play [.sleep 3]).play
      [.start, .sleep 20000, .push "first" (.error scriptedFailure) 1, .sleep 20000]
    run.client.dials.map Prod.fst = [3, 5003, 20503, 21508] := by
  intro stage run
  have opening : stage.Opening := .planned ..
  have tells := ClientOptions.standard_tellsTime "ws://feed"
  have unstarted : ScenarioStep.start ∉ [ScenarioStep.sleep 3] := by simp
  obtain ⟨-, -, begun⟩ := dials_keep_to_timetable opening (by decide) tells (by decide) ⟨false, 0⟩ unstarted
    [.sleep 20000, .push "first" (.error scriptedFailure) 1, .sleep 20000]
  refine (begun (by decide) (by decide)).trans ?_
  decide

end ClientRun

end SequencedFeed
