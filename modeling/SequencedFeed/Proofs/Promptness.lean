import SequencedFeed.Proofs.Unwinding
set_option autoImplicit false

/-!
# When calls that stop a client return

A call that stops a client returns as soon as the client has no task, and a stopped client has none as soon as
it is out of the sink. So all calls return at one instant, that of the stop or that at which the sink call in
progress returns, whatever else the client was waiting for.
-/

namespace SequencedFeed

/-- Calls that stop clients: how many wait, and when the others have returned. -/
structure StopCalls where
  waiting : Nat
  stopped : List Nat

namespace StopCalls

variable {first calls : StopCalls} {busy now instant : Nat}

def collect (calls : StopCalls) (now : Nat) : StopCalls :=
  { waiting := 0, stopped := calls.stopped ++ List.replicate calls.waiting now }

/-- What has become of some first calls: from the instant `busy` on they have all returned, at that instant,
and before it all of them wait. -/
def ReturnAt (first : StopCalls) (busy now : Nat) (calls : StopCalls) : Prop :=
  if busy ≤ now then calls.waiting = 0 ∧ (first.collect busy).stopped <+: calls.stopped
  else calls.stopped = first.stopped ∧ first.waiting ≤ calls.waiting

theorem ReturnAt.start (ahead : now ≤ busy) :
    first.ReturnAt busy now (if busy ≤ now then first.collect now else first) := by
  by_cases late : busy ≤ now
  · obtain rfl := Nat.le_antisymm ahead late
    rw [ReturnAt, if_pos late, if_pos late]
    exact ⟨rfl, List.prefix_rfl⟩
  · rw [ReturnAt, if_neg late, if_neg late]
    exact ⟨rfl, Nat.le_refl _⟩

theorem ReturnAt.next (returns : first.ReturnAt busy now calls) (calls' : StopCalls) (passes : now ≤ instant)
    (early : now < busy → instant ≤ busy) (same : calls'.stopped = calls.stopped)
    (more : calls.waiting ≤ calls'.waiting) :
    first.ReturnAt busy instant (if busy ≤ instant then calls'.collect instant else calls') := by
  by_cases late : busy ≤ instant
  · rw [ReturnAt, if_pos late, if_pos late]
    refine ⟨rfl, ?_⟩
    change _ <+: calls'.stopped ++ List.replicate calls'.waiting instant
    rw [same]
    by_cases before : busy ≤ now
    · rw [ReturnAt, if_pos before] at returns
      exact returns.2.trans (List.prefix_append ..)
    · -- the clock stands at the instant at which the calls return
      obtain rfl := Nat.le_antisymm late (early (Nat.lt_of_not_le before))
      rw [ReturnAt, if_neg before] at returns
      obtain ⟨none, fewer⟩ := returns
      rw [none, collect, List.prefix_append_right_inj]
      refine ⟨List.replicate (calls'.waiting - first.waiting) busy, ?_⟩
      rw [List.replicate_append_replicate, Nat.add_sub_cancel' (Nat.le_trans fewer more)]
  · have before : ¬busy ≤ now := fun before => late (Nat.le_trans before passes)
    rw [ReturnAt, if_neg before] at returns
    rw [ReturnAt, if_neg late, if_neg late]
    exact ⟨same.trans returns.1, Nat.le_trans returns.2 more⟩

theorem ReturnAt.nth (returns : first.ReturnAt busy now calls) {place : Nat} (among : place < first.waiting) :
    calls.stopped[first.stopped.length + place]? = if busy ≤ now then some busy else none := by
  by_cases late : busy ≤ now
  · rw [ReturnAt, if_pos late] at returns
    obtain ⟨-, rest, grown⟩ := returns
    rw [← grown, if_pos late, collect, List.append_assoc, List.getElem?_append_right (Nat.le_add_right ..),
      Nat.add_sub_cancel_left, List.getElem?_append_left (by rwa [List.length_replicate]),
      List.getElem?_replicate_of_lt among]
  · rw [ReturnAt, if_neg late] at returns
    rw [returns.1, if_neg late]
    exact List.getElem?_eq_none (Nat.le_add_right ..)

end StopCalls

theorem Phase.busyUntil_le (phase : Phase) (now : Nat) : now ≤ phase.busyUntil now := by
  cases phase with
  | sinking start mark due => exact Nat.le_max_left ..
  | _ => exact Nat.le_refl _

namespace ClientRun

variable {run later state : ClientRun}

def calls (run : ClientRun) : StopCalls :=
  { waiting := run.waiting, stopped := run.stopped }

def busyUntil (run : ClientRun) : Nat :=
  run.client.phase.busyUntil run.stage.now

theorem collect_calls (run : ClientRun) :
    run.collect.calls =
      if run.client.phase = .idle then run.calls.collect run.stage.now else run.calls := by
  simp only [collect, Client.isIdle, decide_eq_true_eq]
  split <;> rfl

theorem stopping (run : ClientRun) :
    (run.begin .stop).1.client.isShuttingDown = true ∧ (run.begin .stop).1.stage.now = run.stage.now ∧
      (run.begin .stop).1.client.phase = run.client.phase ∧
      (run.begin .stop).1.calls = { waiting := run.waiting + 1, stopped := run.stopped } := by
  obtain ⟨links, same⟩ := Client.closeHeld_links run.stage run.client.slot.held
  have begun : (run.begin .stop).1 =
      { run with
        client := (run.client.stop run.stage).1
        stage := (run.client.stop run.stage).2
        waiting := run.waiting + 1 } := rfl
  rw [begun, Client.stop_eq, same]
  exact ⟨rfl, rfl, rfl, rfl⟩

/-- A later state, at rest, of a run that was stopped in an earlier one. -/
structure RestsAfter (run later : ClientRun) : Prop where
  reachable : later.Reachable
  stopped : later.client.isShuttingDown = true
  time : run.stage.now ≤ later.stage.now
  phase : later.client.phase = run.client.phase.leftAt later.stage.now
  calls : run.calls.ReturnAt run.busyUntil later.stage.now later.calls

theorem settle_of_stopped (reachable : state.Reachable) (stopped : state.client.isShuttingDown = true) :
    state.settle.client.phase = state.client.phase.leftAt state.stage.now ∧
      state.settle.stage.now = state.stage.now ∧
      state.settle.calls =
        if state.client.phase.leftAt state.stage.now = .idle then state.calls.collect state.stage.now
        else state.calls := by
  obtain ⟨phase, now, -⟩ := reachable.consistent.settle_rests stopped
  simp only [settle, collect_kept, collect_calls]
  rw [phase, now]
  exact ⟨rfl, rfl, rfl⟩

/-- Whatever has changed since the last rest, a stopped client comes to rest again. -/
theorem RestsAfter.settle (rests : run.RestsAfter later) (reachable : state.Reachable)
    (stopped : state.client.isShuttingDown = true) (passes : later.stage.now ≤ state.stage.now)
    (early : later.stage.now < run.busyUntil → state.stage.now ≤ run.busyUntil)
    (phase : state.client.phase.leftAt state.stage.now = later.client.phase.leftAt state.stage.now)
    (same : state.stopped = later.stopped) (more : later.waiting ≤ state.waiting) :
    run.RestsAfter state.settle := by
  obtain ⟨left, now, calls⟩ := settle_of_stopped reachable stopped
  have time := Nat.le_trans rests.time passes
  have reaches := reaches_settle state
  rw [phase, rests.phase, Phase.leftAt_leftAt _ passes] at left calls
  refine ⟨reachable.later reaches, ?_, ?_, ?_, ?_⟩
  · exact (reaches.staysStopped reachable stopped).1.shuttingDown
  · rw [now]
    exact time
  · rw [left, now]
  · have returns := rests.calls.next state.calls passes early same more
    simp only [Phase.leftAt_eq_idle_iff _ time] at calls
    rw [now, calls]
    exact returns

theorem RestsAfter.settle_now (rests : run.RestsAfter later) (reachable : state.Reachable)
    (stopped : state.client.isShuttingDown = true) (now : state.stage.now = later.stage.now)
    (phase : state.client.phase.leftAt later.stage.now = later.client.phase.leftAt later.stage.now)
    (same : state.stopped = later.stopped) (more : later.waiting ≤ state.waiting) :
    run.RestsAfter state.settle := by
  rw [← now] at phase
  refine rests.settle reachable stopped (Nat.le_of_eq now.symm) (fun early => ?_) phase same more
  rw [now]
  exact Nat.le_of_lt early

theorem RestsAfter.pass (rests : run.RestsAfter later) {finish : Nat} (passes : later.stage.now ≤ finish) :
    run.RestsAfter (timed.pass later.stage.now finish later) ∧
      (timed.pass later.stage.now finish later).stage.now = finish := by
  have ahead (state : ClientRun) (due : Nat) (rests : run.RestsAfter state)
      (waits : timed.due? state = some due) : state.stage.now < due :=
    (Client.due_of_left rests.phase waits run.stage.now).1
  refine Timed.pass_through timed run.RestsAfter (fun state => state.stage.now)
    (fun instant state rests passes none => ?_) ahead rests passes
  have reachable : Reachable { state with stage := { state.stage with now := instant } } :=
    rests.reachable.later (.single (.around (.time instant)))
  -- the client is woken at the end of its sink call, so this instant is not skipped
  have early (busy : state.stage.now < run.busyUntil) : instant ≤ run.busyUntil := by
    refine none _ (Client.waits_of_left rests.phase rests.time ?_)
    rw [Ne, Phase.leftAt_eq_idle_iff _ rests.time]
    exact Nat.not_le_of_lt busy
  rw [wake_eq]
  exact ⟨rests.settle reachable rests.stopped passes early rfl rfl (Nat.le_refl _),
    (settle_of_stopped reachable rests.stopped).2.1⟩

theorem RestsAfter.apply (rests : run.RestsAfter later) (step : ScenarioStep) :
    run.RestsAfter (later.apply step).1 := by
  have begun : (later.begin step).1.Reachable := rests.reachable.later (reaches_begin later step)
  have stopped : (later.begin step).1.client.isShuttingDown = true :=
    ((reaches_begin later step).staysStopped rests.reachable rests.stopped).1.shuttingDown
  rw [apply_eq]
  cases step with
  | look | cancel | closeReceiver => exact rests.settle_now begun stopped rfl rfl rfl (Nat.le_refl _)
  | start =>
      have task := rests.reachable.consistent.phase.started
      have left := Client.start_left task later.stage later.stage.now
      exact rests.settle_now begun stopped rfl left rfl (Nat.le_refl _)
  | stop =>
      obtain ⟨-, now, phase, -⟩ := later.stopping
      have left := congrArg (fun phase => phase.leftAt later.stage.now) phase
      exact rests.settle_now begun stopped now left rfl (Nat.le_succ _)
  | sleep millis =>
      have passed := (rests.pass (Nat.le_add_right later.stage.now millis)).1
      simp only [ClientRun.begin]
      exact passed.settle_now passed.reachable passed.stopped rfl rfl rfl (Nat.le_refl _)
  | push name | hangUp name =>
      exact rests.settle_now begun stopped (later.stage.changeNamed_now ..) rfl rfl (Nat.le_refl _)
  | receive most =>
      exact rests.settle_now begun stopped (later.stage.receive_now most) rfl rfl (Nat.le_refl _)

theorem RestsAfter.play (rests : run.RestsAfter later) (steps : List ScenarioStep) :
    run.RestsAfter (later.play steps) := by
  induction steps generalizing later with
  | nil => exact rests
  | cons step rest ih => exact ih (rests.apply step)

/-- After a stop a client is at rest, whatever steps follow. -/
theorem Reachable.rests_after_stop (reachable : run.Reachable) (steps : List ScenarioStep) :
    (run.begin .stop).1.RestsAfter (run.play (.stop :: steps)) := by
  have begun : (run.begin .stop).1.Reachable := reachable.later (reaches_begin run .stop)
  have stopped := run.stopping.1
  obtain ⟨phase, now, calls⟩ := settle_of_stopped begun stopped
  have reaches := reaches_settle (run.begin .stop).1
  have first : (run.begin .stop).1.RestsAfter (run.begin .stop).1.settle := by
    refine ⟨begun.later reaches, (reaches.staysStopped begun stopped).1.shuttingDown,
      Nat.le_of_eq now.symm, ?_, ?_⟩
    · rw [phase, now]
    · simp only [Phase.leftAt_eq_idle_iff _ (Nat.le_refl (run.begin .stop).1.stage.now)] at calls
      rw [now, calls]
      exact .start (Phase.busyUntil_le ..)
  rw [play_cons, apply_eq]
  exact first.play steps

theorem Reachable.stop_returns (reachable : run.Reachable) (steps : List ScenarioStep) :
    (run.play (.stop :: steps)).stopped[run.stopped.length + run.waiting]? =
      if run.busyUntil ≤ (run.play (.stop :: steps)).stage.now then some run.busyUntil else none := by
  obtain ⟨-, now, phase, calls⟩ := run.stopping
  have returns := (reachable.rests_after_stop steps).calls
  rw [calls, busyUntil, phase, now] at returns
  exact returns.nth (Nat.lt_succ_self run.waiting)

theorem play_waiting (run : ClientRun) (none : run.client.phase = .idle → run.waiting = 0)
    (steps : List ScenarioStep) :
    (run.play steps).client.phase = .idle → (run.play steps).waiting = 0 := by
  have collected (run : ClientRun) : run.collect.client.phase = .idle → run.collect.waiting = 0 := by
    unfold collect
    split
    · exact fun _ => rfl
    · rename_i task
      exact fun idle => absurd (decide_eq_true idle) task
  induction steps generalizing run with
  | nil => exact none
  | cons step rest ih =>
      rw [play_cons]
      refine ih (run.apply step).1 ?_
      rw [apply_eq, settle]
      exact collected _

/-- A stopped client that is in the sink was in the same sink call before it was stopped. -/
theorem Reachable.sinking_since (reachable : run.Reachable) (stopped : run.client.isShuttingDown = true)
    (sinking : run.client.phase.isSinking = true) :
    ∃ before : ClientRun, before.Reachable ∧ before.Reaches run ∧
      before.client.isShuttingDown = false ∧ before.client.phase = run.client.phase := by
  obtain ⟨stage, options, sink, opening, reached⟩ := reachable
  -- by induction on the last step, which leads no stopped client into the sink
  induction reached with
  | refl => cases stopped
  | @tail before after reaches step ih =>
      have reachable : before.Reachable := ⟨stage, options, sink, opening, reaches⟩
      have same : after.client.phase = before.client.phase := by
        rcases step.acts with acts | ⟨same, -⟩
        · exact acts.sinking reachable.consistent stopped sinking
        · rw [same]
      cases stopping : before.client.isShuttingDown with
      | false => exact ⟨before, reachable, step.reaches, stopping, same.symm⟩
      | true =>
          rw [same] at sinking ⊢
          obtain ⟨first, reachable, reached, unstopped, phase⟩ := ih stopping sinking
          exact ⟨first, reachable, reached.tail step, unstopped, phase⟩

theorem Reachable.idle_or_sinking (reachable : run.Reachable) (stopped : run.client.isShuttingDown = true)
    (rest : run.client.atRest run.stage) :
    run.client.phase = .idle ∨ run.client.phase.isSinking = true ∧
      ∃ before : ClientRun, before.Reachable ∧ before.Reaches run ∧
        before.client.isShuttingDown = false ∧ before.client.phase = run.client.phase := by
  cases sinking : run.client.phase.isSinking with
  | false => exact .inl (reachable.consistent.idle_of_stopped rest stopped sinking)
  | true => exact .inr ⟨rfl, reachable.sinking_since stopped sinking⟩

end ClientRun

end SequencedFeed
