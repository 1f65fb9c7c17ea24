import SequencedFeed.Envelope.Text
import SequencedFeed.Proofs.Inert
import Mathlib.Data.List.Forall2
set_option autoImplicit false

/-!
# Inert frames inserted into a run

Whoever adds frames without effect to what is sent to a client, at any place of any connection's items and at any
instant, changes nothing but log records and the counts of frames. Where the frames are added may lie within a step:
a step that sends several items, or that sleeps, is then carried out in parts.
-/

namespace SequencedFeed

/-- What a step may become when inert frames are sent before it, after it, between the items that it sends, or while
it sleeps. -/
inductive Widened : ScenarioStep → List ScenarioStep → Prop
  | same (step : ScenarioStep) : Widened step [step]
  | before {step : ScenarioStep} {steps : List ScenarioStep} {frame : List UInt8} (name : String) (times : Nat)
      (inert : isInert frame = true) (widened : Widened step steps) :
      Widened step (.push name (.ok frame) times :: steps)
  | after {step : ScenarioStep} {steps : List ScenarioStep} {frame : List UInt8} (name : String) (times : Nat)
      (inert : isInert frame = true) (widened : Widened step steps) :
      Widened step (steps ++ [.push name (.ok frame) times])
  | amidItems {name : String} {item : ReadResult} {first second : Nat} {steps others : List ScenarioStep}
      (widened : Widened (.push name item first) steps) (widened' : Widened (.push name item second) others) :
      Widened (.push name item (first + second)) (steps ++ others)
  | amidSleep {first second : Nat} {steps others : List ScenarioStep} (widened : Widened (.sleep first) steps)
      (widened' : Widened (.sleep second) others) : Widened (.sleep (first + second)) (steps ++ others)

namespace ClientRun

/-- Runs of clients that are alike in all that matters. -/
structure Agrees (run other : ClientRun) : Prop where
  alike : AlikeInMatter (run.client, run.stage) (other.client, other.stage)
  plain : run.client.Plain run.stage
  plain' : other.client.Plain other.stage
  waiting : run.waiting = other.waiting
  stopped : run.stopped = other.stopped

variable {run other : ClientRun}

namespace Agrees

private theorem collect (agrees : run.Agrees other) : run.collect.Agrees other.collect := by
  have idle : run.client.isIdle = other.client.isIdle := agrees.alike.client.isIdle
  have now : run.stage.now = other.stage.now := agrees.alike.stage.now
  unfold ClientRun.collect
  rw [idle, now, agrees.waiting, agrees.stopped]
  split
  · exact ⟨agrees.alike, agrees.plain, agrees.plain', rfl, rfl⟩
  · exact agrees

theorem settle (agrees : run.Agrees other) : run.settle.Agrees other.settle := by
  have settled : Agrees ⟨(run.client.settle run.stage).2, (run.client.settle run.stage).1, run.waiting, run.stopped⟩
      ⟨(other.client.settle other.stage).2, (other.client.settle other.stage).1, other.waiting, other.stopped⟩ :=
    ⟨agrees.alike.settle agrees.plain agrees.plain', agrees.plain.settle, agrees.plain'.settle, agrees.waiting,
      agrees.stopped⟩
  exact settled.collect

theorem around (agrees : run.Agrees other) {stage stage' : Stage} (changes : run.stage.Changes stage)
    (changes' : other.stage.Changes stage') (alike : AlikeInMatter (run.client, stage) (other.client, stage')) :
    Agrees { run with stage } { other with stage := stage' } := by
  have plain {client : Client} {stage stage' : Stage} (plain : client.Plain stage) (changes : stage.Changes stage') :
      client.Plain stage' := by
    refine ⟨plain.consistent.later changes.grows.later, ?_, changes.grows.token.trans plain.token, plain.cancelled⟩
    rw [Client.Pauses, Stage.script, changes.grows.scripts]
    exact plain.pauses
  exact ⟨alike, plain agrees.plain changes, plain agrees.plain' changes', agrees.waiting, agrees.stopped⟩

theorem wake (agrees : run.Agrees other) (instant : Nat) : (timed.wake instant run).Agrees (timed.wake instant other) := by
  rw [wake_eq, wake_eq]
  refine (agrees.around (.time instant) (.time instant) ?_).settle
  have stages : run.stage.Like inMatter other.client.url run.stage other.stage := agrees.alike.stage
  exact .of_alike ⟨agrees.alike.client, stages.at_instant instant, agrees.alike.heard⟩

theorem pass (agrees : run.Agrees other) (start finish : Nat) :
    (timed.pass start finish run).Agrees (timed.pass start finish other) :=
  Timed.pass_alike (fun agrees => Alike.due agrees.alike) (fun instant _ _ agrees => agrees.wake instant) start finish agrees

private theorem lastNamed (agrees : run.Agrees other) (name : String) :
    Link.lastNamed? run.stage.links name = Link.lastNamed? other.stage.links name := by
  refine Link.lastNamed_eq (List.ext_getElem? fun number => ?_) name
  have links : Option.Rel Link.SameMatter run.stage.links[number]? other.stage.links[number]? :=
    agrees.alike.stage.links number
  rw [List.getElem?_map, List.getElem?_map]
  generalize run.stage.links[number]? = here at links
  generalize other.stage.links[number]? = there at links
  cases links with
  | none => rfl
  | some same => exact congrArg some same.name

private theorem change_named (agrees : run.Agrees other) (name : String) {change change' : Link → Link}
    (keeps : ∀ {link link' : Link}, link.SameMatter link' → (change link).SameMatter (change' link')) :
    AlikeInMatter (run.client, run.stage.changeNamed name change) (other.client, other.stage.changeNamed name change') := by
  have stages : run.stage.Like inMatter other.client.url run.stage other.stage := agrees.alike.stage
  unfold Stage.changeNamed
  rw [agrees.lastNamed name]
  cases Link.lastNamed? other.stage.links name with
  | none => exact agrees.alike
  | some link => exact .of_alike ⟨agrees.alike.client, stages.change_link link keeps, agrees.alike.heard⟩

private theorem start (agrees : run.Agrees other) :
    Agrees { run with client := run.client.start run.stage } { other with client := other.client.start other.stage } := by
  have plain {client : Client} {stage : Stage} (plain : client.Plain stage) : (client.start stage).Plain stage := by
    have starts := Client.start_starts client stage
    have acts : client.Acts stage (client.start stage) stage := .start starts
    refine ⟨plain.consistent.acts acts, acts.pauses plain.pauses, plain.token, ?_⟩
    generalize client.start stage = started at starts
    cases starts with
    | report barred => exact plain.cancelled
    | first enabled unstarted => exact fun cancelled => absurd (plain.token.symm.trans cancelled) Bool.false_ne_true
  have stages : run.stage.Like inMatter other.client.url run.stage other.stage := agrees.alike.stage
  have options : (other.client.start other.stage).options = other.client.options := by
    unfold Client.start
    repeat' split
    all_goals rfl
  have number (client : Client) (stage : Stage) : (client.start stage).number = client.number := by
    unfold Client.start
    repeat' split
    all_goals rfl
  refine ⟨⟨agrees.alike.client.start stages.now stages.token, ?_, ?_⟩, plain agrees.plain, plain agrees.plain',
    agrees.waiting, agrees.stopped⟩
  · change run.stage.Like inMatter (other.client.start other.stage).url run.stage other.stage
    rw [Client.url_eq options]
    exact stages
  · change other.stage.channel = none ∨ (run.client.start run.stage).number = (other.client.start other.stage).number
    rw [number, number]
    exact agrees.alike.heard

private theorem stop (agrees : run.Agrees other) :
    Agrees ⟨(run.client.stop run.stage).2, (run.client.stop run.stage).1, run.waiting + 1, run.stopped⟩
      ⟨(other.client.stop other.stage).2, (other.client.stop other.stage).1, other.waiting + 1, other.stopped⟩ := by
  have plain {client : Client} {stage : Stage} (plain : client.Plain stage) :
      (client.stop stage).1.Plain (client.stop stage).2 := by
    have acts : client.Acts stage (client.stop stage).1 (client.stop stage).2 := .stop
    refine ⟨plain.consistent.acts acts, acts.pauses plain.pauses, ?_, fun _ => ?_⟩
    · obtain ⟨links, same⟩ := Client.stop_links client stage
      rw [same]
      exact plain.token
    · rw [Client.stop_eq]
  exact ⟨.of_alike (Alike.stop agrees.alike), plain agrees.plain, plain agrees.plain', congrArg (· + 1) agrees.waiting,
    agrees.stopped⟩

private theorem begin (agrees : run.Agrees other) {step : ScenarioStep} (uncancelled : step ≠ .cancel) :
    (run.begin step).1.Agrees (other.begin step).1 ∧ (run.begin step).2 = (other.begin step).2 := by
  have stages : run.stage.Like inMatter other.client.url run.stage other.stage := agrees.alike.stage
  have channels : run.stage.channel = other.stage.channel := stages.channel
  cases step with
  | look => exact ⟨agrees, rfl⟩
  | start => exact ⟨agrees.start, rfl⟩
  | cancel => exact absurd rfl uncancelled
  | stop => exact ⟨agrees.stop, rfl⟩
  | sleep millis =>
      have now : run.stage.now = other.stage.now := stages.now
      refine ⟨?_, rfl⟩
      simp only [ClientRun.begin, now]
      exact agrees.pass _ _
  | push name item times =>
      exact ⟨agrees.around (.push name item times) (.push name item times)
        (agrees.change_named name fun same => same.iterate (fun same => same.push item) times), rfl⟩
  | hangUp name =>
      exact ⟨agrees.around (.hangUp name) (.hangUp name) (agrees.change_named name Link.SameMatter.hangUp), rfl⟩
  | receive most =>
      have changes (stage : Stage) : stage.Changes (stage.receive most).2 := .receive most
      cases observed : other.stage.channel with
      | none =>
          have silent := channels.trans observed
          simp only [ClientRun.begin, Stage.receive, observed, silent]
          exact ⟨agrees, trivial⟩
      | some channel =>
          have heard := channels.trans observed
          have received (stage : Stage) (here : stage.channel = some channel) : stage.receive most =
              ((channel.receive most).1, { stage with channel := some (channel.receive most).2 }) := by
            simp only [Stage.receive, here]
          refine ⟨agrees.around (changes _) (changes _) ?_, ?_⟩
          · show AlikeInMatter (run.client, (run.stage.receive most).2) (other.client, (other.stage.receive most).2)
            rw [received _ heard, received _ observed]
            exact .of_alike (Alike.of_channel agrees.alike observed _)
          · simp only [ClientRun.begin, received _ heard, received _ observed]
  | closeReceiver =>
      refine ⟨agrees.around .closeReceiver .closeReceiver ?_, rfl⟩
      unfold Stage.closeReceiver
      rw [channels]
      cases observed : other.stage.channel with
      | none =>
          refine .of_alike ⟨agrees.alike.client, stages.of_channel none, .inl rfl⟩
      | some channel => exact .of_alike (Alike.of_channel agrees.alike observed _)

theorem apply (agrees : run.Agrees other) {step : ScenarioStep} (uncancelled : step ≠ .cancel) :
    (run.apply step).1.Agrees (other.apply step).1 ∧ (run.apply step).2 = (other.apply step).2 := by
  obtain ⟨begun, received⟩ := agrees.begin uncancelled
  rw [apply_eq, apply_eq]
  exact ⟨begun.settle, received⟩

/-- An inert frame may be sent in one of the runs, while the other one stands still. -/
theorem insert (agrees : run.Agrees other) (still : other.Still) {frame : List UInt8} (inert : isInert frame = true)
    (name : String) (times : Nat) : (run.apply (.push name (.ok frame) times)).1.Agrees other := by
  have nothing : ReadResult.matters (.ok frame) = false := by simp [ReadResult.matters, inert]
  have stages : run.stage.Like inMatter other.client.url run.stage other.stage := agrees.alike.stage
  have sent : AlikeInMatter (run.client, run.stage.push name (.ok frame) times) (other.client, other.stage) := by
    unfold Stage.push Stage.changeNamed
    cases Link.lastNamed? run.stage.links name with
    | none => exact agrees.alike
    | some link =>
        have changed := stages.change_link link fun {_ _} same => Link.SameMatter.iterate_inert same nothing times
        have unchanged : other.stage.changeLink link (fun held => held) = other.stage := by
          rw [Stage.changeLink, show (fun held : Link => held) = id from rfl, List.modify_id]
        rw [unchanged] at changed
        exact .of_alike ⟨agrees.alike.client, changed, agrees.alike.heard⟩
  have pushed : Agrees { run with stage := run.stage.push name (.ok frame) times } other :=
    agrees.around (.push name (.ok frame) times) (.time other.stage.now) sent
  have settled := pushed.settle
  rw [still.settle] at settled
  rw [apply_eq]
  exact settled

end Agrees

/-! ### Insertions -/

theorem received_append (run : ClientRun) (steps others : List ScenarioStep) :
    run.received (steps ++ others) = run.received steps ++ (run.play steps).received others := by
  induction steps generalizing run with
  | nil => rfl
  | cons step rest ih =>
      rw [List.cons_append, received, received, ih, List.append_assoc]
      rfl

private theorem received_push (run : ClientRun) (name : String) (item : ReadResult) (times : Nat)
    (steps : List ScenarioStep) :
    run.received (.push name item times :: steps) = (run.apply (.push name item times)).1.received steps := by
  have nothing : (run.apply (.push name item times)).2 = [] := rfl
  rw [received, nothing, List.nil_append]

namespace Agrees

theorem widened {step : ScenarioStep} {steps : List ScenarioStep} (widened : Widened step steps)
    (uncancelled : step ≠ .cancel) (agrees : run.Agrees other) (still : other.Still)
    (endless : other.client.options.endpoint.idleTimeout.millis = 0) :
    (run.play steps).Agrees (other.apply step).1 ∧ run.received steps = (other.apply step).2 := by
  -- by induction on the insertions, while the other run makes its one step
  induction widened generalizing run other with
  | same step =>
      obtain ⟨applied, received⟩ := agrees.apply uncancelled
      exact ⟨applied, (List.append_nil _).trans received⟩
  | before name times inert widened ih =>
      obtain ⟨applied, received⟩ := ih uncancelled (agrees.insert still inert name times) still endless
      rw [play_cons, received_push]
      exact ⟨applied, received⟩
  | @after step steps frame name times inert widened ih =>
      obtain ⟨applied, received⟩ := ih uncancelled agrees still endless
      rw [play_append, received_append, received_push, ClientRun.received, List.append_nil]
      exact ⟨applied.insert (still.apply step) inert name times, received⟩
  | @amidItems name item first second steps others widened widened' ih ih' =>
      obtain ⟨applied, received⟩ := ih (by simp) agrees still endless
      have endless' := endless
      rw [← (other.reaches_apply (.push name item first)).settings.1] at endless'
      obtain ⟨applied', received'⟩ := ih' (by simp) applied (still.apply (.push name item first)) endless'
      rw [play_append, received_append, still.push_append endless, received, received']
      exact ⟨applied', rfl⟩
  | @amidSleep first second steps others widened widened' ih ih' =>
      obtain ⟨applied, received⟩ := ih (by simp) agrees still endless
      have endless' := endless
      rw [← (other.reaches_apply (.sleep first)).settings.1] at endless'
      obtain ⟨applied', received'⟩ := ih' (by simp) applied (still.apply (.sleep first)) endless'
      rw [play_append, received_append, still.sleep_append, received, received']
      exact ⟨applied', rfl⟩

/-- A run into which inert frames have been inserted anywhere. -/
theorem play {steps : List ScenarioStep} {groups : List (List ScenarioStep)} (widened : List.Forall₂ Widened steps groups)
    (uncancelled : .cancel ∉ steps) (agrees : run.Agrees other) (still : other.Still)
    (endless : other.client.options.endpoint.idleTimeout.millis = 0) :
    (run.play groups.flatten).Agrees (other.play steps) ∧ run.received groups.flatten = other.received steps := by
  induction widened generalizing run other with
  | nil => exact ⟨agrees, rfl⟩
  | @cons step group steps groups widened rest ih =>
      have first : step ≠ .cancel := fun same => uncancelled (same ▸ List.mem_cons_self ..)
      have others : .cancel ∉ steps := fun member => uncancelled (List.mem_cons_of_mem _ member)
      obtain ⟨applied, received⟩ := agrees.widened widened first still endless
      have endless' := endless
      rw [← (other.reaches_apply step).settings.1] at endless'
      obtain ⟨played, received'⟩ := ih others applied (still.apply step) endless'
      rw [List.flatten_cons, play_append, received_append, received, received', play_cons, ClientRun.received]
      exact ⟨played, rfl⟩

end Agrees

/-! ### From the opening on -/

theorem agrees_make {stage : Stage} (opening : stage.Opening) {options : ClientOptions}
    (pauses : (stage.script options.endpoint.url).beyond.isSome = true → 0 < options.supervisorDelay.millis)
    (endless : options.endpoint.idleTimeout.millis = 0) (sink : SinkScript) :
    (make stage options sink).Agrees (make stage options sink) := by
  have still := still_make opening pauses sink
  have token : stage.tokenCancelled = false := by cases opening <;> rfl
  have plain : (make stage options sink).client.Plain stage :=
    ⟨still.consistent, pauses, token, fun cancelled => by cases cancelled⟩
  refine ⟨⟨?_, ?_, .inr rfl⟩, plain, plain, rfl, rfl⟩
  · exact ⟨rfl, rfl, rfl, rfl, rfl, .same .idle, rfl, rfl, rfl, fun _ => endless⟩
  · refine ⟨rfl, rfl, rfl, rfl, (DialScript.rename_id _).symm, fun number => ?_, rfl, fun _ _ => rfl, fun _ _ => rfl⟩
    change Option.Rel Link.SameMatter stage.links[number]? stage.links[number]?
    cases found : stage.links[number]? with
    | none => exact .none
    | some held =>
        have untaken := opening.takenFrom number
        rw [Stage.takenFrom, found] at untaken
        have inside : held.taken ≤ held.sent.length := Nat.le_trans (Nat.le_of_eq untaken) (Nat.zero_le _)
        exact .some ⟨rfl, rfl, rfl, rfl, inside, inside⟩

/-- Runs that differ in nothing but log records, the frames that are read and counted, and the errors in them. -/
structure SameEffects (run other : ClientRun) : Prop where
  now : run.stage.now = other.stage.now
  dials : run.client.dials = other.client.dials
  sinkCalls : run.client.sinkCalls = other.client.sinkCalls
  matter : run.client.matter = other.client.matter
  retryCount : run.client.retryCount = other.client.retryCount
  slot : run.client.slot = other.client.slot
  idle : run.client.isIdle = other.client.isIdle
  closes : ∀ link, run.stage.closesOf link = other.stage.closesOf link
  channel : run.stage.channel = other.stage.channel
  waiting : run.waiting = other.waiting
  stopped : run.stopped = other.stopped
  metrics : run.client.metrics.besidesFrames = other.client.metrics.besidesFrames

private theorem view_matter {α : Type} (view : Nat × Occurrence → Option α)
    (matters : ∀ entry, entry.2.matters = false → view entry = none) (client : Client) :
    client.matter.filterMap view = client.history.filterMap view := by
  rw [Client.matter, List.filterMap_filter]
  refine List.filterMap_congr fun entry _ => ?_
  split
  · rfl
  · next nothing => exact (matters entry (Bool.eq_false_iff.mpr nothing)).symm

theorem Agrees.sameEffects (agrees : run.Agrees other) : run.SameEffects other := by
  have clients : run.client.Like inMatter other.client := agrees.alike.client
  have stages : run.stage.Like inMatter other.client.url run.stage other.stage := agrees.alike.stage
  have matter : run.client.matter = other.client.matter := clients.history
  refine ⟨stages.now, ?_, ?_, matter, clients.retryCount, clients.slot.trans (Slot.rename_id _), clients.isIdle,
    fun link => ?_, stages.channel, agrees.waiting, agrees.stopped, clients.metrics⟩
  · unfold Client.dials
    rw [← view_matter _ ?_ run.client, ← view_matter _ ?_ other.client, matter]
    all_goals
      rintro ⟨time, occurrence⟩ nothing
      cases occurrence <;> first | rfl | cases nothing
  · unfold Client.sinkCalls
    rw [← view_matter _ ?_ run.client, ← view_matter _ ?_ other.client, matter]
    all_goals
      rintro ⟨time, occurrence⟩ nothing
      cases occurrence <;> first | rfl | cases nothing
  · have links : Option.Rel Link.SameMatter run.stage.links[link]? other.stage.links[link]? := stages.links link
    unfold Stage.closesOf
    generalize run.stage.links[link]? = here at links
    generalize other.stage.links[link]? = there at links
    cases links with
    | none => rfl
    | some same => exact same.closes

/-- Inert frames that are inserted anywhere into what is sent to a client without an idle timeout change nothing of
its run but log records and the counts of frames and of errors in them, whatever else the steps do, as long as the
token is not cancelled. -/
theorem inert_frames_change_nothing {stage : Stage} (opening : stage.Opening) {options : ClientOptions}
    (pauses : (stage.script options.endpoint.url).beyond.isSome = true → 0 < options.supervisorDelay.millis)
    (endless : options.endpoint.idleTimeout.millis = 0) (sink : SinkScript) {steps : List ScenarioStep}
    (uncancelled : .cancel ∉ steps) {groups : List (List ScenarioStep)} (widened : List.Forall₂ Widened steps groups)
    (count : Nat) :
    let fresh := make stage options sink
    (fresh.play (groups.take count).flatten).SameEffects (fresh.play (steps.take count)) ∧
      fresh.received (groups.take count).flatten = fresh.received (steps.take count) := by
  intro fresh
  have agrees := agrees_make opening pauses endless sink
  obtain ⟨played, received⟩ := agrees.play (List.forall₂_take count widened)
    (fun member => uncancelled (List.mem_of_mem_take member)) (still_make opening pauses sink) endless
  exact ⟨played.sameEffects, received⟩

/-- A malformed frame before the dial, empty ones between two confirmations, one of another version in the middle of a
sleep, and an empty one after the stop: more frames are counted, and all else is the same. -/
theorem inert_frames_change_nothing_around_confirmations :
    let stage := Stage.planned [("ws://feed", [⟨.connect "first", 0, false⟩])] (some 1)
    let fresh := make stage ((ClientOptions.standard "ws://feed").withIdleTimeout (.ofSeconds 0)) ⟨false, 0⟩
    let steps : List ScenarioStep :=
      [.start, .push "first" (.ok (confirmationFrame 7)) 2, .sleep 3000, .receive none, .stop]
    let groups : List (List ScenarioStep) :=
      [[.push "first" (.ok malformedFrame) 1, .start],
        [.push "first" (.ok (confirmationFrame 7)) 1, .push "first" (.ok []) 3,
          .push "first" (.ok (confirmationFrame 7)) 1],
        [.sleep 1000, .push "first" (.ok (versionedBatchFrame 2 5 [.null])) 1, .sleep 2000], [.receive none],
        [.stop, .push "first" (.ok []) 1]]
    (fresh.play groups.flatten).SameEffects (fresh.play steps) ∧ fresh.received groups.flatten = [7] ∧
      (fresh.play steps).client.metrics.frames = 2 ∧ (fresh.play groups.flatten).client.metrics.frames = 4 := by
  intro stage fresh steps groups
  have opening : stage.Opening := .planned ..
  have pauses : (stage.script ((ClientOptions.standard "ws://feed").withIdleTimeout (.ofSeconds 0)).endpoint.url).beyond.isSome =
      true → 0 < ((ClientOptions.standard "ws://feed").withIdleTimeout (.ofSeconds 0)).supervisorDelay.millis := by decide
  have endless : ((ClientOptions.standard "ws://feed").withIdleTimeout (.ofSeconds 0)).endpoint.idleTimeout.millis = 0 := rfl
  have first : Widened .start [.push "first" (.ok malformedFrame) 1, .start] :=
    .before "first" 1 (by decide +kernel) (.same .start)
  have items : Widened (.push "first" (.ok (confirmationFrame 7)) (1 + 1))
      ([.push "first" (.ok (confirmationFrame 7)) 1] ++
        [.push "first" (.ok []) 3, .push "first" (.ok (confirmationFrame 7)) 1]) :=
    .amidItems (.same _) (.before "first" 3 (by decide) (.same _))
  have sleep : Widened (.sleep (1000 + 2000))
      ([.sleep 1000] ++ [.push "first" (.ok (versionedBatchFrame 2 5 [.null])) 1, .sleep 2000]) :=
    .amidSleep (.same _) (.before "first" 1 (by decide +kernel) (.same _))
  have last : Widened .stop ([.stop] ++ [.push "first" (.ok []) 1]) := .after "first" 1 (by decide) (.same .stop)
  have widened : List.Forall₂ Widened steps groups :=
    .cons first (.cons items (.cons sleep (.cons (.same (.receive none)) (.cons last .nil))))
  obtain ⟨effects, received⟩ :=
    inert_frames_change_nothing opening pauses endless ⟨false, 0⟩ (by simp [steps]) widened 5
  obtain ⟨seven, counted, counted'⟩ : fresh.received steps = [7] ∧ (fresh.play steps).client.metrics.frames = 2 ∧
      (fresh.play groups.flatten).client.metrics.frames = 4 := by decide +kernel
  exact ⟨effects, received.trans seven, counted, counted'⟩

end ClientRun

end SequencedFeed
