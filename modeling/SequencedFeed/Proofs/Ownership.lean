import Mathlib.Data.List.Perm.Subperm
import SequencedFeed.Proofs.Consistency
set_option autoImplicit false

/-!
# Every connection has one owner

A connection comes from one dial. It is either held or closed, and closed once, whether the slot refused it,
a failed read discarded it, or a stop released it. Two accounts are kept along a run: one of connections,
which also covers those that dials are still to give, and one of dials.
-/

namespace SequencedFeed

namespace Client

variable {client client' : Client} {stage stage' : Stage}

/-! ### The account of connections -/

/-- The connections that dials may still give, the dial in progress included. -/
def unborn (client : Client) (stage : Stage) : List Nat :=
  client.phase.brings?.toList ++ stage.pending

/-- The account of connections: a dial gives a connection at most once, and exactly those that were given
and are not held have been closed, once. -/
structure Accounts (client : Client) (stage : Stage) : Prop where
  unique : (client.handed ++ client.unborn stage).Nodup
  held : ∀ link, client.slot.held = some link → link ∈ client.handed
  closes : ∀ link, stage.closesOf link =
    if link ∈ client.handed ∧ client.slot.held ≠ some link then 1 else 0
  gauge : client.metrics.active = if client.isConnected then 1 else 0

private theorem nodup_of_subperm {given free free' : List Nat} (unique : (given ++ free).Nodup)
    (less : free'.Subperm free) : (given ++ free').Nodup := by
  obtain ⟨kept, same, sub⟩ := less
  exact (same.append_left given).nodup_iff.mp (unique.sublist (sub.append_left given))

/-- What gives and closes no connection may only lose sight of a dial. -/
theorem Accounts.keep (accounts : client.Accounts stage) (handed : client'.handed = client.handed)
    (held : client'.slot.held = client.slot.held)
    (gauge : client'.metrics.active = client.metrics.active)
    (unborn : (client'.unborn stage').Subperm (client.unborn stage))
    (closes : ∀ link, stage'.closesOf link = stage.closesOf link) : client'.Accounts stage' where
  unique := handed ▸ nodup_of_subperm accounts.unique unborn
  held := by rw [held, handed]; exact accounts.held
  closes := by
    intro link
    rw [closes, handed, held]
    exact accounts.closes link
  gauge := by rw [gauge, isConnected, held]; exact accounts.gauge

theorem Accounts.release (accounts : client.Accounts stage) (consistent : client.Consistent stage)
    (handed : client'.handed = client.handed) (held : client'.slot.held = none)
    (gauge : client'.metrics.active = (client.metrics.released client.slot.held).active)
    (unborn : (client'.unborn stage).Subperm (client.unborn stage)) :
    client'.Accounts (stage.closeHeld client.slot.held) where
  unique := by
    have same : client'.unborn (stage.closeHeld client.slot.held) = client'.unborn stage := by
      cases client.slot.held <;> rfl
    rw [same, handed]
    exact nodup_of_subperm accounts.unique unborn
  held := by rw [held]; exact nofun
  closes := by
    intro link
    rw [Stage.closesOf_closeHeld consistent.held, accounts.closes, handed, held]
    by_cases here : client.slot.held = some link
    · simp [here, accounts.held link here]
    · simp [here]
  gauge := by
    rw [gauge, isConnected, held]
    have before := accounts.gauge
    cases here : client.slot.held with
    | none => rwa [isConnected, here] at before
    | some link =>
        rw [isConnected, here, Option.isSome_some, if_pos rfl] at before
        simp [Metrics.released, Metrics.connectionClosed, Metrics.active] at before ⊢
        omega

theorem Accounts.around (accounts : client.Accounts stage) (grows : stage.Grows stage') :
    client.Accounts stage' := by
  refine accounts.keep rfl rfl rfl ?_ grows.closes
  rw [unborn, unborn, Stage.pending, Stage.pending, grows.scripts]

theorem Accounts.make (opening : stage.Opening) (number : Nat) (options : ClientOptions)
    (sink : SinkScript) : (Client.make number options sink).Accounts stage where
  unique := opening.pending_nodup
  held := nofun
  closes := opening.closesOf
  gauge := rfl

theorem Accounts.stop (accounts : client.Accounts stage) (consistent : client.Consistent stage) :
    (client.stop stage).1.Accounts (client.stop stage).2 := by
  rw [stop_eq]
  refine accounts.release consistent ?_ rfl rfl (.refl _)
  exact seen_log Occurrence.handed? (fun _ => rfl) _ _ _

theorem unborn_of_undialled (undialled : client.phase.dial? = none) :
    client.unborn stage = stage.pending := by
  rw [unborn, Phase.brings_of_undialled undialled]
  rfl

theorem unborn_subperm (undialled : client'.phase.dial? = none) (scripts : stage'.scripts = stage.scripts) :
    (client'.unborn stage').Subperm (client.unborn stage) := by
  rw [unborn_of_undialled undialled, Stage.pending, scripts]
  exact (List.sublist_append_right ..).subperm

theorem Accounts.fresh (accounts : client.Accounts stage) {link : Nat}
    (brought : client.phase.brings? = some link) : link ∉ client.handed := by
  have unborn : link ∈ client.unborn stage := by
    rw [Client.unborn, brought]
    exact List.mem_cons_self ..
  exact fun member => (List.nodup_append.mp accounts.unique).2.2 link member link unborn rfl

/-- The connection that a dial has given is either held from now on or closed. -/
private theorem Accounts.takes (accounts : client.Accounts stage) {link : Nat}
    (brought : client.phase.brings? = some link) (empty : client.slot.held = none)
    (handed : client'.handed = client.handed ++ [link]) (undialled : client'.phase.dial? = none)
    (pending : stage'.pending = stage.pending)
    (taken : client'.slot.held = some link ∧ (∀ other, stage'.closesOf other = stage.closesOf other) ∧
        client'.metrics.active = client.metrics.active + 1 ∨
      client'.slot.held = none ∧
        (∀ other, stage'.closesOf other = stage.closesOf other + if other = link then 1 else 0) ∧
        client'.metrics.active = client.metrics.active) : client'.Accounts stage' := by
  have unique : (client.handed ++ link :: stage.pending).Nodup := by
    have unique := accounts.unique
    rwa [unborn, brought] at unique
  have fresh := accounts.fresh brought
  have gauge := accounts.gauge
  rw [isConnected, empty, Option.isSome_none, if_neg Bool.false_ne_true] at gauge
  refine { unique := ?_, held := ?_, closes := ?_, gauge := ?_ }
  · rw [unborn_of_undialled undialled, pending, handed, List.append_assoc]
    exact unique
  · intro other held
    rcases taken with ⟨held', -⟩ | ⟨held', -⟩
    · obtain rfl := Option.some.inj (held'.symm.trans held)
      rw [handed]
      exact List.mem_append_right _ (List.mem_singleton_self link)
    · rw [held'] at held
      cases held
  · intro other
    rw [handed]
    rcases taken with ⟨held, closes, -⟩ | ⟨held, closes, -⟩
    · rw [closes, accounts.closes, empty, held]
      by_cases same : other = link
      · simp [same, fresh]
      · simp [same, Ne.symm same]
    · rw [closes, accounts.closes, empty, held]
      by_cases same : other = link
      · simp [same, fresh]
      · simp [same]
  · rcases taken with ⟨held, -, active⟩ | ⟨held, -, active⟩
    · rw [active, gauge, isConnected, held]
      rfl
    · rw [active, gauge, isConnected, held]
      rfl

private theorem Accounts.endsDial (accounts : client.Accounts stage) (consistent : client.Consistent stage)
    {episode : Episode} {ends : DialEnd} {stops : Bool} {due : Nat}
    (here : client.phase = .dialling episode ends stops due)
    (ended : EndsDial client stage episode ends client' stage') : client'.Accounts stage' := by
  have empty := consistent.phase.empty (by rw [here]; rfl)
  cases ended with
  | @install link next around isOpen changed =>
      obtain ⟨rfl, rfl⟩ := changeSlot_install changed isOpen empty
      have brought : client.phase.brings? = some link := by rw [here]; rfl
      refine accounts.takes brought empty ?_ (phaseAfterDial_undialled ..) rfl
        (.inl ⟨rfl, fun _ => rfl, rfl⟩)
      simp [handed, Occurrence.handed?]
  | @refuse link stopped =>
      have brought : client.phase.brings? = some link := by rw [here]; rfl
      have inside := consistent.phase.brings link brought
      refine accounts.takes brought empty ?_ (phaseAfterDial_undialled ..) rfl
        (.inr ⟨empty, fun _ => Stage.closesOf_close inside, rfl⟩)
      simp [handed, Occurrence.handed?]
  | fail =>
      refine accounts.keep ?_ rfl rfl ?_ fun _ => rfl
      · simp [handed, Occurrence.handed?]
      · rw [unborn_of_undialled (phaseAfterFailure_plain ..).1, unborn, here]
        exact .refl _

theorem Accounts.beforeOutcome (accounts : client.Accounts stage)
    (consistent : client.Consistent stage) (stops : Bool) :
    (client.beforeOutcome stage stops).1.Accounts (client.beforeOutcome stage stops).2 := by
  cases stops with
  | false => exact accounts
  | true =>
      have asked : client.Accounts { stage with stopAsked := true } :=
        accounts.keep rfl rfl rfl (.refl _) fun _ => rfl
      exact asked.stop (consistent.later (.of_eq rfl rfl))

private theorem TakesFrame.active {now : Nat} {frame : List UInt8}
    (takes : client.TakesFrame now frame client') : client'.metrics.active = client.metrics.active := by
  cases takes with
  | blank empty => rfl
  | undecodable filled refused => rfl
  | pass filled decoded uncalled next => rfl
  | apply filled decoded called => rfl

private theorem FailsRead.scripts {link since : Nat} {error : TransportError}
    (fails : client.FailsRead stage link since error stage') : stage'.scripts = stage.scripts := by
  obtain ⟨links, rfl⟩ := fails.links
  rfl

theorem Accounts.moves (accounts : client.Accounts stage) (consistent : client.Consistent stage)
    (moves : client.Moves stage client' stage') : client'.Accounts stage' := by
  have looks := handed_looksAtDials
  have moved := moves
  cases moves with
  | pass passes => exact accounts.keep rfl rfl rfl (unborn_subperm passes.undialled rfl) fun _ => rfl
  | skipCancelled here enabled isOpen cancelled =>
      exact accounts.keep (seen_log _ looks.log _ _ _) rfl rfl
        (unborn_subperm (phaseAfterDial_undialled ..) rfl) fun _ => rfl
  | @dial episode outcome _ here enabled isOpen going next =>
      have links : stage'.links = stage.links := (congrArg (fun found => found.2.links) next).symm
      refine accounts.keep ?_ rfl rfl ?_ fun link => by simp only [Stage.closesOf, links]
      · simp [handed, Occurrence.handed?]
      · -- what the script gives away is what the phase will bring
        have gives := Stage.nextOutcome_pending next
        rw [← brings_phase outcome episode stage.now] at gives
        exact gives.subperm.trans (List.sublist_append_right ..).subperm
  | endDial here going late ended =>
      exact (accounts.beforeOutcome consistent _).endsDial (consistent.beforeOutcome _)
        ((beforeOutcome_phase _).trans here) ended
  | takeFrame here reads takes =>
      obtain ⟨unseeking, -, -, -, -, -, slot⟩ := takes.settled
      exact accounts.keep (moved.seen_dials looks (by rw [here]; rfl)) (congrArg Slot.held slot)
        takes.active (unborn_subperm (Phase.undialled_of_unseeking unseeking) reads.scripts) reads.closes
  | endReading here fails stopping =>
      exact accounts.keep (moved.seen_dials looks (by rw [here]; rfl)) rfl rfl
        (unborn_subperm rfl fails.scripts) fails.closes
  | @drop link since error around next last here fails going changed =>
      have handed := moved.seen_dials looks (by rw [here]; rfl)
      have held := consistent.held_of_reading here (going_of_shouldStop going).2
      obtain ⟨rfl, rfl⟩ := changeSlot_discard changed held
      have read : client.Accounts around :=
        accounts.keep rfl rfl rfl (unborn_subperm (by rw [here]; rfl) fails.scripts) fails.closes
      rw [← held]
      refine read.release (consistent.later fails.later) handed rfl ?_ (unborn_subperm rfl rfl)
      rw [held]
      rfl
  | reconnect here unconnected going =>
      exact accounts.keep (moved.seen_dials looks (by rw [here]; rfl)) rfl rfl (unborn_subperm rfl rfl)
        fun _ => rfl
  | @endSink start due mark here late =>
      have slot := endSink_slot client stage.now start mark
      have undialled : (client.endSink stage.now start mark).phase.dial? = none := by
        rw [endSink_phase]
        cases mark <;> rfl
      refine accounts.keep (moved.seen_dials looks (by rw [here]; rfl))
        (congrArg Slot.held slot) ?_ (unborn_subperm undialled rfl) fun _ => rfl
      rw [endSink_metrics]
      split
      · exact Metrics.errorOccurred_active ..
      · rfl
  | getInLine here observed sent =>
      exact accounts.keep rfl rfl rfl (unborn_subperm rfl rfl) fun _ => rfl
  | @endSend mark how channel channel' observed ends =>
      obtain ⟨-, -, -, -, -, slot, -, metrics⟩ := endSend_kept client stage.now mark how
      have undialled : (client.endSend stage.now mark how).phase.dial? = none := by
        rw [endSend_phase]
        rfl
      refine accounts.keep (moved.seen_dials looks ends.unseeking) (congrArg Slot.held slot) ?_
        (unborn_subperm undialled rfl) fun _ => rfl
      rw [metrics]
      exact Metrics.meter_active ..

theorem Accounts.acts (accounts : client.Accounts stage) (consistent : client.Consistent stage)
    (acts : client.Acts stage client' stage') : client'.Accounts stage' := by
  cases acts with
  | start starts =>
      cases starts with
      | report barred =>
          exact accounts.keep (seen_log Occurrence.handed? (fun _ => rfl) _ _ _) rfl rfl (.refl _)
            fun _ => rfl
      | first enabled unstarted =>
          exact accounts.keep rfl rfl rfl (unborn_subperm rfl rfl) fun _ => rfl
  | cancel => exact accounts.keep rfl rfl rfl (.refl _) fun _ => rfl
  | stop => exact accounts.stop consistent
  | move moves =>
      obtain ⟨next, around, moved, rfl, rfl⟩ := moves_of_move moves
      exact (accounts.moves consistent moved).keep rfl rfl rfl (.refl _) fun _ => rfl

/-! ### The account of dials -/

/-- The account of dials: one that is in progress is the only one that has not ended, and one that was
abandoned was the last. -/
structure Dials (client : Client) : Prop where
  inside : ∀ episode, client.phase.dial? = some episode → client.dialsBegun = client.dialsEnded + 1
  outside : client.phase.dial? = none → client.dialsBegun = client.dialsEnded ∨
    client.dialsBegun = client.dialsEnded + 1 ∧ client.started = true ∧ client.cancelled = true ∧
      client.slot.held = none

theorem Dials.keep (dials : client.Dials) (begun : client'.dialsBegun = client.dialsBegun)
    (ended : client'.dialsEnded = client.dialsEnded) (phase : client'.phase.dial? = client.phase.dial?)
    (abandoned : client.started = true → client.cancelled = true → client.slot.held = none →
      client'.started = true ∧ client'.cancelled = true ∧ client'.slot.held = none) : client'.Dials where
  inside := by rw [begun, ended, phase]; exact dials.inside
  outside := by
    rw [begun, ended, phase]
    intro undialled
    rcases dials.outside undialled with balance | ⟨left, started, cancelled, empty⟩
    · exact .inl balance
    · exact .inr ⟨left, abandoned started cancelled empty⟩

theorem Dials.stop (dials : client.Dials) : (client.stop stage).1.Dials := by
  rw [stop_eq]
  refine dials.keep ?_ ?_ rfl fun started cancelled _ => ⟨started, by rw [cancelled]; rfl, rfl⟩
  · exact congrArg List.length (seen_log _ dial_looksAtDials.log _ _ _)
  · exact congrArg List.length (seen_log _ dialEnd_looksAtDials.log _ _ _)

private theorem EndsDial.balance {episode : Episode} {ends : DialEnd}
    (inside : client.dialsBegun = client.dialsEnded + 1)
    (ended : EndsDial client stage episode ends client' stage') :
    client'.dialsBegun = client'.dialsEnded ∧ client'.phase.dial? = none := by
  unfold dialsBegun dialsEnded at inside ⊢
  cases ended with
  | install isOpen changed =>
      obtain ⟨metrics, rfl⟩ := changeSlot_kept changed
      exact ⟨by simpa [Occurrence.dial?, Occurrence.dialEnd?] using inside, phaseAfterDial_undialled ..⟩
  | refuse stopped =>
      exact ⟨by simpa [Occurrence.dial?, Occurrence.dialEnd?] using inside, phaseAfterDial_undialled ..⟩
  | fail =>
      exact ⟨by simpa [Occurrence.dial?, Occurrence.dialEnd?] using inside, (phaseAfterFailure_plain ..).1⟩

theorem Dials.moves (dials : client.Dials) (consistent : client.Consistent stage)
    (moves : client.Moves stage client' stage') : client'.Dials := by
  have keeps := moves.keeps
  have abandoned (started : client.started = true) (cancelled : client.cancelled = true)
      (empty : client.slot.held = none) :
      client'.started = true ∧ client'.cancelled = true ∧ client'.slot.held = none :=
    ⟨keeps.started.trans started, keeps.cancelled cancelled, moves.stays_empty cancelled empty⟩
  have aside (unseeking : client.phase.isSeeking = false) : client'.Dials := by
    have undialled := Phase.undialled_of_unseeking unseeking
    exact dials.keep (congrArg List.length (moves.seen_dials dial_looksAtDials unseeking))
      (congrArg List.length (moves.seen_dials dialEnd_looksAtDials unseeking))
      ((moves.undialled unseeking).trans undialled.symm) abandoned
  cases moves with
  | pass passes =>
      cases inside : client.phase.dial? with
      | none => exact dials.keep rfl rfl (passes.undialled.trans inside.symm) abandoned
      | some episode =>
          have abandoned : client.started = true ∧ client.cancelled = true ∧ client.slot.held = none :=
            ⟨consistent.phase.started passes.task, passes.cancelled_of_dial inside,
              consistent.phase.empty (Phase.isSeeking_of_dial inside)⟩
          exact
            { inside := fun episode again => by
                rw [enter_phase, passes.undialled] at again
                cases again
              outside := fun _ => .inr ⟨dials.inside episode inside, abandoned⟩ }
  | skipCancelled here enabled isOpen cancelled =>
      refine dials.keep ?_ ?_ ((phaseAfterDial_undialled ..).trans (by rw [here]; rfl)) abandoned
      · exact congrArg List.length (seen_log _ dial_looksAtDials.log _ _ _)
      · exact congrArg List.length (seen_log _ dialEnd_looksAtDials.log _ _ _)
  | @dial episode outcome _ here enabled isOpen going next =>
      have balance : client.dialsBegun = client.dialsEnded := by
        rcases dials.outside (by rw [here]; rfl) with balance | ⟨-, -, cancelled, -⟩
        · exact balance
        · rw [going] at cancelled
          cases cancelled
      have begun := dial_phase outcome episode stage.now
      refine { inside := fun _ _ => ?_, outside := fun undialled => ?_ }
      · unfold dialsBegun dialsEnded at balance ⊢
        simpa [Occurrence.dial?, Occurrence.dialEnd?] using balance
      · rw [enter_phase, begun] at undialled
        cases undialled
  | @endDial episode ends stops due _ _ here going late ended =>
      have before : (client.beforeOutcome stage stops).1.Dials := by
        cases stops with
        | false => exact dials
        | true => exact dials.stop
      have inside := before.inside episode (by rw [beforeOutcome_phase, here]; rfl)
      obtain ⟨balance, undialled⟩ := ended.balance inside
      refine { inside := fun _ again => ?_, outside := fun _ => .inl balance }
      rw [undialled] at again
      cases again
  | takeFrame here reads takes => exact aside (by rw [here]; rfl)
  | endReading here fails stopping => exact aside (by rw [here]; rfl)
  | drop here fails going changed => exact aside (by rw [here]; rfl)
  | reconnect here unconnected going => exact aside (by rw [here]; rfl)
  | endSink here late => exact aside (by rw [here]; rfl)
  | getInLine here observed sent => exact aside (by rw [here]; rfl)
  | endSend observed ends => exact aside ends.unseeking

theorem Dials.acts (dials : client.Dials) (consistent : client.Consistent stage)
    (acts : client.Acts stage client' stage') : client'.Dials := by
  cases acts with
  | start starts =>
      cases starts with
      | report barred =>
          refine dials.keep ?_ ?_ rfl fun started cancelled empty => ⟨started, cancelled, empty⟩
          · exact congrArg List.length (seen_log _ dial_looksAtDials.log _ _ _)
          · exact congrArg List.length (seen_log _ dialEnd_looksAtDials.log _ _ _)
      | first enabled unstarted =>
          have idle : client.phase.dial? = none := by
            by_cases task : client.phase = .idle
            · rw [task]; rfl
            · rw [consistent.phase.started task] at unstarted
              cases unstarted
          refine dials.keep rfl rfl idle.symm fun started _ _ => ?_
          rw [unstarted] at started
          cases started
  | cancel =>
      exact dials.keep rfl rfl rfl fun started cancelled empty =>
        ⟨started, by rw [cancel, cancelled]; rfl, empty⟩
  | stop => exact dials.stop
  | move moves =>
      obtain ⟨next, around, moved, rfl, rfl⟩ := moves_of_move moves
      exact (dials.moves consistent moved).keep rfl rfl rfl fun started cancelled empty =>
        ⟨started, cancelled, empty⟩

end Client

namespace ClientRun.Reachable

variable {run : ClientRun}

theorem accounts (reachable : run.Reachable) : run.client.Accounts run.stage :=
  reachable.invariant Client.Accounts (fun _ options sink opening => .make opening 0 options sink)
    (fun before accounts acts => accounts.acts before.consistent acts)
    (fun accounts changes => accounts.around changes.grows)

theorem dials (reachable : run.Reachable) : run.client.Dials :=
  reachable.invariant (fun client _ => client.Dials) (fun _ _ _ _ => ⟨nofun, fun _ => .inl rfl⟩)
    (fun before dials acts => dials.acts before.consistent acts) (fun dials _ => dials)

/-- In every reachable state, a client that holds a connection has no dial in progress, and never more than
one is. Exactly the connections that dials gave and the slot does not hold have been closed, each once. No
move begins a read on a closed connection, and the gauge shows whether a connection is held. -/
theorem one_owner (reachable : run.Reachable) :
    (run.client.isConnected = true →
      run.client.phase.dial? = none ∧ run.client.dialsBegun = run.client.dialsEnded) ∧
    run.client.dialsBegun ≤ run.client.dialsEnded + 1 ∧
    (∀ link, run.client.slot.held = some link →
      link ∈ run.client.handed ∧ link < run.stage.links.length) ∧
    (∀ link ∈ run.client.handed,
      run.stage.closesOf link = if run.client.slot.held = some link then 0 else 1) ∧
    (∀ client stage link since, run.client.move? run.stage = some (client, stage) →
      client.phase = .reading link since → run.stage.closesOf link = 0) ∧
    run.client.metrics.active = if run.client.isConnected then 1 else 0 := by
  have consistent := reachable.consistent
  have accounts := reachable.accounts
  have dials := reachable.dials
  have closes (link : Nat) (member : link ∈ run.client.handed) :
      run.stage.closesOf link = if run.client.slot.held = some link then 0 else 1 := by
    rw [accounts.closes]
    by_cases held : run.client.slot.held = some link
    · simp [held]
    · simp [held, member]
  refine ⟨?_, ?_, ?_, closes, ?_, accounts.gauge⟩
  · intro connected
    have undialled : run.client.phase.dial? = none := by
      cases inside : run.client.phase.dial? with
      | none => rfl
      | some episode =>
          rw [Client.isConnected, consistent.phase.empty (Phase.isSeeking_of_dial inside)] at connected
          cases connected
    refine ⟨undialled, ?_⟩
    rcases dials.outside undialled with balance | ⟨-, -, -, empty⟩
    · exact balance
    · rw [Client.isConnected, empty] at connected
      cases connected
  · cases inside : run.client.phase.dial? with
    | none =>
        rcases dials.outside inside with balance | ⟨left, -⟩
        · omega
        · omega
    | some episode =>
        have left := dials.inside episode inside
        omega
  · exact fun link held => ⟨accounts.held link held, consistent.held link held⟩
  · intro client stage link since moved reading
    obtain ⟨next, around, moves, rfl, rfl⟩ := Client.moves_of_move moved
    have held := moves.held_of_reading reading
    rw [closes link (accounts.held link held), if_pos held]

/-- A connection failed, and the client holds the one after it. -/
theorem one_owner_after_reconnect :
    let run := (make (Stage.planned
      [("ws://feed", [⟨.connect "first", 0, false⟩, ⟨.connect "second", 5, false⟩])] none)
      (ClientOptions.standard "ws://feed") ⟨false, 0⟩).play
        [.start, .push "first" (.error scriptedFailure) 1, .sleep 2000]
    run.client.handed = [0, 1] ∧ run.client.slot.held = some 1 ∧ run.stage.closesOf 0 = 1 ∧
      run.stage.closesOf 1 = 0 ∧ run.client.metrics.active = 1 := by
  intro run
  have handed : run.client.handed = [0, 1] := by decide
  have held : run.client.slot.held = some 1 := by decide
  have reachable : run.Reachable := reachable_play (.planned ..) _ _ _
  obtain ⟨-, -, -, closes, -, gauge⟩ := one_owner reachable
  refine ⟨handed, held, ?_, ?_, ?_⟩
  · rw [closes 0 (by rw [handed]; decide), held]
    rfl
  · rw [closes 1 (by rw [handed]; decide), held]
    rfl
  · rw [gauge, Client.isConnected, held]
    rfl

end ClientRun.Reachable

end SequencedFeed
