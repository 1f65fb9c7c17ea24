import SequencedFeed.Envelope.Text
import SequencedFeed.Proofs.Ownership
import SequencedFeed.Proofs.Rest
set_option autoImplicit false

/-!
# Frames reach the sink once and in order

The sink calls of a client are those that the frames it has read lead to, connection by connection and in
order. What was read from a connection is the beginning of what was sent on it, and it ends where the
connection failed. The invariant ties the history to what has been taken from the connections.
-/

namespace SequencedFeed

namespace Client

variable {client client' : Client} {stage stage' : Stage}

def framesRead (client : Client) (link : Nat) : List (List UInt8) :=
  ((seen Occurrence.frame? client.history).filter fun entry => entry.1 = link).map Prod.snd

/-- The reading so far: what was read is grouped by connection in the order of the installations, it is
the beginning of what was sent, and it has led to all the sink calls. While the task goes on, nothing but
frames has been taken from the connection that is held. -/
structure Delivers (client : Client) (stage : Stage) : Prop where
  calls : seen Occurrence.call? client.history =
    (seen Occurrence.frame? client.history).filterMap fun entry => SinkCall.ofFrame? entry.2
  grouped : seen Occurrence.frame? client.history =
    client.installs.flatMap fun link => (client.framesRead link).map (Prod.mk link)
  distinct : client.installs.Nodup
  given : ∀ link ∈ client.installs, link ∈ client.handed
  last : ∀ link, client.slot.held = some link → client.installs.getLast? = some link
  sent : ∀ link, (client.framesRead link).map Except.ok <+: stage.sentOn link
  untouched : ∀ link, link ∉ client.installs → stage.takenFrom link = 0
  clean : ∀ link, client.slot.held = some link → client.phase ≠ .idle →
    stage.takenFrom link = (client.framesRead link).length
  returned : (seen Occurrence.call? client.history).length =
    (seen Occurrence.sinkReturn? client.history).length + if client.phase.isSinking then 1 else 0

/-- What installs nothing, reads no frame and begins no sink call. -/
theorem Delivers.keep (delivers : client.Delivers stage)
    (seen : ∀ {α : Type} {view : Occurrence → Option α}, LooksAtFrames view →
      (∀ failed, view (.sinkReturned failed) = none) →
        seen view client'.history = seen view client.history)
    (returned : (SequencedFeed.seen Occurrence.sinkReturn? client'.history).length +
        (if client'.phase.isSinking then 1 else 0) =
      (SequencedFeed.seen Occurrence.sinkReturn? client.history).length +
        if client.phase.isSinking then 1 else 0)
    (history : client.history <:+ client'.history)
    (held : ∀ link, client'.slot.held = some link → client.slot.held = some link)
    (task : client'.phase ≠ .idle → client.phase ≠ .idle ∨ client'.slot.held = none)
    (sent : ∀ link, stage.sentOn link <+: stage'.sentOn link)
    (taken : ∀ link, link ∉ client.installs ∨ client'.slot.held = some link ∧ client'.phase ≠ .idle →
      stage'.takenFrom link = stage.takenFrom link) : client'.Delivers stage' := by
  have installs : client'.installs = client.installs :=
    seen installed_looksAtFrames fun _ => rfl
  have frames := seen frame_looksAtFrames fun _ => rfl
  have calls := seen call_looksAtFrames fun _ => rfl
  have framesRead (link : Nat) : client'.framesRead link = client.framesRead link := by
    rw [Client.framesRead, frames, Client.framesRead]
  exact
    { calls := by rw [calls, frames, delivers.calls]
      grouped := by simp only [frames, installs, framesRead, ← delivers.grouped]
      distinct := installs ▸ delivers.distinct
      given := fun link member => by
        rw [installs] at member
        exact (seen_prefix_of_suffix _ history).subset (delivers.given link member)
      last := fun link here => by rw [installs]; exact delivers.last link (held link here)
      sent := fun link => by rw [framesRead]; exact (delivers.sent link).trans (sent link)
      untouched := fun link absent => by
        rw [installs] at absent
        rw [taken link (.inl absent), delivers.untouched link absent]
      clean := fun link here going => by
        have before : client.phase ≠ .idle := by
          rcases task going with before | empty
          · exact before
          · rw [empty] at here
            cases here
        rw [taken link (.inr ⟨here, going⟩), framesRead, delivers.clean link (held link here) before]
      returned := by rw [calls, delivers.returned, returned] }

theorem Delivers.aside (delivers : client.Delivers stage)
    (seen : ∀ {α : Type} {view : Occurrence → Option α}, LooksAtFrames view →
      seen view client'.history = seen view client.history)
    (sinking : client'.phase.isSinking = client.phase.isSinking)
    (history : client.history <:+ client'.history)
    (held : ∀ link, client'.slot.held = some link → client.slot.held = some link)
    (task : client'.phase ≠ .idle → client.phase ≠ .idle ∨ client'.slot.held = none)
    (sent : ∀ link, stage'.sentOn link = stage.sentOn link)
    (taken : ∀ link, stage'.takenFrom link = stage.takenFrom link) : client'.Delivers stage' := by
  refine delivers.keep (fun looks _ => seen looks) ?_ history held task
    (fun link => sent link ▸ List.prefix_rfl) fun link _ => taken link
  rw [seen sinkReturn_looksAtFrames, sinking]

theorem Delivers.elsewhere (delivers : client.Delivers stage)
    (sent : ∀ link, stage.sentOn link <+: stage'.sentOn link)
    (taken : ∀ link, stage'.takenFrom link = stage.takenFrom link) : client.Delivers stage' :=
  delivers.keep (fun _ _ => rfl) rfl List.suffix_rfl (fun _ held => held) .inl sent fun link _ => taken link

theorem Delivers.framesRead_eq_nil (delivers : client.Delivers stage) {link : Nat}
    (absent : link ∉ client.installs) : client.framesRead link = [] := by
  rw [framesRead, List.map_eq_nil_iff, List.filter_eq_nil_iff]
  intro entry member same
  rw [delivers.grouped, List.mem_flatMap] at member
  obtain ⟨other, installed, member⟩ := member
  obtain ⟨frame, -, rfl⟩ := List.mem_map.mp member
  exact absent (of_decide_eq_true same ▸ installed)

theorem Delivers.install (delivers : client.Delivers stage) {link : Nat} (fresh : link ∉ client.handed)
    (installs : client'.installs = client.installs ++ [link])
    (frames : seen Occurrence.frame? client'.history = seen Occurrence.frame? client.history)
    (calls : seen Occurrence.call? client'.history = seen Occurrence.call? client.history)
    (returns : seen Occurrence.sinkReturn? client'.history = seen Occurrence.sinkReturn? client.history)
    (handed : client'.handed = client.handed ++ [link]) (held : client'.slot.held = some link)
    (sinking : client'.phase.isSinking = client.phase.isSinking) : client'.Delivers stage := by
  have absent : link ∉ client.installs := fun member => fresh (delivers.given link member)
  have framesRead (link : Nat) : client'.framesRead link = client.framesRead link := by
    rw [Client.framesRead, frames, Client.framesRead]
  have unread := delivers.framesRead_eq_nil absent
  exact
    { calls := by rw [calls, frames, delivers.calls]
      grouped := by
        simp only [frames, installs, framesRead, List.flatMap_append, List.flatMap_singleton, unread,
          List.map_nil, List.append_nil]
        exact delivers.grouped
      distinct := by
        rw [installs, List.nodup_append]
        refine ⟨delivers.distinct, List.pairwise_singleton .., ?_⟩
        rintro other member same here rfl
        exact absent (List.mem_singleton.mp here ▸ member)
      given := by
        rw [installs, handed]
        intro other member
        rcases List.mem_append.mp member with before | here
        · exact List.mem_append_left _ (delivers.given other before)
        · exact List.mem_append_right _ here
      last := by
        rw [held, installs]
        rintro other ⟨⟩
        exact List.getLast?_concat ..
      sent := by simp only [framesRead]; exact delivers.sent
      untouched := by
        rw [installs]
        exact fun other missing => delivers.untouched other fun member =>
          missing (List.mem_append_left _ member)
      clean := by
        rw [held]
        rintro other ⟨⟩ -
        rw [framesRead, unread, delivers.untouched link absent]
        rfl
      returned := by rw [calls, returns, sinking]; exact delivers.returned }

private theorem prefix_concat {α : Type} {items sent : List α} {item : α} (known : items <+: sent)
    (next : sent[items.length]? = some item) : items ++ [item] <+: sent := by
  obtain ⟨rest, rfl⟩ := known
  rw [List.getElem?_append_right (Nat.le_refl _), Nat.sub_self] at next
  cases rest with
  | nil => cases next
  | cons head tail =>
      obtain rfl := Option.some.inj next
      exact ⟨tail, by simp⟩

theorem Delivers.take (delivers : client.Delivers stage) {link : Nat} {frame : List UInt8}
    (held : client.slot.held = some link) (task : client.phase ≠ .idle)
    (unsinking : client.phase.isSinking = false)
    (next : (stage.sentOn link)[stage.takenFrom link]? = some (.ok frame))
    (installs : client'.installs = client.installs) (handed : client'.handed = client.handed)
    (frames : seen Occurrence.frame? client'.history =
      seen Occurrence.frame? client.history ++ [(link, frame)])
    (calls : seen Occurrence.call? client'.history =
      seen Occurrence.call? client.history ++ (SinkCall.ofFrame? frame).toList)
    (returns : seen Occurrence.sinkReturn? client'.history = seen Occurrence.sinkReturn? client.history)
    (held' : client'.slot.held = some link)
    (sinking : client'.phase.isSinking = (SinkCall.ofFrame? frame).isSome)
    (sent : ∀ other, stage'.sentOn other = stage.sentOn other)
    (taken : ∀ other, stage'.takenFrom other = stage.takenFrom other + if other = link then 1 else 0) :
    client'.Delivers stage' := by
  obtain ⟨before, order⟩ := List.getLast?_eq_some_iff.mp (delivers.last link held)
  have member : link ∈ client.installs := by
    rw [order]
    exact List.mem_append_right _ (List.mem_singleton_self link)
  have absent : link ∉ before := by
    have distinct := delivers.distinct
    rw [order, List.nodup_append] at distinct
    exact fun again => distinct.2.2 link again link (List.mem_singleton_self link) rfl
  have here : client'.framesRead link = client.framesRead link ++ [frame] := by
    simp [framesRead, frames]
  have elsewhere (other : Nat) (different : other ≠ link) :
      client'.framesRead other = client.framesRead other := by
    simp [framesRead, frames, Ne.symm different]
  have count := delivers.clean link held task
  exact
    { calls := by
        rw [calls, frames, delivers.calls, List.filterMap_append]
        cases called : SinkCall.ofFrame? frame <;> simp [called]
      grouped := by
        have kept : before.flatMap (fun other => (client'.framesRead other).map (Prod.mk other)) =
            before.flatMap fun other => (client.framesRead other).map (Prod.mk other) :=
          List.flatMap_congr fun other member => by
            rw [elsewhere other fun same => absent (same ▸ member)]
        rw [frames, delivers.grouped, installs, order, List.flatMap_append, List.flatMap_append, kept,
          List.flatMap_singleton, List.flatMap_singleton, here]
        simp
      distinct := installs ▸ delivers.distinct
      given := by rw [installs, handed]; exact delivers.given
      last := by rw [held', installs, ← held]; exact delivers.last
      sent := fun other => by
        rw [sent]
        by_cases same : other = link
        · subst same
          rw [here, List.map_append]
          refine prefix_concat (delivers.sent other) ?_
          rw [List.length_map, ← count]
          exact next
        · rw [elsewhere other same]
          exact delivers.sent other
      untouched := fun other missing => by
        rw [installs] at missing
        have different : other ≠ link := fun same => missing (same ▸ member)
        rw [taken, if_neg different, delivers.untouched other missing]
      clean := by
        rw [held']
        rintro other ⟨⟩ -
        rw [taken, if_pos rfl, here, List.length_append, count]
        rfl
      returned := by
        rw [calls, returns, sinking, List.length_append, delivers.returned, unsinking]
        cases SinkCall.ofFrame? frame <;> rfl }

theorem Delivers.endSink (delivers : client.Delivers stage) {start due : Nat} {mark : Option Nat}
    (here : client.phase = .sinking start mark due) (late : due ≤ stage.now) :
    (client.endSink stage.now start mark).Delivers stage := by
  have slot := endSink_slot client stage.now start mark
  have history := (Moves.endSink here late).keeps.history
  have unsinking : (client.endSink stage.now start mark).phase.isSinking = false := by
    rw [endSink_phase]
    cases mark <;> rfl
  refine delivers.keep (fun {α} {view} looks silent => ?_) ?_ history (fun link held => ?_)
    (fun _ => .inl ?_) (fun _ => List.prefix_rfl) fun _ _ => rfl
  · rw [seen_endSink looks.log, silent, Option.toList_none, List.append_nil]
  · rw [seen_endSink sinkReturn_looksAtFrames.log, List.length_append, unsinking, here]
    rfl
  · rw [slot] at held
    exact held
  · rw [here]
    exact nofun

theorem Delivers.make (opening : stage.Opening) (number : Nat) (options : ClientOptions)
    (sink : SinkScript) : (Client.make number options sink).Delivers stage where
  calls := rfl
  grouped := rfl
  distinct := List.Pairwise.nil
  given := nofun
  last := nofun
  sent _ := List.nil_prefix
  untouched link _ := opening.takenFrom link
  clean := nofun
  returned := rfl

theorem Delivers.stop (delivers : client.Delivers stage) :
    (client.stop stage).1.Delivers (client.stop stage).2 := by
  have history := (stop_keeps client stage).history
  rw [stop_eq] at history ⊢
  exact delivers.aside (fun looks => seen_log _ looks.log _ _ _) rfl history nofun (fun task => .inl task)
    (fun _ => Stage.sentOn_closeHeld) fun _ => Stage.takenFrom_closeHeld

private theorem Delivers.beforeOutcome (delivers : client.Delivers stage) (stops : Bool) :
    (client.beforeOutcome stage stops).1.Delivers (client.beforeOutcome stage stops).2 := by
  cases stops with
  | false => exact delivers
  | true =>
      have asked : client.Delivers { stage with stopAsked := true } :=
        delivers.elsewhere (fun _ => List.prefix_rfl) fun _ => rfl
      exact asked.stop

private theorem Delivers.endsDial (delivers : client.Delivers stage) (accounts : client.Accounts stage)
    (consistent : client.Consistent stage) {episode : Episode} {ends : DialEnd} {stops : Bool} {due : Nat}
    (here : client.phase = .dialling episode ends stops due)
    (ended : EndsDial client stage episode ends client' stage') : client'.Delivers stage' := by
  have history := ended.keeps.history
  have empty := consistent.phase.empty (by rw [here]; rfl)
  have task : client.phase ≠ .idle := by simp [here]
  have unsinking : client.phase.isSinking = false := by
    rw [here]
    rfl
  cases ended with
  | @install link next around isOpen changed =>
      obtain ⟨rfl, rfl⟩ := changeSlot_install changed isOpen empty
      have brought : client.phase.brings? = some link := by
        rw [here]
        rfl
      refine delivers.install (accounts.fresh brought) ?_ ?_ ?_ ?_ ?_ rfl
        ((phaseAfterDial_plain ..).2.2.trans unsinking.symm)
      · simp [installs, Occurrence.installed?]
      · simp [Occurrence.frame?]
      · simp [Occurrence.call?]
      · simp [Occurrence.sinkReturn?]
      · simp [handed, Occurrence.handed?]
  | @refuse link stopped =>
      refine delivers.aside (fun looks => ?_) ((phaseAfterDial_plain ..).2.2.trans unsinking.symm) history
        (fun _ held => held) (fun _ => .inl task) (fun _ => Stage.sentOn_closeHeld)
        fun _ => Stage.takenFrom_closeHeld
      exact (seen_log _ looks.log _ _ _).trans (seen_skip _ (looks.dialEnded _) _ _)
  | @fail error =>
      refine delivers.aside (fun looks => ?_) ((phaseAfterFailure_plain ..).2.2.trans unsinking.symm) history
        (fun _ held => held) (fun _ => .inl task) (fun _ => rfl) fun _ => rfl
      exact (seen_log _ looks.log _ _ _).trans (seen_skip _ (looks.dialEnded _) _ _)

theorem FailsRead.taken (consistent : client.Consistent stage) {link since : Nat} {error : TransportError}
    (here : client.phase = .reading link since) (fails : client.FailsRead stage link since error stage')
    {other : Nat} (unheld : client.slot.held ≠ some other) :
    stage'.takenFrom other = stage.takenFrom other := by
  cases fails with
  | found reads =>
      by_cases same : other = link
      · subst same
        cases reads with
        | closed closed => rfl
        | item inside isOpen next =>
            rcases consistent.phase.reading other since here with held | ⟨-, closed⟩
            · exact absurd held unheld
            · omega
        | ended isOpen nothing gone => rfl
      · exact reads.taken same
  | silent waits limit late => rfl

theorem FailsRead.sent {link since : Nat} {error : TransportError}
    (fails : client.FailsRead stage link since error stage') (other : Nat) :
    stage'.sentOn other = stage.sentOn other := by
  cases fails with
  | found reads => exact reads.sent other
  | silent waits limit late => rfl

theorem Delivers.mem_of_held (delivers : client.Delivers stage) {link : Nat}
    (held : client.slot.held = some link) : link ∈ client.installs :=
  List.mem_of_getLast? (delivers.last link held)

theorem TakesFrame.sinking {now : Nat} {frame : List UInt8}
    (takes : client.TakesFrame now frame client') :
    client'.phase.isSinking = (SinkCall.ofFrame? frame).isSome := by
  cases takes with
  | blank empty =>
      subst empty
      rfl
  | undecodable filled refused =>
      rw [ofFrame?_of_refused refused]
      rfl
  | @pass envelope phase filled decoded uncalled next =>
      rw [ofFrame?_of_decoded filled decoded, uncalled, next]
      cases envelope.mark? <;> rfl
  | apply filled decoded called =>
      rw [ofFrame?_of_decoded filled decoded, called]
      rfl

private theorem Delivers.fail (delivers : client.Delivers stage) (consistent : client.Consistent stage)
    {link since : Nat} {error : TransportError} (here : client.phase = .reading link since)
    (fails : client.FailsRead stage link since error stage')
    (seen : ∀ {α : Type} {view : Occurrence → Option α}, LooksAtFrames view →
      seen view client'.history = seen view client.history)
    (sinking : client'.phase.isSinking = false) (history : client.history <:+ client'.history)
    (held : ∀ link, client'.slot.held = some link → client.slot.held = some link)
    (ended : client'.phase = .idle ∨ client'.slot.held = none) : client'.Delivers stage' := by
  have task : client.phase ≠ .idle := by simp [here]
  refine delivers.keep (fun looks _ => seen looks) ?_ history held (fun _ => .inl task)
    (fun other => fails.sent other ▸ List.prefix_rfl) fun other kept => fails.taken consistent here ?_
  · rw [seen sinkReturn_looksAtFrames, sinking, here]
    rfl
  · intro here'
    rcases kept with absent | ⟨held', going⟩
    · exact absent (delivers.mem_of_held here')
    · rcases ended with idle | empty
      · exact going idle
      · rw [empty] at held'
        cases held'

theorem Delivers.moves (delivers : client.Delivers stage) (accounts : client.Accounts stage)
    (consistent : client.Consistent stage) (moves : client.Moves stage client' stage') :
    client'.Delivers stage' := by
  have history := moves.keeps.history
  have task := moves.task
  cases moves with
  | pass passes =>
      exact delivers.aside (fun _ => rfl) passes.unsinking history (fun _ held => held) (fun _ => .inl task)
        (fun _ => rfl) fun _ => rfl
  | skipCancelled here enabled isOpen cancelled =>
      refine delivers.aside (fun looks => seen_log _ looks.log _ _ _) ?_ history (fun _ held => held)
        (fun _ => .inl task) (fun _ => rfl) fun _ => rfl
      rw [enter_phase, (phaseAfterDial_plain ..).2.2, here]
      rfl
  | @dial episode outcome _ here enabled isOpen going next =>
      have links : stage'.links = stage.links := (congrArg (fun found => found.2.links) next).symm
      refine delivers.aside (fun looks => ?_) ?_ history (fun _ held => held) (fun _ => .inl task)
        (fun _ => by simp only [Stage.sentOn, links]) fun _ => by simp only [Stage.takenFrom, links]
      · exact (seen_skip _ (looks.dialBegun _) _ _).trans (seen_log _ looks.log _ _ _)
      · rw [enter_phase, here]
        cases ends : outcome.ends <;> simp [Outcome.phase, ends, Phase.isSinking]
  | @endDial episode ends stops due _ _ here going late ended =>
      exact (delivers.beforeOutcome stops).endsDial (accounts.beforeOutcome consistent stops)
        (consistent.beforeOutcome stops) ((beforeOutcome_phase stops).trans here) ended
  | @takeFrame link since frame _ _ here reads takes =>
      have held := consistent.held_of_frame here reads
      have slot := takes.settled.slot
      have uncalled {α : Type} {view : Occurrence → Option α} (skips : SkipsLog view)
          (silent : ∀ call, view (.applied call) = none) :
          seen view client'.history = seen view client.history ++ (view (.read link (.ok frame))).toList := by
        rw [takes.seen skips, note_history, seen_cons]
        cases SinkCall.ofFrame? frame <;> simp [silent]
      cases reads with
      | item inside isOpen next =>
          refine delivers.take held task (by rw [here]; rfl) next ?_ ?_ ?_ ?_ ?_ (slot ▸ held) takes.sinking
            (fun _ => Stage.sentOn_take) fun _ => Stage.takenFrom_take inside
          · exact (uncalled installed_looksAtFrames.log fun _ => rfl).trans (List.append_nil _)
          · exact (uncalled handed_looksAtDials.log fun _ => rfl).trans (List.append_nil _)
          · exact uncalled frame_looksAtFrames.log fun _ => rfl
          · rw [takes.seen call_looksAtFrames.log, note_history, seen_skip _ rfl]
            cases SinkCall.ofFrame? frame <;> rfl
          · exact (uncalled sinkReturn_looksAtFrames.log fun _ => rfl).trans (List.append_nil _)
  | endReading here fails stopping =>
      refine delivers.fail consistent here fails (fun looks => ?_) rfl history (fun _ held => held) (.inl rfl)
      exact seen_skip _ (looks.failed _ _) _ _
  | @drop link since error around next last here fails going changed =>
      have held := consistent.held_of_reading here (going_of_shouldStop going).2
      obtain ⟨rfl, rfl⟩ := changeSlot_discard changed held
      refine (delivers.fail consistent here fails (fun looks => ?_) rfl history
        (fun _ held => by cases held) (.inr rfl)).elsewhere
        (fun _ => Stage.sentOn_closeHeld ▸ List.prefix_rfl) fun _ => Stage.takenFrom_closeHeld
      exact (seen_log _ looks.log _ _ _).trans (seen_skip _ (looks.failed _ _) _ _)
  | reconnect here unconnected going =>
      refine delivers.aside (fun looks => seen_log _ looks.log _ _ _) ?_ history (fun _ held => held)
        (fun _ => .inl task) (fun _ => rfl) fun _ => rfl
      rw [here]
      rfl
  | @endSink start due mark here late => exact delivers.endSink here late
  | getInLine here observed sent =>
      refine delivers.aside (fun _ => rfl) ?_ history (fun _ held => held) (fun _ => .inl task)
        (fun _ => rfl) fun _ => rfl
      rw [here]
      rfl
  | @endSend mark how channel channel' observed ends =>
      have slot := endSend_slot client stage.now mark how
      refine delivers.aside (fun looks => ?_) ?_ history (fun link held => ?_) (fun _ => .inl task)
        (fun _ => rfl) fun _ => rfl
      · rw [seen_endSend looks.log, looks.delivered, Option.toList_none, ite_self, List.append_nil]
      · rw [endSend_phase]
        cases ends with
        | atOnce here | inLine here =>
            rw [here]
            rfl
      · rw [slot] at held
        exact held

theorem Delivers.acts (delivers : client.Delivers stage) (accounts : client.Accounts stage)
    (consistent : client.Consistent stage) (acts : client.Acts stage client' stage') :
    client'.Delivers stage' := by
  cases acts with
  | start starts =>
      cases starts with
      | report barred =>
          exact delivers.aside (fun looks => seen_log _ looks.log _ _ _) rfl (List.suffix_cons ..)
            (fun _ held => held) .inl (fun _ => rfl) fun _ => rfl
      | first enabled unstarted =>
          have idle : client.phase = .idle := by
            by_contra task
            rw [consistent.phase.started task] at unstarted
            cases unstarted
          have empty := consistent.unstarted unstarted
          refine delivers.aside (fun _ => rfl) (by rw [idle]; rfl) List.suffix_rfl (fun _ held => held)
            (fun _ => .inr empty) (fun _ => rfl) fun _ => rfl
  | cancel =>
      exact delivers.aside (fun _ => rfl) rfl List.suffix_rfl (fun _ held => held) .inl (fun _ => rfl)
        fun _ => rfl
  | stop => exact delivers.stop
  | move moves =>
      obtain ⟨next, around, moved, rfl, rfl⟩ := moves_of_move moves
      exact (delivers.moves accounts consistent moved).aside (fun _ => rfl) rfl List.suffix_rfl
        (fun _ held => held) .inl (fun _ => rfl) fun _ => rfl

/-! ### Where the reading of a connection ends -/

theorem Delivers.calls_eq (delivers : client.Delivers stage) :
    client.sinkCalls.map Prod.snd =
      client.installs.flatMap fun link => (client.framesRead link).filterMap SinkCall.ofFrame? := by
  rw [sinkCalls_eq_seen, delivers.calls, delivers.grouped, List.filterMap_flatMap]
  simp only [List.filterMap_map, Function.comp_def]

/-- When everything has been taken from the connection that is held, everything sent on it is a frame that
was read. -/
theorem Delivers.sent_eq (delivers : client.Delivers stage) {link : Nat}
    (held : client.slot.held = some link) (task : client.phase ≠ .idle)
    (nothing : (stage.sentOn link).length ≤ stage.takenFrom link) :
    stage.sentOn link = (client.framesRead link).map .ok := by
  rw [delivers.clean link held task] at nothing
  refine ((delivers.sent link).sublist.eq_of_length_le ?_).symm
  rw [List.length_map]
  exact nothing

/-- Why a connection is lost: by an error that was sent, after everything when it was hung up, or after
everything when nothing came for too long. -/
inductive Loses (client : Client) (stage : Stage) (link : Nat) : TransportError → Prop
  | failed {error : TransportError} {rest : List ReadResult}
      (sent : stage.sentOn link = (client.framesRead link).map .ok ++ .error error :: rest) :
      Loses client stage link error
  | hungUp (gone : stage.hungUpOn link = true)
      (sent : stage.sentOn link = (client.framesRead link).map .ok) : Loses client stage link .closed
  | silent (sent : stage.sentOn link = (client.framesRead link).map .ok) :
      Loses client stage link (.idleTimeout client.options.endpoint.idleTimeout)

theorem FailsRead.loses (delivers : client.Delivers stage) (accounts : client.Accounts stage)
    {link since : Nat} {error : TransportError} (here : client.phase = .reading link since)
    (held : client.slot.held = some link) (fails : client.FailsRead stage link since error stage') :
    client.Loses stage link error := by
  have task : client.phase ≠ .idle := by simp [here]
  cases fails with
  | found reads =>
      cases reads with
      | closed closed =>
          -- only connections that are not held have been closed
          rw [accounts.closes, held, if_neg fun left => left.2 rfl] at closed
          exact absurd closed (Nat.lt_irrefl 0)
      | item inside isOpen next =>
          obtain ⟨rest, sent⟩ := delivers.sent link
          have read : ((client.framesRead link).map Except.ok : List ReadResult).length =
              (client.framesRead link).length := List.length_map _
          rw [delivers.clean link held task, ← sent, List.getElem?_append_right (Nat.le_of_eq read), read,
            Nat.sub_self] at next
          cases rest with
          | nil => cases next
          | cons first rest =>
              obtain rfl := Option.some.inj next
              exact .failed sent.symm
      | ended isOpen nothing gone => exact .hungUp gone (delivers.sent_eq held task nothing)
  | silent waits limit late =>
      exact .silent (delivers.sent_eq held task (Stage.sentOn_length_le waits))

/-- A move that gives up the connection that is held has found it at its end. -/
theorem Moves.loses (delivers : client.Delivers stage) (accounts : client.Accounts stage)
    (consistent : client.Consistent stage) (moves : client.Moves stage client' stage') {link : Nat}
    (held : client.slot.held = some link) (lost : client'.slot.held ≠ some link) :
    (∃ error, seen Occurrence.failedRead? client'.history =
        seen Occurrence.failedRead? client.history ++ [(link, error)] ∧ client.Loses stage link error) ∧
      client'.framesRead link = client.framesRead link := by
  have skips : SkipsLog Occurrence.failedRead? := fun _ => rfl
  cases moves with
  | pass | skipCancelled | dial | endReading | getInLine => exact absurd held lost
  | endDial here going late ended =>
      have empty := consistent.phase.empty (by rw [here]; rfl)
      rw [empty] at held
      cases held
  | takeFrame here reads takes =>
      have slot := takes.settled.slot
      exact absurd (slot ▸ held) lost
  | @drop other since error around next last here fails going changed =>
      obtain rfl : other = link := by
        have reading := consistent.held_of_reading here (going_of_shouldStop going).2
        exact Option.some.inj (reading.symm.trans held)
      obtain ⟨metrics, rfl⟩ := changeSlot_kept changed
      have frames := (seen_log _ frame_looksAtFrames.log stage.now (client.readReport error) _).trans
        (seen_skip _ (frame_looksAtFrames.failed other error) stage.now client.history)
      refine ⟨⟨error, (seen_log _ skips _ _ _).trans (seen_cons ..),
        fails.loses delivers accounts here held⟩, ?_⟩
      exact congrArg (fun read => (read.filter fun entry => entry.1 = other).map Prod.snd) frames
  | reconnect here unconnected going =>
      rw [unconnected] at held
      cases held
  | @endSink start due mark here late =>
      have slot := endSink_slot client stage.now start mark
      exact absurd (slot ▸ held) lost
  | @endSend mark how channel channel' observed ends =>
      have slot := endSend_slot client stage.now mark how
      exact absurd (slot ▸ held) lost

theorem Moves.frames_kept (consistent : client.Consistent stage) (moves : client.Moves stage client' stage')
    {link : Nat} (unheld : client.slot.held ≠ some link) :
    client'.framesRead link = client.framesRead link := by
  have looks := frame_looksAtFrames
  have of_seen (same : seen Occurrence.frame? client'.history = seen Occurrence.frame? client.history) :
      client'.framesRead link = client.framesRead link := by rw [framesRead, same, framesRead]
  cases moves with
  | pass passes => rfl
  | skipCancelled here enabled isOpen cancelled => exact of_seen (seen_log _ looks.log _ _ _)
  | dial here enabled isOpen going next =>
      exact of_seen ((seen_skip _ (looks.dialBegun _) _ _).trans (seen_log _ looks.log _ _ _))
  | @endDial episode ends stops due _ _ here going late ended =>
      have before : seen Occurrence.frame? (client.beforeOutcome stage stops).1.history =
          seen Occurrence.frame? client.history := by
        cases stops with
        | false => rfl
        | true =>
            rw [beforeOutcome, if_pos rfl, stop_eq]
            exact seen_log _ looks.log _ _ _
      refine of_seen (Eq.trans ?_ before)
      cases ended with
      | install isOpen changed =>
          obtain ⟨metrics, rfl⟩ := changeSlot_kept changed
          refine (seen_log _ looks.log _ _ _).trans ((seen_skip _ rfl _ _).trans ?_)
          exact seen_skip _ (looks.dialEnded _) _ _
      | refuse stopped =>
          exact (seen_log _ looks.log _ _ _).trans (seen_skip _ (looks.dialEnded _) _ _)
      | fail => exact (seen_log _ looks.log _ _ _).trans (seen_skip _ (looks.dialEnded _) _ _)
  | @takeFrame other since frame _ _ here reads takes =>
      have held := consistent.held_of_frame here reads
      have different : other ≠ link := fun same => unheld (same ▸ held)
      have frames := takes.seen looks.log
      rw [note_history, seen_cons] at frames
      rw [framesRead, frames, framesRead]
      cases SinkCall.ofFrame? frame <;> simp [Occurrence.frame?, different]
  | endReading here fails stopping => exact of_seen (seen_skip _ (looks.failed _ _) _ _)
  | @drop other since error around next last here fails going changed =>
      obtain ⟨metrics, rfl⟩ := changeSlot_kept changed
      exact of_seen ((seen_log _ looks.log _ _ _).trans (seen_skip _ (looks.failed _ _) _ _))
  | reconnect here unconnected going => exact of_seen (seen_log _ looks.log _ _ _)
  | endSink here late => exact of_seen ((seen_endSink looks.log ..).trans (List.append_nil _))
  | getInLine here observed sent => rfl
  | endSend observed ends =>
      refine of_seen ?_
      rw [seen_endSend looks.log, looks.delivered, Option.toList_none, ite_self, List.append_nil]

/-- A connection that was held and is not held any more has been read to its end. -/
theorem Delivers.final (delivers : client.Delivers stage) (accounts : client.Accounts stage)
    (consistent : client.Consistent stage) (acts : client.Acts stage client' stage') {link : Nat}
    (installed : link ∈ client.installs) (unheld : client.slot.held ≠ some link) :
    link ∈ client'.installs ∧ client'.slot.held ≠ some link ∧
      client'.framesRead link = client.framesRead link := by
  have delivers' := delivers.acts accounts consistent acts
  have accounts' := accounts.acts consistent acts
  have closed : stage.closesOf link = 1 := by
    rw [accounts.closes, if_pos ⟨delivers.given link installed, unheld⟩]
  have unheld' : client'.slot.held ≠ some link := by
    intro held
    have isOpen : stage'.closesOf link = 0 := by
      rw [accounts'.closes, if_neg fun left => left.2 held]
    have later := acts.later.closes link
    omega
  refine ⟨(seen_prefix_of_suffix _ acts.history).subset installed, unheld', ?_⟩
  have of_seen (same : seen Occurrence.frame? client'.history = seen Occurrence.frame? client.history) :
      client'.framesRead link = client.framesRead link := by rw [framesRead, same, framesRead]
  cases acts with
  | start starts =>
      cases starts with
      | report barred => exact of_seen (seen_log _ frame_looksAtFrames.log _ _ _)
      | first enabled unstarted => rfl
  | cancel => rfl
  | stop =>
      rw [stop_eq] at of_seen ⊢
      exact of_seen (seen_log _ frame_looksAtFrames.log _ _ _)
  | move moves =>
      obtain ⟨next, around, moved, rfl, rfl⟩ := moves_of_move moves
      exact moved.frames_kept consistent unheld

end Client

namespace ClientRun.Reachable

variable {run : ClientRun}

theorem delivers (reachable : run.Reachable) : run.client.Delivers run.stage :=
  reachable.invariant Client.Delivers (fun _ options sink opening => .make opening 0 options sink)
    (fun before delivers acts => delivers.acts before.accounts before.consistent acts)
    (fun delivers changes => delivers.elsewhere changes.grows.sent changes.grows.taken)

theorem frames_final (reachable : run.Reachable) {later : ClientRun} (reaches : run.Reaches later)
    {link : Nat} (installed : link ∈ run.client.installs) (unheld : run.client.slot.held ≠ some link) :
    later.client.framesRead link = run.client.framesRead link := by
  have now : link ∈ run.client.installs ∧ run.client.slot.held ≠ some link ∧
      run.client.framesRead link = run.client.framesRead link := ⟨installed, unheld, rfl⟩
  refine (reaches.keeps (fun state => link ∈ state.client.installs ∧ state.client.slot.held ≠ some link ∧
    state.client.framesRead link = run.client.framesRead link) reachable now ?_).2.2
  intro before after reachable ⟨installed, unheld, same⟩ step
  rcases step.acts with acts | ⟨kept, -⟩
  · have final := reachable.delivers.final reachable.accounts reachable.consistent acts installed unheld
    exact ⟨final.1, final.2.1, final.2.2.trans same⟩
  · rw [kept]
    exact ⟨installed, unheld, same⟩

/-- In every reachable state the sink calls so far are those that the frames read so far lead to, connection
by connection in the order of the installations, and what was read from a connection is the beginning of
what was sent on it. A connection that the task gives up has been read up to the error that was sent, or to
its end, and nothing more is ever read from it; at rest inside a read everything sent has been read. No
sink call begins, and no read, before the last sink call has returned. -/
theorem delivered_in_order (reachable : run.Reachable) :
    (run.client.sinkCalls.map Prod.snd = run.client.installs.flatMap fun link =>
      (run.client.framesRead link).filterMap SinkCall.ofFrame?) ∧
    (∀ link, (run.client.framesRead link).map Except.ok <+: run.stage.sentOn link) ∧
    (∀ client stage link, run.client.move? run.stage = some (client, stage) →
      run.client.slot.held = some link → client.slot.held ≠ some link →
        (∃ error, seen Occurrence.failedRead? client.history =
            seen Occurrence.failedRead? run.client.history ++ [(link, error)] ∧
          run.client.Loses run.stage link error) ∧
        ∀ later, Reaches { run with client, stage } later →
          later.client.framesRead link = run.client.framesRead link) ∧
    (run.client.atRest run.stage → run.client.isConnected = true →
      ∀ link since, run.client.phase = .reading link since →
        run.stage.sentOn link = (run.client.framesRead link).map Except.ok) ∧
    (run.client.sinkCalls.length =
      (seen Occurrence.sinkReturn? run.client.history).length +
        if run.client.phase.isSinking then 1 else 0) ∧
    ∀ link since, run.client.phase = .reading link since →
      run.client.sinkCalls.length = (seen Occurrence.sinkReturn? run.client.history).length := by
  have delivers := reachable.delivers
  have accounts := reachable.accounts
  have consistent := reachable.consistent
  have balance : run.client.sinkCalls.length = (seen Occurrence.sinkReturn? run.client.history).length +
      if run.client.phase.isSinking then 1 else 0 := by
    rw [← delivers.returned, ← Client.sinkCalls_eq_seen, List.length_map]
  refine ⟨delivers.calls_eq, delivers.sent, ?_, ?_, balance, ?_⟩
  · intro client stage link moved held lost
    have step : Step run { run with client, stage } := .move moved
    obtain ⟨next, around, moves, rfl, rfl⟩ := Client.moves_of_move moved
    obtain ⟨loses, same⟩ := moves.loses delivers accounts consistent held lost
    have installed : link ∈ next.installs :=
      (seen_prefix_of_suffix _ moves.keeps.history).subset (delivers.mem_of_held held)
    refine ⟨loses, fun later reaches => ?_⟩
    exact (frames_final (reachable.later step.reaches) reaches installed lost).trans same
  · intro rest connected link since here
    have isOpen : run.client.slot.shuttingDown = false := by
      cases stopped : run.client.slot.shuttingDown with
      | false => rfl
      | true =>
          rw [Client.isConnected, consistent.stopped stopped] at connected
          cases connected
    have task : run.client.phase ≠ .idle := by simp [here]
    have nothing := Stage.sentOn_length_le (Client.waits_of_rest rest here)
    exact delivers.sent_eq (consistent.held_of_reading here isOpen) task nothing
  · intro link since here
    rw [balance, here]
    rfl

/-- A malformed frame and an empty one do not keep the batch between them from a sink that rejects it. -/
theorem delivered_in_order_past_others :
    let run := (make (Stage.planned [("ws://feed", [⟨.connect "first", 0, false⟩])] none)
      (ClientOptions.standard "ws://feed") ⟨true, 0⟩).play
        [.start, .push "first" (.ok malformedFrame) 1, .push "first" (.ok (batchFrame 7 [.null])) 1,
          .push "first" (.ok []) 1]
    run.stage.sentOn 0 = [.ok malformedFrame, .ok (batchFrame 7 [.null]), .ok []] ∧
      (run.client.sinkCalls.map fun call => call.2.start) = [7] ∧
        (seen Occurrence.sinkReturn? run.client.history).length = 1 := by
  intro run
  obtain ⟨installs, frames, here, connected, rest⟩ : run.client.installs = [0] ∧
      run.client.framesRead 0 = [malformedFrame, batchFrame 7 [.null], []] ∧
      run.client.phase = .reading 0 0 ∧ run.client.isConnected = true ∧
      (run.client.move? run.stage).isNone = true := by decide +kernel
  have reachable : run.Reachable := reachable_play (.planned ..) _ _ _
  obtain ⟨calls, -, -, read, -, returned⟩ := delivered_in_order reachable
  have starts : (run.client.sinkCalls.map fun call => call.2.start) = [7] := by
    have projected := congrArg (List.map SinkCall.start) calls
    rw [List.map_map, installs, List.flatMap_singleton, frames] at projected
    exact projected.trans (by decide +kernel)
  refine ⟨?_, starts, ?_⟩
  · rw [read (Option.isNone_iff_eq_none.mp rest) connected 0 0 here, frames]
    rfl
  · rw [← returned 0 0 here]
    have length := congrArg List.length starts
    rwa [List.length_map] at length

end ClientRun.Reachable

end SequencedFeed
