import SequencedFeed.Proofs.Consistency
set_option autoImplicit false

/-!
# Where clients come to rest

A client that does not move waits for something that its phase names. A cancelled one waits for nothing but
the read it is parked in or the sink, and a stopped one for nothing but the sink, for its connection is closed
and a closed connection is read from at once.
-/

namespace SequencedFeed

theorem Stage.readLink_of_closed {stage : Stage} {link : Nat} (closed : 0 < stage.closesOf link) :
    stage.readLink? link ≠ none := by
  cases found : stage.links[link]? with
  | none => simp [Stage.closesOf, found] at closed
  | some held =>
      have isClosed : held.isClosed = true := by
        simpa [Stage.closesOf, found, Link.isClosed] using closed
      simp [Stage.readLink?, found, Link.read?, isClosed]

theorem Stage.hungUpOn_of_waits {stage : Stage} {link : Nat} (waits : stage.readLink? link = none) :
    stage.hungUpOn link = false := by
  cases found : stage.links[link]? with
  | none => simp [hungUpOn, found]
  | some held =>
      have gone : stage.hungUpOn link = held.hungUp := by simp [hungUpOn, found]
      rw [gone]
      simp only [readLink?, found, Option.bind_some, Link.read?] at waits
      cases closed : held.isClosed <;> cases next : held.sent[held.taken]? <;> cases hungUp : held.hungUp <;>
        simp [closed, next, hungUp] at waits ⊢

namespace Client

variable {client : Client} {stage : Stage}

theorem atRest_iff : client.atRest stage ↔ client.proceed? stage = none :=
  Option.map_eq_none_iff

theorem waits_of_rest (rest : client.atRest stage) {link since : Nat}
    (here : client.phase = .reading link since) : stage.readLink? link = none := by
  rw [atRest_iff, proceed?] at rest
  simp only [here, read?] at rest
  cases reads : stage.readLink? link with
  | none => rfl
  | some result => simp [reads] at rest

/-- A cancelled client only rests in a read and in the sink. -/
theorem rest_of_cancelled (rest : client.atRest stage) (cancelled : client.cancelled = true) :
    client.phase = .idle ∨ client.phase.isReading = true ∨
      ∃ start mark due, client.phase = .sinking start mark due ∧ stage.now < due := by
  rw [atRest_iff, proceed?] at rest
  cases here : client.phase with
  | idle => exact .inl rfl
  | reading link since => exact .inr (.inl rfl)
  | sinking start mark due =>
      refine .inr (.inr ⟨start, mark, due, rfl, Nat.lt_of_not_le fun late => ?_⟩)
      simp [here, late] at rest
  | connecting | ready | looping | confirming => simp [here] at rest
  | hanging | dialling | retrying | backingOff => simp [here, cancelled] at rest
  | sending mark deadline =>
      cases observed : stage.channel <;>
        simp [here, send?, observed, Channel.resumeSend, cancelled] at rest

theorem idle_or_reading (rest : client.atRest stage) (cancelled : client.cancelled = true)
    (unsinking : client.phase.isSinking = false) :
    client.phase = .idle ∨ client.phase.isReading = true := by
  rcases rest_of_cancelled rest cancelled with idle | reading | ⟨start, mark, due, here, -⟩
  · exact .inl idle
  · exact .inr reading
  · rw [here] at unsinking
    cases unsinking

/-- A stopped client only rests in the sink. -/
theorem Consistent.rest_of_stopped (consistent : client.Consistent stage) (rest : client.atRest stage)
    (stopped : client.isShuttingDown = true) :
    client.phase = .idle ∨ ∃ start mark due, client.phase = .sinking start mark due ∧ stage.now < due := by
  rcases consistent.phase.stopped stopped with cancelled | idle | first
  · rcases rest_of_cancelled rest cancelled with idle | reading | sinking
    · exact .inl idle
    · cases here : client.phase with
      | reading link since =>
          have waits := waits_of_rest rest here
          rcases consistent.phase.reading link since here with held | ⟨-, closed⟩
          · rw [consistent.stopped stopped] at held
            cases held
          · exact absurd waits (Stage.readLink_of_closed closed)
      | _ =>
          rw [here] at reading
          cases reading
    · exact .inr sinking
  · exact .inl idle
  · rw [atRest_iff, proceed?] at rest
    simp [first] at rest

theorem Consistent.idle_of_stopped (consistent : client.Consistent stage) (rest : client.atRest stage)
    (stopped : client.isShuttingDown = true) (unsinking : client.phase.isSinking = false) :
    client.phase = .idle := by
  rcases consistent.rest_of_stopped rest stopped with idle | ⟨start, mark, due, here, -⟩
  · exact idle
  · rw [here] at unsinking
    cases unsinking

end Client

end SequencedFeed
