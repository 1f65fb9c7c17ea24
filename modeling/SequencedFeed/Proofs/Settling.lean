import SequencedFeed.Proofs.Unwinding
import SequencedFeed.Proofs.Waits
set_option autoImplicit false

/-!
# Every instant comes to rest

Every move of a client lowers its toil: its rank goes down, or it uses up an item of a connection, an outcome
of its script, or its only dial of the instant beyond the script. The work that bounds a client's moves covers
its toil, so a client that settles is at rest. That it dials once at most beyond its script takes that no wait
is over as soon as it begins, and the waits of a back-off never are.
-/

namespace SequencedFeed

namespace Stage

variable {stage later : Stage} {link : Nat}

/-! ### What is left to be used up -/

theorem itemsOf_eq (stage : Stage) (link : Nat) :
    stage.itemsOf link = (stage.sentOn link).length - stage.takenFrom link := by
  unfold itemsOf sentOn takenFrom
  cases stage.links[link]? with
  | none => rfl
  | some held => exact List.length_drop ..

@[simp] theorem itemsOf_closeHeld (held : Option Nat) (link : Nat) :
    (stage.closeHeld held).itemsOf link = stage.itemsOf link := by
  rw [itemsOf_eq, itemsOf_eq, sentOn_closeHeld, takenFrom_closeHeld]

theorem Reads.itemsOf_le {result : ReadResult} (reads : stage.Reads link result later) (other : Nat) :
    later.itemsOf other ≤ stage.itemsOf other := by
  cases reads with
  | closed closed => exact Nat.le_refl _
  | item inside isOpen next =>
      rw [itemsOf_eq, itemsOf_eq, sentOn_take, takenFrom_take inside]
      omega
  | ended isOpen nothing gone => exact Nat.le_refl _

theorem Reads.itemsOf_lt {frame : List UInt8} (reads : stage.Reads link (.ok frame) later) :
    later.itemsOf link < stage.itemsOf link := by
  cases reads with
  | item inside isOpen next =>
      obtain ⟨within, -⟩ := List.getElem?_eq_some_iff.mp next
      rw [itemsOf_eq, itemsOf_eq, sentOn_take, takenFrom_take inside, if_pos rfl]
      omega

def outcomesWork (stage : Stage) (script : DialScript) : Nat :=
  (script.outcomes.map stage.outcomeWork).foldr (· + ·) 0

theorem itemsBehind_le (less : ∀ link, later.itemsOf link ≤ stage.itemsOf link) (ends : DialEnd) :
    later.itemsBehind ends ≤ stage.itemsBehind ends := by
  cases ends with
  | connect link => exact less link
  | fail error => exact Nat.le_refl _

theorem outcomesWork_le (less : ∀ link, later.itemsOf link ≤ stage.itemsOf link) (script : DialScript) :
    later.outcomesWork script ≤ stage.outcomesWork script := by
  unfold outcomesWork
  induction script.outcomes with
  | nil => exact Nat.le_refl _
  | cons outcome rest ih =>
      have first : later.outcomeWork outcome ≤ stage.outcomeWork outcome := by
        unfold outcomeWork
        cases outcome.ends with
        | none => exact Nat.le_refl _
        | some ends => exact Nat.add_le_add_left (itemsBehind_le less ends) 1
      exact Nat.add_le_add first ih

theorem next_spends (stage : Stage) (script : DialScript) :
    stage.outcomesWork script.next.2 + (script.next.1.ends.map stage.itemsBehind).getD 0 <
        stage.outcomesWork script + (if script.beyond.isSome then 1 else 0) ∨
      script.next = (Outcome.hang, script) := by
  obtain ⟨outcomes, beyond⟩ := script
  cases outcomes with
  | cons outcome rest =>
      have work : stage.outcomesWork ⟨outcome :: rest, beyond⟩ =
          stage.outcomeWork outcome + stage.outcomesWork ⟨rest, beyond⟩ := rfl
      have taken : DialScript.next ⟨outcome :: rest, beyond⟩ = (outcome, ⟨rest, beyond⟩) := rfl
      refine .inl ?_
      rw [work, taken, outcomeWork]
      dsimp only
      omega
  | nil =>
      cases beyond with
      | some error => exact .inl Nat.one_pos
      | none => exact .inr rfl

theorem lookup_setScript (url : String) (script : DialScript) (scripts : List (String × DialScript)) :
    (setScript url script scripts).lookup url = (scripts.lookup url).map fun _ => script := by
  induction scripts with
  | nil => rfl
  | cons entry rest ih =>
      obtain ⟨other, held⟩ := entry
      by_cases same : url = other
      · subst same
        simp only [setScript, if_true, List.lookup_cons_self, Option.map_some]
      · have missed : (url == other) = false := beq_eq_false_iff_ne.mpr same
        simp only [setScript, if_neg same, List.lookup_cons, missed]
        exact ih

theorem script_nextOutcome {url : String} {outcome : Outcome}
    (next : stage.nextOutcome url = (outcome, later)) :
    (stage.script url).next = (outcome, later.script url) := by
  obtain ⟨rfl, rfl⟩ := Prod.mk.inj next
  refine Prod.ext rfl ?_
  simp only [script, lookup_setScript]
  cases stage.scripts.lookup url with
  | none => rfl
  | some script => rfl

private theorem lookup_setScript_other {url other : String} (different : other ≠ url) (script : DialScript)
    (scripts : List (String × DialScript)) : (setScript url script scripts).lookup other = scripts.lookup other := by
  induction scripts with
  | nil => rfl
  | cons entry rest ih =>
      obtain ⟨address, held⟩ := entry
      by_cases same : url = address
      · subst same
        have missed : (other == url) = false := beq_eq_false_iff_ne.mpr different
        simp only [setScript, if_true, List.lookup_cons, missed]
      · simp only [setScript, if_neg same, List.lookup_cons, ih]

theorem script_nextOutcome_other (stage : Stage) {url other : String} (different : other ≠ url) :
    (stage.nextOutcome url).2.script other = stage.script other :=
  congrArg (·.getD DialScript.empty) (lookup_setScript_other different ..)

end Stage

theorem DialScript.next_beyond (script : DialScript) :
    script.next.2.beyond = script.beyond := by
  obtain ⟨outcomes, beyond⟩ := script
  cases outcomes <;> cases beyond <;> rfl

/-- Whether a task dials at an instant without waiting for anything. -/
def Phase.dialsAt (phase : Phase) (now : Nat) : Bool :=
  match phase with
  | .connecting _ => true
  | .retrying due => due ≤ now
  | .backingOff _ due => due ≤ now
  | _ => false

namespace Client

variable {client client' : Client} {stage stage' : Stage}

/-! ### Toil -/

/-- What can be used up without time passing. -/
def load (client : Client) (stage : Stage) : Nat :=
  client.itemsInHand stage + stage.outcomesWork (stage.script client.url) +
    if client.phase.dialsAt stage.now && (stage.script client.url).beyond.isSome then 1 else 0

def toil (client : Client) (stage : Stage) : Nat :=
  client.rank + workUnit * client.load stage

theorem toil_le_work : client.toil stage ≤ client.work stage := by
  have beyond : client.load stage ≤
      client.itemsInHand stage + stage.scriptWork (stage.script client.url) := by
    unfold load Stage.scriptWork Stage.outcomesWork
    cases client.phase.dialsAt stage.now with
    | true =>
        rw [Bool.true_and]
        omega
    | false =>
        rw [Bool.false_and]
        simp only [Bool.false_eq_true, if_false]
        omega
  unfold toil work
  exact Nat.add_le_add_left (Nat.mul_le_mul_left _ beyond) _

theorem rank_lt_workUnit (client : Client) : client.rank < workUnit := by
  unfold rank
  split <;> cases client.phase <;> simp [stoppingRank, runningRank, workUnit]

theorem toil_lt_of_rank (rank : client'.rank < client.rank) (load : client'.load stage' ≤ client.load stage) :
    client'.toil stage' < client.toil stage :=
  Nat.add_lt_add_of_lt_of_le rank (Nat.mul_le_mul_left _ load)

theorem toil_lt_of_load (load : client'.load stage' < client.load stage) :
    client'.toil stage' < client.toil stage := by
  have rank := client'.rank_lt_workUnit
  unfold toil workUnit at *
  omega

theorem rank_lt_of_phases (same : client'.shouldStop = client.shouldStop)
    (stopping : client.shouldStop = true → stoppingRank client'.phase < stoppingRank client.phase)
    (going : client.shouldStop = false → runningRank client'.phase < runningRank client.phase) :
    client'.rank < client.rank := by
  unfold rank
  rw [same]
  split
  · exact stopping ‹_›
  · exact going (Bool.eq_false_iff.mpr ‹_›)

theorem itemsInHand_of_plain (unread : client.phase.isReading = false) (undialled : client.phase.dial? = none) :
    client.itemsInHand stage = (client.slot.held.map stage.itemsOf).getD 0 := by
  unfold itemsInHand
  cases here : client.phase with
  | reading link since =>
      rw [here] at unread
      cases unread
  | dialling episode ends stops due =>
      rw [here] at undialled
      cases undialled
  | _ => exact Nat.add_zero _

theorem held_le_itemsInHand (client : Client) (stage : Stage) :
    (client.slot.held.map stage.itemsOf).getD 0 ≤ client.itemsInHand stage :=
  Nat.le_add_right ..

theorem load_le_of_plain (url : client'.url = client.url)
    (unread : client'.phase.isReading = false) (undialled : client'.phase.dial? = none)
    (held : (client'.slot.held.map stage'.itemsOf).getD 0 ≤ client.itemsInHand stage)
    (less : ∀ link, stage'.itemsOf link ≤ stage.itemsOf link) (scripts : stage'.scripts = stage.scripts)
    (dials : client'.phase.dialsAt stage'.now = true → (stage.script client.url).beyond.isSome = true →
      client.phase.dialsAt stage.now = true) :
    client'.load stage' ≤ client.load stage := by
  have script : stage'.script client'.url = stage.script client.url := by
    rw [url, Stage.script, Stage.script, scripts]
  have outcomes := Stage.outcomesWork_le less (stage.script client.url)
  have dialling : (if client'.phase.dialsAt stage'.now && (stage.script client.url).beyond.isSome then 1 else 0) ≤
      if client.phase.dialsAt stage.now && (stage.script client.url).beyond.isSome then 1 else 0 := by
    by_cases now : (client'.phase.dialsAt stage'.now && (stage.script client.url).beyond.isSome) = true
    · obtain ⟨dialling, beyond⟩ := Bool.and_eq_true_iff.mp now
      exact Nat.le_of_eq (by rw [dialling, dials dialling beyond])
    · rw [if_neg now]
      exact Nat.zero_le _
  rw [load, load, itemsInHand_of_plain unread undialled, script]
  omega

theorem Phase.undialled_now {phase : Phase} (unseeking : phase.isSeeking = false) (now : Nat) :
    phase.dialsAt now = false := by
  cases phase <;> first | rfl | cases unseeking

theorem held_items_le (less : ∀ link, stage'.itemsOf link ≤ stage.itemsOf link) (held : Option Nat) :
    (held.map stage'.itemsOf).getD 0 ≤ (held.map stage.itemsOf).getD 0 := by
  cases held with
  | none => exact Nat.le_refl _
  | some link => exact less link

theorem FailsRead.itemsOf_le {link since : Nat} {error : TransportError}
    (fails : client.FailsRead stage link since error stage') (other : Nat) :
    stage'.itemsOf other ≤ stage.itemsOf other := by
  cases fails with
  | found reads => exact reads.itemsOf_le other
  | silent waits limit late => exact Nat.le_refl _

theorem shouldStop_eq (cancelled : client'.cancelled = client.cancelled) (slot : client'.slot = client.slot) :
    client'.shouldStop = client.shouldStop := by
  rw [shouldStop, cancelled, slot]
  rfl

theorem url_eq (options : client'.options = client.options) : client'.url = client.url := by
  rw [url, options]
  rfl

/-! ### Moves -/

private theorem Passes.rank_lt (consistent : client.Consistent stage) {phase : Phase}
    (passes : client.Passes stage phase) : (client.enter phase).rank < client.rank := by
  have enabled := consistent.enabled (consistent.phase.started passes.task)
  refine rank_lt_of_phases rfl (fun stopping => (passes.unwinds stopping).1) fun going => ?_
  obtain ⟨uncancelled, isOpen⟩ := going_of_shouldStop going
  cases passes with
  | skip here barred =>
      rcases barred with disabled | stopped
      · exact absurd disabled (ne_true_of_eq_false enabled)
      · exact absurd stopped (ne_true_of_eq_false isOpen)
  | abandon here cancelled | giveUp here cancelled | leave here cancelled =>
      exact absurd cancelled (ne_true_of_eq_false uncancelled)
  | endBackOff here stops | leaveUnconnected here unconnected stops =>
      exact absurd stops (ne_true_of_eq_false going)
  | retry here | redial here | handOver here | beginRead here | letGo here | letGoInLine here =>
      rw [enter_phase, here]
      simp [runningRank]

private theorem Passes.load_le {phase : Phase} (passes : client.Passes stage phase) :
    (client.enter phase).load stage ≤ client.load stage := by
  have undialled := passes.undialled
  have less (link : Nat) : stage.itemsOf link ≤ stage.itemsOf link := Nat.le_refl _
  have plain (unread : phase.isReading = false)
      (dials : phase.dialsAt stage.now = true → client.phase.dialsAt stage.now = true) :
      (client.enter phase).load stage ≤ client.load stage :=
    load_le_of_plain rfl unread undialled (held_le_itemsInHand client stage) less rfl fun now _ => dials now
  cases passes with
  | skip | abandon =>
      obtain ⟨unseeking, unread, -⟩ := phaseAfterDial_plain client ‹Episode›
      refine plain unread fun now => ?_
      rw [Phase.undialled_now unseeking] at now
      cases now
  | retry here going late | redial here going late =>
      refine plain rfl fun _ => ?_
      rw [here]
      exact decide_eq_true late
  | @beginRead link here going held =>
      have inHand : (client.enter (.reading link stage.now)).itemsInHand stage =
          (client.slot.held.map stage.itemsOf).getD 0 := by
        simp only [itemsInHand, enter_kept, enter_phase, held, if_true, Nat.add_zero]
      unfold load
      rw [inHand]
      have fewer := held_le_itemsInHand client stage
      simp only [enter_phase, Phase.dialsAt, Bool.false_and, Bool.false_eq_true, if_false]
      exact Nat.le_trans (Nat.add_le_add_right fewer _) (Nat.le_add_right ..)
  | giveUp | endBackOff | handOver | leave | leaveUnconnected | letGo | letGoInLine =>
      exact plain rfl fun now => by cases now

/-- No wait of the client is over as soon as it begins, if it can dial without end. -/
def Pauses (client : Client) (stage : Stage) : Prop :=
  (stage.script client.url).beyond.isSome = true → 0 < client.options.supervisorDelay.millis

theorem rank_of_dialling {episode : Episode} {ends : DialEnd} {stops : Bool} {due : Nat}
    (here : client.phase = .dialling episode ends stops due) : client.rank = 9 := by
  rw [rank, here]
  exact ite_self 9

theorem rank_lt_of_undialled (undialled : client.phase.dial? = none)
    (unsinking : client.phase.isSinking = false) : client.rank < 9 := by
  unfold rank
  cases here : client.phase with
  | dialling =>
      rw [here] at undialled
      cases undialled
  | sinking =>
      rw [here] at unsinking
      cases unsinking
  | _ => split <;> simp [stoppingRank, runningRank]

theorem itemsInHand_of_dialling {episode : Episode} {ends : DialEnd} {stops : Bool} {due : Nat}
    (here : client.phase = .dialling episode ends stops due) :
    client.itemsInHand stage = (client.slot.held.map stage.itemsOf).getD 0 + stage.itemsBehind ends := by
  rw [itemsInHand, here]

theorem load_le_of_unseeking (url : client'.url = client.url)
    (unseeking : client'.phase.isSeeking = false) (unread : client'.phase.isReading = false)
    (held : (client'.slot.held.map stage'.itemsOf).getD 0 ≤ client.itemsInHand stage)
    (less : ∀ link, stage'.itemsOf link ≤ stage.itemsOf link) (scripts : stage'.scripts = stage.scripts) :
    client'.load stage' ≤ client.load stage := by
  refine load_le_of_plain url unread (Phase.undialled_of_unseeking unseeking) held less scripts fun now _ => ?_
  rw [Phase.undialled_now unseeking] at now
  cases now

private theorem EndsDial.toil_lt (consistent : client.Consistent stage) (pauses : client.Pauses stage)
    {episode : Episode} {ends : DialEnd} {stops : Bool} {due : Nat}
    (here : client.phase = .dialling episode ends stops due)
    (ended : EndsDial client stage episode ends client' stage') : client'.toil stage' < client.toil stage := by
  have empty := consistent.phase.empty (by rw [here]; rfl)
  have inHand : client.itemsInHand stage = (client.slot.held.map stage.itemsOf).getD 0 + stage.itemsBehind ends :=
    itemsInHand_of_dialling here
  have rank (undialled : client'.phase.dial? = none) (unsinking : client'.phase.isSinking = false) :
      client'.rank < client.rank := by
    rw [rank_of_dialling here]
    exact rank_lt_of_undialled undialled unsinking
  cases ended with
  | @install link next around isOpen changed =>
      obtain ⟨rfl, rfl⟩ := changeSlot_install changed isOpen empty
      obtain ⟨unseeking, unread, unsinking⟩ := phaseAfterDial_plain _ episode
      refine toil_lt_of_rank (rank (Phase.undialled_of_unseeking unseeking) unsinking) ?_
      refine load_le_of_unseeking rfl unseeking unread ?_ (fun _ => Nat.le_refl _) rfl
      rw [inHand, empty]
      exact Nat.le_of_eq (Nat.zero_add _).symm
  | @refuse link stopped =>
      obtain ⟨unseeking, unread, unsinking⟩ := phaseAfterDial_plain client episode
      refine toil_lt_of_rank (rank (Phase.undialled_of_unseeking unseeking) unsinking) ?_
      refine load_le_of_unseeking rfl unseeking unread ?_ (fun other => ?_) rfl
      · change (client.slot.held.map _).getD 0 ≤ _
        rw [empty]
        exact Nat.zero_le _
      · exact Nat.le_of_eq (Stage.itemsOf_closeHeld ..)
  | @fail error =>
      obtain ⟨undialled, unread, unsinking⟩ := phaseAfterFailure_plain client stage.now episode
      refine toil_lt_of_rank (rank undialled unsinking) ?_
      refine load_le_of_plain rfl unread undialled (held_le_itemsInHand client stage) (fun _ => Nat.le_refl _)
        rfl fun now beyond => ?_
      -- the wait that begins is not over yet
      cases episode with
      | startUp =>
          have ahead : stage.now < expiry stage.now client.options.supervisorDelay.millis := lt_expiry (pauses beyond)
          exact absurd (of_decide_eq_true now) (Nat.not_le_of_lt ahead)
      | reconnect waited =>
          rw [enter_phase, phaseAfterFailure] at now
          split at now
          · cases now
          · have positive := client.options.backoff.next_pos waited
            have ahead : stage.now < expiry stage.now (client.options.backoff.next waited).millis :=
              lt_expiry positive
            exact absurd (of_decide_eq_true now) (Nat.not_le_of_lt ahead)

private theorem beforeOutcome_toil (consistent : client.Consistent stage) {episode : Episode} {ends : DialEnd}
    {stops : Bool} {due : Nat} (here : client.phase = .dialling episode ends stops due) :
    (client.beforeOutcome stage stops).1.toil (client.beforeOutcome stage stops).2 = client.toil stage := by
  have empty := consistent.phase.empty (by rw [here]; rfl)
  cases stops with
  | false => rfl
  | true =>
      have there : (client.beforeOutcome stage true).1.phase = .dialling episode ends true due :=
        (beforeOutcome_phase true).trans here
      have rank := (rank_of_dialling there).trans (rank_of_dialling here).symm
      unfold toil
      rw [rank]
      unfold load
      rw [itemsInHand_of_dialling there, itemsInHand_of_dialling here, there, here, beforeOutcome, if_pos rfl,
        stop_eq, empty]
      rfl

/-- A dial uses up an outcome of the script, or the only dial of the instant beyond it. -/
private theorem dial_toil {episode : Episode} {outcome : Outcome} (here : client.phase = .connecting episode)
    (going : client.shouldStop = false) (goes : client'.shouldStop = false)
    (there : client'.phase = outcome.phase episode stage.now) (url : client'.url = client.url)
    (slot : client'.slot = client.slot) (next : stage.nextOutcome client.url = (outcome, stage')) :
    client'.toil stage' < client.toil stage := by
  have script := Stage.script_nextOutcome next
  have items : stage'.itemsOf = stage.itemsOf := by
    obtain ⟨-, rfl⟩ := Prod.mk.inj next
    rfl
  have works : stage'.outcomesWork = stage.outcomesWork := by
    unfold Stage.outcomesWork Stage.outcomeWork Stage.itemsBehind
    rw [items]
  have before : client.itemsInHand stage = (client.slot.held.map stage.itemsOf).getD 0 :=
    itemsInHand_of_plain (by rw [here]; rfl) (by rw [here]; rfl)
  have after : client'.itemsInHand stage' =
      (client.slot.held.map stage.itemsOf).getD 0 + (outcome.ends.map stage.itemsBehind).getD 0 := by
    have behind : stage'.itemsBehind = stage.itemsBehind := by
      unfold Stage.itemsBehind
      rw [items]
    rw [itemsInHand, slot, items, there, Outcome.phase, behind]
    cases outcome.ends <;> rfl
  have unplanned (now : Nat) : client'.phase.dialsAt now = false := by
    rw [there, Outcome.phase]
    split <;> rfl
  have spent : client'.load stage' =
      client'.itemsInHand stage' + stage.outcomesWork (stage'.script client.url) := by
    rw [load, unplanned, works, url]
    rfl
  have had : client.load stage = client.itemsInHand stage + stage.outcomesWork (stage.script client.url) +
      if (stage.script client.url).beyond.isSome then 1 else 0 := by
    rw [load, here]
    rfl
  rcases stage.next_spends (stage.script client.url) with spends | hangs
  · refine toil_lt_of_load ?_
    simp only [script] at spends
    rw [spent, had, before, after]
    omega
  · obtain ⟨rfl, left⟩ := Prod.mk.inj (script.symm.trans hangs)
    have keeps : client'.shouldStop = client.shouldStop := goes.trans going.symm
    refine toil_lt_of_rank (rank_lt_of_phases keeps (fun stopping => ?_) fun _ => ?_) ?_
    · exact absurd stopping (ne_true_of_eq_false going)
    · rw [there, here]
      exact (by decide : 2 < 3)
    · rw [spent, had, before, after, left]
      exact Nat.le_add_right ..

private theorem takeFrame_toil (consistent : client.Consistent stage) {link since : Nat} {frame : List UInt8}
    (here : client.phase = .reading link since) (reads : stage.Reads link (.ok frame) stage')
    (takes : TakesFrame (client.note stage.now (.read link (.ok frame))) stage.now frame client') :
    client'.toil stage' < client.toil stage := by
  obtain ⟨unseeking, unread, -, options, -, -, slot⟩ := takes.settled
  have holds := consistent.held_of_frame here reads
  have fewer := reads.itemsOf_lt
  have script : stage'.script client'.url = stage.script client.url := by
    rw [show client'.url = client.url from url_eq options, Stage.script, Stage.script, reads.scripts]
  have outcomes := Stage.outcomesWork_le reads.itemsOf_le (stage.script client.url)
  have left : client'.slot.held = some link := (congrArg Slot.held slot).trans holds
  have inHand : client'.itemsInHand stage' = stage'.itemsOf link := by
    rw [itemsInHand_of_plain unread (Phase.undialled_of_unseeking unseeking), left]
    rfl
  have few : client'.load stage' = stage'.itemsOf link + stage'.outcomesWork (stage.script client.url) := by
    rw [load, Phase.undialled_now unseeking, script, inHand]
    rfl
  have items : stage.itemsOf link ≤ client.itemsInHand stage := by
    have held := held_le_itemsInHand client stage
    rw [holds] at held
    exact held
  refine toil_lt_of_load ?_
  rw [few, load]
  omega

/-- The first wait of a back-off is not over as it begins. -/
private theorem not_due_at_first (client : Client) (now : Nat) :
    ¬expiry now client.options.backoff.first.millis ≤ now :=
  Nat.not_le_of_lt (lt_expiry client.options.backoff.first_pos)

private theorem drop_toil (consistent : client.Consistent stage) {link since : Nat} {error : TransportError}
    {around : Stage} (here : client.phase = .reading link since) (fails : FailsRead client stage link since error around)
    (going : client.shouldStop = false)
    (changed : (((client.note stage.now (.read link (.error error))).log stage.now (client.readReport error)).count
        .read).changeSlot around (client.slot.discard link) = (client', stage')) :
    (client'.enter (client'.firstBackingOff stage'.now)).toil stage' < client.toil stage := by
  have isOpen := (going_of_shouldStop going).2
  have holds := consistent.held_of_reading here isOpen
  have less := fails.itemsOf_le
  obtain ⟨rfl, rfl⟩ := changeSlot_discard changed holds
  obtain ⟨links, rfl⟩ := fails.links
  refine toil_lt_of_rank (rank_lt_of_phases rfl (fun stopping => ?_) fun _ => ?_)
    (load_le_of_plain rfl rfl rfl (Nat.zero_le _) (fun other => ?_) rfl fun now _ => ?_)
  · exact absurd stopping (ne_true_of_eq_false going)
  · rw [here]
    exact (by decide : 4 < 5)
  · rw [Stage.itemsOf_closeHeld]
    exact less other
  · exact absurd (of_decide_eq_true now) (not_due_at_first client stage.now)

private theorem endSink_toil {start due : Nat} {mark : Option Nat} (here : client.phase = .sinking start mark due) :
    (client.endSink stage.now start mark).toil stage < client.toil stage := by
  obtain ⟨-, options, -, -, cancelled, slot, -⟩ := endSink_kept client stage.now start mark
  have held := held_le_itemsInHand client stage
  rw [← slot] at held
  refine toil_lt_of_rank (rank_lt_of_phases (shouldStop_eq cancelled slot) (fun _ => ?_) fun _ => ?_)
    (load_le_of_unseeking (url_eq options) ?_ ?_ held (fun _ => Nat.le_refl _) rfl) <;> rw [endSink_phase]
  · rw [here]
    cases mark <;> simp [phaseAfterSink, stoppingRank]
  · rw [here]
    cases mark <;> simp [phaseAfterSink, runningRank]
  · cases mark <;> rfl
  · cases mark <;> rfl

private theorem endSend_toil {mark : Nat} {how : SendEnd} {channel channel' : Channel}
    (ends : EndsSend client stage mark how channel channel') :
    (client.endSend stage.now mark how).toil { stage with channel := some channel' } < client.toil stage := by
  obtain ⟨-, options, -, -, cancelled, slot, -⟩ := endSend_kept client stage.now mark how
  have held := held_le_itemsInHand client stage
  rw [← slot] at held
  have left : client.rank > (client.endSend stage.now mark how).rank := by
    refine rank_lt_of_phases (shouldStop_eq cancelled slot) (fun _ => ?_) fun _ => ?_ <;> rw [endSend_phase]
    · cases ends with
      | atOnce here | inLine here =>
          rw [here]
          simp [stoppingRank]
    · cases ends with
      | atOnce here | inLine here =>
          rw [here]
          simp [runningRank]
  refine toil_lt_of_rank left (load_le_of_unseeking (url_eq options) ?_ ?_ held (fun _ => Nat.le_refl _) rfl) <;>
    rw [endSend_phase] <;> rfl

/-- A move lowers the toil. -/
theorem Moves.toil_lt (consistent : client.Consistent stage) (pauses : client.Pauses stage)
    (moves : client.Moves stage client' stage') : client'.toil stage' < client.toil stage := by
  have still (link : Nat) : stage.itemsOf link ≤ stage.itemsOf link := Nat.le_refl _
  have held := held_le_itemsInHand client stage
  cases moves with
  | pass passes => exact toil_lt_of_rank (passes.rank_lt consistent) passes.load_le
  | @skipCancelled episode here enabled isOpen cancelled =>
      obtain ⟨unseeking, unread, unsinking⟩ := phaseAfterDial_plain client episode
      have stopping : client.shouldStop = true := Bool.or_eq_true_iff.mpr (.inl cancelled)
      refine toil_lt_of_rank (rank_lt_of_phases rfl (fun _ => ?_) fun going => ?_)
        (load_le_of_unseeking rfl unseeking unread held still rfl)
      · rw [here]
        exact Nat.lt_of_le_of_lt (phaseAfterDial_stopping stopping episode).1 (by decide : 3 < 7)
      · exact absurd stopping (ne_true_of_eq_false going)
  | dial here enabled isOpen going next =>
      have going : client.shouldStop = false := Bool.or_eq_false_iff.mpr ⟨going, isOpen⟩
      exact dial_toil here going going rfl rfl rfl next
  | @endDial episode ends stops due _ _ here going late ended =>
      rw [← beforeOutcome_toil consistent here]
      have there : (client.beforeOutcome stage stops).1.phase = .dialling episode ends stops due :=
        (beforeOutcome_phase stops).trans here
      refine ended.toil_lt (consistent.beforeOutcome stops) (fun beyond => ?_) there
      cases stops with
      | false => exact pauses beyond
      | true =>
          rw [beforeOutcome, if_pos rfl, stop_eq] at beyond ⊢
          obtain ⟨links, same⟩ := closeHeld_links { stage with stopAsked := true } client.slot.held
          rw [same] at beyond
          exact pauses beyond
  | takeFrame here reads takes => exact takeFrame_toil consistent here reads takes
  | endReading here fails stopping =>
      have less := fails.itemsOf_le
      have held := Nat.le_trans (held_items_le less client.slot.held) held
      obtain ⟨links, rfl⟩ := fails.links
      refine toil_lt_of_rank (rank_lt_of_phases rfl (fun _ => ?_) fun _ => ?_)
        (load_le_of_unseeking rfl rfl rfl held less rfl)
      · rw [here]
        exact (by decide : 0 < 2)
      · rw [here]
        exact (by decide : 0 < 5)
  | drop here fails going changed => exact drop_toil consistent here fails going changed
  | reconnect here unconnected going =>
      refine toil_lt_of_rank (rank_lt_of_phases rfl (fun stopping => ?_) fun _ => ?_)
        (load_le_of_plain rfl rfl rfl held still rfl fun now _ => ?_)
      · exact absurd stopping (ne_true_of_eq_false going)
      · rw [here]
        exact (by decide : 4 < 6)
      · exact absurd (of_decide_eq_true now) (not_due_at_first client stage.now)
  | endSink here late => exact endSink_toil here
  | getInLine here observed sent =>
      refine toil_lt_of_rank (rank_lt_of_phases rfl (fun _ => ?_) fun _ => ?_)
        (load_le_of_unseeking rfl rfl rfl held still rfl)
      · rw [here]
        exact (by decide : 4 < 5)
      · rw [here]
        exact (by decide : 7 < 8)
  | endSend observed ends => exact endSend_toil ends

/-! ### Coming to rest -/

theorem EndsDial.scripts {episode : Episode} {ends : DialEnd}
    (ended : EndsDial client stage episode ends client' stage') : stage'.scripts = stage.scripts := by
  obtain ⟨links, rfl⟩ := ended.links
  rfl

/-- Whether a client can dial without end is decided at the opening. -/
theorem Moves.beyond (moves : client.Moves stage client' stage') :
    (stage'.script client.url).beyond = (stage.script client.url).beyond := by
  have same (scripts : stage'.scripts = stage.scripts) :
      (stage'.script client.url).beyond = (stage.script client.url).beyond := by
    rw [Stage.script, Stage.script, scripts]
  cases moves with
  | pass | skipCancelled | reconnect | endSink | getInLine | endSend => rfl
  | dial here enabled isOpen going next =>
      rw [← (stage.script client.url).next_beyond, Stage.script_nextOutcome next]
  | @endDial episode ends stops due _ _ here going late ended =>
      refine same (ended.scripts.trans ?_)
      cases stops with
      | false => rfl
      | true =>
          obtain ⟨links, stopped⟩ := stop_links client { stage with stopAsked := true }
          rw [beforeOutcome, if_pos rfl, stopped]
  | takeFrame here reads takes => exact same reads.scripts
  | endReading here fails stopping =>
      obtain ⟨links, rfl⟩ := fails.links
      rfl
  | drop here fails going changed =>
      obtain ⟨links, rfl⟩ := fails.links
      obtain ⟨links', rfl⟩ := changeSlot_links changed
      rfl

theorem Pauses.moves (pauses : client.Pauses stage) (moves : client.Moves stage client' stage') :
    client'.Pauses stage' := by
  intro endless
  have options := moves.keeps.options
  rw [url, options] at endless
  rw [options]
  exact pauses (moves.beyond ▸ endless)

/-- A client that moves as often as its toil says, or more often, comes to rest. -/
theorem Consistent.moveUpTo_atRest (consistent : client.Consistent stage) (pauses : client.Pauses stage)
    {count : Nat} (enough : client.toil stage ≤ count) :
    (moveUpTo count client stage).1.atRest (moveUpTo count client stage).2 := by
  induction count generalizing client stage with
  | zero =>
      cases moved : client.move? stage with
      | none => exact moved
      | some next =>
          obtain ⟨next, around, moves, -, -⟩ := moves_of_move moved
          have less : next.toil around < client.toil stage := moves.toil_lt consistent pauses
          omega
  | succ count ih =>
      unfold moveUpTo
      cases moved : client.move? stage with
      | none => exact moved
      | some next =>
          obtain ⟨client', stage'⟩ := next
          have acts : client.Acts stage client' stage' := .move moved
          obtain ⟨next, around, moves, rfl, rfl⟩ := moves_of_move moved
          have less : next.toil around < client.toil stage := moves.toil_lt consistent pauses
          have pauses : next.Pauses around := pauses.moves moves
          refine ih (consistent.acts acts) pauses ?_
          show next.toil around ≤ count
          omega

theorem Consistent.settle_atRest (consistent : client.Consistent stage) (pauses : client.Pauses stage) :
    (client.settle stage).1.atRest (client.settle stage).2 :=
  consistent.moveUpTo_atRest pauses toil_le_work

/-- Whatever a client at rest waits for lies ahead. -/
theorem lt_due_of_atRest (rest : client.atRest stage) {due : Nat} (waits : client.due? = some due) :
    stage.now < due := by
  refine Nat.lt_of_not_le fun late => ?_
  rw [atRest_iff, proceed?] at rest
  rw [due?] at waits
  cases here : client.phase with
  | idle | connecting | hanging | ready | looping | confirming =>
      rw [here] at waits
      cases waits
  | dialling | retrying | backingOff =>
      simp only [here, Option.some.injEq] at waits rest
      subst waits
      simp only [if_pos late] at rest
      split at rest <;> cases rest
  | sinking =>
      simp only [here, Option.some.injEq] at waits rest
      subst waits
      rw [if_pos late] at rest
      cases rest
  | reading link since =>
      simp only [here] at waits rest
      cases found : stage.readLink? link with
      | some result => simp [read?, found] at rest
      | none => simp [read?, found, waits, late] at rest
  | sending mark deadline =>
      simp only [here, Option.some.injEq] at waits rest
      subst waits
      unfold send? at rest
      cases observed : stage.channel with
      | none => simp [observed] at rest
      | some channel =>
          have ended : ∃ how channel', channel.resumeSend client.number mark deadline client.cancelled stage.now =
              (.ended how, channel') := by
            unfold Channel.resumeSend
            rw [if_pos late]
            repeat' split
            all_goals exact ⟨_, _, rfl⟩
          obtain ⟨how, channel', ended⟩ := ended
          simp [observed, ended] at rest

end Client

end SequencedFeed
