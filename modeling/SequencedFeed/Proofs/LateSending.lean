import SequencedFeed.Proofs.Likeness
import SequencedFeed.Proofs.Standstill
set_option autoImplicit false

/-!
# What is sent later is read later

A client that can move does not look behind the item that comes next, so it makes the same move if more has been
sent. That is why it does not matter whether several items are sent at once, or some of them only when the client
has come to rest after the others.
-/

namespace SequencedFeed

namespace Link

/-- A change that only shows behind everything that is there to be read. -/
structure Appends (change : Link → Link) : Prop where
  close : ∀ link, change link.close = (change link).close
  read : ∀ {link rest : Link} {result : ReadResult}, link.read? = some (result, rest) →
    (change link).read? = some (result, change rest)

theorem push_appends (item : ReadResult) : Appends (push item) where
  close link := by
    unfold push close
    split <;> rfl
  read {link rest result} reads := by
    cases hungUp : link.hungUp with
    | true =>
        have gone : rest.hungUp = true := by
          unfold read? at reads
          repeat' split at reads
          all_goals
            cases reads
            try exact hungUp
        rw [push, if_pos hungUp, reads, push, if_pos gone]
    | false =>
        have open_end (link : Link) (open_end : link.hungUp = false) :
            link.push item = { link with sent := link.sent ++ [item] } := if_neg (by simp [open_end])
        by_cases closed : link.isClosed = true
        · rw [read?, if_pos closed] at reads
          obtain ⟨rfl, rfl⟩ := Prod.mk.inj (Option.some.inj reads)
          have closed' : (link.push item).isClosed = true := by rwa [open_end link hungUp]
          rw [read?, if_pos closed']
        · have isOpen' : ¬(link.push item).isClosed = true := by rwa [open_end link hungUp]
          rw [read?, if_neg closed] at reads
          rw [read?, if_neg isOpen']
          cases next : link.sent[link.taken]? with
          | none => simp [next, hungUp] at reads
          | some found =>
              have inside := (List.getElem?_eq_some_iff.mp next).1
              simp only [next, Option.some.injEq, Prod.mk.injEq] at reads
              obtain ⟨rfl, rfl⟩ := reads
              simp only [open_end link hungUp, List.getElem?_append_left inside, next]
              rw [open_end _ (by exact hungUp)]

theorem repeat_appends {change : Link → Link} (once : Appends change) (times : Nat) :
    Appends (Nat.repeat change times) := by
  induction times with
  | zero => exact ⟨fun _ => rfl, id⟩
  | succ times ih =>
      exact
        { close := fun link => (congrArg change (ih.close link)).trans (once.close _)
          read := fun reads => once.read (ih.read reads) }

end Link

variable {client : Client} {stage : Stage} {number : Nat} {change : Link → Link}

namespace Stage

theorem changeLink_close (appends : Link.Appends change) (stage : Stage) (number link : Nat) :
    (stage.changeLink number change).changeLink link Link.close =
      (stage.changeLink link Link.close).changeLink number change := by
  have links : (stage.links.modify number change).modify link Link.close =
      (stage.links.modify link Link.close).modify number change := by
    by_cases same : number = link
    · subst same
      rw [List.modify_modify_eq, List.modify_modify_eq]
      exact congrArg (stage.links.modify number) (funext fun link => (appends.close link).symm)
    · exact List.modify_modify_ne _ _ _ same
  unfold changeLink
  rw [links]

theorem readLink_changeLink (appends : Link.Appends change) {link : Nat} {result : ReadResult} {later : Stage}
    (reads : stage.readLink? link = some (result, later)) :
    (stage.changeLink number change).readLink? link = some (result, later.changeLink number change) := by
  unfold readLink? at reads ⊢
  cases found : stage.links[link]? with
  | none => simp [found] at reads
  | some held =>
      cases taken : held.read? with
      | none => simp [found, taken] at reads
      | some read =>
          obtain ⟨result', rest⟩ := read
          simp only [found, taken, Option.bind_some, Option.some.injEq, Prod.mk.injEq] at reads
          obtain ⟨rfl, rfl⟩ := reads
          have links (rest' : Link) (there : rest' = if number = link then change rest else rest) :
              (stage.links.modify number change).set link rest' = (stage.links.set link rest).modify number change := by
            apply List.ext_getElem?
            intro place
            rw [List.getElem?_modify, List.getElem?_set', List.getElem?_set', List.getElem?_modify]
            by_cases here : link = place
            · subst here
              by_cases same : number = link <;> simp [found, there, same]
            · simp [here]
          by_cases same : number = link
          · subst same
            have read := appends.read taken
            simp only [changeLink, List.getElem?_modify_eq, found, Option.map_eq_map, Option.map_some, Option.bind_some, read]
            rw [links _ (if_pos rfl).symm]
          · simp only [changeLink, List.getElem?_modify_ne change stage.links same, found, Option.bind_some, taken]
            rw [links _ (if_neg same).symm]

end Stage

namespace Client

section

variable (appends : Link.Appends change) (client : Client) (stage : Stage) (number : Nat)
include appends

private theorem carryOut_changeLink (effect : SlotEffect Nat) :
    client.carryOut (stage.changeLink number change) effect =
      ((client.carryOut stage effect).1, (client.carryOut stage effect).2.changeLink number change) := by
  cases effect with
  | enter => rfl
  | refuse link | release link => exact Prod.ext rfl (Stage.changeLink_close appends stage number link)

private theorem changeSlot_changeLink (slots : Slot Nat × List (SlotEffect Nat)) :
    client.changeSlot (stage.changeLink number change) slots =
      ((client.changeSlot stage slots).1, (client.changeSlot stage slots).2.changeLink number change) := by
  obtain ⟨slot, effects⟩ := slots
  unfold changeSlot
  generalize { client with slot := slot } = client
  induction effects generalizing client stage with
  | nil => rfl
  | cons effect rest ih =>
      simp only [List.foldl_cons, carryOut_changeLink appends]
      exact ih ..

private theorem stop_changeLink :
    client.stop (stage.changeLink number change) =
      ((client.stop stage).1, (client.stop stage).2.changeLink number change) :=
  changeSlot_changeLink appends ..

private theorem takeConnection_changeLink (episode : Episode) (link : Nat) :
    client.takeConnection (stage.changeLink number change) episode link =
      ((client.takeConnection stage episode link).1,
        (client.takeConnection stage episode link).2.changeLink number change) := by
  unfold takeConnection
  rw [changeSlot_changeLink appends]
  rfl

private theorem endDial_changeLink (episode : Episode) (ends : DialEnd) (stops : Bool) :
    client.endDial (stage.changeLink number change) episode ends stops =
      ((client.endDial stage episode ends stops).1,
        (client.endDial stage episode ends stops).2.changeLink number change) := by
  have before : client.beforeOutcome (stage.changeLink number change) stops =
      ((client.beforeOutcome stage stops).1, (client.beforeOutcome stage stops).2.changeLink number change) := by
    cases stops with
    | false => rfl
    | true => exact stop_changeLink appends client { stage with stopAsked := true } number
  rw [endDial_eq, endDial_eq, before]
  cases ends with
  | connect link => exact takeConnection_changeLink appends ..
  | fail error => rfl

private theorem sufferRead_changeLink (link : Option Nat) (error : TransportError) :
    client.sufferRead (stage.changeLink number change) link error =
      ((client.sufferRead stage link error).1, (client.sufferRead stage link error).2.changeLink number change) := by
  unfold sufferRead
  split
  · rfl
  · cases link with
    | none => rfl
    | some link =>
        simp only [changeSlot_changeLink appends]
        rfl

private theorem endRead_changeLink (link : Nat) (result : ReadResult) :
    client.endRead (stage.changeLink number change) link result =
      ((client.endRead stage link result).1, (client.endRead stage link result).2.changeLink number change) := by
  cases result with
  | ok frame => rfl
  | error error =>
      exact sufferRead_changeLink appends (client.note stage.now (.read link (.error error))) stage number (some link) error

private theorem beginRead_changeLink :
    client.beginRead (stage.changeLink number change) =
      ((client.beginRead stage).1, (client.beginRead stage).2.changeLink number change) := by
  unfold beginRead
  split
  · rfl
  · split
    · rfl
    · exact sufferRead_changeLink appends ..

end

private theorem dial_changeLink (client : Client) (stage : Stage) (number : Nat) (change : Link → Link) (episode : Episode) :
    client.dial (stage.changeLink number change) episode =
      ((client.dial stage episode).1, (client.dial stage episode).2.changeLink number change) := by
  rw [dial_eq, dial_eq]
  split
  · rfl
  split
  · rfl
  · rfl

private theorem beginSend_changeLink (client : Client) (stage : Stage) (number : Nat) (change : Link → Link) (mark : Nat) :
    client.beginSend (stage.changeLink number change) mark =
      ((client.beginSend stage mark).1, (client.beginSend stage mark).2.changeLink number change) := by
  have channel : (stage.changeLink number change).channel = stage.channel := rfl
  have now : (stage.changeLink number change).now = stage.now := rfl
  unfold beginSend
  rw [channel]
  cases stage.channel with
  | none => rfl
  | some channel =>
      simp only [now]
      obtain ⟨⟨sending, changed⟩, sent⟩ : ∃ found, channel.beginSend client.number mark client.options.confirmationTimeout
        client.cancelled stage.now = found := ⟨_, rfl⟩
      rw [sent]
      cases sending with
      | ended how => rfl
      | inLine deadline => rfl

private theorem send_changeLink {client client' : Client} {stage stage' : Stage} (number : Nat) (change : Link → Link)
    {mark deadline : Nat} (sends : client.send? stage mark deadline = some (client', stage')) :
    client.send? (stage.changeLink number change) mark deadline = some (client', stage'.changeLink number change) := by
  have channel : (stage.changeLink number change).channel = stage.channel := rfl
  have now : (stage.changeLink number change).now = stage.now := rfl
  unfold send? at sends ⊢
  rw [channel]
  cases observed : stage.channel with
  | none =>
      simp only [observed, Option.some.injEq, Prod.mk.injEq] at sends
      obtain ⟨rfl, rfl⟩ := sends
      rfl
  | some channel =>
      simp only [observed, now] at sends ⊢
      obtain ⟨⟨sending, changed⟩, resumed⟩ : ∃ found, channel.resumeSend client.number mark deadline client.cancelled
        stage.now = found := ⟨_, rfl⟩
      rw [resumed] at sends ⊢
      cases sending with
      | inLine later => cases sends
      | ended how =>
          obtain ⟨rfl, rfl⟩ := Prod.mk.inj (Option.some.inj sends)
          rfl

/-- A client that waits for items as long as it takes does not see what has been sent behind the next one. -/
theorem proceed_changeLink (appends : Link.Appends change) {client client' : Client} {stage stage' : Stage} (number : Nat)
    (endless : client.options.endpoint.idleTimeout.millis = 0)
    (proceeds : client.proceed? stage = some (client', stage')) :
    client.proceed? (stage.changeLink number change) = some (client', stage'.changeLink number change) := by
  have now : (stage.changeLink number change).now = stage.now := rfl
  unfold proceed? at proceeds ⊢
  rw [now]
  cases here : client.phase with
  | idle => simp [here] at proceeds
  | connecting episode =>
      simp only [here, Option.some.injEq] at proceeds ⊢
      rw [dial_changeLink, proceeds]
  | hanging | retrying | backingOff | ready | sinking =>
      simp only [here] at proceeds ⊢
      grind
  | dialling episode ends stops due =>
      simp only [here] at proceeds ⊢
      have ended := endDial_changeLink appends client stage number episode ends stops
      grind
  | looping =>
      simp only [here, Option.some.injEq] at proceeds ⊢
      rw [beginRead_changeLink appends, proceeds]
  | reading link since =>
      have waits : client.idleDeadline? since = none := by
        unfold idleDeadline?
        rw [endless]
        rfl
      simp only [here, read?, waits] at proceeds ⊢
      cases read : stage.readLink? link with
      | none => simp [read] at proceeds
      | some result =>
          obtain ⟨result, later⟩ := result
          simp only [read, Option.some.injEq] at proceeds
          simp only [Stage.readLink_changeLink appends read, endRead_changeLink appends, proceeds]
  | confirming mark =>
      simp only [here, Option.some.injEq] at proceeds ⊢
      rw [beginSend_changeLink, proceeds]
  | sending mark deadline =>
      simp only [here] at proceeds ⊢
      exact send_changeLink number change proceeds

theorem move_changeLink (appends : Link.Appends change) {client client' : Client} {stage stage' : Stage} (number : Nat)
    (endless : client.options.endpoint.idleTimeout.millis = 0) (moved : client.move? stage = some (client', stage')) :
    client.move? (stage.changeLink number change) = some (client', stage'.changeLink number change) := by
  unfold move? at moved ⊢
  obtain ⟨⟨next, around⟩, proceeds, same⟩ := Option.map_eq_some_iff.mp moved
  obtain ⟨rfl, rfl⟩ := Prod.mk.inj same
  rw [proceed_changeLink appends number endless proceeds]
  rfl

/-- A client that waits for items as long as it takes comes to the same rest if some of them are only sent when it
has come to rest without them. -/
theorem Consistent.settle_changeLink (appends : Link.Appends change) (sends : Link.OnlySends change)
    (consistent : client.Consistent stage) (pauses : client.Pauses stage)
    (endless : client.options.endpoint.idleTimeout.millis = 0) (number : Nat) :
    client.settle (stage.changeLink number change) =
      (client.settle stage).1.settle ((client.settle stage).2.changeLink number change) := by
  induction toil : client.toil stage using Nat.strongRecOn generalizing client stage with
  | _ most ih =>
      subst toil
      cases moved : client.move? stage with
      | none => rw [Client.settle_atRest moved]
      | some next =>
          obtain ⟨client', stage'⟩ := next
          have acts : client.Acts stage client' stage' := .move moved
          have less := consistent.toil_lt_of_move pauses moved
          have options : client'.options = client.options := by
            obtain ⟨next, around, moves, rfl, rfl⟩ := moves_of_move moved
            exact moves.keeps.options
          have sent : client.Consistent (stage.changeLink number change) :=
            consistent.later (Stage.changeLink_grows sends number).later
          rw [consistent.settle_of_move pauses moved, sent.settle_of_move pauses (move_changeLink appends number endless moved)]
          exact ih _ less (consistent.acts acts) (acts.pauses pauses) (by rwa [options]) rfl

theorem settle_names (client : Client) (stage : Stage) : (client.settle stage).2.names = stage.names := by
  have moving (count : Nat) (client : Client) (stage : Stage) : (moveUpTo count client stage).2.names = stage.names := by
    induction count generalizing client stage with
    | zero => rfl
    | succ count ih =>
        unfold moveUpTo
        cases moved : client.move? stage with
        | none => rfl
        | some next =>
            have acts : client.Acts stage next.1 next.2 := .move moved
            exact (ih next.1 next.2).trans acts.later.names
  exact moving _ client stage

end Client

/-! ### Steps -/

namespace Stage

theorem push_add (stage : Stage) (name : String) (item : ReadResult) (first second : Nat) :
    stage.push name item (first + second) = (stage.push name item first).push name item second := by
  have repeats (link : Link) : Nat.repeat (Link.push item) (first + second) link =
      Nat.repeat (Link.push item) second (Nat.repeat (Link.push item) first link) := by
    induction second with
    | zero => rfl
    | succ second ih => exact congrArg (Link.push item) ih
  have sends := Link.repeat_onlySends (Link.push_onlySends item) first
  have later : Link.lastNamed? (stage.push name item first).links name = Link.lastNamed? stage.links name :=
    Link.lastNamed_eq (changeNamed_grows sends name).names name
  rw [push, changeNamed, push, changeNamed, later, push, changeNamed]
  cases Link.lastNamed? stage.links name with
  | none => rfl
  | some link =>
      simp only [changeLink, List.modify_modify_eq]
      exact congrArg (fun change => { stage with links := stage.links.modify link change }) (funext repeats)

end Stage

namespace Client

/-- A client that waits for items as long as it takes comes to the same rest if what is sent at last is only sent
when it has come to rest without it. -/
theorem Consistent.settle_push (consistent : client.Consistent stage) (pauses : client.Pauses stage)
    (endless : client.options.endpoint.idleTimeout.millis = 0) (name : String) (item : ReadResult) (times : Nat) :
    client.settle (stage.push name item times) =
      (client.settle stage).1.settle ((client.settle stage).2.push name item times) := by
  have rest : (client.settle stage).1.atRest (client.settle stage).2 := consistent.settle_atRest pauses
  have later : Link.lastNamed? (client.settle stage).2.links name = Link.lastNamed? stage.links name :=
    Link.lastNamed_eq (client.settle_names stage) name
  rw [Stage.push, Stage.push, Stage.changeNamed, Stage.changeNamed, later]
  cases Link.lastNamed? stage.links name with
  | none => exact (Client.settle_atRest rest).symm
  | some link =>
      exact consistent.settle_changeLink (Link.repeat_appends (Link.push_appends item) times)
        (Link.repeat_onlySends (Link.push_onlySends item) times) pauses endless link

end Client

namespace ClientRun

variable {run : ClientRun}

private theorem settle_idle {client : Client} (idle : client.isIdle = true) (stage : Stage) :
    client.settle stage = (client, stage) := by
  have phase : client.phase = .idle := of_decide_eq_true idle
  refine Client.settle_atRest (Client.atRest_iff.mpr ?_)
  simp only [Client.proceed?, phase]

private theorem collect_between (client : Client) (stage later : Stage) (waiting : Nat) (stopped : List Nat)
    (now : later.now = stage.now) :
    ({ collect ⟨stage, client, waiting, stopped⟩ with stage := later } : ClientRun).settle =
      collect ⟨(client.settle later).2, (client.settle later).1, waiting, stopped⟩ := by
  by_cases idle : client.isIdle = true
  · simp [collect, ClientRun.settle, idle, settle_idle, now]
  · simp [collect, ClientRun.settle, idle]

theorem Still.push_append (still : run.Still) (endless : run.client.options.endpoint.idleTimeout.millis = 0)
    (name : String) (item : ReadResult) (first second : Nat) :
    (run.apply (.push name item (first + second))).1 =
      ((run.apply (.push name item first)).1.apply (.push name item second)).1 := by
  have changes : run.stage.Changes (run.stage.push name item first) := .push name item first
  have consistent := still.consistent.later changes.grows.later
  have pauses : run.client.Pauses (run.stage.push name item first) := by
    rw [Client.Pauses, Stage.script, changes.grows.scripts]
    exact still.pauses
  have parts := consistent.settle_push pauses endless name item second
  simp only [apply_eq, begin]
  have settled (stage : Stage) : ({ run with stage } : ClientRun).settle =
      collect ⟨(run.client.settle stage).2, (run.client.settle stage).1, run.waiting, run.stopped⟩ := rfl
  rw [Stage.push_add, settled, settled, (collect_kept _).2, parts]
  generalize run.client.settle (run.stage.push name item first) = middle
  have now : (middle.2.push name item second).now = middle.2.now := Stage.changeNamed_now ..
  exact (collect_between middle.1 middle.2 (middle.2.push name item second) run.waiting run.stopped now).symm

end ClientRun

end SequencedFeed
