import SequencedFeed.Proofs.Queueing
import SequencedFeed.Proofs.Time
set_option autoImplicit false

/-!
# Calls of one publisher, side by side

Whatever is done to a publisher, its calls share out the channel in the order in which they began, none of them
outlasts its time limit, and what is reported and counted are the values dropped. The main statement is
`calls_share_channel`.
-/

namespace SequencedFeed

variable {timeout : Duration} {now : Nat}

/-! ### Time limits -/

/-- A call never goes on beyond its deadline, and it times out at that very instant. -/
structure PublishCall.InTime (call : PublishCall) (timeout : Duration) (now : Nat) : Prop where
  begun : call.begun ≤ call.time
  past : call.time ≤ now
  waits : ∀ deadline, call.sending = .inLine deadline →
    deadline = call.begun + timeout.millis ∧ now ≤ deadline
  ended : ∀ how, call.sending = .ended how → call.time ≤ call.begun + timeout.millis
  timedOut : call.sending = .ended .timedOut → call.time = call.begun + timeout.millis

/-- A call is only abandoned because of a cancellation, and finds the channel closed only if it is. -/
structure PublishCall.Explained (call : PublishCall) (cancelled isOpen : Bool) : Prop where
  abandoned : call.sending = .ended .abandoned → cancelled = true
  closed : call.sending = .ended .closed → isOpen = false

theorem PublishCall.InTime.pass {call : PublishCall} (inTime : call.InTime timeout now) {instant : Nat}
    (passes : now ≤ instant) (early : ∀ deadline, call.sending = .inLine deadline → instant ≤ deadline) :
    call.InTime timeout instant :=
  { inTime with
    past := Nat.le_trans inTime.past passes
    waits := fun deadline here => ⟨(inTime.waits deadline here).1, early deadline here⟩ }

theorem Channel.verdict_cases (channel : Channel) (sender deadline : Nat) (cancelled : Bool) (now : Nat) :
    channel.verdict sender deadline cancelled now = .inLine deadline ∨
      ∃ how, channel.verdict sender deadline cancelled now = .ended how ∧ (how = .timedOut → deadline ≤ now) ∧
        (how = .abandoned → cancelled = true) ∧ (how = .closed → channel.isOpen = false) := by
  unfold verdict
  split
  · exact .inr ⟨.abandoned, rfl, nofun, fun _ => ‹_›, nofun⟩
  · split
    · exact .inr ⟨.delivered, rfl, nofun, nofun, nofun⟩
    · split
      next closed => exact .inr ⟨.closed, rfl, nofun, nofun, fun _ => by simpa using closed⟩
      · split
        · exact .inr ⟨.timedOut, rfl, fun _ => ‹_›, nofun, nofun⟩
        · exact .inl rfl

namespace Publisher

variable {publisher : Publisher} {received : List Nat} {place : Nat} {call : PublishCall}

theorem resume_inTime (inTime : call.InTime timeout publisher.now) (place : Nat) :
    (publisher.resume place call).1.InTime timeout publisher.now := by
  cases here : call.sending with
  | ended how =>
      rw [resume_ended here]
      exact inTime
  | inLine deadline =>
      obtain ⟨same, early⟩ := inTime.waits deadline here
      have passed : call.begun ≤ publisher.now := Nat.le_trans inTime.begun inTime.past
      rw [resume_fst here]
      rcases publisher.channel.verdict_cases place deadline publisher.cancelled publisher.now with
        stays | ⟨how, ends, late, -⟩
      · rw [stays]
        refine ⟨passed, Nat.le_refl _, fun other there => ?_, nofun, nofun⟩
        obtain rfl := Sending.inLine.inj there
        exact ⟨same, early⟩
      · rw [ends]
        refine ⟨passed, Nat.le_refl _, nofun, fun _ _ => same ▸ early, fun timedOut => ?_⟩
        obtain rfl := Sending.ended.inj timedOut
        exact Nat.le_antisymm (same ▸ early) (same ▸ late rfl)

theorem resume_explained (explained : call.Explained publisher.cancelled publisher.channel.isOpen) (place : Nat) :
    (publisher.resume place call).1.Explained publisher.cancelled publisher.channel.isOpen := by
  cases here : call.sending with
  | ended how =>
      rw [resume_ended here]
      exact explained
  | inLine deadline =>
      rw [resume_fst here]
      rcases publisher.channel.verdict_cases place deadline publisher.cancelled publisher.now with
        stays | ⟨how, ends, -, abandoned, closed⟩
      · rw [stays]
        exact ⟨nofun, nofun⟩
      · rw [ends]
        exact ⟨fun same => abandoned (Sending.ended.inj same), fun same => closed (Sending.ended.inj same)⟩

theorem resume_value (publisher : Publisher) (place : Nat) (call : PublishCall) :
    (publisher.resume place call).1.value = call.value := by
  cases here : call.sending with
  | ended how => rw [resume_ended here]
  | inLine deadline => rw [resume_fst here]

/-! ### Between two steps -/

/-- A publisher between two steps: settled, with all its calls in time. -/
structure Sound (capacity : Nat) (timeout : Duration) (received : List Nat) (publisher : Publisher) : Prop where
  settled : publisher.Settled received
  inTime : ∀ call ∈ publisher.calls, call.InTime timeout publisher.now
  explained : ∀ call ∈ publisher.calls, call.Explained publisher.cancelled publisher.channel.isOpen
  capacity : publisher.channel.capacity = capacity
  timeout : publisher.timeout = timeout

variable {capacity : Nat}

theorem Ready.sound (ready : publisher.Ready received)
    (inTime : ∀ call ∈ publisher.calls, call.InTime timeout publisher.now)
    (explained : ∀ call ∈ publisher.calls, call.Explained publisher.cancelled publisher.channel.isOpen)
    (size : publisher.channel.capacity = capacity) (limit : publisher.timeout = timeout) :
    publisher.settle.Sound capacity timeout received ∧ publisher.settle.now = publisher.now := by
  obtain ⟨settled, calls, alike⟩ := ready.settle
  have looked {kept : PublishCall → Prop}
      (keeps : ∀ place, ∀ call ∈ publisher.calls, kept (publisher.resume place call).1) :
      ∀ call ∈ publisher.settle.calls, kept call := by
    intro call member
    rw [calls] at member
    obtain ⟨place, within, rfl⟩ := List.mem_mapIdx.mp member
    exact keeps place _ (List.getElem_mem within)
  refine ⟨⟨settled, ?_, ?_, alike.capacity.trans size, alike.timeout.trans limit⟩, alike.now⟩
  · rw [alike.now]
    exact looked fun place call member => resume_inTime (inTime call member) place
  · rw [alike.cancelled, alike.isOpen]
    exact looked fun place call member => resume_explained (explained call member) place

theorem Ready.getElem? (ready : publisher.Ready received) (found : publisher.calls[place]? = some call) :
    publisher.settle.calls[place]? = some (publisher.resume place call).1 := by
  obtain ⟨-, calls, -⟩ := ready.settle
  rw [calls, List.getElem?_mapIdx, found]
  rfl

theorem Ready.ended (ready : publisher.Ready received) (found : publisher.calls[place]? = some call)
    {how : SendEnd} (finished : call.sending = .ended how) : publisher.settle.calls[place]? = some call := by
  rw [ready.getElem? found, resume_ended finished]

theorem Ready.inLine (ready : publisher.Ready received) (found : publisher.calls[place]? = some call)
    {deadline : Nat} (here : call.sending = .inLine deadline) :
    publisher.settle.calls[place]? =
      some
        { call with
          time := publisher.now
          sending := publisher.channel.verdict place deadline publisher.cancelled publisher.now } := by
  rw [ready.getElem? found, resume_fst here]

theorem Ready.values (ready : publisher.Ready received) :
    publisher.settle.calls.map PublishCall.value = publisher.calls.map PublishCall.value := by
  obtain ⟨-, calls, -⟩ := ready.settle
  refine List.ext_getElem? fun place => ?_
  rw [calls, List.getElem?_map, List.getElem?_mapIdx, List.getElem?_map]
  cases publisher.calls[place]? with
  | none => rfl
  | some call => exact congrArg some (resume_value publisher place call)

/-! ### A call begins -/

theorem Settled.begins (settled : publisher.Settled received) {value : Nat} {cancelled : Bool} {sending : Sending}
    {channel : Channel} (call : PublishCall) (begins : publisher.channel.Begins publisher.calls.length value timeout cancelled now sending
      channel) (sends : call.sending = sending) (same : call.value = value) :
    Queueing channel (publisher.calls ++ [call]) received ∧ channel.granted = [] ∧
      channel.capacity = publisher.channel.capacity := by
  have queueing := settled.queueing
  have ungranted := settled.ungranted
  have bounded := queueing.bounded
  cases begins with
  | abandon | lose | expire =>
      refine ⟨queueing.concat ?_ ?_, ungranted, rfl⟩
      · rw [PublishCall.isInLine, sends]
      · rw [PublishCall.isDelivered, sends]
        rfl
  | put going isOpen free =>
      have left : call.isInLine = false := by rw [PublishCall.isInLine, sends]
      have delivered : call.isDelivered = true := by rw [PublishCall.isDelivered, sends]; rfl
      have nobody := bounded.nobody_waits free
      have line := queueing.line isOpen
      rw [Channel.line, ungranted, nobody] at line
      have ended := placesInLine_eq_nil_iff.mp line.symm
      refine ⟨⟨bounded.put free value, fun _ => ?_, fun _ => ?_, fun _ => ?_, queueing.gone⟩, ungranted, rfl⟩
      · rw [deliveredValues_append, deliveredValues_cons, delivered, same, ← queueing.flow isOpen, List.append_assoc]
        rfl
      · rw [placesInLine_append, ← line, placesInLine, left, Channel.line]
        simp only [Channel.put, ungranted, nobody]
        rfl
      · refine List.pairwise_append.mpr ⟨queueing.order isOpen, List.pairwise_singleton .., ?_⟩
        exact fun earlier member _ _ inLine => absurd inLine (ne_true_of_eq_false (ended earlier member))
  | wait going isOpen full patient =>
      have inLine := PublishCall.inLine_of_sending sends
      have undelivered : call.isDelivered = false := by rw [PublishCall.isDelivered, sends]; rfl
      refine ⟨⟨bounded.enqueue full _, fun isOpen => ?_, fun isOpen => ?_, fun isOpen => ?_, fun closed => ?_⟩,
        ungranted, rfl⟩
      · rw [deliveredValues_append, deliveredValues_cons, undelivered, ← queueing.flow isOpen]
        exact (List.append_nil _).symm
      · rw [placesInLine_append, ← queueing.line isOpen, placesInLine, inLine, Nat.zero_add]
        simp only [Channel.line, Channel.enqueue, List.append_assoc]
        rfl
      · refine List.pairwise_append.mpr ⟨queueing.order isOpen, List.pairwise_singleton .., ?_⟩
        exact fun _ _ later there _ => (List.mem_singleton.mp there).symm ▸ undelivered
      · exact absurd isOpen (ne_true_of_eq_false closed)

theorem begun_inTime {value : Nat} {cancelled : Bool} {sending : Sending} {channel channel' : Channel} {sender : Nat}
    (begins : channel.Begins sender value timeout cancelled now sending channel') :
    PublishCall.InTime { value, begun := now, time := now, sending } timeout now := by
  have later : now ≤ now + timeout.millis := Nat.le_add_right ..
  refine ⟨Nat.le_refl _, Nat.le_refl _, fun deadline here => ?_, fun _ _ => later, fun timedOut => ?_⟩
  · cases begins with
    | wait =>
        obtain rfl := Sending.inLine.inj here
        exact ⟨rfl, later⟩
    | abandon | lose | put | expire => cases here
  · cases begins with
    | expire going isOpen full spent =>
        rw [spent]
        exact (Nat.add_zero now).symm
    | abandon | lose | put | wait => cases timedOut

theorem begun_waits {value : Nat} {cancelled : Bool} {sending : Sending} {channel channel' : Channel} {sender : Nat}
    (begins : channel.Begins sender value timeout cancelled now sending channel') {deadline : Nat}
    (here : sending = .inLine deadline) : cancelled = false ∧ channel'.isOpen = true ∧ now < deadline := by
  cases begins with
  | wait going isOpen full patient =>
      obtain rfl := Sending.inLine.inj here
      exact ⟨going, isOpen, Nat.lt_add_of_pos_right patient⟩
  | abandon | lose | put | expire => cases here

theorem begun_explained {value : Nat} {cancelled : Bool} {sending : Sending} {channel channel' : Channel}
    {sender : Nat} (begins : channel.Begins sender value timeout cancelled now sending channel') :
    PublishCall.Explained { value, begun := now, time := now, sending } cancelled channel'.isOpen := by
  cases begins with
  | abandon stops => exact ⟨fun _ => stops, nofun⟩
  | lose going closed => exact ⟨nofun, fun _ => closed⟩
  | put | expire | wait => exact ⟨nofun, nofun⟩

theorem begun_open {value : Nat} {cancelled : Bool} {sending : Sending} {channel channel' : Channel} {sender : Nat}
    (begins : channel.Begins sender value timeout cancelled now sending channel') :
    channel'.isOpen = channel.isOpen := by
  cases begins <;> rfl

theorem publish_eq (publisher : Publisher) (value : Nat) {sending : Sending} {channel : Channel}
    (begun : publisher.channel.beginSend publisher.calls.length value publisher.timeout publisher.cancelled
      publisher.now = (sending, channel)) :
    publisher.publish value =
      note
        { publisher with
          channel
          calls := publisher.calls ++ [⟨value, publisher.now, publisher.now, sending⟩] } value sending := by
  simp only [publish, begun]

theorem publish_calls (publisher : Publisher) (value : Nat) :
    ∃ sending, (publisher.publish value).calls =
      publisher.calls ++ [⟨value, publisher.now, publisher.now, sending⟩] := by
  obtain ⟨⟨sending, channel⟩, begun⟩ : ∃ found, publisher.channel.beginSend publisher.calls.length value
    publisher.timeout publisher.cancelled publisher.now = found := ⟨_, rfl⟩
  refine ⟨sending, ?_⟩
  rw [publish_eq publisher value begun]
  exact (note_kept ..).2.2.2.2

theorem Sound.publish (sound : publisher.Sound capacity timeout received) (value : Nat) :
    (publisher.publish value).Sound capacity timeout received := by
  obtain ⟨settled, inTime, explained, size, limit⟩ := sound
  obtain ⟨⟨sending, channel⟩, begun⟩ : ∃ found, publisher.channel.beginSend publisher.calls.length value
    publisher.timeout publisher.cancelled publisher.now = found := ⟨_, rfl⟩
  have begins := Channel.begins_of_beginSend begun
  obtain ⟨queueing, ungranted, same⟩ :=
    settled.begins ⟨value, publisher.now, publisher.now, sending⟩ begins rfl rfl
  rw [publish_eq publisher value begun]
  have onTime := begun_inTime begins
  have reason := begun_explained begins
  generalize here : PublishCall.mk value publisher.now publisher.now sending = call at *
  have sends : call.sending = sending := by rw [← here]
  have kept := note_kept { publisher with channel, calls := publisher.calls ++ [call] } value sending
  obtain ⟨heldChannel, now, timeout, cancelled, calls⟩ := kept
  have counts : Counts { publisher with channel, calls := publisher.calls ++ [call] } publisher.calls :=
    ⟨settled.counts.metered, settled.counts.recorded, settled.counts.warnings⟩
  refine ⟨⟨?_, ?_, ?_, ?_⟩, ?_, ?_, ?_, timeout.trans limit⟩
  · rw [heldChannel, calls]
    exact queueing
  · rw [heldChannel]
    exact ungranted
  · rw [Stays, calls, heldChannel, now, cancelled]
    refine List.forall_mem_append.mpr ⟨fun earlier member deadline there => ?_,
      List.forall_mem_singleton.mpr fun deadline there => begun_waits begins (sends.symm.trans there)⟩
    obtain ⟨going, isOpen, early⟩ := settled.stays earlier member deadline there
    exact ⟨going, (begun_open begins).trans isOpen, early⟩
  · rw [calls]
    exact counts.note value (sends ▸ dropped_concat publisher.calls call)
  · rw [calls, now]
    refine List.forall_mem_append.mpr ⟨inTime, List.forall_mem_singleton.mpr ?_⟩
    rw [← limit]
    exact onTime
  · rw [calls, heldChannel, cancelled]
    refine List.forall_mem_append.mpr ⟨fun earlier member => ?_, List.forall_mem_singleton.mpr reason⟩
    rw [begun_open begins]
    exact explained earlier member
  · rw [heldChannel]
    exact same.trans size

/-! ### Other steps -/

theorem Sound.wake (sound : publisher.Sound capacity timeout received) {instant : Nat}
    (passes : publisher.now ≤ instant)
    (early : ∀ due, timed.due? publisher = some due → instant ≤ due) :
    (timed.wake instant publisher).Sound capacity timeout received ∧ (timed.wake instant publisher).now = instant := by
  obtain ⟨settled, inTime, explained, size, limit⟩ := sound
  refine (settled.wake instant).sound (fun call member => ?_) explained size limit
  refine (inTime call member).pass passes fun deadline here => ?_
  have waits : some deadline ∈ publisher.calls.map PublishCall.due? :=
    List.mem_map.mpr ⟨call, member, by rw [PublishCall.due?, here]⟩
  obtain ⟨first, found, least⟩ := earliest?_le waits
  exact Nat.le_trans (early first found) least

theorem Sound.ahead (sound : publisher.Sound capacity timeout received) {due : Nat}
    (waits : timed.due? publisher = some due) : publisher.now < due := by
  obtain ⟨call, member, here⟩ := List.mem_map.mp (mem_of_earliest? waits)
  unfold PublishCall.due? at here
  split at here
  · obtain rfl := Option.some.inj here
    exact (sound.settled.stays call member _ ‹_›).2.2
  · cases here

theorem Sound.pass (sound : publisher.Sound capacity timeout received) {finish : Nat}
    (passes : publisher.now ≤ finish) :
    (timed.pass publisher.now finish publisher).Sound capacity timeout received :=
  (Timed.pass_through timed (Sound capacity timeout received) Publisher.now
    (fun _ _ sound passes early => sound.wake passes early) (fun _ _ sound waits => sound.ahead waits) sound
      passes).1

theorem Sound.apply (sound : publisher.Sound capacity timeout received) (step : PublisherStep) :
    (publisher.apply step).1.Sound capacity timeout (received ++ (publisher.apply step).2) := by
  have settled := sound.settled
  have inTime := sound.inTime
  have explained := sound.explained
  cases step with
  | publish value =>
      simp only [Publisher.apply, List.append_nil]
      exact sound.publish value
  | cancel =>
      simp only [Publisher.apply, List.append_nil]
      refine (settled.cancel.sound inTime (fun call member => ?_) sound.capacity sound.timeout).1
      exact ⟨fun _ => rfl, (explained call member).closed⟩
  | sleep millis =>
      simp only [Publisher.apply, List.append_nil]
      exact sound.pass (Nat.le_add_right ..)
  | receive most => exact ((settled.receive most).sound inTime explained sound.capacity sound.timeout).1
  | closeReceiver =>
      simp only [Publisher.apply, List.append_nil]
      refine (settled.closeReceiver.sound inTime (fun call member => ?_) sound.capacity sound.timeout).1
      exact ⟨(explained call member).abandoned, fun _ => rfl⟩

/-! ### What becomes of a call -/

theorem Sound.ended_stays (sound : publisher.Sound capacity timeout received)
    (found : publisher.calls[place]? = some call) {how : SendEnd} (finished : call.sending = .ended how)
    (step : PublisherStep) : (publisher.apply step).1.calls[place]? = some call := by
  have settled := sound.settled
  cases step with
  | publish value =>
      obtain ⟨sending, calls⟩ := publish_calls publisher value
      simp only [Publisher.apply, calls]
      exact (List.getElem?_append_left (List.getElem?_eq_some_iff.mp found).1).trans found
  | cancel => exact settled.cancel.ended found finished
  | receive most => exact (settled.receive most).ended found finished
  | closeReceiver => exact settled.closeReceiver.ended found finished
  | sleep millis =>
      have wakes (instant : Nat) (state : Publisher)
          (holds : state.Settled received ∧ state.calls[place]? = some call) :
          (timed.wake instant state).Settled received ∧ (timed.wake instant state).calls[place]? = some call :=
        ⟨(holds.1.wake instant).settle.1, (holds.1.wake instant).ended holds.2 finished⟩
      exact (Timed.pass_keeps wakes publisher.now (publisher.now + millis) ⟨settled, found⟩).2

/-- A call in line gives up at the instant of a cancellation, and ends without its value in the channel at the
instant at which the receiver goes. -/
theorem Sound.quits (sound : publisher.Sound capacity timeout received)
    (found : publisher.calls[place]? = some call) {deadline : Nat} (here : call.sending = .inLine deadline) :
    (publisher.apply .cancel).1.calls[place]? =
        some { call with time := publisher.now, sending := .ended .abandoned } ∧
      (publisher.apply .closeReceiver).1.calls[place]? =
        some { call with time := publisher.now, sending := .ended .closed } := by
  have settled := sound.settled
  have going := (settled.stays call (List.mem_of_getElem? found) deadline here).1
  have closed : publisher.channel.closeReceiver.verdict place deadline publisher.cancelled publisher.now =
      .ended .closed := by
    rw [going]
    rfl
  refine ⟨settled.cancel.inLine found here, ?_⟩
  rw [← closed]
  exact settled.closeReceiver.inLine found here

/-- A call that was in line and is only left alone is in line until its deadline, and has timed out from then
on. -/
def Ripens (publisher : Publisher) (place : Nat) (call : PublishCall) (deadline : Nat) : Prop :=
  if publisher.now < deadline then ∃ time, publisher.calls[place]? = some { call with time }
  else publisher.calls[place]? = some { call with time := deadline, sending := .ended .timedOut }

theorem Sound.ripens (sound : publisher.Sound capacity timeout received) {deadline : Nat}
    (here : call.sending = .inLine deadline) (ripens : publisher.Ripens place call deadline) {instant : Nat}
    (early : ∀ due, timed.due? publisher = some due → instant ≤ due) (passes : publisher.now ≤ instant) :
    (timed.wake instant publisher).Ripens place call deadline := by
  have settled := sound.settled
  have now : (timed.wake instant publisher).now = instant := (settled.wake instant).settle.2.2.now
  unfold Ripens at ripens ⊢
  rw [now]
  by_cases before : publisher.now < deadline
  · rw [if_pos before] at ripens
    obtain ⟨time, found⟩ := ripens
    have member := List.mem_of_getElem? found
    obtain ⟨going, isOpen, -⟩ := settled.stays _ member deadline here
    have waits : some deadline ∈ publisher.calls.map PublishCall.due? :=
      List.mem_map.mpr ⟨_, member, by rw [PublishCall.due?]; simp only [here]⟩
    obtain ⟨first, due, least⟩ := earliest?_le waits
    have inTime : instant ≤ deadline := Nat.le_trans (early first due) least
    have verdict : publisher.channel.verdict place deadline publisher.cancelled instant =
        if deadline ≤ instant then .ended .timedOut else .inLine deadline := by
      have ungranted : place ∉ publisher.channel.granted := by
        rw [settled.ungranted]
        exact List.not_mem_nil
      rw [Channel.verdict, going, isOpen, if_neg ungranted]
      rfl
    have looked := (settled.wake instant).inLine found here
    rw [verdict] at looked
    by_cases ripe : instant < deadline
    · rw [if_neg (Nat.not_le_of_lt ripe)] at looked
      rw [if_pos ripe]
      exact ⟨instant, looked.trans (by rw [← here])⟩
    · obtain rfl : instant = deadline := Nat.le_antisymm inTime (Nat.le_of_not_lt ripe)
      rw [if_pos (Nat.le_refl _)] at looked
      rw [if_neg ripe]
      exact looked
  · rw [if_neg before] at ripens
    have late : ¬instant < deadline := fun early => before (Nat.lt_of_le_of_lt passes early)
    rw [if_neg late]
    exact (settled.wake instant).ended ripens rfl

theorem Sound.timesOut (sound : publisher.Sound capacity timeout received)
    (found : publisher.calls[place]? = some call) {deadline : Nat} (here : call.sending = .inLine deadline)
    {millis : Nat} (enough : deadline ≤ publisher.now + millis) :
    (publisher.apply (.sleep millis)).1.calls[place]? =
      some { call with time := deadline, sending := .ended .timedOut } := by
  have ahead := (sound.settled.stays call (List.mem_of_getElem? found) deadline here).2.2
  have first : publisher.Ripens place call deadline := by
    rw [Ripens, if_pos ahead]
    exact ⟨call.time, found⟩
  have passed := Timed.pass_through timed
    (fun state => state.Sound capacity timeout received ∧ state.Ripens place call deadline) Publisher.now
    (fun instant state holds passes early =>
      ⟨⟨(holds.1.wake passes early).1, holds.1.ripens here holds.2 early passes⟩, (holds.1.wake passes early).2⟩)
    (fun _ _ holds waits => holds.1.ahead waits) ⟨sound, first⟩ (Nat.le_add_right publisher.now millis)
  obtain ⟨⟨-, ripened⟩, now⟩ := passed
  rw [Ripens, now, if_neg (Nat.not_lt_of_le enough)] at ripened
  exact ripened

/-! ### Runs -/

def play (publisher : Publisher) : List PublisherStep → Publisher × List Nat
  | [] => (publisher, [])
  | step :: rest =>
      (((publisher.apply step).1.play rest).1, (publisher.apply step).2 ++ ((publisher.apply step).1.play rest).2)

theorem Sound.play (sound : publisher.Sound capacity timeout received) (steps : List PublisherStep) :
    (publisher.play steps).1.Sound capacity timeout (received ++ (publisher.play steps).2) := by
  induction steps generalizing publisher received with
  | nil =>
      simp only [Publisher.play, List.append_nil]
      exact sound
  | cons step rest ih =>
      rw [Publisher.play, ← List.append_assoc]
      exact ih (sound.apply step)

theorem make_sound (capacity : Nat) (timeout : Duration) : (make capacity timeout).Sound capacity timeout [] where
  settled :=
    { queueing := ⟨⟨Nat.zero_le _, fun waits => absurd rfl waits⟩, fun _ => rfl, fun _ => rfl,
        fun _ => List.Pairwise.nil, fun _ => ⟨rfl, rfl⟩⟩
      ungranted := rfl
      stays := List.forall_mem_nil _
      counts := ⟨rfl, rfl, List.forall_mem_nil _⟩ }
  inTime := List.forall_mem_nil _
  explained := List.forall_mem_nil _
  capacity := rfl
  timeout := rfl

end Publisher

def PublisherStep.value? : PublisherStep → Option Nat
  | .publish value => some value
  | _ => none

namespace Publisher

variable {publisher : Publisher} {capacity : Nat} {timeout : Duration} {received : List Nat}

/-- What a step does to the calls in line, it does to none of the others, and only two steps turn a switch. -/
structure Follows (publisher later : Publisher) (step : PublisherStep) : Prop where
  values : later.calls.map PublishCall.value = publisher.calls.map PublishCall.value ++ step.value?.toList
  cancelled : later.cancelled = (publisher.cancelled || step == .cancel)
  isOpen : later.channel.isOpen = (publisher.channel.isOpen && step != .closeReceiver)

theorem Ready.follows {changed : Publisher} {step : PublisherStep} (ready : changed.Ready received)
    (follows : publisher.Follows changed step) : publisher.Follows changed.settle step := by
  have alike := ready.settle.2.2
  exact ⟨ready.values.trans follows.values, alike.cancelled.trans follows.cancelled,
    alike.isOpen.trans follows.isOpen⟩

theorem Sound.follows (sound : publisher.Sound capacity timeout received) (step : PublisherStep) :
    publisher.Follows (publisher.apply step).1 step := by
  have settled := sound.settled
  cases step with
  | publish value =>
      obtain ⟨⟨sending, channel⟩, begun⟩ : ∃ found, publisher.channel.beginSend publisher.calls.length value
        publisher.timeout publisher.cancelled publisher.now = found := ⟨_, rfl⟩
      have isOpen := begun_open (Channel.begins_of_beginSend begun)
      have kept := note_kept
        { publisher with
          channel
          calls := publisher.calls ++ [⟨value, publisher.now, publisher.now, sending⟩] } value sending
      obtain ⟨heldChannel, -, -, cancelled, calls⟩ := kept
      simp only [Publisher.apply, publish_eq publisher value begun]
      refine ⟨?_, ?_, ?_⟩
      · rw [calls, List.map_append]
        rfl
      · exact cancelled.trans (Bool.or_false _).symm
      · rw [heldChannel]
        exact isOpen.trans (Bool.and_true _).symm
  | cancel =>
      exact settled.cancel.follows ⟨(List.append_nil _).symm, (Bool.or_true _).symm, (Bool.and_true _).symm⟩
  | receive most =>
      exact (settled.receive most).follows
        ⟨(List.append_nil _).symm, (Bool.or_false _).symm, (Bool.and_true _).symm⟩
  | closeReceiver =>
      exact settled.closeReceiver.follows
        ⟨(List.append_nil _).symm, (Bool.or_false _).symm, (Bool.and_false _).symm⟩
  | sleep millis =>
      have wakes (instant : Nat) (state : Publisher)
          (holds : state.Settled received ∧ publisher.Follows state (.sleep millis)) :
          (timed.wake instant state).Settled received ∧ publisher.Follows (timed.wake instant state) (.sleep millis) :=
        ⟨(holds.1.wake instant).settle.1,
          (holds.1.wake instant).follows ⟨holds.2.values, holds.2.cancelled, holds.2.isOpen⟩⟩
      exact (Timed.pass_keeps wakes publisher.now (publisher.now + millis)
        ⟨settled, (List.append_nil _).symm, (Bool.or_false _).symm, (Bool.and_true _).symm⟩).2

theorem Sound.followsAll (sound : publisher.Sound capacity timeout received) (steps : List PublisherStep) :
    (publisher.play steps).1.calls.map PublishCall.value =
        publisher.calls.map PublishCall.value ++ steps.filterMap PublisherStep.value? ∧
      ((publisher.play steps).1.cancelled = true ↔ publisher.cancelled = true ∨ .cancel ∈ steps) ∧
      ((publisher.play steps).1.channel.isOpen = true ↔
        publisher.channel.isOpen = true ∧ .closeReceiver ∉ steps) := by
  induction steps generalizing publisher received with
  | nil => simp [Publisher.play]
  | cons step rest ih =>
      obtain ⟨values, cancelled, isOpen⟩ := sound.follows step
      obtain ⟨valuesAll, cancelledAll, isOpenAll⟩ := ih (sound.apply step)
      refine ⟨?_, ?_, ?_⟩
      · rw [Publisher.play, valuesAll, values, List.append_assoc, List.filterMap_cons]
        cases step.value? <;> rfl
      · rw [Publisher.play, cancelledAll, cancelled, Bool.or_eq_true, beq_iff_eq, List.mem_cons, or_assoc,
          @eq_comm _ step]
      · rw [Publisher.play, isOpenAll, isOpen, Bool.and_eq_true, bne_iff_ne, List.mem_cons, not_or, and_assoc,
          ne_comm]

/-- What the next step does to the calls. A call that begins is dealt with by the rules; one that has ended stays
as it is; and one in line gives up at the instant of a cancellation, ends at the instant at which the receiver
goes, and times out at its deadline if it is left alone until then. -/
structure Answers (publisher : Publisher) (timeout : Duration) : Prop where
  begins : ∀ value, ∃ sending,
    (publisher.apply (.publish value)).1.calls =
        publisher.calls ++ [⟨value, publisher.now, publisher.now, sending⟩] ∧
      publisher.channel.Begins publisher.calls.length value timeout publisher.cancelled publisher.now sending
        (publisher.apply (.publish value)).1.channel
  stays : ∀ (place : Nat) (call : PublishCall) (how : SendEnd),
    publisher.calls[place]? = some call → call.sending = .ended how →
      ∀ step, (publisher.apply step).1.calls[place]? = some call
  cancelled : ∀ (place : Nat) (call : PublishCall) (deadline : Nat),
    publisher.calls[place]? = some call → call.sending = .inLine deadline →
      (publisher.apply .cancel).1.calls[place]? =
        some { call with time := publisher.now, sending := .ended .abandoned }
  closed : ∀ (place : Nat) (call : PublishCall) (deadline : Nat),
    publisher.calls[place]? = some call → call.sending = .inLine deadline →
      (publisher.apply .closeReceiver).1.calls[place]? =
        some { call with time := publisher.now, sending := .ended .closed }
  timedOut : ∀ (place : Nat) (call : PublishCall) (deadline : Nat),
    publisher.calls[place]? = some call → call.sending = .inLine deadline →
      ∀ millis, deadline ≤ publisher.now + millis →
        (publisher.apply (.sleep millis)).1.calls[place]? =
          some { call with time := deadline, sending := .ended .timedOut }

theorem Sound.answers (sound : publisher.Sound capacity timeout received) : publisher.Answers timeout where
  begins value := by
    obtain ⟨⟨sending, channel⟩, begun⟩ : ∃ found, publisher.channel.beginSend publisher.calls.length value
      publisher.timeout publisher.cancelled publisher.now = found := ⟨_, rfl⟩
    have kept := note_kept
      { publisher with
        channel
        calls := publisher.calls ++ [⟨value, publisher.now, publisher.now, sending⟩] } value sending
    obtain ⟨heldChannel, -, -, -, calls⟩ := kept
    simp only [Publisher.apply, publish_eq publisher value begun]
    refine ⟨sending, calls, ?_⟩
    rw [heldChannel, ← sound.timeout]
    exact Channel.begins_of_beginSend begun
  stays _ _ _ found finished step := sound.ended_stays found finished step
  cancelled _ _ _ found here := (sound.quits found here).1
  closed _ _ _ found here := (sound.quits found here).2
  timedOut _ _ _ found here _ enough := sound.timesOut found here enough

/-- However many calls share a channel and whatever is done to them:
- the calls are those that were begun, in order, and as long as the receiver is there, what was received and what
  is still in the channel are the values of those that were delivered, in the same order;
- the channel never holds more than its capacity, and a call only waits in line while the channel is full, the
  receiver there and the token not cancelled, and before its time limit is over;
- no call outlasts its time limit, every ending has its reason, and the next step deals with each call as it
  should;
- the errors counted and the records written, all of them warnings, are as many as the values dropped: those that
  timed out or found the channel closed, and no abandoned ones. -/
theorem calls_share_channel (capacity : Nat) (timeout : Duration) (steps : List PublisherStep) :
    let publisher := ((make capacity timeout).play steps).1
    let received := ((make capacity timeout).play steps).2
    publisher.calls.map PublishCall.value = steps.filterMap PublisherStep.value? ∧
      (.closeReceiver ∉ steps → received ++ publisher.channel.queue = deliveredValues publisher.calls) ∧
      publisher.channel.queue.length ≤ capacity ∧
      (∀ call ∈ publisher.calls, call.isInLine = true →
        publisher.channel.queue.length = capacity ∧ .closeReceiver ∉ steps ∧ .cancel ∉ steps ∧
          publisher.now < call.begun + timeout.millis) ∧
      (∀ call ∈ publisher.calls, call.InTime timeout publisher.now ∧ call.time ≤ call.begun + timeout.millis ∧
        (call.sending = .ended .abandoned → .cancel ∈ steps) ∧
        (call.sending = .ended .closed → .closeReceiver ∈ steps)) ∧
      publisher.Answers timeout ∧
      publisher.metrics.errors .confirmation = publisher.calls.countP (fun call => call.sending.isDropped) ∧
      publisher.records.length = publisher.calls.countP (fun call => call.sending.isDropped) ∧
      (∀ record ∈ publisher.records, record.event.level = .warn) := by
  intro publisher received
  have sound : publisher.Sound capacity timeout received := by
    have played := (make_sound capacity timeout).play steps
    rwa [List.nil_append] at played
  obtain ⟨values, cancelled, isOpen⟩ := (make_sound capacity timeout).followsAll steps
  have going : publisher.cancelled = true ↔ .cancel ∈ steps := by
    rw [cancelled]
    exact or_iff_right Bool.false_ne_true
  have there : publisher.channel.isOpen = true ↔ .closeReceiver ∉ steps := by
    rw [isOpen]
    exact and_iff_right rfl
  have queueing := sound.settled.queueing
  refine ⟨values, fun present => queueing.flow (there.mpr present), ?_, fun call member waits => ?_,
    fun call member => ⟨sound.inTime call member, ?_, ?_, ?_⟩, sound.answers, sound.settled.counts.metered,
    sound.settled.counts.recorded, sound.settled.counts.warnings⟩
  · have fits := queueing.bounded.fits
    rw [sound.capacity] at fits
    exact Nat.le_trans (Nat.le_add_right ..) fits
  · obtain ⟨full, isOpen, alive, deadline, here, early⟩ := sound.settled.waits member waits
    rw [sound.capacity] at full
    obtain ⟨rfl, -⟩ := (sound.inTime call member).waits deadline here
    exact ⟨full, there.mp isOpen, fun stops => absurd (going.mpr stops) (ne_true_of_eq_false alive), early⟩
  · have inTime := sound.inTime call member
    cases here : call.sending with
    | ended how => exact inTime.ended how here
    | inLine deadline =>
        obtain ⟨rfl, early⟩ := inTime.waits deadline here
        exact Nat.le_trans inTime.past early
  · exact fun abandoned => going.mp ((sound.explained call member).abandoned abandoned)
  · intro closed
    have shut := (sound.explained call member).closed closed
    exact Decidable.of_not_not fun present => absurd (there.mpr present) (ne_true_of_eq_false shut)

/-- Two calls wait for the place of a third. The first of them times out, the second is abandoned, and neither is
received. -/
example :
    let run := (make 1 (Duration.ofMillis 5)).play
      [.publish 7, .publish 8, .sleep 2, .publish 9, .sleep 3, .cancel, .receive none]
    (run.1.calls.map fun call => (call.time, call.sending), run.2, run.1.records.length) =
      ([(0, .ended .delivered), (5, .ended .timedOut), (5, .ended .abandoned)], [7], 1) := by
  decide +kernel

end Publisher

end SequencedFeed
