import SequencedFeed.Proofs.Sending
import SequencedFeed.Publisher
set_option autoImplicit false

/-!
# Calls in line for room

Many calls send into one channel. Its values are those of the calls that were delivered, in the order in which
the calls began, and the senders that were granted a place or wait for one are the calls in line, in the same
order. When the calls look again one after the other, each of them sees what it would have seen first
(`Ready.settle`), for no call grants room to another unless all of them are cancelled.
-/

namespace SequencedFeed

/-! ### Calls and their places -/

namespace PublishCall

def isInLine (call : PublishCall) : Bool :=
  match call.sending with
  | .inLine _ => true
  | .ended _ => false

def isDelivered (call : PublishCall) : Bool :=
  call.sending = .ended .delivered

theorem inLine_of_sending {call : PublishCall} {deadline : Nat} (here : call.sending = .inLine deadline) :
    call.isInLine = true := by
  rw [isInLine, here]

theorem exists_deadline {call : PublishCall} (waits : call.isInLine = true) :
    ∃ deadline, call.sending = .inLine deadline := by
  unfold isInLine at waits
  split at waits
  · exact ⟨_, ‹_›⟩
  · cases waits

end PublishCall

/-- The values of the calls that were delivered, in the order in which the calls began. -/
def deliveredValues (calls : List PublishCall) : List Nat :=
  (calls.filter PublishCall.isDelivered).map PublishCall.value

/-- The numbers of the calls in line, if the first of all calls has the number `first`. -/
def placesInLine (first : Nat) : List PublishCall → List Nat
  | [] => []
  | call :: rest => (if call.isInLine then [first] else []) ++ placesInLine (first + 1) rest

theorem placesInLine_append (first : Nat) (before after : List PublishCall) :
    placesInLine first (before ++ after) =
      placesInLine first before ++ placesInLine (first + before.length) after := by
  induction before generalizing first with
  | nil => rfl
  | cons call rest ih =>
      have next : first + 1 + rest.length = first + (rest.length + 1) := by omega
      rw [List.cons_append, placesInLine, ih, placesInLine, List.append_assoc, List.length_cons, next]

theorem mem_placesInLine {first place : Nat} {calls : List PublishCall}
    (member : place ∈ placesInLine first calls) : first ≤ place ∧ place < first + calls.length := by
  induction calls generalizing first with
  | nil => cases member
  | cons call rest ih =>
      rw [List.length_cons]
      rcases List.mem_append.mp member with here | later
      · cases waits : call.isInLine with
        | true =>
            rw [waits, if_pos rfl, List.mem_singleton] at here
            omega
        | false =>
            rw [waits] at here
            cases here
      · have bounds := ih later
        omega

theorem placesInLine_nodup (first : Nat) (calls : List PublishCall) : (placesInLine first calls).Nodup := by
  induction calls generalizing first with
  | nil => exact List.nodup_nil
  | cons call rest ih =>
      cases waits : call.isInLine with
      | true =>
          rw [placesInLine, waits, if_pos rfl, List.singleton_append, List.nodup_cons]
          exact ⟨fun again => absurd (mem_placesInLine again).1 (Nat.not_succ_le_self first), ih _⟩
      | false =>
          rw [placesInLine, waits]
          exact ih _

theorem placesInLine_eq_nil_iff {first : Nat} {calls : List PublishCall} :
    placesInLine first calls = [] ↔ ∀ call ∈ calls, call.isInLine = false := by
  induction calls generalizing first with
  | nil => simp [placesInLine]
  | cons call rest ih =>
      rw [placesInLine, List.append_eq_nil_iff, ih, List.forall_mem_cons]
      cases call.isInLine <;> simp

/-! ### What the channel holds of the calls -/

/-- The channel shares out its places among calls. While the receiver is there, what was received and what is
still in the channel are the values delivered, nobody was delivered before one who is in line, and whoever is
granted a place or waits for one is in line. -/
structure Queueing (channel : Channel) (calls : List PublishCall) (received : List Nat) : Prop where
  bounded : channel.Bounded
  flow : channel.isOpen = true → received ++ channel.queue = deliveredValues calls
  line : channel.isOpen = true → channel.line = placesInLine 0 calls
  order : channel.isOpen = true →
    calls.Pairwise fun earlier later => earlier.isInLine = true → later.isDelivered = false
  gone : channel.isOpen = false → channel.granted = [] ∧ channel.waiting = []

section

variable {channel channel' : Channel} {before after : List PublishCall} {call call' : PublishCall}
  {received : List Nat}

theorem deliveredValues_append (before after : List PublishCall) :
    deliveredValues (before ++ after) = deliveredValues before ++ deliveredValues after := by
  rw [deliveredValues, List.filter_append, List.map_append, deliveredValues, deliveredValues]

theorem deliveredValues_none {calls : List PublishCall}
    (none : ∀ call ∈ calls, call.isDelivered = false) : deliveredValues calls = [] := by
  rw [deliveredValues, List.filter_eq_nil_iff.mpr, List.map_nil]
  exact fun call member => ne_true_of_eq_false (none call member)

theorem deliveredValues_cons (call : PublishCall) (rest : List PublishCall) :
    deliveredValues (call :: rest) = (if call.isDelivered then [call.value] else []) ++ deliveredValues rest := by
  cases delivered : call.isDelivered <;> simp [deliveredValues, delivered]

theorem not_mem_placesInLine (left : call.isInLine = false) :
    before.length ∉ placesInLine 0 (before ++ call :: after) := by
  rw [placesInLine_append, placesInLine, left]
  intro member
  rcases List.mem_append.mp member with earlier | later
  · have bound := (mem_placesInLine earlier).2
    omega
  · have bound := (mem_placesInLine later).1
    omega

theorem Queueing.granted_inLine {calls : List PublishCall} (queueing : Queueing channel calls received)
    {place : Nat} (granted : place ∈ channel.granted) : place ∈ placesInLine 0 calls := by
  cases isOpen : channel.isOpen with
  | true => exact queueing.line isOpen ▸ List.mem_append_left _ granted
  | false =>
      rw [(queueing.gone isOpen).1] at granted
      cases granted

private theorem placesInLine_look (call' : PublishCall) (waits : call.isInLine = true) :
    placesInLine 0 (before ++ call' :: after) =
      if call'.isInLine then placesInLine 0 (before ++ call :: after)
      else (placesInLine 0 (before ++ call :: after)).erase before.length := by
  have absent : before.length ∉ placesInLine 0 before := fun member => by
    have bound := (mem_placesInLine member).2
    omega
  simp only [placesInLine_append, placesInLine, waits, if_true, Nat.zero_add]
  cases call'.isInLine with
  | true => rfl
  | false => simp [List.erase_append_right _ absent]

private theorem Queueing.undelivered (queueing : Queueing channel (before ++ call :: after) received)
    (waits : call.isInLine = true) (undelivered : call'.isDelivered = false) (isOpen : channel.isOpen = true) :
    deliveredValues (before ++ call' :: after) = received ++ channel.queue ∧
      (before ++ call' :: after).Pairwise fun earlier later => earlier.isInLine = true → later.isDelivered = false := by
  have unsent : call.isDelivered = false := by
    obtain ⟨deadline, here⟩ := PublishCall.exists_deadline waits
    simp [PublishCall.isDelivered, here]
  have flow := queueing.flow isOpen
  obtain ⟨order, tail, across⟩ := List.pairwise_append.mp (queueing.order isOpen)
  obtain ⟨behind, rest⟩ := List.pairwise_cons.mp tail
  refine ⟨?_, List.pairwise_append.mpr ⟨order, List.pairwise_cons.mpr ⟨?_, rest⟩, ?_⟩⟩
  · rw [flow, deliveredValues_append, deliveredValues_append, deliveredValues_cons, deliveredValues_cons,
      undelivered, unsent]
    rfl
  · exact fun later member _ => behind later member waits
  · intro earlier member later there inLine
    rcases List.mem_cons.mp there with rfl | there
    · exact undelivered
    · exact across earlier member later (List.mem_cons_of_mem _ there) inLine

private theorem Queueing.quit (queueing : Queueing channel (before ++ call :: after) received)
    (waits : call.isInLine = true) (left : call'.isInLine = false) (undelivered : call'.isDelivered = false) :
    Queueing (channel.leave before.length) (before ++ call' :: after) received where
  bounded := queueing.bounded.leave _
  flow isOpen := (queueing.undelivered waits undelivered isOpen).1.symm
  line isOpen := by
    have line := queueing.line isOpen
    have distinct : channel.line.Nodup := line ▸ placesInLine_nodup ..
    rw [Channel.leave_line distinct, line, placesInLine_look call' waits, left]
    rfl
  order isOpen := (queueing.undelivered waits undelivered isOpen).2
  gone closed := by
    obtain ⟨granted, waiting⟩ := queueing.gone closed
    simp [Channel.leave, Channel.grant, granted, waiting]

private theorem after_of_line (ended : ∀ earlier ∈ before, earlier.isInLine = false)
    (left : call'.isInLine = false) {place : Nat}
    (member : place ∈ placesInLine 0 (before ++ call' :: after)) : before.length + 1 ≤ place := by
  rw [placesInLine_append, List.mem_append, placesInLine, left] at member
  rcases member with earlier | later
  · rw [placesInLine_eq_nil_iff.mpr ended] at earlier
    cases earlier
  · have bound := (mem_placesInLine later).1
    omega

private theorem Queueing.first (queueing : Queueing channel (before ++ call :: after) received)
    (isOpen : channel.isOpen = true) (ahead : ∀ place ∈ channel.granted, before.length ≤ place)
    (granted : before.length ∈ channel.granted) : ∀ earlier ∈ before, earlier.isInLine = false := by
  have line := queueing.line isOpen
  rw [placesInLine_append] at line
  rw [← placesInLine_eq_nil_iff]
  cases places : placesInLine 0 before with
  | nil => rfl
  | cons first rest =>
      -- the first in line would be the first who was granted a place
      have earlier : first < before.length := by
        have bound := (mem_placesInLine (places ▸ List.mem_cons_self ..)).2
        omega
      cases given : channel.granted with
      | nil =>
          rw [given] at granted
          cases granted
      | cons head tail =>
          rw [Channel.line, given, places] at line
          obtain rfl := (List.cons.inj line).1
          have late := ahead head (given ▸ List.mem_cons_self ..)
          omega

private theorem Queueing.redeem (queueing : Queueing channel (before ++ call :: after) received)
    (waits : call.isInLine = true) (left : call'.isInLine = false) (delivered : call'.isDelivered = true)
    (same : call'.value = call.value) (isOpen : channel.isOpen = true)
    (ahead : ∀ place ∈ channel.granted, before.length ≤ place) (granted : before.length ∈ channel.granted) :
    Queueing (channel.redeem before.length call.value) (before ++ call' :: after) received := by
  have ended := queueing.first isOpen ahead granted
  obtain ⟨order, tail, across⟩ := List.pairwise_append.mp (queueing.order isOpen)
  obtain ⟨behind, rest⟩ := List.pairwise_cons.mp tail
  have unsent : call.isDelivered = false := by
    obtain ⟨deadline, here⟩ := PublishCall.exists_deadline waits
    simp [PublishCall.isDelivered, here]
  have none : deliveredValues after = [] := deliveredValues_none fun later member => behind later member waits
  refine ⟨queueing.bounded.redeem granted call.value, fun _ => ?_, fun _ => ?_, fun _ => ?_, fun closed => ?_⟩
  · have flow := queueing.flow isOpen
    rw [deliveredValues_append, deliveredValues_cons, unsent, none] at flow
    rw [deliveredValues_append, deliveredValues_cons, delivered, none, same]
    simp only [Bool.false_eq_true, if_false, List.append_nil] at flow
    simp only [Channel.redeem, Channel.put, if_true, List.append_nil, ← List.append_assoc, flow]
  · rw [placesInLine_look call' waits, left, Channel.redeem_line granted, queueing.line isOpen]
    rfl
  · refine List.pairwise_append.mpr ⟨order, List.pairwise_cons.mpr ⟨fun later member inLine => ?_, rest⟩,
      fun earlier member later _ inLine => ?_⟩
    · exact absurd inLine (ne_true_of_eq_false left)
    · exact absurd inLine (ne_true_of_eq_false (ended earlier member))
  · exact absurd isOpen (ne_true_of_eq_false closed)

/-- A call looks again, and the calls before it have had their turn: none of them holds a place that was granted,
and if all are cancelled they have ended. -/
theorem Queueing.resumes {deadline now : Nat} {cancelled : Bool} {sending : Sending}
    (queueing : Queueing channel (before ++ call :: after) received) (here : call.sending = .inLine deadline)
    (ahead : ∀ place ∈ channel.granted, before.length ≤ place)
    (ended : cancelled = true → ∀ earlier ∈ before, earlier.isInLine = false)
    (resumes : channel.Resumes before.length call.value deadline cancelled now sending channel')
    (sends : call'.sending = sending) (same : call'.value = call.value) :
    Queueing channel' (before ++ call' :: after) received ∧
      ∀ place ∈ channel'.granted, before.length + 1 ≤ place := by
  have waits := PublishCall.inLine_of_sending here
  have behind {channel' : Channel} (queueing : Queueing channel' (before ++ call' :: after) received)
      (ended : ∀ earlier ∈ before, earlier.isInLine = false) (left : call'.isInLine = false) :
      ∀ place ∈ channel'.granted, before.length + 1 ≤ place := by
    intro place member
    exact after_of_line ended left (queueing.granted_inLine member)
  have beyond (ungranted : before.length ∉ channel.granted) :
      ∀ place ∈ channel.granted, before.length + 1 ≤ place := by
    intro place member
    have late := ahead place member
    have other : place ≠ before.length := fun same => ungranted (same ▸ member)
    omega
  cases resumes with
  | abandon stops =>
      have left : call'.isInLine = false := by rw [PublishCall.isInLine, sends]
      have quit := queueing.quit waits left (by rw [PublishCall.isDelivered, sends]; rfl)
      exact ⟨quit, behind quit (ended stops) left⟩
  | redeem going granted =>
      have left : call'.isInLine = false := by rw [PublishCall.isInLine, sends]
      have isOpen : channel.isOpen = true := by
        cases isOpen : channel.isOpen with
        | true => rfl
        | false =>
            rw [(queueing.gone isOpen).1] at granted
            cases granted
      have redeemed := queueing.redeem waits left (by rw [PublishCall.isDelivered, sends]; rfl) same isOpen ahead
        granted
      exact ⟨redeemed, behind redeemed (queueing.first isOpen ahead granted) left⟩
  | lose going ungranted closed =>
      have shut {claim : Prop} (isOpen : channel.isOpen = true) : claim :=
        absurd isOpen (ne_true_of_eq_false closed)
      exact ⟨⟨queueing.bounded, shut, shut, shut, queueing.gone⟩, beyond ungranted⟩
  | expire going ungranted isOpen late =>
      have left : call'.isInLine = false := by rw [PublishCall.isInLine, sends]
      refine ⟨queueing.quit waits left (by rw [PublishCall.isDelivered, sends]; rfl), ?_⟩
      rw [queueing.bounded.leave_granted ungranted]
      exact beyond ungranted
  | stay going ungranted isOpen early =>
      have stays := PublishCall.inLine_of_sending sends
      have undelivered : call'.isDelivered = false := by rw [PublishCall.isDelivered, sends]; rfl
      refine ⟨⟨queueing.bounded, fun isOpen => (queueing.undelivered waits undelivered isOpen).1.symm,
        fun isOpen => ?_, fun isOpen => (queueing.undelivered waits undelivered isOpen).2, queueing.gone⟩,
        beyond ungranted⟩
      rw [placesInLine_look call' waits, stays]
      exact queueing.line isOpen

theorem Queueing.concat {calls : List PublishCall} (queueing : Queueing channel calls received)
    (left : call.isInLine = false) (undelivered : call.isDelivered = false) : Queueing channel (calls ++ [call]) received where
  bounded := queueing.bounded
  flow isOpen := by
    rw [queueing.flow isOpen, deliveredValues_append, deliveredValues_cons, undelivered]
    exact (List.append_nil _).symm
  line isOpen := by
    rw [queueing.line isOpen, placesInLine_append, placesInLine, left]
    exact (List.append_nil _).symm
  order isOpen := by
    refine List.pairwise_append.mpr ⟨queueing.order isOpen, List.pairwise_singleton .., ?_⟩
    exact fun _ _ later there _ => (List.mem_singleton.mp there).symm ▸ undelivered
  gone := queueing.gone

theorem Queueing.receive {calls : List PublishCall} (queueing : Queueing channel calls received)
    (most : Option Nat) :
    Queueing (channel.receive most).2 calls (received ++ (channel.receive most).1) where
  bounded := queueing.bounded.receive most
  flow isOpen := by
    have flow := queueing.flow isOpen
    simp only [Channel.receive, Channel.grant, List.append_assoc, List.take_append_drop]
    exact flow
  line isOpen := (Channel.grant_line _).trans (queueing.line isOpen)
  order isOpen := queueing.order isOpen
  gone closed := by
    obtain ⟨granted, waiting⟩ := queueing.gone closed
    simp [Channel.receive, Channel.grant, granted, waiting]

theorem queueing_closeReceiver (channel : Channel) (calls : List PublishCall) (received : List Nat) :
    Queueing channel.closeReceiver calls received where
  bounded := channel.bounded_closeReceiver
  flow := nofun
  line := nofun
  order := nofun
  gone _ := ⟨rfl, rfl⟩

end

/-! ### All calls look again -/

/-- Where an attempt in line stands after the next look. -/
def Channel.verdict (channel : Channel) (sender deadline : Nat) (cancelled : Bool) (now : Nat) : Sending :=
  if cancelled then .ended .abandoned
  else if sender ∈ channel.granted then .ended .delivered
  else if !channel.isOpen then .ended .closed
  else if deadline ≤ now then .ended .timedOut
  else .inLine deadline

theorem Channel.resumeSend_fst (channel : Channel) (sender value deadline : Nat) (cancelled : Bool) (now : Nat) :
    (channel.resumeSend sender value deadline cancelled now).1 =
      channel.verdict sender deadline cancelled now := by
  unfold resumeSend verdict
  simp only [apply_ite Prod.fst]

/-- Whether an attempt has ended without its value in the channel although it was not cancelled. -/
def Sending.isDropped : Sending → Bool
  | .ended .timedOut => true
  | .ended .closed => true
  | _ => false

def dropped (calls : List PublishCall) : Nat :=
  calls.countP fun call => call.sending.isDropped

namespace Publisher

/-- Dropped values are reported and counted once each, with warnings, and nothing else is. -/
structure Counts (publisher : Publisher) (calls : List PublishCall) : Prop where
  metered : publisher.metrics.errors .confirmation = dropped calls
  recorded : publisher.records.length = dropped calls
  warnings : ∀ record ∈ publisher.records, record.event.level = .warn

def Stays (publisher : Publisher) (calls : List PublishCall) : Prop :=
  ∀ call ∈ calls, ∀ deadline, call.sending = .inLine deadline →
    publisher.cancelled = false ∧ publisher.channel.isOpen = true ∧ publisher.now < deadline

structure Alike (publisher later : Publisher) (first : Nat) : Prop where
  now : later.now = publisher.now
  timeout : later.timeout = publisher.timeout
  cancelled : later.cancelled = publisher.cancelled
  isOpen : later.channel.isOpen = publisher.channel.isOpen
  capacity : later.channel.capacity = publisher.channel.capacity
  granted : publisher.cancelled = false → ∀ place, first ≤ place →
    (place ∈ later.channel.granted ↔ place ∈ publisher.channel.granted)

variable {publisher middle later : Publisher} {first : Nat}

theorem Alike.trans (before : publisher.Alike middle first) {next : Nat} (after : middle.Alike later next)
    (further : first ≤ next) : publisher.Alike later next where
  now := after.now.trans before.now
  timeout := after.timeout.trans before.timeout
  cancelled := after.cancelled.trans before.cancelled
  isOpen := after.isOpen.trans before.isOpen
  capacity := after.capacity.trans before.capacity
  granted going place within := by
    rw [after.granted (before.cancelled.trans going) place within,
      before.granted going place (Nat.le_trans further within)]

@[simp] theorem note_kept (publisher : Publisher) (value : Nat) (sending : Sending) :
    (publisher.note value sending).channel = publisher.channel ∧
      (publisher.note value sending).now = publisher.now ∧
      (publisher.note value sending).timeout = publisher.timeout ∧
      (publisher.note value sending).cancelled = publisher.cancelled ∧
      (publisher.note value sending).calls = publisher.calls := by
  cases sending <;> exact ⟨rfl, rfl, rfl, rfl, rfl⟩

theorem resume_ended {call : PublishCall} {how : SendEnd} (finished : call.sending = .ended how) (place : Nat) :
    publisher.resume place call = (call, publisher) := by
  simp only [resume, finished]

theorem resume_inLine {call : PublishCall} {deadline : Nat} (here : call.sending = .inLine deadline)
    (place : Nat) {sending : Sending} {channel : Channel}
    (resumed : publisher.channel.resumeSend place call.value deadline publisher.cancelled publisher.now =
      (sending, channel)) :
    publisher.resume place call =
      ({ call with time := publisher.now, sending }, { publisher with channel }.note call.value sending) := by
  simp only [resume, here, resumed]

theorem resume_fst {call : PublishCall} {deadline : Nat} (here : call.sending = .inLine deadline) (place : Nat) :
    (publisher.resume place call).1 =
      { call with
        time := publisher.now
        sending := publisher.channel.verdict place deadline publisher.cancelled publisher.now } := by
  rw [← Channel.resumeSend_fst publisher.channel place call.value]
  simp only [resume, here]

theorem Alike.resume_fst (alike : publisher.Alike later first) {place : Nat} (within : first ≤ place)
    (call : PublishCall) : (later.resume place call).1 = (publisher.resume place call).1 := by
  cases here : call.sending with
  | ended how => rw [resume_ended here, resume_ended here]
  | inLine deadline =>
      have same : later.channel.verdict place deadline later.cancelled later.now =
          publisher.channel.verdict place deadline publisher.cancelled publisher.now := by
        unfold Channel.verdict
        rw [alike.cancelled, alike.isOpen, alike.now]
        cases going : publisher.cancelled with
        | true => rfl
        | false => simp only [alike.granted going place within]
      rw [Publisher.resume_fst here, Publisher.resume_fst here, same, alike.now]

theorem note_metered (publisher : Publisher) (value : Nat) (sending : Sending) :
    (publisher.note value sending).metrics.errors .confirmation =
        publisher.metrics.errors .confirmation + (if sending.isDropped then 1 else 0) ∧
      (publisher.note value sending).records.length =
        publisher.records.length + (if sending.isDropped then 1 else 0) := by
  cases sending with
  | inLine deadline => exact ⟨rfl, rfl⟩
  | ended how => cases how <;> exact ⟨rfl, rfl⟩

theorem note_warnings (value : Nat) (sending : Sending)
    (warnings : ∀ record ∈ publisher.records, record.event.level = .warn) :
    ∀ record ∈ (publisher.note value sending).records, record.event.level = .warn := by
  cases sending with
  | inLine deadline => exact warnings
  | ended how =>
      cases how with
      | delivered | abandoned => exact warnings
      | timedOut | closed => exact List.forall_mem_cons.mpr ⟨rfl, warnings⟩

theorem Counts.note {calls calls' : List PublishCall} (counts : publisher.Counts calls) (value : Nat)
    {sending : Sending} (more : dropped calls' = dropped calls + if sending.isDropped then 1 else 0) :
    (publisher.note value sending).Counts calls' where
  metered := by rw [(note_metered ..).1, counts.metered, more]
  recorded := by rw [(note_metered ..).2, counts.recorded, more]
  warnings := note_warnings value sending counts.warnings

theorem dropped_look {before after : List PublishCall} {call call' : PublishCall} {deadline : Nat}
    (here : call.sending = .inLine deadline) :
    dropped (before ++ call' :: after) =
      dropped (before ++ call :: after) + if call'.sending.isDropped then 1 else 0 := by
  have undropped : call.sending.isDropped = false := by rw [here]; rfl
  simp only [dropped, List.countP_append, List.countP_cons, undropped, Bool.false_eq_true, if_false]
  omega

theorem dropped_concat (calls : List PublishCall) (call : PublishCall) :
    dropped (calls ++ [call]) = dropped calls + if call.sending.isDropped then 1 else 0 := by
  simp only [dropped, List.countP_append, List.countP_singleton]

/-- The state of the calls while they look again in turn: some have had their turn, the others have not. -/
structure Looking (publisher : Publisher) (before after : List PublishCall) (received : List Nat) : Prop where
  queueing : Queueing publisher.channel (before ++ after) received
  ahead : ∀ place ∈ publisher.channel.granted, before.length ≤ place
  stays : publisher.Stays before
  counts : publisher.Counts (before ++ after)

section

variable {before after : List PublishCall} {call : PublishCall} {received : List Nat}

private theorem Looking.skip (looking : publisher.Looking before (call :: after) received)
    (left : call.isInLine = false) : publisher.Looking (before ++ [call]) after received where
  queueing := by
    rw [List.append_assoc]
    exact looking.queueing
  ahead place granted := by
    have late := looking.ahead place granted
    have other : place ≠ before.length := fun same =>
      not_mem_placesInLine left (same ▸ looking.queueing.granted_inLine granted)
    rw [List.length_append, List.length_singleton]
    omega
  stays := by
    refine List.forall_mem_append.mpr ⟨looking.stays, List.forall_mem_singleton.mpr fun deadline here => ?_⟩
    exact absurd (PublishCall.inLine_of_sending here) (ne_true_of_eq_false left)
  counts := by
    rw [List.append_assoc]
    exact looking.counts

theorem Looking.resume (looking : publisher.Looking before (call :: after) received) :
    (publisher.resume before.length call).2.Looking (before ++ [(publisher.resume before.length call).1]) after
        received ∧
      publisher.Alike (publisher.resume before.length call).2 (before.length + 1) := by
  cases here : call.sending with
  | ended how =>
      rw [resume_ended here]
      have left : call.isInLine = false := by rw [PublishCall.isInLine, here]
      exact ⟨looking.skip left, ⟨rfl, rfl, rfl, rfl, rfl, fun _ _ _ => Iff.rfl⟩⟩
  | inLine deadline =>
      obtain ⟨⟨sending, channel⟩, resumed⟩ : ∃ found, publisher.channel.resumeSend before.length call.value deadline
        publisher.cancelled publisher.now = found := ⟨_, rfl⟩
      have resumes := Channel.resumes_of_resumeSend resumed
      have ended (cancelled : publisher.cancelled = true) : ∀ earlier ∈ before, earlier.isInLine = false := by
        intro earlier member
        cases waits : earlier.isInLine with
        | false => rfl
        | true =>
            obtain ⟨deadline, there⟩ := PublishCall.exists_deadline waits
            exact absurd cancelled (ne_true_of_eq_false (looking.stays earlier member deadline there).1)
      rw [resume_inLine here before.length resumed]
      obtain ⟨queueing, ahead⟩ : Queueing channel
          (before ++ { call with time := publisher.now, sending } :: after) received ∧
            ∀ place ∈ channel.granted, before.length + 1 ≤ place :=
        looking.queueing.resumes here looking.ahead ended resumes rfl rfl
      obtain ⟨sameOpen, capacity⟩ := resumes.kept
      have kept := note_kept { publisher with channel } call.value sending
      obtain ⟨heldChannel, now, timeout, cancelled, -⟩ := kept
      have counts : Counts { publisher with channel } (before ++ call :: after) :=
        ⟨looking.counts.metered, looking.counts.recorded, looking.counts.warnings⟩
      refine ⟨⟨?_, ?_, ?_, ?_⟩, ⟨now, timeout, cancelled, ?_, ?_, ?_⟩⟩
      · rw [List.append_assoc, heldChannel]
        exact queueing
      · rw [heldChannel, List.length_append]
        exact ahead
      · refine List.forall_mem_append.mpr ⟨fun earlier member deadline there => ?_,
          List.forall_mem_singleton.mpr fun deadline there => ?_⟩
        · rw [heldChannel, now, cancelled, sameOpen]
          exact looking.stays earlier member deadline there
        · rw [heldChannel, now, cancelled]
          obtain rfl : sending = .inLine deadline := there
          cases resumes with
          | stay going ungranted isOpen early => exact ⟨going, isOpen, early⟩
      · rw [List.append_assoc]
        exact counts.note call.value (dropped_look here)
      · rw [heldChannel]
        exact sameOpen
      · rw [heldChannel]
        exact capacity
      · intro going place within
        rw [heldChannel]
        exact resumes.granted_iff looking.queueing.bounded going (Nat.ne_of_gt within)

/-- The calls of a list look again one after the other. Each comes to the verdict that it would have come to at
first. -/
theorem Looking.resumeFrom (looking : publisher.Looking before after received) :
    (publisher.resumeFrom before.length after).1 =
        after.mapIdx (fun place call => (publisher.resume (before.length + place) call).1) ∧
      (publisher.resumeFrom before.length after).2.Looking
        (before ++ (publisher.resumeFrom before.length after).1) [] received ∧
      publisher.Alike (publisher.resumeFrom before.length after).2 (before.length + after.length) := by
  induction after generalizing publisher before with
  | nil =>
      refine ⟨rfl, ?_, ⟨rfl, rfl, rfl, rfl, rfl, fun _ _ _ => Iff.rfl⟩⟩
      simp only [Publisher.resumeFrom, List.append_nil]
      exact looking
  | cons call rest ih =>
      obtain ⟨looked, alike⟩ := looking.resume
      obtain ⟨calls, looked, alike'⟩ := ih looked
      rw [List.length_append, List.length_singleton] at calls looked alike'
      simp only [Publisher.resumeFrom]
      refine ⟨?_, ?_, ?_⟩
      · rw [List.mapIdx_cons, calls, Nat.add_zero]
        refine congrArg _ (List.ext_getElem (by simp) fun place _ _ => ?_)
        simp only [List.getElem_mapIdx]
        rw [alike.resume_fst (by omega), Nat.add_assoc, Nat.add_comm 1 place]
      · rw [List.append_cons]
        exact looked
      · rw [List.length_cons, ← Nat.add_assoc, Nat.add_right_comm]
        exact alike.trans alike' (by omega)

end

structure Ready (publisher : Publisher) (received : List Nat) : Prop where
  queueing : Queueing publisher.channel publisher.calls received
  counts : publisher.Counts publisher.calls

/-- Between two steps: nobody in line can go on, and no granted place is left unused. -/
structure Settled (publisher : Publisher) (received : List Nat) : Prop where
  queueing : Queueing publisher.channel publisher.calls received
  ungranted : publisher.channel.granted = []
  stays : publisher.Stays publisher.calls
  counts : publisher.Counts publisher.calls

variable {received : List Nat}

/-! What a step changes before the calls look again. -/

section

variable (settled : publisher.Settled received)
include settled

theorem Settled.wake (instant : Nat) : Ready { publisher with now := instant } received :=
  ⟨settled.queueing, settled.counts.metered, settled.counts.recorded, settled.counts.warnings⟩

theorem Settled.cancel : Ready { publisher with cancelled := true } received :=
  ⟨settled.queueing, settled.counts.metered, settled.counts.recorded, settled.counts.warnings⟩

theorem Settled.receive (most : Option Nat) :
    Ready { publisher with channel := (publisher.channel.receive most).2 }
      (received ++ (publisher.channel.receive most).1) :=
  ⟨settled.queueing.receive most, settled.counts.metered, settled.counts.recorded, settled.counts.warnings⟩

theorem Settled.closeReceiver : Ready { publisher with channel := publisher.channel.closeReceiver } received :=
  ⟨queueing_closeReceiver .., settled.counts.metered, settled.counts.recorded, settled.counts.warnings⟩

end

/-- Whatever has changed, the calls come to rest, and each of them comes to the verdict that it would have come
to at first. -/
theorem Ready.settle (ready : publisher.Ready received) :
    publisher.settle.Settled received ∧
      publisher.settle.calls = publisher.calls.mapIdx (fun place call => (publisher.resume place call).1) ∧
      publisher.Alike publisher.settle publisher.calls.length := by
  have begun : publisher.Looking [] publisher.calls received :=
    ⟨ready.queueing, fun _ _ => Nat.zero_le _, List.forall_mem_nil _, ready.counts⟩
  obtain ⟨calls, ⟨queueing, ahead, stays, counts⟩, alike⟩ := begun.resumeFrom
  simp only [List.length_nil, Nat.zero_add, List.nil_append, List.append_nil] at calls queueing ahead stays counts alike
  refine ⟨⟨queueing, ?_, stays, ⟨counts.metered, counts.recorded, counts.warnings⟩⟩, calls,
    ⟨alike.now, alike.timeout, alike.cancelled, alike.isOpen, alike.capacity, alike.granted⟩⟩
  -- a granted place would belong to a call in line that has not had its turn
  refine List.eq_nil_iff_forall_not_mem.mpr fun place granted => ?_
  have bound := (mem_placesInLine (queueing.granted_inLine granted)).2
  have late := ahead place granted
  omega

theorem Settled.waits (settled : publisher.Settled received) {call : PublishCall} (member : call ∈ publisher.calls)
    (waits : call.isInLine = true) :
    publisher.channel.queue.length = publisher.channel.capacity ∧ publisher.channel.isOpen = true ∧
      publisher.cancelled = false ∧ ∃ deadline, call.sending = .inLine deadline ∧ publisher.now < deadline := by
  obtain ⟨deadline, here⟩ := PublishCall.exists_deadline waits
  obtain ⟨going, isOpen, early⟩ := settled.stays call member deadline here
  have line := settled.queueing.line isOpen
  rw [Channel.line, settled.ungranted, List.nil_append] at line
  have some : publisher.channel.waiting ≠ [] := by
    intro empty
    rw [empty] at line
    exact absurd waits (ne_true_of_eq_false (placesInLine_eq_nil_iff.mp line.symm call member))
  have full := settled.queueing.bounded.full some
  rw [settled.ungranted] at full
  exact ⟨full, isOpen, going, deadline, here, early⟩

end Publisher

end SequencedFeed
