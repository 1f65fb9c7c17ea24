import SequencedFeed.Channel
set_option autoImplicit false

/-!
# Sending into a full channel

How an attempt to send begins and goes on, rule by rule, and what keeps the places of a channel in order: there
are never more values and granted places than its capacity, and a line only forms when all places are taken or
granted. So whoever gives up without a granted place makes no room for others.
-/

namespace SequencedFeed

namespace Channel

inductive Begins (channel : Channel) (sender value : Nat) (timeout : Duration) (cancelled : Bool) (now : Nat) :
    Sending → Channel → Prop
  | abandon (stops : cancelled = true) :
      Begins channel sender value timeout cancelled now (.ended .abandoned) channel
  | lose (going : cancelled = false) (closed : channel.isOpen = false) :
      Begins channel sender value timeout cancelled now (.ended .closed) channel
  | put (going : cancelled = false) (isOpen : channel.isOpen = true) (free : 0 < channel.room) :
      Begins channel sender value timeout cancelled now (.ended .delivered) (channel.put value)
  | expire (going : cancelled = false) (isOpen : channel.isOpen = true) (full : channel.room = 0)
      (spent : timeout.millis = 0) :
      Begins channel sender value timeout cancelled now (.ended .timedOut) channel
  | wait (going : cancelled = false) (isOpen : channel.isOpen = true) (full : channel.room = 0)
      (patient : 0 < timeout.millis) :
      Begins channel sender value timeout cancelled now (.inLine (now + timeout.millis))
        (channel.enqueue sender)

inductive Resumes (channel : Channel) (sender value deadline : Nat) (cancelled : Bool) (now : Nat) :
    Sending → Channel → Prop
  | abandon (stops : cancelled = true) :
      Resumes channel sender value deadline cancelled now (.ended .abandoned) (channel.leave sender)
  | redeem (going : cancelled = false) (granted : sender ∈ channel.granted) :
      Resumes channel sender value deadline cancelled now (.ended .delivered) (channel.redeem sender value)
  | lose (going : cancelled = false) (ungranted : sender ∉ channel.granted) (closed : channel.isOpen = false) :
      Resumes channel sender value deadline cancelled now (.ended .closed) channel
  | expire (going : cancelled = false) (ungranted : sender ∉ channel.granted) (isOpen : channel.isOpen = true)
      (late : deadline ≤ now) :
      Resumes channel sender value deadline cancelled now (.ended .timedOut) (channel.leave sender)
  | stay (going : cancelled = false) (ungranted : sender ∉ channel.granted) (isOpen : channel.isOpen = true)
      (early : now < deadline) :
      Resumes channel sender value deadline cancelled now (.inLine deadline) channel

variable {channel channel' : Channel} {sender value deadline now : Nat} {timeout : Duration} {cancelled : Bool}
  {sending : Sending}

theorem begins_of_beginSend
    (begun : channel.beginSend sender value timeout cancelled now = (sending, channel')) :
    channel.Begins sender value timeout cancelled now sending channel' := by
  unfold beginSend at begun
  cases stops : cancelled with
  | true =>
      rw [if_pos stops] at begun
      obtain ⟨rfl, rfl⟩ := Prod.mk.inj begun
      exact .abandon rfl
  | false =>
      rw [if_neg (ne_true_of_eq_false stops)] at begun
      cases isOpen : channel.isOpen with
      | false =>
          simp only [isOpen, Bool.not_false, if_true, Prod.mk.injEq] at begun
          obtain ⟨rfl, rfl⟩ := begun
          exact .lose rfl isOpen
      | true =>
          simp only [isOpen, Bool.not_true, Bool.false_eq_true, if_false] at begun
          by_cases free : 0 < channel.room
          · rw [if_pos free] at begun
            obtain ⟨rfl, rfl⟩ := Prod.mk.inj begun
            exact .put rfl isOpen free
          · rw [if_neg free] at begun
            have full : channel.room = 0 := Nat.eq_zero_of_not_pos free
            by_cases spent : timeout.millis = 0
            · rw [if_pos spent] at begun
              obtain ⟨rfl, rfl⟩ := Prod.mk.inj begun
              exact .expire rfl isOpen full spent
            · rw [if_neg spent] at begun
              obtain ⟨rfl, rfl⟩ := Prod.mk.inj begun
              exact .wait rfl isOpen full (Nat.pos_of_ne_zero spent)

theorem resumes_of_resumeSend
    (resumed : channel.resumeSend sender value deadline cancelled now = (sending, channel')) :
    channel.Resumes sender value deadline cancelled now sending channel' := by
  unfold resumeSend at resumed
  cases stops : cancelled with
  | true =>
      rw [if_pos stops] at resumed
      obtain ⟨rfl, rfl⟩ := Prod.mk.inj resumed
      exact .abandon rfl
  | false =>
      rw [if_neg (ne_true_of_eq_false stops)] at resumed
      by_cases granted : sender ∈ channel.granted
      · rw [if_pos granted] at resumed
        obtain ⟨rfl, rfl⟩ := Prod.mk.inj resumed
        exact .redeem rfl granted
      · rw [if_neg granted] at resumed
        cases isOpen : channel.isOpen with
        | false =>
            simp only [isOpen, Bool.not_false, if_true, Prod.mk.injEq] at resumed
            obtain ⟨rfl, rfl⟩ := resumed
            exact .lose rfl granted isOpen
        | true =>
            simp only [isOpen, Bool.not_true, Bool.false_eq_true, if_false] at resumed
            by_cases late : deadline ≤ now
            · rw [if_pos late] at resumed
              obtain ⟨rfl, rfl⟩ := Prod.mk.inj resumed
              exact .expire rfl granted isOpen late
            · rw [if_neg late] at resumed
              obtain ⟨rfl, rfl⟩ := Prod.mk.inj resumed
              exact .stay rfl granted isOpen (Nat.lt_of_not_le late)

/-! ### The places of a channel -/

/-- There are no more values and granted places than the capacity, and a sender only waits if all places are
taken or granted. -/
structure Bounded (channel : Channel) : Prop where
  fits : channel.queue.length + channel.granted.length ≤ channel.capacity
  full : channel.waiting ≠ [] → channel.queue.length + channel.granted.length = channel.capacity

/-- Those who were granted a place and those who wait for one, in order. -/
def line (channel : Channel) : List Nat :=
  channel.granted ++ channel.waiting

theorem grant_line (channel : Channel) : channel.grant.line = channel.line := by
  simp only [line, grant, List.append_assoc, List.take_append_drop]

theorem grant_bounded (fits : channel.queue.length + channel.granted.length ≤ channel.capacity) :
    channel.grant.Bounded := by
  have room : channel.room = channel.capacity - (channel.queue.length + channel.granted.length) := rfl
  refine ⟨?_, fun waits => ?_⟩
  · simp only [grant, List.length_append, List.length_take]
    omega
  · have more : channel.room < channel.waiting.length := by
      refine Nat.lt_of_not_le fun enough => waits ?_
      simp only [grant, List.drop_eq_nil_iff]
      exact enough
    simp only [grant, List.length_append, List.length_take]
    omega

theorem Bounded.room_eq (bounded : channel.Bounded) (waits : channel.waiting ≠ []) : channel.room = 0 := by
  have full := bounded.full waits
  unfold room
  omega

theorem Bounded.nobody_waits (bounded : channel.Bounded) (free : 0 < channel.room) : channel.waiting = [] := by
  cases waits : channel.waiting with
  | nil => rfl
  | cons first rest =>
      have full := bounded.room_eq (by simp [waits])
      omega

theorem Bounded.grant_eq (bounded : channel.Bounded) : channel.grant = channel := by
  have nobody : channel.waiting = [] ∨ channel.room = 0 := by
    by_cases waits : channel.waiting = []
    · exact .inl waits
    · exact .inr (bounded.room_eq waits)
  have granted : channel.granted ++ channel.waiting.take channel.room = channel.granted := by
    rcases nobody with empty | full
    · rw [empty, List.take_nil, List.append_nil]
    · rw [full, List.take_zero, List.append_nil]
  have waiting : channel.waiting.drop channel.room = channel.waiting := by
    rcases nobody with empty | full
    · rw [empty, List.drop_nil]
    · rw [full, List.drop_zero]
  rw [grant, granted, waiting]

theorem bounded_closeReceiver (channel : Channel) : channel.closeReceiver.Bounded :=
  ⟨Nat.zero_le _, fun waits => absurd rfl waits⟩

section

variable (bounded : channel.Bounded)
include bounded

theorem Bounded.put (free : 0 < channel.room) (value : Nat) : (channel.put value).Bounded := by
  have nobody := bounded.nobody_waits free
  refine ⟨?_, fun waits => absurd nobody waits⟩
  unfold room at free
  simp only [Channel.put, List.length_append, List.length_singleton]
  omega

theorem Bounded.enqueue (full : channel.room = 0) (sender : Nat) : (channel.enqueue sender).Bounded := by
  have fits := bounded.fits
  refine ⟨fits, fun _ => ?_⟩
  unfold room at full
  simp only [Channel.enqueue]
  omega

theorem Bounded.redeem (granted : sender ∈ channel.granted) (value : Nat) :
    (channel.redeem sender value).Bounded := by
  have size : (channel.granted.erase sender).length + 1 = channel.granted.length := by
    have some := List.length_pos_of_mem granted
    rw [List.length_erase_of_mem granted]
    omega
  refine ⟨?_, fun waits => ?_⟩
  · have fits := bounded.fits
    simp only [Channel.redeem, Channel.put, List.length_append, List.length_singleton]
    omega
  · have full := bounded.full waits
    simp only [Channel.redeem, Channel.put, List.length_append, List.length_singleton]
    omega

theorem Bounded.receive (most : Option Nat) : (channel.receive most).2.Bounded := by
  have fits := bounded.fits
  refine grant_bounded ?_
  simp only [List.length_drop]
  omega

end

theorem redeem_line (granted : sender ∈ channel.granted) (value : Nat) :
    (channel.redeem sender value).line = channel.line.erase sender :=
  (List.erase_append_left _ granted).symm

/-- The channel right after a sender has given up, before the place of the sender is granted to another. -/
private def without (channel : Channel) (sender : Nat) : Channel :=
  { channel with granted := channel.granted.erase sender, waiting := channel.waiting.erase sender }

private theorem without_fits (bounded : channel.Bounded) (sender : Nat) :
    (channel.without sender).queue.length + (channel.without sender).granted.length ≤ channel.capacity := by
  have fewer : (channel.granted.erase sender).length ≤ channel.granted.length := List.length_erase_le
  have fits := bounded.fits
  simp only [without]
  omega

theorem Bounded.leave (bounded : channel.Bounded) (sender : Nat) : (channel.leave sender).Bounded :=
  grant_bounded (without_fits bounded sender)

theorem leave_line (distinct : channel.line.Nodup) (sender : Nat) :
    (channel.leave sender).line = channel.line.erase sender := by
  have granted : (channel.leave sender).line =
      channel.granted.erase sender ++ channel.waiting.erase sender :=
    grant_line (channel.without sender)
  rw [granted, line, List.erase_append]
  by_cases member : sender ∈ channel.granted
  · have absent : sender ∉ channel.waiting := fun waits =>
      (List.nodup_append.mp distinct).2.2 sender member sender waits rfl
    rw [if_pos member, List.erase_of_not_mem absent]
  · rw [if_neg member, List.erase_of_not_mem member]

theorem Bounded.leave_granted (bounded : channel.Bounded) {sender : Nat}
    (ungranted : sender ∉ channel.granted) : (channel.leave sender).granted = channel.granted := by
  have kept : (channel.without sender).granted = channel.granted := List.erase_of_not_mem ungranted
  have still : (channel.without sender).Bounded := by
    refine ⟨without_fits bounded sender, fun waits => ?_⟩
    have before : channel.waiting ≠ [] := by
      intro empty
      simp [without, empty] at waits
    rw [kept]
    exact bounded.full before
  exact (congrArg Channel.granted still.grant_eq).trans kept

theorem Resumes.kept (resumes : channel.Resumes sender value deadline cancelled now sending channel') :
    channel'.isOpen = channel.isOpen ∧ channel'.capacity = channel.capacity := by
  cases resumes <;> exact ⟨rfl, rfl⟩

/-- Unless it is cancelled, a sender who looks again changes nothing for the others. -/
theorem Resumes.granted_iff (resumes : channel.Resumes sender value deadline cancelled now sending channel')
    (bounded : channel.Bounded) (going : cancelled = false) {other : Nat} (different : other ≠ sender) :
    other ∈ channel'.granted ↔ other ∈ channel.granted := by
  cases resumes with
  | abandon stops => exact absurd stops (ne_true_of_eq_false going)
  | redeem going granted => exact List.mem_erase_of_ne different
  | lose | stay => exact Iff.rfl
  | expire going ungranted isOpen late => rw [bounded.leave_granted ungranted]

end Channel

end SequencedFeed
