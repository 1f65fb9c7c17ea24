import SequencedFeed.Client
set_option autoImplicit false

/-!
# Views of a history

A client's history has its latest occurrence first. A view picks occurrences out of it, and `seen` lists
what a view picked, oldest first. The main statements say how a view grows with the history, so that no
later proof looks into the list.
-/

namespace SequencedFeed

def LogEvent.reportsFailure : LogEvent → Bool
  | .dialFailed .. => true
  | .redialFailed .. => true
  | .silent .. => true
  | .readFailed .. => true
  | _ => false

namespace Occurrence

def dial? : Occurrence → Option String
  | .dialBegun url => some url
  | _ => none

def dialEnd? : Occurrence → Option DialEnd
  | .dialEnded ends => some ends
  | _ => none

def failedDial? : Occurrence → Option TransportError
  | .dialEnded (.fail error) => some error
  | _ => none

def handed? : Occurrence → Option Nat
  | .dialEnded (.connect link) => some link
  | _ => none

def installed? : Occurrence → Option Nat
  | .installed link => some link
  | _ => none

def frame? : Occurrence → Option (Nat × List UInt8)
  | .read link (.ok frame) => some (link, frame)
  | _ => none

def failedRead? : Occurrence → Option (Nat × TransportError)
  | .read link (.error error) => some (link, error)
  | _ => none

def read? : Occurrence → Option (Nat × ReadResult)
  | .read link result => some (link, result)
  | _ => none

def failureReport? : Occurrence → Option LogEvent
  | .log event => if event.reportsFailure then some event else none
  | _ => none

def call? : Occurrence → Option SinkCall
  | .applied call => some call
  | _ => none

def sinkReturn? : Occurrence → Option Bool
  | .sinkReturned failed => some failed
  | _ => none

def delivered? : Occurrence → Option Nat
  | .delivered mark => some mark
  | _ => none

/-- What a client that was stopped must not begin any more: to dial, to hold a connection, to call the
sink, or to put a mark into the channel. -/
def isBeginning : Occurrence → Bool
  | .dialBegun _ => true
  | .installed _ => true
  | .applied _ => true
  | .delivered _ => true
  | _ => false

end Occurrence

/-- What a view picks out of a history, oldest first. -/
def seen {α : Type} (view : Occurrence → Option α) (history : List (Nat × Occurrence)) : List α :=
  (history.filterMap fun entry => view entry.2).reverse

section Seen

variable {α : Type} (view : Occurrence → Option α)

@[simp] theorem seen_nil : seen view [] = [] :=
  rfl

@[simp] theorem seen_cons (time : Nat) (occurrence : Occurrence)
    (history : List (Nat × Occurrence)) :
    seen view ((time, occurrence) :: history) = seen view history ++ (view occurrence).toList := by
  cases picked : view occurrence with
  | none => simp [seen, picked]
  | some value => simp [seen, picked]

theorem seen_skip {occurrence : Occurrence} (blank : view occurrence = none) (time : Nat)
    (history : List (Nat × Occurrence)) :
    seen view ((time, occurrence) :: history) = seen view history := by
  rw [seen_cons, blank, Option.toList_none, List.append_nil]

def SkipsLog : Prop :=
  ∀ event, view (.log event) = none

theorem seen_log (skips : SkipsLog view) (time : Nat) (event : LogEvent)
    (history : List (Nat × Occurrence)) :
    seen view ((time, .log event) :: history) = seen view history :=
  seen_skip view (skips event) time history

/-- A view that looks at nothing but dials and installations. -/
structure LooksAtDials : Prop where
  log : SkipsLog view
  read : ∀ link result, view (.read link result) = none
  applied : ∀ call, view (.applied call) = none
  returned : ∀ failed, view (.sinkReturned failed) = none
  delivered : ∀ mark, view (.delivered mark) = none

structure LooksAtFrames : Prop where
  log : SkipsLog view
  dialBegun : ∀ url, view (.dialBegun url) = none
  dialEnded : ∀ ends, view (.dialEnded ends) = none
  failed : ∀ link error, view (.read link (.error error)) = none
  delivered : ∀ mark, view (.delivered mark) = none

theorem seen_append (added history : List (Nat × Occurrence)) :
    seen view (added ++ history) = seen view history ++ seen view added := by
  rw [seen, List.filterMap_append, List.reverse_append, seen, seen]

theorem seen_prefix_of_suffix {earlier later : List (Nat × Occurrence)} (grows : earlier <:+ later) :
    seen view earlier <+: seen view later := by
  obtain ⟨added, rfl⟩ := grows
  rw [seen_append]
  exact List.prefix_append ..

end Seen

/-- The later history has nothing new but occurrences of one kind. -/
def OnlyAdds (kind : Occurrence → Prop) (earlier later : List (Nat × Occurrence)) : Prop :=
  ∃ added, later = added ++ earlier ∧ ∀ entry ∈ added, kind entry.2

namespace OnlyAdds

variable {kind : Occurrence → Prop} {earlier middle later : List (Nat × Occurrence)}

theorem of_eq (same : later = earlier) : OnlyAdds kind earlier later :=
  ⟨[], same, List.forall_mem_nil _⟩

theorem cons (fits : OnlyAdds kind earlier later) (time : Nat) {occurrence : Occurrence}
    (new : kind occurrence) : OnlyAdds kind earlier ((time, occurrence) :: later) := by
  obtain ⟨added, rfl, kinds⟩ := fits
  exact ⟨(time, occurrence) :: added, rfl, List.forall_mem_cons.mpr ⟨new, kinds⟩⟩

theorem trans (first : OnlyAdds kind earlier middle) (second : OnlyAdds kind middle later) :
    OnlyAdds kind earlier later := by
  obtain ⟨added, rfl, kinds⟩ := first
  obtain ⟨added', rfl, kinds'⟩ := second
  refine ⟨added' ++ added, (List.append_assoc ..).symm, fun entry member => ?_⟩
  exact (List.mem_append.mp member).elim (kinds' entry) (kinds entry)

theorem mono {wider : Occurrence → Prop} (fits : OnlyAdds kind earlier later)
    (within : ∀ occurrence, kind occurrence → wider occurrence) : OnlyAdds wider earlier later := by
  obtain ⟨added, same, kinds⟩ := fits
  exact ⟨added, same, fun entry member => within _ (kinds entry member)⟩

theorem filterMap_eq {β : Type} {pick : Nat × Occurrence → Option β} (fits : OnlyAdds kind earlier later)
    (blind : ∀ entry, kind entry.2 → pick entry = none) :
    later.filterMap pick = earlier.filterMap pick := by
  obtain ⟨added, rfl, kinds⟩ := fits
  rw [List.filterMap_append, List.filterMap_eq_nil_iff.mpr, List.nil_append]
  exact fun entry member => blind entry (kinds entry member)

theorem seen_eq {α : Type} {view : Occurrence → Option α} (fits : OnlyAdds kind earlier later)
    (blind : ∀ occurrence, kind occurrence → view occurrence = none) : seen view later = seen view earlier :=
  congrArg List.reverse (fits.filterMap_eq fun entry => blind entry.2)

end OnlyAdds

theorem handed_looksAtDials : LooksAtDials Occurrence.handed? :=
  ⟨fun _ => rfl, fun _ _ => rfl, fun _ => rfl, fun _ => rfl, fun _ => rfl⟩

theorem dial_looksAtDials : LooksAtDials Occurrence.dial? :=
  ⟨fun _ => rfl, fun _ _ => rfl, fun _ => rfl, fun _ => rfl, fun _ => rfl⟩

theorem dialEnd_looksAtDials : LooksAtDials Occurrence.dialEnd? :=
  ⟨fun _ => rfl, fun _ _ => rfl, fun _ => rfl, fun _ => rfl, fun _ => rfl⟩

theorem failedDial_looksAtDials : LooksAtDials Occurrence.failedDial? :=
  ⟨fun _ => rfl, fun _ _ => rfl, fun _ => rfl, fun _ => rfl, fun _ => rfl⟩

theorem installed_looksAtFrames : LooksAtFrames Occurrence.installed? :=
  ⟨fun _ => rfl, fun _ => rfl, fun _ => rfl, fun _ _ => rfl, fun _ => rfl⟩

theorem frame_looksAtFrames : LooksAtFrames Occurrence.frame? :=
  ⟨fun _ => rfl, fun _ => rfl, fun _ => rfl, fun _ _ => rfl, fun _ => rfl⟩

theorem call_looksAtFrames : LooksAtFrames Occurrence.call? :=
  ⟨fun _ => rfl, fun _ => rfl, fun _ => rfl, fun _ _ => rfl, fun _ => rfl⟩

theorem sinkReturn_looksAtFrames : LooksAtFrames Occurrence.sinkReturn? :=
  ⟨fun _ => rfl, fun _ => rfl, fun _ => rfl, fun _ _ => rfl, fun _ => rfl⟩

theorem installed_looksAtDials : LooksAtDials Occurrence.installed? :=
  ⟨fun _ => rfl, fun _ _ => rfl, fun _ => rfl, fun _ => rfl, fun _ => rfl⟩

namespace Client

/-- The connections that dials have given, whether or not the slot took them. -/
def handed (client : Client) : List Nat :=
  seen Occurrence.handed? client.history

/-- The connections that the slot has held. -/
def installs (client : Client) : List Nat :=
  seen Occurrence.installed? client.history

def dialsBegun (client : Client) : Nat :=
  (seen Occurrence.dial? client.history).length

/-- Dials that gave a connection or failed. A dial that its cancelled task abandons does not end. -/
def dialsEnded (client : Client) : Nat :=
  (seen Occurrence.dialEnd? client.history).length

/-- The failures of dials, each as it was given to the task that dialled. -/
def failedDials (client : Client) : List TransportError :=
  seen Occurrence.failedDial? client.history

def reads (client : Client) : List (Nat × ReadResult) :=
  seen Occurrence.read? client.history

def failureReports (client : Client) : List LogEvent :=
  seen Occurrence.failureReport? client.history

/-- The marks that were put into the channel. -/
def deliveries (client : Client) : List Nat :=
  seen Occurrence.delivered? client.history

theorem dialsEnded_eq (client : Client) :
    client.dialsEnded = client.failedDials.length + client.handed.length := by
  unfold dialsEnded failedDials handed
  induction client.history with
  | nil => rfl
  | cons entry rest ih =>
      obtain ⟨time, occurrence⟩ := entry
      simp only [seen_cons, List.length_append, ih]
      cases occurrence with
      | dialEnded ends => cases ends <;> simp [Occurrence.dialEnd?, Occurrence.failedDial?, Occurrence.handed?] <;> omega
      | _ => rfl

theorem sinkCalls_eq_seen (client : Client) :
    client.sinkCalls.map Prod.snd = seen Occurrence.call? client.history := by
  unfold sinkCalls seen
  rw [List.map_reverse, List.map_filterMap]
  congr 2
  funext ⟨time, occurrence⟩
  cases occurrence <;> rfl

end Client

end SequencedFeed
