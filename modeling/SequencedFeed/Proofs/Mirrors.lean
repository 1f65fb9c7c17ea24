import Mathlib.Logic.Function.Basic
import SequencedFeed.Proofs.Likeness
import SequencedFeed.Proofs.StopAll
import SequencedFeed.Proofs.Turns
set_option autoImplicit false

/-!
# Clients among others, and by themselves

Several clients whose addresses and connections are their own do what each of them does by itself. Each client of
such a fleet has a mate on a stage of its own, where the same connections have other numbers. When a client moves
its mate makes the same move, and for all others the stage is as it was. How the clients take turns does not matter,
for each comes to the same rest whether or not it pauses on the way.
-/

namespace SequencedFeed

/-- Other numbers for connections, in the same order. -/
structure Renumbering where
  number : Nat → Nat
  increasing : ∀ {left right : Nat}, left < right → number left < number right

theorem Renumbering.injective (numbering : Renumbering) {left right : Nat}
    (same : numbering.number left = numbering.number right) : left = right := by
  rcases Nat.lt_trichotomy left right with before | here | after
  · exact absurd same (Nat.ne_of_lt (numbering.increasing before))
  · exact here
  · exact absurd same (Nat.ne_of_gt (numbering.increasing after))

def Renumbering.likeness (numbering : Renumbering) : Likeness where
  rename := numbering.number
  links _ := Eq
  counts := Eq
  pasts past other := past = other.map fun entry => (entry.1, entry.2.rename numbering.number)
  loose := false
  injective := numbering.injective
  close := congrArg Link.close
  opened := congrArg Metrics.connectionOpened
  closed := congrArg Metrics.connectionClosed
  dialFailed := congrArg Metrics.dialFailed
  framed := congrArg Metrics.frameReceived
  failed kind := congrArg (Metrics.errorOccurred · kind)
  noted time occurrence same := by
    rw [same]
    rfl

abbrev turn (count : Nat) (here : Client × Stage) : Client × Stage :=
  Client.moveToReady count here.1 here.2

theorem Phase.episode_rename (rename : Nat → Nat) (phase : Phase) : (phase.rename rename).episode? = phase.episode? := by
  cases phase <;> rfl

section

variable {numbering : Renumbering} {around stage : Stage} {client mate : Client} {here there : Client × Stage}

theorem Client.Like.phase_eq (alike : client.Like numbering.likeness mate) :
    client.phase = mate.phase.rename numbering.number := by
  have phases := alike.phase
  generalize client.phase = phase at phases ⊢
  generalize mate.phase = phase' at phases ⊢
  cases phases with
  | same => rfl
  | reading loose => cases loose

namespace Alike

theorem move_renumbered (alike : Alike numbering.likeness around here there) :
    Option.Rel (Alike numbering.likeness around) (here.1.move? here.2) (there.1.move? there.2) := by
  obtain ⟨client, stage⟩ := here
  obtain ⟨mate, other⟩ := there
  refine alike.move fun link since _ => readsAlike_of_links alike.stage fun held held' found found' => ?_
  have links : Option.Rel Eq stage.links[numbering.number link]? other.links[link]? := alike.stage.links link
  have found : stage.links[numbering.number link]? = some held := found
  rw [found, found'] at links
  cases links with
  | some same =>
      subst same
      cases held.read? with
      | none => exact .none
      | some read => exact .some ⟨rfl, rfl⟩

theorem atRest_iff (alike : Alike numbering.likeness around here there) :
    here.1.atRest here.2 ↔ there.1.atRest there.2 := by
  have moves := alike.move_renumbered
  unfold Client.atRest
  generalize here.1.move? here.2 = moved at moves ⊢
  generalize there.1.move? there.2 = moved' at moves ⊢
  cases moves with
  | none => exact Iff.rfl
  | some both => exact iff_of_false (by simp) (by simp)

theorem turned_iff (alike : Alike numbering.likeness around here there) :
    here.1.Turned here.2 ↔ there.1.Turned there.2 := by
  rw [Client.Turned, Client.Turned, alike.atRest_iff, alike.client.phase_eq, Phase.episode_rename]

theorem turn (alike : Alike numbering.likeness around here there) (count : Nat) :
    Alike numbering.likeness around (turn count here) (turn count there) := by
  induction count generalizing here there with
  | zero => exact alike
  | succ count ih =>
      have moves := alike.move_renumbered
      unfold SequencedFeed.turn Client.moveToReady
      generalize here.1.move? here.2 = moved at moves
      generalize there.1.move? there.2 = moved' at moves
      cases moves with
      | none => exact alike
      | @some next next' both =>
          have ready : next.1.phase = .ready ↔ next'.1.phase = .ready := by
            rw [both.client.phase_eq]
            cases next'.1.phase <;> simp [Phase.rename]
          by_cases ends : next'.1.phase = .ready
          · simp only [if_pos ends, if_pos (ready.mpr ends)]
            exact both
          · simp only [if_neg ends, if_neg (ready.not.mpr ends)]
            exact ih both

end Alike

end

theorem turn_keeps (count : Nat) (here : Client × Stage) :
    (turn count here).1.number = here.1.number ∧ (turn count here).1.options = here.1.options := by
  induction count generalizing here with
  | zero => exact ⟨rfl, rfl⟩
  | succ count ih =>
      unfold turn Client.moveToReady
      cases moved : here.1.move? here.2 with
      | none => exact ⟨rfl, rfl⟩
      | some next =>
          have kept : next.1.number = here.1.number ∧ next.1.options = here.1.options := by
            obtain ⟨client, stage⟩ := next
            obtain ⟨next, around, moves, rfl, rfl⟩ := Client.moves_of_move moved
            exact ⟨moves.keeps.number, moves.keeps.options⟩
          by_cases ready : next.1.phase = .ready
          · simp only [if_pos ready]
            exact kept
          · simp only [if_neg ready]
            exact ⟨(ih next).1.trans kept.1, (ih next).2.trans kept.2⟩

/-! ### Clients that disturb nobody -/

namespace Stage

variable {stage : Stage}

theorem receive_silent (silent : stage.channel = none) (most : Option Nat) : stage.receive most = ([], stage) := by
  unfold receive
  rw [silent]

theorem closeReceiver_silent (silent : stage.channel = none) : stage.closeReceiver = stage := by
  obtain ⟨now, tokenCancelled, scripts, links, channel, moves, stopAsked⟩ := stage
  obtain rfl : channel = none := silent
  rfl

end Stage

/-- What a client leaves alone that changes nothing of its stage but scripts and connections. -/
structure Stage.Beside (stage later : Stage) : Prop where
  now : later.now = stage.now
  token : later.tokenCancelled = stage.tokenCancelled
  asked : later.stopAsked = stage.stopAsked
  channel : later.channel = stage.channel

theorem Stage.Beside.trans {stage middle later : Stage} (first : stage.Beside middle) (second : middle.Beside later) :
    stage.Beside later :=
  ⟨second.now.trans first.now, second.token.trans first.token, second.asked.trans first.asked,
    second.channel.trans first.channel⟩

/-- A calm client that comes to rest. -/
structure Client.Tame (client : Client) (stage : Stage) : Prop extends client.Calm stage where
  consistent : client.Consistent stage
  pauses : client.Pauses stage

namespace Client

variable {client client' : Client} {stage stage' : Stage}

theorem Tame.move (tame : client.Tame stage) (moved : client.move? stage = some (client', stage')) :
    client'.Tame stage' ∧ stage.Beside stage' := by
  have acts : client.Acts stage client' stage' := .move moved
  have consistent := tame.consistent.acts acts
  have pauses := acts.pauses tame.pauses
  obtain ⟨next, around, moves, rfl, rfl⟩ := moves_of_move moved
  obtain ⟨calm, scripts, links, rfl⟩ := tame.toCalm.moves moves
  exact ⟨⟨⟨calm.silent, calm.outcomes, calm.dialling⟩, consistent, pauses⟩, rfl, rfl, rfl, rfl⟩

theorem Tame.act (tame : client.Tame stage) (acts : client.Acts stage client' stage')
    (undialled : client'.phase = client.phase ∨ client'.phase.dial? = none) (scripts : stage'.scripts = stage.scripts)
    (silent : stage'.channel = stage.channel) : client'.Tame stage' := by
  have silent' := silent.trans tame.silent
  have calm : client'.Calm stage' := by
    rcases undialled with same | undialled
    · refine ⟨silent', ?_, fun episode ends stops due here => tame.dialling episode ends stops due (same.symm.trans here)⟩
      rw [url_eq acts.options, Stage.script, scripts]
      exact tame.outcomes
    · exact tame.toCalm.of_undialled acts.options undialled silent' scripts
  exact ⟨calm, tame.consistent.acts acts, acts.pauses tame.pauses⟩

theorem Tame.turn (tame : client.Tame stage) (count : Nat) :
    (turn count (client, stage)).1.Tame (turn count (client, stage)).2 ∧ stage.Beside (turn count (client, stage)).2 := by
  induction count generalizing client stage with
  | zero => exact ⟨tame, rfl, rfl, rfl, rfl⟩
  | succ count ih =>
      unfold SequencedFeed.turn moveToReady
      cases moved : client.move? stage with
      | none => exact ⟨tame, rfl, rfl, rfl, rfl⟩
      | some next =>
          obtain ⟨first, beside⟩ := tame.move moved
          by_cases ready : next.1.phase = .ready
          · simp only [if_pos ready]
            exact ⟨first, beside⟩
          · simp only [if_neg ready]
            obtain ⟨rest, beside'⟩ := ih first
            exact ⟨rest, beside.trans beside'⟩

end Client

/-! ### Mates -/

namespace Fleet

/-- A fleet whose clients have addresses and connections of their own, each with a mate that it is like. -/
structure Mirrored (numberings : Nat → Renumbering) (mates : Nat → Client × Stage) (fleet : Fleet) : Prop where
  reachable : fleet.Reachable
  numbered : fleet.Numbered
  heard : fleet.stage.stopAsked = false
  distinct : ∀ (place place' : Nat) (client client' : Client), fleet.clients[place]? = some client →
    fleet.clients[place']? = some client' → client.url = client'.url → place = place'
  apart : ∀ place place' : Nat, place < fleet.clients.length → place' < fleet.clients.length → place ≠ place' →
    ∀ own own', (numberings place).number own = (numberings place').number own' →
      fleet.stage.links.length ≤ (numberings place).number own
  alike : ∀ (place : Nat) (client : Client), fleet.clients[place]? = some client →
    Alike (numberings place).likeness fleet.stage (client, fleet.stage) (mates place)
  tame : ∀ place < fleet.clients.length, (mates place).1.Tame (mates place).2

variable {numberings : Nat → Renumbering} {mates : Nat → Client × Stage} {fleet : Fleet}

namespace Mirrored

theorem congr (mirrored : fleet.Mirrored numberings mates) {mates' : Nat → Client × Stage}
    (same : ∀ place < fleet.clients.length, mates' place = mates place) : fleet.Mirrored numberings mates' :=
  { mirrored with
    alike := fun place client found => by
      rw [same place (List.getElem?_eq_some_iff.mp found).1]
      exact mirrored.alike place client found
    tame := fun place inside => by
      rw [same place inside]
      exact mirrored.tame place inside }

theorem elsewhere (mirrored : fleet.Mirrored numberings mates) {place other : Nat} {client changed client' : Client}
    {stage' : Stage} (found : fleet.clients[place]? = some client) (different : other ≠ place)
    (same : fleet.clients[other]? = some changed) {mate : Client × Stage}
    (alike : Alike (numberings place).likeness fleet.stage (client', stage') mate)
    (beside : (mates place).2.Beside mate.2) (url : client'.url = client.url) :
    Alike (numberings other).likeness stage' (changed, stage') (mates other) := by
  have before := mirrored.alike place client found
  have held := mirrored.alike other changed same
  have links : stage'.links.length = fleet.stage.links.length := alike.stage.size
  have apart := mirrored.apart place other (List.getElem?_eq_some_iff.mp found).1
    (List.getElem?_eq_some_iff.mp same).1 (Ne.symm different)
  refine ⟨held.client, ⟨?_, ?_, ?_, ?_, ?_, fun own => ?_, rfl, fun _ _ => rfl, fun _ _ => rfl⟩, held.heard⟩
  · exact alike.stage.now.trans (beside.now.trans (before.stage.now.symm.trans held.stage.now))
  · exact alike.stage.token.trans (beside.token.trans (before.stage.token.symm.trans held.stage.token))
  · exact alike.stage.asked.trans (beside.asked.trans (before.stage.asked.symm.trans held.stage.asked))
  · exact alike.stage.channel.trans (beside.channel.trans (before.stage.channel.symm.trans held.stage.channel))
  · have elsewhere : (mates other).1.url ≠ mate.1.url := fun same_url => by
      have addresses : client.url = changed.url :=
        url.symm.trans (alike.client.url_eq.trans (same_url.symm.trans held.client.url_eq.symm))
      exact different (mirrored.distinct place other client changed found same addresses).symm
    exact (alike.stage.others _ elsewhere).trans held.stage.script
  · have unchanged : stage'.links[(numberings other).number own]? = fleet.stage.links[(numberings other).number own]? := by
      by_cases shared : ∃ own', (numberings place).number own' = (numberings other).number own
      · obtain ⟨own', shared⟩ := shared
        have outside := apart own' own shared
        rw [shared] at outside
        rw [List.getElem?_eq_none outside, List.getElem?_eq_none (by rw [links]; exact outside)]
      · exact alike.stage.apart _ fun own' same => shared ⟨own', same⟩
    have held_links := held.stage.links own
    change Option.Rel Eq stage'.links[(numberings other).number own]? (mates other).2.links[own]?
    rw [unchanged]
    exact held_links

theorem put (mirrored : fleet.Mirrored numberings mates) {place : Nat} {client client' : Client} {stage' : Stage}
    (found : fleet.clients[place]? = some client) (reaches : fleet.Reaches (fleet.put place client' stage'))
    {mate : Client × Stage} (alike : Alike (numberings place).likeness fleet.stage (client', stage') mate)
    (tame : mate.1.Tame mate.2) (beside : (mates place).2.Beside mate.2) (number : client'.number = client.number)
    (url : client'.url = client.url) :
    (fleet.put place client' stage').Mirrored numberings (Function.update mates place mate) := by
  have inside := (List.getElem?_eq_some_iff.mp found).1
  have before := mirrored.alike place client found
  have size : (fleet.put place client' stage').clients.length = fleet.clients.length := List.length_set
  have links : stage'.links.length = fleet.stage.links.length := alike.stage.size
  have heard : stage'.stopAsked = false :=
    (alike.stage.asked.trans beside.asked).trans (before.stage.asked.symm.trans mirrored.heard)
  have get (other : Nat) (changed : Client) (found' : (fleet.put place client' stage').clients[other]? = some changed) :
      (other = place ∧ changed = client') ∨ (other ≠ place ∧ fleet.clients[other]? = some changed) := by
    by_cases here : place = other
    · subst here
      exact .inl ⟨rfl, Option.some.inj (found'.symm.trans (List.getElem?_set_self inside))⟩
    · exact .inr ⟨Ne.symm here, (List.getElem?_set_ne here).symm.trans found'⟩
  have addressed (other : Nat) (changed : Client)
      (found' : (fleet.put place client' stage').clients[other]? = some changed) :
      ∃ held, fleet.clients[other]? = some held ∧ changed.url = held.url ∧ changed.number = held.number := by
    rcases get other changed found' with ⟨rfl, rfl⟩ | ⟨-, same⟩
    · exact ⟨client, found, url, number⟩
    · exact ⟨changed, same, rfl, rfl⟩
  refine ⟨mirrored.reachable.after reaches, ?_, heard, ?_, ?_, ?_, ?_⟩
  · intro other changed found'
    obtain ⟨held, found'', -, number⟩ := addressed other changed found'
    exact number.trans (mirrored.numbered other held found'')
  · intro first second changed changed' found' found'' same
    obtain ⟨held, here, url, -⟩ := addressed first changed found'
    obtain ⟨held', here', url', -⟩ := addressed second changed' found''
    exact mirrored.distinct first second held held' here here' (url.symm.trans (same.trans url'))
  · intro first second
    change first < (fleet.put place client' stage').clients.length →
      second < (fleet.put place client' stage').clients.length → first ≠ second → ∀ own own',
        (numberings first).number own = (numberings second).number own' → stage'.links.length ≤ (numberings first).number own
    rw [size, links]
    exact mirrored.apart first second
  · intro other changed found'
    rcases get other changed found' with ⟨rfl, rfl⟩ | ⟨different, same⟩
    · rw [Function.update_self]
      exact ⟨alike.client, alike.stage.here, alike.heard⟩
    · rw [Function.update_of_ne different]
      exact mirrored.elsewhere found different same alike beside url
  · intro other present
    rw [size] at present
    by_cases here : other = place
    · subst here
      rw [Function.update_self]
      exact tame
    · rw [Function.update_of_ne here]
      exact mirrored.tame other present

end Mirrored

/-! ### Turns of clients and mates -/

/-- A mate on its way to the rest that it would come to by itself. -/
structure Nears (here there : Client × Stage) : Prop where
  settle : here.1.settle here.2 = there.1.settle there.2
  turned : here.1.Turned here.2 → there.1.Turned there.2
  rests : here.1.atRest here.2 → there.1.atRest there.2

theorem Nears.rfl {here : Client × Stage} : Nears here here :=
  ⟨Eq.refl _, id, id⟩

theorem Nears.trans {here middle there : Client × Stage} (first : Nears here middle) (second : Nears middle there) :
    Nears here there :=
  ⟨first.settle.trans second.settle, second.turned ∘ first.turned, second.rests ∘ first.rests⟩

theorem turnOf_of_heard {number : Nat} {client : Client} (found : fleet.clients[number]? = some client)
    (heard : (client.takeTurn fleet.stage).2.stopAsked = false) :
    fleet.turnOf number = fleet.put number (client.takeTurn fleet.stage).1 (client.takeTurn fleet.stage).2 := by
  have unasked : (fleet.put number (client.takeTurn fleet.stage).1 (client.takeTurn fleet.stage).2).passOnStop number =
    _ := passOnStop_of_heard heard number
  unfold Fleet.turnOf
  simp only [found]
  exact unasked

namespace Mirrored

/-- A turn of one client: it is past its start-up then, and at rest if it was before. -/
theorem turnOf (mirrored : fleet.Mirrored numberings mates) (number : Nat) :
    ∃ mates', (fleet.turnOf number).Mirrored numberings mates' ∧
      (∀ place, Nears (mates place) (mates' place)) ∧
        (number < fleet.clients.length → (mates' number).1.Turned (mates' number).2 ∧
          ((mates number).1.Turned (mates number).2 → (mates' number).1.atRest (mates' number).2)) := by
  cases found : fleet.clients[number]? with
  | none =>
      have stays : fleet.turnOf number = fleet := by
        unfold Fleet.turnOf
        simp only [found]
      rw [stays]
      exact ⟨mates, mirrored, fun _ => .rfl, fun inside => absurd (List.getElem?_eq_none_iff.mp found) (Nat.not_le_of_lt inside)⟩
  | some client =>
      have inside := (List.getElem?_eq_some_iff.mp found).1
      have before := mirrored.alike number client found
      have tame := mirrored.tame number inside
      have consistent := mirrored.reachable.consistent found
      have pauses : client.Pauses fleet.stage := by
        intro endless
        rw [before.client.url_eq, before.stage.script] at endless
        rw [before.client.options]
        exact tame.pauses endless
      have after := before.turn (client.work fleet.stage)
      obtain ⟨tame', beside⟩ := tame.turn (client.work fleet.stage)
      have heard : (client.takeTurn fleet.stage).2.stopAsked = false :=
        (after.stage.asked.trans beside.asked).trans (before.stage.asked.symm.trans mirrored.heard)
      have reaches := reaches_turnOf fleet number
      have turned := consistent.moveToReady_turned pauses Client.toil_le_work
      have rests := consistent.moveToReady_atRest pauses Client.toil_le_work
      rw [turnOf_of_heard found heard] at reaches ⊢
      obtain ⟨same, options⟩ := turn_keeps (client.work fleet.stage) (client, fleet.stage)
      have turned' : (turn (client.work fleet.stage) (mates number)).1.Turned (turn (client.work fleet.stage) (mates number)).2 :=
        after.turned_iff.mp turned
      have rests' (past : (mates number).1.Turned (mates number).2) :
          (turn (client.work fleet.stage) (mates number)).1.atRest (turn (client.work fleet.stage) (mates number)).2 :=
        after.atRest_iff.mp (rests (before.turned_iff.mpr past))
      refine ⟨_, mirrored.put found reaches after tame' beside same (Client.url_eq options), fun place => ?_, fun _ => ?_⟩
      · by_cases here : place = number
        · subst here
          rw [Function.update_self]
          exact ⟨tame.consistent.settle_moveToReady tame.pauses _, fun _ => turned', fun rest => rests' (.inl rest)⟩
        · rw [Function.update_of_ne here]
          exact .rfl
      · rw [Function.update_self]
        exact ⟨turned', rests'⟩

theorem turns (mirrored : fleet.Mirrored numberings mates) (numbers : List Nat) :
    ∃ mates', (numbers.foldl Fleet.turnOf fleet).Mirrored numberings mates' ∧
      (∀ place, Nears (mates place) (mates' place)) ∧
        ∀ place ∈ numbers, place < fleet.clients.length → (mates' place).1.Turned (mates' place).2 ∧
          ((mates place).1.Turned (mates place).2 → (mates' place).1.atRest (mates' place).2) := by
  induction numbers generalizing fleet mates with
  | nil => exact ⟨mates, mirrored, fun _ => .rfl, by simp⟩
  | cons number rest ih =>
      obtain ⟨middle, first, nears, has⟩ := mirrored.turnOf number
      obtain ⟨mates', others, nears', have'⟩ := ih first
      rw [(reaches_turnOf fleet number).length] at have'
      refine ⟨mates', others, fun place => (nears place).trans (nears' place), fun place member inside => ?_⟩
      rcases List.mem_cons.mp member with rfl | later
      · obtain ⟨turned, rests⟩ := has inside
        exact ⟨(nears' place).turned turned, fun past => (nears' place).rests (rests past)⟩
      · obtain ⟨turned, rests⟩ := have' place later inside
        exact ⟨turned, fun past => rests ((nears place).turned past)⟩

theorem round (mirrored : fleet.Mirrored numberings mates) :
    ∃ mates', fleet.round.Mirrored numberings mates' ∧ (∀ place, Nears (mates place) (mates' place)) ∧
      ∀ place < fleet.clients.length, (mates' place).1.Turned (mates' place).2 ∧
        ((mates place).1.Turned (mates place).2 → (mates' place).1.atRest (mates' place).2) := by
  obtain ⟨mates', turned, nears, rests⟩ := mirrored.turns fleet.turns
  refine ⟨mates', turned, nears, fun place inside => rests place ?_ inside⟩
  exact mirrored.numbered.mem_turns (List.getElem?_eq_getElem inside)

theorem aside (mirrored : fleet.Mirrored numberings mates) (reports : List LogRecord) (waiting : Nat) (stopped : List Nat) :
    Mirrored numberings mates { fleet with reports, waiting, stopped } :=
  { mirrored with
    reachable := mirrored.reachable.after
      (.single (.aside fleet.stage.tokenCancelled fleet.stage.stopAsked reports waiting stopped)) }

/-- After two rounds every client rests where its mate comes to rest by itself. -/
theorem settle (mirrored : fleet.Mirrored numberings mates) :
    fleet.settle.Mirrored numberings fun place => (mates place).1.settle (mates place).2 := by
  obtain ⟨middle, first, nears, turned⟩ := mirrored.round
  obtain ⟨mates', second, nears', rests⟩ := first.round
  have length : fleet.round.clients.length = fleet.clients.length := (reaches_round fleet).length
  have collected : fleet.round.round.collect.Mirrored numberings mates' := by
    unfold Fleet.collect
    split
    · exact second.aside _ _ _
    · exact second
  refine collected.congr fun place inside => ?_
  have inside : place < fleet.clients.length := (reaches_settle fleet).length ▸ inside
  have past := (turned place inside).1
  have rest := (rests place (length.symm ▸ inside)).2 past
  rw [((nears place).trans (nears' place)).settle, Client.settle_atRest rest]

/-! ### All clients at once -/

/-- A change of one client that its mate can make as well. -/
structure Shared (change : Client → Stage → Client × Stage) (fits : Stage → Prop) : Prop where
  acts : ∀ client stage, fits stage → fits (change client stage).2 ∧
    client.Acts stage (change client stage).1 (change client stage).2
  alike : ∀ (numbering : Renumbering) (around : Stage) (here there : Client × Stage), fits here.2 → there.1.Tame there.2 →
    Alike numbering.likeness around here there →
      Alike numbering.likeness around (change here.1 here.2) (change there.1 there.2) ∧
        (change there.1 there.2).1.Tame (change there.1 there.2).2 ∧ there.2.Beside (change there.1 there.2).2

private theorem forAll {change : Client → Stage → Client × Stage} {fits : Stage → Prop} (shared : Shared change fits)
    (done rest : List Client) (stage : Stage) (mirrored : Mirrored numberings mates { fleet with clients := done ++ rest, stage })
    (fitting : fits stage) :
    Mirrored numberings
      (fun place => if place < done.length then mates place else change (mates place).1 (mates place).2)
      { fleet with clients := done ++ (Fleet.forAll change rest stage).1, stage := (Fleet.forAll change rest stage).2 } := by
  induction rest generalizing done stage mates with
  | nil =>
      refine mirrored.congr fun place inside => if_pos ?_
      simpa using inside
  | cons client rest ih =>
      have found : (done ++ client :: rest)[done.length]? = some client := by simp
      obtain ⟨fitting', acts⟩ := shared.acts client stage fitting
      have inside : done.length < (done ++ client :: rest).length := (List.getElem?_eq_some_iff.mp found).1
      have tame := mirrored.tame done.length inside
      have before := mirrored.alike done.length client found
      obtain ⟨after, tame', beside⟩ := shared.alike _ _ _ _ fitting tame before
      have put := mirrored.put found (.single (.act found acts)) after tame' beside acts.number (Client.url_eq acts.options)
      have same : (done ++ client :: rest).set done.length (change client stage).1 =
          (done ++ [(change client stage).1]) ++ rest := by
        rw [List.set_append_right _ _ (Nat.le_refl _), Nat.sub_self, List.set_cons_zero, List.append_assoc]
        rfl
      simp only [Fleet.put, same] at put
      have others := ih (done ++ [(change client stage).1]) (change client stage).2 put fitting'
      simp only [List.append_assoc, List.singleton_append] at others
      refine others.congr fun place _ => ?_
      have length : (done ++ [(change client stage).1]).length = done.length + 1 := by simp
      rw [length]
      rcases Nat.lt_trichotomy place done.length with earlier | here | later
      · rw [if_pos earlier, if_pos (Nat.lt_succ_of_lt earlier), Function.update_of_ne (Nat.ne_of_lt earlier)]
      · rw [if_neg (Nat.not_lt_of_le (Nat.le_of_eq here.symm)), if_pos (Nat.lt_succ_of_le (Nat.le_of_eq here)), here,
          Function.update_self]
      · rw [if_neg (Nat.not_lt_of_lt later), if_neg (by omega), Function.update_of_ne (Nat.ne_of_gt later)]

theorem changeAll {change : Client → Stage → Client × Stage} {fits : Stage → Prop} (mirrored : fleet.Mirrored numberings mates)
    (shared : Shared change fits) (fitting : fits fleet.stage) :
    (fleet.changeAll change).Mirrored numberings fun place => change (mates place).1 (mates place).2 := by
  have every : Mirrored numberings _ (fleet.changeAll change) := forAll shared [] fleet.clients fleet.stage mirrored fitting
  exact every.congr fun place _ => (if_neg (Nat.not_lt_zero place)).symm

private theorem tame_later {client : Client} {stage stage' : Stage} (tame : client.Tame stage) (later : stage.Later stage')
    (scripts : stage'.scripts = stage.scripts) (silent : stage'.channel = none) : client.Tame stage' := by
  have script (url : String) : stage'.script url = stage.script url := by
    rw [Stage.script, Stage.script, scripts]
  refine ⟨⟨silent, ?_, tame.dialling⟩, tame.consistent.later later, ?_⟩
  · rw [script]
    exact tame.outcomes
  · rw [Client.Pauses, script]
    exact tame.pauses

private theorem surround (mirrored : fleet.Mirrored numberings mates) {stage : Stage} (stages : Nat → Stage)
    (reachable : Reachable { fleet with stage }) (heard : stage.stopAsked = false)
    (size : stage.links.length = fleet.stage.links.length)
    (follows : ∀ place < fleet.clients.length, stage.Like (numberings place).likeness (mates place).1.url stage (stages place))
    (beside : ∀ place < fleet.clients.length, (mates place).2.Later (stages place) ∧
      (stages place).scripts = (mates place).2.scripts ∧ (stages place).channel = none) :
    Mirrored numberings (fun place => ((mates place).1, stages place)) { fleet with stage } := by
  refine ⟨reachable, mirrored.numbered, heard, mirrored.distinct, ?_, fun place client found => ?_, fun place inside => ?_⟩
  · change ∀ place place' : Nat, _ → _ → _ → ∀ own own', _ → stage.links.length ≤ _
    rw [size]
    exact mirrored.apart
  · have inside := (List.getElem?_eq_some_iff.mp found).1
    exact ⟨(mirrored.alike place client found).client, follows place inside, .inl (beside place inside).2.2⟩
  · obtain ⟨later, scripts, silent⟩ := beside place inside
    exact tame_later (mirrored.tame place inside) later scripts silent

theorem cancelToken (mirrored : fleet.Mirrored numberings mates) :
    Mirrored numberings (fun place => ((mates place).1, { (mates place).2 with tokenCancelled := true }))
      { fleet with stage := { fleet.stage with tokenCancelled := true } } := by
  refine mirrored.surround _ (mirrored.reachable.after
    (.single (.aside true fleet.stage.stopAsked fleet.reports fleet.waiting fleet.stopped))) mirrored.heard rfl
    (fun place inside => ?_) fun place inside => ⟨.of_eq rfl rfl, rfl, (mirrored.tame place inside).silent⟩
  have alike := (mirrored.alike place _ (List.getElem?_eq_getElem inside)).stage.here
  exact { alike with token := rfl, apart := fun _ _ => rfl, others := fun _ _ => rfl }

theorem start (mirrored : fleet.Mirrored numberings mates) :
    fleet.start.Mirrored numberings fun place => ((mates place).1.start (mates place).2, (mates place).2) := by
  have shared : Shared (fun client stage => (client.start stage, stage)) fun _ => True := by
    refine ⟨fun client stage _ => ⟨trivial, .start (Client.start_starts client stage)⟩, ?_⟩
    intro numbering around here there _ tame alike
    have acts : there.1.Acts there.2 (there.1.start there.2) there.2 := .start (Client.start_starts ..)
    have stages := alike.stage
    refine ⟨⟨alike.client.start stages.now stages.token, ?_, .inl tame.silent⟩, ?_, ⟨rfl, rfl, rfl, rfl⟩⟩
    · rw [Client.url_eq acts.options]
      exact stages
    · refine tame.act acts ?_ rfl rfl
      have starts := Client.start_starts there.1 there.2
      generalize there.1.start there.2 = started at starts
      cases starts with
      | report barred known => exact .inl rfl
      | first enabled unstarted => exact .inr rfl
  exact (mirrored.aside _ fleet.waiting fleet.stopped).changeAll shared trivial

theorem cancel (mirrored : fleet.Mirrored numberings mates) :
    fleet.cancel.Mirrored numberings fun place =>
      ((mates place).1.cancel, { (mates place).2 with tokenCancelled := true }) := by
  have shared : Shared (fun client stage => (client.cancel, stage)) fun stage => stage.tokenCancelled = true := by
    refine ⟨fun client stage cancelled => ⟨cancelled, ?_⟩, ?_⟩
    · have acts : client.Acts stage client.cancel { stage with tokenCancelled := true } := .cancel
      rw [← cancelled] at acts
      exact acts
    · intro numbering around here there _ tame alike
      have consistent : there.1.cancel.Consistent there.2 := tame.consistent.cancel
      exact ⟨⟨alike.client.cancel, alike.stage, alike.heard⟩, ⟨⟨tame.silent, tame.outcomes, tame.dialling⟩, consistent, tame.pauses⟩,
        ⟨rfl, rfl, rfl, rfl⟩⟩
  exact mirrored.cancelToken.changeAll shared rfl

theorem stop (mirrored : fleet.Mirrored numberings mates) :
    fleet.stop.Mirrored numberings fun place => (mates place).1.stop (mates place).2 := by
  have shared : Shared (fun client stage => client.stop stage) fun _ => True := by
    refine ⟨fun client stage _ => ⟨trivial, .stop⟩, ?_⟩
    intro numbering around here there _ tame alike
    have acts : there.1.Acts there.2 (there.1.stop there.2).1 (there.1.stop there.2).2 := .stop
    have phase : (there.1.stop there.2).1.phase = there.1.phase := by rw [Client.stop_eq]
    obtain ⟨links, same⟩ := Client.stop_links there.1 there.2
    refine ⟨alike.stop, tame.act acts (.inl phase) ?_ ?_, ?_⟩
    all_goals rw [same]
    exact ⟨rfl, rfl, rfl, rfl⟩
  exact mirrored.changeAll shared trivial

/-! ### Around all clients -/

theorem unseen (mirrored : fleet.Mirrored numberings mates) {stage : Stage} (changes : fleet.stage.Changes stage)
    (same : ∀ place < fleet.clients.length, stage = fleet.stage) : Mirrored numberings mates { fleet with stage } := by
  have around := mirrored.surround (fun place => (mates place).2)
    (mirrored.reachable.after (.single (.around changes))) (changes.asked.trans mirrored.heard)
    (Stage.length_of_names changes.grows.names) (fun place inside => ?_) fun place inside => ?_
  · exact around
  · rw [same place inside]
    exact (mirrored.alike place _ (List.getElem?_eq_getElem inside)).stage.here
  · exact ⟨.rfl, rfl, (mirrored.tame place inside).silent⟩

theorem silent (mirrored : fleet.Mirrored numberings mates) {place : Nat} (inside : place < fleet.clients.length) :
    fleet.stage.channel = none :=
  (mirrored.alike place _ (List.getElem?_eq_getElem inside)).stage.channel.trans (mirrored.tame place inside).silent

theorem receive (mirrored : fleet.Mirrored numberings mates) (most : Option Nat) :
    Mirrored numberings mates { fleet with stage := (fleet.stage.receive most).2 } := by
  refine mirrored.unseen (.receive most) fun place inside => ?_
  rw [Stage.receive_silent (mirrored.silent inside)]

theorem closeReceiver (mirrored : fleet.Mirrored numberings mates) :
    Mirrored numberings mates { fleet with stage := fleet.stage.closeReceiver } :=
  mirrored.unseen .closeReceiver fun _ inside => Stage.closeReceiver_silent (mirrored.silent inside)

theorem time (mirrored : fleet.Mirrored numberings mates) (instant : Nat) :
    Mirrored numberings (fun place => ((mates place).1, { (mates place).2 with now := instant }))
      { fleet with stage := { fleet.stage with now := instant } } := by
  refine mirrored.surround _ (mirrored.reachable.after (.single (.around (.time instant)))) mirrored.heard rfl
    (fun place inside => ?_) fun place inside => ⟨.of_eq rfl rfl, rfl, (mirrored.tame place inside).silent⟩
  exact ((mirrored.alike place _ (List.getElem?_eq_getElem inside)).stage.at_instant instant).here

theorem links (mirrored : fleet.Mirrored numberings mates) {place : Nat} (inside : place < fleet.clients.length) (own : Nat) :
    fleet.stage.links[(numberings place).number own]? = (mates place).2.links[own]? := by
  have links : Option.Rel Eq fleet.stage.links[(numberings place).number own]? (mates place).2.links[own]? :=
    (mirrored.alike place _ (List.getElem?_eq_getElem inside)).stage.links own
  generalize fleet.stage.links[(numberings place).number own]? = here at links ⊢
  generalize (mates place).2.links[own]? = there at links ⊢
  cases links with
  | none => rfl
  | some same => exact congrArg some same

theorem changeNamed (mirrored : fleet.Mirrored numberings mates) (name : String) {change : Link → Link}
    (sends : Link.OnlySends change) (changes : fleet.stage.Changes (fleet.stage.changeNamed name change))
    {concerns : Nat → Bool}
    (concerned : ∀ place < fleet.clients.length, ∀ link, Link.lastNamed? fleet.stage.links name = some link →
      (concerns place = true ↔ ∃ own, (numberings place).number own = link)) :
    Mirrored numberings
      (fun place => ((mates place).1, if concerns place then (mates place).2.changeNamed name change else (mates place).2))
      { fleet with stage := fleet.stage.changeNamed name change } := by
  refine mirrored.surround _ (mirrored.reachable.after (.single (.around changes))) (changes.asked.trans mirrored.heard)
    (Stage.length_of_names changes.grows.names) (fun place inside => ?_) fun place inside => ?_
  · have alike := (mirrored.alike place _ (List.getElem?_eq_getElem inside)).stage.here
    have links := mirrored.links inside
    cases found : Link.lastNamed? fleet.stage.links name with
    | none =>
        have nothing : Link.lastNamed? (mates place).2.links name = none := by
          rw [Link.lastNamed_eq_none] at found ⊢
          intro own
          rw [← links]
          exact found _
        simp only [Stage.changeNamed, found, nothing, ite_self]
        exact alike
    | some link =>
        by_cases own : concerns place = true
        · obtain ⟨own', rfl⟩ := (concerned place inside link found).mp own
          have mine : Link.lastNamed? (mates place).2.links name = some own' := by
            rw [Link.lastNamed_eq_some] at found ⊢
            refine ⟨(congrArg _ (links own')).symm.trans found.1, fun later above => ?_⟩
            rw [← links]
            exact found.2 _ ((numberings place).increasing above)
          simp only [Stage.changeNamed, found, mine, if_pos own]
          exact (alike.change_link own' fun same => congrArg change same).here
        · have elsewhere (own' : Nat) : (numberings place).number own' ≠ link := fun same =>
            own ((concerned place inside link found).mpr ⟨own', same⟩)
          simp only [Stage.changeNamed, found, if_neg own]
          refine { alike with links := fun own' => ?_, size := rfl, apart := fun _ _ => rfl, others := fun _ _ => rfl }
          have unchanged : (fleet.stage.changeLink link change).links[(numberings place).number own']? =
              fleet.stage.links[(numberings place).number own']? := Stage.links_changeLink_other (elsewhere own')
          exact (congrArg (Option.Rel Eq · _) unchanged).mpr (alike.links own')
  · have silent := (mirrored.tame place inside).silent
    by_cases own : concerns place = true
    · obtain ⟨links, same⟩ := (mates place).2.changeNamed_links name change
      have grows : (mates place).2.Grows ((mates place).2.changeNamed name change) := Stage.changeNamed_grows sends name
      simp only [if_pos own]
      refine ⟨grows.later, grows.scripts, ?_⟩
      rw [same]
      exact silent
    · simp only [if_neg own, true_and]
      exact ⟨.rfl, silent⟩

end Mirrored

end Fleet

end SequencedFeed
