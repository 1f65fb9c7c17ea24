import Mathlib.Data.List.Forall2
import SequencedFeed.Envelope.Text
import SequencedFeed.Proofs.Companions
import SequencedFeed.Proofs.Plans
set_option autoImplicit false

/-!
# Clients of a set are independent

Clients for different addresses, without a channel and without dials that stop them all, share nothing that one of
them could notice. Each does what it would do by itself, on a stage that only has the plans of its address, with the
steps that concern its connections.
-/

namespace SequencedFeed

def Stage.linksOf (stage : Stage) (url : String) : List Nat :=
  (stage.script url).outcomes.filterMap Outcome.link?

def Stage.concerns (stage : Stage) (url name : String) : Bool :=
  (Link.lastNamed? stage.links name).any fun link => link ∈ stage.linksOf url

namespace ClientRun

/-- The client of a configuration for one of its addresses, by itself. -/
def alone (plans : List (String × List PlannedDial)) (settings : FeedSettings) (sequence : Nat) (sink : SinkScript)
    (url : String) : ClientRun :=
  make (Stage.planned [(url, plansOf plans url)] none)
    (((ClientOptions.standard url).withIdleTimeout settings.timeout).withInitialSequence sequence) sink

end ClientRun

/-- Numbers of connections that lie together among others. Numbers that no connection has by itself do not become
those of others. -/
def Renumbering.shift (first made total : Nat) (inside : first + made ≤ total) : Renumbering where
  number own := if own < made then first + own else total + own
  increasing {left right} less := by
    split <;> split <;> omega

section

variable {plans : List (String × List PlannedDial)} {url : String}

theorem plannedScripts_alone (url : String) (plans : List PlannedDial) :
    Stage.planned [(url, plans)] none =
      Stage.fresh [(url, { outcomes := (PlannedDial.allOutcomes 0 plans).1, beyond := none })] (PlannedDial.names plans) none := by
  simp only [Stage.planned, plannedScripts, List.append_nil]
  rfl

theorem Stage.linksOf_planned (plans : List (String × List PlannedDial)) (capacity : Option Nat) (url : String) :
    (Stage.planned plans capacity).linksOf url =
      List.range' (firstOf 0 plans url) (PlannedDial.names (plansOf plans url)).length := by
  have script : (Stage.planned plans capacity).script url = _ := plannedScripts_lookup plans url 0
  rw [Stage.linksOf, script]
  exact (Stage.allOutcomes_links _ _).trans (by rw [PlannedDial.allOutcomes_at])

theorem firstOf_inside (plans : List (String × List PlannedDial)) (url : String) :
    firstOf 0 plans url + (PlannedDial.names (plansOf plans url)).length ≤ (plannedScripts 0 plans).2.length := by
  obtain ⟨before, after, split, first⟩ := plannedScripts_names plans url 0
  rw [split, ← first]
  simp only [List.length_append]
  omega

/-- The numbers among all connections of those that an address has by itself. -/
def numberingOf (plans : List (String × List PlannedDial)) (url : String) : Renumbering :=
  .shift (firstOf 0 plans url) (PlannedDial.names (plansOf plans url)).length (plannedScripts 0 plans).2.length
    (firstOf_inside plans url)

theorem numberingOf_own {own : Nat} (mine : own < (PlannedDial.names (plansOf plans url)).length) :
    (numberingOf plans url).number own = firstOf 0 plans url + own :=
  if_pos mine

theorem numberingOf_beyond {own : Nat} (beyond : (PlannedDial.names (plansOf plans url)).length ≤ own) :
    (numberingOf plans url).number own = (plannedScripts 0 plans).2.length + own :=
  if_neg (Nat.not_lt_of_le beyond)

theorem script_alone (url : String) (plans : List PlannedDial) :
    (Stage.planned [(url, plans)] none).script url =
      { outcomes := (PlannedDial.allOutcomes 0 plans).1, beyond := none } := by
  rw [plannedScripts_alone]
  simp only [Stage.script, Stage.fresh, List.lookup_cons_self, Option.getD_some]

private theorem rename_congr {rename other : Nat → Nat} {outcome : Outcome}
    (same : ∀ link, outcome.link? = some link → rename link = other link) : outcome.rename rename = outcome.rename other := by
  obtain ⟨ends, after, stops⟩ := outcome
  cases ends with
  | none => rfl
  | some ends =>
      cases ends with
      | fail error => rfl
      | connect link =>
          have here := same link rfl
          simp only [Outcome.rename, DialEnd.rename, Option.map_some, here]

theorem Stage.planned_like (plans : List (String × List PlannedDial)) (url : String) :
    (Stage.planned plans none).Like (numberingOf plans url).likeness url (Stage.planned plans none)
      (Stage.planned [(url, plansOf plans url)] none) := by
  obtain ⟨before, after, split, first⟩ := plannedScripts_names plans url 0
  rw [Nat.zero_add] at first
  refine ⟨rfl, rfl, rfl, rfl, ?_, fun own => ?_, rfl, fun _ _ => rfl, fun _ _ => rfl⟩
  · have among : (Stage.planned plans none).script url = _ := plannedScripts_lookup plans url 0
    rw [among, script_alone, PlannedDial.allOutcomes_at]
    refine congrArg (DialScript.mk · none) (List.map_congr_left fun outcome member => rename_congr fun link given => ?_)
    have inside : link ∈ List.range' 0 (PlannedDial.allOutcomes 0 (plansOf plans url)).2.length := by
      rw [← Stage.allOutcomes_links]
      exact List.mem_filterMap.mpr ⟨outcome, member, given⟩
    rw [List.mem_range'_1] at inside
    exact (numberingOf_own (by simpa [PlannedDial.names] using inside)).symm
  · have links : (Stage.planned plans none).links = (plannedScripts 0 plans).2.map Link.ofName := rfl
    have same : (Stage.planned plans none).links[(numberingOf plans url).number own]? =
        (Stage.planned [(url, plansOf plans url)] none).links[own]? := by
      rw [plannedScripts_alone, links, Stage.fresh, List.getElem?_map, List.getElem?_map]
      rcases Nat.lt_or_ge own (PlannedDial.names (plansOf plans url)).length with mine | beyond
      · rw [numberingOf_own mine, split, ← first, List.append_assoc, List.getElem?_append_right (Nat.le_add_right ..),
          Nat.add_sub_cancel_left, List.getElem?_append_left mine]
      · rw [numberingOf_beyond beyond, List.getElem?_eq_none (Nat.le_add_right ..), List.getElem?_eq_none beyond]
    change Option.Rel Eq (Stage.planned plans none).links[(numberingOf plans url).number own]? _
    rw [same]
    cases (Stage.planned [(url, plansOf plans url)] none).links[own]? with
    | none => exact .none
    | some link => exact .some rfl

theorem mem_linksOf_iff {link : Nat} (inside : link < (plannedScripts 0 plans).2.length) :
    link ∈ (Stage.planned plans none).linksOf url ↔ ∃ own, (numberingOf plans url).number own = link := by
  rw [Stage.linksOf_planned, List.mem_range'_1]
  constructor
  · rintro ⟨above, below⟩
    refine ⟨link - firstOf 0 plans url, ?_⟩
    rw [numberingOf_own (by omega)]
    omega
  · rintro ⟨own, rfl⟩
    rcases Nat.lt_or_ge own (PlannedDial.names (plansOf plans url)).length with mine | beyond
    · rw [numberingOf_own mine]
      omega
    · rw [numberingOf_beyond beyond] at inside
      omega

theorem numberingOf_apart {other : String} (different : url ≠ other) {own own' : Nat}
    (same : (numberingOf plans url).number own = (numberingOf plans other).number own') :
    (plannedScripts 0 plans).2.length ≤ (numberingOf plans url).number own := by
  have apart := firstOf_apart 0 plans different
  rcases Nat.lt_or_ge own (PlannedDial.names (plansOf plans url)).length with mine | beyond
  · rcases Nat.lt_or_ge own' (PlannedDial.names (plansOf plans other)).length with mine' | beyond'
    · rw [numberingOf_own mine, numberingOf_own mine'] at same
      omega
    · rw [same, numberingOf_beyond beyond']
      exact Nat.le_add_right ..
  · rw [numberingOf_beyond beyond]
    exact Nat.le_add_right ..

end

/-! ### From the opening on -/

namespace ClientRun

theorem alone_tame {plans : List (String × List PlannedDial)} (calm : ∀ entry ∈ plans, ∀ plan ∈ entry.2, plan.stops = false)
    (settings : FeedSettings) (sequence : Nat) (sink : SinkScript) (url : String) :
    (alone plans settings sequence sink url).client.Tame (alone plans settings sequence sink url).stage ∧
      (alone plans settings sequence sink url).Still := by
  have opening : Stage.Opening (Stage.planned [(url, plansOf plans url)] none) := .planned ..
  have still : (alone plans settings sequence sink url).Still := by
    refine still_make opening (fun endless => ?_) sink
    have endless : ((Stage.planned [(url, plansOf plans url)] none).script url).beyond.isSome = true := endless
    rw [script_alone] at endless
    cases endless
  have own : ∀ plan ∈ plansOf plans url, plan.stops = false := by
    unfold plansOf
    cases found : plans.lookup url with
    | none => exact List.forall_mem_nil _
    | some made =>
        obtain ⟨before, after, split, -⟩ := List.lookup_eq_some_iff.mp found
        exact calm (url, made) (split ▸ List.mem_append_right _ (List.mem_cons_self ..))
  refine ⟨⟨⟨rfl, ?_, fun _ _ _ _ here => by cases here⟩, still.consistent, still.pauses⟩, still⟩
  change ∀ outcome ∈ ((Stage.planned [(url, plansOf plans url)] none).script url).outcomes, outcome.stops = false
  rw [script_alone]
  exact PlannedDial.allOutcomes_stops own 0

end ClientRun

namespace Fleet

theorem make_get {stage : Stage} {settings : FeedSettings} {sequence : Nat} {sink : SinkScript}
    (enabled : settings.isEnabled = true) {place : Nat} {client : Client}
    (found : (make stage settings sequence sink).clients[place]? = some client) :
    ∃ url, settings.endpoints[place]? = some url ∧ client = Client.make place
      (((ClientOptions.standard url).withIdleTimeout settings.timeout).withInitialSequence sequence) sink := by
  rw [make, if_pos enabled] at found
  simp only [crew, List.getElem?_mapIdx, Option.map_eq_some_iff] at found
  obtain ⟨url, here, rfl⟩ := found
  exact ⟨url, here, rfl⟩

theorem make_length {stage : Stage} {settings : FeedSettings} {sequence : Nat} {sink : SinkScript}
    (enabled : settings.isEnabled = true) :
    (make stage settings sequence sink).clients.length = settings.endpoints.length := by
  rw [make, if_pos enabled]
  exact List.length_mapIdx

theorem accompanied_make {plans : List (String × List PlannedDial)}
    (calm : ∀ entry ∈ plans, ∀ plan ∈ entry.2, plan.stops = false) {settings : FeedSettings}
    (enabled : settings.isEnabled = true) (distinct : settings.endpoints.Nodup) (sequence : Nat) (sink : SinkScript) :
    (make (Stage.planned plans none) settings sequence sink).Accompanied
      (fun place => numberingOf plans (settings.endpoints.getD place ""))
      (fun place => (Stage.planned plans none).concerns (settings.endpoints.getD place ""))
      (fun place => ClientRun.alone plans settings sequence sink (settings.endpoints.getD place "")) := by
  have url_of {place : Nat} {url : String} (here : settings.endpoints[place]? = some url) :
      settings.endpoints.getD place "" = url := by
    rw [List.getD_eq_getElem?_getD, here]
    rfl
  have links : (Stage.planned plans none).links.length = (plannedScripts 0 plans).2.length := List.length_map _
  refine ⟨⟨?_, ?_, ?_, ?_, ?_, ?_, ?_⟩, fun place _ => (ClientRun.alone_tame calm ..).2, ?_⟩
  · exact ⟨_, settings, sequence, sink, .planned plans none, .refl⟩
  · intro place client found
    obtain ⟨url, -, rfl⟩ := make_get enabled found
    rfl
  · rw [make_stage]
    rfl
  · intro place place' client client' found found' same
    obtain ⟨url, here, rfl⟩ := make_get enabled found
    obtain ⟨url', here', rfl⟩ := make_get enabled found'
    have same : url = url' := same
    subst same
    exact (List.getElem?_inj (List.getElem?_eq_some_iff.mp here).1 distinct).mp (here.trans here'.symm)
  · intro place place' inside inside' different own own' same
    rw [make_stage, links]
    rw [make_length enabled] at inside inside'
    refine numberingOf_apart (fun equal => different ?_) same
    rw [url_of (List.getElem?_eq_getElem inside), url_of (List.getElem?_eq_getElem inside')] at equal
    refine (List.getElem?_inj inside distinct).mp ?_
    rw [List.getElem?_eq_getElem inside, List.getElem?_eq_getElem inside', equal]
  · intro place client found
    obtain ⟨url, here, rfl⟩ := make_get enabled found
    rw [make_stage, url_of here]
    refine ⟨⟨rfl, rfl, rfl, rfl, rfl, .same .idle, rfl, rfl, rfl, fun loose => by cases loose⟩, ?_, .inl rfl⟩
    exact Stage.planned_like plans url
  · intro place inside
    exact (ClientRun.alone_tame calm ..).1
  · intro place inside name link found
    rw [make_stage] at found
    have inside : link < (plannedScripts 0 plans).2.length := by
      obtain ⟨held, there, -⟩ := Option.map_eq_some_iff.mp (Link.lastNamed_eq_some.mp found).1
      exact links ▸ (List.getElem?_eq_some_iff.mp there).1
    rw [Stage.concerns, found, ← mem_linksOf_iff inside, Option.any_some, decide_eq_true_iff]

end Fleet

/-! ### Independence -/

/-- A client has come as far as the one of a run. The `links` of the first are those of the second one's stage, in
order, with what was sent on them and read and how often each was closed. -/
structure Client.SameCourse (client : Client) (stage : Stage) (links : List Nat) (run : ClientRun) : Prop where
  options : client.options = run.client.options
  now : stage.now = run.stage.now
  dials : client.dials = run.client.dials
  sinkCalls : client.sinkCalls = run.client.sinkCalls
  records : client.records = run.client.records
  retryCount : client.retryCount = run.client.retryCount
  connected : client.isConnected = run.client.isConnected
  shuttingDown : client.isShuttingDown = run.client.isShuttingDown
  started : client.started = run.client.started
  cancelled : client.cancelled = run.client.cancelled
  idle : client.isIdle = run.client.isIdle
  metrics : client.metrics = run.client.metrics
  connections : links.map (fun link => stage.links[link]?) = run.stage.links.map some

namespace Fleet

private theorem view_rename {α : Type} (rename : Nat → Nat) (view : Nat × Occurrence → Option α)
    (blind : ∀ entry : Nat × Occurrence, view (entry.1, entry.2.rename rename) = view entry) (past : List (Nat × Occurrence)) :
    (past.map fun entry => (entry.1, entry.2.rename rename)).filterMap view = past.filterMap view := by
  rw [List.filterMap_map]
  exact List.filterMap_congr fun entry _ => blind entry

theorem Accompanied.sameCourse {plans : List (String × List PlannedDial)} {url : String} {client : Client} {stage : Stage}
    {run : ClientRun} (alike : Alike (numberingOf plans url).likeness stage (client, stage) (run.client, run.stage))
    (made : run.stage.links.length = (PlannedDial.names (plansOf plans url)).length) :
    client.SameCourse stage ((Stage.planned plans none).linksOf url) run := by
  have clients : client.Like (numberingOf plans url).likeness run.client := alike.client
  have past : client.history = run.client.history.map fun entry => (entry.1, entry.2.rename (numberingOf plans url).number) :=
    clients.history
  refine ⟨clients.options, alike.stage.now, ?_, ?_, ?_, clients.retryCount, clients.isConnected, clients.shuttingDown,
    clients.started, clients.cancelled, clients.isIdle, clients.metrics, ?_⟩
  · rw [Client.dials, past, view_rename]
    · rfl
    · rintro ⟨time, occurrence⟩
      cases occurrence <;> rfl
  · rw [Client.sinkCalls, past, view_rename]
    · rfl
    · rintro ⟨time, occurrence⟩
      cases occurrence <;> rfl
  · rw [Client.records, past, view_rename]
    · rfl
    · rintro ⟨time, occurrence⟩
      cases occurrence <;> rfl
  · rw [Stage.linksOf_planned]
    refine List.ext_getElem (by simp [made]) fun own inside inside' => ?_
    simp only [List.length_map, List.length_range'] at inside
    rw [List.getElem_map, List.getElem_map, List.getElem_range', Nat.one_mul, ← numberingOf_own inside]
    have links : Option.Rel Eq stage.links[(numberingOf plans url).number own]? run.stage.links[own]? := alike.stage.links own
    have held : run.stage.links[own]? = some run.stage.links[own] := List.getElem?_eq_getElem (made.symm ▸ inside)
    rw [held] at links
    generalize stage.links[(numberingOf plans url).number own]? = among at links ⊢
    cases links with
    | some same => exact congrArg some same

/-- A fleet without clients never gets any, and nobody takes anything from a script. -/
theorem Reaches.deserted {fleet later : Fleet} (reaches : fleet.Reaches later) (deserted : fleet.clients = []) :
    later.clients = [] ∧ later.stage.scripts = fleet.stage.scripts := by
  induction reaches with
  | refl => exact ⟨deserted, rfl⟩
  | tail reaches step ih =>
      obtain ⟨nobody, scripts⟩ := ih
      cases step with
      | act found acts =>
          rw [nobody] at found
          cases found
      | around changes => exact ⟨nobody, changes.grows.scripts.trans scripts⟩
      | aside => exact ⟨nobody, scripts⟩

/-- The clients of a fleet go the courses of clients on their own, one for each endpoint. -/
theorem same_courses {plans : List (String × List PlannedDial)} {settings : FeedSettings}
    (calm : ∀ entry ∈ plans, ∀ plan ∈ entry.2, plan.stops = false) (enabled : settings.isEnabled = true)
    (distinct : settings.endpoints.Nodup) (sequence : Nat) (sink : SinkScript) (steps : List ScenarioStep) :
    let opening := Stage.planned plans none
    let fleet := (make opening settings sequence sink).play steps
    let alone (url : String) :=
      (ClientRun.alone plans settings sequence sink url).play (steps.map (ScenarioStep.only (opening.concerns url)))
    List.Forall₂ (fun client url => client.SameCourse fleet.stage (opening.linksOf url) (alone url)) fleet.clients
      settings.endpoints := by
  intro opening fleet alone
  have accompanied := (accompanied_make calm enabled distinct sequence sink).play steps
  have length : fleet.clients.length = settings.endpoints.length :=
    (reaches_play _ steps).length.trans (make_length enabled)
  refine List.forall₂_iff_get.mpr ⟨length, fun place inside inside' => ?_⟩
  have here : settings.endpoints.getD place "" = settings.endpoints[place] := List.getD_eq_getElem _ _ inside'
  have alike := accompanied.alike (List.getElem?_eq_getElem inside)
  rw [here] at alike
  refine Accompanied.sameCourse alike ?_
  have names := (ClientRun.reaches_play (ClientRun.alone plans settings sequence sink settings.endpoints[place])
    (steps.map (ScenarioStep.only (opening.concerns settings.endpoints[place])))).names
  refine (Stage.length_of_names names).trans ((List.length_map _).trans ?_)
  exact congrArg List.length (List.append_nil _)

/-- Clients for different addresses do what each of them would do by itself, where it is only told what concerns its
connections; this holds after every step, since the steps are any. A configuration without a first address has no
clients, whatever else it says. -/
theorem clients_do_not_interfere (plans : List (String × List PlannedDial)) (settings : FeedSettings) (sequence : Nat)
    (sink : SinkScript) (steps : List ScenarioStep) :
    let opening := Stage.planned plans none
    let fleet := (make opening settings sequence sink).play steps
    let urls := settings.urls.filter (· ≠ "")
    let alone (url : String) :=
      (ClientRun.alone plans settings sequence sink url).play (steps.map (ScenarioStep.only (opening.concerns url)))
    (settings.urls.headD "" ≠ "" → urls.Nodup → (∀ entry ∈ plans, ∀ plan ∈ entry.2, plan.stops = false) →
      fleet.clients.map Client.url = urls ∧
      List.Forall₂ (fun client url => client.SameCourse fleet.stage (opening.linksOf url) (alone url)) fleet.clients urls ∧
      fleet.clients.flatMap Client.sinkCalls = urls.flatMap (fun url => (alone url).client.sinkCalls) ∧
      fleet.retryCount = (urls.map fun url => (alone url).client.retryCount).sum ∧
      fleet.metrics = Metrics.sum (urls.map fun url => (alone url).client.metrics)) ∧
    (settings.urls.headD "" = "" → ∀ capacity,
      let fleet := (make (Stage.planned plans capacity) settings sequence sink).play steps
      fleet.clients = [] ∧ fleet.stage.scripts = opening.scripts) := by
  intro opening fleet urls alone
  have enabled_iff : settings.isEnabled = true ↔ settings.urls.headD "" ≠ "" := by
    unfold FeedSettings.isEnabled
    cases settings.urls with
    | nil => simp
    | cons first rest => simp
  refine ⟨fun first distinct calm => ?_, fun first capacity => ?_⟩
  · have courses : List.Forall₂ (fun client url => client.SameCourse fleet.stage (opening.linksOf url) (alone url))
        fleet.clients urls := same_courses calm (enabled_iff.mpr first) distinct sequence sink steps
    have maps {β : Type} {f : Client → β} {g : String → β} (same : ∀ client url,
        client.SameCourse fleet.stage (opening.linksOf url) (alone url) → f client = g url) :
        fleet.clients.map f = urls.map g := by
      have both : List.Forall₂ Eq (fleet.clients.map f) (urls.map g) :=
        List.forall₂_map_left_iff.mpr (List.forall₂_map_right_iff.mpr (courses.imp same))
      rwa [List.forall₂_eq_eq_eq] at both
    refine ⟨?_, courses, ?_, ?_, ?_⟩
    · have addresses : fleet.clients.map Client.url = urls.map id := maps fun client url course => by
        have kept := (ClientRun.reaches_play (ClientRun.alone plans settings sequence sink url)
          (steps.map (ScenarioStep.only (opening.concerns url)))).settings.1
        exact Client.url_eq (course.options.trans kept)
      rwa [List.map_id] at addresses
    · rw [List.flatMap_def, List.flatMap_def, maps fun _ _ course => course.sinkCalls]
    · rw [Fleet.retryCount, maps fun _ _ course => course.retryCount]
      rfl
    · rw [Fleet.metrics, maps fun _ _ course => course.metrics]
  · have disabled : ¬settings.isEnabled = true := fun enabled => enabled_iff.mp enabled first
    have reaches := reaches_play (make (Stage.planned plans capacity) settings sequence sink) steps
    have deserted := reaches.deserted (by rw [make, if_neg disabled])
    rw [make_stage] at deserted
    exact deserted

/-- Two clients around an empty address. The first one fails to dial once and is sent a batch at last, the second one
dials for a while and is sent two, and then all are stopped. With an empty address in front there would be no clients. -/
theorem clients_do_not_interfere_in_pairs :
    let plans : List (String × List PlannedDial) :=
      [("ws://b", [⟨.connect "second", 10, false⟩]), ("ws://a", [⟨.failNext 1, 0, false⟩, ⟨.connect "first", 0, false⟩])]
    let opening := Stage.planned plans none
    let settings : FeedSettings := ⟨["ws://a", "", "ws://b"], .ofSeconds 20⟩
    let steps : List ScenarioStep :=
      [.start, .sleep 10, .push "second" (.ok (batchFrame 5 [.null])) 2, .sleep 5000,
        .push "first" (.ok (batchFrame 7 [.null])) 1, .stop]
    let fleet := (make opening settings 0 ⟨false, 3⟩).play steps
    let alone (url : String) := (ClientRun.alone plans settings 0 ⟨false, 3⟩ url).play
      (steps.map (ScenarioStep.only (opening.concerns url)))
    List.Forall₂ (fun client url => client.SameCourse fleet.stage (opening.linksOf url) (alone url)) fleet.clients
        ["ws://a", "ws://b"] ∧
      fleet.retryCount = 1 ∧ fleet.metrics.frames = 3 ∧ (alone "ws://b").client.sinkCalls.length = 2 ∧
      ((make opening { settings with urls := ["", "ws://b"] } 0 ⟨false, 3⟩).play steps).clients = [] := by
  intro plans opening settings steps fleet alone
  obtain ⟨apart, -⟩ := clients_do_not_interfere plans settings 0 ⟨false, 3⟩ steps
  have urls : settings.urls.filter (· ≠ "") = ["ws://a", "ws://b"] := by decide
  rw [urls] at apart
  obtain ⟨-, courses, -, retries, counts⟩ := apart (by decide) (by decide) (by decide)
  obtain ⟨-, deserted⟩ := clients_do_not_interfere plans { settings with urls := ["", "ws://b"] } 0 ⟨false, 3⟩ steps
  have calls : (alone "ws://b").client.sinkCalls.length = 2 := by decide +kernel
  refine ⟨courses, ?_, ?_, calls, (deserted rfl none).1⟩
  · rw [retries]
    decide +kernel
  · rw [counts]
    decide +kernel

end Fleet

end SequencedFeed
