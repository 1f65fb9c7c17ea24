import SequencedFeed.Timeline
set_option autoImplicit false

/-!
# The passing of time

Time passes by wakings, one for every instant at which something is due and one for the end. If everything
that is waited for lies ahead after every waking, none of these instants is skipped.
-/

namespace SequencedFeed

namespace Timed

variable {σ : Type} {timed : Timed σ} {kept : σ → Prop}

theorem pass_keeps
    (wakes : ∀ instant state, kept state → kept (timed.wake instant state))
    (start finish : Nat) {state : σ} (holds : kept state) :
    kept (timed.pass start finish state) := by
  have served : ∀ fuel state, kept state → kept (timed.serve finish fuel state) := by
    intro fuel
    induction fuel with
    | zero => exact fun _ holds => holds
    | succ fuel ih =>
        intro state holds
        unfold serve
        split
        · exact holds
        · split
          · exact ih _ (wakes _ _ holds)
          · exact holds
  exact wakes _ _ (served _ _ holds)

theorem pass_alike {τ : Type} {mate : Timed τ} {alike : σ → τ → Prop}
    (dues : ∀ {state other}, alike state other → timed.due? state = mate.due? other)
    (wakes : ∀ instant {state other}, alike state other → alike (timed.wake instant state) (mate.wake instant other))
    (start finish : Nat) {state : σ} {other : τ} (holds : alike state other) :
    alike (timed.pass start finish state) (mate.pass start finish other) := by
  have served : ∀ fuel state other, alike state other →
      alike (timed.serve finish fuel state) (mate.serve finish fuel other) := by
    intro fuel
    induction fuel with
    | zero => exact fun _ _ holds => holds
    | succ fuel ih =>
        intro state other holds
        unfold serve
        rw [dues holds]
        cases mate.due? other with
        | none => exact holds
        | some instant =>
            by_cases inTime : instant ≤ finish
            · simp only [if_pos inTime]
              exact ih _ _ (wakes instant holds)
            · simp only [if_neg inTime]
              exact holds
  exact wakes _ (served _ _ _ holds)

/-- So many timers go off one after the other, none of them later than `finish`. -/
inductive Fires (timed : Timed σ) (finish : Nat) : Nat → σ → σ → Prop
  | none (state : σ) : Fires timed finish 0 state state
  | next {count instant : Nat} {state later : σ} (due : timed.due? state = some instant) (inTime : instant ≤ finish)
      (others : Fires timed finish count (timed.wake instant state) later) : Fires timed finish (count + 1) state later

private theorem fires_serve (finish fuel : Nat) (state : σ) :
    ∃ count, timed.Fires finish count state (timed.serve finish fuel state) := by
  induction fuel generalizing state with
  | zero => exact ⟨0, .none state⟩
  | succ fuel ih =>
      unfold serve
      cases due : timed.due? state with
      | none => exact ⟨0, .none state⟩
      | some instant =>
          by_cases inTime : instant ≤ finish
          · obtain ⟨count, others⟩ := ih (timed.wake instant state)
            simp only [if_pos inTime]
            exact ⟨count + 1, .next due inTime others⟩
          · simp only [if_neg inTime]
            exact ⟨0, .none state⟩

variable (timed) in
private theorem serve_past {finish fuel : Nat} {state : σ}
    (past : ∀ due, timed.due? state = some due → finish < due) : timed.serve finish fuel state = state := by
  cases fuel with
  | zero => rfl
  | succ fuel =>
      unfold serve
      cases waits : timed.due? state with
      | none => rfl
      | some due => simp only [if_neg (Nat.not_le_of_lt (past due waits))]

section

variable (timed kept) (now : σ → Nat)
  (wakes : ∀ instant state, kept state → now state ≤ instant →
    (∀ due, timed.due? state = some due → instant ≤ due) →
      kept (timed.wake instant state) ∧ now (timed.wake instant state) = instant)
  (ahead : ∀ state due, kept state → timed.due? state = some due → now state < due)
include wakes ahead

/-- Every waking passes a millisecond, so the fuel lasts until nothing is due any more. -/
private theorem serve_through (finish fuel : Nat) {state : σ} (holds : kept state)
    (before : now state ≤ finish) (enough : finish - now state ≤ fuel) :
    kept (timed.serve finish fuel state) ∧ now (timed.serve finish fuel state) ≤ finish ∧
      ∀ due, timed.due? (timed.serve finish fuel state) = some due → finish < due := by
  induction fuel generalizing state with
  | zero =>
      refine ⟨holds, before, fun due waits => ?_⟩
      have later := ahead state due holds waits
      have here : now state = finish := Nat.le_antisymm before (Nat.le_of_sub_eq_zero (Nat.le_zero.mp enough))
      rwa [here] at later
  | succ fuel ih =>
      unfold serve
      cases waits : timed.due? state with
      | none =>
          refine ⟨holds, before, fun due waits' => ?_⟩
          rw [waits] at waits'
          cases waits'
      | some instant =>
          have later := ahead state instant holds waits
          by_cases inTime : instant ≤ finish
          · obtain ⟨woken, moved⟩ := wakes instant state holds (Nat.le_of_lt later) fun due waits' => by
              rw [waits] at waits'
              exact Nat.le_of_eq (Option.some.inj waits')
            simp only [if_pos inTime]
            exact ih woken (by omega) (by omega)
          · simp only [if_neg inTime]
            refine ⟨holds, before, fun due waits' => ?_⟩
            rw [waits] at waits'
            obtain rfl := Option.some.inj waits'
            exact Nat.lt_of_not_le inTime

/-- What holds is kept by the passing of time if it is kept by every waking at an instant that nothing is due
before. The clock then stands at the end. -/
theorem pass_through {finish : Nat} {state : σ} (holds : kept state) (before : now state ≤ finish) :
    kept (timed.pass (now state) finish state) ∧ now (timed.pass (now state) finish state) = finish := by
  obtain ⟨served, inTime, past⟩ := serve_through timed kept now wakes ahead finish (finish - now state) holds before
    (Nat.le_refl _)
  exact wakes finish _ served inTime fun due waits => Nat.le_of_lt (past due waits)

theorem fires_le {finish count : Nat} {state later : σ} (fires : timed.Fires finish count state later) (holds : kept state)
    (before : now state ≤ finish) : count ≤ finish - now state := by
  induction fires with
  | none state => exact Nat.zero_le _
  | @next count instant state later due inTime others ih =>
      have ahead := ahead state instant holds due
      obtain ⟨woken, moved⟩ := wakes instant state holds (Nat.le_of_lt ahead) fun other waits => by
        rw [due] at waits
        exact Nat.le_of_eq (Option.some.inj waits)
      have fewer := ih woken (by omega)
      omega

theorem pass_fires {finish : Nat} {state : σ} (holds : kept state) (before : now state ≤ finish) :
    ∃ count later, timed.Fires finish count state later ∧ (∀ due, timed.due? later = some due → finish < due) ∧
      timed.pass (now state) finish state = timed.wake finish later := by
  obtain ⟨count, fires⟩ := fires_serve finish (finish - now state) state
  obtain ⟨-, -, past⟩ := serve_through timed kept now wakes ahead finish (finish - now state) holds before (Nat.le_refl _)
  exact ⟨count, _, fires, past, rfl⟩

private theorem serve_enough (finish : Nat) {first second : Nat} {state : σ} (holds : kept state)
    (enough : finish - now state ≤ first) (enough' : finish - now state ≤ second) :
    timed.serve finish first state = timed.serve finish second state := by
  induction first generalizing second state with
  | zero =>
      have past (due : Nat) (waits : timed.due? state = some due) : finish < due := by
        have later := ahead state due holds waits
        omega
      rw [serve_past timed past, serve_past timed past]
  | succ first ih =>
      cases second with
      | zero =>
          have past (due : Nat) (waits : timed.due? state = some due) : finish < due := by
            have later := ahead state due holds waits
            omega
          rw [serve_past timed past, serve_past timed past]
      | succ second =>
          unfold serve
          cases waits : timed.due? state with
          | none => rfl
          | some due =>
              by_cases inTime : due ≤ finish
              · have later := ahead state due holds waits
                obtain ⟨woken, moved⟩ := wakes due state holds (Nat.le_of_lt later) fun other waits' => by
                  rw [waits] at waits'
                  exact Nat.le_of_eq (Option.some.inj waits')
                simp only [if_pos inTime]
                exact ih woken (by omega) (by omega)
              · simp only [if_neg inTime]

section

variable (idles : ∀ instant state, kept state → now state ≤ instant →
  (∀ due, timed.due? state = some due → instant < due) →
    timed.due? (timed.wake instant state) = timed.due? state ∧
      ∀ later, timed.wake later (timed.wake instant state) = timed.wake later state)
include idles

/-- On the way to an instant one may wake at any earlier one that nothing is due before. -/
theorem pass_wake {instant finish : Nat} {state : σ} (holds : kept state) (passes : now state ≤ instant)
    (inTime : instant ≤ finish) (early : ∀ due, timed.due? state = some due → instant ≤ due) :
    timed.pass instant finish (timed.wake instant state) = timed.pass (now state) finish state := by
  obtain ⟨woken, moved⟩ := wakes instant state holds passes early
  have serves {first second : Nat} {state : σ} (holds : kept state) (enough : finish - now state ≤ first)
      (enough' : finish - now state ≤ second) : timed.serve finish first state = timed.serve finish second state :=
    serve_enough timed kept now wakes ahead finish holds enough enough'
  have start : timed.pass instant finish (timed.wake instant state) =
      timed.wake finish (timed.serve finish (finish - instant + 1) (timed.wake instant state)) := by
    rw [pass, serves woken (by omega) (by omega : finish - now (timed.wake instant state) ≤ finish - instant + 1)]
  have started : timed.pass (now state) finish state =
      timed.wake finish (timed.serve finish (finish - now state + 1) state) := by
    rw [pass, serves holds (Nat.le_refl _) (Nat.le_succ _)]
  -- either a timer goes off at this very instant, or the waking is one that nobody notices
  by_cases now_due : timed.due? state = some instant
  · have later := ahead state instant holds now_due
    rw [started, serve, now_due]
    simp only [if_pos inTime]
    rw [pass, serves woken (by omega) (by omega : finish - now (timed.wake instant state) ≤ finish - now state)]
  · obtain ⟨same, wakes_same⟩ := idles instant state holds passes fun due waits =>
      Nat.lt_of_le_of_ne (early due waits) fun equal => now_due (equal ▸ waits)
    rw [start, started, serve, serve, same]
    cases waits : timed.due? state with
    | none => exact wakes_same finish
    | some due =>
        by_cases inTime' : due ≤ finish
        · have later := early due waits
          obtain ⟨woken', moved'⟩ := wakes due state holds (Nat.le_trans passes later) fun other waits' => by
            rw [waits] at waits'
            exact Nat.le_of_eq (Option.some.inj waits')
          simp only [if_pos inTime', wakes_same]
          rw [serves woken' (by omega) (by omega : finish - now (timed.wake due state) ≤ finish - now state)]
        · simp only [if_neg inTime', wakes_same]

theorem pass_append {middle finish : Nat} {state : σ} (holds : kept state) (passes : now state ≤ middle)
    (inTime : middle ≤ finish) :
    timed.pass middle finish (timed.pass (now state) middle state) = timed.pass (now state) finish state := by
  -- the rest of the way leads to the same state from wherever the first part has got to
  have parts := pass_through timed
    (fun part => kept part ∧ (now part ≤ finish → timed.pass (now part) finish part = timed.pass (now state) finish state))
    now (fun instant part still passed early => ?_) (fun part due still => ahead part due still.1)
    ⟨holds, fun _ => rfl⟩ passes
  · obtain ⟨⟨-, rest⟩, moved⟩ := parts
    rw [moved] at rest
    exact rest inTime
  · obtain ⟨woken, moved⟩ := wakes instant part still.1 passed early
    refine ⟨⟨woken, fun before => ?_⟩, moved⟩
    rw [moved] at before ⊢
    rw [pass_wake timed kept now wakes ahead idles still.1 passed before early]
    exact still.2 (Nat.le_trans passed before)

end

end

end Timed

/-! ### The earliest of several instants -/

theorem earliest?_cons (here : Option Nat) (rest : List (Option Nat)) :
    earliest? (here :: rest) = earlier? here (earliest? rest) :=
  rfl

theorem earliest?_le {instants : List (Option Nat)} {instant : Nat} (member : some instant ∈ instants) :
    ∃ first, earliest? instants = some first ∧ first ≤ instant := by
  induction instants with
  | nil => cases member
  | cons here rest ih =>
      rw [earliest?_cons]
      rcases List.mem_cons.mp member with rfl | later
      · cases earliest? rest with
        | none => exact ⟨instant, rfl, Nat.le_refl _⟩
        | some other => exact ⟨min instant other, rfl, Nat.min_le_left ..⟩
      · obtain ⟨other, others, least⟩ := ih later
        rw [others]
        cases here with
        | none => exact ⟨other, rfl, least⟩
        | some here => exact ⟨min here other, rfl, Nat.le_trans (Nat.min_le_right ..) least⟩

theorem mem_of_earliest? {instants : List (Option Nat)} {first : Nat}
    (found : earliest? instants = some first) : some first ∈ instants := by
  induction instants generalizing first with
  | nil => cases found
  | cons here rest ih =>
      rw [earliest?_cons] at found
      cases here with
      | none => exact List.mem_cons_of_mem _ (ih found)
      | some instant =>
          cases others : earliest? rest with
          | none =>
              rw [others] at found
              rw [← found]
              exact List.mem_cons_self ..
          | some other =>
              rw [others] at found
              obtain rfl : min instant other = first := Option.some.inj found
              rcases Nat.le_total instant other with least | least
              · rw [Nat.min_eq_left least]
                exact List.mem_cons_self ..
              · rw [Nat.min_eq_right least]
                exact List.mem_cons_of_mem _ (ih others)

end SequencedFeed
