import SequencedFeed.Proofs.Likeness
set_option autoImplicit false

/-!
# Plans of several addresses

On a stage for the plans of several addresses the connections of each address follow each other, apart from all
others. The plans of one address by themselves give the same dials and connections with smaller numbers.
-/

namespace SequencedFeed

/-- The plans of an address, which has none if it does not occur. -/
def plansOf (plans : List (String × List PlannedDial)) (url : String) : List PlannedDial :=
  (plans.lookup url).getD []

def PlannedDial.names (plans : List PlannedDial) : List String :=
  (PlannedDial.allOutcomes 0 plans).2

/-- The number of the first connection of an address, where connections are numbered from `link`. -/
def firstOf (link : Nat) : List (String × List PlannedDial) → String → Nat
  | [], _ => link
  | (other, plans) :: rest, url =>
      if url = other then link else firstOf (link + (PlannedDial.names plans).length) rest url

namespace PlannedDial

theorem outcomes_shift (plan : PlannedDial) (offset link : Nat) :
    plan.outcomes (offset + link) =
      ((plan.outcomes link).1.map (Outcome.rename (offset + ·)), (plan.outcomes link).2) := by
  unfold outcomes
  cases plan.ends with
  | connect name | fail error | hang => rfl
  | failNext count =>
      simp only [List.map_replicate]
      rfl

theorem allOutcomes_shift (plans : List PlannedDial) (offset link : Nat) :
    allOutcomes (offset + link) plans =
      ((allOutcomes link plans).1.map (Outcome.rename (offset + ·)), (allOutcomes link plans).2) := by
  induction plans generalizing link with
  | nil => rfl
  | cons plan rest ih =>
      simp only [allOutcomes, plan.outcomes_shift, Nat.add_assoc, ih, List.map_append]

theorem allOutcomes_at (plans : List PlannedDial) (link : Nat) :
    allOutcomes link plans = ((allOutcomes 0 plans).1.map (Outcome.rename (link + ·)), names plans) :=
  allOutcomes_shift plans link 0

theorem allOutcomes_stops {plans : List PlannedDial} (calm : ∀ plan ∈ plans, plan.stops = false) (link : Nat) :
    ∀ outcome ∈ (allOutcomes link plans).1, outcome.stops = false := by
  induction plans generalizing link with
  | nil => exact List.forall_mem_nil _
  | cons plan rest ih =>
      have first : ∀ outcome ∈ (plan.outcomes link).1, outcome.stops = false := by
        have calm := calm plan (List.mem_cons_self ..)
        intro outcome member
        unfold outcomes at member
        cases ends : plan.ends <;> simp_all
      intro outcome member
      rcases List.mem_append.mp member with here | there
      · exact first outcome here
      · exact ih (fun plan member => calm plan (List.mem_cons_of_mem _ member)) _ outcome there

end PlannedDial

section

variable (plans : List (String × List PlannedDial)) (url : String)

theorem le_firstOf (link : Nat) : link ≤ firstOf link plans url := by
  induction plans generalizing link with
  | nil => exact Nat.le_refl _
  | cons entry rest ih =>
      unfold firstOf
      split
      · exact Nat.le_refl _
      · exact Nat.le_trans (Nat.le_add_right ..) (ih _)

theorem plansOf_cons_self (made : List PlannedDial) : plansOf ((url, made) :: plans) url = made := by
  rw [plansOf, List.lookup_cons_self]
  rfl

theorem plansOf_cons_other {other : String} (made : List PlannedDial) (different : url ≠ other) :
    plansOf ((other, made) :: plans) url = plansOf plans url := by
  rw [plansOf, List.lookup_cons, beq_eq_false_iff_ne.mpr different]
  rfl

theorem plannedScripts_lookup (link : Nat) :
    ((plannedScripts link plans).1.lookup url).getD DialScript.empty =
      { outcomes := (PlannedDial.allOutcomes (firstOf link plans url) (plansOf plans url)).1, beyond := none } := by
  induction plans generalizing link with
  | nil => rfl
  | cons entry rest ih =>
      obtain ⟨other, made⟩ := entry
      by_cases same : url = other
      · subst same
        rw [plansOf_cons_self, firstOf, if_pos rfl]
        simp only [plannedScripts, List.lookup_cons_self]
        rfl
      · rw [plansOf_cons_other rest url made same, firstOf, if_neg same]
        simp only [plannedScripts, List.lookup_cons, beq_eq_false_iff_ne.mpr same]
        have length : (PlannedDial.allOutcomes link made).2.length = (PlannedDial.names made).length := by
          rw [PlannedDial.allOutcomes_at]
        rw [length]
        exact ih _

/-- The connections of an address lie together, with the names that they have by themselves. -/
theorem plannedScripts_names (link : Nat) :
    ∃ before after, (plannedScripts link plans).2 = before ++ PlannedDial.names (plansOf plans url) ++ after ∧
      link + before.length = firstOf link plans url := by
  induction plans generalizing link with
  | nil => exact ⟨[], [], rfl, rfl⟩
  | cons entry rest ih =>
      obtain ⟨other, made⟩ := entry
      have names : (PlannedDial.allOutcomes link made).2 = PlannedDial.names made := by rw [PlannedDial.allOutcomes_at]
      by_cases same : url = other
      · subst same
        rw [plansOf_cons_self, firstOf, if_pos rfl]
        refine ⟨[], (plannedScripts (link + (PlannedDial.names made).length) rest).2, ?_, rfl⟩
        simp only [plannedScripts, names, List.nil_append]
      · rw [plansOf_cons_other rest url made same, firstOf, if_neg same]
        obtain ⟨before, after, split, first⟩ := ih (link + (PlannedDial.names made).length)
        refine ⟨PlannedDial.names made ++ before, after, ?_, ?_⟩
        · simp only [plannedScripts, names, split, List.append_assoc]
        · rw [List.length_append, ← Nat.add_assoc]
          exact first

end

theorem firstOf_apart (link : Nat) (plans : List (String × List PlannedDial)) {url other : String} (different : url ≠ other) :
    firstOf link plans url + (PlannedDial.names (plansOf plans url)).length ≤ firstOf link plans other ∨
      firstOf link plans other + (PlannedDial.names (plansOf plans other)).length ≤ firstOf link plans url := by
  induction plans generalizing link with
  | nil => exact .inl (Nat.le_refl _)
  | cons entry rest ih =>
      obtain ⟨here, made⟩ := entry
      by_cases first : url = here
      · subst first
        rw [plansOf_cons_self, firstOf, if_pos rfl, firstOf, if_neg (Ne.symm different)]
        exact .inl (le_firstOf ..)
      · by_cases second : other = here
        · subst second
          rw [plansOf_cons_self, firstOf, if_neg different, firstOf, if_pos rfl]
          exact .inr (le_firstOf ..)
        · rw [plansOf_cons_other rest url made first, plansOf_cons_other rest other made second, firstOf, if_neg first, firstOf,
            if_neg second]
          exact ih _

end SequencedFeed
