import Mathlib.Logic.Basic
import Mathlib.Tactic.Common

/-!
# Systems that take labelled steps

A system is a partial function `step` of a label and a state.  `Reach step A` is
where it can get to by steps that are possible and that `A` allows; `run` takes
the steps of a given list.

`Reach.invariant` is the one induction: what the allowed steps keep holds of
every state reached.
-/

namespace Steps

variable {L S : Type}

/-- The states reached from `s₀` by allowed steps. -/
inductive Reach (step : L → S → Option S) (A : L → S → Prop) (s₀ : S) : S → Prop
  | init : Reach step A s₀ s₀
  | next {s t : S} (l : L) : Reach step A s₀ s → A l s → step l s = some t → Reach step A s₀ t

/-- Take the steps of a list, as long as they are possible. -/
def run (step : L → S → Option S) : List L → S → Option S
  | [], s => some s
  | l :: ls, s => (step l s).bind (run step ls)

/-- The steps of a list are allowed, as far as they are possible. -/
def Allowed (step : L → S → Option S) (A : L → S → Prop) : List L → S → Prop
  | [], _ => True
  | l :: ls, s => A l s ∧ ∀ t ∈ step l s, Allowed step A ls t

instance Allowed.decidable (step : L → S → Option S) (A : L → S → Prop) [∀ l s, Decidable (A l s)] :
    ∀ (ls : List L) (s : S), Decidable (Allowed step A ls s)
  | [], _ => isTrue trivial
  | l :: ls, s =>
    have (t : S) : Decidable (Allowed step A ls t) := Allowed.decidable step A ls t
    inferInstanceAs (Decidable (A l s ∧ ∀ t ∈ step l s, Allowed step A ls t))

/-- **What every step keeps exactly when it is allowed** holds at the end of a run
exactly when every step of it was. -/
theorem run_iff_allowed {step : L → S → Option S} {A : L → S → Prop} {P : S → Prop}
    (hstep : ∀ l s t, step l s = some t → (P t ↔ P s ∧ A l s)) :
    ∀ (ls : List L) {s t : S}, run step ls s = some t → (P t ↔ P s ∧ Allowed step A ls s) := by
  intro ls
  induction ls with
  | nil =>
    intro s t h
    rw [← Option.some.inj h]
    exact (and_iff_left trivial).symm
  | cons l ls ih =>
    intro s t h
    obtain ⟨u, hu, ht⟩ := Option.bind_eq_some_iff.mp h
    have hrest : (∀ v ∈ step l s, Allowed step A ls v) ↔ Allowed step A ls u := by
      simp [hu]
    rw [ih ht, hstep l s u hu, Allowed, hrest, and_assoc]

/-- Two runs, one after the other. -/
theorem run_append {step : L → S → Option S} {ls' : List L} {t u : S} : ∀ {ls : List L} {s : S},
    run step ls s = some t → run step ls' t = some u → run step (ls ++ ls') s = some u := by
  intro ls
  induction ls with
  | nil =>
    intro s h h'
    rw [Option.some.inj h]
    exact h'
  | cons l ls ih =>
    intro s h h'
    obtain ⟨v, hv, hrest⟩ := Option.bind_eq_some_iff.mp h
    show (step l s).bind _ = _
    rw [hv]
    exact ih hrest h'

theorem Allowed.append {step : L → S → Option S} {A : L → S → Prop} {ls' : List L} {t : S} :
    ∀ {ls : List L} {s : S}, Allowed step A ls s → run step ls s = some t → Allowed step A ls' t →
      Allowed step A (ls ++ ls') s := by
  intro ls
  induction ls with
  | nil =>
    intro s _ h h'
    rw [Option.some.inj h]
    exact h'
  | cons l ls ih =>
    intro s hA h h'
    obtain ⟨v, hv, hrest⟩ := Option.bind_eq_some_iff.mp h
    refine ⟨hA.1, fun w hw => ?_⟩
    obtain rfl := Option.some.inj (hv.symm.trans hw)
    exact ih (hA.2 v hv) hrest h'

/-- **A measure that goes down is used up.**  Where a step is possible that `A` allows and
that takes the measure down, as long as `P` does not hold, `P` is reached in so many
steps at most. -/
theorem exists_run_of_measure (step : L → S → Option S) {A : L → S → Prop} {M : S → Nat → Prop}
    {P : S → Prop}
    (hstep : ∀ s n, M s n → ¬ P s → ∃ l t m, A l s ∧ step l s = some t ∧ M t m ∧ m < n) :
    ∀ (n : Nat) (s : S), M s n →
      ∃ ls t, ls.length ≤ n ∧ Allowed step A ls s ∧ run step ls s = some t ∧ P t := by
  intro n
  induction n using Nat.strongRecOn with
  | ind n ih =>
    intro s hs
    by_cases hP : P s
    · exact ⟨[], s, Nat.zero_le n, trivial, rfl, hP⟩
    · obtain ⟨l, t, m, hA, ht, hM, hlt⟩ := hstep s n hs hP
      obtain ⟨ls, u, hlen, hls, hu, hPu⟩ := ih m hlt t hM
      refine ⟨l :: ls, u, by rw [List.length_cons]; omega, ⟨hA, fun v hv => ?_⟩, ?_, hPu⟩
      · rw [← Option.some.inj (ht.symm.trans hv)]
        exact hls
      · rw [run, ht]
        exact hu

/-- What `f` counts of the steps of a run, summed up. -/
def total (step : L → S → Option S) (f : L → S → Nat) : List L → S → Nat
  | [], _ => 0
  | l :: ls, s => f l s + ((step l s).map (total step f ls)).getD 0

/-- **A potential.**  Where each step takes out no more than it puts in and the potential
gives, a run does not either. -/
theorem total_le_of_potential {step : L → S → Option S} {potential : S → Nat}
    {puts takes : L → S → Nat}
    (hstep : ∀ l s t, step l s = some t → takes l s + potential t ≤ puts l s + potential s) :
    ∀ (ls : List L) {s t : S}, run step ls s = some t →
      total step takes ls s + potential t ≤ total step puts ls s + potential s := by
  intro ls
  induction ls with
  | nil =>
    intro s t h
    rw [Option.some.inj h]
    exact Nat.le_refl _
  | cons l ls ih =>
    intro s t h
    obtain ⟨u, hu, hrest⟩ := Option.bind_eq_some_iff.mp h
    have hle := hstep l s u hu
    have hle' := ih hrest
    simp only [total, hu, Option.map_some, Option.getD_some]
    omega

namespace Reach

variable {step : L → S → Option S} {A A' : L → S → Prop} {s₀ s t : S}

/-- **What allowed steps keep holds everywhere.** -/
theorem invariant {I : S → Prop} (h₀ : I s₀)
    (hstep : ∀ l s t, A l s → step l s = some t → I s → I t) (h : Reach step A s₀ s) : I s := by
  induction h with
  | init => exact h₀
  | next l _ hA hs ih => exact hstep l _ _ hA hs ih

/-- **Simulation.**  Where each allowed step is one of another system, or none, what
is reached corresponds to what that system reaches. -/
theorem simulated {L' S' : Type} {step' : L' → S' → Option S'} {B : L' → S' → Prop} {s₀' : S'}
    {Q : S → S' → Prop} (h₀ : Q s₀ s₀')
    (hstep : ∀ l s t s', A l s → step l s = some t → Q s s' →
      ∃ t', (t' = s' ∨ ∃ l', B l' s' ∧ step' l' s' = some t') ∧ Q t t')
    (h : Reach step A s₀ s) : ∃ s', Reach step' B s₀' s' ∧ Q s s' := by
  induction h with
  | init => exact ⟨s₀', .init, h₀⟩
  | next l _ hA hs ih =>
    obtain ⟨s', hs', hQ⟩ := ih
    obtain ⟨t', rfl | ⟨l', hB, ht'⟩, hQ'⟩ := hstep l _ _ s' hA hs hQ
    · exact ⟨t', hs', hQ'⟩
    · exact ⟨t', .next l' hs' hB ht', hQ'⟩

theorem trans (h : Reach step A s₀ s) (h' : Reach step A s t) : Reach step A s₀ t := by
  induction h' with
  | init => exact h
  | next l _ hA hs ih => exact .next l ih hA hs

theorem mono (hA : ∀ l s, A l s → A' l s) (h : Reach step A s₀ s) : Reach step A' s₀ s := by
  induction h with
  | init => exact .init
  | next l _ ha hs ih => exact .next l ih (hA l _ ha) hs

/-- A run whose steps are allowed reaches its end. -/
theorem of_allowed : ∀ {ls : List L} {s : S}, Allowed step A ls s → run step ls s = some t →
    Reach step A s t := by
  intro ls
  induction ls with
  | nil => intro s _ h; rw [← Option.some.inj h]; exact .init
  | cons l ls ih =>
    intro s hA h
    obtain ⟨u, hu, ht⟩ := Option.bind_eq_some_iff.mp h
    exact (Reach.next l .init hA.1 hu).trans (ih (hA.2 u hu) ht)

theorem exists_of_allowed {P : S → Prop} {ls : List L} {s : S} (hA : Allowed step A ls s)
    (h : ∃ t ∈ run step ls s, P t) : ∃ t, Reach step A s t ∧ P t := by
  obtain ⟨t, ht, hP⟩ := h
  exact ⟨t, of_allowed hA ht, hP⟩

theorem of_run (hA : ∀ l s, A l s) (ls : List L) {s : S} (h : run step ls s = some t) :
    Reach step A s t := by
  have hall : ∀ (ls : List L) (s : S), Allowed step A ls s := by
    intro ls
    induction ls with
    | nil => intro s; trivial
    | cons l ls ih => intro s; exact ⟨hA l s, fun u _ => ih u⟩
  exact of_allowed (hall ls s) h

end Reach

end Steps
