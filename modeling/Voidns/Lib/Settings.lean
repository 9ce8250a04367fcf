import Mathlib.Logic.Function.Basic
import Mathlib.Data.List.Basic

/-!
# Settings changed at some keys

A configuration is a function `d` from keys to values.  `mapOn f ks d` has `f`
done to the values at the keys `ks`, which is what a loop leaves that sets one
key after another, in any order and with any repetitions, for an `f` that is
the same done twice.

A change can be undone without having been recorded only where there is nothing
to undo: `mapOn_eq_self_iff`.
-/

namespace Settings

variable {K V : Type} [DecidableEq K] {f g : V → V} {ks ks' : List K} {d : K → V}

/-- `d` with `f` done at the keys `ks`. -/
def mapOn (f : V → V) (ks : List K) (d : K → V) (k : K) : V := if k ∈ ks then f (d k) else d k

theorem mapOn_of_mem {k : K} (h : k ∈ ks) : mapOn f ks d k = f (d k) := if_pos h

theorem mapOn_of_notMem {k : K} (h : k ∉ ks) : mapOn f ks d k = d k := if_neg h

@[simp] theorem mapOn_nil : mapOn f [] d = d := funext fun _ => mapOn_of_notMem (by simp)

theorem mapOn_singleton (k : K) : mapOn f [k] d = Function.update d k (f (d k)) := by
  funext j
  by_cases hj : j = k
  · subst hj
    rw [mapOn_of_mem (List.mem_singleton_self _), Function.update_self]
  · rw [mapOn_of_notMem (by simpa using hj), Function.update_of_ne hj]

/-- One loop after another, over the same change. -/
theorem mapOn_append (hf : ∀ v, f (f v) = f v) :
    mapOn f ks' (mapOn f ks d) = mapOn f (ks ++ ks') d := by
  funext k
  by_cases hk : k ∈ ks <;> by_cases hk' : k ∈ ks' <;> simp [mapOn, hk, hk', hf]

/-- One loop after another, over the same keys. -/
theorem mapOn_mapOn : mapOn g ks (mapOn f ks d) = mapOn (g ∘ f) ks d := by
  funext k
  by_cases hk : k ∈ ks <;> simp [mapOn, hk]

/-- **A change shows exactly where it is one.** -/
theorem mapOn_eq_self_iff : mapOn f ks d = d ↔ ∀ k ∈ ks, f (d k) = d k := by
  constructor
  · intro h k hk
    exact (mapOn_of_mem hk).symm.trans (congrFun h k)
  · intro h
    funext k
    by_cases hk : k ∈ ks
    · rw [mapOn_of_mem hk, h k hk]
    · exact mapOn_of_notMem hk

end Settings
