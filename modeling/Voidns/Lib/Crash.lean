import Voidns.Lib.Prog

/-!
# Jobs that may be killed

A process runs jobs one after another, each a program, and may be killed
between any two calls; then it starts again with the state `reboot` leaves: what
is on disk stays, what was in memory is reset.  `Reach` is every state of every
such run, at every point inside a job.

`Reach.invariant` is the rule: a property kept by every job that starts in it,
between its calls as well as at its end, and by `reboot`, holds at every point
of every run, and a job that gets to its end also has its postcondition.
-/

namespace Effect

variable {E : Sig} {ω σ α J : Type}

/-- A job under way: which one, the state it started in, and what is left. -/
structure Frame (J : Type) (E : Sig) (σ α : Type) where
  job : J
  start : σ
  left : Prog E α

/-- The points of the runs of a process whose calls go as `A` allows. -/
inductive Reach (H : Handler E ω σ) (A : CallEvent E ω σ → Prop) (body : J → Prog E α)
    (reboot : σ → σ) (s₀ : σ) : Option (Frame J E σ α) → σ → Prop
  | init : Reach H A body reboot s₀ none s₀
  | start {s} (j : J) : Reach H A body reboot s₀ none s →
      Reach H A body reboot s₀ (some ⟨j, s, body j⟩) s
  | call {j t c k s} (w : ω) : Reach H A body reboot s₀ (some ⟨j, t, .call c k⟩) s →
      A ⟨c, w, s, (H c w s).2⟩ →
      Reach H A body reboot s₀ (some ⟨j, t, k (H c w s).1⟩) (H c w s).2
  | finish {j t a s} : Reach H A body reboot s₀ (some ⟨j, t, .ret a⟩) s →
      Reach H A body reboot s₀ none s
  | kill {f s} : Reach H A body reboot s₀ f s → Reach H A body reboot s₀ none (reboot s)

/-- A job under way can be run to its end. -/
theorem Reach.runs [Inhabited ω] {H : Handler E ω σ} {A : CallEvent E ω σ → Prop}
    {body : J → Prog E α} {reboot : σ → σ} {s₀ : σ} {j : J} {t : σ} :
    ∀ (p : Prog E α) (ws : List ω) {s : σ}, Reach H A body reboot s₀ (some ⟨j, t, p⟩) s →
      (∀ e ∈ (exec H p ws s).events, A e) →
      Reach H A body reboot s₀ (some ⟨j, t, .ret (exec H p ws s).value⟩) (exec H p ws s).state := by
  intro p
  induction p with
  | ret a => intro ws s h _; exact h
  | call c k ih =>
    intro ws s h hA
    rw [exec_call] at hA ⊢
    exact ih _ ws.tail (h.call (ws.headD default) (hA _ List.mem_cons_self))
      (fun e he => hA e (List.mem_cons_of_mem _ he))

namespace Reach

variable {H : Handler E ω σ} {A : CallEvent E ω σ → Prop} {body : J → Prog E α}
  {reboot : σ → σ} {s₀ : σ} {I : σ → Prop} {Q : J → σ → α → σ → Prop}

/-- **A crash invariant.**  It holds at every point, and what is left of the
job under way is safe from there. -/
theorem invariant (h₀ : I s₀) (hr : ∀ s, I s → I (reboot s))
    (hj : ∀ j s, I s → Safe H A (fun e => I e.after) (fun a t => I t ∧ Q j s a t) (body j) s)
    {f : Option (Frame J E σ α)} {s : σ} (h : Reach H A body reboot s₀ f s) :
    I s ∧ ∀ fr, f = some fr →
      Safe H A (fun e => I e.after) (fun a t => I t ∧ Q fr.job fr.start a t) fr.left s := by
  induction h with
  | init => exact ⟨h₀, fun fr hf => absurd hf (by simp)⟩
  | start j _ ih =>
    refine ⟨ih.1, fun fr hf => ?_⟩
    obtain rfl := Option.some.inj hf
    exact hj j _ ih.1
  | call w _ hA ih =>
    obtain ⟨hI, hS⟩ := ih.2 _ rfl w hA
    refine ⟨hI, fun fr hf => ?_⟩
    obtain rfl := Option.some.inj hf
    exact hS
  | finish _ ih => exact ⟨ih.1, fun fr hf => absurd hf (by simp)⟩
  | kill _ ih => exact ⟨hr _ ih.1, fun fr hf => absurd hf (by simp)⟩

/-- A job that has got to its end is in its postcondition. -/
theorem post (h₀ : I s₀) (hr : ∀ s, I s → I (reboot s))
    (hj : ∀ j s, I s → Safe H A (fun e => I e.after) (fun a t => I t ∧ Q j s a t) (body j) s)
    {j : J} {t s : σ} {a : α} (h : Reach H A body reboot s₀ (some ⟨j, t, .ret a⟩) s) :
    Q j t a s :=
  ((h.invariant h₀ hr hj).2 _ rfl).2

end Reach

end Effect
