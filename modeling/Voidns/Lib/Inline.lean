import Voidns.Lib.Prog

/-!
# Calls that are programs

A component makes calls on a part of its state, and a call may itself be a
program over finer calls on that part.  `inline` puts these programs in place of
the calls, so that a property of the state between two calls is one of the state
between two of the finer calls too: a process can be killed there.

A program on the part does on the whole what it does alone (`safe_lift`), so what
every inlined program keeps of the part is kept between any two calls
(`safe_inline`).  And inlining changes neither what a program returns nor where it ends
(`exec_inline`): every run of the inlined program is one of the program itself,
in which each call that is a program is made in one step.

The states need not be the same, and the replies only alike: where the program goes on
alike after alike replies (`Prog.Blind`), what is safe of it is safe of the inlined
program, whose states are in a relation to its own (`safe_refined`).
-/

namespace Effect

variable {E F : Sig} {ω ω' σ τ α β : Type}

/-- The calls of both. -/
def Sig.sum (E F : Sig) : Sig where
  Call := E.Call ⊕ F.Call
  Reply
    | .inl c => E.Reply c
    | .inr c => F.Reply c

/-- A part of a state. -/
structure Part (σ τ : Type) where
  get : σ → τ
  set : σ → τ → σ
  get_set : ∀ s t, get (set s t) = t
  set_get : ∀ s, set s (get s) = s
  set_set : ∀ s t u, set (set s t) u = set s u

/-- The whole of a state is a part of it. -/
def Part.self (σ : Type) : Part σ σ where
  get s := s
  set _ t := t
  get_set _ _ := rfl
  set_get _ := rfl
  set_set _ _ _ := rfl

/-- The calls of `F` act on the part. -/
def Part.handler (P : Part σ τ) (H : Handler E ω σ) (G : Handler F ω τ) : Handler (E.sum F) ω σ
  | .inl c, w, s => H c w s
  | .inr c, w, s => ((G c w (P.get s)).1, P.set s (G c w (P.get s)).2)

namespace Prog

/-- A program on the part. -/
def lift : Prog F α → Prog (E.sum F) α
  | ret a => ret a
  | call c k => call (E := E.sum F) (.inr c) fun r => (k r).lift

/-- The program goes on alike after replies that are alike. -/
def Blind (alike : ∀ c : E.Call, E.Reply c → E.Reply c → Prop) : Prog E α → Prop
  | ret _ => True
  | call c k => (∀ r r', alike c r r' → k r = k r') ∧ ∀ r, (k r).Blind alike

/-- The program with every call that `impl` implements in place. -/
def inline (impl : ∀ c : E.Call, Option (Prog F (E.Reply c))) : Prog E α → Prog (E.sum F) α
  | ret a => ret a
  | call c k => match impl c with
    | none => call (E := E.sum F) (.inl c) fun r => (k r).inline impl
    | some p => (lift p : Prog (E.sum F) (E.Reply c)) >>= fun r => (k r).inline impl

section

variable {alike : ∀ c : E.Call, E.Reply c → E.Reply c → Prop}

theorem Blind.bind {f : α → Prog E β} (hf : ∀ a, (f a).Blind alike) : ∀ {p : Prog E α},
    p.Blind alike → (p >>= f).Blind alike := by
  intro p
  induction p with
  | ret a => intro _; exact hf a
  | call c k ih =>
    intro hp
    exact ⟨fun r r' hr => congrArg (· >>= f) (hp.1 r r' hr), fun r => ih r (hp.2 r)⟩

theorem Blind.each {J : Type} {body : J → Prog E α} (h : ∀ j, (body j).Blind alike) :
    ∀ js, (each body js).Blind alike := by
  intro js
  induction js with
  | nil => trivial
  | cons j js ih => exact Blind.bind (fun _ => ih) (h j)

end

section

variable {impl : ∀ c : E.Call, Option (Prog F (E.Reply c))}

@[simp] theorem inline_ret (a : α) : (ret a : Prog E α).inline impl = ret a := rfl

theorem inline_call_none {c : E.Call} {k : E.Reply c → Prog E α} (h : impl c = none) :
    (call c k).inline impl =
      call (E := E.sum F) (.inl c) fun r => (k r).inline impl := by
  rw [inline, h]

theorem inline_call_some {c : E.Call} {k : E.Reply c → Prog E α} {p : Prog F (E.Reply c)}
    (h : impl c = some p) :
    (call c k).inline impl = ((lift p : Prog (E.sum F) _) >>= fun r => (k r).inline impl) := by
  rw [inline, h]

end

end Prog

section

variable {P : Part σ τ} {H : Handler E ω σ} {G : Handler F ω τ}

/-- **A program on the part** does to it what it does alone, and leaves the rest. -/
theorem safe_lift {A B : CallEvent F ω τ → Prop} {Q : α → τ → Prop}
    {A' B' : CallEvent (E.sum F) ω σ → Prop}
    (hA : ∀ c w s, A' ⟨.inr c, w, s, P.set s (G c w (P.get s)).2⟩ →
      A ⟨c, w, P.get s, (G c w (P.get s)).2⟩)
    (hB : ∀ c w s, B ⟨c, w, P.get s, (G c w (P.get s)).2⟩ →
      B' ⟨.inr c, w, s, P.set s (G c w (P.get s)).2⟩) :
    ∀ {p : Prog F α} {s : σ}, Safe G A B Q p (P.get s) →
      Safe (P.handler H G) A' B' (fun a t => t = P.set s (P.get t) ∧ Q a (P.get t)) p.lift s := by
  intro p
  induction p with
  | ret a => intro s h; exact ⟨(P.set_get s).symm, h⟩
  | call c k ih =>
    intro s h w ha
    obtain ⟨hb, hk⟩ := h w (hA c w s ha)
    refine ⟨hB c w s hb, ?_⟩
    rw [← P.get_set s (G c w (P.get s)).2] at hk
    refine (ih _ hk).post fun a t ht => ⟨ht.1.trans ?_, ht.2⟩
    exact P.set_set _ _ _

/-- **The part keeps** what every program that is inlined keeps of it. -/
theorem safe_inline {impl : ∀ c : E.Call, Option (Prog F (E.Reply c))} {K : E.Call → Prop}
    {A : CallEvent F ω τ → Prop} {A' : CallEvent (E.sum F) ω σ → Prop} {I : τ → Prop}
    (hA : ∀ c w s, A' ⟨.inr c, w, s, P.set s (G c w (P.get s)).2⟩ →
      A ⟨c, w, P.get s, (G c w (P.get s)).2⟩)
    (hkept : ∀ c w s, impl c = none → P.get (H c w s).2 = P.get s)
    (himpl : ∀ c q t, K c → impl c = some q → I t →
      Safe G A (fun e => I e.after) (fun _ t => I t) q t) :
    ∀ {p : Prog E α}, p.Calls K → ∀ {s : σ}, I (P.get s) →
      Safe (P.handler H G) A' (fun e => I (P.get e.after)) (fun _ t => I (P.get t))
        (p.inline impl) s := by
  intro p
  induction p with
  | ret a => intro _ s hs; exact hs
  | call c k ih =>
    intro hp s hs
    cases hc : impl c with
    | none =>
      rw [Prog.inline_call_none hc]
      intro w _
      have hI : I (P.get (H c w s).2) := by rw [hkept c w s hc]; exact hs
      exact ⟨hI, ih _ (hp.2 _) hI⟩
    | some q =>
      rw [Prog.inline_call_some hc]
      have hB : ∀ c w s, I (G c w (P.get s)).2 → I (P.get (P.set s (G c w (P.get s)).2)) :=
        fun c w s hI => by rw [P.get_set]; exact hI
      exact safe_bind.mpr ((safe_lift (B := fun e => I e.after) (Q := fun _ t => I t) hA hB
        (himpl c q _ hp.1 hc hs)).post fun r t ht => ih r (hp.2 r) ht.2)

/-- A call of the inlined program: one of the program's own, or one that implements it,
whatever the reply it will come to. -/
inductive Stands (H' : Handler E ω' σ') (Rel : σ → σ' → Prop)
    (During : CallEvent E ω' σ' → CallEvent (E.sum F) ω σ → Prop)
    (B : CallEvent E ω' σ' → Prop) (e : CallEvent (E.sum F) ω σ) : Prop
  | same (e' : CallEvent E ω' σ') : e.call = .inl e'.call → Rel e.before e'.before →
      Rel e.after e'.after → B e' → Stands H' Rel During B e
  | part (c : E.Call) (s' : σ') :
      (∀ w', During ⟨c, w', s', (H' c w' s').2⟩ e ∧ B ⟨c, w', s', (H' c w' s').2⟩) →
      Stands H' Rel During B e

/-- **What is safe of the program** is safe of the program that is inlined, where each call
does to one state what it does to the other. -/
theorem safe_refined {impl : ∀ c : E.Call, Option (Prog F (E.Reply c))}
    {alike : ∀ c : E.Call, E.Reply c → E.Reply c → Prop} {H' : Handler E ω' σ'}
    {Rel : σ → σ' → Prop} {During : CallEvent E ω' σ' → CallEvent (E.sum F) ω σ → Prop}
    {A : CallEvent (E.sum F) ω σ → Prop} {A' B : CallEvent E ω' σ' → Prop} {Q : α → σ' → Prop}
    (hsame : ∀ c w s s', impl c = none → Rel s s' → ∃ w', alike c (H c w s).1 (H' c w' s').1 ∧
      Rel (H c w s).2 (H' c w' s').2 ∧
      (A ⟨.inl c, w, s, (H c w s).2⟩ → A' ⟨c, w', s', (H' c w' s').2⟩))
    (himpl : ∀ c q s s', impl c = some q → Rel s s' →
      Safe (P.handler H G) A (fun e => ∀ w', During ⟨c, w', s', (H' c w' s').2⟩ e)
        (fun r t => ∃ w', alike c r (H' c w' s').1 ∧ Rel t (H' c w' s').2) q.lift s)
    (hfree : ∀ c q, impl c = some q → ∀ w' s', A' ⟨c, w', s', (H' c w' s').2⟩) :
    ∀ {p : Prog E α}, p.Blind alike → ∀ {s : σ} {s' : σ'}, Rel s s' → Safe H' A' B Q p s' →
      Safe (P.handler H G) A (Stands H' Rel During B) (fun a t => ∃ t', Rel t t' ∧ Q a t')
        (p.inline impl) s := by
  intro p
  induction p with
  | ret a => intro _ s s' hs h; exact ⟨s', hs, h⟩
  | call c k ih =>
    intro hp s s' hs h
    cases hc : impl c with
    | none =>
      rw [Prog.inline_call_none hc]
      intro w hA
      obtain ⟨w', hr, ht, hA'⟩ := hsame c w s s' hc hs
      obtain ⟨hB, hk⟩ := h w' (hA' hA)
      rw [← hp.1 _ _ hr] at hk
      exact ⟨.same ⟨c, w', s', _⟩ rfl hs ht hB, ih _ (hp.2 _) ht hk⟩
    | some q =>
      rw [Prog.inline_call_some hc]
      refine safe_bind.mpr ((himpl c q s s' hc hs).mono (fun _ h => h) (fun e he => ?_) ?_)
      · exact .part c s' fun w' => ⟨he w', (h w' (hfree c q hc w' s')).1⟩
      · rintro r t ⟨w', hr, ht⟩
        have hk := (h w' (hfree c q hc w' s')).2
        rw [← hp.1 _ _ hr] at hk
        exact ih r (hp.2 r) ht hk

variable [Inhabited ω] [Inhabited ω']

theorem exec_lift : ∀ (p : Prog F α) (ws : List ω) (s : σ),
    (exec (P.handler H G) p.lift ws s).value = (exec G p ws (P.get s)).value ∧
      (exec (P.handler H G) p.lift ws s).state = P.set s (exec G p ws (P.get s)).state := by
  intro p
  induction p with
  | ret a => intro ws s; exact ⟨rfl, (P.set_get s).symm⟩
  | call c k ih =>
    intro ws s
    obtain ⟨hv, hs⟩ := ih (G c (ws.headD default) (P.get s)).1 ws.tail
      (P.set s (G c (ws.headD default) (P.get s)).2)
    rw [P.get_set] at hv hs
    rw [P.set_set] at hs
    exact ⟨hv, hs⟩

/-- **Inlining changes no result.** -/
theorem exec_inline {impl : ∀ c : E.Call, Option (Prog F (E.Reply c))} {H' : Handler E ω' σ}
    (hkept : ∀ c w s, impl c = none → ∃ w', H' c w' s = H c w s)
    (himpl : ∀ c q ws s, impl c = some q → ∃ w', H' c w' s =
      ((exec G q ws (P.get s)).value, P.set s (exec G q ws (P.get s)).state)) :
    ∀ (p : Prog E α) (ws : List ω) (s : σ), ∃ ws' : List ω',
      (exec (P.handler H G) (p.inline impl) ws s).value = (exec H' p ws' s).value ∧
        (exec (P.handler H G) (p.inline impl) ws s).state = (exec H' p ws' s).state := by
  intro p
  induction p with
  | ret a => intro ws s; exact ⟨[], rfl, rfl⟩
  | call c k ih =>
    intro ws s
    have hcall : ∀ w' ws', exec H' (.call c k) (w' :: ws') s =
        { exec H' (k (H' c w' s).1) ws' (H' c w' s).2 with
          events := ⟨c, w', s, (H' c w' s).2⟩ ::
            (exec H' (k (H' c w' s).1) ws' (H' c w' s).2).events } := fun _ _ => rfl
    cases hc : impl c with
    | none =>
      obtain ⟨w', hw'⟩ := hkept c (ws.headD default) s hc
      obtain ⟨ws', hv, hs⟩ := ih (H c (ws.headD default) s).1 ws.tail (H c (ws.headD default) s).2
      refine ⟨w' :: ws', ?_⟩
      rw [hcall w' ws', hw', Prog.inline_call_none hc]
      exact ⟨hv, hs⟩
    | some q =>
      obtain ⟨w', hw'⟩ := himpl c q ws s hc
      obtain ⟨hqv, hqs⟩ := exec_lift (P := P) (H := H) (G := G) q ws s
      obtain ⟨ws', hv, hs⟩ := ih (exec G q ws (P.get s)).value
        (exec (P.handler H G) q.lift ws s).rest (P.set s (exec G q ws (P.get s)).state)
      refine ⟨w' :: ws', ?_⟩
      rw [hcall w' ws', hw', Prog.inline_call_some hc, exec_bind, hqv, hqs]
      exact ⟨hv, hs⟩

end

end Effect
