import Mathlib.Logic.Basic
import Mathlib.Tactic.Common

/-!
# Programs over calls the world may refuse

A program is a tree of calls: each call goes to the world, and what the world
replies picks the subtree that runs next.  A `Handler` says what the world does
with a call under its choice `w` (the call succeeds, or fails with some text),
and `exec` runs a program against a list of choices.  So "for every pattern of
successes and failures" is "for every list of choices".

`exec` keeps the list of events, one for each call, with the states on both
sides of it.  The states a run passes through are the `after`s of its events,
so a property that has to hold between any two calls is a property of events.

`Safe` is the logic over it.  `Safe H A B Q p s` says that from `s` the program
`p` guarantees `B` of each of its events and ends in `Q`, as long as the world
keeps to `A`.  It goes through a program one call at a time (`safe_call`,
`safe_bind`), and `Safe.exec` reads it back on a run.  `Ends H Q p s` is for what
no single event says: its postcondition reads the whole trace.  `Rounds` is the
trace of a loop that passes over what fails.
-/

namespace Effect

/-- The calls a program can make, and the type of the reply to each. -/
structure Sig where
  Call : Type
  Reply : Call → Type

/-- A program: done with a value, or a call and what follows each reply. -/
inductive Prog (E : Sig) (α : Type) : Type where
  | ret (a : α) : Prog E α
  | call (c : E.Call) (k : E.Reply c → Prog E α) : Prog E α

variable {E : Sig} {ω σ α β : Type}

namespace Prog

/-- Run `p`, then what its value picks. -/
def bind : Prog E α → (α → Prog E β) → Prog E β
  | ret a, f => f a
  | call c k, f => call c (fun r => (k r).bind f)

instance : Monad (Prog E) where
  pure := ret
  bind := bind

/-- The program that makes one call and returns its reply. -/
def perform (c : E.Call) : Prog E (E.Reply c) := call c ret

/-- Run one program after another, whatever their values. -/
def each {J : Type} (body : J → Prog E α) : List J → Prog E Unit
  | [] => ret ()
  | j :: js => (body j).bind fun _ => each body js

/-- Every call the program can make, whatever the replies, is in `K`. -/
def Calls (K : E.Call → Prop) : Prog E α → Prop
  | ret _ => True
  | call c k => K c ∧ ∀ r, (k r).Calls K

/-- The program makes at most `n` calls, whatever the replies. -/
def Within : Nat → Prog E α → Prop
  | _, ret _ => True
  | 0, call .. => False
  | n + 1, call _ k => ∀ r, (k r).Within n

@[simp] theorem pure_eq (a : α) : (pure a : Prog E α) = ret a := rfl

@[simp] theorem ret_bind (a : α) (f : α → Prog E β) : (ret a >>= f) = f a := rfl

@[simp] theorem call_bind (c : E.Call) (k : E.Reply c → Prog E α) (f : α → Prog E β) :
    (call c k >>= f) = call c (fun r => k r >>= f) := rfl

@[simp] theorem perform_bind (c : E.Call) (f : E.Reply c → Prog E β) :
    (perform c >>= f) = call c f := rfl

@[simp] theorem each_nil {J : Type} (body : J → Prog E α) : each body [] = ret () := rfl

@[simp] theorem each_cons {J : Type} (body : J → Prog E α) (j : J) (js : List J) :
    each body (j :: js) = (body j >>= fun _ => each body js) := rfl

theorem each_append {J : Type} (body : J → Prog E α) (js js' : List J) :
    each body (js ++ js') = (each body js >>= fun _ => each body js') := by
  have bind_assoc : ∀ (p : Prog E α) (f : α → Prog E Unit) (g : Unit → Prog E Unit),
      ((p >>= f) >>= g) = (p >>= fun a => f a >>= g) := by
    intro p f g
    induction p with
    | ret a => rfl
    | call c k ih => exact congrArg (call c) (funext fun r => ih r)
  induction js with
  | nil => rfl
  | cons j js ih => rw [List.cons_append, each_cons, each_cons, ih, bind_assoc]

theorem Calls.mono {K K' : E.Call → Prop} (h : ∀ c, K c → K' c) :
    ∀ {p : Prog E α}, p.Calls K → p.Calls K' := by
  intro p
  induction p with
  | ret a => intro _; trivial
  | call c k ih => intro hp; exact ⟨h c hp.1, fun r => ih r (hp.2 r)⟩

theorem Calls.perform {K : E.Call → Prop} {c : E.Call} (h : K c) : (perform c).Calls K :=
  ⟨h, fun _ => trivial⟩

/-- Every program makes some calls. -/
theorem calls_any : ∀ p : Prog E α, p.Calls fun _ => True := by
  intro p
  induction p with
  | ret a => trivial
  | call c k ih => exact ⟨trivial, ih⟩

/-- The case of a call at the head of a sequence. -/
theorem calls_perform {K : E.Call → Prop} {c : E.Call} {f : E.Reply c → Prog E β} :
    (perform c >>= f).Calls K ↔ K c ∧ ∀ r, (f r).Calls K := Iff.rfl

theorem Calls.bind {K : E.Call → Prop} {f : α → Prog E β} : ∀ {p : Prog E α},
    p.Calls K → (∀ a, (f a).Calls K) → (p >>= f).Calls K := by
  intro p
  induction p with
  | ret a => intro _ hf; exact hf a
  | call c k ih => intro hp hf; exact ⟨hp.1, fun r => ih r (hp.2 r) hf⟩

theorem Calls.each {J : Type} {K : E.Call → Prop} {body : J → Prog E α}
    (h : ∀ j, (body j).Calls K) : ∀ js, (each body js).Calls K := by
  intro js
  induction js with
  | nil => trivial
  | cons j js ih => exact (h j).bind fun _ => ih

theorem within_ret (n : Nat) (a : α) : (ret a : Prog E α).Within n := by
  cases n <;> trivial

/-- The case of a call at the head of a sequence. -/
theorem within_perform {n : Nat} {c : E.Call} {f : E.Reply c → Prog E β} :
    (perform c >>= f).Within (n + 1) ↔ ∀ r, (f r).Within n := Iff.rfl

/-- A program that is not done has a call left. -/
theorem Within.pos {n : Nat} {c : E.Call} {k : E.Reply c → Prog E α} (h : (call c k).Within n) :
    ∃ m, n = m + 1 ∧ ∀ r, (k r).Within m := by
  cases n with
  | zero => exact h.elim
  | succ m => exact ⟨m, rfl, h⟩

theorem Within.mono : ∀ {p : Prog E α} {n m : Nat}, p.Within n → n ≤ m → p.Within m := by
  intro p
  induction p with
  | ret a => intro n m _ _; exact within_ret m a
  | call c k ih =>
    intro n m h hnm
    obtain ⟨n', rfl, hk⟩ := h.pos
    obtain ⟨m', rfl⟩ : ∃ m', m = m' + 1 := ⟨m - 1, by omega⟩
    exact fun r => ih r (hk r) (by omega)

/-- A sequence makes the calls of both. -/
theorem Within.bind {f : α → Prog E β} {m : Nat} : ∀ {p : Prog E α} {n : Nat},
    p.Within n → (∀ a, (f a).Within m) → (p >>= f).Within (m + n) := by
  intro p
  induction p with
  | ret a => intro n _ hf; exact (hf a).mono (Nat.le_add_right m n)
  | call c k ih =>
    intro n h hf
    obtain ⟨n', rfl, hk⟩ := h.pos
    exact fun r => ih r (hk r) hf

end Prog

/-- What the world does with a call under its choice: its reply, and the state
it leaves. -/
abbrev Handler (E : Sig) (ω σ : Type) := (c : E.Call) → ω → σ → E.Reply c × σ

/-- One call a run has made. -/
structure CallEvent (E : Sig) (ω σ : Type) where
  call : E.Call
  choice : ω
  before : σ
  after : σ

/-- A finished run. -/
structure Run (E : Sig) (ω σ α : Type) where
  value : α
  state : σ
  rest : List ω
  events : List (CallEvent E ω σ)

/-- Run a program, taking one choice of the world for each call; once the list
is used up every choice is the default one. -/
def exec [Inhabited ω] (H : Handler E ω σ) : Prog E α → List ω → σ → Run E ω σ α
  | .ret a, ws, s => ⟨a, s, ws, []⟩
  | .call c k, ws, s =>
    let w := ws.headD default
    let r := H c w s
    let q := exec H (k r.1) ws.tail r.2
    { q with events := ⟨c, w, s, r.2⟩ :: q.events }

/-! ### How a run splits -/

section Exec

variable [Inhabited ω] (H : Handler E ω σ)

@[simp] theorem exec_ret (a : α) (ws : List ω) (s : σ) :
    exec H (.ret a : Prog E α) ws s = ⟨a, s, ws, []⟩ := rfl

theorem exec_call (c : E.Call) (k : E.Reply c → Prog E α) (ws : List ω) (s : σ) :
    exec H (.call c k) ws s =
      { exec H (k (H c (ws.headD default) s).1) ws.tail (H c (ws.headD default) s).2 with
        events := ⟨c, ws.headD default, s, (H c (ws.headD default) s).2⟩ ::
          (exec H (k (H c (ws.headD default) s).1) ws.tail (H c (ws.headD default) s).2).events } :=
  rfl

/-- A run of `p >>= f` is a run of `p` and then one of `f`, on the choices `p`
left over. -/
theorem exec_bind (f : α → Prog E β) : ∀ (p : Prog E α) (ws : List ω) (s : σ),
    exec H (p >>= f) ws s =
      { exec H (f (exec H p ws s).value) (exec H p ws s).rest (exec H p ws s).state with
        events := (exec H p ws s).events ++
          (exec H (f (exec H p ws s).value) (exec H p ws s).rest (exec H p ws s).state).events } := by
  intro p
  induction p with
  | ret a => intro ws s; rfl
  | call c k ih =>
    intro ws s
    rw [Prog.call_bind, exec_call, ih]
    rfl

@[simp] theorem exec_bind_state (f : α → Prog E β) (p : Prog E α) (ws : List ω) (s : σ) :
    (exec H (p >>= f) ws s).state =
      (exec H (f (exec H p ws s).value) (exec H p ws s).rest (exec H p ws s).state).state := by
  rw [exec_bind]

@[simp] theorem exec_bind_events (f : α → Prog E β) (p : Prog E α) (ws : List ω) (s : σ) :
    (exec H (p >>= f) ws s).events = (exec H p ws s).events ++
      (exec H (f (exec H p ws s).value) (exec H p ws s).rest (exec H p ws s).state).events := by
  rw [exec_bind]

end Exec

/-! ### Part of a run -/

/-- From `s` the program `p` has got to `q`, in `t`. -/
inductive GetsTo (H : Handler E ω σ) (p : Prog E α) (s : σ) : Prog E α → σ → Prop
  | start : GetsTo H p s p s
  | call {c : E.Call} {k : E.Reply c → Prog E α} {t : σ} (w : ω) :
      GetsTo H p s (.call c k) t → GetsTo H p s (k (H c w t).1) (H c w t).2

/-- What is left of a program ends as the whole of it does. -/
theorem GetsTo.exec [Inhabited ω] {H : Handler E ω σ} {p q : Prog E α} {s t : σ}
    (h : GetsTo H p s q t) : ∀ ws : List ω, ∃ ws' : List ω,
      (exec H p ws' s).value = (exec H q ws t).value ∧
        (exec H p ws' s).state = (exec H q ws t).state := by
  induction h with
  | start => exact fun ws => ⟨ws, rfl, rfl⟩
  | call w _ ih => exact fun ws => ih (w :: ws)

/-- A program that has got to its end has run. -/
theorem GetsTo.done [Inhabited ω] {H : Handler E ω σ} {p : Prog E α} {a : α} {s t : σ}
    (h : GetsTo H p s (.ret a) t) : ∃ ws : List ω,
      (Effect.exec H p ws s).value = a ∧ (Effect.exec H p ws s).state = t :=
  h.exec []

/-- The calls of a run are calls the program can make. -/
theorem Prog.Calls.events [Inhabited ω] {H : Handler E ω σ} {K : E.Call → Prop} :
    ∀ {p : Prog E α}, p.Calls K → ∀ (ws : List ω) (s : σ), ∀ e ∈ (exec H p ws s).events, K e.call := by
  intro p
  induction p with
  | ret a => intro _ ws s e he; exact absurd he (by simp)
  | call c k ih =>
    intro hp ws s e he
    rw [exec_call] at he
    rcases List.mem_cons.mp he with rfl | he
    · exact hp.1
    · exact ih _ (hp.2 _) _ _ e he

/-- Once the choices are used up, each is the default one. -/
theorem exec_nil_choice [Inhabited ω] {H : Handler E ω σ} : ∀ (p : Prog E α) (s : σ),
    ∀ e ∈ (exec H p [] s).events, e.choice = default := by
  intro p
  induction p with
  | ret a => intro s e he; exact absurd he (by simp)
  | call c k ih =>
    intro s e he
    rw [exec_call] at he
    rcases List.mem_cons.mp he with rfl | he
    · rfl
    · exact ih _ _ e he

/-! ### The logic -/

/-- **Rely and guarantee.**  From `s` the program guarantees `B` of each call it
makes and `Q` of its end, as long as every call so far went as `A` allows. -/
def Safe (H : Handler E ω σ) (A B : CallEvent E ω σ → Prop) (Q : α → σ → Prop) :
    Prog E α → σ → Prop
  | .ret a, s => Q a s
  | .call c k, s => ∀ w, A ⟨c, w, s, (H c w s).2⟩ →
      B ⟨c, w, s, (H c w s).2⟩ ∧ Safe H A B Q (k (H c w s).1) (H c w s).2

section Logic

variable {H : Handler E ω σ} {A A' B B' : CallEvent E ω σ → Prop} {Q Q' : α → σ → Prop}

@[simp] theorem safe_ret {a : α} {s : σ} : Safe H A B Q (.ret a) s ↔ Q a s := Iff.rfl

theorem safe_call {c : E.Call} {k : E.Reply c → Prog E α} {s : σ} :
    Safe H A B Q (.call c k) s ↔ ∀ w, A ⟨c, w, s, (H c w s).2⟩ →
      B ⟨c, w, s, (H c w s).2⟩ ∧ Safe H A B Q (k (H c w s).1) (H c w s).2 := Iff.rfl

/-- `safe_call` for a call at the head of a sequence. -/
theorem safe_perform {c : E.Call} {R : β → σ → Prop} {f : E.Reply c → Prog E β} {s : σ} :
    Safe H A B R (Prog.perform c >>= f) s ↔ ∀ w, A ⟨c, w, s, (H c w s).2⟩ →
      B ⟨c, w, s, (H c w s).2⟩ ∧ Safe H A B R (f (H c w s).1) (H c w s).2 := Iff.rfl

/-- Sequencing: `p` has to end where the rest is safe. -/
theorem safe_bind {R : β → σ → Prop} {f : α → Prog E β} : ∀ {p : Prog E α} {s : σ},
    Safe H A B R (p >>= f) s ↔ Safe H A B (fun a t => Safe H A B R (f a) t) p s := by
  intro p
  induction p with
  | ret a => intro s; exact Iff.rfl
  | call c k ih =>
    intro s
    rw [Prog.call_bind, safe_call, safe_call]
    simp only [ih]

/-- A weaker world, a weaker guarantee and a weaker end are still safe. -/
theorem Safe.mono (hA : ∀ e, A' e → A e) (hB : ∀ e, B e → B' e) (hQ : ∀ a s, Q a s → Q' a s) :
    ∀ {p : Prog E α} {s : σ}, Safe H A B Q p s → Safe H A' B' Q' p s := by
  intro p
  induction p with
  | ret a => intro s h; exact hQ a s h
  | call c k ih =>
    intro s h w ha
    obtain ⟨hb, hk⟩ := h w (hA _ ha)
    exact ⟨hB _ hb, ih _ hk⟩

theorem Safe.post (hQ : ∀ a s, Q a s → Q' a s) {p : Prog E α} {s : σ}
    (h : Safe H A B Q p s) : Safe H A B Q' p s :=
  h.mono (fun _ ha => ha) (fun _ hb => hb) hQ

/-- Two facts about one program, proved apart, hold together. -/
theorem Safe.and : ∀ {p : Prog E α} {s : σ}, Safe H A B Q p s → Safe H A B' Q' p s →
    Safe H A (fun e => B e ∧ B' e) (fun a t => Q a t ∧ Q' a t) p s := by
  intro p
  induction p with
  | ret a => intro s h h'; exact ⟨h, h'⟩
  | call c k ih =>
    intro s h h' w ha
    exact ⟨⟨(h w ha).1, (h' w ha).1⟩, ih _ (h w ha).2 (h' w ha).2⟩

/-- What every call keeps that goes as guaranteed, the program keeps. -/
theorem Safe.keeps {I : σ → Prop}
    (h : ∀ c w s, B ⟨c, w, s, (H c w s).2⟩ → I s → I (H c w s).2) : ∀ {p : Prog E α} {s : σ},
    Safe H A B Q p s → I s → Safe H A (fun e => B e ∧ I e.after) (fun a t => Q a t ∧ I t) p s := by
  intro p
  induction p with
  | ret a => intro s hp hs; exact ⟨hp, hs⟩
  | call c k ih =>
    intro s hp hs w ha
    obtain ⟨hb, hk⟩ := hp w ha
    have ht := h c w s hb hs
    exact ⟨⟨hb, ht⟩, ih _ hk ht⟩

/-- With nothing guaranteed, every program is safe. -/
theorem safe_trivial : ∀ (p : Prog E α) (s : σ),
    Safe H A (fun _ => True) (fun _ _ => True) p s := by
  intro p
  induction p with
  | ret a => intro s; trivial
  | call c k ih => intro s w _; exact ⟨trivial, ih _ _⟩

/-- **The frame rule.**  What the calls in `K` cannot break, a program that
makes no others cannot break. -/
theorem safe_frame {K : E.Call → Prop} {I : σ → Prop}
    (h : ∀ c w s, K c → A ⟨c, w, s, (H c w s).2⟩ → I s → I (H c w s).2) :
    ∀ {p : Prog E α}, p.Calls K → ∀ {s : σ}, I s →
      Safe H A (fun e => I e.after) (fun _ t => I t) p s := by
  intro p
  induction p with
  | ret a => intro _ s hs; exact hs
  | call c k ih =>
    intro hp s hs w ha
    have hI := h c w s hp.1 ha hs
    exact ⟨hI, ih _ (hp.2 _) hI⟩

/-- Calls that change nothing leave everything as it was. -/
theorem safe_same {p : Prog E α} (hp : p.Calls fun c => ∀ w s, (H c w s).2 = s) (s : σ) :
    Safe H A (fun e => e.after = s) (fun _ t => t = s) p s :=
  safe_frame (I := fun t => t = s) (fun c w t hc _ ht => by rw [hc, ht]) hp rfl

/-- **The loop rule.**  What every job keeps, any list of jobs keeps. -/
theorem safe_each {J : Type} {body : J → Prog E α} {I : σ → Prop}
    (h : ∀ j s, I s → Safe H A B (fun _ t => I t) (body j) s) :
    ∀ (js : List J) {s : σ}, I s → Safe H A B (fun _ t => I t) (Prog.each body js) s := by
  intro js
  induction js with
  | nil => intro s hs; exact hs
  | cons j js ih =>
    intro s hs
    exact safe_bind.mpr ((h j s hs).post fun _ t ht => ih ht)

/-- **Reading a safe program off a run.** -/
theorem Safe.exec [Inhabited ω] : ∀ {p : Prog E α} {s : σ}, Safe H A B Q p s → ∀ ws : List ω,
    (∀ e ∈ (exec H p ws s).events, A e) →
      (∀ e ∈ (exec H p ws s).events, B e) ∧ Q (exec H p ws s).value (exec H p ws s).state := by
  intro p
  induction p with
  | ret a => intro s h ws _; exact ⟨fun e he => absurd he (by simp), h⟩
  | call c k ih =>
    intro s h ws hA
    rw [exec_call] at hA ⊢
    obtain ⟨hb, hk⟩ := h (ws.headD default) (hA _ List.mem_cons_self)
    obtain ⟨hB, hQ⟩ := ih _ hk ws.tail (fun e he => hA e (List.mem_cons_of_mem _ he))
    refine ⟨fun e he => ?_, hQ⟩
    rcases List.mem_cons.mp he with rfl | he
    · exact hb
    · exact hB e he

/-- Where a program ends, a run of it does. -/
theorem safe_reached [Inhabited ω] : ∀ (p : Prog E α) (s : σ),
    Safe H (fun _ => True) (fun _ => True)
      (fun a t => ∃ ws, (Effect.exec H p ws s).value = a ∧ (Effect.exec H p ws s).state = t) p s := by
  intro p
  induction p with
  | ret a => intro s; exact ⟨[], rfl, rfl⟩
  | call c k ih =>
    intro s w _
    exact ⟨trivial, (ih _ _).post fun a t ⟨ws, h⟩ => ⟨w :: ws, h⟩⟩

/-- With nothing asked of the world, every run ends in `Q`. -/
theorem Safe.exec_total [Inhabited ω] {p : Prog E α} {s : σ}
    (h : Safe H (fun _ => True) B Q p s) (ws : List ω) :
    (∀ e ∈ (Effect.exec H p ws s).events, B e) ∧
      Q (Effect.exec H p ws s).value (Effect.exec H p ws s).state :=
  h.exec ws (fun _ _ => trivial)

end Logic

/-! ### Postconditions on the trace -/

/-- From `s`, every run of the program ends with events, a value and a state in
`Q`. -/
def Ends (H : Handler E ω σ) (Q : List (CallEvent E ω σ) → α → σ → Prop) : Prog E α → σ → Prop
  | .ret a, s => Q [] a s
  | .call c k, s => ∀ w,
      Ends H (fun es => Q (⟨c, w, s, (H c w s).2⟩ :: es)) (k (H c w s).1) (H c w s).2

section Trace

variable {H : Handler E ω σ}

@[simp] theorem ends_ret {Q : List (CallEvent E ω σ) → α → σ → Prop} {a : α} {s : σ} :
    Ends H Q (.ret a) s ↔ Q [] a s := Iff.rfl

theorem ends_perform {c : E.Call} {Q : List (CallEvent E ω σ) → β → σ → Prop}
    {f : E.Reply c → Prog E β} {s : σ} :
    Ends H Q (Prog.perform c >>= f) s ↔ ∀ w,
      Ends H (fun es => Q (⟨c, w, s, (H c w s).2⟩ :: es)) (f (H c w s).1) (H c w s).2 := Iff.rfl

theorem Ends.post : ∀ {p : Prog E α} {Q Q' : List (CallEvent E ω σ) → α → σ → Prop} {s : σ},
    (∀ es a t, Q es a t → Q' es a t) → Ends H Q p s → Ends H Q' p s := by
  intro p
  induction p with
  | ret a => intro Q Q' s hQ h; exact hQ _ _ _ h
  | call c k ih => intro Q Q' s hQ h w; exact ih _ (fun es => hQ _) (h w)

theorem ends_bind {f : α → Prog E β} : ∀ {p : Prog E α}
    {Q : List (CallEvent E ω σ) → β → σ → Prop} {s : σ},
    Ends H Q (p >>= f) s ↔ Ends H (fun es a t => Ends H (fun es' => Q (es ++ es')) (f a) t) p s := by
  intro p
  induction p with
  | ret a => intro Q s; exact Iff.rfl
  | call c k ih =>
    intro Q s
    constructor
    · intro h w; exact (ih _).mp (h w)
    · intro h w; exact (ih _).mpr (h w)

/-- **Reading the trace off a run.** -/
theorem Ends.exec [Inhabited ω] : ∀ {p : Prog E α}
    {Q : List (CallEvent E ω σ) → α → σ → Prop} {s : σ}, Ends H Q p s → ∀ ws : List ω,
      Q (exec H p ws s).events (exec H p ws s).value (exec H p ws s).state := by
  intro p
  induction p with
  | ret a => intro Q s h ws; exact h
  | call c k ih => intro Q s h ws; exact ih _ (h (ws.headD default)) ws.tail

theorem ends_trivial : ∀ (p : Prog E α) (s : σ), Ends H (fun _ _ _ => True) p s := by
  intro p
  induction p with
  | ret a => intro s; trivial
  | call c k ih => intro s w; exact ih _ _

theorem Ends.and : ∀ {p : Prog E α} {Q Q' : List (CallEvent E ω σ) → α → σ → Prop} {s : σ},
    Ends H Q p s → Ends H Q' p s → Ends H (fun es a t => Q es a t ∧ Q' es a t) p s := by
  intro p
  induction p with
  | ret a => intro Q Q' s h h'; exact ⟨h, h'⟩
  | call c k ih => intro Q Q' s h h' w; exact ih _ (h w) (h' w)

/-- The trace of a program holds calls it can make. -/
theorem Prog.Calls.ends {K : E.Call → Prop} : ∀ {p : Prog E α}, p.Calls K → ∀ s : σ,
    Ends H (fun es _ _ => ∀ e ∈ es, K e.call) p s := by
  intro p
  induction p with
  | ret a => intro _ s e he; exact absurd he (by simp)
  | call c k ih =>
    intro hp s w
    refine (ih _ (hp.2 _) _).post fun es _ _ ht e he => ?_
    rcases List.mem_cons.mp he with rfl | he
    · exact hp.1
    · exact ht e he

/-- What `Safe` says of each event, read off the trace. -/
theorem Safe.ends {B : CallEvent E ω σ → Prop} {Q : α → σ → Prop} : ∀ {p : Prog E α} {s : σ},
    Safe H (fun _ => True) B Q p s → Ends H (fun es a t => (∀ e ∈ es, B e) ∧ Q a t) p s := by
  intro p
  induction p with
  | ret a => intro s h; exact ⟨fun e he => absurd he (by simp), h⟩
  | call c k ih =>
    intro s h w
    refine (ih _ (h w trivial).2).post fun es a t ht => ⟨fun e he => ?_, ht.2⟩
    rcases List.mem_cons.mp he with rfl | he
    · exact (h w trivial).1
    · exact ht.1 e he

/-- **The frame rule for traces.**  A relation between the two ends of a trace
that composes holds of a program when it holds of each call it can make. -/
theorem ends_frame {K : E.Call → Prop} {T : σ → List (CallEvent E ω σ) → σ → Prop}
    (refl : ∀ s, T s [] s)
    (step : ∀ c w s es t, K c → T (H c w s).2 es t → T s (⟨c, w, s, (H c w s).2⟩ :: es) t) :
    ∀ {p : Prog E α}, p.Calls K → ∀ s : σ, Ends H (fun es _ t => T s es t) p s := by
  intro p
  induction p with
  | ret a => intro _ s; exact refl s
  | call c k ih =>
    intro hp s w
    exact (ih _ (hp.2 _) _).post fun es _ t ht => step c w s es t hp.1 ht

end Trace

/-! ### Jobs one after another -/

/-- **Rounds.**  The program of each job is run once, in the order of the list and
from where the one before has stopped, whatever that one has returned. -/
inductive Rounds [Inhabited ω] {J : Type} (H : Handler E ω σ) (body : J → Prog E α) :
    List J → σ → List (CallEvent E ω σ) → σ → Prop
  | nil (s : σ) : Rounds H body [] s [] s
  | cons {j : J} {js : List J} {s t : σ} {es : List (CallEvent E ω σ)} (ws : List ω) :
      Rounds H body js (exec H (body j) ws s).state es t →
      Rounds H body (j :: js) s ((exec H (body j) ws s).events ++ es) t

section Rounds

variable [Inhabited ω] {H : Handler E ω σ} {J : Type} {body : J → Prog E α} {js : List J} {s t : σ}
  {es : List (CallEvent E ω σ)}

/-- Every trace is that of a run. -/
theorem ends_exec : ∀ (p : Prog E α) (s : σ),
    Ends H (fun es a t => ∃ ws, exec H p ws s = ⟨a, t, [], es⟩) p s := by
  intro p
  induction p with
  | ret a => intro s; exact ⟨[], rfl⟩
  | call c k ih =>
    intro s w
    refine (ih _ _).post fun es a t ⟨ws, h⟩ => ⟨w :: ws, ?_⟩
    rw [exec_call, List.headD_cons, List.tail_cons, h]

/-- `each` goes through the rounds. -/
theorem ends_each (body : J → Prog E α) : ∀ (js : List J) (s : σ),
    Ends H (fun es _ t => Rounds H body js s es t) (Prog.each body js) s := by
  intro js
  induction js with
  | nil => intro s; exact .nil s
  | cons j js ih =>
    intro s
    refine ends_bind.mpr ((ends_exec (body j) s).post fun es a t ⟨ws, h⟩ => ?_)
    obtain ⟨rfl, rfl⟩ : (exec H (body j) ws s).events = es ∧ (exec H (body j) ws s).state = t :=
      ⟨congrArg Run.events h, congrArg Run.state h⟩
    exact (ih _).post fun es' _ u hu => .cons ws hu

/-- The same jobs under other names. -/
theorem Rounds.map {K : Type} {f : J → K} {body' : K → Prog E α} (hf : ∀ j, body' (f j) = body j)
    (h : Rounds H body js s es t) : Rounds H body' (js.map f) s es t := by
  induction h with
  | nil s => exact .nil s
  | cons ws _ ih =>
    rw [← hf] at ih ⊢
    exact .cons ws ih

/-- Where each job makes one call, these are the calls. -/
theorem Rounds.calls {c : J → E.Call}
    (hbody : ∀ j ws s, (exec H (body j) ws s).events.map CallEvent.call = [c j])
    (h : Rounds H body js s es t) : es.map CallEvent.call = js.map c := by
  induction h with
  | nil => rfl
  | cons ws _ ih => rw [List.map_append, hbody, ih, List.map_cons, List.singleton_append]

/-- Each job has its part of the trace. -/
theorem Rounds.parts {Q : J → List (CallEvent E ω σ) → Prop}
    (hbody : ∀ j s, Ends H (fun es _ _ => Q j es) (body j) s) (h : Rounds H body js s es t) :
    ∃ parts, es = parts.flatten ∧ List.Forall₂ Q js parts := by
  induction h with
  | nil => exact ⟨[], rfl, .nil⟩
  | @cons j js s _ _ ws _ ih =>
    obtain ⟨parts, hes, hparts⟩ := ih
    exact ⟨_ :: parts, by rw [hes, List.flatten_cons], .cons ((hbody j s).exec ws) hparts⟩

/-- What every job keeps, the rounds keep. -/
theorem Rounds.safe {B : CallEvent E ω σ → Prop} {I : σ → Prop} (h : Rounds H body js s es t) :
    (∀ j ∈ js, ∀ s, I s → Safe H (fun _ => True) B (fun _ t => I t) (body j) s) → I s →
      (∀ e ∈ es, B e) ∧ I t := by
  induction h with
  | nil s => exact fun _ hs => ⟨fun e he => absurd he (by simp), hs⟩
  | @cons j js s t es ws _ ih =>
    intro hbody hs
    obtain ⟨hB, hI⟩ := (hbody j List.mem_cons_self s hs).exec_total ws
    obtain ⟨hB', hI'⟩ := ih (fun j hj => hbody j (List.mem_cons_of_mem _ hj)) hI
    exact ⟨List.forall_mem_append.mpr ⟨hB, hB'⟩, hI'⟩

end Rounds

end Effect
