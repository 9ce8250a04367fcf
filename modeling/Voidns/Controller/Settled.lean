import Voidns.Controller.Basic

/-!
# What a command leaves behind

Between two commands the controller is `Settled`: connected, with one proxy
running, or not, with none.  What is known of the redirector in the two cases
stays open, as two properties `Up` and `Down` of it; `Keeps` is what its methods
have to do for them.  `connect_safe` and `disconnect_safe` go through the two
commands once, with every step free to fail, and say of each step that it is
`Orderly`: no proxy is missing while the redirector may be up.

Every property of runs of commands is then a choice of `Up` and `Down`.
-/

namespace Voidns.Controller

open Effect

variable {ω ρ : Type}

/-- The controller between two commands. -/
inductive Settled (Up Down : ρ → Prop) (c : Controller ρ) : Prop
  | connected (p : DohProxy) : c.proxy = some p → c.running = [p] →
      c.status = connectedStatus p.upstream.label p.listen → Up c.redirector → Settled Up Down c
  | disconnected : c.proxy = none → c.running = [] →
      c.status = .disconnected ∨ (∃ e, c.status = errorStatus e) → Down c.redirector →
      Settled Up Down c

/-- What the methods of the redirector do for `Up` and `Down`, where the world
keeps to `A`. -/
structure Keeps (R : DnsRedirector ω ρ)
    (A : CallEvent sig (Choice ω) (Controller ρ) → Prop) (Up Down : ρ → Prop) : Prop where
  apply : ∀ w c, A ⟨.apply .localhost, w, c, (handler R (.apply .localhost) w c).2⟩ →
    Down c.redirector →
      ((R.apply .localhost w.os c.redirector).1 = .ok () →
        Up (R.apply .localhost w.os c.redirector).2) ∧
      ∀ e, (R.apply .localhost w.os c.redirector).1 = .error e →
        Down (R.apply .localhost w.os c.redirector).2
  restore : ∀ w c, A ⟨.restore, w, c, (handler R .restore w c).2⟩ →
    Up c.redirector ∨ Down c.redirector → Down (R.restore w.os c.redirector).2
  flush : ∀ w r, (Up r → Up (R.flushCache w r).2) ∧ (Down r → Down (R.flushCache w r).2)

/-- One step of a command, in its place. -/
structure Orderly (Up Down : ρ → Prop) (e : CallEvent sig (Choice ω) (Controller ρ)) : Prop where
  covered : e.after.running = [] → Down e.after.redirector
  either : Up e.after.redirector ∨ Down e.after.redirector
  apply : ∀ ip, e.call = .apply ip → Down e.before.redirector
  putProxy : ∀ p, e.call = .putProxy p → e.before.proxy = none

/-- A step that only looks. -/
theorem Settled.orderly {Up Down : ρ → Prop} {c : Controller ρ} (h : Settled Up Down c) {call : Call}
    (hcall : call = .status ∨ call = .subscribe) (w : Choice ω) :
    Orderly Up Down ⟨call, w, c, c⟩ := by
  have happly : ∀ ip, call ≠ .apply ip := by rcases hcall with rfl | rfl <;> simp
  have hput : ∀ p, call ≠ .putProxy p := by rcases hcall with rfl | rfl <;> simp
  cases h with
  | connected p _ hr _ hu =>
    exact ⟨fun hn => absurd (hr.symm.trans hn) (by simp), .inl hu,
      fun ip he => absurd he (happly ip), fun q he => absurd he (hput q)⟩
  | disconnected _ _ _ hd =>
    exact ⟨fun _ => hd, .inr hd, fun ip he => absurd he (happly ip),
      fun q he => absurd he (hput q)⟩

/-- What a `connect` has done: nothing when the controller was connected, and
otherwise no proxy but one for `upstream` is there. -/
def Served (upstream : UpstreamSel) (c t : Controller ρ) : Prop :=
  (c.proxy ≠ none ∧ t = c) ∨ (c.proxy = none ∧ ∀ p, t.proxy = some p → p.upstream = upstream)

section Commands

variable {R : DnsRedirector ω ρ} {A : CallEvent sig (Choice ω) (Controller ρ) → Prop}
  {Up Down : ρ → Prop}

/-- The end of every branch of `connect` that has failed. -/
theorem fail_safe {c : Controller ρ} (e : Error) (hp : c.proxy = none) (hr : c.running = [])
    (hd : Down c.redirector) :
    Safe (handler R) A (Orderly Up Down)
      (fun st t => Settled Up Down t ∧ st = t.status ∧ t.proxy = none)
      (do set (errorStatus e); readStatus) c := by
  refine safe_perform.mpr fun w _ => ⟨⟨fun _ => hd, .inr hd, nofun, nofun⟩, fun w _ => ?_⟩
  exact ⟨⟨fun _ => hd, .inr hd, nofun, nofun⟩, .disconnected hp hr (.inr ⟨e, rfl⟩) hd, rfl, hp⟩

theorem redirectTo_safe (hk : Keeps R A Up Down) (upstream : UpstreamSel) (port : UInt16)
    {proxy : DohProxy} (hl : proxy.listen = ⟨.localhost, port⟩) (hu : proxy.upstream = upstream)
    {c : Controller ρ} (hp : c.proxy = none) (hr : c.running = [proxy]) (hd : Down c.redirector) :
    Safe (handler R) A (Orderly Up Down)
      (fun st t => Settled Up Down t ∧ st = t.status ∧ ∀ p, t.proxy = some p → p.upstream = upstream)
      (redirectTo upstream ⟨.localhost, port⟩ proxy) c := by
  have hgone : ∀ {d : Controller ρ}, d.running = [proxy] → d.gone proxy = [] := by
    intro d hd
    rw [gone, hd]
    simp
  have hne : ∀ {d : Controller ρ}, d.running = [proxy] → d.running ≠ [] := by
    intro d hd
    rw [hd]
    simp
  refine safe_perform.mpr fun w hA => ?_
  obtain ⟨hok, herr⟩ := hk.apply w c hA hd
  cases ha : (R.apply .localhost w.os c.redirector).1 with
  | error e =>
    have he : handler R (.apply .localhost) w c = (.error e,
        { c with redirector := (R.apply .localhost w.os c.redirector).2 }) :=
      Prod.ext ha rfl
    have hd' := herr e ha
    rw [he]
    refine ⟨⟨fun _ => hd', .inr hd', fun _ _ => hd, nofun⟩, safe_perform.mpr fun w _ => ?_⟩
    refine ⟨⟨fun _ => hd', .inr hd', nofun, nofun⟩,
      Safe.post (fun st t ht => ?_) (fail_safe e hp (hgone hr) hd')⟩
    exact ⟨ht.1, ht.2.1, fun p hq => absurd (ht.2.2.symm.trans hq) (by simp)⟩
  | ok _ =>
    have he : handler R (.apply .localhost) w c = (.ok (),
        { c with redirector := (R.apply .localhost w.os c.redirector).2 }) :=
      Prod.ext ha rfl
    have hup := hok ha
    rw [he]
    refine ⟨⟨fun hn => absurd hn (hne hr), .inl hup, fun _ _ => hd, nofun⟩, ?_⟩
    refine safe_perform.mpr fun w _ => ?_
    have hup := (hk.flush w.os _).1 hup
    refine ⟨⟨fun hn => absurd hn (hne hr), .inl hup, nofun, nofun⟩, safe_perform.mpr fun w _ => ?_⟩
    rw [handler_putProxy R w (by exact hp)]
    refine ⟨⟨fun hn => absurd hn (hne hr), .inl hup, nofun, fun _ _ => hp⟩, ?_⟩
    refine safe_perform.mpr fun w _ => ?_
    rw [handler_set]
    refine ⟨⟨fun hn => absurd hn (hne hr), .inl hup, nofun, nofun⟩, safe_perform.mpr fun w _ => ?_⟩
    rw [handler_status]
    refine ⟨⟨fun hn => absurd hn (hne hr), .inl hup, nofun, nofun⟩, ?_⟩
    refine ⟨.connected proxy rfl hr (by rw [hl, hu]) hup, rfl, fun p hq => ?_⟩
    rw [← Option.some.inj hq, hu]

/-- **A `connect`**, whatever fails in it. -/
theorem connect_safe (hk : Keeps R A Up Down) (upstream : UpstreamSel) {c : Controller ρ}
    (h : Settled Up Down c) :
    Safe (handler R) A (Orderly Up Down)
      (fun st t => Settled Up Down t ∧ st = t.status ∧ Served upstream c t)
      (connect upstream) c := by
  refine safe_perform.mpr fun w _ => ?_
  rw [handler_status]
  cases h with
  | connected p hp hr hs hu =>
    refine ⟨⟨fun hn => absurd (hr.symm.trans hn) (by simp), .inl hu, nofun, nofun⟩, ?_⟩
    rw [if_pos (Or.inl (by rw [hs]; rfl))]
    exact ⟨.connected p hp hr hs hu, rfl, .inl ⟨by rw [hp]; simp, rfl⟩⟩
  | disconnected hp hr hs hd =>
    refine ⟨⟨fun _ => hd, .inr hd, nofun, nofun⟩, ?_⟩
    have hidle : ¬ (c.status.state = .connected ∨ c.status.state = .connecting) := by
      rcases hs with hs | ⟨e, hs⟩ <;> rw [hs] <;> simp [Status.disconnected, errorStatus]
    rw [if_neg hidle]
    refine safe_perform.mpr fun w _ => ?_
    rw [handler_set]
    refine ⟨⟨fun _ => hd, .inr hd, nofun, nofun⟩, safe_perform.mpr fun w _ => ?_⟩
    rw [handler_port]
    refine ⟨⟨fun _ => hd, .inr hd, nofun, nofun⟩, safe_perform.mpr fun w _ => ?_⟩
    rcases start_cases R w _ ⟨.localhost, c.port⟩ upstream with ⟨e, he⟩ | he
    · rw [he]
      refine ⟨⟨fun _ => hd, .inr hd, nofun, nofun⟩,
        Safe.post (fun st t ht => ?_) (fail_safe e hp hr hd)⟩
      exact ⟨ht.1, ht.2.1, .inr ⟨hp, fun p hq => absurd (ht.2.2.symm.trans hq) (by simp)⟩⟩
    · rw [he]
      refine ⟨⟨fun _ => hd, .inr hd, nofun, nofun⟩, ?_⟩
      have hr' : c.running ++ [⟨c.started, ⟨.localhost, c.port⟩, upstream⟩] =
          [⟨c.started, ⟨.localhost, c.port⟩, upstream⟩] := by rw [hr, List.nil_append]
      refine Safe.post (fun st t ht => ?_) (redirectTo_safe hk upstream c.port rfl rfl hp hr' hd)
      exact ⟨ht.1, ht.2.1, .inr ⟨hp, ht.2.2⟩⟩

/-- The end of both branches of `disconnect`. -/
theorem finishDisconnect_safe (hk : Keeps R A Up Down) {c : Controller ρ} (hp : c.proxy = none)
    (hr : c.running = []) (hd : Down c.redirector) :
    Safe (handler R) A (Orderly Up Down)
      (fun st t => Settled Up Down t ∧ st = t.status ∧ t.proxy = none) finishDisconnect c := by
  refine safe_perform.mpr fun w _ => ?_
  have hd := (hk.flush w.os _).2 hd
  refine ⟨⟨fun _ => hd, .inr hd, nofun, nofun⟩, safe_perform.mpr fun w _ => ?_⟩
  refine ⟨⟨fun _ => hd, .inr hd, nofun, nofun⟩, safe_perform.mpr fun w _ => ?_⟩
  exact ⟨⟨fun _ => hd, .inr hd, nofun, nofun⟩, .disconnected hp hr (.inl rfl) hd, rfl, hp⟩

/-- **A `disconnect`**, whatever fails in it. -/
theorem disconnect_safe (hk : Keeps R A Up Down) {c : Controller ρ} (h : Settled Up Down c) :
    Safe (handler R) A (Orderly Up Down)
      (fun st t => Settled Up Down t ∧ st = t.status ∧ t.proxy = none) disconnect c := by
  have hud : Up c.redirector ∨ Down c.redirector := by
    cases h with
    | connected _ _ _ _ hu => exact .inl hu
    | disconnected _ _ _ hd => exact .inr hd
  refine safe_perform.mpr fun w hA => ?_
  have hd := hk.restore w c hA hud
  refine ⟨⟨fun _ => hd, .inr hd, nofun, nofun⟩, safe_perform.mpr fun w _ => ?_⟩
  refine ⟨⟨fun _ => hd, .inr hd, nofun, nofun⟩, ?_⟩
  rw [handler_takeProxy]
  cases h with
  | connected p hp hr hs hu =>
    rw [show (handler R .restore _ c).2.proxy = some p from hp]
    refine safe_perform.mpr fun w _ => ⟨⟨fun _ => hd, .inr hd, nofun, nofun⟩, ?_⟩
    refine finishDisconnect_safe hk rfl ?_ hd
    show c.gone p = []
    rw [gone, hr]
    simp
  | disconnected hp hr hs _ =>
    rw [show (handler R .restore _ c).2.proxy = none from hp]
    exact finishDisconnect_safe hk rfl hr hd

theorem finishDisconnect_ends (R : DnsRedirector ω ρ) {c : Controller ρ} (hp : c.proxy = none) :
    Safe (handler R) (fun _ => True) (fun _ => True)
      (fun st t => st = .disconnected ∧ t.proxy = none ∧ t.status = .disconnected)
      finishDisconnect c := by
  refine safe_perform.mpr fun w _ => ⟨trivial, safe_perform.mpr fun w _ => ⟨trivial, ?_⟩⟩
  exact safe_perform.mpr fun w _ => ⟨trivial, rfl, hp, rfl⟩

/-- **A `disconnect` ends disconnected**, whatever it finds and whatever fails. -/
theorem disconnect_ends (R : DnsRedirector ω ρ) (c : Controller ρ) :
    Safe (handler R) (fun _ => True) (fun _ => True)
      (fun st t => st = .disconnected ∧ t.proxy = none ∧ t.status = .disconnected) disconnect c := by
  refine safe_perform.mpr fun w _ => ⟨trivial, safe_perform.mpr fun w _ => ⟨trivial, ?_⟩⟩
  rw [handler_takeProxy]
  cases (handler R .restore _ c).2.proxy with
  | none => exact finishDisconnect_ends R rfl
  | some proxy => exact safe_perform.mpr fun w _ => ⟨trivial, finishDisconnect_ends R rfl⟩

/-- Either command keeps the controller settled. -/
theorem request_safe (hk : Keeps R A Up Down) (request : Request) {c : Controller ρ}
    (h : Settled Up Down c) :
    Safe (handler R) A (Orderly Up Down) (fun st t => Settled Up Down t ∧ st = t.status)
      request.body c := by
  cases request with
  | connect upstream => exact (connect_safe hk upstream h).post fun _ _ ht => ⟨ht.1, ht.2.1⟩
  | disconnect => exact (disconnect_safe hk h).post fun _ _ ht => ⟨ht.1, ht.2.1⟩

/-- **Any commands**, one after another, keep it settled, and every step on the
way is orderly. -/
theorem session_safe (hk : Keeps R A Up Down) (requests : List Request) {c : Controller ρ}
    (h : Settled Up Down c) :
    Safe (handler R) A (Orderly Up Down) (fun _ t => Settled Up Down t) (session requests) c :=
  safe_each (fun request _ hs => (request_safe hk request hs).post fun _ _ ht => ht.1) requests h

end Commands

theorem Settled.down {Up Down : ρ → Prop} {c : Controller ρ} (h : Settled Up Down c)
    (hp : c.proxy = none) : Down c.redirector := by
  cases h with
  | connected p hp' _ _ _ => exact absurd (hp.symm.trans hp') (by simp)
  | disconnected _ _ _ hd => exact hd

/-- Between two commands the controller is not connecting. -/
theorem Settled.notConnecting {Up Down : ρ → Prop} {c : Controller ρ} (h : Settled Up Down c) :
    c.status.state ≠ .connecting := by
  cases h with
  | connected _ _ _ hs _ => rw [hs]; simp [connectedStatus]
  | disconnected _ _ hs _ => rcases hs with hs | ⟨e, hs⟩ <;> rw [hs] <;> simp [Status.disconnected, errorStatus]

theorem new_settled {Up Down : ρ → Prop} (port : UInt16) {redirector : ρ} (h : Down redirector) :
    Settled Up Down (new port redirector) :=
  .disconnected rfl rfl (.inl rfl) h

end Voidns.Controller
