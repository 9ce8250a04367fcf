import Voidns.Controller.Settled

/-!
# No black hole

The system DNS must not point at an address where nothing listens.  All that is
known of the redirector is the contract of its trait; under it a run of commands
has a black hole in some state exactly when DNS pointed at the proxy before the
first command, or when a `restore` has failed while DNS pointed at it:
`disconnect` discards that error and stops the proxy all the same.
-/

namespace Voidns.Controller

open Effect

variable {ω ρ Dns : Type}

/-- If the system DNS points at the proxy's address, a proxy is running. -/
def NoBlackHole (dns : ρ → Dns) (pointsAt : IpAddr → Dns) (c : Controller ρ) : Prop :=
  dns c.redirector = pointsAt .localhost → c.running ≠ []

instance [DecidableEq Dns] (dns : ρ → Dns) (pointsAt : IpAddr → Dns) :
    DecidablePred (NoBlackHole dns pointsAt) := fun _ => inferInstanceAs (Decidable (_ → _))

/-- A `restore` under a redirect succeeds. -/
def Restores (R : DnsRedirector ω ρ) (dns : ρ → Dns) (pointsAt : IpAddr → Dns)
    (e : CallEvent sig (Choice ω) (Controller ρ)) : Prop :=
  e.call.isRestore = true → dns e.before.redirector = pointsAt .localhost →
    (R.restore e.choice.os e.before.redirector).1 = .ok ()

instance [DecidableEq Dns] (R : DnsRedirector ω ρ) (dns : ρ → Dns) (pointsAt : IpAddr → Dns) :
    DecidablePred (Restores R dns pointsAt) := fun _ => inferInstanceAs (Decidable (_ → _ → _))

section Contract

variable {R : DnsRedirector ω ρ} {dns : ρ → Dns} {pointsAt : IpAddr → Dns}
  {prior : ρ → Option Dns}

/-- DNS points at the proxy, and what it replaced is owed. -/
def Owing (dns : ρ → Dns) (pointsAt : IpAddr → Dns) (prior : ρ → Option Dns) (r : ρ) : Prop :=
  dns r = pointsAt .localhost ∧ ∃ d, prior r = some d ∧ d ≠ pointsAt .localhost

/-- DNS does not point at the proxy, and nothing is owed. -/
def Clear (dns : ρ → Dns) (pointsAt : IpAddr → Dns) (prior : ρ → Option Dns) (r : ρ) : Prop :=
  dns r ≠ pointsAt .localhost ∧ prior r = none

theorem keeps_of_contract (hC : Contract R dns pointsAt prior) :
    Keeps R (Restores R dns pointsAt) (Owing dns pointsAt prior) (Clear dns pointsAt prior) where
  apply w c _ hd := by
    refine ⟨fun ha => ⟨hC.apply_ok _ _ _ ha, _, hC.apply_ok_prior _ _ _ ha hd.2, hd.1⟩, ?_⟩
    intro e he
    obtain ⟨h1, h2⟩ := hC.apply_error _ _ _ e he
    exact ⟨by rw [h1]; exact hd.1, by rw [h2]; exact hd.2⟩
  restore w c hA h := by
    cases hr : (R.restore w.os c.redirector).1 with
    | ok _ =>
      obtain ⟨h1, h2⟩ := hC.restore_ok _ _ hr
      refine ⟨?_, h2⟩
      rw [h1]
      rcases h with ⟨_, d, hp, hd⟩ | ⟨hn, hp⟩
      · rw [hp]; exact hd
      · rw [hp]; exact hn
    | error e =>
      rcases h with ⟨hp, _⟩ | ⟨hn, hp⟩
      · exact absurd ((hA rfl hp).symm.trans hr) (by simp)
      · obtain ⟨h1, h2⟩ := hC.restore_error _ _ e hr
        refine ⟨by rw [h1]; exact hn, ?_⟩
        rcases h2 with h2 | h2
        · rw [h2]; exact hp
        · exact h2
  flush w r := by
    obtain ⟨h1, h2⟩ := hC.flush w r
    exact ⟨fun h => by rw [Owing, h1, h2]; exact h, fun h => by rw [Clear, h1, h2]; exact h⟩

theorem Orderly.noBlackHole {Up : ρ → Prop} {e : CallEvent sig (Choice ω) (Controller ρ)}
    (h : Orderly Up (Clear dns pointsAt prior) e) : NoBlackHole dns pointsAt e.after :=
  fun hp hr => (h.covered hr).1 hp

/-! ### A failed `restore` ends in the black hole -/

/-- After a `restore` that has failed under a redirect, `disconnect` goes on to
stop the proxy. -/
theorem killProxy_unsafe {c : Controller ρ} {p : DohProxy} (hp : c.proxy = some p)
    (hr : c.running = [p]) (hd : dns c.redirector = pointsAt .localhost) :
    Safe (handler R) (fun e => NoBlackHole dns pointsAt e.after) (fun _ => True) (fun _ _ => False)
      killProxy c := by
  refine safe_perform.mpr fun w _ => ⟨trivial, ?_⟩
  rw [handler_takeProxy, hp]
  refine safe_perform.mpr fun w hA => absurd ?_ (hA hd)
  show c.gone p = []
  rw [gone, hr]
  simp

theorem connect_notRestore (upstream : UpstreamSel) :
    (connect upstream).Calls fun c : Call => c.isRestore = false := by
  refine Prog.calls_perform.mpr ⟨rfl, fun status => ?_⟩
  split
  · trivial
  · refine Prog.calls_perform.mpr ⟨rfl, fun _ => Prog.calls_perform.mpr ⟨rfl, fun port => ?_⟩⟩
    refine Prog.calls_perform.mpr ⟨rfl, fun r => ?_⟩
    cases r with
    | error e => exact ⟨rfl, fun _ => .perform rfl⟩
    | ok proxy =>
      refine Prog.calls_perform.mpr ⟨rfl, fun r => ?_⟩
      cases r with
      | error e => exact ⟨rfl, fun _ => ⟨rfl, fun _ => .perform rfl⟩⟩
      | ok _ => exact ⟨rfl, fun _ => ⟨rfl, fun _ => ⟨rfl, fun _ => .perform rfl⟩⟩⟩

theorem killProxy_notRestore : killProxy.Calls fun c : Call => c.isRestore = false :=
  killProxy_afterRestore.mono fun c hc => by cases c <;> simp [Call.afterRestore, Call.isRestore] at *

theorem request_restores [Inhabited ω] (hC : Contract R dns pointsAt prior) (request : Request)
    {c : Controller ρ} (h : Settled (Owing dns pointsAt prior) (Clear dns pointsAt prior) c)
    (ws : List (Choice ω))
    (hN : ∀ e ∈ (exec (handler R) request.body ws c).events, NoBlackHole dns pointsAt e.after) :
    ∀ e ∈ (exec (handler R) request.body ws c).events, Restores R dns pointsAt e := by
  cases request with
  | connect upstream =>
    intro e he hr
    exact absurd (hr.symm.trans ((connect_notRestore upstream).events ws c e he)) (by simp)
  | disconnect =>
    have hx : (exec (handler R) Request.disconnect.body ws c).events =
        ⟨.restore, ws.headD default, c, (handler R .restore (ws.headD default) c).2⟩ ::
          (exec (handler R) killProxy ws.tail (handler R .restore (ws.headD default) c).2).events :=
      rfl
    rw [hx] at hN ⊢
    intro e he hr hd
    rcases List.mem_cons.mp he with rfl | he
    · cases hres : (R.restore (ws.headD default).os c.redirector).1 with
      | ok _ => rfl
      | error err =>
        cases h with
        | disconnected _ _ _ hc => exact absurd hd hc.1
        | connected p hp hrun _ _ =>
          have hd' : dns (R.restore (ws.headD default).os c.redirector).2 = pointsAt .localhost := by
            rw [(hC.restore_error _ _ err hres).1]; exact hd
          have hfalse := killProxy_unsafe (R := R)
            (c := (handler R .restore (ws.headD default) c).2) hp hrun hd'
          exact (hfalse.exec ws.tail fun e he => hN e (List.mem_cons_of_mem _ he)).2.elim
    · exact absurd (hr.symm.trans (killProxy_notRestore.events ws.tail _ e he)) (by simp)

/-- **When there is no black hole.**  Given the contract of the redirector, DNS
never points at the proxy's address without a proxy, in any state of any run of
commands, exactly when it did not at the start and no `restore` fails while it
does. -/
theorem noBlackHole_iff [Inhabited ω] (hC : Contract R dns pointsAt prior) (port : UInt16)
    (requests : List Request) (ws : List (Choice ω)) (r : ρ) (hp : prior r = none) :
    (NoBlackHole dns pointsAt (new port r) ∧
      ∀ e ∈ (exec (handler R) (session requests) ws (new port r)).events,
        NoBlackHole dns pointsAt e.after) ↔
    (dns r ≠ pointsAt .localhost ∧
      ∀ e ∈ (exec (handler R) (session requests) ws (new port r)).events,
        Restores R dns pointsAt e) := by
  have hboth : ∀ (requests : List Request) (ws : List (Choice ω)) {c : Controller ρ},
      Settled (Owing dns pointsAt prior) (Clear dns pointsAt prior) c →
      (∀ e ∈ (exec (handler R) (session requests) ws c).events, NoBlackHole dns pointsAt e.after) →
      ∀ e ∈ (exec (handler R) (session requests) ws c).events, Restores R dns pointsAt e := by
    intro requests
    induction requests with
    | nil => intro ws c _ _ e he; exact absurd he (by simp [session])
    | cons request requests ih =>
      intro ws c h hN e he
      rw [session, Prog.each_cons, exec_bind_events] at hN he
      have hfirst := request_restores hC request h ws
        fun e he => hN e (List.mem_append.mpr (.inl he))
      rcases List.mem_append.mp he with he | he
      · exact hfirst e he
      · have hs := ((request_safe (keeps_of_contract hC) request h).exec ws hfirst).2.1
        exact ih _ hs (fun e he => hN e (List.mem_append.mpr (.inr he))) e he
  constructor
  · intro ⟨h₀, hN⟩
    have hd : dns r ≠ pointsAt .localhost := fun hd => h₀ hd rfl
    exact ⟨hd, hboth requests ws (new_settled port ⟨hd, hp⟩) hN⟩
  · intro ⟨hd, hA⟩
    refine ⟨fun h => absurd h hd, fun e he => ?_⟩
    have hsafe := session_safe (keeps_of_contract hC) requests (new_settled port ⟨hd, hp⟩)
    exact ((hsafe.exec ws hA).1 e he).noBlackHole

end Contract

/-- Connecting and disconnecting when nothing fails. -/
theorem noBlackHole_connect_disconnect :
    NoBlackHole Prod.fst IpAddr.text (new 53 ("9.9.9.9", (none : Option String))) ∧
      ∀ e ∈ (exec (handler plainRedirector) (session [.connect .cloudflare, .disconnect]) []
        (new 53 ("9.9.9.9", none))).events, NoBlackHole Prod.fst IpAddr.text e.after :=
  (noBlackHole_iff plainRedirector_contract 53 [.connect .cloudflare, .disconnect] []
    ("9.9.9.9", none) rfl).mpr ⟨by decide, by decide⟩

/-- **A failed `restore` leaves a black hole.**  The tenth step of a connect and
a disconnect is the `restore`: when it fails, the proxy is stopped with DNS still
pointing at it. -/
theorem blackHole_of_failed_restore :
    Contract plainRedirector Prod.fst IpAddr.text Prod.snd ∧
      ¬ ∀ e ∈ (exec (handler plainRedirector) (session [.connect .cloudflare, .disconnect])
          (List.replicate 9 default ++ [⟨.ok, .fails "timed out"⟩])
          (new 53 ("9.9.9.9", none))).events,
        NoBlackHole Prod.fst IpAddr.text e.after :=
  ⟨plainRedirector_contract, by decide⟩

end Voidns.Controller
