import Voidns.Gui.Display
import Voidns.Gui.Pending

/-!
# The provider shown and the upstream used

A `Connect` names the upstream; from then on the service keeps it until a
`Disconnect`.  The window may change `providerId` meanwhile.  Some of its
functions send a `Disconnect` when they do (`selectProvider` while connected or
connecting), others do not (`activateToken`, the token gate, a restart), and a
`Connect` on its way when the provider changes is served all the same.

What holds is that the service runs the upstream of the provider shown unless a
`Disconnect` is still to come; `Matched` says which steps keep that.
-/

namespace Voidns.Gui

open Steps Controller

variable {ω ρ : Type}

namespace App

/-- Whether `selectProvider(id)`, when it changes the provider, reconnects. -/
def reconnects (a : App) (id : String) : Prop :=
  ¬ a.gated id ∧ (a.status = .connected ∨ a.status = .connecting)

instance (a : App) (id : String) : Decidable (a.reconnects id) := inferInstanceAs (Decidable (_ ∧ _))

theorem selectProvider_reconnects {a : App} {id : String} (hid : id ≠ a.providerId)
    (h : a.reconnects id) :
    (a.selectProvider id).2 = some (.reconnectDisconnect, .disconnect) := by
  have hgate : ¬ (id = "voidns" ∧ a.token = "") := fun hg => h.1 ⟨hid, hg⟩
  have hne : a.status ≠ .disconnected := by rcases h.2 with hst | hst <;> rw [hst] <;> simp
  rw [selectProvider, if_neg hid, if_neg hgate, if_pos h.2, reconnectFor, if_neg hne]

end App

namespace World

theorem hear_providerId (w : World ρ) (e : Event) : (w.hear e).providerId = w.app.providerId := by
  unfold hear
  split
  · rfl
  · exact App.applyStatus_providerId _ _
  · rfl

/-- What the service runs, if anything, is the upstream of provider `id`. -/
def Forwards (id : String) (w : World ρ) : Prop :=
  ∀ p ∈ w.daemon.controller.proxy, p.upstream = upstreamFor id

instance (id : String) (w : World ρ) : Decidable (w.Forwards id) :=
  inferInstanceAs (Decidable (∀ p ∈ w.daemon.controller.proxy, _))

/-- The proxy that a `connect` is about to store. -/
def storing (d : Daemon ρ) : Option DohProxy :=
  d.holder.bind fun x => match x.rest with
    | .call (.putProxy p) _ => some p
    | _ => none

/-- Steps after which the service still runs what the window shows, or a
`Disconnect` is still to come; and a reply, or a call that fails, which comes last
does not leave the window connected against the last event. -/
def Matched : Label ω → World ρ → Prop
  | .user (.selectProvider id), w => id ≠ w.app.providerId →
      w.Forwards id ∨ w.Disconnecting ∨ w.app.reconnects id
  | .user .activateToken, w => trim w.app.tokenInput ≠ "" → w.Forwards "voidns" ∨ w.Disconnecting
  | .restart, w => w.Forwards "cloudflare" ∨
      Disconnecting { w with requests := w.requests.filter fun r => r.stage ≠ .calling }
  | .resolve k, w => Final k w → ∀ r ∈ w.requests[k]?, r.await ≠ some .reconnectDisconnect →
      ∀ e ∈ w.reply r, (∃ s ∈ Daemon.statusOf e, s.state = .connected) → w.lastConnected
  | .reject k _, w => ∀ r ∈ w.requests[k]?,
      (Final k w → r.await = some .onMount → w.app.status = .connected → w.lastConnected) ∧
      (w.Forwards w.app.providerId ∨ Disconnecting { w with requests := w.requestsFailed k r })
  | .service (.call _), w => ∀ p ∈ storing w.daemon,
      p.upstream = upstreamFor w.app.providerId ∨ w.Disconnecting
  | .service (.hangup i), w => w.Forwards w.app.providerId ∨
      Disconnecting { w with requests := w.requests.map (Request.take i) }
  | _, _ => True

instance : ∀ (l : Label ω) (w : World ρ), Decidable (Matched l w)
  | .user (.selectProvider _), _ => inferInstanceAs (Decidable (_ → _ ∨ _ ∨ _))
  | .user .activateToken, _ => inferInstanceAs (Decidable (_ → _ ∨ _))
  | .restart, _ => inferInstanceAs (Decidable (_ ∨ _))
  | .resolve k, w => inferInstanceAs (Decidable (Final k w → ∀ r ∈ w.requests[k]?, _ → _))
  | .reject k _, w => inferInstanceAs (Decidable (∀ r ∈ w.requests[k]?, (_ → _ → _ → _) ∧ (_ ∨ _)))
  | .service (.call _), w => inferInstanceAs (Decidable (∀ p ∈ storing w.daemon, _ ∨ _))
  | .service (.hangup _), _ => inferInstanceAs (Decidable (_ ∨ _))
  | .user .toggle, _ | .user .toggleOpen, _ | .user (.typeToken _), _ | .user .skipGate, _
  | .user .openGate, _ | .tick, _ | .register, _ | .mounted, _ | .dial _, _ | .subscribe, _
  | .emit, _ | .unsubscribe, _ | .service .listen, _ | .service (.serveError _), _
  | .service .accept, _ | .service (.recv ..), _ | .service .grant, _ | .service .release, _
  | .service (.update _), _ | .service (.write ..), _ | .service .shutdown, _
  | .service .exit, _ => isTrue trivial

/-- With nothing under way, a window that shows connected is right. -/
theorem shown_connected {R : DnsRedirector ω ρ} {port : UInt16} {redirector : ρ} {w : World ρ}
    (h : Reach (step R) Matched (new port redirector) w) :
    w.Quiet → w.app.status = .connected → w.daemon.controller.status.state = .connected := by
  induction h with
  | init => exact fun hq => absurd hq.1 (by simp [new])
  | @next w w' l hr hA hs ih =>
    intro hq hconn
    cases step_quietens hr hA hs hq with
    | same hq' happ hst =>
      rw [hst]
      exact ih hq' (happ.mp hconn)
    | gated _ _ hst => exact absurd (hst.symm.trans hconn) (by simp)
    | event hst => exact hst.symm.trans hconn
    | reply hfinal hk hne he hst hd =>
      have hlast := hA hfinal _ hk hne _ he ⟨_, rfl, hst.symm.trans hconn⟩
      rw [hd]
      exact (lastConnected_iff hr hfinal.2.2).mp hlast
    | failed hfinal hk hst hd =>
      rcases hst with ⟨hmount, hst⟩ | hst
      · have hlast := (hA _ hk).1 hfinal hmount (hst.symm.trans hconn)
        rw [hd]
        exact (lastConnected_iff hr hfinal.2.2).mp hlast
      · exact absurd hconn hst

/-- What the user does leaves the service with the upstream shown, or tears it down. -/
theorem user_forwards {w : World ρ} {a : Action} (hA : Matched (.user a : Label ω) w)
    (hf : w.Forwards w.app.providerId) :
    w.Forwards (w.app.act a).1.providerId ∨ Disconnecting (w.next (w.app.act a)) := by
  rcases w.app.act_providerId a with hid | ⟨id, rfl, hne, hid⟩ | ⟨rfl, ht, hid⟩
  · rw [hid]
    exact .inl hf
  · rw [hid]
    rcases hA hne with hf | hd | hrec
    · exact .inl hf
    · exact .inr (hd.next _)
    · have hsent : (w.app.act (.selectProvider id)).2 = some (.reconnectDisconnect, .disconnect) :=
        App.selectProvider_reconnects hne hrec
      refine .inr (.inl ⟨.new (.reconnectDisconnect, .disconnect), ?_, rfl, rfl⟩)
      show _ ∈ w.requests ++ ((w.app.act (.selectProvider id)).2.map Request.new).toList
      rw [hsent]
      simp
  · rw [hid]
    rcases hA ht with hf | hd
    · exact .inl hf
    · exact .inr (hd.next _)

/-- The service goes on with the upstream shown, or a `Disconnect` is to come. -/
theorem service_forwards {R : DnsRedirector ω ρ} {A : Label ω → World ρ → Prop} {port : UInt16}
    {redirector : ρ} {w : World ρ} (h : Reach (step R) A (new port redirector) w)
    {l : Daemon.Label ω} {d : Daemon ρ} (hA : Matched (.service l) w) (hl : w.allows l)
    (hd : Daemon.step R l w.daemon = some d)
    (ih : w.Forwards w.app.providerId ∨ w.Disconnecting) :
    Forwards w.app.providerId { w with daemon := d, requests := w.requestsAfter l } ∨
      Disconnecting { w with daemon := d, requests := w.requestsAfter l } := by
  by_cases hhang : ∃ i, l = .hangup i
  · obtain ⟨i, rfl⟩ := hhang
    obtain ⟨hmoves, _⟩ := Daemon.step_moves hd
    cases hmoves with
    | hangup => exact hA
  by_cases hdisc : w.Disconnecting
  · rcases reach_disconnecting_service h hl hd (fun i he => hhang ⟨i, he⟩) hdisc with hdisc | ⟨hp, _⟩
    · exact .inr hdisc
    · exact .inl fun p hmem => absurd (hp ▸ hmem : p ∈ none) (by simp)
  · have hf := ih.resolve_right hdisc
    obtain ⟨hmoves, _⟩ := Daemon.step_moves hd
    cases hmoves with
    | @call x c k v hx hrest =>
      rcases handler_proxy R v w.daemon.controller c with hp | hp | ⟨p, rfl, hp⟩
      · exact .inl fun q hq => hf q (hp ▸ hq)
      · exact .inl fun q hq => absurd (hp ▸ hq : q ∈ none) (by simp)
      · have hstoring : storing w.daemon = some p := by simp [storing, hx, hrest]
        have hup := (hA p hstoring).resolve_right hdisc
        refine .inl fun q hq => ?_
        have hqp : some p = some q := hp.symm.trans hq
        rw [← Option.some.inj hqp]
        exact hup
    | _ => exact .inl hf

/-- **The service runs what the window shows**, or a `Disconnect` is to come. -/
theorem forwards_or_disconnecting {R : DnsRedirector ω ρ} {port : UInt16} {redirector : ρ}
    {w : World ρ} (h : Reach (step R) Matched (new port redirector) w) :
    w.Forwards w.app.providerId ∨ w.Disconnecting := by
  induction h with
  | init => exact .inl fun p hp => absurd hp (by simp [new, Daemon.new, Controller.new])
  | @next w w' l hr hA hs ih =>
    have hmoves := step_moves hs
    by_cases hkept : Keeps l ∧ w.Disconnecting
    · exact .inr (hkept.2.moves hmoves hkept.1)
    have hf : Keeps l → w.Forwards w.app.providerId := fun hl =>
      ih.resolve_right fun hd => hkept ⟨hl, hd⟩
    cases hmoves with
    | user a => exact user_forwards hA (hf trivial)
    | tick | register | mounted | unsubscribe => exact .inl (hf trivial)
    | dial _ _ hd | subscribe _ hd =>
      obtain rfl := Daemon.step_accept hd
      exact .inl (hf trivial)
    | @emit e _ =>
      refine .inl ?_
      show w.Forwards (w.hear e).providerId
      rw [hear_providerId]
      exact hf trivial
    | @resolve k r aw e _ _ _ =>
      refine .inl ?_
      show w.Forwards (w.app.resume aw _).1.providerId
      rw [App.resume_providerId]
      exact hf trivial
    | @reject k r aw e hk _ =>
      rcases (hA r hk).2 with hf | hd
      · refine .inl ?_
        show w.Forwards (w.app.resume aw _).1.providerId
        rw [App.resume_providerId]
        exact hf
      · exact .inr (hd.next _)
    | restart =>
      rcases hA with hf | hd
      · exact .inl hf
      · refine .inr (hd.requests rfl fun r hr hcmd hu => ?_)
        exact ⟨r.orphan, List.mem_map_of_mem hr, hcmd, hu⟩
    | service hl hd => exact service_forwards hr hA hl hd ih

/-- **The provider shown is the provider used**: a window that shows connected,
with nothing under way and nothing pending, shows the provider whose upstream the
one running proxy forwards to. -/
theorem provider_forwarded {R : DnsRedirector ω ρ} {port : UInt16} {redirector : ρ} {w : World ρ}
    (h : Reach (step R) Matched (new port redirector) w) (hq : w.Quiet) (hserved : w.Served)
    (hst : w.app.status = .connected) :
    ∃ p, w.daemon.controller.proxy = some p ∧ w.daemon.controller.running = [p] ∧
      p.upstream = upstreamFor w.app.providerId := by
  have hconn := shown_connected h hq hst
  have hforwards : w.Forwards w.app.providerId :=
    (forwards_or_disconnecting h).resolve_right hserved.not_disconnecting
  cases (Daemon.reach_any (reach_daemon h)).2.free hserved.2.2 with
  | connected p hp hrun _ _ => exact ⟨p, hp, hrun, hforwards p hp⟩
  | disconnected _ _ hs _ =>
    rcases hs with hs | ⟨e, hs⟩ <;> rw [hs] at hconn <;>
      exact absurd hconn (by simp [Status.disconnected, errorStatus])

/-- The window connects. -/
def connecting : List (Label Fate) :=
  opening ++ [.resolve 0, .user .toggle, .dial 0] ++ connection 2 .cloudflare ++ [.resolve 0]

/-- Connection `i` disconnects. -/
def disconnection (i : Nat) : List (Label Fate) :=
  [.service (.recv i .disconnect), .service .grant] ++
    List.replicate 6 (.service (.call default)) ++
    [.service .release, .service (.write i true)] ++ hearing

/-- A window that has changed to Quad9 on the fly. -/
theorem provider_forwarded_quad9 : ∃ w : World (String × Option String), ∃ p,
    w.app.providerId = "quad9" ∧ w.daemon.controller.proxy = some p ∧
      w.daemon.controller.running = [p] ∧ p.upstream = upstreamFor w.app.providerId := by
  have hrun : Allowed (step plainRedirector) Matched
      (connecting ++ [.user (.selectProvider "quad9"), .dial 0] ++ disconnection 3 ++
        [.resolve 0, .dial 0] ++ connection 4 .quad9 ++ [.resolve 0])
      (new 53 ("9.9.9.9", none)) := by decide +kernel
  obtain ⟨w, hw, hq, hserved, hst, hid⟩ := Reach.exists_of_allowed hrun
    (P := fun w => w.Quiet ∧ w.Served ∧ w.app.status = .connected ∧ w.app.providerId = "quad9")
    (by decide +kernel)
  obtain ⟨p, hp⟩ := provider_forwarded hw hq hserved hst
  exact ⟨w, p, hid, hp⟩

/-- The window is the only client, and the service is reachable. -/
def Single : Label ω → World ρ → Prop
  | .service .accept, _ => False
  | l, w => Answered l w

instance : ∀ (l : Label ω) (w : World ρ), Decidable (Single l w)
  | .service .accept, _ => isFalse id
  | .service .listen, _ | .service (.serveError _), _ | .service (.recv ..), _
  | .service .grant, _ | .service (.call _), _ | .service .release, _ | .service (.update _), _
  | .service (.write ..), _ | .service (.hangup _), _ | .service .shutdown, _
  | .service .exit, _ => isTrue trivial
  | .reject .., _ => isFalse id
  | .user _, _ | .tick, _ | .register, _ | .mounted, _ | .dial _, _ | .resolve _, _
  | .subscribe, _ | .emit, _ | .unsubscribe, _ | .restart, _ => isTrue trivial

/-- **A token activated while connected** changes the provider shown, and nothing
else. -/
theorem provider_activated : ¬ ∀ w : World (String × Option String),
    Reach (step plainRedirector) Single (new 53 ("9.9.9.9", none)) w → w.Quiet → w.Served →
    w.app.status = .connected →
    ∃ p, w.daemon.controller.proxy = some p ∧ w.daemon.controller.running = [p] ∧
      p.upstream = upstreamFor w.app.providerId := by
  intro hall
  have hrun : Allowed (step plainRedirector) Single
      (connecting ++ [.user .openGate, .user (.typeToken "token"), .user .activateToken])
      (new 53 ("9.9.9.9", none)) := by decide +kernel
  obtain ⟨w, hw, hq, hserved, hst, hid, hup⟩ := Reach.exists_of_allowed hrun
    (P := fun w => w.Quiet ∧ w.Served ∧ w.app.status = .connected ∧ w.app.providerId = "voidns" ∧
      ∃ p ∈ w.daemon.controller.proxy, p.upstream = .cloudflare) (by decide +kernel)
  obtain ⟨p, hp, _, hpu⟩ := hall w hw hq hserved hst
  obtain ⟨q, hq, hqu⟩ := hup
  obtain rfl := Option.some.inj (hp.symm.trans hq)
  rw [hqu, hid] at hpu
  exact absurd hpu (by decide)

end World

end Voidns.Gui
