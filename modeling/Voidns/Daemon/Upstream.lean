import Voidns.Daemon.Mutex

/-!
# Which upstream a reply speaks of

A `connect` that finds the controller connected replies with the status it finds,
whatever upstream was asked for.  So a reply that says connected speaks of the
proxy that is running, and of the upstream asked for unless the controller was
connected when the command got the mutex.
-/

namespace Voidns.Daemon

open Effect Steps Controller

variable {ω ρ : Type}

/-- **A reply that says connected** comes while one proxy is running, and names
its upstream.  That is the upstream asked for, unless the controller was
connected when the command got the mutex, and then nothing has changed since. -/
theorem connected_reply {R : DnsRedirector ω ρ} {port : UInt16} {redirector : ρ} {d e : Daemon ρ}
    (hd : Reach (step R) (fun _ _ => True) (new port redirector) d) {x : Holder ρ} {i : Nat}
    {upstream : UpstreamSel} (hx : d.holder = some x) (ht : x.task = .conn i)
    (hcmd : x.cmd = .connect upstream) (hs : step R .release d = some e) {c : Conn}
    {status : Status} (hc : e.conns[i]? = some c) (hp : c.phase = .writing (.status status))
    (hst : status.state = .connected) :
    ∃ p, e.controller.proxy = some p ∧ e.controller.running = [p] ∧
      status = connectedStatus p.upstream.label p.listen ∧
      (p.upstream = upstream ∨ x.entry.status.state = .connected ∧ e.controller = x.entry) := by
  obtain ⟨hqueue, hlocked⟩ := reach_any hd
  obtain ⟨hmoves, _⟩ := step_moves hs
  cases hmoves with
  | releaseMain hy _ hmain =>
    rw [Option.some.inj (hy.symm.trans hx)] at hmain
    exact absurd (ht.symm.trans hmain) (by simp)
  | @releaseConn y reply j c₀ hy hr hj hc₀ =>
    obtain rfl := Option.some.inj (hy.symm.trans hx)
    obtain rfl := Task.conn.inj (hj.symm.trans ht)
    obtain ⟨hset, hreply⟩ := hlocked.done hx hr
    -- the reply is the controller's status
    have hlt : j < d.conns.length := (List.getElem?_eq_some_iff.mp hc₀).1
    rw [List.getElem?_set_self hlt] at hc
    rw [← Option.some.inj hc] at hp
    have hevent : reply.2 = .status status := Phase.writing.inj hp
    have hstatus : status = d.controller.status := by
      rcases hreply.event with he | ⟨hping, _⟩
      · exact Event.status.inj (hevent.symm.trans he)
      · exact absurd (hcmd.symm.trans hping) (by simp)
    -- and the controller is settled
    cases hset with
    | disconnected _ _ hs' _ =>
      rw [hstatus] at hst
      rcases hs' with hs' | ⟨err, hs'⟩ <;> rw [hs'] at hst <;>
        exact absurd hst (by simp [Status.disconnected, errorStatus])
    | connected p hproxy hrun hs' _ =>
      refine ⟨p, hproxy, hrun, hstatus.trans hs', ?_⟩
      rcases hreply.served upstream hcmd with ⟨_, hsame⟩ | ⟨_, hserved⟩
      · exact .inr ⟨by rw [← hsame, ← hstatus]; exact hst, hsame⟩
      · exact .inl (hserved p hproxy)

/-! ### Two clients -/

/-- A controller that has not connected. -/
def fresh : Controller (String × Option String) := .new 53 ("9.9.9.9", none)

/-- The same, once it has connected to Cloudflare. -/
def cloudflare : Controller (String × Option String) where
  status := connectedStatus "Cloudflare" ⟨.localhost, 53⟩
  proxy := some ⟨0, ⟨.localhost, 53⟩, .cloudflare⟩
  redirector := ("127.0.0.1", some "9.9.9.9")
  port := 53
  sent := [⟨.connecting, some "Cloudflare", none, none⟩,
    connectedStatus "Cloudflare" ⟨.localhost, 53⟩]
  running := [⟨0, ⟨.localhost, 53⟩, .cloudflare⟩]
  started := 1

/-- A handler that has a controller connected to Cloudflare locked, and is about
to reply so. -/
def answering (i : Nat) (upstream : UpstreamSel) (entry : Controller (String × Option String))
    (conns : List Conn) : Daemon (String × Option String) where
  controller := cloudflare
  holder := some ⟨.conn i, .connect upstream, entry, .ret (none, .status cloudflare.status)⟩
  queue := []
  main := .serving
  conns := conns

/-- What the first client sees. -/
theorem connected_reply_first : ∃ p, cloudflare.proxy = some p ∧ cloudflare.running = [p] ∧
    cloudflare.status = connectedStatus p.upstream.label p.listen ∧
    (p.upstream = .cloudflare ∨ fresh.status.state = .connected ∧ cloudflare = fresh) := by
  have hrun : run (step plainRedirector) ([.listen, .accept] ++ connecting 0 .cloudflare)
      (new 53 ("9.9.9.9", none)) = some
        (answering 0 .cloudflare fresh [⟨.dispatching, none, [], []⟩]) := rfl
  exact connected_reply (i := 0) (.of_run (fun _ _ => trivial) _ hrun) rfl rfl rfl rfl rfl rfl rfl

/-- **The second client** asks for Quad9 and is told connected, while the one proxy
running forwards to Cloudflare. -/
theorem connected_to_another : ¬ ∀ (d e : Daemon (String × Option String)) (x : Holder _) (i : Nat)
    (upstream : UpstreamSel) (c : Conn) (status : Status),
    Reach (step plainRedirector) (fun _ _ => True) (new 53 ("9.9.9.9", none)) d →
    d.holder = some x → x.task = .conn i → x.cmd = .connect upstream →
    step plainRedirector .release d = some e →
    e.conns[i]? = some c → c.phase = .writing (.status status) → status.state = .connected →
    ∃ p ∈ e.controller.running, p.upstream = upstream := by
  intro hall
  have hrun : run (step plainRedirector)
      ([.listen, .accept, .accept] ++ connecting 0 .cloudflare ++
        [.release, .recv 1 (.connect .quad9), .grant, .call default])
      (new 53 ("9.9.9.9", none)) = some
        (answering 1 .quad9 cloudflare
          [⟨.writing (.status cloudflare.status), none, [.connect .cloudflare], []⟩,
            ⟨.dispatching, none, [], []⟩]) := rfl
  obtain ⟨p, hp, hu⟩ := hall _ _ _ 1 .quad9 _ _ (.of_run (fun _ _ => trivial) _ hrun)
    rfl rfl rfl rfl rfl rfl rfl
  obtain rfl := List.mem_singleton.mp hp
  exact absurd hu (by decide)

end Voidns.Daemon
