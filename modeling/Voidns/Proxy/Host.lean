import Voidns.Daemon.Basic
import Voidns.Lib.Inline
import Voidns.Proxy.Basic

/-!
# The controller with its proxies

The controller makes `DohProxy::start` and `stop` in one step each.  Here they are made
call by call, next to the servers and the sockets they leave.  To drop a server only aborts
its tasks, and they give up its sockets some time later, so a server that is gone goes on
holding them until the world's choice closes them (`release`).

Each running proxy has a server of its own, on both its sockets, and no other server is
there but those that are gone (`Backed`); so the controller and the proxies together do what
the controller does (`safe_hosted`).
-/

namespace Voidns

open Effect Controller

/-- The process: its controller, its environment, what it has read of extra CAs, the servers
that are there, and those that have been dropped or shut down, with the sockets that are not
closed yet. -/
structure Host (ρ Anchor : Type) where
  controller : Controller ρ
  env : String → Option String
  reads : List (String × Except String (List UInt8))
  servers : List (Server Anchor)
  closing : List (Server Anchor)

/-- The world's choice for one call: as for the controller, what a file holds, and on which
transports the sockets of the servers that are gone are closed by now.  No two sockets have one
address (`Confined`), so there is at most one of them on each. -/
structure HostChoice (ω : Type) where
  step : Choice ω
  file : Except String (List UInt8)
  closes : Transport → Bool

instance {ω : Type} [Inhabited ω] : Inhabited (HostChoice ω) :=
  ⟨⟨default, .error "not found", fun _ => true⟩⟩

/-- The server with its sockets closed on some transports. -/
def Server.close {Anchor : Type} (v : Server Anchor) (closes : Transport → Bool) : Server Anchor :=
  { v with udp := if closes .udp then [] else v.udp, tcp := if closes .tcp then [] else v.tcp }

namespace Host

variable {ω ρ Cert Anchor : Type}

/-- A new process. -/
def new (port : UInt16) (redirector : ρ) (env : String → Option String) : Host ρ Anchor :=
  ⟨.new port redirector, env, [], [], []⟩

/-- The other servers. -/
def without (s : Host ρ Anchor) (id : Nat) : List (Server Anchor) :=
  s.servers.filter fun v => v.id != id

/-- The server is changed. -/
def update (s : Host ρ Anchor) (id : Nat) (f : Server Anchor → Server Anchor) : Host ρ Anchor :=
  { s with servers := s.servers.map fun v => if v.id = id then f v else v }

/-- The server is dropped: its tasks are aborted, and its sockets still have to be closed. -/
def leave (s : Host ρ Anchor) (id : Nat) : Host ρ Anchor :=
  { s with
    servers := s.without id
    closing := s.closing ++ s.servers.filter fun v => v.id == id }

/-- Sockets of servers that are gone are closed. -/
def release (s : Host ρ Anchor) (w : HostChoice ω) : Host ρ Anchor :=
  { s with closing := s.closing.map fun v => v.close w.closes }

/-- The socket is taken by a server of the process, also by one that is gone.  For the port 0
the system picks one that is free. -/
def Taken (s : Host ρ Anchor) (transport : Transport) (listen : SocketAddr) : Prop :=
  listen.port ≠ 0 ∧ ∃ v ∈ s.servers ++ s.closing, listen ∈ v.sockets transport

instance (s : Host ρ Anchor) (transport : Transport) (listen : SocketAddr) :
    Decidable (s.Taken transport listen) := inferInstanceAs (Decidable (_ ∧ _))

end Host

namespace Proxy

variable {ω ρ Cert Anchor : Type}

/-- What a call does.  A socket that the process holds itself is refused; what others have
bound is the world's choice. -/
def act : Handler (sig Anchor) (HostChoice ω) (Host ρ Anchor)
  | .env name, _, s => (s.env name, s)
  | .readFile path, w, s => (w.file, { s with reads := s.reads ++ [(path, w.file)] })
  | .buildResolver _, w, s => w.step.fate.attempt (some ((), s)) s
  | .newServer zone, _, s => (s.controller.started,
      { s with servers := s.servers ++ [⟨s.controller.started, zone, [], []⟩] })
  | .bindUdp server listen, w, s => w.step.fate.attempt
      (if s.Taken .udp listen then none
      else some ((), s.update server fun v => { v with udp := v.udp ++ [listen] })) s
  | .bindTcp server listen, w, s => w.step.fate.attempt
      (if s.Taken .tcp listen then none
      else some ((), s.update server fun v => { v with tcp := v.tcp ++ [listen] })) s
  | .listening proxy, _, s => ((),
      { s with controller := { s.controller with
          running := s.controller.running ++ [proxy]
          started := s.controller.started + 1 } })
  | .drop server, _, s => ((), s.leave server)
  | .shutdown server, w, s => ((w.step.fate.attempt (some ((), s)) s).1,
      { s.leave server with controller := { s.controller with
          running := s.controller.running.filter fun p => p.id != server } })

/-- A call, with the sockets that have been closed by then. -/
def handler : Handler (sig Anchor) (HostChoice ω) (Host ρ Anchor) :=
  fun c w s => act c w (s.release w)

section

variable (w : HostChoice ω) (s : Host ρ Anchor) (server : Nat) (listen : SocketAddr)

theorem handler_newServer (zone : VerifiedForwarder Anchor) :
    handler (.newServer zone) w s = (s.controller.started,
      { s.release w with servers := s.servers ++ [⟨s.controller.started, zone, [], []⟩] }) := rfl

theorem handler_listening (proxy : DohProxy) : handler (.listening proxy) w s = ((),
    { s.release w with controller := { s.controller with
        running := s.controller.running ++ [proxy]
        started := s.controller.started + 1 } }) := rfl

theorem handler_drop :
    handler (.drop server) w s = ((), (s.release w).leave server) := rfl

theorem handler_buildResolver (resolver : Resolver Anchor) :
    (handler (.buildResolver resolver) w s).2 = s.release w :=
  w.step.fate.attempt_same (some ()) (s.release w)

/-- A bind fails, or the socket was free. -/
theorem bindUdp_cases : (∃ e, handler (.bindUdp server listen) w s = (.error e, s.release w)) ∨
    ¬ (s.release w).Taken .udp listen ∧ handler (.bindUdp server listen) w s =
      (.ok (), (s.release w).update server fun v => { v with udp := v.udp ++ [listen] }) := by
  refine (w.step.fate.attempt_cases _ (s.release w)).imp id ?_
  rintro ⟨_, _, _, hp, he⟩
  obtain ⟨hfree, hp⟩ := Option.ite_none_left_eq_some.mp hp
  obtain ⟨rfl, rfl⟩ := Prod.mk.inj (Option.some.inj hp)
  exact ⟨hfree, he⟩

theorem bindTcp_cases : (∃ e, handler (.bindTcp server listen) w s = (.error e, s.release w)) ∨
    ¬ (s.release w).Taken .tcp listen ∧ handler (.bindTcp server listen) w s =
      (.ok (), (s.release w).update server fun v => { v with tcp := v.tcp ++ [listen] }) := by
  refine (w.step.fate.attempt_cases _ (s.release w)).imp id ?_
  rintro ⟨_, _, _, hp, he⟩
  obtain ⟨hfree, hp⟩ := Option.ite_none_left_eq_some.mp hp
  obtain ⟨rfl, rfl⟩ := Prod.mk.inj (Option.some.inj hp)
  exact ⟨hfree, he⟩

end

end Proxy

namespace Host

variable {ω ρ Cert Anchor : Type}

/-- What another call of the controller does.  The server of a proxy that is overwritten goes
with it. -/
def act (R : DnsRedirector ω ρ) : Handler sig (HostChoice ω) (Host ρ Anchor)
  | .putProxy proxy, w, s => ((),
      { s.controller.proxy.elim s fun old => s.leave old.id with
        controller := (Controller.handler R (.putProxy proxy) w.step s.controller).2 })
  | c, w, s =>
    ((Controller.handler R c w.step s.controller).1,
      { s with controller := (Controller.handler R c w.step s.controller).2 })

def handler (R : DnsRedirector ω ρ) : Handler sig (HostChoice ω) (Host ρ Anchor) :=
  fun c w s => act R c w (s.release w)

variable (L : Libraries Cert Anchor) (target : Target)

/-- The calls on proxies, as `DohProxy` makes them. -/
def method : ∀ c : Call, Option (Prog (Proxy.sig Anchor) (Reply c))
  | .start listen upstream => some (Proxy.start L target listen upstream)
  | .stop proxy => some (Proxy.stop proxy)
  | .status | .set _ | .port | .putProxy _ | .takeProxy | .apply _ | .restore | .flushCache
  | .subscribe => none

/-- Commands, one after another, call by call. -/
def serve (commands : List Command) : Prog (sig.sum (Proxy.sig Anchor)) Unit :=
  (Prog.each dispatch commands).inline (method L target)

/-- Every call of the process. -/
def calls (R : DnsRedirector ω ρ) :
    Handler (sig.sum (Proxy.sig Anchor)) (HostChoice ω) (Host ρ Anchor) :=
  (Part.self _).handler (handler R) Proxy.handler

/-! ### What a server stands for -/

/-- Where the extra CA is looked for in this environment, and whether it has to be there. -/
def extraCa (env : String → Option String) : String × Bool :=
  match env "VOIDNS_EXTRA_CA_FILE" with
  | some path => (path, true)
  | none => (match target with
    | .windows => Proxy.join (Proxy.join ((env "ProgramData").getD "C:\\ProgramData") "VoidNS")
        "extra-ca.pem"
    | .unix => "/etc/voidns/extra-ca.pem", false)

/-- The anchors are those of a file that has been read. -/
def Trusts (s : Host ρ Anchor) (roots : List Anchor) : Prop :=
  ∃ read, ((extraCa target s.env).1, read) ∈ s.reads ∧
    clientRoots L (extraCa target s.env).1 (extraCa target s.env).2 read = .ok roots

/-- The zone forwards to the upstream. -/
structure Forwards (s : Host ρ Anchor) (zone : VerifiedForwarder Anchor) (upstream : UpstreamSel) :
    Prop where
  nameServers : upstreamNameServers L upstream = .ok zone.resolver.nameServers
  options : zone.resolver.options = resolverOpts
  roots : Trusts L target s zone.resolver.roots

/-- The server of a running proxy. -/
structure Runs (s : Host ρ Anchor) (v : Server Anchor) (p : DohProxy) : Prop where
  id : v.id = p.id
  udp : v.udp = [p.listen]
  tcp : v.tcp = [p.listen]
  forwards : Forwards L target s v.zone p.upstream

/-- The process around a controller: each running proxy has its server, and there are no
others but those that are gone. -/
structure Backed (s : Host ρ Anchor) (c : Controller ρ) : Prop where
  controller : s.controller = c
  servers : List.Forall₂ (Runs L target s) s.servers c.running
  fresh : ∀ p ∈ c.running, p.id < c.started

/-- A server on its way: `start` has come this far. -/
structure Opens (s₀ s : Host ρ Anchor) (listen : SocketAddr) (upstream : UpstreamSel)
    (v : Server Anchor) : Prop where
  servers : s.servers = s₀.servers ++ [v]
  id : v.id = s₀.controller.started
  udp : v.udp = [] ∨ v.udp = [listen]
  tcp : v.tcp = [] ∨ v.tcp = [listen]
  forwards : Forwards L target s v.zone upstream

/-- A call of `start`, and that it does not meet a socket of its own. -/
structure Starting (s₀ : Host ρ Anchor) (listen : SocketAddr) (upstream : UpstreamSel)
    (e : CallEvent (Proxy.sig Anchor) (HostChoice ω) (Host ρ Anchor)) : Prop where
  redirector : e.after.controller.redirector = s₀.controller.redirector
  after : e.after.servers = s₀.servers ∨ ∃ v, Opens L target s₀ e.after listen upstream v
  bindUdp : ∀ id addr, e.call = .bindUdp id addr → addr = listen ∧
    ∃ v, Opens L target s₀ e.before listen upstream v ∧ v.udp = []
  bindTcp : ∀ id addr, e.call = .bindTcp id addr → addr = listen ∧
    ∃ v, Opens L target s₀ e.before listen upstream v ∧ v.tcp = []

/-- A call of a method, in a call of the controller. -/
def During (e' : CallEvent sig (Choice ω) (Controller ρ))
    (e : CallEvent (sig.sum (Proxy.sig Anchor)) (HostChoice ω) (Host ρ Anchor)) : Prop :=
  ∃ call, e.call = .inr call ∧ match e'.call with
    | .start listen upstream => ∃ s₀, Backed L target s₀ e'.before ∧
        Starting L target s₀ listen upstream ⟨call, e.choice, e.before, e.after⟩
    | .stop proxy => call = .shutdown proxy.id ∧ Backed L target e.after e'.after
    | _ => False

/-! ### What is read -/

variable {L target} {s s₀ t : Host ρ Anchor}

/-- The process has gone on to read, and nothing else. -/
structure Same (s₀ s : Host ρ Anchor) : Prop where
  controller : s.controller = s₀.controller
  servers : s.servers = s₀.servers
  env : s.env = s₀.env
  reads : s₀.reads <+: s.reads

theorem Same.refl (s : Host ρ Anchor) : Same s s := ⟨rfl, rfl, rfl, List.prefix_refl _⟩

theorem Same.release (h : Same s₀ s) (w : HostChoice ω) : Same s₀ (s.release w) :=
  ⟨h.controller, h.servers, h.env, h.reads⟩

theorem Trusts.mono {roots : List Anchor} (h : Trusts L target s roots) (henv : t.env = s.env)
    (hreads : s.reads <+: t.reads) : Trusts L target t roots := by
  obtain ⟨read, hread, hroots⟩ := h
  rw [← henv] at hread hroots
  exact ⟨read, hreads.subset hread, hroots⟩

theorem Forwards.mono {zone : VerifiedForwarder Anchor} {upstream : UpstreamSel}
    (h : Forwards L target s zone upstream) (henv : t.env = s.env) (hreads : s.reads <+: t.reads) :
    Forwards L target t zone upstream :=
  ⟨h.nameServers, h.options, h.roots.mono henv hreads⟩

theorem Runs.mono {v : Server Anchor} {p : DohProxy} (h : Runs L target s v p)
    (henv : t.env = s.env) (hreads : s.reads <+: t.reads) : Runs L target t v p :=
  ⟨h.id, h.udp, h.tcp, h.forwards.mono henv hreads⟩

theorem Backed.mono {c d : Controller ρ} (h : Backed L target s c) (hcontroller : t.controller = d)
    (hservers : t.servers = s.servers) (henv : t.env = s.env) (hreads : s.reads <+: t.reads)
    (hrunning : d.running = c.running) (hstarted : d.started = c.started) : Backed L target t d where
  controller := hcontroller
  servers := by
    rw [hservers, hrunning]
    exact h.servers.imp fun _ _ hr => hr.mono henv hreads
  fresh := by
    rw [hrunning, hstarted]
    exact h.fresh

section

variable {listen : SocketAddr} {upstream : UpstreamSel}

/-- A call before there is a server. -/
theorem Same.starting {c : Proxy.Call Anchor} {w : HostChoice ω} (h : Same s₀ t)
    (hudp : ∀ id addr, c ≠ .bindUdp id addr) (htcp : ∀ id addr, c ≠ .bindTcp id addr) :
    Starting L target s₀ listen upstream ⟨c, w, s, t⟩ :=
  ⟨congrArg Controller.redirector h.controller, .inl h.servers,
    fun id addr hc => absurd hc (hudp id addr), fun id addr hc => absurd hc (htcp id addr)⟩

theorem extraCa_safe (hs : Same s₀ s) :
    Safe (Proxy.handler (ω := ω)) (fun _ => True) (Starting L target s₀ listen upstream)
      (fun r t => Same s₀ t ∧ r = extraCa target t.env) (Proxy.extraCa target) s := by
  have hread : ∀ name (w : HostChoice ω) (t : Host ρ Anchor),
      Proxy.handler (.env name) w t = (t.env name, t.release w) := fun _ _ _ => rfl
  refine safe_perform.mpr fun w _ => ?_
  have hs' := hs.release w
  refine ⟨hs'.starting nofun nofun, ?_⟩
  rw [hread]
  cases hvar : s.env "VOIDNS_EXTRA_CA_FILE" with
  | some path => exact ⟨hs', by simp only [extraCa, release, hvar]⟩
  | none =>
    cases target with
    | unix => exact ⟨hs', by simp only [extraCa, release, hvar]⟩
    | windows =>
      refine safe_perform.mpr fun w' _ => ⟨(hs'.release w').starting nofun nofun, ?_⟩
      rw [hread]
      exact ⟨hs'.release w', by simp only [extraCa, release, hvar]⟩

theorem buildClientConfig_safe (hs : Same s₀ s) :
    Safe (Proxy.handler (ω := ω)) (fun _ => True) (Starting L target s₀ listen upstream)
      (fun r t => Same s₀ t ∧ ∀ roots, r = .ok roots → Trusts L target t roots)
      (Proxy.buildClientConfig L target) s := by
  refine safe_bind.mpr ((extraCa_safe hs).post ?_)
  rintro ca t ⟨ht, rfl⟩
  refine safe_perform.mpr fun w _ => ?_
  have hread : Same s₀ (Proxy.handler (.readFile (extraCa target t.env).1) w t).2 :=
    ⟨ht.controller, ht.servers, ht.env, ht.reads.trans (List.prefix_append _ _)⟩
  refine ⟨hread.starting nofun nofun, hread, fun roots hroots => ⟨w.file, ?_, hroots⟩⟩
  exact List.mem_append_right _ List.mem_cons_self

theorem buildForwardZone_safe (hs : Same s₀ s) {nameServers : List NameServerConfig}
    (hservers : upstreamNameServers L upstream = .ok nameServers) :
    Safe (Proxy.handler (ω := ω)) (fun _ => True) (Starting L target s₀ listen upstream)
      (fun r t => Same s₀ t ∧ ∀ zone, r = .ok zone → Forwards L target t zone upstream)
      (Proxy.buildForwardZone L target nameServers resolverOpts) s := by
  refine safe_bind.mpr ((buildClientConfig_safe hs).post fun r t ht => ?_)
  obtain ⟨ht, hroots⟩ := ht
  cases r with
  | error e => exact ⟨ht, nofun⟩
  | ok roots =>
    refine safe_perform.mpr fun w _ => ?_
    have ht' := ht.release w
    rw [Proxy.handler_buildResolver]
    refine ⟨ht'.starting nofun nofun, ?_⟩
    cases (Proxy.handler (.buildResolver ⟨nameServers, resolverOpts, roots⟩) w t).1 with
    | error e => exact ⟨ht', nofun⟩
    | ok _ =>
      refine ⟨ht', fun zone hzone => ?_⟩
      obtain rfl := Except.ok.inj hzone
      exact ⟨hservers, rfl, (hroots _ rfl).mono rfl (List.prefix_refl _)⟩

/-! ### What is bound -/

/-- What `serveZone` has done. -/
def Served (L : Libraries Cert Anchor) (target : Target) (s₀ : Host ρ Anchor) (listen : SocketAddr)
    (upstream : UpstreamSel) (r : Except Error DohProxy) (t : Host ρ Anchor) : Prop :=
  (∃ e, r = .error e ∧ Same s₀ t) ∨
    ∃ v, r = .ok ⟨s₀.controller.started, listen, upstream⟩ ∧
      t.controller = { s₀.controller with
        running := s₀.controller.running ++ [⟨s₀.controller.started, listen, upstream⟩]
        started := s₀.controller.started + 1 } ∧
      t.env = s₀.env ∧ s₀.reads <+: t.reads ∧ Opens L target s₀ t listen upstream v ∧
      Runs L target t v ⟨s₀.controller.started, listen, upstream⟩

/-- The process as it was, with one server more. -/
structure Beside (L : Libraries Cert Anchor) (target : Target) (s₀ s : Host ρ Anchor)
    (listen : SocketAddr) (upstream : UpstreamSel) (v : Server Anchor) : Prop
    extends Opens L target s₀ s listen upstream v where
  controller : s.controller = s₀.controller
  env : s.env = s₀.env
  reads : s₀.reads <+: s.reads

theorem Beside.release {v : Server Anchor} (h : Beside L target s₀ s listen upstream v)
    (w : HostChoice ω) : Beside L target s₀ (s.release w) listen upstream v :=
  ⟨⟨h.servers, h.id, h.udp, h.tcp, h.forwards.mono rfl (List.prefix_refl _)⟩, h.controller, h.env,
    h.reads⟩

/-- A server that is dropped before it runs. -/
theorem Beside.dropped {v : Server Anchor} (hids : ∀ u ∈ s₀.servers, u.id ≠ s₀.controller.started)
    (h : Beside L target s₀ s listen upstream v) :
    Same s₀ (s.leave s₀.controller.started) where
  controller := h.controller
  servers := by
    show s.without _ = _
    unfold without
    rw [h.servers, List.filter_append,
      List.filter_eq_self.mpr fun u hu => by simpa using hids u hu]
    simp [h.id]
  env := h.env
  reads := h.reads

/-- Only the server that starts is changed. -/
theorem Beside.update {v : Server Anchor} (hids : ∀ u ∈ s₀.servers, u.id ≠ s₀.controller.started)
    (h : Beside L target s₀ s listen upstream v) {f : Server Anchor → Server Anchor}
    (hid : (f v).id = v.id) (hudp : (f v).udp = [] ∨ (f v).udp = [listen])
    (htcp : (f v).tcp = [] ∨ (f v).tcp = [listen]) (hzone : (f v).zone = v.zone) :
    Beside L target s₀ (s.update s₀.controller.started f) listen upstream (f v) where
  servers := by
    have hmap : s₀.servers.map (fun u => if u.id = s₀.controller.started then f u else u) =
        s₀.servers := by
      refine (List.map_congr_left fun u hu => ?_).trans (List.map_id _)
      exact if_neg (hids u hu)
    show s.servers.map _ = _
    rw [h.servers, List.map_append, hmap]
    simp [h.id]
  id := hid.trans h.id
  udp := hudp
  tcp := htcp
  forwards := by
    rw [hzone]
    exact h.forwards.mono rfl (List.prefix_refl _)
  controller := h.controller
  env := h.env
  reads := h.reads

/-- A call in which a socket of the server that starts is bound, or not. -/
theorem Beside.binding {v : Server Anchor} {call : Proxy.Call Anchor} {w : HostChoice ω}
    (h : Beside L target s₀ s listen upstream v) (hafter : ∃ v, Beside L target s₀ t listen upstream v)
    (hcall : call = .bindUdp s₀.controller.started listen ∧ v.udp = [] ∨
      call = .bindTcp s₀.controller.started listen ∧ v.tcp = []) :
    Starting L target s₀ listen upstream ⟨call, w, s, t⟩ := by
  obtain ⟨u, hu⟩ := hafter
  refine ⟨congrArg Controller.redirector hu.controller, .inr ⟨u, hu.toOpens⟩,
    fun id addr hc => ?_, fun id addr hc => ?_⟩
  · rcases hcall with ⟨rfl, hudp⟩ | ⟨rfl, _⟩
    · cases hc
      exact ⟨rfl, v, h.toOpens, hudp⟩
    · exact absurd hc (by simp)
  · rcases hcall with ⟨rfl, _⟩ | ⟨rfl, htcp⟩
    · exact absurd hc (by simp)
    · cases hc
      exact ⟨rfl, v, h.toOpens, htcp⟩

/-- Once both sockets are bound, the proxy runs. -/
theorem Beside.served {v : Server Anchor} (h : Beside L target s₀ s listen upstream v)
    (hudp : v.udp = [listen]) (htcp : v.tcp = [listen]) :
    Served L target s₀ listen upstream (.ok ⟨s₀.controller.started, listen, upstream⟩)
      { s with controller := { s₀.controller with
          running := s₀.controller.running ++ [⟨s₀.controller.started, listen, upstream⟩]
          started := s₀.controller.started + 1 } } := by
  have hforwards : Forwards L target { s with controller := { s₀.controller with
      running := s₀.controller.running ++ [⟨s₀.controller.started, listen, upstream⟩]
      started := s₀.controller.started + 1 } } v.zone upstream :=
    h.forwards.mono rfl (List.prefix_refl _)
  exact .inr ⟨v, rfl, rfl, h.env, h.reads, ⟨h.servers, h.id, .inr hudp, .inr htcp, hforwards⟩,
    ⟨h.id, hudp, htcp, hforwards⟩⟩

/-- The call that ends a start. -/
theorem Served.starting {p : DohProxy} {c : Proxy.Call Anchor} {w : HostChoice ω}
    (h : Served L target s₀ listen upstream (.ok p) t)
    (hudp : ∀ id addr, c ≠ .bindUdp id addr) (htcp : ∀ id addr, c ≠ .bindTcp id addr) :
    Starting L target s₀ listen upstream ⟨c, w, s, t⟩ := by
  rcases h with ⟨e, he, _⟩ | ⟨v, _, hcontroller, _, _, hopens, _⟩
  · exact absurd he (by simp)
  · have hredirector : t.controller.redirector = s₀.controller.redirector := by rw [hcontroller]
    exact ⟨hredirector, .inr ⟨v, hopens⟩,
      fun id addr hc => absurd hc (hudp id addr), fun id addr hc => absurd hc (htcp id addr)⟩

theorem serveZone_safe (hids : ∀ u ∈ s₀.servers, u.id ≠ s₀.controller.started) (hs : Same s₀ s)
    {zone : VerifiedForwarder Anchor} (hzone : Forwards L target s zone upstream) :
    Safe (Proxy.handler (ω := ω)) (fun _ => True) (Starting L target s₀ listen upstream)
      (Served L target s₀ listen upstream) (Proxy.serveZone zone listen upstream) s := by
  have hid : s.controller.started = s₀.controller.started := by rw [hs.controller]
  refine safe_perform.mpr fun w _ => ?_
  rw [Proxy.handler_newServer, hid, hs.servers]
  -- the server is there, with no socket
  obtain ⟨s₁, hs₁⟩ : ∃ s₁ : Host ρ Anchor, s₁ = { s.release w with
    servers := s₀.servers ++ [⟨s₀.controller.started, zone, [], []⟩] } := ⟨_, rfl⟩
  rw [← hs₁]
  have ho₁ : Beside L target s₀ s₁ listen upstream ⟨s₀.controller.started, zone, [], []⟩ := by
    rw [hs₁]
    exact ⟨⟨rfl, rfl, .inl rfl, .inl rfl, hzone.mono rfl (List.prefix_refl _)⟩, hs.controller,
      hs.env, hs.reads⟩
  refine ⟨⟨congrArg Controller.redirector ho₁.controller, .inr ⟨_, ho₁.toOpens⟩, nofun, nofun⟩,
    safe_perform.mpr fun w _ => ?_⟩
  rcases Proxy.bindUdp_cases w s₁ s₀.controller.started listen with ⟨e, he⟩ | ⟨_, he⟩ <;> rw [he]
  · refine ⟨ho₁.binding ⟨_, ho₁.release w⟩ (.inl ⟨rfl, rfl⟩), safe_perform.mpr fun w' _ => ?_⟩
    have hgone := ((ho₁.release w).release w').dropped hids
    rw [Proxy.handler_drop]
    exact ⟨hgone.starting nofun nofun, .inl ⟨_, rfl, hgone⟩⟩
  have ho₂ := (ho₁.release w).update hids (f := fun v => { v with udp := v.udp ++ [listen] }) rfl
    (.inr rfl) (.inl rfl) rfl
  refine ⟨ho₁.binding ⟨_, ho₂⟩ (.inl ⟨rfl, rfl⟩), safe_perform.mpr fun w' _ => ?_⟩
  rcases Proxy.bindTcp_cases w' ((s₁.release w).update s₀.controller.started _)
    s₀.controller.started listen with ⟨e, he⟩ | ⟨_, he⟩ <;> rw [he]
  · refine ⟨ho₂.binding ⟨_, ho₂.release w'⟩ (.inr ⟨rfl, rfl⟩), safe_perform.mpr fun w'' _ => ?_⟩
    have hgone := ((ho₂.release w').release w'').dropped hids
    rw [Proxy.handler_drop]
    exact ⟨hgone.starting nofun nofun, .inl ⟨_, rfl, hgone⟩⟩
  have ho₃ := (ho₂.release w').update hids (f := fun v => { v with tcp := v.tcp ++ [listen] }) rfl
    (.inr rfl) (.inr rfl) rfl
  refine ⟨ho₂.binding ⟨_, ho₃⟩ (.inr ⟨rfl, rfl⟩), safe_perform.mpr fun w'' _ => ?_⟩
  -- both sockets are bound
  have hserved := (ho₃.release w'').served rfl rfl
  rw [Proxy.handler_listening, ho₃.controller]
  exact ⟨hserved.starting nofun nofun, hserved⟩

end

/-! ### What a call of the controller does -/

section

variable {c : Controller ρ}

/-- The server of the next proxy is another one. -/
theorem Backed.ids (h : Backed L target s c) : ∀ v ∈ s.servers, v.id ≠ s.controller.started := by
  intro v hv hid
  obtain ⟨p, hp, hr⟩ : ∃ p ∈ c.running, Runs L target s v p := by
    obtain ⟨i, hi, rfl⟩ := List.getElem_of_mem hv
    have hlen := h.servers.length_eq
    exact ⟨c.running[i], List.getElem_mem _, h.servers.get (i := i) hi (by omega)⟩
  have hlt := h.fresh p hp
  rw [← hr.id, hid, h.controller] at hlt
  exact absurd hlt (lt_irrefl _)

/-- Of the servers and of the proxies, the others. -/
theorem forall₂_filter {vs : List (Server Anchor)} {ps : List DohProxy}
    (h : List.Forall₂ (Runs L target s) vs ps) (id : Nat) :
    List.Forall₂ (Runs L target s) (vs.filter fun v => v.id != id)
      (ps.filter fun p => p.id != id) := by
  induction h with
  | nil => exact .nil
  | @cons v p _ _ hr _ ih =>
    rw [List.filter_cons, List.filter_cons, hr.id]
    split
    · exact .cons hr ih
    · exact ih

/-- A proxy goes, and its server with it. -/
theorem Backed.gone (h : Backed L target s c) {d : Controller ρ} {id : Nat}
    (hcontroller : t.controller = d) (hservers : t.servers = s.without id) (henv : t.env = s.env)
    (hreads : t.reads = s.reads) (hrunning : d.running = c.running.filter fun p => p.id != id)
    (hstarted : d.started = c.started) : Backed L target t d where
  controller := hcontroller
  servers := by
    rw [hservers, hrunning]
    refine (forall₂_filter h.servers id).imp fun _ _ hr => hr.mono henv ?_
    rw [hreads]
  fresh p hp := by
    rw [hrunning] at hp
    rw [hstarted]
    exact h.fresh p (List.mem_of_mem_filter hp)

theorem start_safe (h : Backed L target s c) (listen : SocketAddr) (upstream : UpstreamSel) :
    Safe (Proxy.handler (ω := ω)) (fun _ => True) (Starting L target s listen upstream)
      (Served L target s listen upstream) (Proxy.start L target listen upstream) s := by
  unfold Proxy.start
  cases hservers : upstreamNameServers L upstream with
  | error e => exact .inl ⟨e, rfl, .refl s⟩
  | ok nameServers =>
    refine safe_bind.mpr ((buildForwardZone_safe (.refl s) hservers).post fun r t ht => ?_)
    obtain ⟨ht, hzone⟩ := ht
    cases r with
    | error e => exact .inl ⟨e, rfl, ht⟩
    | ok zone => exact serveZone_safe h.ids ht (hzone zone rfl)

/-- What `start` leaves backs what the controller takes it for. -/
theorem Served.backed {listen : SocketAddr} {upstream : UpstreamSel} {r : Except Error DohProxy}
    (hserved : Served L target s listen upstream r t) (h : Backed L target s c) :
    (∃ e, r = .error e ∧ Backed L target t c) ∨ r = .ok ⟨c.started, listen, upstream⟩ ∧
      Backed L target t { c with
        running := c.running ++ [⟨c.started, listen, upstream⟩], started := c.started + 1 } := by
  rcases hserved with ⟨e, hr, ht⟩ | ⟨v, hr, hcontroller, henv, hreads, hopens, hruns⟩
  · exact .inl ⟨e, hr, h.mono (ht.controller.trans h.controller) ht.servers ht.env ht.reads rfl rfl⟩
  · rw [h.controller] at hr hcontroller hruns
    refine .inr ⟨hr, hcontroller, ?_, fun p hp => ?_⟩
    · rw [hopens.servers]
      refine List.rel_append (h.servers.imp fun _ _ hr => hr.mono henv hreads) ?_
      exact .cons hruns .nil
    · rcases List.mem_append.mp hp with hp | hp
      · exact Nat.lt_succ_of_lt (h.fresh p hp)
      · rw [List.mem_singleton.mp hp]
        exact Nat.lt_succ_self _

/-- `stop`, whether or not it fails. -/
theorem stop_safe (h : Backed L target s c) (proxy : DohProxy) :
    Safe (Proxy.handler (ω := ω)) (fun _ => True)
      (fun e => e.call = .shutdown proxy.id ∧
        Backed L target e.after { c with running := c.gone proxy })
      (fun r t => Backed L target t { c with running := c.gone proxy } ∧
        (r = .ok () ∨ ∃ cause, r = .error (.msg cause))) (Proxy.stop proxy) s := by
  refine safe_perform.mpr fun w _ => ?_
  have hgone : Backed L target (Proxy.handler (.shutdown proxy.id) w s).2
      { c with running := c.gone proxy } :=
    h.gone (by rw [← h.controller]; rfl) rfl rfl rfl rfl rfl
  refine ⟨⟨rfl, hgone⟩, ?_⟩
  cases (Proxy.handler (.shutdown proxy.id) w s).1 with
  | ok _ => exact ⟨hgone, .inl rfl⟩
  | error e => exact ⟨hgone, .inr ⟨_, rfl⟩⟩

end

/-! ### The two levels -/

/-- Replies after which the controller goes on alike: errors of `start` that read the same
are as good as one another. -/
def Alike : ∀ c : Call, Reply c → Reply c → Prop
  | .start .., r, r' => r = r' ∨ ∃ e e', r = .error e ∧ r' = .error e' ∧ e.text = e'.text
  | .status, r, r' | .set _, r, r' | .port, r, r' | .stop _, r, r' | .putProxy _, r, r'
  | .takeProxy, r, r' | .apply _, r, r' | .restore, r, r' | .flushCache, r, r'
  | .subscribe, r, r' => r = r'

theorem Alike.refl (c : Call) (r : Reply c) : Alike c r r := by
  cases c with
  | start => exact .inl rfl
  | status | set | port | stop | putProxy | takeProxy | apply | restore | flushCache
    | subscribe => rfl

/-- After any call but `start`, alike replies are the same. -/
theorem Alike.eq {c : Call} {r r' : Reply c} (hc : ∀ listen upstream, c ≠ .start listen upstream)
    (h : Alike c r r') : r = r' := by
  cases c with
  | start listen upstream => exact absurd rfl (hc listen upstream)
  | status | set | port | stop | putProxy | takeProxy | apply | restore | flushCache
    | subscribe => exact h

/-- The case of any call but `start`. -/
theorem blind_call {α : Type} {c : Call} {f : Reply c → Prog sig α}
    (hc : ∀ listen upstream, c ≠ .start listen upstream) (h : ∀ r, (f r).Blind Alike) :
    (Prog.perform (E := sig) c >>= f).Blind Alike :=
  ⟨fun _ _ hr => congrArg f (hr.eq hc), h⟩

theorem ends_blind (st : Status) : (do set st; readStatus : Prog sig Status).Blind Alike :=
  blind_call nofun fun _ => blind_call nofun fun _ => trivial

theorem redirectTo_blind (upstream : UpstreamSel) (listen : SocketAddr) (proxy : DohProxy) :
    (redirectTo upstream listen proxy).Blind Alike := by
  refine blind_call nofun fun r => ?_
  cases r with
  | error e => exact blind_call nofun fun _ => ends_blind _
  | ok _ => exact blind_call nofun fun _ => blind_call nofun fun _ => ends_blind _

theorem connect_blind (upstream : UpstreamSel) : (connect upstream).Blind Alike := by
  refine blind_call nofun fun status => ?_
  split
  · trivial
  · refine blind_call nofun fun _ => blind_call nofun fun port => ⟨?_, fun r => ?_⟩
    · rintro r r' (rfl | ⟨e, e', rfl, rfl, htext⟩)
      · rfl
      · -- a status shows the text of an error only
        have hst : errorStatus e = errorStatus e' := by rw [errorStatus, errorStatus, htext]
        show (do set (errorStatus e); readStatus : Prog sig Status) = _
        rw [hst]
        rfl
    · cases r with
      | error e => exact ends_blind _
      | ok proxy => exact redirectTo_blind _ _ _

theorem finishDisconnect_blind : finishDisconnect.Blind Alike :=
  blind_call nofun fun _ => ends_blind _

theorem disconnect_blind : disconnect.Blind Alike := by
  refine blind_call nofun fun _ => blind_call nofun fun proxy => ?_
  cases proxy with
  | none => exact finishDisconnect_blind
  | some proxy => exact blind_call nofun fun _ => finishDisconnect_blind

theorem dispatch_blind (cmd : Command) : (dispatch cmd).Blind Alike := by
  cases cmd with
  | ping => trivial
  | getStatus => exact blind_call nofun fun _ => trivial
  | subscribe => exact blind_call nofun fun _ => blind_call nofun fun _ => trivial
  | connect upstream => exact Prog.Blind.bind (fun _ => by trivial) (connect_blind upstream)
  | disconnect => exact Prog.Blind.bind (fun _ => by trivial) disconnect_blind

section

variable {R : DnsRedirector ω ρ} {c : Controller ρ}

/-- A call that is made in one step on both levels. -/
theorem Backed.same (h : Backed L target s c) {call : Call} (hcall : method L target call = none)
    (w : HostChoice ω) :
    Alike call (handler R call w s).1 (Controller.handler R call w.step c).1 ∧
      Backed L target (handler R call w s).2 (Controller.handler R call w.step c).2 := by
  have hc := h.controller
  subst hc
  cases call with
  | start | stop => exact absurd hcall (by simp [method])
  | status | set | port | takeProxy | apply | restore | flushCache | subscribe =>
    exact ⟨.refl _ _, h.mono rfl rfl rfl (List.prefix_refl _) rfl rfl⟩
  | putProxy proxy =>
    refine ⟨rfl, ?_⟩
    have hstate : ∀ {t : Host ρ Anchor}, s.controller.proxy.elim (s.release w)
        (fun old => (s.release w).leave old.id) = t → (handler R (.putProxy proxy) w s).2 =
          { t with controller := (Controller.handler R (.putProxy proxy) w.step s.controller).2 } := by
      rintro t rfl
      rfl
    have hrunning : (Controller.handler R (.putProxy proxy) w.step s.controller).2.running =
        s.controller.proxy.elim s.controller.running s.controller.gone := rfl
    cases hold : s.controller.proxy with
    | none =>
      rw [hold] at hrunning
      rw [hstate (by rw [hold])]
      exact h.mono rfl rfl rfl (List.prefix_refl _) hrunning rfl
    | some old =>
      rw [hold] at hrunning
      rw [hstate (by rw [hold])]
      exact h.gone rfl rfl rfl rfl hrunning rfl

/-- The world keeps to `A` in the calls of the controller. -/
def Keeping (A : CallEvent sig (Choice ω) (Controller ρ) → Prop)
    (e : CallEvent (sig.sum (Proxy.sig Anchor)) (HostChoice ω) (Host ρ Anchor)) : Prop :=
  match e.call with
  | .inl call => A ⟨call, e.choice.step, e.before.controller, e.after.controller⟩
  | .inr _ => True

/-- **What is safe of the controller** is safe of it with its proxies. -/
theorem safe_hosted {α : Type} [Inhabited ω] {A B : CallEvent sig (Choice ω) (Controller ρ) → Prop}
    {Q : α → Controller ρ → Prop} (hfree : ∀ call q, method L target call = some q →
      ∀ w c, A ⟨call, w, c, (Controller.handler R call w c).2⟩)
    {p : Prog sig α} (hp : p.Blind Alike) (h : Backed L target s c)
    (hsafe : Safe (Controller.handler R) A B Q p c) :
    Safe (calls R) (Keeping A)
      (Stands (Controller.handler R) (Backed L target) (During L target) B)
      (fun a t => ∃ d, Backed L target t d ∧ Q a d) (p.inline (method L target)) s := by
  refine safe_refined (fun call w s c hcall h => ⟨w.step, (h.same hcall w).1, (h.same hcall w).2,
    fun hA => ?_⟩) ?_ hfree hp h hsafe
  · have hA : A ⟨call, w.step, s.controller, (handler R call w s).2.controller⟩ := hA
    rw [(h.same hcall w).2.controller, h.controller] at hA
    exact hA
  intro call q s c hq h
  cases call with
  | start listen upstream =>
    obtain rfl := Option.some.inj hq
    refine (safe_lift (P := Part.self _) (fun _ _ _ _ => trivial) (fun call w t ht w' => ?_)
      (start_safe h listen upstream)).post fun r t ht => ?_
    · exact ⟨call, rfl, s, h, ht⟩
    · rcases ht.2.backed h with ⟨e, hr, hb⟩ | ⟨hr, hb⟩
      · exact ⟨⟨.fails e.text, default⟩, .inr ⟨e, _, hr, rfl, rfl⟩, hb⟩
      · exact ⟨⟨.ok, default⟩, .inl hr, hb⟩
  | stop proxy =>
    obtain rfl := Option.some.inj hq
    refine (safe_lift (P := Part.self _) (fun _ _ _ _ => trivial) (fun call w t ht w' => ?_)
      (stop_safe h proxy)).post fun r t ht => ?_
    · exact ⟨call, rfl, ht⟩
    · obtain ⟨_, hb, hr | ⟨cause, hr⟩⟩ := ht
      · exact ⟨⟨.ok, default⟩, hr, hb⟩
      · exact ⟨⟨.fails cause, default⟩, hr, hb⟩
  | status | set | port | putProxy | takeProxy | apply | restore | flushCache | subscribe =>
    exact absurd hq (by simp [method])

end

end Host

end Voidns
