import Mathlib.Data.List.Perm.Subperm
import Voidns.Controller.BlackHole
import Voidns.Daemon.Mutex
import Voidns.Proxy.Host

/-!
# The sockets

Whatever the commands, whatever fails, and however long the sockets of a server stay bound
that has been dropped: the servers of the process hold no socket but a UDP and a TCP one on
`127.0.0.1`; when one is bound no server is there that holds it; and a server holds both exactly
while the status is connected (`sockets_follow_status`).

On the way the controller is followed to where it starts a proxy (`Aims`): none is running
then.  The process refines it (`hosted_refines`), and so under the redirector's contract the
system DNS never points where a socket is missing (`redirect_answered`).
-/

namespace Voidns

open Effect Controller

variable {ω ρ Cert Anchor : Type}

namespace Controller

/-! ### Where a proxy is started -/

/-- The proxies: one at most, on the one address, for an upstream in `U`. -/
structure Single (port : UInt16) (U : UpstreamSel → Prop) (c : Controller ρ) : Prop where
  own : c.port = port
  few : c.running.length ≤ 1
  proxies : ∀ p ∈ c.running, p.listen = ⟨.localhost, port⟩ ∧ U p.upstream

/-- A call where a proxy is started when none is running. -/
structure Aims (port : UInt16) (U : UpstreamSel → Prop)
    (e : CallEvent sig (Choice ω) (Controller ρ)) : Prop where
  before : Single port U e.before
  after : Single port U e.after
  start : ∀ listen upstream, e.call = .start listen upstream →
    e.before.running = [] ∧ listen = ⟨.localhost, port⟩ ∧ U upstream

def Call.isStart : Call → Bool
  | .start .. => true
  | _ => false

section

variable {R : DnsRedirector ω ρ} {port : UInt16} {U : UpstreamSel → Prop} {c : Controller ρ}

/-- What else changes does not matter. -/
theorem Single.congr {d : Controller ρ} (h : Single port U c) (hport : d.port = c.port)
    (hrunning : d.running = c.running) : Single port U d := by
  refine ⟨hport.trans h.own, ?_, ?_⟩ <;> rw [hrunning]
  · exact h.few
  · exact h.proxies

/-- A proxy is gone. -/
theorem Single.gone {d : Controller ρ} (h : Single port U c) (hport : d.port = c.port)
    {proxy : DohProxy} (hrunning : d.running = c.gone proxy) : Single port U d := by
  refine ⟨hport.trans h.own, ?_, ?_⟩ <;> rw [hrunning]
  · exact (List.length_filter_le _ _).trans h.few
  · exact fun p hp => h.proxies p (List.mem_of_mem_filter hp)

/-- Every other call only takes proxies away. -/
theorem Single.call (h : Single port U c) {call : Call} (hcall : call.isStart = false)
    (w : Choice ω) : Single port U (handler R call w c).2 := by
  cases call with
  | start => exact absurd hcall (by simp [Call.isStart])
  | status | set | port | takeProxy | apply | restore | flushCache | subscribe =>
    exact h.congr rfl rfl
  | stop proxy =>
    have hrunning : (handler R (.stop proxy) w c).2.running = c.gone proxy := rfl
    exact h.gone rfl hrunning
  | putProxy proxy =>
    have hrunning : (handler R (.putProxy proxy) w c).2.running = c.proxy.elim c.running c.gone := rfl
    cases hold : c.proxy with
    | none => exact h.congr rfl (by rw [hrunning, hold]; rfl)
    | some old =>
      rw [hold] at hrunning
      exact h.gone rfl hrunning

/-- A call that starts none. -/
theorem Single.aims (h : Single port U c) {call : Call} (hcall : call.isStart = false)
    (w : Choice ω) : Aims port U ⟨call, w, c, (handler R call w c).2⟩ := by
  refine ⟨h, h.call hcall w, fun listen upstream hs => ?_⟩
  have hstart : call = .start listen upstream := hs
  exact absurd hcall (by rw [hstart]; simp [Call.isStart])

/-- A program without a start. -/
theorem aims_frame {α : Type} : ∀ {p : Prog sig α}, p.Calls (fun c : Call => c.isStart = false) →
    ∀ {c : Controller ρ}, Single port U c →
      Safe (handler R) (fun _ => True) (Aims port U) (fun _ t => Single port U t) p c := by
  intro p
  induction p with
  | ret a => intro _ c h; exact h
  | call call k ih =>
    intro hp c h w _
    exact ⟨h.aims hp.1 w, ih _ (hp.2 _) (h.call hp.1 w)⟩

theorem redirectTo_calls (upstream : UpstreamSel) (listen : SocketAddr) (proxy : DohProxy) :
    (redirectTo upstream listen proxy).Calls fun c : Call => c.isStart = false := by
  refine Prog.calls_perform.mpr ⟨rfl, fun r => ?_⟩
  cases r with
  | error e => exact ⟨rfl, fun _ => ⟨rfl, fun _ => .perform rfl⟩⟩
  | ok _ => exact ⟨rfl, fun _ => ⟨rfl, fun _ => ⟨rfl, fun _ => .perform rfl⟩⟩⟩

theorem disconnect_calls : disconnect.Calls fun c : Call => c.isStart = false := by
  refine Prog.calls_perform.mpr ⟨rfl, fun _ => killProxy_afterRestore.mono fun c hc => ?_⟩
  cases c with
  | start => exact absurd hc (by simp [Call.afterRestore])
  | _ => rfl

theorem ends_calls (status : Status) :
    (do set status; readStatus : Prog sig Status).Calls fun c : Call => c.isStart = false :=
  ⟨rfl, fun _ => .perform rfl⟩

theorem getStatus_calls : (dispatch .getStatus).Calls fun c : Call => c.isStart = false :=
  ⟨rfl, fun _ => trivial⟩

theorem subscribe_calls : (dispatch .subscribe).Calls fun c : Call => c.isStart = false :=
  ⟨rfl, fun _ => ⟨rfl, fun _ => trivial⟩⟩

/-- `connect` from where it starts the proxy. -/
theorem start_aims (h : Single port U c) (hrunning : c.running = []) {upstream : UpstreamSel}
    (hu : U upstream) :
    Safe (handler R) (fun _ => True) (Aims port U) (fun _ t => Single port U t)
      (do match ← start ⟨.localhost, c.port⟩ upstream with
          | .error e =>
            set (errorStatus e)
            readStatus
          | .ok proxy => redirectTo upstream ⟨.localhost, c.port⟩ proxy) c := by
  have hlisten : (⟨.localhost, c.port⟩ : SocketAddr) = ⟨.localhost, port⟩ := by rw [h.own]
  have hstart : ∀ listen u, Call.start ⟨.localhost, c.port⟩ upstream = .start listen u →
      c.running = [] ∧ listen = ⟨.localhost, port⟩ ∧ U u := by
    rintro _ _ hstart
    cases hstart
    exact ⟨hrunning, hlisten, hu⟩
  refine safe_perform.mpr fun w _ => ?_
  rcases start_cases R w c ⟨.localhost, c.port⟩ upstream with ⟨e, he⟩ | he <;> rw [he]
  · exact ⟨⟨h, h, hstart⟩, aims_frame (ends_calls _) h⟩
  · have hstarted : Single port U { c with
        running := c.running ++ [⟨c.started, ⟨.localhost, c.port⟩, upstream⟩]
        started := c.started + 1 } := by
      refine ⟨h.own, ?_, ?_⟩ <;> rw [hrunning]
      · exact le_refl 1
      · intro p hp
        rw [List.mem_singleton.mp hp]
        exact ⟨hlisten, hu⟩
    exact ⟨⟨h, hstarted, hstart⟩, aims_frame (redirectTo_calls _ _ _) hstarted⟩

theorem connect_aims {Up Down : ρ → Prop} (hs : Settled Up Down c) (h : Single port U c)
    {upstream : UpstreamSel} (hu : U upstream) :
    Safe (handler R) (fun _ => True) (Aims port U) (fun _ t => Single port U t)
      (connect upstream) c := by
  refine safe_perform.mpr fun w _ => ⟨h.aims rfl w, ?_⟩
  rw [handler_status]
  split
  · exact h
  rename_i hidle
  have hrunning : c.running = [] := by
    cases hs with
    | connected p _ _ hst _ => exact absurd (Or.inl (by rw [hst]; rfl)) hidle
    | disconnected _ hr _ _ => exact hr
  refine safe_perform.mpr fun w _ => ⟨h.aims rfl w, ?_⟩
  let connecting : Status := ⟨.connecting, some upstream.label, none, none⟩
  have hset : Single port U (handler R (.set connecting) w c).2 := h.call rfl w
  exact safe_perform.mpr fun w _ => ⟨hset.aims rfl w, start_aims hset hrunning hu⟩

/-- **Commands start one proxy at a time**, on the one address, for the upstream they name. -/
theorem dispatch_aims {Up Down : ρ → Prop} (hs : Settled Up Down c) (h : Single port U c)
    {cmd : Command} (hu : ∀ upstream, cmd = .connect upstream → U upstream) :
    Safe (handler R) (fun _ => True) (Aims port U) (fun _ t => Single port U t)
      (dispatch cmd) c := by
  cases cmd with
  | ping => exact h
  | getStatus => exact aims_frame getStatus_calls h
  | subscribe => exact aims_frame subscribe_calls h
  | connect upstream => exact safe_bind.mpr (connect_aims hs h (hu _ rfl))
  | disconnect => exact safe_bind.mpr (aims_frame disconnect_calls h)

theorem each_aims {A : CallEvent sig (Choice ω) (Controller ρ) → Prop} {Up Down : ρ → Prop}
    (hk : Keeps R A Up Down) : ∀ {commands : List Command} {c : Controller ρ},
    (∀ upstream, .connect upstream ∈ commands → U upstream) → Settled Up Down c →
    Single port U c →
      Safe (handler R) A (fun e => Orderly Up Down e ∧ Aims port U e)
        (fun _ t => Settled Up Down t ∧ Single port U t) (Prog.each dispatch commands) c := by
  intro commands
  induction commands with
  | nil => intro c _ hs h; exact ⟨hs, h⟩
  | cons cmd commands ih =>
    intro c hU hs h
    have hu : ∀ upstream, cmd = .connect upstream → U upstream := by
      rintro upstream rfl
      exact hU upstream List.mem_cons_self
    have haims := dispatch_aims (R := R) hs h hu
    have hturn := (Daemon.dispatch_safe hk cmd hs).and
      (haims.mono (fun _ _ => trivial) (fun _ he => he) fun _ _ ht => ht)
    refine safe_bind.mpr (hturn.post fun reply t ht => ?_)
    exact ih (fun upstream hin => hU upstream (List.mem_cons_of_mem _ hin)) ht.1.1 ht.2

end

end Controller

namespace Host

variable {L : Libraries Cert Anchor} {target : Target} {R : DnsRedirector ω ρ} {port : UInt16}
  {U : UpstreamSel → Prop} {s : Host ρ Anchor} {c : Controller ρ}

/-! ### The servers -/

/-- The sockets of a transport, of the servers that are there and of those that are gone. -/
def sockets (s : Host ρ Anchor) (transport : Transport) : List SocketAddr :=
  (s.servers ++ s.closing).flatMap fun v => v.sockets transport

/-- No sockets but the two. -/
structure Confined (port : UInt16) (s : Host ρ Anchor) : Prop where
  few : s.servers.length ≤ 1
  sockets : ∀ transport, s.sockets transport = [] ∨ s.sockets transport = [⟨.localhost, port⟩]

/-- A socket that is being bound is one of the two, and no server that is there holds it. -/
structure Unopposed (port : UInt16)
    (e : CallEvent (sig.sum (Proxy.sig Anchor)) (HostChoice ω) (Host ρ Anchor)) : Prop where
  udp : ∀ id addr, e.call = .inr (.bindUdp id addr) →
    addr = ⟨.localhost, port⟩ ∧ ∀ v ∈ e.before.servers, addr ∉ v.udp
  tcp : ∀ id addr, e.call = .inr (.bindTcp id addr) →
    addr = ⟨.localhost, port⟩ ∧ ∀ v ∈ e.before.servers, addr ∉ v.tcp

/-- What the servers forward to, also those that are gone. -/
def Serving (L : Libraries Cert Anchor) (target : Target) (U : UpstreamSel → Prop)
    (s : Host ρ Anchor) : Prop :=
  ∀ v ∈ s.servers ++ s.closing, ∃ upstream, U upstream ∧ Forwards L target s v.zone upstream

/-- The servers that are there. -/
structure Serves (L : Libraries Cert Anchor) (target : Target) (U : UpstreamSel → Prop)
    (s : Host ρ Anchor) : Prop where
  few : s.servers.length ≤ 1
  forwards : ∀ v ∈ s.servers, ∃ upstream, U upstream ∧ Forwards L target s v.zone upstream

theorem Backed.proxy_of (h : Backed L target s c) {v : Server Anchor} (hv : v ∈ s.servers) :
    ∃ p ∈ c.running, Runs L target s v p := by
  obtain ⟨i, hi, rfl⟩ := List.getElem_of_mem hv
  have hlen := h.servers.length_eq
  exact ⟨c.running[i], List.getElem_mem _, h.servers.get (i := i) hi (by omega)⟩

theorem Backed.serves (h : Backed L target s c) (hs : Single port U c) : Serves L target U s := by
  refine ⟨h.servers.length_eq.trans_le hs.few, fun v hv => ?_⟩
  obtain ⟨p, hp, hruns⟩ := h.proxy_of hv
  exact ⟨p.upstream, (hs.proxies p hp).2, hruns.forwards⟩

/-- A server that starts when there is no other. -/
theorem Opens.serves {s₀ : Host ρ Anchor} (h₀ : s₀.servers = []) {upstream : UpstreamSel}
    (hu : U upstream) {v : Server Anchor} {listen : SocketAddr}
    (h : Opens L target s₀ s listen upstream v) : Serves L target U s := by
  have hservers : s.servers = [v] := by rw [h.servers, h₀, List.nil_append]
  refine ⟨by rw [hservers]; exact le_refl 1, fun u hu' => ?_⟩
  rw [hservers] at hu'
  rw [List.mem_singleton.mp hu']
  exact ⟨upstream, hu, h.forwards⟩

/-- A call of a start that found no other server. -/
theorem Starting.serves {s₀ : Host ρ Anchor} {upstream : UpstreamSel}
    {e : CallEvent (Proxy.sig Anchor) (HostChoice ω) (Host ρ Anchor)}
    (h : Starting L target s₀ ⟨.localhost, port⟩ upstream e) (h₀ : s₀.servers = [])
    (hu : U upstream) : Serves L target U e.after ∧
      (∀ id addr, e.call = .bindUdp id addr →
        addr = ⟨.localhost, port⟩ ∧ ∀ v ∈ e.before.servers, addr ∉ v.udp) ∧
      ∀ id addr, e.call = .bindTcp id addr →
        addr = ⟨.localhost, port⟩ ∧ ∀ v ∈ e.before.servers, addr ∉ v.tcp := by
  have hin : ∀ {v : Server Anchor}, Opens L target s₀ e.before ⟨.localhost, port⟩ upstream v →
      ∀ u ∈ e.before.servers, u = v := by
    intro v ho u hu
    rw [ho.servers, h₀, List.nil_append] at hu
    exact List.mem_singleton.mp hu
  refine ⟨?_, fun id addr hc => ?_, fun id addr hc => ?_⟩
  · rcases h.after with hnone | ⟨v, hopens⟩
    · have hnone : e.after.servers = [] := hnone.trans h₀
      exact ⟨by rw [hnone]; exact Nat.zero_le 1, by simp [hnone]⟩
    · exact hopens.serves h₀ hu
  · obtain ⟨haddr, u, hopens, hnone⟩ := h.bindUdp id addr hc
    refine ⟨haddr, fun v hv => ?_⟩
    rw [hin hopens v hv, hnone]
    simp
  · obtain ⟨haddr, u, hopens, hnone⟩ := h.bindTcp id addr hc
    refine ⟨haddr, fun v hv => ?_⟩
    rw [hin hopens v hv, hnone]
    simp

/-- Both sockets are bound. -/
def Answers (port : UInt16) (s : Host ρ Anchor) : Prop :=
  ∃ v ∈ s.servers, v.udp = [⟨.localhost, port⟩] ∧ v.tcp = [⟨.localhost, port⟩]

theorem Backed.answers (h : Backed L target s c) (hs : Single port U c) (hne : c.running ≠ []) :
    Answers port s := by
  obtain ⟨p, ps, hr⟩ := List.exists_cons_of_ne_nil hne
  have hservers := h.servers
  rw [hr] at hservers
  obtain ⟨v, vs, hruns, _, hv⟩ := List.forall₂_cons_right_iff.mp hservers
  have hlisten := (hs.proxies p (by rw [hr]; exact List.mem_cons_self)).1
  exact ⟨v, by rw [hv]; exact List.mem_cons_self, by rw [hruns.udp, hlisten],
    by rw [hruns.tcp, hlisten]⟩

/-- **Every call of every run** leaves one server at most, and binds a socket that none holds
that is there; and where none answers, the redirector is down. -/
theorem stands_serves [Inhabited ω] {Up Down : ρ → Prop}
    {e : CallEvent (sig.sum (Proxy.sig Anchor)) (HostChoice ω) (Host ρ Anchor)}
    (h : Stands (Controller.handler R) (Backed L target) (During L target)
      (fun e => Orderly Up Down e ∧ Aims port U e) e) :
    (Serves L target U e.after ∧ Unopposed port e) ∧
      (Answers port e.after ∨ Down e.after.controller.redirector) := by
  have hbacked : ∀ {d : Controller ρ}, Backed L target e.after d → Single port U d →
      (d.running = [] → Down d.redirector) →
        Answers port e.after ∨ Down e.after.controller.redirector := by
    intro d hd hs hdown
    by_cases hr : d.running = []
    · rw [hd.controller]
      exact .inr (hdown hr)
    · exact .inl (hd.answers hs hr)
  cases h with
  | same e' hcall _ hafter hB =>
    exact ⟨⟨hafter.serves hB.2.after, fun id addr hc => absurd (hcall.symm.trans hc) nofun,
      fun id addr hc => absurd (hcall.symm.trans hc) nofun⟩, hbacked hafter hB.2.after hB.1.covered⟩
  | part call s' hall =>
    cases call with
    | start listen upstream =>
      -- a start that fails leaves the controller as it was
      obtain ⟨⟨call, hcall, s₀, hs₀, hstarting⟩, horderly, haims⟩ := hall ⟨.fails "", default⟩
      obtain ⟨hrunning, rfl, hu⟩ := haims.start listen upstream rfl
      have h₀ : s₀.servers = [] := by
        have hservers := hs₀.servers
        rw [hrunning] at hservers
        exact List.forall₂_nil_right_iff.mp hservers
      obtain ⟨hserves, hudp, htcp⟩ := hstarting.serves h₀ hu
      refine ⟨⟨hserves, fun id addr hc => hudp id addr (Sum.inr.inj (hcall.symm.trans hc)),
        fun id addr hc => htcp id addr (Sum.inr.inj (hcall.symm.trans hc))⟩, .inr ?_⟩
      have hdown : Down s'.redirector := horderly.covered hrunning
      have hsame : e.after.controller.redirector = s₀.controller.redirector := hstarting.redirector
      rw [hsame, hs₀.controller]
      exact hdown
    | stop proxy =>
      obtain ⟨⟨call, hcall, rfl, hafter⟩, horderly, haims⟩ := hall default
      exact ⟨⟨hafter.serves haims.after, fun id addr hc => absurd (hcall.symm.trans hc) nofun,
        fun id addr hc => absurd (hcall.symm.trans hc) nofun⟩,
        hbacked hafter haims.after horderly.covered⟩
    | status | set | port | putProxy | takeProxy | apply | restore | flushCache | subscribe =>
      obtain ⟨⟨call, hcall, hfalse⟩, _⟩ := hall default
      exact hfalse.elim

/-! ### What is held -/

theorem close_sockets (v : Server Anchor) (closes : Transport → Bool) (transport : Transport) :
    (v.close closes).sockets transport = if closes transport then [] else v.sockets transport := by
  cases transport <;> rfl

section

variable (s) (w : HostChoice ω) (transport : Transport) (id : Nat)

/-- To close sockets leaves no others. -/
theorem release_sockets : ((s.release w).sockets transport).Subperm (s.sockets transport) := by
  have hclosed : (s.closing.map fun v => v.close w.closes).flatMap (fun v => v.sockets transport) =
      if w.closes transport then [] else s.closing.flatMap fun v => v.sockets transport := by
    simp only [List.flatMap_map, close_sockets]
    split
    · simp
    · rfl
  refine List.Sublist.subperm ?_
  unfold sockets
  rw [List.flatMap_append, List.flatMap_append]
  refine (List.Sublist.refl _).append ?_
  show (List.flatMap _ (s.closing.map _)).Sublist _
  rw [hclosed]
  split
  · exact List.nil_sublist _
  · exact .refl _

/-- A server that is dropped holds what it held. -/
theorem leave_sockets : ((s.leave id).sockets transport).Perm (s.sockets transport) := by
  refine List.Perm.flatMap_right _ ?_
  have hsplit := List.filter_append_perm (fun v : Server Anchor => v.id == id) s.servers
  show (s.without id ++ (s.closing ++ s.servers.filter fun v => v.id == id)).Perm _
  refine (List.Perm.append_left _ List.perm_append_comm).trans ?_
  rw [← List.append_assoc]
  exact (List.perm_append_comm.trans hsplit).append_right _

/-- What a server binds is added, where there are no others. -/
theorem update_sockets (hfew : s.servers.length ≤ 1) {f : Server Anchor → Server Anchor}
    {more : List SocketAddr} (hf : ∀ v, (f v).sockets transport = v.sockets transport ++ more) :
    ((s.update id f).sockets transport).Subperm (more ++ s.sockets transport) := by
  have hsame : (s.sockets transport).Subperm (more ++ s.sockets transport) :=
    (List.sublist_append_right _ _).subperm
  obtain ⟨controller, env, reads, servers, closing⟩ := s
  cases servers with
  | nil => exact hsame
  | cons v servers =>
    obtain rfl : servers = [] := by simpa using hfew
    by_cases hid : v.id = id
    · simp only [sockets, update, List.map_cons, List.map_nil, if_pos hid, List.singleton_append,
        List.flatMap_cons, hf]
      rw [← List.append_assoc]
      exact (List.perm_append_comm.append_right _).subperm
    · simp only [sockets, update, List.map_cons, List.map_nil, if_neg hid] at hsame ⊢
      exact hsame

end

/-- A socket that is free is bound beside no other. -/
theorem bound_sockets {id : Nat} (hport : port ≠ 0) (hfew : s.servers.length ≤ 1)
    (h : ∀ transport, (s.sockets transport).Subperm [⟨.localhost, port⟩])
    {bound : Transport} (hfree : ¬ s.Taken bound ⟨.localhost, port⟩)
    {f : Server Anchor → Server Anchor} (hf : ∀ v transport, (f v).sockets transport =
      v.sockets transport ++ if transport = bound then [⟨.localhost, port⟩] else [])
    (transport : Transport) :
    ((s.update id f).sockets transport).Subperm [⟨.localhost, port⟩] := by
  refine (update_sockets s transport id hfew fun v => hf v transport).trans ?_
  split
  · rename_i hbound
    subst hbound
    have hnone : s.sockets transport = [] := by
      refine (List.subperm_singleton_iff.mp (h transport)).resolve_right fun hone => hfree ⟨hport, ?_⟩
      have hin : ⟨.localhost, port⟩ ∈ s.sockets transport := hone ▸ List.mem_cons_self
      exact List.mem_flatMap.mp hin
    rw [hnone]
    exact .refl _
  · exact h transport

/-- **No call** brings a second socket on a transport. -/
theorem calls_sockets {call : (sig.sum (Proxy.sig Anchor)).Call} {w : HostChoice ω}
    (hport : port ≠ 0) (hfew : s.servers.length ≤ 1)
    (haddr : ∀ id addr, call = .inr (.bindUdp id addr) ∨ call = .inr (.bindTcp id addr) →
      addr = ⟨.localhost, port⟩)
    (h : ∀ transport, (s.sockets transport).Subperm [⟨.localhost, port⟩]) (transport : Transport) :
    ((calls R call w s).2.sockets transport).Subperm [⟨.localhost, port⟩] := by
  have hrelease : ∀ transport, ((s.release w).sockets transport).Subperm [⟨.localhost, port⟩] :=
    fun transport => (release_sockets s w transport).trans (h transport)
  have hleave : ∀ id, (((s.release w).leave id).sockets transport).Subperm [⟨.localhost, port⟩] :=
    fun id => (leave_sockets _ transport id).subperm.trans (hrelease transport)
  cases call with
  | inl call =>
    cases call with
    | putProxy proxy =>
      show ((s.controller.proxy.elim (s.release w) fun old =>
        (s.release w).leave old.id).sockets transport).Subperm _
      cases s.controller.proxy with
      | none => exact hrelease transport
      | some old => exact hleave old.id
    | start | status | set | port | stop | takeProxy | apply | restore | flushCache | subscribe =>
      exact hrelease transport
  | inr call =>
    cases call with
    | env | readFile | listening => exact hrelease transport
    | drop server | shutdown server => exact hleave server
    | buildResolver resolver =>
      show ((Proxy.handler (.buildResolver resolver) w s).2.sockets transport).Subperm _
      rw [Proxy.handler_buildResolver]
      exact hrelease transport
    | newServer zone =>
      have hsame : (calls R (.inr (.newServer zone)) w s).2.sockets transport =
          (s.release w).sockets transport := by
        unfold sockets
        show List.flatMap _ ((s.servers ++ [_]) ++ (s.release w).closing) = _
        cases transport <;> simp [Server.sockets, release]
      rw [hsame]
      exact hrelease transport
    | bindUdp server listen =>
      obtain rfl := haddr server listen (.inl rfl)
      show ((Proxy.handler (.bindUdp server _) w s).2.sockets transport).Subperm _
      rcases Proxy.bindUdp_cases w s server ⟨.localhost, port⟩ with ⟨e, he⟩ | ⟨hfree, he⟩ <;> rw [he]
      · exact hrelease transport
      · refine bound_sockets (s := s.release w) hport hfew hrelease hfree (fun v transport => ?_) transport
        cases transport <;> simp [Server.sockets]
    | bindTcp server listen =>
      obtain rfl := haddr server listen (.inr rfl)
      show ((Proxy.handler (.bindTcp server _) w s).2.sockets transport).Subperm _
      rcases Proxy.bindTcp_cases w s server ⟨.localhost, port⟩ with ⟨e, he⟩ | ⟨hfree, he⟩ <;> rw [he]
      · exact hrelease transport
      · refine bound_sockets (s := s.release w) hport hfew hrelease hfree (fun v transport => ?_) transport
        cases transport <;> simp [Server.sockets]

/-- What a call leaves as it was: the environment, what has been read, and the zones of servers
that are gone. -/
structure Later (s t : Host ρ Anchor) : Prop where
  env : t.env = s.env
  reads : s.reads <+: t.reads
  closing : ∀ v ∈ t.closing, ∃ u ∈ s.servers ++ s.closing, u.zone = v.zone

theorem Later.release (s : Host ρ Anchor) (w : HostChoice ω) : Later s (s.release w) := by
  refine ⟨rfl, List.prefix_refl _, fun v hv => ?_⟩
  obtain ⟨u, hu, rfl⟩ := List.mem_map.mp hv
  exact ⟨u, List.mem_append_right _ hu, rfl⟩

theorem Later.leave {t : Host ρ Anchor} (h : Later s t) (hservers : t.servers = s.servers) (id : Nat) :
    Later s (t.leave id) := by
  refine ⟨h.env, h.reads, fun v hv => ?_⟩
  rcases List.mem_append.mp hv with hv | hv
  · exact h.closing v hv
  · have hv : v ∈ s.servers := hservers ▸ List.mem_of_mem_filter hv
    exact ⟨v, List.mem_append_left _ hv, rfl⟩

theorem calls_later (call : (sig.sum (Proxy.sig Anchor)).Call) (w : HostChoice ω) (s : Host ρ Anchor) :
    Later s (calls R call w s).2 := by
  have h := Later.release s w
  cases call with
  | inl call =>
    cases call with
    | putProxy proxy =>
      have hleave : Later s (s.controller.proxy.elim (s.release w) fun old =>
          (s.release w).leave old.id) := by
        cases s.controller.proxy with
        | none => exact h
        | some old => exact h.leave rfl old.id
      exact ⟨hleave.env, hleave.reads, hleave.closing⟩
    | start | status | set | port | stop | takeProxy | apply | restore | flushCache | subscribe =>
      exact ⟨h.env, h.reads, h.closing⟩
  | inr call =>
    cases call with
    | env | newServer | listening => exact ⟨h.env, h.reads, h.closing⟩
    | readFile path => exact ⟨h.env, List.prefix_append _ _, h.closing⟩
    | drop server => exact h.leave rfl server
    | shutdown server =>
      have hleave := h.leave rfl server
      exact ⟨hleave.env, hleave.reads, hleave.closing⟩
    | buildResolver resolver =>
      show Later s (Proxy.handler (.buildResolver resolver) w s).2
      rw [Proxy.handler_buildResolver]
      exact h
    | bindUdp server listen =>
      show Later s (Proxy.handler (.bindUdp server listen) w s).2
      rcases Proxy.bindUdp_cases w s server listen with ⟨e, he⟩ | ⟨_, he⟩ <;> rw [he]
      · exact h
      · exact ⟨h.env, h.reads, h.closing⟩
    | bindTcp server listen =>
      show Later s (Proxy.handler (.bindTcp server listen) w s).2
      rcases Proxy.bindTcp_cases w s server listen with ⟨e, he⟩ | ⟨_, he⟩ <;> rw [he]
      · exact h
      · exact ⟨h.env, h.reads, h.closing⟩

/-- What a run keeps of the servers and their sockets. -/
structure Kept (L : Libraries Cert Anchor) (target : Target) (port : UInt16)
    (env : String → Option String) (U : UpstreamSel → Prop) (s : Host ρ Anchor) : Prop where
  confined : Confined port s
  serving : Serving L target U s
  env : s.env = env

theorem new_kept (redirector : ρ) (env : String → Option String) :
    Kept L target port env U (.new port redirector env : Host ρ Anchor) :=
  ⟨⟨Nat.zero_le 1, fun _ => .inl rfl⟩, fun v hv => absurd hv (by simp [new]), rfl⟩

theorem Kept.call {env : String → Option String} (hport : port ≠ 0)
    {call : (sig.sum (Proxy.sig Anchor)).Call} {w : HostChoice ω} (h : Kept L target port env U s)
    (hserves : Serves L target U (calls R call w s).2)
    (hunopposed : Unopposed port ⟨call, w, s, (calls R call w s).2⟩) :
    Kept L target port env U (calls R call w s).2 := by
  have hlater := calls_later (R := R) call w s
  refine ⟨⟨hserves.few, fun transport => List.subperm_singleton_iff.mp ?_⟩, fun v hv => ?_,
    hlater.env.trans h.env⟩
  · refine calls_sockets hport h.confined.few (fun id addr hc => ?_)
      (fun transport => List.subperm_singleton_iff.mpr (h.confined.sockets transport)) transport
    rcases hc with hc | hc
    · exact (hunopposed.udp id addr hc).1
    · exact (hunopposed.tcp id addr hc).1
  · rcases List.mem_append.mp hv with hv | hv
    · exact hserves.forwards v hv
    · obtain ⟨u, hu, hzone⟩ := hlater.closing v hv
      obtain ⟨upstream, hin, hforwards⟩ := h.serving u hu
      exact ⟨upstream, hin, hzone ▸ hforwards.mono hlater.env hlater.reads⟩

/-- Connected, there is the one server. -/
theorem Backed.connected {Up Down : ρ → Prop} (h : Backed L target s c) (hsettled : Settled Up Down c)
    (hs : Single port U c) (hst : s.controller.status.state = .connected) :
    ∃ upstream v, s.servers = [v] ∧ (∀ transport, v.sockets transport = [⟨.localhost, port⟩]) ∧
      Forwards L target s v.zone upstream ∧ U upstream ∧
      s.controller.status.upstream = some upstream.label := by
  rw [h.controller] at hst ⊢
  cases hsettled with
  | disconnected _ _ hs _ =>
    rcases hs with hs | ⟨err, hs⟩ <;> rw [hs] at hst <;>
      exact absurd hst (by simp [Status.disconnected, errorStatus])
  | connected p _ hr hstatus _ =>
    have hservers := h.servers
    rw [hr] at hservers
    obtain ⟨v, hv⟩ : ∃ v, s.servers = [v] := List.length_eq_one_iff.mp hservers.length_eq
    rw [hv] at hservers
    obtain ⟨hruns, _⟩ := List.forall₂_cons.mp hservers
    obtain ⟨hlisten, hu⟩ := hs.proxies p (by rw [hr]; exact List.mem_cons_self)
    refine ⟨p.upstream, v, hv, fun transport => ?_, hruns.forwards, hu, by rw [hstatus]; rfl⟩
    cases transport with
    | udp => exact hruns.udp.trans (by rw [hlisten])
    | tcp => exact hruns.tcp.trans (by rw [hlisten])

/-- Otherwise there is none. -/
theorem Backed.unconnected {Up Down : ρ → Prop} (h : Backed L target s c)
    (hsettled : Settled Up Down c) (hst : s.controller.status.state ≠ .connected) :
    s.servers = [] := by
  rw [h.controller] at hst
  cases hsettled with
  | connected p _ _ hs _ => exact absurd (by rw [hs]; rfl) hst
  | disconnected _ hr _ _ =>
    have hservers := h.servers
    rw [hr] at hservers
    exact List.forall₂_nil_right_iff.mp hservers

/-- Where a server that is there holds the socket, none that is gone does. -/
theorem Confined.closed {v : Server Anchor} {transport : Transport} (h : Confined port s)
    (hv : s.servers = [v]) (hsockets : v.sockets transport = [⟨.localhost, port⟩]) :
    s.sockets transport = [⟨.localhost, port⟩] ∧ ∀ u ∈ s.closing, u.sockets transport = [] := by
  have hall : s.sockets transport =
      ⟨.localhost, port⟩ :: s.closing.flatMap fun v => v.sockets transport := by
    rw [Host.sockets, hv, List.flatMap_append, List.flatMap_singleton, hsockets, List.singleton_append]
  rcases h.sockets transport with hnone | hone
  · exact absurd (hall.symm.trans hnone) (by simp)
  · refine ⟨hone, fun u hu => ?_⟩
    exact List.flatMap_eq_nil_iff.mp (List.cons.inj (hall.symm.trans hone)).2 u hu

/-! ### Any commands -/

theorem keeping_trivial (e : CallEvent (sig.sum (Proxy.sig Anchor)) (HostChoice ω) (Host ρ Anchor)) :
    Keeping (fun _ => True) e := by
  unfold Keeping
  split <;> trivial

section

variable [Inhabited ω] (L target R)

/-- Commands served by a new process. -/
def run (port : UInt16) (redirector : ρ) (env : String → Option String) (commands : List Command)
    (ws : List (HostChoice ω)) :
    Run (sig.sum (Proxy.sig Anchor)) (HostChoice ω) (Host ρ Anchor) Unit :=
  exec (calls R) (serve L target commands) ws (.new port redirector env)

variable {L target R}

theorem new_backed (L : Libraries Cert Anchor) (target : Target) (port : UInt16) (redirector : ρ)
    (env : String → Option String) :
    Backed L target (.new port redirector env) (.new port redirector) :=
  ⟨rfl, .nil, nofun⟩

theorem new_single (port : UInt16) (redirector : ρ) :
    Single port U (.new port redirector : Controller ρ) :=
  ⟨rfl, Nat.zero_le 1, nofun⟩

/-- **The process refines its controller.**  What it comes to, call by call with every socket,
the controller comes to with a proxy started and stopped in one step. -/
theorem hosted_refines (L : Libraries Cert Anchor) (target : Target) (R : DnsRedirector ω ρ)
    (port : UInt16) (redirector : ρ) (env : String → Option String) (commands : List Command)
    (ws : List (HostChoice ω)) : ∃ ws',
      (run L target R port redirector env commands ws).state.controller =
        (exec (Controller.handler R) (Prog.each dispatch commands) ws' (.new port redirector)).state := by
  have hsafe := safe_hosted (R := R) (fun _ _ _ _ _ => trivial)
    (Prog.Blind.each dispatch_blind commands)
    (new_backed L target port redirector env) (safe_reached _ _)
  obtain ⟨c, hbacked, ws', _, hc⟩ := (hsafe.exec ws fun e _ => keeping_trivial e).2
  exact ⟨ws', hbacked.controller.trans hc.symm⟩

variable (L target) in
/-- Any commands, where the world keeps to `A` of the redirector. -/
theorem serve_safe {A : CallEvent sig (Choice ω) (Controller ρ) → Prop} {Up Down : ρ → Prop}
    (hk : Keeps R A Up Down) (hfree : ∀ call q, method L target call = some q →
      ∀ w c, A ⟨call, w, c, (Controller.handler R call w c).2⟩)
    (port : UInt16) {redirector : ρ} (hdown : Down redirector) (env : String → Option String)
    (commands : List Command) :
    Safe (calls R) (Keeping A)
      (fun e => (Serves L target (fun u => .connect u ∈ commands) e.after ∧ Unopposed port e) ∧
        (Answers port e.after ∨ Down e.after.controller.redirector))
      (fun _ t => ∃ c, Backed L target t c ∧ Settled Up Down c ∧
        Single port (fun u => .connect u ∈ commands) c)
      (serve L target commands) (.new port redirector env) :=
  (safe_hosted (R := R) hfree (Prog.Blind.each dispatch_blind commands)
    (new_backed L target port redirector env)
    (each_aims hk (fun _ h => h) (new_settled port hdown) (new_single port redirector))).mono
    (fun _ h => h) (fun _ he => stands_serves he) fun _ _ h => h

variable (L target R) in
theorem run_kept (hport : port ≠ 0) (redirector : ρ) (env : String → Option String)
    (commands : List Command) (ws : List (HostChoice ω)) :
    (∀ e ∈ (run L target R port redirector env commands ws).events,
      Unopposed port e ∧ Kept L target port env (fun u => .connect u ∈ commands) e.after) ∧
      (∃ c, Backed L target (run L target R port redirector env commands ws).state c ∧
        Settled (fun _ => True) (fun _ => True) c ∧ Single port (fun u => .connect u ∈ commands) c) ∧
      Kept L target port env (fun u => .connect u ∈ commands)
        (run L target R port redirector env commands ws).state := by
  have hsafe := (serve_safe L target (Daemon.keeps_trivial R) (fun _ _ _ _ _ => trivial) port trivial env
    commands).keeps
    (I := Kept L target port env fun u => .connect u ∈ commands)
    (fun _ _ _ hB hI => hI.call hport hB.1.1 hB.1.2) (new_kept redirector env)
  obtain ⟨hevents, hend⟩ := hsafe.exec ws fun e _ => keeping_trivial e
  exact ⟨fun e he => ⟨(hevents e he).1.1.2, (hevents e he).2⟩, hend⟩

/-- The TCP socket of the first start is refused, and nothing is closed before the next command. -/
def refusedTcp : List (HostChoice Fate) :=
  List.replicate 8 default ++
    [⟨⟨.fails "address in use", default⟩, .error "not found", fun _ => false⟩] ++
    List.replicate 3 ⟨default, .error "not found", fun _ => false⟩

/-- The UDP socket of a start that has failed is still bound. -/
example : (run plainLibraries .unix plainRedirector 53 ("9.9.9.9", none) (fun _ => none)
    [.connect .cloudflare] refusedTcp).state.sockets .udp = [⟨.localhost, 53⟩] := by decide +kernel

/-- A `restore` under a redirect succeeds. -/
def Restoring (R : DnsRedirector ω ρ) {Dns : Type} (dns : ρ → Dns) (pointsAt : IpAddr → Dns)
    (e : CallEvent (sig.sum (Proxy.sig Anchor)) (HostChoice ω) (Host ρ Anchor)) : Prop :=
  e.call = .inl .restore → dns e.before.controller.redirector = pointsAt .localhost →
    (R.restore e.choice.step.os e.before.controller.redirector).1 = .ok ()

/-- **Where the system DNS points, both sockets are bound**: after every single call of every run
of commands, whatever else fails, as long as it does not point there at first, nothing is owed
then, and no `restore` fails while it points there. -/
theorem redirect_answered {Dns : Type} {dns : ρ → Dns} {pointsAt : IpAddr → Dns}
    {prior : ρ → Option Dns} (hC : Contract R dns pointsAt prior) {redirector : ρ}
    (hdns : dns redirector ≠ pointsAt .localhost) (hprior : prior redirector = none)
    (env : String → Option String) (commands : List Command) (ws : List (HostChoice ω))
    (hA : ∀ e ∈ (run L target R port redirector env commands ws).events,
      Restoring R dns pointsAt e) :
    ∀ e ∈ (run L target R port redirector env commands ws).events,
      dns e.after.controller.redirector = pointsAt .localhost →
        ∃ v ∈ e.after.servers, v.udp = [⟨.localhost, port⟩] ∧ v.tcp = [⟨.localhost, port⟩] := by
  have hkeeping : ∀ e ∈ (run L target R port redirector env commands ws).events,
      Keeping (Restores R dns pointsAt) e := by
    intro e he
    unfold Keeping
    split
    · rename_i call hcall
      intro hrestore hpoints
      cases call with
      | restore => exact hA e he hcall hpoints
      | _ => exact absurd hrestore (by simp [Call.isRestore])
    · trivial
  have hfree : ∀ call q, method L target call = some q →
      ∀ w c, Restores R dns pointsAt ⟨call, w, c, (Controller.handler R call w c).2⟩ := by
    intro call q hq w c hrestore
    cases call with
    | restore => exact absurd hq (by simp [method])
    | _ => exact absurd hrestore (by simp [Call.isRestore])
  intro e he hpoints
  obtain ⟨hevents, _⟩ := (serve_safe L target (keeps_of_contract hC) hfree port ⟨hdns, hprior⟩ env
    commands).exec ws hkeeping
  rcases (hevents e he).2 with hanswers | hdown
  · exact hanswers
  · exact absurd hpoints hdown.1

end

/-- After the last call, connected again over another upstream. -/
theorem redirect_answered_reconnect :
    ∃ e ∈ (run plainLibraries .unix plainRedirector 53 ("9.9.9.9", none) (fun _ => none)
        [.connect .cloudflare, .disconnect, .connect .quad9] []).events.getLast?,
      e.after.controller.redirector.1 = IpAddr.localhost.text ∧
        ∃ v ∈ e.after.servers, v.udp = [⟨.localhost, 53⟩] ∧ v.tcp = [⟨.localhost, 53⟩] := by
  have hpoints : ∃ e ∈ (run plainLibraries .unix plainRedirector 53 ("9.9.9.9", none) (fun _ => none)
        [.connect .cloudflare, .disconnect, .connect .quad9] []).events.getLast?,
      e.after.controller.redirector.1 = IpAddr.localhost.text := by decide +kernel
  obtain ⟨e, he, hdns⟩ := hpoints
  refine ⟨e, he, hdns, redirect_answered plainRedirector_contract (by decide) rfl _ _ _
    (fun e he _ _ => ?_) e (List.mem_of_getLast? he) hdns⟩
  rw [exec_nil_choice _ _ e he]
  rfl

end Host

end Voidns
