import Voidns.Controller.BlackHole
import Voidns.Daemon.Shutdown
import Voidns.Redirect.PutBack
import Voidns.Redirect.Undone

/-!
# The system DNS under the daemon

However many clients there are, and with the shutdown among their commands: between
two turns with the mutex the redirector is up or down as the status says, and
inside a turn it is never up without a proxy (`reach_tracks`).  The proxies go with the
process: once it has exited, the redirector is down if no `connect` came late
(`exited_down`).  What up and down are is for the redirector to say.

* By the contract alone, DNS points at the proxy, or is what it was before the
  first command, as long as no `restore` fails under a redirect.
* With the Linux redirector, `/etc/resolv.conf` or a link names the proxy, or
  both are as they were, as long as the calls a redirect hangs on go through.
* With the redirectors of Windows and macOS, an interface or the services name the
  proxy, or the whole system is as it was, as long as no `apply` stops half-way and
  the calls of every `restore` go through.
-/

namespace Voidns.Daemon

open Effect Steps Controller

variable {ω ρ Dns : Type}

/-- The redirector is down without a proxy, and with the mutex free as the status
says. -/
structure Tracks (Up Down : ρ → Prop) (d : Daemon ρ) : Prop where
  uncovered : d.controller.running = [] → Down d.controller.redirector
  either : Up d.controller.redirector ∨ Down d.controller.redirector
  connected : d.holder = none → d.controller.status.state = .connected → Up d.controller.redirector
  disconnected : d.holder = none → d.controller.status.state ≠ .connected →
    Down d.controller.redirector

/-- **The redirector follows the status**, for any `Up` and `Down` it keeps. -/
theorem reach_tracks {R : DnsRedirector ω ρ} {A : CallEvent sig (Choice ω) (Controller ρ) → Prop}
    {Up Down : ρ → Prop} (hk : Keeps R A Up Down) {port : UInt16} {r : ρ} {d : Daemon ρ}
    (h₀ : Down r) (h : Reach (step R) (CallsKeep R A) (new port r) d) : Tracks Up Down d := by
  have hcovered : (d.controller.running = [] → Down d.controller.redirector) ∧
      (Up d.controller.redirector ∨ Down d.controller.redirector) := by
    refine reach_always
      (P := fun c => (c.running = [] → Down c.redirector) ∧ (Up c.redirector ∨ Down c.redirector))
      (fun cmd _ hc => dispatch_safe hk cmd hc) (fun c hc => ?_)
      (fun _ _ he => ⟨he.covered, he.either⟩) (new_settled port h₀) h
    cases hc with
    | connected p _ hr _ hu => exact ⟨fun hn => absurd (hr.symm.trans hn) (by simp), .inl hu⟩
    | disconnected _ _ _ hd => exact ⟨fun _ => hd, .inr hd⟩
  have hsettled := (reach_locked hk h₀ h).2.free
  refine ⟨hcovered.1, hcovered.2, fun hf hst => ?_, fun hf hst => ?_⟩
  · cases hsettled hf with
    | connected _ _ _ _ hu => exact hu
    | disconnected _ _ hs _ =>
      rcases hs with hs | ⟨e, hs⟩ <;> rw [hs] at hst
      · exact absurd hst (by decide)
      · exact absurd hst (by simp [errorStatus])
  · cases hsettled hf with
    | connected _ _ _ hs _ => exact absurd (by rw [hs]; rfl) hst
    | disconnected _ _ _ hd => exact hd

/-- A process that has exited leaves the redirector down, unless a `connect` got the mutex
after the last disconnect. -/
theorem exited_down {R : DnsRedirector ω ρ} {A : CallEvent sig (Choice ω) (Controller ρ) → Prop}
    {Up Down : ρ → Prop} (hk : Keeps R A Up Down) {port : UInt16} {r : ρ} {d : Daemon ρ}
    (h₀ : Down r) (h : Reach (step R) (fun l d => CallsKeep R A l d ∧ InTime l d) (new port r) d)
    {result : Except Error Unit} (hd : d.main = .exited result) : Down d.controller.redirector := by
  -- a restore leaves the redirector down, wherever it is called
  have htimely : Reach (step R) (Timely R fun r => ¬ Down r) (new port r) d ∧
      Reach (step R) (CallsKeep R A) (new port r) d := by
    clear hd
    induction h with
    | init => exact ⟨.init, .init⟩
    | @next d e l _ hA hs ih =>
      have heither := (reach_tracks hk h₀ ih.2).either
      refine ⟨.next l ih.1 ⟨fun ev hev hrestore => ?_, hA.2⟩ hs, .next l ih.2 hA.1 hs⟩
      have hkept := hA.1 ev hev
      obtain ⟨c, w, _, rfl⟩ := callOf_eq hev
      cases c with
      | restore => exact not_not_intro (hk.restore w d.controller hkept heither)
      | _ => exact absurd hrestore (by simp [Call.isRestore])
  have hleft := exited_left (fun w r hr hdown => hr fun hd => hdown ((hk.flush w r).2 hd)) htimely.1 hd
  cases result with
  | ok _ => exact Classical.not_not.mp (hleft.restored rfl)
  | error e =>
    rw [hleft.untouched e rfl]
    exact h₀

/-- What a redirector comes to under the daemon: it follows the status as long as the process
runs, and is down once it has exited, unless a `connect` got the mutex after the last
disconnect. -/
structure Tracked (R : DnsRedirector ω ρ) (A : CallEvent sig (Choice ω) (Controller ρ) → Prop)
    (Up Down : ρ → Prop) (port : UInt16) (r : ρ) (d : Daemon ρ) : Prop where
  tracks : (∀ result, d.main ≠ .exited result) → Tracks Up Down d
  exited : Reach (step R) (fun l d => CallsKeep R A l d ∧ InTime l d) (new port r) d →
    ∀ result, d.main = .exited result → Down d.controller.redirector

theorem reach_tracked {R : DnsRedirector ω ρ} {A : CallEvent sig (Choice ω) (Controller ρ) → Prop}
    {Up Down : ρ → Prop} (hk : Keeps R A Up Down) {port : UInt16} {r : ρ} {d : Daemon ρ}
    (h₀ : Down r) (h : Reach (step R) (CallsKeep R A) (new port r) d) :
    Tracked R A Up Down port r d :=
  ⟨fun _ => reach_tracks hk h₀ h, fun h _ hd => exited_down hk h₀ h hd⟩

/-- Connected at the end of a run, with the mutex free, it is up. -/
theorem connected_up {R : DnsRedirector ω ρ} {A : CallEvent sig (Choice ω) (Controller ρ) → Prop}
    {Up Down : ρ → Prop} {port : UInt16} {r : ρ} {ls : List (Label ω)}
    (hA : Allowed (step R) (CallsKeep R A) ls (new port r))
    (hend : ∃ d ∈ run (step R) ls (new port r), d.main = .serving ∧ d.holder = none ∧
      d.controller.status.state = .connected)
    (htracked : ∀ d, Reach (step R) (CallsKeep R A) (new port r) d → Tracked R A Up Down port r d) :
    ∃ d : Daemon ρ, d.controller.status.state = .connected ∧ Up d.controller.redirector := by
  obtain ⟨d, hd, hmain, hfree, hst⟩ := Reach.exists_of_allowed hA hend
  have htracks := (htracked d hd).tracks fun result => by rw [hmain]; simp
  exact ⟨d, hst, htracks.connected hfree hst⟩

/-! ### By the contract -/

section Contract

variable {R : DnsRedirector ω ρ} {dns : ρ → Dns} {pointsAt : IpAddr → Dns} {prior : ρ → Option Dns}

/-- DNS points at the proxy, and `before` is owed. -/
def Redirected (dns : ρ → Dns) (pointsAt : IpAddr → Dns) (prior : ρ → Option Dns) (before : Dns)
    (r : ρ) : Prop :=
  dns r = pointsAt .localhost ∧ prior r = some before

/-- DNS is as it was before, and nothing is owed. -/
def Untouched (dns : ρ → Dns) (prior : ρ → Option Dns) (before : Dns) (r : ρ) : Prop :=
  dns r = before ∧ prior r = none

theorem keeps_before (hC : Contract R dns pointsAt prior) (before : Dns) :
    Keeps R (Restores R dns pointsAt) (Redirected dns pointsAt prior before)
      (Untouched dns prior before) where
  apply w c _ hd := by
    refine ⟨fun ha => ⟨hC.apply_ok _ _ _ ha, ?_⟩, fun e he => ?_⟩
    · rw [hC.apply_ok_prior _ _ _ ha hd.2, hd.1]
    · obtain ⟨h1, h2⟩ := hC.apply_error _ _ _ e he
      exact ⟨h1.trans hd.1, h2.trans hd.2⟩
  restore w c hA h := by
    cases hr : (R.restore w.os c.redirector).1 with
    | ok _ =>
      obtain ⟨h1, h2⟩ := hC.restore_ok _ _ hr
      refine ⟨?_, h2⟩
      rw [h1]
      rcases h with ⟨_, hp⟩ | ⟨hb, hp⟩ <;> rw [hp]
      · rfl
      · exact hb
    | error e =>
      rcases h with ⟨hp, _⟩ | ⟨hb, hp⟩
      · exact absurd ((hA rfl hp).symm.trans hr) (by simp)
      · obtain ⟨h1, h2⟩ := hC.restore_error _ _ e hr
        exact ⟨h1.trans hb, h2.elim (·.trans hp) id⟩
  flush w r := by
    obtain ⟨h1, h2⟩ := hC.flush w r
    exact ⟨fun h => ⟨h1.trans h.1, h2.trans h.2⟩, fun h => ⟨h1.trans h.1, h2.trans h.2⟩⟩

/-- **The system DNS follows the status.**  Nothing is owed at first.  Whatever the
clients ask, in whatever order their turns come, until the process exits DNS points at
the proxy or is what it was before the first command, and the latter when none runs;
with the mutex free it is as the status says.  After the exit it is what it was, if no
`connect` came late. -/
theorem dns_follows (hC : Contract R dns pointsAt prior) {port : UInt16} {r : ρ} {d : Daemon ρ}
    (hp : prior r = none) (h : Reach (step R) (CallsKeep R (Restores R dns pointsAt)) (new port r) d) :
    Tracked R (Restores R dns pointsAt) (Redirected dns pointsAt prior (dns r))
      (Untouched dns prior (dns r)) port r d :=
  reach_tracked (keeps_before hC (dns r)) ⟨rfl, hp⟩ h

end Contract

/-- Two clients connect, one after the other, and then the daemon shuts down. -/
def overlapping : List (Label Fate) :=
  [.listen, .accept, .accept] ++ connecting 0 .cloudflare ++
    [.recv 1 (.connect .quad9), .shutdown, .release, .grant, .call default, .release, .grant] ++
    List.replicate 6 (.call default)

theorem dns_follows_overlapping : ∃ d : Daemon (String × Option String), d.main = .stopping ∧
    Tracks (Redirected Prod.fst IpAddr.text Prod.snd "9.9.9.9") (Untouched Prod.fst Prod.snd "9.9.9.9")
      d := by
  have hrun : Allowed (step plainRedirector)
        (CallsKeep plainRedirector (Restores plainRedirector Prod.fst IpAddr.text)) overlapping
        (new 53 ("9.9.9.9", none)) ∧
      ∃ d ∈ run (step plainRedirector) overlapping (new 53 ("9.9.9.9", none)),
        d.main = .stopping := by decide +kernel
  obtain ⟨hA, d, hd, hmain⟩ := hrun
  refine ⟨d, hmain, (dns_follows plainRedirector_contract rfl (.of_allowed hA hd)).tracks ?_⟩
  exact fun result => by rw [hmain]; simp

/-! ### On Linux -/

/-- **`/etc/resolv.conf` and the links follow the status.**  On a host whose file can be
read, with no backup yet, and whose links have no run-time settings, with any number of
clients: without a proxy running, and after the exit, the file reads as it did and the
links have no settings; with the mutex free and the service connected, the proxy is the
server of the file or of a link. -/
theorem resolv_conf_follows {C : String} {r : Linux.System} {port : UInt16}
    {d : Daemon Linux.System} (hconf : FileSystem.read r.fs Linux.resolvConf = some C)
    (hbackup : r.fs Linux.resolvBackup = none) (hidle : r.active = .idle)
    (hlinks : ∀ i, r.links i = .unset)
    (h : Reach (step LinuxRedirector) (CallsKeep LinuxRedirector Linux.OsWorks) (new port r) d) :
    Tracked LinuxRedirector Linux.OsWorks (Linux.Disturbed C r.links) (Linux.Undisturbed C r.links)
      port r d :=
  reach_tracked (Linux.keeps_undisturbed C hlinks)
    ⟨.initial hconf hbackup hidle, hconf, hidle, rfl⟩ h

/-- A client connects, with these outcomes of the calls of `apply`. -/
def connectingWith (fates : List Fate) : List (Label (List Fate)) :=
  [.listen, .accept, .recv 0 (.connect .cloudflare), .grant] ++ List.replicate 4 (.call default) ++
    [.call ⟨.ok, fates⟩] ++ List.replicate 4 (.call default) ++ [.release]

/-- The look for a symbolic link fails. -/
theorem resolv_conf_follows_connectingWith : ∃ d : Daemon Linux.System,
    d.controller.status.state = .connected ∧
      Linux.Disturbed "nameserver 9.9.9.9\n" Linux.plainHost.links d.controller.redirector := by
  have hA : Allowed (step LinuxRedirector) (CallsKeep LinuxRedirector Linux.OsWorks)
      (connectingWith [.ok, .ok, .ok, .ok, .fails "permission denied"]) (new 53 Linux.plainHost) := by
    decide +kernel
  exact connected_up hA (by decide +kernel) fun d hd =>
    resolv_conf_follows (by decide) (by decide) rfl (fun _ => rfl) hd

/-! ### On Windows and macOS -/

/-- **The interfaces follow the status.**  On a machine whose connected interfaces
take their servers from DHCP and have an empty search list, with any number of clients:
without a proxy running, and after the exit, every setting is what it was; with the
mutex free and the service connected, the proxy is the name server of a connected
interface. -/
theorem interfaces_follow {r : Windows.System} {port : UInt16} {d : Daemon Windows.System}
    (hr : r.applied = .none)
    (hdhcp : ∀ name ∈ Parse.parseNetshInterfaces r.listing, ∀ guid ∈ r.guidOf name,
      r.dns guid = ⟨"", ""⟩)
    (h : Reach (step WindowsRedirector) (CallsKeep WindowsRedirector Windows.OsWorks) (new port r) d) :
    Tracked WindowsRedirector Windows.OsWorks (Windows.Disturbed r) (· = r) port r d :=
  reach_tracked (Windows.keeps_settings hr hdhcp) rfl h

theorem interfaces_follow_connectingWith : ∃ d : Daemon Windows.System,
    d.controller.status.state = .connected ∧
      Windows.Disturbed { Windows.twoInterfaces with dns := fun _ => ⟨"", ""⟩ }
        d.controller.redirector := by
  have hA : Allowed (step WindowsRedirector) (CallsKeep WindowsRedirector Windows.OsWorks)
      (connectingWith [.ok, .fails "not found"])
      (new 53 { Windows.twoInterfaces with dns := fun _ => ⟨"", ""⟩ }) := by decide +kernel
  exact connected_up hA (by decide +kernel) fun d hd => interfaces_follow rfl (fun _ _ _ _ => rfl) hd

/-- **The services follow the status.**  On a machine whose services have different names,
addresses for servers and no state in the dynamic store, with any number of clients:
without a proxy running, and after the exit, the store and the servers are what they
were; with the mutex free and the service connected, the proxy is in the store for some
service, or is the server of every one. -/
theorem services_follow {r : Macos.System} {port : UInt16} {d : Daemon Macos.System}
    (hr : r.applied = .none)
    (hv : ∀ svc, ∀ server ∈ r.dns svc, Text.isIpAddr server.toList = true)
    (hn : (Parse.parseNetworkServices r.listing).Nodup)
    (hstore : ∀ key ∈ r.setupKeys, r.store (Macos.statePath key) = none)
    (h : Reach (step MacosRedirector) (CallsKeep MacosRedirector (Macos.OsWorks r)) (new port r) d) :
    Tracked MacosRedirector (Macos.OsWorks r) (Macos.Disturbed r) (· = r) port r d :=
  reach_tracked (Macos.keeps_settings hr hv hn hstore) rfl h

theorem services_follow_connectingWith : ∃ d : Daemon Macos.System,
    d.controller.status.state = .connected ∧
      Macos.Disturbed Macos.twoServices d.controller.redirector := by
  have hv : ∀ svc, ∀ server ∈ Macos.twoServices.dns svc, Text.isIpAddr server.toList = true := by
    intro svc server hs
    rw [List.mem_singleton.mp hs]
    decide
  have hA : Allowed (step MacosRedirector)
      (CallsKeep MacosRedirector (Macos.OsWorks Macos.twoServices))
      (connectingWith [.fails "no session"]) (new 53 Macos.twoServices) := by decide +kernel
  exact connected_up hA (by decide +kernel) fun d hd =>
    services_follow rfl hv (by decide +kernel) (by simp [Macos.twoServices]) hd

end Voidns.Daemon
