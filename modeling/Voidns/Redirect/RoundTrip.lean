import Voidns.Redirect.Applied

/-!
# What an `apply` and a `restore` leave together

A `restore` is to put back the state from before the connect, but none of the
mechanisms treated here has recorded it: `RevertLink` drops every run-time
setting of a link, an empty name server stands for DHCP, and a key of the
dynamic store is removed.  Each of these is one fixed change at the places
`apply` has touched, so the two together leave everything as it was exactly
where that change was already made before (`mapOn_eq_self_iff`).
-/

namespace Voidns

open Effect Settings

/-- A call that goes through. -/
def Works {E : Sig} {σ : Type} (e : CallEvent E Fate σ) : Prop := e.choice = .ok

instance {E : Sig} {σ : Type} (e : CallEvent E Fate σ) : Decidable (Works e) :=
  inferInstanceAs (Decidable (_ = _))

/-! ### Linux -/

namespace Linux

/-- `restore` reverts the link on record, if it is one. -/
theorem restore_methods (s : System) :
    Ends handler (fun es r _ => r = .ok () → methods es = match s.active with
      | .resolved i => [.revertLink i]
      | _ => []) restore s := by
  refine ends_perform.mpr fun w => ?_
  have he : handler .takeActive w s = (s.active, { s with active := .idle }) := rfl
  rw [he]
  cases s.active with
  | idle => exact fun _ => rfl
  | resolvConf =>
    have hcalls : resolvconfRestore.Calls fun c : Call => ∀ m, c ≠ .busCall m :=
      resolvconfRestore_calls (by simp) (by simp) (by simp)
    refine (hcalls.ends _).post fun es _ _ hes _ => ?_
    exact (methods_eq_nil hes : methods es = [])
  | resolved i =>
    refine ends_bind.mpr ((managerCall_methods (.revertLink i) _).post fun es r t ⟨hok, _⟩ => ?_)
    cases r with
    | error e => exact fun h => absurd h (by simp)
    | ok _ =>
      intro _
      show methods (es ++ []) = _
      rw [List.append_nil, hok rfl]

/-- **Which links come back.**  After a successful `apply` and a successful
`restore` every link has the settings it had before, exactly when a link that
`apply` has given both settings had none before, and a link that it has given
its server only had that server before. -/
theorem links_round_trip_iff (proxy : IpAddr) (ws ws' : List Fate) (s : System)
    (happly : (LinuxRedirector.apply proxy ws s).1 = .ok ())
    (hrestore : (LinuxRedirector.restore ws' (LinuxRedirector.apply proxy ws s).2).1 = .ok ()) :
    (LinuxRedirector.restore ws' (LinuxRedirector.apply proxy ws s).2).2.links = s.links ↔
      let done := methods (exec handler (apply proxy) ws s).events
      ∀ i addrs, .setLinkDns i addrs ∈ done →
        if .setLinkDefaultRoute i true ∈ done then s.links i = .unset
        else (s.links i).servers = addrs := by
  have hredirects := (apply_redirects proxy s).exec ws happly
  have happlied := (links_foldl (apply proxy) s).exec ws
  have hmethods := (restore_methods (LinuxRedirector.apply proxy ws s).2).exec ws' hrestore
  have hrestored := (links_foldl restore (LinuxRedirector.apply proxy ws s).2).exec ws'
  have hlinks : (LinuxRedirector.apply proxy ws s).2.links =
      (exec handler (apply proxy) ws s).state.links := rfl
  have hend : (LinuxRedirector.restore ws' (LinuxRedirector.apply proxy ws s).2).2.links =
      (exec handler restore ws' (LinuxRedirector.apply proxy ws s).2).state.links := rfl
  rw [hend, hrestored, hmethods, hlinks, happlied]
  have hactive : (LinuxRedirector.apply proxy ws s).2.active =
      (exec handler (apply proxy) ws s).state.active := rfl
  rw [hactive]
  generalize methods (exec handler (apply proxy) ws s).events = done at hredirects ⊢
  generalize (exec handler (apply proxy) ws s).state.active = active at hredirects ⊢
  cases hredirects with
  | resolved i =>
    have hreverted : Method.effect (Method.effect (Method.effect s.links
        (.setLinkDns i (dnsAddrs proxy))) (.setLinkDefaultRoute i true)) (.revertLink i) =
        Function.update s.links i .unset := by simp only [Method.effect, Function.update_idem]
    simp only [List.foldl_cons, List.foldl_nil, hreverted, Function.update_eq_self_iff]
    constructor
    · intro h j addrs hj
      obtain ⟨rfl, rfl⟩ : j = i ∧ addrs = dnsAddrs proxy := by simpa using hj
      rw [if_pos (by simp)]
      exact h.symm
    · intro h
      have hi := h i (dnsAddrs proxy) (by simp)
      rw [if_pos (by simp)] at hi
      exact hi.symm
  | half i =>
    simp only [List.foldl_cons, List.foldl_nil, setServers_eq_iff]
    constructor
    · intro h j addrs hj
      obtain ⟨rfl, rfl⟩ : j = i ∧ addrs = dnsAddrs proxy := by simpa using hj
      rw [if_neg (by simp)]
      exact h
    · intro h
      have hi := h i (dnsAddrs proxy) (by simp)
      rw [if_neg (by simp)] at hi
      exact hi
  | resolvConf => simp

/-- A link without run-time settings comes back without any. -/
theorem links_round_trip_unset :
    let s : System := { stubHost with links := fun _ => .unset }
    (LinuxRedirector.restore [] (LinuxRedirector.apply .localhost [] s).2).2.links = s.links := by
  intro s
  have happly : (LinuxRedirector.apply .localhost [] s).1 = .ok () := by decide +kernel
  have hrestore : (LinuxRedirector.restore [] (LinuxRedirector.apply .localhost [] s).2).1 = .ok () := by
    decide +kernel
  have hdone : methods (exec handler (apply .localhost) [] s).events =
      [.setLinkDns 2 (dnsAddrs .localhost), .setLinkDefaultRoute 2 true] := by decide +kernel
  refine (links_round_trip_iff .localhost [] [] s happly hrestore).mpr fun i addrs hi => ?_
  rw [hdone] at hi ⊢
  obtain ⟨rfl, -⟩ : i = 2 ∧ addrs = dnsAddrs .localhost := by simpa using hi
  rw [if_pos (by simp)]

/-- **Both ways a link is lost**: with every call going through, the servers
another program has pushed are dropped; with `SetLinkDefaultRoute` refused, the
link keeps the proxy. -/
theorem links_lost :
    (let r := LinuxRedirector.apply .localhost [] stubHost
    let q := LinuxRedirector.restore [] r.2
    r.1 = .ok () ∧ q.1 = .ok () ∧ stubHost.links 2 = ⟨[(2, [9, 9, 9, 9])], none⟩ ∧
      q.2.links 2 = .unset) ∧
    (let r := LinuxRedirector.apply .localhost (List.replicate 8 .ok ++ [.fails "denied"]) stubHost
    let q := LinuxRedirector.restore [] r.2
    r.1 = .ok () ∧ q.1 = .ok () ∧ q.2.links 2 = ⟨[(2, [127, 0, 0, 1])], none⟩) := by decide +kernel

end Linux

/-! ### Windows -/

namespace Windows

/-- A loop of `restore` in which every call goes through changes the settings of
every interface on record. -/
theorem each_restores {body : String → Prog sig (Except Error Unit)}
    {f : DnsInterfaceSettings → DnsInterfaceSettings} (hf : ∀ v, f (f v) = f v)
    (hbody : ∀ (name : String) (guid : Nat) (s : System), s.guidOf name = some guid →
      Safe handler Works (fun _ => True) (fun _ t => t = s.mapDns f [guid]) (body name) s) :
    ∀ (names : List String) (guids : List Nat) (s : System), names.map s.guidOf = guids.map some →
      Safe handler Works (fun _ => True) (fun _ t => t = s.mapDns f guids) (Prog.each body names) s := by
  intro names
  induction names with
  | nil =>
    intro guids s h
    rw [List.map_eq_nil_iff.mp h.symm]
    exact (s.mapDns_nil f).symm
  | cons name names ih =>
    intro guids s h
    cases guids with
    | nil => exact absurd h (by simp)
    | cons guid guids =>
      obtain ⟨hname, hnames⟩ := List.cons.inj h
      refine safe_bind.mpr ((hbody name guid s hname).post fun _ t ht => ?_)
      subst ht
      refine (ih guids (s.mapDns f [guid]) hnames).post fun _ u hu => ?_
      rw [hu, System.mapDns_append s hf, List.singleton_append]

theorem clearDnsNative_clears (name : String) (guid : Nat) (s : System)
    (h : s.guidOf name = some guid) :
    Safe handler Works (fun _ => True) (fun _ t => t = s.mapDns (fun _ => ⟨"", ""⟩) [guid])
      (clearDnsNative name) s := by
  obtain ⟨luid, hluid, hguid⟩ := Option.bind_eq_some_iff.mp h
  have hresolve : Safe handler Works (fun _ => True) (fun r t => t = s ∧ r = .ok guid)
      (aliasToGuid name) s := by
    refine safe_perform.mpr fun w hw => ⟨trivial, ?_⟩
    obtain rfl : w = .ok := hw
    have he : handler (.aliasToLuid name) .ok s = (.ok luid, s) := by
      show Fate.ok.attempt ((s.luid name).map (·, s)) s = _
      rw [hluid]
      rfl
    rw [he]
    refine safe_perform.mpr fun w hw => ⟨trivial, ?_⟩
    obtain rfl : w = .ok := hw
    have he' : handler (.luidToGuid luid) .ok s = (.ok guid, s) := by
      show Fate.ok.attempt ((s.guid luid).map (·, s)) s = _
      rw [hguid]
      rfl
    rw [he']
    exact ⟨rfl, rfl⟩
  refine safe_bind.mpr (hresolve.post fun r t ⟨ht, hr⟩ => ?_)
  subst ht hr
  refine safe_perform.mpr fun w hw => ⟨trivial, ?_⟩
  obtain rfl : w = .ok := hw
  show _ = _
  rw [System.mapDns, mapOn_singleton]
  rfl

theorem netshClear_clears (name : String) (guid : Nat) (s : System)
    (h : s.guidOf name = some guid) :
    Safe handler Works (fun _ => True) (fun _ t => t = s.mapDns (withServer "") [guid])
      (netshClear name) s := by
  refine safe_perform.mpr fun w hw => ⟨trivial, ?_⟩
  obtain rfl : w = .ok := hw
  have he : handler (.run "netsh" ["interface", "ipv4", "set", "dnsservers", s!"name={name}", "dhcp"])
      .ok s = (.ok "", s.setNameServer guid "") := by
    show Fate.ok.attempt ((s.named s!"name={name}").map fun guid => ("", s.setNameServer guid "")) s = _
    rw [s.named_name, h]
    rfl
  rw [he]
  show s.setNameServer guid "" = _
  rw [System.mapDns, mapOn_singleton]
  rfl

/-- **What a `restore` in which every call goes through leaves** of a successful
`apply`: the interfaces it had set have an empty name server, and natively an
empty search list too. -/
theorem restore_restores {proxy : IpAddr} {s t : System} {guids : List Nat}
    (h : Redirected proxy s guids t) :
    Safe handler Works (fun _ => True) (fun _ u => u.dns = s.dns ↔
      (∀ guid ∈ guids, s.dns guid = ⟨"", ""⟩) ∧
      (guids = [] → ∀ name ∈ Parse.parseNetshInterfaces s.listing,
        ∀ guid ∈ s.guidOf name, (s.dns guid).nameServer = "")) restore t := by
  cases h with
  | @native names guids hne hnames =>
    have hguids : guids ≠ [] := fun h => hne (List.map_eq_nil_iff.mp (by rw [hnames, h]; rfl))
    refine safe_perform.mpr fun w _ => ⟨trivial, safe_bind.mpr ?_⟩
    refine Safe.post (fun _ u hu => ?_)
      (each_restores (f := fun _ => ⟨"", ""⟩) (fun _ => rfl) clearDnsNative_clears names guids _ hnames)
    show u.dns = s.dns ↔ _
    have hdns : u.dns = mapOn (fun _ => ⟨"", ""⟩) guids s.dns := by
      rw [hu, System.mapDns_dns]
      exact (mapOn_mapOn : mapOn (fun _ => _) guids (mapOn (fun _ => ⟨proxy.text, "."⟩) guids s.dns) = _)
    rw [hdns, mapOn_eq_self_iff]
    exact ⟨fun h => ⟨fun guid hg => (h guid hg).symm, fun hn => absurd hn hguids⟩,
      fun h guid hg => (h.1 guid hg).symm⟩
  | @netsh names guids hlisting hnames =>
    refine safe_perform.mpr fun w _ => ⟨trivial, safe_bind.mpr ?_⟩
    refine Safe.post (fun _ u hu => ?_)
      (each_restores (f := withServer "") (fun _ => rfl) netshClear_clears names guids _ hnames)
    show u.dns = s.dns ↔ _
    have hdns : u.dns = mapOn (withServer "") guids s.dns := by
      rw [hu]
      exact mapOn_mapOn
    have hclear : ∀ v : DnsInterfaceSettings, withServer "" v = v ↔ v.nameServer = "" := fun v =>
      ⟨fun h => (congrArg DnsInterfaceSettings.nameServer h).symm, fun h => by rw [withServer, ← h]⟩
    rw [hdns, mapOn_eq_self_iff, ← hlisting]
    constructor
    · intro h
      refine ⟨by simp, fun _ name hn guid hg => (hclear _).mp (h guid ?_)⟩
      have hm : some guid ∈ guids.map some := by
        rw [← hnames, ← Option.mem_def.mp hg]
        exact List.mem_map_of_mem hn
      simpa using hm
    · intro h guid hg
      have hm : some guid ∈ names.map s.guidOf := hnames ▸ List.mem_map_of_mem hg
      obtain ⟨name, hn, he⟩ := List.mem_map.mp hm
      exact (hclear _).mpr (h.2 rfl name hn guid he)

/-- **Which settings come back.**  After a successful `apply` and a `restore` in
which every call goes through, every interface has the settings it had before,
exactly when those set natively had neither server nor search list, and those
set by `netsh` had no server. -/
theorem settings_round_trip_iff (proxy : IpAddr) (ws ws' : List Fate) (s : System)
    (happly : (WindowsRedirector.apply proxy ws s).1 = .ok ())
    (hrestore : ∀ e ∈ (exec handler restore ws' (WindowsRedirector.apply proxy ws s).2).events, Works e) :
    (WindowsRedirector.restore ws' (WindowsRedirector.apply proxy ws s).2).2.dns = s.dns ↔
      let guids := setGuids (exec handler (apply proxy) ws s).events
      (∀ guid ∈ guids, s.dns guid = ⟨"", ""⟩) ∧
      (guids = [] → ∀ name ∈ Parse.parseNetshInterfaces s.listing,
        ∀ guid ∈ s.guidOf name, (s.dns guid).nameServer = "") :=
  ((restore_restores ((apply_redirects proxy s).exec ws happly)).exec ws' hrestore).2

/-- Interfaces that take what DHCP assigns come back to it. -/
theorem settings_round_trip_dhcp :
    let s : System := { twoInterfaces with dns := fun _ => ⟨"", ""⟩ }
    (WindowsRedirector.restore [] (WindowsRedirector.apply .localhost [] s).2).2.dns = s.dns := by
  intro s
  have hruns : (WindowsRedirector.apply .localhost [] s).1 = .ok () ∧
      ∀ e ∈ (exec handler restore [] (WindowsRedirector.apply .localhost [] s).2).events, Works e := by
    decide +kernel
  exact (settings_round_trip_iff .localhost [] [] s hruns.1 hruns.2).mpr
    ⟨fun _ _ => rfl, fun _ _ _ _ _ => rfl⟩

/-- **A static configuration is lost**, by either mechanism. -/
theorem settings_lost :
    (let r := WindowsRedirector.apply .localhost [] twoInterfaces
    r.1 = .ok () ∧ (∀ e ∈ (exec handler restore [] r.2).events, Works e) ∧
      twoInterfaces.dns 1 = ⟨"9.9.9.9", ""⟩ ∧
      (WindowsRedirector.restore [] r.2).2.dns 1 = ⟨"", ""⟩) ∧
    (let r := WindowsRedirector.apply .localhost [.ok, .fails "50", .fails "50"] twoInterfaces
    r.1 = .ok () ∧ (∀ e ∈ (exec handler restore [] r.2).events, Works e) ∧
      (WindowsRedirector.restore [] r.2).2.dns 1 = ⟨"", ""⟩) := by decide +kernel

end Windows

/-! ### macOS -/

namespace Macos

/-- The paths a native `restore` removes. -/
theorem restoreNative_removes (paths : List String) (s : System) :
    Safe handler (fun e => ∀ path, e.call = .removeKey path → Works e) (fun _ => True)
      (fun r t => r = .ok () → t = s.mapStore none paths) (restoreNative paths) s := by
  have hremove : ∀ (paths : List String) (s : System),
      Safe handler (fun e => ∀ path, e.call = .removeKey path → Works e) (fun _ => True)
        (fun _ t => t = s.mapStore none paths) (Prog.each removeKey paths) s := by
    intro paths
    induction paths with
    | nil => intro s; exact (s.mapStore_nil none).symm
    | cons path paths ih =>
      intro s
      refine safe_perform.mpr fun w hw => ⟨trivial, ?_⟩
      obtain rfl : w = .ok := hw path rfl
      have hs : (handler (.removeKey path) .ok s).2 = s.mapStore none [path] := by
        rw [System.mapStore, mapOn_singleton]
        rfl
      rw [hs]
      refine (ih (s.mapStore none [path])).post fun _ t ht => ?_
      rw [ht, System.mapStore_append, List.singleton_append]
  refine safe_perform.mpr fun w _ => ⟨trivial, ?_⟩
  cases w with
  | fails cause => exact fun h => absurd h (by simp)
  | ok => exact safe_bind.mpr ((hremove paths s).post fun _ t ht _ => ht)

/-- **When the dynamic store comes back.**  After a successful `apply_native`
and a successful `restore_native` in which every removal goes through, the store
is what it was exactly when no path that was set had a value before. -/
theorem store_round_trip_iff (proxy : IpAddr) (ws ws' : List Fate) (s : System) (paths : List String)
    (happly : (exec handler (applyNative proxy) ws s).value = .ok paths)
    (hrestore : (exec handler (restoreNative paths) ws'
      (exec handler (applyNative proxy) ws s).state).value = .ok ())
    (hremovals : ∀ e ∈ (exec handler (restoreNative paths) ws'
      (exec handler (applyNative proxy) ws s).state).events,
      ∀ path, e.call = .removeKey path → Works e) :
    (exec handler (restoreNative paths) ws' (exec handler (applyNative proxy) ws s).state).state.store =
        s.store ↔
      ∀ path ∈ setPaths (exec handler (applyNative proxy) ws s).events, s.store path = none := by
  obtain ⟨hstate, hok, _⟩ := (applyNative_ends proxy s).exec ws
  obtain ⟨rfl, _⟩ := hok paths happly
  have hend := ((restoreNative_removes _ _).exec ws' hremovals).2 hrestore
  have hstore : (exec handler (restoreNative (setPaths (exec handler (applyNative proxy) ws s).events)) ws'
      (exec handler (applyNative proxy) ws s).state).state.store =
      mapOn (fun _ => none) (setPaths (exec handler (applyNative proxy) ws s).events) s.store := by
    rw [hend, System.mapStore_store, hstate, System.mapStore_store]
    exact mapOn_mapOn
  rw [hstore, mapOn_eq_self_iff]
  exact forall₂_congr fun path _ => eq_comm

/-- A Mac with two services in the dynamic store, one with an address from DHCP. -/
def dhcpService : System :=
  { twoServices with
    setupKeys := ["Setup:/Network/Service/A1", "Setup:/Network/Service/B2"]
    store := fun path => if path = "State:/Network/Service/A1/DNS" then
      some [("ServerAddresses", ["192.168.1.1"])] else none }

/-- With the service that has a value out of reach, the store comes back. -/
theorem store_round_trip_dhcpService :
    let r := exec handler (applyNative .localhost) [.ok, .ok, .fails "denied"] dhcpService
    (exec handler (restoreNative ["State:/Network/Service/B2/DNS"]) [] r.state).state.store =
      dhcpService.store := by
  have hruns : (exec handler (applyNative .localhost) [.ok, .ok, .fails "denied"] dhcpService).value =
      .ok ["State:/Network/Service/B2/DNS"] ∧
      setPaths (exec handler (applyNative .localhost) [.ok, .ok, .fails "denied"] dhcpService).events =
        ["State:/Network/Service/B2/DNS"] := by decide +kernel
  have hworks : ∀ e ∈ (exec handler (restoreNative ["State:/Network/Service/B2/DNS"]) []
      (exec handler (applyNative .localhost) [.ok, .ok, .fails "denied"] dhcpService).state).events,
      Works e := by decide +kernel
  refine (store_round_trip_iff .localhost _ [] dhcpService _ hruns.1 (by decide +kernel)
    fun e he _ _ => hworks e he).mpr ?_
  rw [hruns.2]
  decide

/-- **What DHCP has published is lost**: the path is overwritten, then removed. -/
theorem store_lost :
    let r := exec handler (applyNative .localhost) [] dhcpService
    let q := exec handler (restoreNative ["State:/Network/Service/A1/DNS", "State:/Network/Service/B2/DNS"])
      [] r.state
    r.value = .ok ["State:/Network/Service/A1/DNS", "State:/Network/Service/B2/DNS"] ∧
      q.value = .ok () ∧ (∀ e ∈ q.events, Works e) ∧
      dhcpService.store "State:/Network/Service/A1/DNS" = some [("ServerAddresses", ["192.168.1.1"])] ∧
      q.state.store "State:/Network/Service/A1/DNS" = none := by decide +kernel

end Macos

end Voidns
