import Voidns.Redirect.Applied

/-!
# Whether every query goes to the proxy

`apply` is to route all queries to the proxy, but its first loop, on Windows and
on macOS, passes over an interface or service it cannot set, and is content with
one that it could.  The second loop stops at the first failure, so it is only
when the first has set some that others can be left with the servers they had.
-/

namespace Voidns

open Effect Settings

/-! ### Windows -/

namespace Windows

/-- The name server of the interface a name stands for. -/
def System.serverOf (s : System) (name : String) : Option String :=
  (s.guidOf name).map fun guid => (s.dns guid).nameServer

theorem serverOf_mapDns {s : System} {f : DnsInterfaceSettings → DnsInterfaceSettings}
    {server name : String} (hf : ∀ v, (f v).nameServer = server) (guids : List Nat) :
    (s.mapDns f guids).serverOf name = some server ↔
      (∃ guid ∈ guids, s.guidOf name = some guid) ∨ s.serverOf name = some server := by
  rw [System.serverOf, System.serverOf, System.mapDns_guidOf]
  cases s.guidOf name with
  | none => simp
  | some guid =>
    by_cases hg : guid ∈ guids
    · refine iff_of_true ?_ (.inl ⟨guid, hg, rfl⟩)
      rw [Option.map_some, System.mapDns_dns, mapOn_of_mem hg, hf]
    · have hnot : ¬ ∃ other ∈ guids, some guid = some other :=
        fun ⟨_, hm, he⟩ => hg (Option.some.inj he ▸ hm)
      rw [or_iff_right hnot, Option.map_some, System.mapDns_dns, mapOn_of_notMem hg]
      rfl

/-- Every interface has been set, or had the proxy, or none was set natively. -/
theorem Redirected.covers_iff {proxy : IpAddr} {s t : System} {guids : List Nat}
    (h : Redirected proxy s guids t) :
    (∀ name ∈ Parse.parseNetshInterfaces s.listing, t.serverOf name = some proxy.text) ↔
      guids = [] ∨ ∀ name ∈ Parse.parseNetshInterfaces s.listing,
        (∃ guid ∈ guids, s.guidOf name = some guid) ∨ s.serverOf name = some proxy.text := by
  cases h with
  | @native names guids hne hnames =>
    have hguids : guids ≠ [] := fun h => hne (List.map_eq_nil_iff.mp (by rw [hnames, h]; rfl))
    rw [or_iff_right hguids]
    exact forall₂_congr fun name _ => serverOf_mapDns (fun _ => rfl) guids
  | @netsh names guids hlisting hnames =>
    refine iff_of_true (fun name hn => ?_) (.inl rfl)
    refine (serverOf_mapDns (f := withServer proxy.text) (fun _ => rfl) guids).mpr (.inl ?_)
    rw [← hlisting] at hn
    have hm : s.guidOf name ∈ guids.map some := hnames ▸ List.mem_map_of_mem hn
    obtain ⟨guid, hg, he⟩ := List.mem_map.mp hm
    exact ⟨guid, hg, he.symm⟩

end Windows

/-! ### macOS -/

namespace Macos

/-- The servers under a path of the dynamic store. -/
def System.serversAt (s : System) (path : String) : Option (List String) :=
  (s.store path).bind (·.lookup "ServerAddresses")

/-- The servers of the services `apply` has gone through from `s` to `t`, as the
mechanism it has succeeded by has them. -/
def redirectedServers (s t : System) : List (Option (List String)) :=
  match t.applied with
  | .native _ => s.setupKeys.map fun k => t.serversAt (statePath k)
  | .shell _ => (Parse.parseNetworkServices s.listing).map fun svc => some (t.dns svc)
  | .none => []

theorem serversAt_mapStore (proxy : IpAddr) (s : System) (paths : List String) (path : String) :
    (s.mapStore (some (proxyPlist proxy)) paths).serversAt path = some [proxy.text] ↔
      path ∈ paths ∨ s.serversAt path = some [proxy.text] := by
  rw [System.serversAt, System.mapStore_store]
  by_cases hp : path ∈ paths
  · rw [mapOn_of_mem hp]
    exact iff_of_true rfl (.inl hp)
  · rw [mapOn_of_notMem hp, or_iff_right hp]
    rfl

/-- Every service has been set, or had the proxy, or none was set natively. -/
theorem Redirected.covers_iff {proxy : IpAddr} {s t : System} {paths : List String}
    (h : Redirected proxy s paths t) :
    (∀ servers ∈ redirectedServers s t, servers = some [proxy.text]) ↔
      paths = [] ∨ ∀ k ∈ s.setupKeys,
        statePath k ∈ paths ∨ s.serversAt (statePath k) = some [proxy.text] := by
  cases h with
  | native hne =>
    rw [or_iff_right hne, redirectedServers, List.forall_mem_map]
    exact forall₂_congr fun k _ => serversAt_mapStore proxy s paths _
  | @shell saved hsaved =>
    refine iff_of_true ?_ (.inl rfl)
    rw [redirectedServers, List.forall_mem_map, ← hsaved]
    intro svc hm
    show some ((s.mapDns [proxy.text] (saved.map Prod.fst)).dns svc) = _
    rw [System.mapDns_dns, mapOn_of_mem hm]

end Macos

/-! ### Together -/

/-- **Where nothing leaks.**  After a successful `apply`, whatever has failed in
it, every interface and every service it has gone through is pointed at the
proxy exactly when its first loop has set none of them, or each that it has not
set had the proxy before. -/
theorem redirected_everywhere_iff (proxy : IpAddr) (ws : List Fate) :
    (∀ s : Windows.System, (WindowsRedirector.apply proxy ws s).1 = .ok () →
      ((∀ name ∈ Parse.parseNetshInterfaces s.listing,
          (WindowsRedirector.apply proxy ws s).2.serverOf name = some proxy.text) ↔
        Windows.setGuids (exec Windows.handler (Windows.apply proxy) ws s).events = [] ∨
        ∀ name ∈ Parse.parseNetshInterfaces s.listing,
          (∃ guid ∈ Windows.setGuids (exec Windows.handler (Windows.apply proxy) ws s).events,
            s.guidOf name = some guid) ∨ s.serverOf name = some proxy.text)) ∧
    (∀ s : Macos.System, (MacosRedirector.apply proxy ws s).1 = .ok () →
      ((∀ servers ∈ Macos.redirectedServers s (MacosRedirector.apply proxy ws s).2,
          servers = some [proxy.text]) ↔
        Macos.setPaths (exec Macos.handler (Macos.apply proxy) ws s).events = [] ∨
        ∀ k ∈ s.setupKeys,
          Macos.statePath k ∈ Macos.setPaths (exec Macos.handler (Macos.apply proxy) ws s).events ∨
            s.serversAt (Macos.statePath k) = some [proxy.text])) :=
  ⟨fun s h => ((Windows.apply_redirects proxy s).exec ws h).covers_iff,
    fun s h => ((Macos.apply_redirects proxy s).exec ws h).covers_iff⟩

/-- A Mac with two services in the dynamic store. -/
def Macos.twoKeys : Macos.System :=
  { twoServices with setupKeys := ["Setup:/Network/Service/A1", "Setup:/Network/Service/B2"] }

/-- With the first mechanism out of reach, the second sets everything. -/
theorem redirected_everywhere_fallback :
    (∀ name ∈ Parse.parseNetshInterfaces Windows.twoInterfaces.listing,
      (WindowsRedirector.apply .localhost [.ok, .fails "50", .fails "50"]
        Windows.twoInterfaces).2.serverOf name = some "127.0.0.1") ∧
    ∀ servers ∈ Macos.redirectedServers Macos.twoServices
      (MacosRedirector.apply .localhost [.fails "no session"] Macos.twoServices).2,
      servers = some ["127.0.0.1"] := by
  have hw : (WindowsRedirector.apply .localhost [.ok, .fails "50", .fails "50"]
      Windows.twoInterfaces).1 = .ok () ∧ Windows.setGuids (exec Windows.handler
        (Windows.apply .localhost) [.ok, .fails "50", .fails "50"] Windows.twoInterfaces).events =
      [] := by decide +kernel
  have hm : (MacosRedirector.apply .localhost [.fails "no session"] Macos.twoServices).1 = .ok () ∧
      Macos.setPaths (exec Macos.handler (Macos.apply .localhost) [.fails "no session"]
        Macos.twoServices).events = [] := by decide +kernel
  exact ⟨((redirected_everywhere_iff .localhost _).1 _ hw.1).mpr (.inl hw.2),
    ((redirected_everywhere_iff .localhost _).2 _ hm.1).mpr (.inl hm.2)⟩

/-- **One set is enough for `Ok`**: with the second of two refused, `apply`
succeeds and leaves it with the servers it had. -/
theorem redirected_partly :
    (let r := WindowsRedirector.apply .localhost (List.replicate 6 .ok ++ [.fails "5"])
      Windows.twoInterfaces
    r.1 = .ok () ∧ "Wi-Fi" ∈ Parse.parseNetshInterfaces Windows.twoInterfaces.listing ∧
      r.2.serverOf "Wi-Fi" = some "9.9.9.9") ∧
    (let r := MacosRedirector.apply .localhost [.ok, .ok, .ok, .fails "denied"] Macos.twoKeys
    r.1 = .ok () ∧ none ∈ Macos.redirectedServers Macos.twoKeys r.2) := by decide +kernel

end Voidns
