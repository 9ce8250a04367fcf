import Voidns.Redirect.FailedApply
import Voidns.Redirect.Leak
import Voidns.Redirect.Record

/-!
# Whether a `restore` that fails can be tried again

A `restore` is honest when it returns `Ok` only if every item on record has been
reset, and retryable when a later one, in which every call succeeds, resets what
is still pointed at the proxy (`Honest`).

All three take the record before they reset anything, so the later one has none
to go by; and where they pass over a call that fails they return `Ok` all the
same.  Either way `honest_iff` leaves one case in which both hold: nothing was
left to reset.
-/

namespace Voidns

open Effect

section

variable {E : Sig} {σ J : Type} (H : Handler E Fate σ) (refused : ∀ c : E.Call, E.Reply c → Bool)
  (restore : Prog E (Except Error Unit))

/-- The world lets the call go through, and the system does not refuse it. -/
def Succeeds (e : CallEvent E Fate σ) : Prop :=
  e.choice = .ok ∧ refused e.call (H e.call e.choice e.before).1 = false

instance (e : CallEvent E Fate σ) : Decidable (Succeeds H refused e) :=
  inferInstanceAs (Decidable (_ ∧ _))

/-- Restores one after another. -/
def restores (wss : List (List Fate)) (s : σ) : σ :=
  wss.foldl (fun s ws => (exec H restore ws s).state) s

/-- Every item has been reset by some call. -/
def AllReset (items : List J) (resets : J → CallEvent E Fate σ → Prop)
    (es : List (CallEvent E Fate σ)) : Prop := ∀ j ∈ items, ∃ e ∈ es, resets j e

/-- **A restore that is honest and can be tried again.** -/
structure Honest (items : List J) (resets : J → CallEvent E Fate σ → Prop) (pointed : J → σ → Prop)
    (ws : List Fate) (s : σ) : Prop where
  ok : (exec H restore ws s).value = .ok () → AllReset items resets (exec H restore ws s).events
  retry : ¬ AllReset items resets (exec H restore ws s).events → ∀ (wss : List (List Fate)) ws',
    let u := restores H restore wss (exec H restore ws s).state
    (∀ e ∈ (exec H restore ws' u).events, Succeeds H refused e) →
      ∀ j ∈ items, pointed j u → ∃ e ∈ (exec H restore ws' u).events, resets j e

variable {H refused restore}

/-- With the record taken first, a restore is honest and can be tried again
exactly when it has left nothing to reset.  `take` is the call that takes it,
and the only one a later restore makes. -/
theorem honest_iff (take : E.Call) {items : List J} {resets : J → CallEvent E Fate σ → Prop}
    {pointed : J → σ → Prop} {ws : List Fate} {s : σ} (hrefused : ∀ r, refused take r = false)
    (hresets : ∀ j e, resets j e → e.call ≠ take)
    (htaken : ∀ ws', ∀ e ∈ (exec H restore ws' (exec H restore ws s).state).events, e.call = take)
    (hpointed : ∀ e, (exec H restore ws s).value = .error e →
      ∀ j ∈ items, pointed j (exec H restore ws s).state) :
    Honest H refused restore items resets pointed ws s ↔
      AllReset items resets (exec H restore ws s).events := by
  constructor
  · intro h
    by_contra hnot
    cases hr : (exec H restore ws s).value with
    | ok _ => exact hnot (h.ok hr)
    | error e =>
      have hquiet : ∀ e ∈ (exec H restore [] (exec H restore ws s).state).events,
          Succeeds H refused e := by
        intro ⟨c, w, u, v⟩ he
        obtain rfl : c = take := htaken [] _ he
        exact ⟨exec_nil_choice _ _ _ he, hrefused _⟩
      refine hnot fun j hj => ?_
      obtain ⟨e', he', hreset⟩ := h.retry hnot [] [] hquiet j hj (hpointed e hr j hj)
      exact absurd (htaken [] e' he') (hresets j e' hreset)
  · intro h
    exact ⟨fun _ => h, fun hnot => absurd h hnot⟩

end

/-! ### Linux -/

namespace Linux

/-- Whether the reply says the call has failed. -/
def refused : (c : Call) → Reply c → Bool
  | .symlinkMetadata _, r => !r.isOk
  | .readToString _, r => !r.isOk
  | .ifNametoindex _, r => !r.isOk
  | .copy .., r | .removeFile _, r | .write .., r | .systemBus, r | .resolve1Proxy, r
  | .busCall _, r => !r.isOk
  | .pathExists _, _ | .setActive _, _ | .takeActive, _ => false

/-- What is on record. -/
def Active.items : Active → List Active
  | .idle => []
  | a => [a]

/-- The call that resets what is on record has succeeded. -/
def Resets (a : Active) (e : CallEvent sig Fate System) : Prop :=
  Succeeds handler refused e ∧ match a with
    | .resolved i => e.call = .busCall (.revertLink i)
    | .resolvConf => e.call = .copy resolvBackup resolvConf
    | .idle => False

instance : ∀ a e, Decidable (Resets a e)
  | .resolved _, _ | .resolvConf, _ => inferInstanceAs (Decidable (_ ∧ _ = _))
  | .idle, _ => inferInstanceAs (Decidable (_ ∧ False))

/-- What is on record is still pointed at the proxy. -/
def Pointed (proxy : IpAddr) : Active → System → Prop
  | .resolved i, s => (s.links i).servers = dnsAddrs proxy
  | .resolvConf, s => FileSystem.read s.fs resolvConf = some (managed proxy)
  | .idle, _ => False

/-- A `restore` without a record only looks for one. -/
theorem restore_idle {s : System} (h : idle s = true) (ws : List Fate) :
    ∀ e ∈ (exec handler restore ws s).events, e.call = .takeActive := by
  have hs : s.active = .idle := of_decide_eq_true h
  have hends : Ends handler (fun es _ _ => ∀ e ∈ es, e.call = .takeActive) restore s := by
    refine ends_perform.mpr fun w => ?_
    have he : handler .takeActive w s = (s.active, { s with active := .idle }) := rfl
    rw [he, hs]
    exact fun e he => by rw [List.mem_singleton.mp he]
  exact hends.exec ws

theorem resolvconfApply_reads (proxy : IpAddr) (s : System) :
    Safe handler (fun _ => True) (fun _ => True)
      (fun r t => r = .ok () → FileSystem.read t.fs resolvConf = some (managed proxy))
      (resolvconfApply proxy) s := by
  refine safe_bind.mpr ((safe_trivial backupStep s).post fun r t _ => ?_)
  cases r with
  | error e => exact fun h => absurd h (by simp)
  | ok _ =>
    refine safe_bind.mpr ((safe_trivial unlinkStep t).post fun r u _ => ?_)
    cases r with
    | error e => exact fun h => absurd h (by simp)
    | ok _ =>
      refine safe_perform.mpr fun w _ => ⟨trivial, ?_⟩
      rcases write_cases resolvConf (managed proxy) w u with ⟨e, he⟩ | ⟨fs, _, hfs, he⟩ <;> rw [he]
      · exact fun h => absurd h (by simp)
      · exact fun _ => FileSystem.read_write hfs

/-- A record of `resolv.conf` is of one that points at the proxy. -/
theorem apply_reads (proxy : IpAddr) (s : System) :
    Safe handler (fun _ => True) (fun _ => True)
      (fun r t => r = .ok () → t.active = .resolvConf →
        FileSystem.read t.fs resolvConf = some (managed proxy)) (apply proxy) s := by
  have hfallback : ∀ t : System, Safe handler (fun _ => True) (fun _ => True)
      (fun r u => r = .ok () → u.active = .resolvConf →
        FileSystem.read u.fs resolvConf = some (managed proxy)) (fallback proxy) t := by
    intro t
    refine safe_bind.mpr ((resolvconfApply_reads proxy t).post fun r u hu => ?_)
    cases r with
    | error e => exact fun h => absurd h (by simp)
    | ok _ => exact fun w _ => ⟨trivial, fun _ _ => hu rfl⟩
  refine safe_perform.mpr fun w _ => ⟨trivial, ?_⟩
  cases (handler (.pathExists resolvedStub) w s).1 with
  | false => exact hfallback _
  | true =>
    refine safe_bind.mpr ((safe_trivial (applyResolved proxy) _).post fun r t _ => ?_)
    cases r with
    | error e => exact hfallback t
    | ok i => exact fun w _ => ⟨trivial, fun _ h => Active.noConfusion h⟩

/-- After a successful `apply`, what is on record is pointed at the proxy. -/
theorem apply_points (proxy : IpAddr) (s : System) :
    Ends handler (fun _ r t => r = .ok () → ∀ a ∈ t.active.items, Pointed proxy a t)
      (apply proxy) s := by
  refine (((apply_redirects proxy s).and (links_foldl (apply proxy) s)).and
    (apply_reads proxy s).ends).post fun es r t ⟨⟨hr, hlinks⟩, _, hreads⟩ hok a ha => ?_
  have hredirects := hr hok
  generalize methods es = done at hlinks hredirects
  generalize hactive : t.active = active at ha hredirects
  cases hredirects with
  | resolved i =>
    obtain rfl : a = .resolved i := List.mem_singleton.mp ha
    show (t.links i).servers = dnsAddrs proxy
    rw [hlinks]
    simp [Method.effect]
  | half i =>
    obtain rfl : a = .resolvConf := List.mem_singleton.mp ha
    exact hreads hok hactive
  | resolvConf =>
    obtain rfl : a = .resolvConf := List.mem_singleton.mp ha
    exact hreads hok hactive

/-- A `restore` that fails has only dropped the record. -/
theorem restore_fails (s : System) :
    Ends handler (fun _ r t => ∀ e, r = .error e → t = { s with active := .idle }) restore s := by
  refine ends_perform.mpr fun w => ?_
  have he : handler .takeActive w s = (s.active, { s with active := .idle }) := rfl
  rw [he]
  cases s.active with
  | idle => exact fun _ h => absurd h (by simp)
  | resolved i =>
    refine ends_bind.mpr ((managerCall_ends (.revertLink i) _).post fun es r t ⟨herr, _⟩ => ?_)
    cases r with
    | error e => exact fun _ _ => (herr e rfl).1
    | ok _ => exact fun _ h => absurd h (by simp)
  | resolvConf =>
    refine ends_perform.mpr fun w => ?_
    rcases pathExists_cases resolvBackup w { s with active := .idle } with ⟨he, _⟩ | ⟨he, _⟩ <;> rw [he]
    · refine ends_perform.mpr fun w => ?_
      rcases copy_cases resolvBackup resolvConf w { s with active := .idle } with
        ⟨e, he⟩ | ⟨fs, _, _, he⟩ <;> rw [he]
      · exact fun _ _ => rfl
      · exact ends_perform.mpr fun w _ h => absurd h (by simp)
    · exact fun _ h => absurd h (by simp)

theorem restore_honest_iff (proxy : IpAddr) (ws ws' : List Fate) (s : System)
    (happly : (LinuxRedirector.apply proxy ws s).1 = .ok ()) :
    Honest handler refused restore (LinuxRedirector.apply proxy ws s).2.active.items Resets
        (Pointed proxy) ws' (LinuxRedirector.apply proxy ws s).2 ↔
      AllReset (LinuxRedirector.apply proxy ws s).2.active.items Resets
        (exec handler restore ws' (LinuxRedirector.apply proxy ws s).2).events := by
  refine honest_iff (E := sig) .takeActive (fun _ => rfl) (fun a e ⟨_, h⟩ => ?_)
    (restore_idle (LinuxRedirector_records.restore ws' _)) fun e he a ha => ?_
  · cases a with
    | idle => exact h.elim
    | resolved | resolvConf => rw [h]; simp
  · have hpoints := (apply_points proxy s).exec ws happly a ha
    rw [(restore_fails _).exec ws' e he]
    cases a <;> exact hpoints

end Linux

/-! ### macOS -/

namespace Macos

/-- Whether the reply says the call has failed. -/
def refused : (c : Call) → Reply c → Bool
  | .createStore, r | .setRaw .., r | .removeKey _, r => !r
  | .getKeys _, r => r.isNone
  | .run .., r => !r.isOk
  | .setApplied _, _ | .takeApplied, _ => false

/-- One entry of the record. -/
inductive Item where
  | path (path : String)
  | service (svc : String) (servers : List String)

/-- What is on record. -/
def Applied.items : Applied → List Item
  | .none => []
  | .native paths => paths.map .path
  | .shell saved => saved.map fun v => .service v.1 v.2

/-- The call that resets an entry: `Empty` stands for no servers. -/
def Item.reset : Item → Call
  | .path p => .removeKey p
  | .service svc servers =>
    .run "networksetup" ("-setdnsservers" :: svc :: if servers.isEmpty then ["Empty"] else servers)

/-- The entry has been reset. -/
def Resets (i : Item) (e : CallEvent sig Fate System) : Prop :=
  Succeeds handler refused e ∧ e.call = i.reset

/-- The entry is still pointed at the proxy. -/
def Pointed (proxy : IpAddr) : Item → System → Prop
  | .path p, s => s.serversAt p = some [proxy.text]
  | .service svc _, s => s.dns svc = [proxy.text]

theorem restore_idle {s : System} (h : idle s = true) (ws : List Fate) :
    ∀ e ∈ (exec handler restore ws s).events, e.call = .takeApplied := by
  have hs : s.applied = .none := of_decide_eq_true h
  have hends : Ends handler (fun es _ _ => ∀ e ∈ es, e.call = .takeApplied) restore s := by
    refine ends_perform.mpr fun w => ?_
    have he : handler .takeApplied w s = (s.applied, { s with applied := .none }) := rfl
    rw [he, hs]
    exact fun e he => by rw [List.mem_singleton.mp he]
  exact hends.exec ws

/-- After a successful `apply`, what is on record is pointed at the proxy. -/
theorem Redirected.points {proxy : IpAddr} {s t : System} {paths : List String}
    (h : Redirected proxy s paths t) : ∀ i ∈ t.applied.items, Pointed proxy i t := by
  cases h with
  | native hne =>
    refine List.forall_mem_map.mpr fun path hp => ?_
    exact (serversAt_mapStore proxy s paths path).mpr (.inl hp)
  | @shell saved hsaved =>
    refine List.forall_mem_map.mpr fun v hv => ?_
    show (s.mapDns [proxy.text] (saved.map Prod.fst)).dns v.1 = [proxy.text]
    rw [System.mapDns_dns, Settings.mapOn_of_mem (List.mem_map_of_mem hv)]

/-- A `restore` that fails has only dropped the record. -/
theorem restore_fails (s : System) :
    Ends handler (fun _ r t => ∀ e, r = .error e → t = { s with applied := .none }) restore s := by
  refine ends_perform.mpr fun w => ?_
  have he : handler .takeApplied w s = (s.applied, { s with applied := .none }) := rfl
  rw [he]
  cases s.applied with
  | none => exact fun _ h => absurd h (by simp)
  | shell saved =>
    exact ends_bind.mpr ((ends_trivial (restoreShell saved) _).post fun _ _ _ _ _ h => absurd h (by simp))
  | native paths =>
    refine ends_perform.mpr fun w => ?_
    cases w with
    | fails cause => exact fun _ _ => rfl
    | ok =>
      exact ends_bind.mpr ((ends_trivial (Prog.each removeKey paths) _).post
        fun _ _ _ _ _ h => absurd h (by simp))

theorem restore_honest_iff (proxy : IpAddr) (ws ws' : List Fate) (s : System)
    (happly : (MacosRedirector.apply proxy ws s).1 = .ok ()) :
    Honest handler refused restore (MacosRedirector.apply proxy ws s).2.applied.items Resets
        (Pointed proxy) ws' (MacosRedirector.apply proxy ws s).2 ↔
      AllReset (MacosRedirector.apply proxy ws s).2.applied.items Resets
        (exec handler restore ws' (MacosRedirector.apply proxy ws s).2).events := by
  refine honest_iff (E := sig) .takeApplied (fun _ => rfl) (fun i e ⟨_, h⟩ => ?_)
    (restore_idle (MacosRedirector_records.restore ws' _)) fun e he i hi => ?_
  · rw [h]
    cases i <;> simp [Item.reset]
  · have hpoints := ((apply_redirects proxy s).exec ws happly).points i hi
    rw [(restore_fails _).exec ws' e he]
    cases i <;> exact hpoints

end Macos

/-! ### Windows -/

namespace Windows

/-- Whether the reply says the call has failed. -/
def refused : (c : Call) → Reply c → Bool
  | .showInterfaces, r | .run .., r => !r.isOk
  | .aliasToLuid _, r => !r.isOk
  | .luidToGuid _, r => !r.isOk
  | .setInterfaceDnsSettings .., r => !r.isOk
  | .setApplied _, _ | .takeApplied, _ => false

/-- One entry of the record. -/
inductive Item where
  | native (name : String)
  | netsh (name : String)

/-- What is on record. -/
def Applied.items : Applied → List Item
  | .none => []
  | .native names => names.map .native
  | .netsh names => names.map .netsh

/-- The entry has been reset. -/
def Resets (i : Item) (e : CallEvent sig Fate System) : Prop :=
  Succeeds handler refused e ∧ match i with
    | .native name => ∃ guid ∈ e.before.guidOf name, e.call = .setInterfaceDnsSettings guid ⟨"", ""⟩
    | .netsh name =>
      e.call = .run "netsh" ["interface", "ipv4", "set", "dnsservers", s!"name={name}", "dhcp"]

/-- The entry is still pointed at the proxy. -/
def Pointed (proxy : IpAddr) : Item → System → Prop
  | .native name, s | .netsh name, s => s.serverOf name = some proxy.text

theorem restore_idle {s : System} (h : idle s = true) (ws : List Fate) :
    ∀ e ∈ (exec handler restore ws s).events, e.call = .takeApplied := by
  have hs : s.applied = .none := of_decide_eq_true h
  have hends : Ends handler (fun es _ _ => ∀ e ∈ es, e.call = .takeApplied) restore s := by
    refine ends_perform.mpr fun w => ?_
    have he : handler .takeApplied w s = (s.applied, { s with applied := .none }) := rfl
    rw [he, hs]
    exact fun e he => by rw [List.mem_singleton.mp he]
  exact hends.exec ws

/-- A `restore` never fails. -/
theorem restore_ok (s : System) : Ends handler (fun _ r _ => r = .ok ()) restore s := by
  refine ends_perform.mpr fun w => ?_
  have he : handler .takeApplied w s = (s.applied, { s with applied := .none }) := rfl
  rw [he]
  cases s.applied with
  | none => exact rfl
  | native names => exact ends_bind.mpr ((ends_trivial (Prog.each clearDnsNative names) _).post fun _ _ _ _ => rfl)
  | netsh names => exact ends_bind.mpr ((ends_trivial (Prog.each netshClear names) _).post fun _ _ _ _ => rfl)

theorem restore_honest_iff (proxy : IpAddr) (ws ws' : List Fate) (s : System) :
    Honest handler refused restore (WindowsRedirector.apply proxy ws s).2.applied.items Resets
        (Pointed proxy) ws' (WindowsRedirector.apply proxy ws s).2 ↔
      AllReset (WindowsRedirector.apply proxy ws s).2.applied.items Resets
        (exec handler restore ws' (WindowsRedirector.apply proxy ws s).2).events := by
  refine honest_iff (E := sig) .takeApplied (fun _ => rfl) (fun i e ⟨_, h⟩ => ?_)
    (restore_idle (WindowsRedirector_records.restore ws' _)) fun e he => ?_
  · cases i with
    | native name =>
      obtain ⟨guid, _, hc⟩ := h
      rw [hc]
      simp
    | netsh name => rw [h]; simp
  · exact absurd (((restore_ok _).exec ws').symm.trans he) (by simp)

end Windows

/-! ### The three together -/

/-- **When a `restore` is honest and can be tried again.**  On each system, after
any successful `apply` and whatever fails in the `restore`: exactly when every
item on record has been reset by it. -/
theorem honest_restore_iff (proxy : IpAddr) (ws ws' : List Fate) :
    (∀ s : Linux.System, (LinuxRedirector.apply proxy ws s).1 = .ok () →
      let t := (LinuxRedirector.apply proxy ws s).2
      Honest Linux.handler Linux.refused Linux.restore t.active.items Linux.Resets
          (Linux.Pointed proxy) ws' t ↔
        AllReset t.active.items Linux.Resets (exec Linux.handler Linux.restore ws' t).events) ∧
    (∀ s : Macos.System, (MacosRedirector.apply proxy ws s).1 = .ok () →
      let t := (MacosRedirector.apply proxy ws s).2
      Honest Macos.handler Macos.refused Macos.restore t.applied.items Macos.Resets
          (Macos.Pointed proxy) ws' t ↔
        AllReset t.applied.items Macos.Resets (exec Macos.handler Macos.restore ws' t).events) ∧
    (∀ s : Windows.System, (WindowsRedirector.apply proxy ws s).1 = .ok () →
      let t := (WindowsRedirector.apply proxy ws s).2
      Honest Windows.handler Windows.refused Windows.restore t.applied.items Windows.Resets
          (Windows.Pointed proxy) ws' t ↔
        AllReset t.applied.items Windows.Resets
          (exec Windows.handler Windows.restore ws' t).events) :=
  ⟨fun s h => Linux.restore_honest_iff proxy ws ws' s h,
    fun s h => Macos.restore_honest_iff proxy ws ws' s h,
    fun s _ => Windows.restore_honest_iff proxy ws ws' s⟩

/-- With every call succeeding, the link on record is reverted. -/
theorem honest_restore_stubHost :
    let t := (LinuxRedirector.apply .localhost [] Linux.stubHost).2
    Honest Linux.handler Linux.refused Linux.restore t.active.items Linux.Resets
      (Linux.Pointed .localhost) [] t := by
  have hok : (LinuxRedirector.apply .localhost [] Linux.stubHost).1 = .ok () := by decide +kernel
  have hall : AllReset (LinuxRedirector.apply .localhost [] Linux.stubHost).2.active.items Linux.Resets
      (exec Linux.handler Linux.restore []
        (LinuxRedirector.apply .localhost [] Linux.stubHost).2).events := by
    unfold AllReset
    decide +kernel
  exact ((honest_restore_iff .localhost [] []).1 _ hok).mpr hall

/-- **No `restore` is tried again**: with `RevertLink` refused, or no session with
the dynamic store, the first returns an error, and the second `Ok` with
everything still pointed at the proxy; on Windows the first returns `Ok`. -/
theorem restore_gives_up :
    (let t := (LinuxRedirector.apply .localhost [] Linux.stubHost).2
    let r := LinuxRedirector.restore [.ok, .ok, .ok, .fails "denied"] t
    let q := LinuxRedirector.restore [] r.2
    t.active = .resolved 2 ∧ r.1 ≠ .ok () ∧ q.1 = .ok () ∧
      (q.2.links 2).servers = Linux.dnsAddrs .localhost) ∧
    (let t := (MacosRedirector.apply .localhost [] Macos.twoKeys).2
    let r := MacosRedirector.restore [.ok, .fails "no session"] t
    let q := MacosRedirector.restore [] r.2
    t.applied = .native ["State:/Network/Service/A1/DNS", "State:/Network/Service/B2/DNS"] ∧
      r.1 ≠ .ok () ∧ q.1 = .ok () ∧
      q.2.serversAt "State:/Network/Service/A1/DNS" = some ["127.0.0.1"]) ∧
    (let t := (WindowsRedirector.apply .localhost [] Windows.twoInterfaces).2
    let r := WindowsRedirector.restore [.ok, .ok, .ok, .fails "5"] t
    let q := WindowsRedirector.restore [] r.2
    t.applied = .native ["Ethernet", "Wi-Fi"] ∧ r.1 = .ok () ∧ q.1 = .ok () ∧
      q.2.serverOf "Ethernet" = some "127.0.0.1") := by decide +kernel

end Voidns
