import Voidns.Controller.Settled
import Voidns.Redirect.FailedApply
import Voidns.Redirect.Record
import Voidns.Redirect.RoundTrip
import Voidns.Redirect.Snapshot

/-!
# What Windows and macOS are put back to

From a system with nothing on record, an `apply` either redirects it (`Disturbed`)
or leaves it as it was, and a `restore` then puts back every setting, whichever
mechanism the `apply` ended up with (`keeps_settings`).  Nothing in between is
possible as long as

* on Windows, no `apply` fails after a `netsh` of it has gone through,
* on macOS, an `apply` knows the servers of the services and meets one that cannot
  be set before it has set another (`Prudent`),
* every call of a `restore` goes through,

on systems where what `restore` writes is what was there: interfaces that take
their servers from DHCP, and services with addresses for servers and without state
in the dynamic store.  `Beside` is what no call changes.
-/

namespace Voidns

open Effect Settings

/-! ### Windows -/

namespace Windows

variable {r s t : System}

/-- `s` is `r`, but for the record and the settings. -/
def Beside (r s : System) : Prop := s = { r with applied := s.applied, dns := s.dns }

theorem command_beside {cmd : String} {args : List String} {out : String} (hs : Beside r s)
    (h : command s cmd args = some (out, t)) : Beside r t := by
  have hset : ∀ {guid : Nat} {server : String}, Beside r (s.setNameServer guid server) := by
    intro guid server
    show s.setNameServer guid server = _
    rw [hs]
    rfl
  unfold command at h
  split at h
  · obtain ⟨guid, _, hx⟩ := Option.map_eq_some_iff.mp h
    exact (Prod.mk.inj hx).2 ▸ hset
  · obtain ⟨guid, _, hx⟩ := Option.map_eq_some_iff.mp h
    exact (Prod.mk.inj hx).2 ▸ hset
  · exact (Prod.mk.inj (Option.some.inj h)).2 ▸ hs

theorem handler_beside (c : Call) (w : Fate) (h : Beside r s) : Beside r (handler c w s).2 := by
  cases c with
  | showInterfaces => exact (w.attempt_same (some s.listing) s).symm ▸ h
  | aliasToLuid name => exact (w.attempt_same (s.luid name) s).symm ▸ h
  | luidToGuid luid => exact (w.attempt_same (s.guid luid) s).symm ▸ h
  | setInterfaceDnsSettings guid settings =>
    refine w.attempt_keeps (I := Beside r) h fun a t ht => ?_
    rw [← (Prod.mk.inj (Option.some.inj ht)).2]
    show _ = _
    rw [h]
  | run cmd args => exact w.attempt_keeps (I := Beside r) h fun a t ht => command_beside h ht
  | setApplied a | takeApplied =>
    show _ = _
    rw [h]
    rfl

/-- What no program changes. -/
theorem beside {α : Type} (p : Prog sig α) (s : System) :
    Safe handler (fun _ => True) (fun _ => True) (fun _ t => Beside s t) p s :=
  (safe_frame (I := Beside s) (fun c w _ _ _ h => handler_beside c w h) (Prog.calls_any p)
    (show Beside s s from rfl)).mono
    (fun _ h => h) (fun _ _ => trivial) fun _ _ h => h

theorem Beside.eq (h : Beside r s) (hr : r.applied = .none) (hi : idle s = true)
    (hd : s.dns = r.dns) : s = r := by
  rw [Beside, of_decide_eq_true hi, hd, ← hr] at h
  exact h

/-- The native loop returns names it was given. -/
theorem setAllNative_names (server : String) : ∀ (ifaces nativeOk : List String) (s : System),
    Safe handler (fun _ => True) (fun _ => True)
      (fun names _ => ∀ name ∈ names, name ∈ nativeOk ∨ name ∈ ifaces)
      (setAllNative server ifaces nativeOk) s := by
  intro ifaces
  induction ifaces with
  | nil => exact fun nativeOk _ _ h => .inl h
  | cons name ifaces ih =>
    intro nativeOk s
    refine safe_bind.mpr ((safe_trivial _ s).post fun r t _ => ?_)
    cases r with
    | error e => exact (ih nativeOk t).post fun _ _ h n hn => (h n hn).imp id (List.mem_cons_of_mem _)
    | ok _ =>
      refine (ih (nativeOk ++ [name]) t).post fun _ _ h n hn => ?_
      rcases h n hn with hin | hin
      · rcases List.mem_append.mp hin with hin | hin
        · exact .inl hin
        · exact .inr (List.mem_singleton.mp hin ▸ List.mem_cons_self)
      · exact .inr (List.mem_cons_of_mem _ hin)

/-- A successful `apply` has found an interface, and records none that it has not. -/
theorem apply_listed (proxy : IpAddr) (s : System) :
    Safe handler (fun _ => True) (fun _ => True)
      (fun r t => r = .ok () → Parse.parseNetshInterfaces s.listing ≠ [] ∧
        ∀ names, t.applied = .native names →
          ∀ name ∈ names, name ∈ Parse.parseNetshInterfaces s.listing) (apply proxy) s := by
  have hlist : Safe handler (fun _ => True) (fun _ => True)
      (fun r _ => ∀ ifaces, r = .ok ifaces → ifaces = Parse.parseNetshInterfaces s.listing)
      connectedInterfaces s := by
    refine safe_perform.mpr fun w _ => ⟨trivial, ?_⟩
    cases w with
    | ok => exact fun _ h => (Except.ok.inj h).symm
    | fails cause => exact fun _ h => absurd h (by simp)
  refine safe_bind.mpr (hlist.post fun r t hr => ?_)
  cases r with
  | error e => exact fun h => absurd h (by simp)
  | ok ifaces =>
    rw [← hr ifaces rfl]
    cases ifaces with
    | nil => exact fun h => absurd h (by simp)
    | cons name ifaces =>
      refine safe_bind.mpr ((setAllNative_names proxy.text (name :: ifaces) [] t).post ?_)
      intro nativeOk u hnames
      cases nativeOk with
      | cons n ns =>
        refine safe_perform.mpr fun w _ => ⟨trivial, fun _ => ⟨by simp, fun names h => ?_⟩⟩
        obtain rfl := Applied.native.inj h
        exact fun name hn => (hnames name hn).resolve_left (by simp)
      | nil =>
        refine safe_bind.mpr ((safe_trivial _ u).post fun r v _ => ?_)
        cases r with
        | error e => exact fun h => absurd h (by simp)
        | ok _ =>
          exact safe_perform.mpr fun w _ => ⟨trivial, fun _ => ⟨by simp, fun _ h => absurd h (by simp [handler])⟩⟩

def Call.netsh : Call → Bool
  | .run .. => true
  | _ => false

/-- Redirected to the proxy, by one mechanism or the other: it is the name server of a
connected interface. -/
structure Disturbed (r s : System) : Prop where
  redirected : ∃ guids, Redirected .localhost r guids s
  listed : ∀ names, s.applied = .native names →
    ∀ name ∈ names, name ∈ Parse.parseNetshInterfaces r.listing
  points : ∃ name ∈ Parse.parseNetshInterfaces r.listing, ∃ guid ∈ r.guidOf name,
    (s.dns guid).nameServer = IpAddr.localhost.text

/-- The interface behind a recorded name. -/
theorem exists_guid {names : List String} {guids : List Nat}
    (h : names.map r.guidOf = guids.map some) {name : String} (hn : name ∈ names) :
    ∃ guid ∈ guids, r.guidOf name = some guid := by
  have hin : r.guidOf name ∈ guids.map some := h ▸ List.mem_map_of_mem hn
  obtain ⟨guid, hguid, he⟩ := List.mem_map.mp hin
  exact ⟨guid, hguid, he.symm⟩

/-- **A successful `apply`** redirects a connected interface. -/
theorem apply_disturbs (ws : List Fate) (h : (WindowsRedirector.apply .localhost ws r).1 = .ok ()) :
    Disturbed r (WindowsRedirector.apply .localhost ws r).2 := by
  have hredirected := (apply_redirects .localhost r).exec ws h
  obtain ⟨hne, hlisted⟩ := ((apply_listed .localhost r).exec_total ws).2 h
  refine ⟨⟨_, hredirected⟩, hlisted, ?_⟩
  show ∃ name ∈ Parse.parseNetshInterfaces r.listing, ∃ guid ∈ r.guidOf name,
    ((exec handler (apply .localhost) ws r).state.dns guid).nameServer = _
  generalize (exec handler (apply .localhost) ws r).state = t at *
  generalize setGuids (exec handler (apply .localhost) ws r).events = guids at *
  cases hredirected with
  | @native names guids hnames hguids =>
    obtain ⟨name, hname⟩ := List.exists_mem_of_ne_nil _ hnames
    obtain ⟨guid, hin, hguid⟩ := exists_guid hguids hname
    refine ⟨name, hlisted _ rfl name hname, guid, hguid, ?_⟩
    show (mapOn (fun _ => _) guids r.dns guid).nameServer = _
    rw [mapOn_of_mem hin]
  | @netsh names guids hnames hguids =>
    subst hnames
    obtain ⟨name, hname⟩ := List.exists_mem_of_ne_nil _ hne
    obtain ⟨guid, hin, hguid⟩ := exists_guid hguids hname
    refine ⟨name, hname, guid, hguid, ?_⟩
    show (mapOn (withServer _) guids r.dns guid).nameServer = _
    rw [mapOn_of_mem hin]
    rfl

/-- **A failed `apply`** changes nothing, when no `netsh` of it has gone through. -/
theorem apply_spares (hr : r.applied = .none) {ws : List Fate} {e : Error}
    (h : (WindowsRedirector.apply .localhost ws r).1 = .error e)
    (hA : ∀ x ∈ (exec handler (apply .localhost) ws r).events, x.call.netsh = true → x.choice ≠ .ok) :
    (WindowsRedirector.apply .localhost ws r).2 = r := by
  have hidle : idle r = true := decide_eq_true hr
  have hrecord := WindowsRedirector_records.apply_error .localhost ws r e h
  have hdns := ((apply_fails .localhost r).exec ws e h).mpr fun x hx ⟨hok, name, guid, hcall, _⟩ =>
    hA x hx (by rw [hcall]; rfl) hok
  exact ((beside _ r).exec_total ws).2.eq hr (hrecord.trans hidle) hdns

/-- **A `restore`** in which every call goes through puts everything back. -/
theorem restore_undoes (hr : r.applied = .none)
    (hdhcp : ∀ name ∈ Parse.parseNetshInterfaces r.listing, ∀ guid ∈ r.guidOf name,
      r.dns guid = ⟨"", ""⟩) {ws : List Fate} (h : Disturbed r s)
    (hA : ∀ x ∈ (exec handler restore ws s).events, Works x) :
    (WindowsRedirector.restore ws s).2 = r := by
  obtain ⟨⟨guids, hredirected⟩, hlisted, _⟩ := h
  have hbeside : Beside r (WindowsRedirector.restore ws s).2 := by
    have hs : Beside r s := by cases hredirected <;> rfl
    exact ((safe_frame (I := Beside r) (A := fun _ => True)
      (fun c w _ _ _ h => handler_beside c w h) (Prog.calls_any restore) hs).exec_total ws).2
  refine hbeside.eq hr (WindowsRedirector_records.restore ws s) ?_
  refine (((restore_restores hredirected).exec ws hA).2).mpr ⟨fun guid hguid => ?_, fun _ name hname guid hg => ?_⟩
  · cases hredirected with
    | @native names guids hnames hguids =>
      have hin : some guid ∈ names.map r.guidOf := hguids ▸ List.mem_map_of_mem hguid
      obtain ⟨name, hname, he⟩ := List.mem_map.mp hin
      exact hdhcp name (hlisted _ rfl name hname) guid he
    | netsh => exact absurd hguid (by simp)
  · rw [hdhcp name hname guid hg]

/-- With nothing on record, a `restore` changes nothing. -/
theorem restore_nothing (hr : r.applied = .none) (ws : List Fate) :
    (WindowsRedirector.restore ws r).2 = r := by
  have hsafe : Safe handler (fun _ => True) (fun _ => True) (fun _ t => t = r) restore r := by
    refine safe_perform.mpr fun w _ => ⟨trivial, ?_⟩
    have hsame : { r with applied := .none } = r := by rw [← hr]
    have he : handler .takeApplied w r = (.none, r) := Prod.ext hr hsame
    rw [he]
    exact rfl
  exact (hsafe.exec_total ws).2

/-- No `apply` fails once a `netsh` of it has gone through, and every call of a `restore`
goes through. -/
def OsWorks (e : CallEvent Controller.sig (Controller.Choice (List Fate)) (Controller System)) :
    Prop :=
  match e.call with
  | .apply ip => (exec handler (apply ip) e.choice.os e.before.redirector).value ≠ .ok () →
    ∀ x ∈ (exec handler (apply ip) e.choice.os e.before.redirector).events,
      x.call.netsh = true → x.choice ≠ .ok
  | .restore => ∀ x ∈ (exec handler restore e.choice.os e.before.redirector).events, Works x
  | _ => True

instance : DecidablePred OsWorks
  | ⟨.apply ip, w, c, _⟩ => inferInstanceAs
    (Decidable ((exec handler (apply ip) w.os c.redirector).value ≠ .ok () → ∀ x ∈ _, _ → _))
  | ⟨.restore, w, c, _⟩ =>
    inferInstanceAs (Decidable (∀ x ∈ (exec handler restore w.os c.redirector).events, _))
  | ⟨.status, _, _, _⟩ | ⟨.set _, _, _, _⟩ | ⟨.port, _, _, _⟩ | ⟨.start .., _, _, _⟩
  | ⟨.stop _, _, _, _⟩ | ⟨.putProxy _, _, _, _⟩ | ⟨.takeProxy, _, _, _⟩ | ⟨.flushCache, _, _, _⟩
  | ⟨.subscribe, _, _, _⟩ => isTrue trivial

theorem keeps_settings (hr : r.applied = .none)
    (hdhcp : ∀ name ∈ Parse.parseNetshInterfaces r.listing, ∀ guid ∈ r.guidOf name,
      r.dns guid = ⟨"", ""⟩) :
    Controller.Keeps WindowsRedirector OsWorks (Disturbed r) (· = r) where
  apply w c hA h := by
    rw [h]
    refine ⟨apply_disturbs w.os, fun e he => apply_spares hr he ?_⟩
    have hfails : (exec handler (apply .localhost) w.os r).value ≠ .ok () := by
      rw [show (exec handler (apply .localhost) w.os r).value = _ from he]
      simp
    rw [OsWorks, h] at hA
    exact hA hfails
  restore w c hA h := by
    rcases h with h | h
    · exact restore_undoes hr hdhcp h hA
    · rw [h]
      exact restore_nothing hr w.os
  flush w s := by
    have hs : (WindowsRedirector.flushCache w s).2 = s := ((flushCache_same s).exec_total w).2
    rw [hs]
    exact ⟨id, id⟩

end Windows

/-! ### macOS -/

namespace Macos

variable {r s t : System}

/-- `s` is `r`, but for the record, the dynamic store and the servers. -/
def Beside (r s : System) : Prop :=
  s = { r with applied := s.applied, store := s.store, dns := s.dns }

theorem handler_beside (c : Call) (w : Fate) (h : Beside r s) : Beside r (handler c w s).2 := by
  cases c with
  | createStore | getKeys pattern => exact h
  | setRaw path value | removeKey path =>
    cases w with
    | fails cause => exact h
    | ok =>
      show _ = _
      rw [h]
      rfl
  | run cmd args =>
    refine w.attempt_keeps (I := Beside r) h fun a t ht => ?_
    have ht : (command s cmd args).2 = t := congrArg Prod.snd (Option.some.inj ht)
    rw [← ht]
    unfold command
    split
    · exact h
    · exact h
    · show _ = _
      rw [h]
    · exact h
  | setApplied a | takeApplied =>
    show _ = _
    rw [h]
    rfl

theorem Beside.eq (h : Beside r s) (hr : r.applied = .none) (hi : idle s = true)
    (hstore : s.store = r.store) (hd : s.dns = r.dns) : s = r := by
  rw [Beside, of_decide_eq_true hi, hstore, hd, ← hr] at h
  exact h

/-- The loop of `apply_native` sets the paths of the keys it is given. -/
theorem setAll_paths (proxy : IpAddr) : ∀ (keys applied : List String) (s : System),
    Safe handler (fun _ => True) (fun x => ∀ path ∈ setPath x, path ∈ keys.map statePath)
      (fun _ _ => True) (setAll proxy keys applied) s := by
  intro keys
  induction keys with
  | nil => exact fun _ _ => trivial
  | cons k keys ih =>
    intro applied s
    refine safe_perform.mpr fun w _ => ⟨fun path hpath => ?_, ?_⟩
    · cases w with
      | fails cause => exact absurd hpath (by simp [setPath])
      | ok =>
        rw [← Option.some.inj hpath]
        exact List.mem_cons_self
    · have hrest : ∀ applied t, Safe handler (fun _ => True)
          (fun x => ∀ path ∈ setPath x, path ∈ (k :: keys).map statePath) (fun _ _ => True)
          (setAll proxy keys applied) t := fun applied t =>
        (ih applied t).mono (fun _ h => h)
          (fun _ h path hpath => List.mem_cons_of_mem _ (h path hpath)) fun _ _ h => h
      cases (handler (.setRaw (statePath k) (proxyPlist proxy)) w s).1 with
      | true => exact hrest _ _
      | false => exact hrest _ _

theorem applyNative_paths (proxy : IpAddr) (s : System) :
    Safe handler (fun _ => True) (fun x => ∀ path ∈ setPath x, path ∈ s.setupKeys.map statePath)
      (fun _ _ => True) (applyNative proxy) s := by
  refine safe_perform.mpr fun w _ => ⟨nofun, ?_⟩
  cases w with
  | fails cause => exact trivial
  | ok =>
    refine safe_perform.mpr fun w _ => ⟨nofun, ?_⟩
    cases w with
    | fails cause => exact trivial
    | ok =>
      refine safe_bind.mpr ((setAll_paths proxy s.setupKeys [] s).post fun applied t _ => ?_)
      cases applied <;> trivial

/-- A fallback that succeeds has found a service. -/
theorem applyShell_listed (proxy : IpAddr) (s : System) :
    Safe handler (fun _ => True) (fun _ => True)
      (fun v _ => ∀ saved, v = .ok saved → Parse.parseNetworkServices s.listing ≠ [])
      (applyShell proxy) s := by
  have hlist : Safe handler (fun _ => True) (fun _ => True)
      (fun v _ => ∀ services, v = .ok services → services = Parse.parseNetworkServices s.listing)
      networkServices s := by
    refine safe_perform.mpr fun w _ => ⟨trivial, ?_⟩
    cases w with
    | ok => exact fun _ h => (Except.ok.inj h).symm
    | fails cause => exact fun _ h => absurd h (by simp)
  refine safe_bind.mpr (hlist.post fun v t hv => ?_)
  cases v with
  | error e => exact fun _ h => absurd h (by simp)
  | ok services =>
    rw [← hv services rfl]
    cases services with
    | nil => exact fun _ h => absurd h (by simp)
    | cons svc services => exact (safe_trivial _ t).post fun _ _ _ _ _ => by simp

/-- Which paths an `apply` sets: none when it fails, and then the store is as it was; and
without one it has found a service. -/
theorem apply_ends (proxy : IpAddr) (s : System) :
    Ends handler (fun es v t =>
      (∀ path ∈ setPaths es, path ∈ s.setupKeys.map statePath) ∧
      (∀ e, v = .error e → setPaths es = [] ∧ t.store = s.store) ∧
      (setPaths es = [] → v = .ok () → Parse.parseNetworkServices s.listing ≠ []))
      (apply proxy) s := by
  have hfinish : ∀ (a : Applied) (t : System),
      Ends handler (fun es v _ => setPaths es = [] ∧ v = .ok ())
        (do setApplied a; let _ ← flushCache; return .ok () : Prog sig (Except Error Unit)) t := by
    intro a t
    have hcalls : flushCache.Calls fun c : Call => c.native = false :=
      Prog.calls_perform.mpr ⟨rfl, fun _ => Prog.calls_perform.mpr ⟨rfl, fun _ => trivial⟩⟩
    refine ends_perform.mpr fun w => ends_bind.mpr ((hcalls.ends _).post fun es v u hes => ⟨?_, rfl⟩)
    rw [List.append_nil]
    exact setPaths_eq_nil (List.forall_mem_cons.mpr ⟨rfl, hes⟩)
  refine ends_bind.mpr ((((applyNative_ends proxy s).and (applyNative_paths proxy s).ends).and
    (applyNative_fails proxy s).ends).post fun es v t ⟨⟨⟨ht, hok, herr⟩, hpaths, _⟩, _, _, hstore⟩ => ?_)
  have hin : ∀ path ∈ setPaths es, path ∈ s.setupKeys.map statePath := by
    intro path hp
    obtain ⟨x, hx, hpath⟩ := List.mem_filterMap.mp hp
    exact hpaths x hx path hpath
  cases v with
  | ok paths =>
    obtain ⟨hp, hne⟩ := hok paths rfl
    refine (hfinish _ t).post fun es' v u ⟨hes, hv⟩ => ?_
    rw [setPaths_append, hes, List.append_nil]
    exact ⟨hin, fun e he => absurd (hv.symm.trans he) (by simp), fun hn => absurd (hp.trans hn) hne⟩
  | error e =>
    have hnone := herr e rfl
    rw [hnone, System.mapStore_nil] at ht
    subst ht
    have hshell : (applyShell proxy).Calls fun c : Call => c.native = false :=
      (applyShell_shell proxy).mono fun c hc => by cases c <;> first | rfl | exact hc.elim
    refine ends_bind.mpr ((((shell_overwritten (applyShell_shell proxy) t).and
      (applyShell_listed proxy t).ends).and (hshell.ends t)).post ?_)
    intro es' v u ⟨⟨⟨_, hs⟩, _, hlisted⟩, hcalls⟩
    have hes : setPaths (es ++ es') = [] := by
      rw [setPaths_append, hnone, setPaths_eq_nil hcalls]
      rfl
    cases v with
    | error e =>
      have hall : setPaths (es ++ (es' ++ [])) = [] := by rw [List.append_nil]; exact hes
      exact ⟨fun path hp => absurd (hall ▸ hp) (by simp), fun _ _ => ⟨hall, hs⟩,
        fun _ h => absurd h (by simp)⟩
    | ok saved =>
      refine (hfinish (.shell saved) u).post fun es'' v u ⟨hes', hv⟩ => ?_
      rw [← List.append_assoc, setPaths_append, hes, hes']
      exact ⟨nofun, fun e he => absurd (hv.symm.trans he) (by simp), fun _ _ => hlisted saved rfl⟩

/-- The servers of a service are read, unless it has none, and a service that cannot be
set is met before any of the others has been. -/
def Prudent (r : System) (x : CallEvent sig Fate System) : Prop :=
  (∀ svc ∈ x.call.gets, x.choice = .ok ∨ x.before.dns svc = []) ∧
    ∀ svc ∈ x.call.sets, x.choice = .ok ∨
      ∀ other ∈ Parse.parseNetworkServices r.listing, x.before.dns other = r.dns other

instance (r : System) (x : CallEvent sig Fate System) : Decidable (Prudent r x) :=
  inferInstanceAs (Decidable (_ ∧ _))

/-- Redirected to the proxy, by one mechanism or the other: it is what some services have in
the dynamic store, or the server of all of them. -/
inductive Disturbed (r s : System) : Prop
  | native {paths : List String} : paths ≠ [] → (∀ path ∈ paths, path ∈ r.setupKeys.map statePath) →
      s = { r.mapStore (some (proxyPlist .localhost)) paths with applied := .native paths } →
      Disturbed r s
  | shell {services : List String} : services = Parse.parseNetworkServices r.listing → services ≠ [] →
      s = { r.mapDns [IpAddr.localhost.text] services with
        applied := .shell (services.map fun svc => (svc, r.dns svc)) } →
      Disturbed r s

/-- **An `apply`** redirects, or leaves everything as it was. -/
theorem apply_disturbs (hr : r.applied = .none)
    (hv : ∀ svc, ∀ server ∈ r.dns svc, Text.isIpAddr server.toList = true)
    (hn : (Parse.parseNetworkServices r.listing).Nodup) {ws : List Fate}
    (hA : ∀ x ∈ (exec handler (apply .localhost) ws r).events, Prudent r x) :
    ((MacosRedirector.apply .localhost ws r).1 = .ok () →
      Disturbed r (MacosRedirector.apply .localhost ws r).2) ∧
    ∀ e, (MacosRedirector.apply .localhost ws r).1 = .error e →
      (MacosRedirector.apply .localhost ws r).2 = r := by
  have hidle : idle r = true := decide_eq_true hr
  have hrecord := MacosRedirector_records.apply_error .localhost ws r
  obtain ⟨hpaths, herror, hlisted⟩ := (apply_ends .localhost r).exec ws
  have hredirected := (apply_redirects .localhost r).exec ws
  have hbeside := ((safe_frame (I := Beside r) (A := fun _ => True)
    (fun c w _ _ _ h => handler_beside c w h) (Prog.calls_any (apply .localhost))
    (show Beside r r from rfl)).exec_total ws).2
  -- with nothing set in the dynamic store, it was out of reach
  have hcareful : setPaths (exec handler (apply .localhost) ws r).events = [] →
      ∀ x ∈ (exec handler (apply .localhost) ws r).events,
        Careful (fun _ t => ∀ svc ∈ Parse.parseNetworkServices r.listing, t.dns svc = r.dns svc) x := by
    intro hnone x hx
    refine ⟨fun hkey hok => ?_, (hA x hx).1, (hA x hx).2⟩
    have hset := List.filterMap_eq_nil_iff.mp hnone x hx
    obtain ⟨c, w, s, t⟩ := x
    obtain rfl : w = .ok := hok
    cases c with
    | setRaw path value => exact absurd hset (by simp [setPath])
    | _ => exact absurd hkey (by simp [Call.setsKey])
  have hsnap : setPaths (exec handler (apply .localhost) ws r).events = [] → _ := fun hnone =>
    ((apply_snapshots .localhost hv hn ⟨rfl, hr, rfl⟩).exec ws (hcareful hnone)).2
  show ((exec handler (apply .localhost) ws r).value = .ok () → _) ∧
    ∀ e, (exec handler (apply .localhost) ws r).value = .error e → _
  constructor
  · intro hok
    specialize hredirected hok
    show Disturbed r (exec handler (apply .localhost) ws r).state
    generalize setPaths (exec handler (apply .localhost) ws r).events = paths at *
    generalize (exec handler (apply .localhost) ws r).state = t at *
    cases hredirected with
    | native hne => exact .native hne hpaths rfl
    | @shell saved hsaved =>
      have happlied := ((hsnap rfl).1 hok).applied
      refine .shell rfl (hlisted rfl hok) ?_
      rw [← Applied.shell.inj happlied, hsaved]
  · intro e he
    obtain ⟨hnone, hstore⟩ := herror e he
    exact Beside.eq hbeside hr ((hrecord e he).trans hidle) hstore ((hsnap hnone).2 e he).dns

theorem restore_calls_no_key : restore.Calls fun c : Call => c.setsKey = false := by
  refine Prog.calls_perform.mpr ⟨rfl, fun a => ?_⟩
  cases a with
  | none => trivial
  | native paths =>
    refine Prog.calls_perform.mpr ⟨rfl, fun store => ?_⟩
    cases store with
    | false => trivial
    | true =>
      refine Prog.Calls.bind (Prog.Calls.each (fun path => ?_) paths) fun _ => trivial
      exact Prog.calls_perform.mpr ⟨rfl, fun _ => trivial⟩
  | shell prev =>
    refine Prog.Calls.bind (Prog.Calls.each (fun saved => ?_) prev) fun _ => trivial
    exact Prog.calls_perform.mpr ⟨rfl, fun _ => trivial⟩

/-- The fallback leaves the dynamic store alone. -/
theorem restoreShell_store (prev : List (String × List String)) (s : System) :
    Safe handler (fun _ => True) (fun _ => True) (fun _ t => t.store = s.store) (restoreShell prev) s := by
  have hcalls : (restoreShell prev).Calls fun c : Call => ∃ cmd args, c = .run cmd args := by
    refine Prog.Calls.each (fun saved => ?_) prev
    exact Prog.calls_perform.mpr ⟨⟨_, _, rfl⟩, fun _ => trivial⟩
  refine (safe_frame (I := fun t : System => t.store = s.store) (fun c w t hc _ ht => ?_) hcalls rfl).mono
    (fun _ h => h) (fun _ _ => trivial) fun _ _ h => h
  obtain ⟨cmd, args, rfl⟩ := hc
  refine w.attempt_keeps (I := fun u : System => u.store = s.store) ht fun a u hu => ?_
  have hu : (command t cmd args).2 = u := congrArg Prod.snd (Option.some.inj hu)
  rw [← hu, ← ht]
  unfold command
  split <;> rfl

/-- **A `restore`** in which every call goes through puts everything back. -/
theorem restore_puts_back (hr : r.applied = .none)
    (hv : ∀ svc, ∀ server ∈ r.dns svc, Text.isIpAddr server.toList = true)
    (hstore : ∀ key ∈ r.setupKeys, r.store (statePath key) = none) {ws : List Fate}
    (h : Disturbed r s) (hA : ∀ x ∈ (exec handler restore ws s).events, Works x) :
    (MacosRedirector.restore ws s).2 = r := by
  have hbeside : Beside r (MacosRedirector.restore ws s).2 := by
    have hs : Beside r s := by cases h <;> rename_i hs <;> rw [hs] <;> rfl
    exact ((safe_frame (I := Beside r) (A := fun _ => True)
      (fun c w _ _ _ h => handler_beside c w h) (Prog.calls_any restore) hs).exec_total ws).2
  have hidle := MacosRedirector_records.restore ws s
  cases h with
  | @native paths _ hin hs =>
    have hends : Safe handler Works (fun _ => True) (fun _ t => t.store = r.store ∧ t.dns = r.dns)
        restore s := by
      refine safe_perform.mpr fun w _ => ⟨trivial, ?_⟩
      have hsame : { r.mapStore (some (proxyPlist .localhost)) paths with applied := .none } =
          r.mapStore (some (proxyPlist .localhost)) paths := by
        rw [← hr]
        rfl
      have he : handler .takeApplied w s =
          (.native paths, r.mapStore (some (proxyPlist .localhost)) paths) := by
        rw [hs]
        exact Prod.ext rfl hsame
      rw [he]
      have hok : Safe handler Works (fun _ => True) (fun v _ => v = .ok ()) (restoreNative paths)
          (r.mapStore (some (proxyPlist .localhost)) paths) := by
        refine safe_perform.mpr fun w hw => ⟨trivial, ?_⟩
        obtain rfl : w = .ok := hw
        exact safe_bind.mpr ((safe_trivial _ _).mono (fun _ _ => trivial) (fun _ h => h) fun _ _ _ => rfl)
      have hremoves := (restoreNative_removes paths (r.mapStore (some (proxyPlist .localhost)) paths)).mono
        (fun x (hx : Works x) _ _ => hx) (fun _ h => h) fun _ _ h => h
      refine (hok.and hremoves).mono (fun _ h => h) (fun _ _ => trivial) fun v t ⟨hv, ht⟩ => ?_
      rw [ht hv]
      refine ⟨?_, rfl⟩
      have htwice : ((r.mapStore (some (proxyPlist .localhost)) paths).mapStore none paths).store =
          mapOn (fun _ => none) paths r.store :=
        (mapOn_mapOn : mapOn (fun _ => none) paths
          (mapOn (fun _ => some (proxyPlist .localhost)) paths r.store) = _)
      rw [htwice, mapOn_eq_self_iff]
      intro path hp
      obtain ⟨key, hkey, rfl⟩ := List.mem_map.mp (hin path hp)
      exact (hstore key hkey).symm
    obtain ⟨hst, hd⟩ := (hends.exec ws hA).2
    exact hbeside.eq hr hidle hst hd
  | @shell services hlisting _ hs =>
    have hsnap : Snapshot r.dns services s := by
      rw [hs]
      refine ⟨hlisting.symm, rfl, fun svc hsvc => ?_⟩
      show mapOn (fun _ => [IpAddr.localhost.text]) services r.dns svc = r.dns svc
      exact mapOn_of_notMem hsvc
    have horig := (restore_undoes hv (.inl hsnap)).exec ws fun x hx =>
      ⟨fun hk => absurd ((restore_calls_no_key.events ws s x hx).symm.trans hk) (by simp),
        fun _ _ => .inl (hA x hx), fun _ _ => .inl (hA x hx)⟩
    have hends : Safe handler (fun _ => True) (fun _ => True) (fun _ t => t.store = r.store)
        restore s := by
      refine safe_perform.mpr fun w _ => ⟨trivial, ?_⟩
      have he : (handler .takeApplied w s).1 = .shell (services.map fun svc => (svc, r.dns svc)) ∧
          (handler .takeApplied w s).2.store = r.store := by
        rw [hs]
        exact ⟨rfl, rfl⟩
      rw [he.1]
      exact safe_bind.mpr ((restoreShell_store _ _).post fun _ t ht => ht.trans he.2)
    exact hbeside.eq hr hidle (hends.exec_total ws).2 horig.2.dns

/-- With nothing on record, a `restore` changes nothing. -/
theorem restore_nothing (hr : r.applied = .none) (ws : List Fate) :
    (MacosRedirector.restore ws r).2 = r := by
  have hsafe : Safe handler (fun _ => True) (fun _ => True) (fun _ t => t = r) restore r := by
    refine safe_perform.mpr fun w _ => ⟨trivial, ?_⟩
    have hsame : { r with applied := .none } = r := by rw [← hr]
    have he : handler .takeApplied w r = (.none, r) := Prod.ext hr hsame
    rw [he]
    exact rfl
  exact (hsafe.exec_total ws).2

/-- The calls of an `apply` are prudent, and every call of a `restore` goes through. -/
def OsWorks (r : System)
    (e : CallEvent Controller.sig (Controller.Choice (List Fate)) (Controller System)) : Prop :=
  match e.call with
  | .apply ip => ∀ x ∈ (exec handler (apply ip) e.choice.os e.before.redirector).events, Prudent r x
  | .restore => ∀ x ∈ (exec handler restore e.choice.os e.before.redirector).events, Works x
  | _ => True

instance (r : System) : DecidablePred (OsWorks r)
  | ⟨.apply ip, w, c, _⟩ =>
    inferInstanceAs (Decidable (∀ x ∈ (exec handler (apply ip) w.os c.redirector).events, _))
  | ⟨.restore, w, c, _⟩ =>
    inferInstanceAs (Decidable (∀ x ∈ (exec handler restore w.os c.redirector).events, _))
  | ⟨.status, _, _, _⟩ | ⟨.set _, _, _, _⟩ | ⟨.port, _, _, _⟩ | ⟨.start .., _, _, _⟩
  | ⟨.stop _, _, _, _⟩ | ⟨.putProxy _, _, _, _⟩ | ⟨.takeProxy, _, _, _⟩ | ⟨.flushCache, _, _, _⟩
  | ⟨.subscribe, _, _, _⟩ => isTrue trivial

theorem keeps_settings (hr : r.applied = .none)
    (hv : ∀ svc, ∀ server ∈ r.dns svc, Text.isIpAddr server.toList = true)
    (hn : (Parse.parseNetworkServices r.listing).Nodup)
    (hstore : ∀ key ∈ r.setupKeys, r.store (statePath key) = none) :
    Controller.Keeps MacosRedirector (OsWorks r) (Disturbed r) (· = r) where
  apply w c hA h := by
    rw [h]
    refine apply_disturbs hr hv hn ?_
    rw [OsWorks, h] at hA
    exact hA
  restore w c hA h := by
    rcases h with h | h
    · exact restore_puts_back hr hv hstore h hA
    · rw [h]
      exact restore_nothing hr w.os
  flush w s := by
    have hs : (MacosRedirector.flushCache w s).2 = s := ((flushCache_same s).exec_total w).2
    rw [hs]
    exact ⟨id, id⟩

end Macos

end Voidns
