import Voidns.Lib.Settings
import Voidns.Redirect.Linux
import Voidns.Redirect.Macos
import Voidns.Redirect.Windows

/-!
# What a successful `apply` has done

On Windows and macOS `apply` is a loop over all interfaces or services that
passes over the ones it cannot set, and a second mechanism for when that loop
has set none.  `Windows.Redirected` and `Macos.Redirected` say which of the two
a successful `apply` has gone through, which settings it has changed and to what,
and what it has recorded; everything else is as it was.  Which settings the
first loop has changed depends on the calls that went through, so it is read
off the trace (`setGuids`, `setPaths`).

On Linux the first mechanism is two method calls, and it is the second of them
that decides: `Linux.Redirected` has a case for a link that has been given its
server and nothing more, which is not what the record says.
-/

namespace Voidns

open Effect Settings

/-! ### Linux -/

namespace Linux

/-- The method call that has gone through, if it is one. -/
def methodDone : CallEvent sig Fate System → Option Method
  | ⟨.busCall m, .ok, _, _⟩ => some m
  | _ => none

/-- The method calls on systemd-resolved that have gone through in a run. -/
def methods (es : List (CallEvent sig Fate System)) : List Method := es.filterMap methodDone

/-- **How a successful `apply` ends**: the method calls that have gone through,
and the record. -/
inductive Redirected (proxy : IpAddr) : List Method → Active → Prop
  | resolved (i : Int32) : Redirected proxy
      [.setLinkDns i (dnsAddrs proxy), .setLinkDefaultRoute i true] (.resolved i)
  /-- `SetLinkDefaultRoute` has failed, and with it the first mechanism. -/
  | half (i : Int32) : Redirected proxy [.setLinkDns i (dnsAddrs proxy)] .resolvConf
  | resolvConf : Redirected proxy [] .resolvConf

@[simp] theorem methods_nil : methods [] = [] := rfl

@[simp] theorem methods_append (es es' : List (CallEvent sig Fate System)) :
    methods (es ++ es') = methods es ++ methods es' := List.filterMap_append

theorem methods_eq_nil {es : List (CallEvent sig Fate System)}
    (h : ∀ e ∈ es, ∀ m, e.call ≠ .busCall m) : methods es = [] := by
  refine List.filterMap_eq_nil_iff.mpr fun ⟨c, w, s, t⟩ he => ?_
  cases c with
  | busCall m => exact absurd rfl (h _ he m)
  | _ => rfl

theorem handler_links {c : Call} (hc : ∀ m, c ≠ .busCall m) (w : Fate) (s : System) :
    (handler c w s).2.links = s.links := by
  have files : ∀ result, (fileCall w result s).2.links = s.links := by
    intro result
    rcases fileCall_cases w result s with ⟨e, he⟩ | ⟨fs, _, _, he⟩ <;> rw [he]
  cases c with
  | busCall m => exact absurd rfl (hc m)
  | pathExists | setActive | takeActive => rfl
  | copy | removeFile | write => exact files _
  | symlinkMetadata p =>
    rcases symlinkMetadata_cases p w s with ⟨_, e, he⟩ | ⟨_, he⟩ | ⟨_, he⟩ <;> rw [he]
  | readToString p => exact congrArg _ (w.attempt_same (FileSystem.read s.fs p) s)
  | ifNametoindex name => exact congrArg _ (w.attempt_same (s.ifindex name) s)
  | systemBus | resolve1Proxy => exact congrArg _ (w.attempt_same (some ()) s)

/-- The links change by the method calls that go through, and by nothing else. -/
theorem links_foldl {α : Type} (p : Prog sig α) (s : System) :
    Ends handler (fun es _ t => t.links = (methods es).foldl Method.effect s.links) p s := by
  refine ends_frame (T := fun s es t => t.links = (methods es).foldl Method.effect s.links)
    (fun _ => rfl) (fun c w s es t _ ht => ?_) (Prog.calls_any p) s
  cases c with
  | busCall m => cases w <;> exact ht
  | _ =>
    rw [handler_links (by simp)] at ht
    exact ht

theorem managerCall_methods (m : Method) (s : System) :
    Ends handler (fun es r _ => (r = .ok () → methods es = [m]) ∧ ∀ e, r = .error e → methods es = [])
      (managerCall m) s := by
  refine ends_perform.mpr fun w => ?_
  rcases systemBus_cases w s with ⟨e, he⟩ | he <;> rw [he]
  · exact ⟨fun h => absurd h (by simp), fun _ _ => rfl⟩
  refine ends_perform.mpr fun w' => ?_
  rcases resolve1Proxy_cases w' s with ⟨e, he⟩ | he <;> rw [he]
  · exact ⟨fun h => absurd h (by simp), fun _ _ => rfl⟩
  refine ends_perform.mpr fun w'' => ?_
  cases w'' with
  | fails cause => exact ⟨fun h => absurd h (by simp), fun _ _ => rfl⟩
  | ok => exact ⟨fun _ => rfl, fun _ h => absurd h (by simp)⟩

/-- `apply_resolved` makes its two method calls, or fails with none or one done. -/
theorem applyResolved_methods (proxy : IpAddr) (s : System) :
    Ends handler (fun es r _ =>
      (∀ i, r = .ok i → methods es = [.setLinkDns i (dnsAddrs proxy), .setLinkDefaultRoute i true]) ∧
      ∀ e, r = .error e → methods es = [] ∨ ∃ i, methods es = [.setLinkDns i (dnsAddrs proxy)])
      (applyResolved proxy) s := by
  have hroute : Ends handler (fun es _ _ => methods es = []) defaultRouteIface s := by
    refine ends_perform.mpr fun w => ?_
    cases (handler (.readToString "/proc/net/route") w s).1 <;> exact rfl
  refine ends_bind.mpr (hroute.post fun es iface t hes => ?_)
  cases iface with
  | none => exact ⟨fun _ h => absurd h (by simp), fun _ _ => .inl (by simp [hes])⟩
  | some iface =>
    refine ends_perform.mpr fun w => ?_
    have hindex : ∀ es', methods (es ++ ⟨.ifNametoindex iface, w, t, (handler (.ifNametoindex iface) w t).2⟩ ::
        es') = methods es' := by
      intro es'
      rw [methods_append, hes, List.nil_append]
      rfl
    cases (handler (.ifNametoindex iface) w t).1 with
    | error e => exact ⟨fun _ h => absurd h (by simp), fun _ _ => .inl (hindex [])⟩
    | ok index =>
      refine ends_bind.mpr ((managerCall_methods _ _).post fun es' r u ⟨hok, herr⟩ => ?_)
      cases r with
      | error e =>
        refine ⟨fun _ h => absurd h (by simp), fun _ _ => .inl ((hindex _).trans ?_)⟩
        rw [List.append_nil, herr e rfl]
      | ok _ =>
        refine ends_bind.mpr ((managerCall_methods _ u).post fun es'' r v ⟨hok', herr⟩ => ?_)
        cases r with
        | error e =>
          refine ⟨fun _ h => absurd h (by simp), fun _ _ => .inr ⟨index.toInt32, (hindex _).trans ?_⟩⟩
          rw [List.append_nil, methods_append, hok rfl, herr e rfl, List.append_nil]
        | ok _ =>
          refine ⟨fun i h => (hindex _).trans ?_, fun _ h => absurd h (by simp)⟩
          rw [List.append_nil, methods_append, hok rfl, hok' rfl, ← Except.ok.inj h]
          rfl

/-- **The ways `apply` succeeds.** -/
theorem apply_redirects (proxy : IpAddr) (s : System) :
    Ends handler (fun es r t => r = .ok () → Redirected proxy (methods es) t.active) (apply proxy) s := by
  have hfallback : ∀ (es : List (CallEvent sig Fate System)) (t : System),
      Redirected proxy (methods es) .resolvConf →
      Ends handler (fun es' r u => r = .ok () → Redirected proxy (methods (es ++ es')) u.active)
        (fallback proxy) t := by
    intro es t h
    have hcalls : (resolvconfApply proxy).Calls fun c : Call => ∀ m, c ≠ .busCall m :=
      resolvconfApply_calls proxy (by simp) (by simp) (by simp) (by simp) (by simp)
    refine ends_bind.mpr ((hcalls.ends t).post fun es' r u hes' => ?_)
    cases r with
    | error e => exact fun h => absurd h (by simp)
    | ok _ =>
      refine ends_perform.mpr fun w _ => ?_
      show Redirected proxy (methods (es ++ (es' ++ [⟨.setActive .resolvConf, w, u, _⟩]))) .resolvConf
      rw [methods_append, methods_append, methods_eq_nil hes']
      exact (List.append_nil (methods es)).symm ▸ h
  refine ends_perform.mpr fun w => ?_
  have hs : (handler (.pathExists resolvedStub) w s).2 = s := rfl
  rw [hs]
  cases (handler (.pathExists resolvedStub) w s).1 with
  | false => exact hfallback [⟨.pathExists resolvedStub, w, s, s⟩] s .resolvConf
  | true =>
    refine ends_bind.mpr ((applyResolved_methods proxy s).post fun es r t ⟨hok, herr⟩ => ?_)
    cases r with
    | ok i =>
      refine ends_perform.mpr fun w' _ => ?_
      show Redirected proxy (methods (es ++ [⟨.setActive (.resolved i), w', t, _⟩])) (.resolved i)
      rw [methods_append, hok i rfl]
      exact .resolved i
    | error e =>
      refine (hfallback (⟨.pathExists resolvedStub, w, s, s⟩ :: es) t ?_).post fun _ _ _ h => h
      show Redirected proxy (methods es) .resolvConf
      rcases herr e rfl with h | ⟨i, h⟩ <;> rw [h]
      · exact .resolvConf
      · exact .half i

end Linux

/-! ### Windows -/

namespace Windows

/-- The interface a name stands for. -/
def System.guidOf (s : System) (name : String) : Option Nat := (s.luid name).bind s.guid

/-- The interface a call has set natively. -/
def setGuid : CallEvent sig Fate System → Option Nat
  | ⟨.setInterfaceDnsSettings guid _, .ok, _, _⟩ => some guid
  | _ => none

/-- The interfaces set natively in a run. -/
def setGuids (es : List (CallEvent sig Fate System)) : List Nat := es.filterMap setGuid

/-- `netsh` sets the name server and leaves the search list. -/
def withServer (server : String) (v : DnsInterfaceSettings) : DnsInterfaceSettings :=
  { v with nameServer := server }

/-- The interfaces have been set, and nothing else. -/
def System.mapDns (s : System) (f : DnsInterfaceSettings → DnsInterfaceSettings) (guids : List Nat) :
    System := { s with dns := mapOn f guids s.dns }

/-- **What a successful `apply` has done**, when `guids` are the interfaces it has
set natively. -/
inductive Redirected (proxy : IpAddr) (s : System) : List Nat → System → Prop
  | native {names : List String} {guids : List Nat} (hne : names ≠ [])
      (hnames : names.map s.guidOf = guids.map some) :
      Redirected proxy s guids
        { s.mapDns (fun _ => ⟨proxy.text, "."⟩) guids with applied := .native names }
  | netsh {names : List String} {guids : List Nat}
      (hlisting : names = Parse.parseNetshInterfaces s.listing)
      (hnames : names.map s.guidOf = guids.map some) :
      Redirected proxy s []
        { s.mapDns (withServer proxy.text) guids with applied := .netsh names }

@[simp] theorem setGuids_nil : setGuids [] = [] := rfl

@[simp] theorem setGuids_append (es es' : List (CallEvent sig Fate System)) :
    setGuids (es ++ es') = setGuids es ++ setGuids es' := List.filterMap_append

@[simp] theorem setGuids_setApplied (a : Applied) (w : Fate) (s t : System) :
    setGuids [⟨.setApplied a, w, s, t⟩] = [] := rfl

@[simp] theorem System.mapDns_nil (s : System) (f : DnsInterfaceSettings → DnsInterfaceSettings) :
    s.mapDns f [] = s := by rw [System.mapDns, mapOn_nil]

theorem System.mapDns_append (s : System) {f : DnsInterfaceSettings → DnsInterfaceSettings}
    (hf : ∀ v, f (f v) = f v) (guids guids' : List Nat) :
    (s.mapDns f guids).mapDns f guids' = s.mapDns f (guids ++ guids') :=
  congrArg (fun d => { s with dns := d }) (mapOn_append hf)

theorem System.mapDns_dns (s : System) (f : DnsInterfaceSettings → DnsInterfaceSettings)
    (guids : List Nat) : (s.mapDns f guids).dns = mapOn f guids s.dns := rfl

@[simp] theorem System.mapDns_guidOf (s : System) (f : DnsInterfaceSettings → DnsInterfaceSettings)
    (guids : List Nat) : (s.mapDns f guids).guidOf = s.guidOf := rfl

/-- `netsh` knows an interface by the same name. -/
theorem System.named_name (s : System) (name : String) : s.named s!"name={name}" = s.guidOf name := by
  have hlist : (s!"name={name}").toList = "name=".toList ++ name.toList := by
    show ("name=" ++ name).toList = _
    rw [String.toList_append]
  have hdrop : ("name=".toList ++ name.toList).drop 5 = name.toList := rfl
  rw [System.named, hlist, if_pos (List.prefix_append _ _), hdrop, String.ofList_toList]
  rfl

/-- Resolving a name changes nothing. -/
theorem aliasToGuid_safe {B : CallEvent sig Fate System → Prop} (name : String) (s : System)
    (hluid : ∀ w t, B ⟨.aliasToLuid name, w, s, t⟩) (hguid : ∀ luid w t, B ⟨.luidToGuid luid, w, s, t⟩) :
    Safe handler (fun _ => True) B
      (fun r t => t = s ∧ ∀ guid, r = .ok guid → s.guidOf name = some guid) (aliasToGuid name) s := by
  refine safe_perform.mpr fun w _ => ⟨hluid _ _, ?_⟩
  have he : handler (.aliasToLuid name) w s = w.attempt ((s.luid name).map (·, s)) s := rfl
  rcases w.attempt_cases ((s.luid name).map (·, s)) s with ⟨e, ha⟩ | ⟨_, _, _, hl, ha⟩
  · rw [he, ha]
    exact ⟨rfl, fun _ h => absurd h (by simp)⟩
  obtain ⟨luid, hl', hp⟩ := Option.map_eq_some_iff.mp hl
  obtain ⟨rfl, rfl⟩ := Prod.mk.inj hp
  rw [he, ha]
  refine safe_perform.mpr fun w' _ => ⟨hguid _ _ _, ?_⟩
  have he' : handler (.luidToGuid luid) w' s = w'.attempt ((s.guid luid).map (·, s)) s := rfl
  rcases w'.attempt_cases ((s.guid luid).map (·, s)) s with ⟨e, ha'⟩ | ⟨_, _, _, hg, ha'⟩
  · rw [he', ha']
    exact ⟨rfl, fun _ h => absurd h (by simp)⟩
  obtain ⟨guid, hg', hp⟩ := Option.map_eq_some_iff.mp hg
  obtain ⟨rfl, rfl⟩ := Prod.mk.inj hp
  rw [he', ha']
  refine ⟨rfl, fun guid' h => ?_⟩
  rw [System.guidOf, hl', Option.bind_some, hg', Except.ok.inj h]

/-- Natively setting an interface resolves its name and sets it, or does
nothing. -/
theorem updateDnsNative_ends (settings : DnsInterfaceSettings) (what name : String) (s : System) :
    Ends handler (fun es r t => t = s.mapDns (fun _ => settings) (setGuids es) ∧
      (r = .ok () → ∃ guid, s.guidOf name = some guid ∧ setGuids es = [guid]) ∧
      ∀ e, r = .error e → setGuids es = []) (updateDnsNative settings what name) s := by
  have hguid : Ends handler (fun es r t => t = s ∧ setGuids es = [] ∧
      ∀ guid, r = .ok guid → s.guidOf name = some guid) (aliasToGuid name) s := by
    have hsafe := aliasToGuid_safe (B := fun e => setGuid e = none) name s (fun _ _ => rfl)
      fun _ _ _ => rfl
    exact hsafe.ends.post fun es r t ⟨hes, ht, hr⟩ => ⟨ht, List.filterMap_eq_nil_iff.mpr hes, hr⟩
  refine ends_bind.mpr (hguid.post fun es r t ⟨ht, hes, hr⟩ => ?_)
  subst ht
  cases r with
  | error e => exact ⟨by simp [hes], fun h => absurd h (by simp), fun _ _ => by simp [hes]⟩
  | ok guid =>
    refine ends_perform.mpr fun w => ?_
    cases w with
    | fails cause =>
      have hnone : ∀ u, setGuids (es ++ [⟨.setInterfaceDnsSettings guid settings, .fails cause, t, u⟩]) =
          [] := fun u => by rw [setGuids_append, hes]; rfl
      exact ⟨by rw [hnone, System.mapDns_nil]; rfl, fun h => absurd h (by simp), fun _ _ => hnone _⟩
    | ok =>
      have hone : ∀ u, setGuids (es ++ [⟨.setInterfaceDnsSettings guid settings, .ok, t, u⟩]) =
          [guid] := fun u => by rw [setGuids_append, hes]; rfl
      refine ⟨?_, fun _ => ⟨guid, hr guid rfl, hone _⟩, fun _ h => absurd h (by simp)⟩
      rw [hone, System.mapDns, mapOn_singleton]
      rfl

/-- The native loop: what it has set is what it returns. -/
theorem setAllNative_ends (server : String) : ∀ (ifaces nativeOk : List String) (s : System),
    Ends handler (fun es names t => t = s.mapDns (fun _ => ⟨server, "."⟩) (setGuids es) ∧
      ∃ added, names = nativeOk ++ added ∧ added.map s.guidOf = (setGuids es).map some)
      (setAllNative server ifaces nativeOk) s := by
  intro ifaces
  induction ifaces with
  | nil => intro nativeOk s; exact ⟨by simp, [], by simp, rfl⟩
  | cons name ifaces ih =>
    intro nativeOk s
    refine ends_bind.mpr ((updateDnsNative_ends _ _ name s).post fun es r t ⟨ht, hok, herr⟩ => ?_)
    cases r with
    | error e =>
      rw [herr e rfl, System.mapDns_nil] at ht
      subst ht
      refine (ih nativeOk t).post fun es' names u hu => ?_
      rw [setGuids_append, herr e rfl, List.nil_append]
      exact hu
    | ok _ =>
      obtain ⟨guid, hg, hes⟩ := hok rfl
      refine (ih (nativeOk ++ [name]) t).post fun es' names u ⟨hu, added, hn, ha⟩ => ⟨?_, name :: added, ?_, ?_⟩
      · rw [hu, ht, System.mapDns_append s (f := fun _ => ⟨server, "."⟩) fun _ => rfl, setGuids_append]
      · rw [hn, List.append_assoc, List.singleton_append]
      · rw [setGuids_append, hes, List.map_cons, hg, List.singleton_append, List.map_cons, ← ha, ht,
          System.mapDns_guidOf]

theorem withServer_withServer (server server' : String) (v : DnsInterfaceSettings) :
    withServer server (withServer server' v) = withServer server v := rfl

theorem netshSet_ends (name server : String) (s : System) :
    Ends handler (fun _ r t => r = .ok () →
      ∃ guid, s.guidOf name = some guid ∧ t = s.mapDns (withServer server) [guid])
      (netshSet name server) s := by
  refine ends_perform.mpr fun w => ?_
  have he : handler (.run "netsh" (setArgs name server)) w s = w.attempt
      ((s.named s!"name={name}").map fun guid => ("", s.setNameServer guid server)) s := rfl
  rcases w.attempt_cases ((s.named s!"name={name}").map fun guid =>
    ("", s.setNameServer guid server)) s with ⟨e, ha⟩ | ⟨_, _, _, hn, ha⟩ <;> rw [he, ha]
  · exact fun h => absurd h (by simp)
  · obtain ⟨guid, hguid, hp⟩ := Option.map_eq_some_iff.mp hn
    obtain ⟨rfl, rfl⟩ := Prod.mk.inj hp
    exact fun _ => ⟨guid, (s.named_name name).symm.trans hguid, by rw [System.mapDns, mapOn_singleton]; rfl⟩

/-- The `netsh` loop sets every interface, or fails. -/
theorem setAllNetsh_ends (server : String) : ∀ (ifaces : List String) (s : System),
    Ends handler (fun _ r t => r = .ok () →
      ∃ guids : List Nat, ifaces.map s.guidOf = guids.map some ∧ t = s.mapDns (withServer server) guids)
      (setAllNetsh server ifaces) s := by
  intro ifaces
  induction ifaces with
  | nil => intro s; exact fun _ => ⟨[], rfl, by simp⟩
  | cons name ifaces ih =>
    intro s
    refine ends_bind.mpr ((netshSet_ends name server s).post fun es r t ht => ?_)
    cases r with
    | error e => exact fun h => absurd h (by simp)
    | ok _ =>
      obtain ⟨guid, hg, rfl⟩ := ht rfl
      refine (ih _).post fun es' r u hu hr => ?_
      obtain ⟨guids, hgs, rfl⟩ := hu hr
      refine ⟨guid :: guids, ?_, ?_⟩
      · rw [List.map_cons, List.map_cons, hg, ← hgs, System.mapDns_guidOf]
      · rw [System.mapDns_append _ (withServer_withServer server server), List.singleton_append]

theorem setGuids_netsh {server : String} {es : List (CallEvent sig Fate System)}
    (h : ∀ e ∈ es, ∃ name, e.call = .run "netsh" (setArgs name server)) : setGuids es = [] := by
  refine List.filterMap_eq_nil_iff.mpr fun ⟨c, w, s, t⟩ he => ?_
  obtain ⟨name, rfl⟩ := h _ he
  rfl

/-- **The two ways `apply` succeeds.** -/
theorem apply_redirects (proxy : IpAddr) (s : System) :
    Ends handler (fun es r t => r = .ok () → Redirected proxy s (setGuids es) t) (apply proxy) s := by
  have hlist : Ends handler (fun es r t => t = s ∧ setGuids es = [] ∧
      ∀ ifaces, r = .ok ifaces → ifaces = Parse.parseNetshInterfaces s.listing)
      connectedInterfaces s := by
    refine ends_perform.mpr fun w => ?_
    cases w with
    | ok => exact ⟨rfl, rfl, fun _ h => (Except.ok.inj h).symm⟩
    | fails cause => exact ⟨rfl, rfl, fun _ h => absurd h (by simp)⟩
  refine ends_bind.mpr (hlist.post fun es r t ⟨ht, hes, hr⟩ => ?_)
  subst ht
  cases r with
  | error e => exact fun h => absurd h (by simp)
  | ok ifaces =>
    have hifaces := hr ifaces rfl
    cases ifaces with
    | nil => exact fun h => absurd h (by simp)
    | cons name ifaces =>
      refine ends_bind.mpr ((setAllNative_ends proxy.text (name :: ifaces) [] t).post ?_)
      intro es' nativeOk u ⟨hu, added, hadded, hguids⟩
      rw [List.nil_append] at hadded
      subst hadded hu
      cases nativeOk with
      | cons n ns =>
        refine ends_perform.mpr fun w _ => ?_
        show Redirected proxy t (setGuids (es ++ (es' ++ [⟨.setApplied (.native (n :: ns)), w, _, _⟩])))
          { t.mapDns _ (setGuids es') with applied := .native (n :: ns) }
        rw [setGuids_append, setGuids_append, hes, setGuids_setApplied, List.nil_append, List.append_nil]
        exact .native (by simp) hguids
      | nil =>
        have hes' : setGuids es' = [] := List.map_eq_nil_iff.mp hguids.symm
        rw [hes', System.mapDns_nil]
        refine ends_bind.mpr (((setAllNetsh_ends proxy.text (name :: ifaces) t).and
          ((setAllNetsh_set proxy.text (name :: ifaces)).ends t)).post fun es'' r v ⟨hv, hcalls⟩ => ?_)
        cases r with
        | error e => exact fun h => absurd h (by simp)
        | ok _ =>
          refine ends_perform.mpr fun w _ => ?_
          obtain ⟨guids, hgs, rfl⟩ := hv rfl
          show Redirected proxy t (setGuids (es ++ (es' ++ (es'' ++
            [⟨.setApplied (.netsh (name :: ifaces)), w, _, _⟩])))) _
          rw [setGuids_append, setGuids_append, setGuids_append, hes, hes', setGuids_netsh hcalls]
          exact .netsh hifaces hgs

end Windows

/-! ### macOS -/

/-- No address reads like the word that stands for none. -/
theorem IpAddr.text_ne_empty (ip : IpAddr) : ip.text ≠ "Empty" := by
  have hstr : ∀ s : String, toString s = s := fun _ => rfl
  have hsep : ∃ c ∈ ip.text.toList, c = '.' ∨ c = ':' := by
    cases ip with
    | v4 a b c d => exact ⟨'.', by simp [text, hstr], .inl rfl⟩
    | v6 s =>
      refine ⟨':', ?_, .inr rfl⟩
      simp only [text]
      split
      · simp [hstr]
      · split
        · simp
        · rw [List.ofFn_succ, List.map_cons, String.intercalate_cons_of_ne_nil (by simp)]
          simp
  obtain ⟨c, hc, hsep⟩ := hsep
  intro h
  rw [h] at hc
  rcases hsep with rfl | rfl
  · exact absurd hc (by decide)
  · exact absurd hc (by decide)

namespace Macos

theorem setTo_proxy (proxy : IpAddr) : setTo [proxy.text] = [proxy.text] :=
  if_neg fun h => proxy.text_ne_empty (List.singleton_inj.mp h)

/-- The path a call has set in the dynamic store. -/
def setPath : CallEvent sig Fate System → Option String
  | ⟨.setRaw path _, .ok, _, _⟩ => some path
  | _ => none

/-- The paths set in a run. -/
def setPaths (es : List (CallEvent sig Fate System)) : List String := es.filterMap setPath

/-- The paths have been set, or removed, and nothing else. -/
def System.mapStore (s : System) (value : Option Plist) (paths : List String) : System :=
  { s with store := mapOn (fun _ => value) paths s.store }

/-- The services have been set, and nothing else. -/
def System.mapDns (s : System) (servers services : List String) : System :=
  { s with dns := mapOn (fun _ => servers) services s.dns }

/-- **What a successful `apply` has done**, when `paths` are those it has set in
the dynamic store. -/
inductive Redirected (proxy : IpAddr) (s : System) : List String → System → Prop
  | native {paths : List String} (hne : paths ≠ []) :
      Redirected proxy s paths
        { s.mapStore (some (proxyPlist proxy)) paths with applied := .native paths }
  | shell {saved : List (String × List String)}
      (hsaved : saved.map Prod.fst = Parse.parseNetworkServices s.listing) :
      Redirected proxy s []
        { s.mapDns [proxy.text] (saved.map Prod.fst) with applied := .shell saved }

@[simp] theorem setPaths_nil : setPaths [] = [] := rfl

@[simp] theorem setPaths_append (es es' : List (CallEvent sig Fate System)) :
    setPaths (es ++ es') = setPaths es ++ setPaths es' := List.filterMap_append

theorem setPaths_eq_nil {es : List (CallEvent sig Fate System)}
    (h : ∀ e ∈ es, e.call.native = false) : setPaths es = [] := by
  refine List.filterMap_eq_nil_iff.mpr fun ⟨c, w, s, t⟩ he => ?_
  have hc := h _ he
  cases c with
  | setRaw path value => exact absurd hc (by simp [Call.native])
  | _ => rfl

theorem System.mapStore_store (s : System) (value : Option Plist) (paths : List String) :
    (s.mapStore value paths).store = mapOn (fun _ => value) paths s.store := rfl

theorem System.mapDns_dns (s : System) (servers services : List String) :
    (s.mapDns servers services).dns = mapOn (fun _ => servers) services s.dns := rfl

@[simp] theorem System.mapStore_nil (s : System) (value : Option Plist) : s.mapStore value [] = s := by
  rw [System.mapStore, mapOn_nil]

@[simp] theorem System.mapDns_nil (s : System) (servers : List String) : s.mapDns servers [] = s := by
  rw [System.mapDns, mapOn_nil]

theorem System.mapStore_append (s : System) (value : Option Plist) (paths paths' : List String) :
    (s.mapStore value paths).mapStore value paths' = s.mapStore value (paths ++ paths') :=
  congrArg (fun st => { s with store := st }) (mapOn_append (f := fun _ => value) fun _ => rfl)

theorem System.mapDns_append (s : System) (servers services services' : List String) :
    (s.mapDns servers services).mapDns servers services' = s.mapDns servers (services ++ services') :=
  congrArg (fun d => { s with dns := d }) (mapOn_append (f := fun _ => servers) fun _ => rfl)

/-- The loop of `apply_native` returns what it has set. -/
theorem setAll_ends (proxy : IpAddr) : ∀ (keys applied : List String) (s : System),
    Ends handler (fun es out t => out = applied ++ setPaths es ∧
      t = s.mapStore (some (proxyPlist proxy)) (setPaths es)) (setAll proxy keys applied) s := by
  intro keys
  induction keys with
  | nil => intro applied s; exact ⟨by simp, by simp⟩
  | cons k keys ih =>
    intro applied s
    refine ends_perform.mpr fun w => ?_
    cases w with
    | fails cause => exact ih applied s
    | ok =>
      have hs : (handler (.setRaw (statePath k) (proxyPlist proxy)) .ok s).2 =
          s.mapStore (some (proxyPlist proxy)) [statePath k] := by
        rw [System.mapStore, mapOn_singleton]
        rfl
      rw [hs]
      refine (ih (applied ++ [statePath k]) _).post fun es out t ⟨ho, ht⟩ => ?_
      exact ⟨ho.trans (List.append_assoc _ _ _), ht.trans (System.mapStore_append _ _ _ _)⟩

/-- **What `apply_native` has done.** -/
theorem applyNative_ends (proxy : IpAddr) (s : System) :
    Ends handler (fun es r t => t = s.mapStore (some (proxyPlist proxy)) (setPaths es) ∧
      (∀ paths, r = .ok paths → paths = setPaths es ∧ paths ≠ []) ∧
      ∀ e, r = .error e → setPaths es = []) (applyNative proxy) s := by
  have hnone : s = s.mapStore (some (proxyPlist proxy)) [] := (s.mapStore_nil _).symm
  refine ends_perform.mpr fun w => ?_
  cases w with
  | fails cause => exact ⟨hnone, fun _ h => absurd h (by simp), fun _ _ => rfl⟩
  | ok =>
    refine ends_perform.mpr fun w => ?_
    cases w with
    | fails cause => exact ⟨hnone, fun _ h => absurd h (by simp), fun _ _ => rfl⟩
    | ok =>
      refine ends_bind.mpr ((setAll_ends proxy s.setupKeys [] s).post fun es out t ⟨ho, ht⟩ => ?_)
      have hset : setPaths (⟨.createStore, .ok, s, s⟩ :: ⟨.getKeys servicePattern, .ok, s, s⟩ ::
          (es ++ [])) = setPaths es := by
        rw [List.append_nil]
        rfl
      have ht' := ht.trans (congrArg (s.mapStore _) hset.symm)
      cases out with
      | nil => exact ⟨ht', fun _ h => absurd h (by simp), fun _ _ => hset.trans ho.symm⟩
      | cons path paths =>
        refine ⟨ht', fun out h => ?_, fun _ h => absurd h (by simp)⟩
        rw [← Except.ok.inj h]
        exact ⟨ho.trans hset.symm, by simp⟩

/-- The loop of `apply_shell` sets every service, or fails. -/
theorem redirectAll_safe (proxy : IpAddr) :
    ∀ (services : List String) (saved : List (String × List String)) (s : System),
      Safe handler (fun _ => True) (fun _ => True)
        (fun r t => ∀ out, r = .ok out → ∃ added, out = saved ++ added ∧
          added.map Prod.fst = services ∧ t = s.mapDns [proxy.text] services)
        (redirectAll proxy services saved) s := by
  intro services
  induction services with
  | nil => intro saved s out h; exact ⟨[], by simp [Except.ok.inj h], rfl, by simp⟩
  | cons svc services ih =>
    intro saved s
    have hdns : Safe handler (fun _ => True) (fun _ => True) (fun _ t => t = s) (currentDns svc) s := by
      refine safe_perform.mpr fun w _ => ⟨trivial, ?_⟩
      cases w <;> exact rfl
    refine safe_bind.mpr (hdns.post fun prev t ht => ?_)
    subst ht
    refine safe_perform.mpr fun w _ => ⟨trivial, ?_⟩
    cases w with
    | fails cause => exact fun _ h => absurd h (by simp)
    | ok =>
      have ht : (handler (.run "networksetup" ["-setdnsservers", svc, proxy.text]) .ok t).2 =
          t.mapDns [proxy.text] [svc] := by
        rw [System.mapDns, mapOn_singleton]
        exact congrArg (fun v => { t with dns := Function.update t.dns svc v }) (setTo_proxy proxy)
      rw [ht]
      refine (ih (saved ++ [(svc, prev.getD [])]) _).post fun r u hu out hout => ?_
      obtain ⟨added, rfl, hadded, rfl⟩ := hu out hout
      refine ⟨(svc, prev.getD []) :: added, List.append_assoc _ _ _, ?_, System.mapDns_append _ _ _ _⟩
      rw [List.map_cons, hadded]

theorem applyShell_safe (proxy : IpAddr) (s : System) :
    Safe handler (fun _ => True) (fun _ => True)
      (fun r t => ∀ saved, r = .ok saved → saved.map Prod.fst = Parse.parseNetworkServices s.listing ∧
        t = s.mapDns [proxy.text] (saved.map Prod.fst)) (applyShell proxy) s := by
  have hlist : Safe handler (fun _ => True) (fun _ => True)
      (fun r t => t = s ∧ ∀ services, r = .ok services →
        services = Parse.parseNetworkServices s.listing) networkServices s := by
    refine safe_perform.mpr fun w _ => ⟨trivial, ?_⟩
    cases w with
    | ok => exact ⟨rfl, fun _ h => (Except.ok.inj h).symm⟩
    | fails cause => exact ⟨rfl, fun _ h => absurd h (by simp)⟩
  refine safe_bind.mpr (hlist.post fun r t ⟨ht, hr⟩ => ?_)
  subst ht
  cases r with
  | error e => exact fun _ h => absurd h (by simp)
  | ok services =>
    have hservices := hr services rfl
    cases services with
    | nil => exact fun _ h => absurd h (by simp)
    | cons svc services =>
      refine (redirectAll_safe proxy (svc :: services) [] t).post fun r u hu saved hs => ?_
      obtain ⟨added, hsaved, hadded, rfl⟩ := hu saved hs
      rw [hsaved, List.nil_append, hadded]
      exact ⟨hservices, rfl⟩

/-- **The two ways `apply` succeeds.** -/
theorem apply_redirects (proxy : IpAddr) (s : System) :
    Ends handler (fun es r t => r = .ok () → Redirected proxy s (setPaths es) t) (apply proxy) s := by
  -- what follows either mechanism sets no path and leaves the rest as it is
  have hfinish : ∀ (a : Applied) (es : List (CallEvent sig Fate System)) (t : System),
      Ends handler (fun es' _ u => setPaths (es ++ es') = setPaths es ∧ u = { t with applied := a })
        (do setApplied a; let _ ← flushCache; return .ok () : Prog sig (Except Error Unit)) t := by
    intro a es t
    have hcalls : flushCache.Calls fun c : Call => c.native = false :=
      Prog.calls_perform.mpr ⟨rfl, fun _ => Prog.calls_perform.mpr ⟨rfl, fun _ => trivial⟩⟩
    refine ends_perform.mpr fun w => ends_bind.mpr ?_
    refine (((flushCache_same _).ends).and (hcalls.ends _)).post fun es' r u ⟨hu, hnative⟩ => ?_
    refine ⟨?_, hu.2⟩
    rw [setPaths_append]
    have hnone : setPaths (⟨.setApplied a, w, t, (handler (.setApplied a) w t).2⟩ :: (es' ++ [])) = [] := by
      rw [List.append_nil]
      exact setPaths_eq_nil (List.forall_mem_cons.mpr ⟨rfl, hnative⟩)
    exact (congrArg _ hnone).trans (List.append_nil _)
  refine ends_bind.mpr ((applyNative_ends proxy s).post fun es r t ⟨ht, hok, herr⟩ => ?_)
  cases r with
  | ok paths =>
    obtain ⟨rfl, hne⟩ := hok paths rfl
    subst ht
    refine (hfinish _ es _).post fun es' r u ⟨hes, hu⟩ _ => ?_
    rw [hes, hu]
    exact .native hne
  | error e =>
    rw [herr e rfl, System.mapStore_nil] at ht
    subst ht
    have hshell : (applyShell proxy).Calls fun c : Call => c.native = false :=
      (applyShell_shell proxy).mono fun c hc => by cases c <;> first | rfl | exact hc.elim
    refine ends_bind.mpr (((applyShell_safe proxy t).ends.and (hshell.ends t)).post ?_)
    intro es' r u ⟨⟨_, hu⟩, hcalls⟩
    cases r with
    | error e => exact fun h => absurd h (by simp)
    | ok saved =>
      obtain ⟨hsaved, rfl⟩ := hu saved rfl
      refine (hfinish (.shell saved) (es ++ es') _).post fun es'' r v ⟨hes, hv⟩ _ => ?_
      rw [← List.append_assoc, hes, setPaths_append, herr e rfl, setPaths_eq_nil hcalls, hv]
      exact .shell hsaved

end Macos

end Voidns
