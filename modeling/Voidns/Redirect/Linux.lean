import Voidns.Lib.FileSystem
import Voidns.Lib.Prog
import Voidns.Redirect.Basic
import Voidns.Redirect.Parse

/-!
# The Linux redirector

`redirect/linux.rs`.  `apply` prefers systemd-resolved over D-Bus and falls
back to rewriting `/etc/resolv.conf`; `restore` takes the path the record
names.

The functions are programs over the calls they make: files, the interface
table, D-Bus, and the assignments to `self.active`.  `handler` says what each
call does to a `System`.  That a call which fails, or in which the process is killed,
has no effect is an assumption: `fs::copy` and `fs::write` truncate or create the
file before they fill it, and leave that trace when the disk is full.  A failed
`stat` shows in `Path::exists` as `false` and in `symlink_metadata` as an error.
-/

namespace Voidns.Linux

open Effect FileSystem

/-- `RESOLVED_STUB`. -/
def resolvedStub : String := "/run/systemd/resolve/stub-resolv.conf"

/-- `RESOLV_CONF`. -/
def resolvConf : String := "/etc/resolv.conf"

/-- `RESOLV_BACKUP`. -/
def resolvBackup : String := "/etc/resolv.conf.voidns.bak"

/-- `enum Active`: how DNS was applied, so that restore takes the matching path. -/
inductive Active where
  | idle
  | resolved (ifindex : Int32)
  | resolvConf
  deriving DecidableEq

/-- A method call on `org.freedesktop.resolve1.Manager`. -/
inductive Method where
  | setLinkDns (ifindex : Int32) (addrs : List (Int32 × List UInt8))
  | setLinkDefaultRoute (ifindex : Int32) (enable : Bool)
  | revertLink (ifindex : Int32)
  | flushCaches
  deriving DecidableEq

/-- The method's name on the bus. -/
def Method.name : Method → String
  | setLinkDns .. => "SetLinkDNS"
  | setLinkDefaultRoute .. => "SetLinkDefaultRoute"
  | revertLink _ => "RevertLink"
  | flushCaches => "FlushCaches"

/-- What a path turns out to be, not following a link. -/
inductive FileType where
  | file
  | symlink
  deriving DecidableEq

/-! ### Calls -/

/-- The calls the redirector makes. -/
inductive Call where
  | pathExists (path : String)
  | symlinkMetadata (path : String)
  | readToString (path : String)
  | copy (src dst : String)
  | removeFile (path : String)
  | write (path contents : String)
  | ifNametoindex (name : String)
  | systemBus
  | resolve1Proxy
  | busCall (m : Method)
  | setActive (a : Active)
  | takeActive
  deriving DecidableEq

/-- The reply to each call. -/
@[reducible] def Reply : Call → Type
  | .pathExists _ => Bool
  | .symlinkMetadata _ => Except Error FileType
  | .readToString _ => Except Error String
  | .copy .. | .removeFile _ | .write .. | .systemBus | .resolve1Proxy | .busCall _ =>
    Except Error Unit
  | .ifNametoindex _ => Except Error UInt32
  | .setActive _ => Unit
  | .takeActive => Active

abbrev sig : Sig := ⟨Call, Reply⟩

def pathExists (path : String) : Prog sig Bool := .perform (E := sig) (.pathExists path)
def symlinkMetadata (path : String) : Prog sig (Except Error FileType) :=
  .perform (E := sig) (.symlinkMetadata path)
def readToString (path : String) : Prog sig (Except Error String) :=
  .perform (E := sig) (.readToString path)
def copy (src dst : String) : Prog sig (Except Error Unit) := .perform (E := sig) (.copy src dst)
def removeFile (path : String) : Prog sig (Except Error Unit) :=
  .perform (E := sig) (.removeFile path)
def write (path contents : String) : Prog sig (Except Error Unit) :=
  .perform (E := sig) (.write path contents)
def ifNametoindex (name : String) : Prog sig (Except Error UInt32) :=
  .perform (E := sig) (.ifNametoindex name)
def systemBus : Prog sig (Except Error Unit) := .perform (E := sig) .systemBus
def resolve1Proxy : Prog sig (Except Error Unit) := .perform (E := sig) .resolve1Proxy
def busCall (m : Method) : Prog sig (Except Error Unit) := .perform (E := sig) (.busCall m)

/-- `self.active = a`. -/
def setActive (a : Active) : Prog sig Unit := .perform (E := sig) (.setActive a)

/-- `mem::replace(&mut self.active, Active::Idle)`. -/
def takeActive : Prog sig Active := .perform (E := sig) .takeActive

/-! ### systemd-resolved -/

/-- `resolved_active`. -/
def resolvedActive : Prog sig Bool := pathExists resolvedStub

/-- `default_route_iface`. -/
def defaultRouteIface : Prog sig (Option String) := do
  match ← readToString "/proc/net/route" with
  | .error _ => return none
  | .ok table => return Parse.parseDefaultRouteIface table

/-- `manager_call`. -/
def managerCall (m : Method) : Prog sig (Except Error Unit) := do
  match ← systemBus with
  | .error e => return .error (e.context "connect system bus")
  | .ok () =>
    match ← resolve1Proxy with
    | .error e => return .error (e.context "resolve1 proxy")
    | .ok () =>
      match ← busCall m with
      | .error e => return .error (.msg s!"{m.name}: {e.text}")
      | .ok () => return .ok ()

/-- The address list `set_link_dns` sends: one address, after its family. -/
def dnsAddrs (proxy : IpAddr) : List (Int32 × List UInt8) :=
  match proxy with
  | .v4 .. => [(2, proxy.octets)]
  | .v6 .. => [(10, proxy.octets)]

/-- `set_link_dns`. -/
def setLinkDns (ifindex : Int32) (proxy : IpAddr) : Prog sig (Except Error Unit) :=
  managerCall (.setLinkDns ifindex (dnsAddrs proxy))

/-- `set_link_default_route`. -/
def setLinkDefaultRoute (ifindex : Int32) (enable : Bool) : Prog sig (Except Error Unit) :=
  managerCall (.setLinkDefaultRoute ifindex enable)

/-- `revert_link`. -/
def revertLink (ifindex : Int32) : Prog sig (Except Error Unit) :=
  managerCall (.revertLink ifindex)

/-- `apply_resolved`: the targeted interface index on success. -/
def applyResolved (proxy : IpAddr) : Prog sig (Except Error Int32) := do
  match ← defaultRouteIface with
  | none => return .error (.msg "could not determine default-route interface")
  | some iface =>
    match ← ifNametoindex iface with
    | .error e => return .error (e.context s!"if_nametoindex({iface})")
    | .ok index =>
      match ← setLinkDns index.toInt32 proxy with
      | .error e => return .error e
      | .ok () =>
        match ← setLinkDefaultRoute index.toInt32 true with
        | .error e => return .error e
        | .ok () => return .ok index.toInt32

/-! ### `/etc/resolv.conf` -/

/-- What `resolvconf_apply` writes. -/
def managed (proxy : IpAddr) : String := s!"# voidns managed\nnameserver {proxy.text}\n"

/-- The first statement of `resolvconf_apply`: back up, unless there is nothing
to back up or a backup already. -/
def backupStep : Prog sig (Except Error Unit) := do
  let conf ← pathExists resolvConf
  if conf then
    let bak ← pathExists resolvBackup
    if !bak then
      match ← copy resolvConf resolvBackup with
      | .error e => return .error (e.context "backup resolv.conf")
      | .ok () => return .ok ()
    else return .ok ()
  else return .ok ()

/-- The second statement of `resolvconf_apply`: unlink a symlink. -/
def unlinkStep : Prog sig (Except Error Unit) := do
  match ← symlinkMetadata resolvConf with
  | .ok .symlink =>
    match ← removeFile resolvConf with
    | .error e => return .error (e.context "unlink resolv.conf symlink")
    | .ok () => return .ok ()
  | _ => return .ok ()

/-- The last statement of `resolvconf_apply`. -/
def writeStep (proxy : IpAddr) : Prog sig (Except Error Unit) := do
  match ← write resolvConf (managed proxy) with
  | .error e => return .error (e.context "write resolv.conf")
  | .ok () => return .ok ()

/-- `resolvconf_apply`. -/
def resolvconfApply (proxy : IpAddr) : Prog sig (Except Error Unit) := do
  match ← backupStep with
  | .error e => return .error e
  | .ok () =>
    match ← unlinkStep with
    | .error e => return .error e
    | .ok () => writeStep proxy

/-- `resolvconf_restore`. -/
def resolvconfRestore : Prog sig (Except Error Unit) := do
  let bak ← pathExists resolvBackup
  if bak then
    match ← copy resolvBackup resolvConf with
    | .error e => return .error (e.context "restore resolv.conf")
    | .ok () =>
      let _ ← removeFile resolvBackup
      return .ok ()
  else return .ok ()

/-! ### The trait methods -/

/-- `apply` from the fallback on. -/
def fallback (proxy : IpAddr) : Prog sig (Except Error Unit) := do
  match ← resolvconfApply proxy with
  | .error e => return .error e
  | .ok () =>
    setActive .resolvConf
    return .ok ()

/-- `LinuxRedirector::apply`. -/
def apply (proxy : IpAddr) : Prog sig (Except Error Unit) := do
  let active ← resolvedActive
  if active then
    match ← applyResolved proxy with
    | .ok ifindex =>
      setActive (.resolved ifindex)
      return .ok ()
    | .error _ => fallback proxy
  else fallback proxy

/-- `LinuxRedirector::restore`. -/
def restore : Prog sig (Except Error Unit) := do
  match ← takeActive with
  | .resolved ifindex =>
    match ← revertLink ifindex with
    | .error e => return .error (e.context "RevertLink")
    | .ok () => return .ok ()
  | .resolvConf => resolvconfRestore
  | .idle => return .ok ()

/-- `LinuxRedirector::flush_cache`. -/
def flushCache : Prog sig (Except Error Unit) := do
  let active ← resolvedActive
  if active then
    let _ ← managerCall .flushCaches
    return .ok ()
  else return .ok ()

/-! ### The system -/

/-- The run-time DNS settings systemd-resolved holds for one link. -/
structure Link where
  servers : List (Int32 × List UInt8)
  defaultRoute : Option Bool
  deriving DecidableEq

/-- A link without run-time settings. -/
def Link.unset : Link := ⟨[], none⟩

/-- The redirector's record and the system behind it. -/
structure System where
  active : Active
  fs : Fs String String
  ifindex : String → Option UInt32
  links : Int32 → Link

/-- What a method does to the links. -/
def Method.effect (links : Int32 → Link) : Method → Int32 → Link
  | setLinkDns i addrs => Function.update links i { links i with servers := addrs }
  | setLinkDefaultRoute i b => Function.update links i { links i with defaultRoute := some b }
  | revertLink i => Function.update links i .unset
  | flushCaches => links

/-- A call on files: it may be refused, and does what `result` says otherwise. -/
def fileCall (w : Fate) (result : Option (Fs String String)) (s : System) :
    Except Error Unit × System :=
  w.attempt (result.map fun fs => ((), { s with fs := fs })) s

theorem fileCall_cases (w : Fate) (result : Option (Fs String String)) (s : System) :
    (∃ e, fileCall w result s = (.error e, s)) ∨
      ∃ fs, w = .ok ∧ result = some fs ∧ fileCall w result s = (.ok (), { s with fs := fs }) := by
  rcases w.attempt_cases (result.map fun fs => ((), { s with fs := fs })) s with
    ⟨e, he⟩ | ⟨a, s', hw, hr, he⟩
  · exact Or.inl ⟨e, he⟩
  · obtain ⟨fs, hfs, hs⟩ := Option.map_eq_some_iff.mp hr
    cases hs
    exact Or.inr ⟨fs, hw, hfs, he⟩

/-- What the system does with a call. -/
def handler : Handler sig Fate System
  | .pathExists p, w, s => (decide (w = .ok) && FileSystem.pathExists s.fs p, s)
  | .symlinkMetadata p, w, s =>
    w.attempt ((s.fs p).map fun _ => (if isLink s.fs p then .symlink else .file, s)) s
  | .readToString p, w, s => w.attempt ((FileSystem.read s.fs p).map (·, s)) s
  | .copy src dst, w, s => fileCall w (FileSystem.copy s.fs src dst) s
  | .removeFile p, w, s => fileCall w (FileSystem.remove s.fs p) s
  | .write p c, w, s => fileCall w (FileSystem.write s.fs p c) s
  | .ifNametoindex name, w, s => w.attempt ((s.ifindex name).map (·, s)) s
  | .systemBus, w, s => w.attempt (some ((), s)) s
  | .resolve1Proxy, w, s => w.attempt (some ((), s)) s
  | .busCall m, w, s => w.attempt (some ((), { s with links := m.effect s.links })) s
  | .setActive a, _, s => ((), { s with active := a })
  | .takeActive, _, s => (s.active, { s with active := .idle })

/-- A host with a `resolv.conf` of its own and no systemd-resolved. -/
def plainHost : System where
  active := .idle
  fs := fun p => if p = resolvConf then some (.file "nameserver 9.9.9.9\n") else none
  ifindex := fun _ => none
  links := fun _ => .unset

/-- A host whose `resolv.conf` is systemd-resolved's, with one link. -/
def stubHost : System where
  active := .idle
  fs := fun p =>
    if p = resolvConf then some (.link resolvedStub)
    else if p = resolvedStub then some (.file "nameserver 127.0.0.53\n")
    else if p = "/proc/net/route" then
      some (.file "Iface\tDestination\tGateway\neth0\t00000000\t0102A8C0\n")
    else none
  ifindex := fun name => if name = "eth0" then some 2 else none
  links := fun i => if i = 2 then ⟨[(2, [9, 9, 9, 9])], none⟩ else .unset

/-! ### What each call can do -/

theorem setServers_eq_iff {links : Int32 → Link} {i : Int32} {addrs : List (Int32 × List UInt8)} :
    Method.effect links (.setLinkDns i addrs) = links ↔ (links i).servers = addrs := by
  rw [Method.effect, Function.update_eq_self_iff]
  exact ⟨fun h => (congrArg Link.servers h).symm, fun h => by rw [← h]⟩

/-- `Path::exists` says `true` of a file that is there, and `false` when there
is none or when `stat` fails. -/
theorem pathExists_cases (p : String) (w : Fate) (s : System) :
    (handler (.pathExists p) w s = (true, s) ∧ FileSystem.pathExists s.fs p = true) ∨
      (handler (.pathExists p) w s = (false, s) ∧
        (w = .ok → FileSystem.pathExists s.fs p = false)) := by
  have he : handler (.pathExists p) w s =
      ((decide (w = .ok) && FileSystem.pathExists s.fs p : Bool), s) := rfl
  cases hw : decide (w = .ok) with
  | false => exact Or.inr ⟨by rw [he, hw, Bool.false_and], fun h => absurd h (of_decide_eq_false hw)⟩
  | true =>
    rw [he, hw, Bool.true_and]
    cases FileSystem.pathExists s.fs p with
    | true => exact Or.inl ⟨rfl, rfl⟩
    | false => exact Or.inr ⟨rfl, fun _ => rfl⟩

theorem symlinkMetadata_cases (p : String) (w : Fate) (s : System) :
    ((w = .ok → s.fs p = none) ∧ ∃ e, handler (.symlinkMetadata p) w s = (.error e, s)) ∨
      (isLink s.fs p = false ∧ handler (.symlinkMetadata p) w s = (.ok .file, s)) ∨
      (isLink s.fs p = true ∧ handler (.symlinkMetadata p) w s = (.ok .symlink, s)) := by
  have he : handler (.symlinkMetadata p) w s = w.attempt ((s.fs p).map fun _ =>
      (if isLink s.fs p then FileType.symlink else FileType.file, s)) s := rfl
  cases w with
  | fails cause => exact Or.inl ⟨fun hw => absurd hw (by simp), _, he⟩
  | ok =>
    cases hp : s.fs p with
    | none => exact Or.inl ⟨fun _ => rfl, .msg "refused", by rw [he, hp]; rfl⟩
    | some node =>
      rw [he, hp]
      cases isLink s.fs p with
      | false => exact Or.inr (Or.inl ⟨rfl, rfl⟩)
      | true => exact Or.inr (Or.inr ⟨rfl, rfl⟩)

theorem copy_cases (src dst : String) (w : Fate) (s : System) :
    (∃ e, handler (.copy src dst) w s = (.error e, s)) ∨
      ∃ fs, w = .ok ∧ FileSystem.copy s.fs src dst = some fs ∧
        handler (.copy src dst) w s = (.ok (), { s with fs := fs }) := fileCall_cases _ _ _

theorem removeFile_cases (p : String) (w : Fate) (s : System) :
    (∃ e, handler (.removeFile p) w s = (.error e, s)) ∨
      ∃ fs, w = .ok ∧ FileSystem.remove s.fs p = some fs ∧
        handler (.removeFile p) w s = (.ok (), { s with fs := fs }) := fileCall_cases _ _ _

theorem write_cases (p c : String) (w : Fate) (s : System) :
    (∃ e, handler (.write p c) w s = (.error e, s)) ∨
      ∃ fs, w = .ok ∧ FileSystem.write s.fs p c = some fs ∧
        handler (.write p c) w s = (.ok (), { s with fs := fs }) := fileCall_cases _ _ _

theorem systemBus_cases (w : Fate) (s : System) :
    (∃ e, handler .systemBus w s = (.error e, s)) ∨ handler .systemBus w s = (.ok (), s) := by
  cases w with
  | ok => exact Or.inr rfl
  | fails cause => exact Or.inl ⟨_, rfl⟩

theorem resolve1Proxy_cases (w : Fate) (s : System) :
    (∃ e, handler .resolve1Proxy w s = (.error e, s)) ∨
      handler .resolve1Proxy w s = (.ok (), s) := by
  cases w with
  | ok => exact Or.inr rfl
  | fails cause => exact Or.inl ⟨_, rfl⟩

theorem busCall_cases (m : Method) (w : Fate) (s : System) :
    (∃ e, handler (.busCall m) w s = (.error e, s)) ∨
      (w = .ok ∧ handler (.busCall m) w s = (.ok (), { s with links := m.effect s.links })) := by
  cases w with
  | ok => exact Or.inr ⟨rfl, rfl⟩
  | fails cause => exact Or.inl ⟨_, rfl⟩

/-! ### Which calls each path makes -/

/-- The calls that touch no file and not the record. -/
def Call.bus : Call → Bool
  | .readToString _ | .ifNametoindex _ | .systemBus | .resolve1Proxy | .busCall _ => true
  | _ => false

theorem handler_bus {c : Call} (hc : c.bus = true) (w : Fate) (s : System) :
    ∃ links, (handler c w s).2 = { s with links := links } := by
  cases c with
  | readToString p => exact ⟨s.links, w.attempt_same (FileSystem.read s.fs p) s⟩
  | ifNametoindex name => exact ⟨s.links, w.attempt_same (s.ifindex name) s⟩
  | systemBus => exact ⟨s.links, w.attempt_same (some ()) s⟩
  | resolve1Proxy => exact ⟨s.links, w.attempt_same (some ()) s⟩
  | busCall m =>
    rcases busCall_cases m w s with ⟨e, he⟩ | ⟨_, he⟩
    · exact ⟨s.links, by rw [he]⟩
    · exact ⟨m.effect s.links, by rw [he]⟩
  | _ => exact absurd hc (by simp [Call.bus])

theorem managerCall_calls {K : Call → Prop} (m : Method) (hbus : K .systemBus)
    (hproxy : K .resolve1Proxy) (hcall : K (.busCall m)) : (managerCall m).Calls K := by
  refine Prog.calls_perform.mpr ⟨hbus, fun r => ?_⟩
  cases r with
  | error e => trivial
  | ok _ =>
    refine Prog.calls_perform.mpr ⟨hproxy, fun r => ?_⟩
    cases r with
    | error e => trivial
    | ok _ => exact Prog.calls_perform.mpr ⟨hcall, fun r => by cases r <;> trivial⟩

theorem managerCall_bus (m : Method) : (managerCall m).Calls (fun c : Call => c.bus = true) :=
  managerCall_calls m rfl rfl rfl

theorem applyResolved_bus (proxy : IpAddr) :
    (applyResolved proxy).Calls (fun c : Call => c.bus = true) := by
  have hroute : defaultRouteIface.Calls (fun c : Call => c.bus = true) :=
    ⟨rfl, fun r => by cases r <;> trivial⟩
  refine hroute.bind fun iface => ?_
  cases iface with
  | none => trivial
  | some iface =>
    refine ⟨rfl, fun r => ?_⟩
    cases r with
    | error e => trivial
    | ok index =>
      refine (managerCall_bus _).bind fun r => ?_
      cases r with
      | error e => trivial
      | ok _ => exact (managerCall_bus _).bind fun r => by cases r <;> trivial

theorem resolvconfApply_calls {K : Call → Prop} (proxy : IpAddr) (hexists : ∀ p, K (.pathExists p))
    (hlstat : K (.symlinkMetadata resolvConf)) (hcopy : K (.copy resolvConf resolvBackup))
    (hremove : K (.removeFile resolvConf)) (hwrite : K (.write resolvConf (managed proxy))) :
    (resolvconfApply proxy).Calls K := by
  have hbackup : backupStep.Calls K := by
    refine Prog.calls_perform.mpr ⟨hexists _, fun conf => ?_⟩
    cases conf with
    | false => trivial
    | true =>
      refine Prog.calls_perform.mpr ⟨hexists _, fun bak => ?_⟩
      cases bak with
      | true => trivial
      | false => exact ⟨hcopy, fun r => by cases r <;> trivial⟩
  have hunlink : unlinkStep.Calls K := by
    refine Prog.calls_perform.mpr ⟨hlstat, fun r => ?_⟩
    rcases r with e | ⟨_ | _⟩
    · trivial
    · trivial
    · exact ⟨hremove, fun r => by cases r <;> trivial⟩
  refine hbackup.bind fun r => ?_
  cases r with
  | error e => trivial
  | ok _ =>
    refine hunlink.bind fun r => ?_
    cases r with
    | error e => trivial
    | ok _ => exact ⟨hwrite, fun r => by cases r <;> trivial⟩

theorem resolvconfRestore_calls {K : Call → Prop} (hexists : K (.pathExists resolvBackup))
    (hcopy : K (.copy resolvBackup resolvConf)) (hremove : K (.removeFile resolvBackup)) :
    resolvconfRestore.Calls K := by
  refine Prog.calls_perform.mpr ⟨hexists, fun bak => ?_⟩
  cases bak with
  | false => trivial
  | true =>
    refine Prog.calls_perform.mpr ⟨hcopy, fun r => ?_⟩
    cases r with
    | error e => trivial
    | ok _ => exact ⟨hremove, fun _ => trivial⟩

/-- A flush changes nothing. -/
theorem flushCache_same (s : System) :
    Safe handler (fun _ => True) (fun e => e.after = s) (fun _ t => t = s) flushCache s := by
  refine safe_same (Prog.calls_perform.mpr ⟨fun w t => rfl, fun active => ?_⟩) s
  cases active with
  | false => trivial
  | true =>
    have hflush := managerCall_calls (K := fun c => ∀ w t, (handler c w t).2 = t) .flushCaches
      (fun w t => w.attempt_same (some ()) t) (fun w t => w.attempt_same (some ()) t)
      (fun w t => w.attempt_same (some ()) t)
    exact hflush.bind fun _ => by trivial

/-- What does not depend on the links survives any talk with systemd-resolved. -/
theorem bus_keeps {A : CallEvent sig Fate System → Prop} {I : System → Prop} {α : Type}
    {p : Prog sig α} (hp : p.Calls (fun c : Call => c.bus = true))
    (hI : ∀ s links, I s → I { s with links := links }) {s : System} (h : I s) :
    Safe handler A (fun e => I e.after) (fun _ t => I t) p s := by
  refine safe_frame (fun c w s hc _ hs => ?_) hp h
  obtain ⟨links, he⟩ := handler_bus hc w s
  rw [he]
  exact hI s links hs

end Linux

/-- `LinuxRedirector`. -/
def LinuxRedirector : DnsRedirector (List Fate) Linux.System :=
  .ofProg Linux.handler Linux.apply Linux.restore Linux.flushCache

end Voidns
