import Mathlib.Logic.Function.Basic
import Voidns.Lib.Prog
import Voidns.Redirect.Basic
import Voidns.Redirect.Parse

/-!
# The macOS redirector

`redirect/macos.rs`.  `apply` writes the proxy into the `State:/…/DNS` keys of
the dynamic store, and falls back to `networksetup -setdnsservers`, service by
service, when that fails; `restore` takes the path the record names.

Commands go through `run`, whose output is text: `command` is what the system
does with a command line and what it prints.  A call the world lets fail has no
effect.
-/

namespace Voidns.Macos

open Effect

/-- `SERVICE_PATTERN`. -/
def servicePattern : String := "Setup:/Network/Service/[0-9A-F-]+"

/-- `enum Applied`: how DNS was applied, so that restore takes the matching path. -/
inductive Applied where
  | none
  /-- `State:/…/DNS` paths we set. -/
  | native (paths : List String)
  /-- Service name and previous DNS servers (empty: was DHCP or none). -/
  | shell (saved : List (String × List String))
  deriving DecidableEq

/-- A dictionary of string lists, as the DNS keys of the store hold. -/
abbrev Plist := List (String × List String)

/-! ### Calls -/

inductive Call where
  | createStore
  | getKeys (pattern : String)
  | setRaw (path : String) (value : Plist)
  | removeKey (path : String)
  | run (cmd : String) (args : List String)
  | setApplied (a : Applied)
  | takeApplied
  deriving DecidableEq

@[reducible] def Reply : Call → Type
  | .createStore | .setRaw .. | .removeKey _ => Bool
  | .getKeys _ => Option (List String)
  | .run .. => Except Error String
  | .setApplied _ => Unit
  | .takeApplied => Applied

abbrev sig : Sig := ⟨Call, Reply⟩

/-- `SCDynamicStoreBuilder::new("voidns").build()`: whether there is a session. -/
def createStore : Prog sig Bool := .perform (E := sig) .createStore
def getKeys (pattern : String) : Prog sig (Option (List String)) :=
  .perform (E := sig) (.getKeys pattern)
def setRaw (path : String) (value : Plist) : Prog sig Bool :=
  .perform (E := sig) (.setRaw path value)
def removeKey (path : String) : Prog sig Bool := .perform (E := sig) (.removeKey path)

/-- `run`: the standard output, or an error when the command cannot be started
or exits with a failure. -/
def run (cmd : String) (args : List String) : Prog sig (Except Error String) :=
  .perform (E := sig) (.run cmd args)

/-- `self.applied = a`. -/
def setApplied (a : Applied) : Prog sig Unit := .perform (E := sig) (.setApplied a)

/-- `mem::replace(&mut self.applied, Applied::None)`. -/
def takeApplied : Prog sig Applied := .perform (E := sig) .takeApplied

/-- `flush_cache`. -/
def flushCache : Prog sig (Except Error Unit) := do
  let _ ← run "dscacheutil" ["-flushcache"]
  let _ ← run "killall" ["-HUP", "mDNSResponder"]
  return .ok ()

/-! ### Native: the dynamic store -/

/-- The part of a key after its last slash. -/
def lastSegment (key : String) : String :=
  String.ofList (key.toList.reverse.takeWhile (· != '/')).reverse

/-- The key of the run-time DNS settings of a service. -/
def statePath (setup : String) : String := s!"State:/Network/Service/{lastSegment setup}/DNS"

/-- `{ "ServerAddresses": [proxy] }`. -/
def proxyPlist (proxy : IpAddr) : Plist := [("ServerAddresses", [proxy.text])]

/-- The loop of `apply_native`: the paths that could be set. -/
def setAll (proxy : IpAddr) : List String → List String → Prog sig (List String)
  | [], applied => return applied
  | k :: keys, applied => do
    let set ← setRaw (statePath k) (proxyPlist proxy)
    if set then setAll proxy keys (applied ++ [statePath k]) else setAll proxy keys applied

/-- `apply_native`. -/
def applyNative (proxy : IpAddr) : Prog sig (Except Error (List String)) := do
  let store ← createStore
  if store then
    match ← getKeys servicePattern with
    | none => return .error (.msg "no network services found")
    | some keys =>
      let applied ← setAll proxy keys []
      if applied.isEmpty then return .error (.msg "failed to set DNS on any service")
      else return .ok applied
  else return .error (.msg "SCDynamicStoreCreate failed")

/-- `restore_native`. -/
def restoreNative (paths : List String) : Prog sig (Except Error Unit) := do
  let store ← createStore
  if store then
    Prog.each removeKey paths
    return .ok ()
  else return .error (.msg "SCDynamicStoreCreate failed")

/-! ### Fallback: networksetup -/

/-- `network_services`. -/
def networkServices : Prog sig (Except Error (List String)) := do
  match ← run "networksetup" ["-listallnetworkservices"] with
  | .error e => return .error e
  | .ok out => return .ok (Parse.parseNetworkServices out)

/-- `current_dns`. -/
def currentDns (service : String) : Prog sig (Option (List String)) := do
  match ← run "networksetup" ["-getdnsservers", service] with
  | .error _ => return none
  | .ok out => return some (Parse.parseDnsServers out)

/-- The loop of `apply_shell`: snapshot a service, then overwrite it. -/
def redirectAll (proxy : IpAddr) : List String → List (String × List String) →
    Prog sig (Except Error (List (String × List String)))
  | [], saved => return .ok saved
  | svc :: services, saved => do
    let prev := (← currentDns svc).getD []
    match ← run "networksetup" ["-setdnsservers", svc, proxy.text] with
    | .error e => return .error e
    | .ok _ => redirectAll proxy services (saved ++ [(svc, prev)])

/-- `apply_shell`. -/
def applyShell (proxy : IpAddr) : Prog sig (Except Error (List (String × List String))) := do
  match ← networkServices with
  | .error e => return .error e
  | .ok services =>
    if services.isEmpty then return .error (.msg "no network services found")
    else redirectAll proxy services []

/-- The arguments `restore_shell` sets a service back with. -/
def restoreArgs (svc : String) (servers : List String) : List String :=
  "-setdnsservers" :: svc :: if servers.isEmpty then ["Empty"] else servers

/-- `restore_shell`. -/
def restoreShell (prev : List (String × List String)) : Prog sig Unit :=
  Prog.each (fun saved => run "networksetup" (restoreArgs saved.1 saved.2)) prev

/-! ### The trait methods -/

/-- `MacosRedirector::apply`. -/
def apply (proxy : IpAddr) : Prog sig (Except Error Unit) := do
  match ← applyNative proxy with
  | .ok paths =>
    setApplied (.native paths)
    let _ ← flushCache
    return .ok ()
  | .error _ =>
    match ← applyShell proxy with
    | .error e => return .error e
    | .ok saved =>
      setApplied (.shell saved)
      let _ ← flushCache
      return .ok ()

/-- `MacosRedirector::restore`. -/
def restore : Prog sig (Except Error Unit) := do
  match ← takeApplied with
  | .native paths => restoreNative paths
  | .shell prev =>
    restoreShell prev
    return .ok ()
  | .none => return .ok ()

/-! ### The system -/

/-- The redirector's record and the system behind it: the `Setup:` keys of the
services and the run-time values in the dynamic store, what
`-listallnetworkservices` prints, and the DNS servers set for each service. -/
structure System where
  applied : Applied
  setupKeys : List String
  store : String → Option Plist
  listing : String
  dns : String → List String

/-- What `-getdnsservers` prints: a sentence, or one server on each line. -/
def printDnsServers (svc : String) (servers : List String) : String :=
  if servers.isEmpty then s!"There aren't any DNS Servers set on {svc}.\n"
  else String.join (servers.map (· ++ "\n"))

/-- The servers `-setdnsservers` sets: none when told `Empty`. -/
def setTo (servers : List String) : List String := if servers = ["Empty"] then [] else servers

/-- What the system does with a command line, and what it prints. -/
def command (s : System) : String → List String → String × System
  | "networksetup", ["-listallnetworkservices"] => (s.listing, s)
  | "networksetup", ["-getdnsservers", svc] => (printDnsServers svc (s.dns svc), s)
  | "networksetup", "-setdnsservers" :: svc :: servers =>
    ("", { s with dns := Function.update s.dns svc (setTo servers) })
  | _, _ => ("", s)

/-- What the system does with a call. -/
def handler : Handler sig Fate System
  | .createStore, w, s => (decide (w = .ok), s)
  | .getKeys _, w, s => (if w = .ok then some s.setupKeys else none, s)
  | .setRaw path value, w, s =>
    if w = .ok then (true, { s with store := Function.update s.store path (some value) })
    else (false, s)
  | .removeKey path, w, s =>
    if w = .ok then (true, { s with store := Function.update s.store path none }) else (false, s)
  | .run cmd args, w, s => w.attempt (some (command s cmd args)) s
  | .setApplied a, _, s => ((), { s with applied := a })
  | .takeApplied, _, s => (s.applied, { s with applied := .none })

/-- A Mac with two services. -/
def twoServices : System where
  applied := .none
  setupKeys := []
  store := fun _ => none
  listing := "An asterisk (*) denotes that a network service is disabled.\nWi-Fi\nEthernet\n"
  dns := fun _ => ["9.9.9.9"]

/-! ### Which calls each path makes -/

/-- The calls on the dynamic store. -/
def Call.native : Call → Bool
  | .createStore | .getKeys _ | .setRaw .. | .removeKey _ => true
  | _ => false

/-- The commands that set no server but `server`. -/
def Call.shell (server : String) : Call → Prop
  | .run "networksetup" ("-setdnsservers" :: _ :: servers) => servers = [server]
  | .run .. => True
  | _ => False

theorem applyNative_native (proxy : IpAddr) :
    (applyNative proxy).Calls fun c : Call => c.native = true := by
  have hset : ∀ keys applied : List String,
      (setAll proxy keys applied).Calls fun c : Call => c.native = true := by
    intro keys
    induction keys with
    | nil => intro applied; trivial
    | cons k keys ih =>
      intro applied
      refine Prog.calls_perform.mpr ⟨rfl, fun set => ?_⟩
      cases set with
      | true => exact ih _
      | false => exact ih _
  refine Prog.calls_perform.mpr ⟨rfl, fun store => ?_⟩
  cases store with
  | false => trivial
  | true =>
    refine Prog.calls_perform.mpr ⟨rfl, fun keys => ?_⟩
    cases keys with
    | none => trivial
    | some keys =>
      refine (hset keys []).bind fun applied => ?_
      cases applied <;> trivial

theorem applyShell_shell (proxy : IpAddr) : (applyShell proxy).Calls (Call.shell proxy.text) := by
  have hredirect : ∀ (services : List String) (saved : List (String × List String)),
      (redirectAll proxy services saved).Calls (Call.shell proxy.text) := by
    intro services
    induction services with
    | nil => intro saved; trivial
    | cons svc services ih =>
      intro saved
      have hdns : (currentDns svc).Calls (Call.shell proxy.text) :=
        Prog.calls_perform.mpr ⟨trivial, fun r => by cases r <;> trivial⟩
      refine hdns.bind fun prev => Prog.calls_perform.mpr ⟨rfl, fun r => ?_⟩
      cases r with
      | error e => trivial
      | ok _ => exact ih _
  have hlist : networkServices.Calls (Call.shell proxy.text) :=
    Prog.calls_perform.mpr ⟨trivial, fun r => by cases r <;> trivial⟩
  refine hlist.bind fun r => ?_
  cases r with
  | error e => trivial
  | ok services =>
    cases services with
    | nil => trivial
    | cons svc services => exact hredirect _ _

/-- A flush changes nothing. -/
theorem flushCache_same (s : System) :
    Safe handler (fun _ => True) (fun e => e.after = s) (fun _ t => t = s) flushCache s := by
  have hrun : ∀ cmd args, (∀ t : System, (command t cmd args).2 = t) →
      ∀ (w : Fate) (t : System), (handler (.run cmd args) w t).2 = t := by
    intro cmd args hcmd w t
    cases w with
    | ok => exact hcmd t
    | fails cause => rfl
  refine safe_same (Prog.calls_perform.mpr ⟨hrun _ _ fun _ => rfl, fun _ => ?_⟩) s
  exact Prog.calls_perform.mpr ⟨hrun _ _ fun _ => rfl, fun _ => by trivial⟩

end Macos

/-- `MacosRedirector`. -/
def MacosRedirector : DnsRedirector (List Fate) Macos.System :=
  .ofProg Macos.handler Macos.apply Macos.restore Macos.flushCache

end Voidns
