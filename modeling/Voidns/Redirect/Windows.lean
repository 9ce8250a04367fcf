import Mathlib.Logic.Function.Basic
import Voidns.Lib.Prog
import Voidns.Redirect.Basic
import Voidns.Redirect.Parse

/-!
# The Windows redirector

`redirect/windows.rs`.  `apply` asks `netsh` for the connected interfaces, sets
each with `SetInterfaceDnsSettings`, and falls back to `netsh`, interface by
interface, only when no interface could be set so; `restore` takes the path the
record names and reports no failure.

An interface is known by three names, the alias `netsh` prints, its LUID and
its GUID, and the settings hang on the GUID.  An empty name server stands for
the servers DHCP assigns.
-/

namespace Voidns.Windows

open Effect

/-- `enum Applied`: how DNS was applied, so that restore takes the matching path. -/
inductive Applied where
  | none
  | native (names : List String)
  | netsh (names : List String)
  deriving DecidableEq

/-- The fields of `DNS_INTERFACE_SETTINGS` that the flags
`DNS_SETTING_NAMESERVER` and `DNS_SETTING_SEARCHLIST` put in force. -/
structure DnsInterfaceSettings where
  nameServer : String
  searchList : String
  deriving DecidableEq

/-! ### Calls -/

inductive Call where
  /-- `netsh interface show interface`, whatever its exit status. -/
  | showInterfaces
  | aliasToLuid (name : String)
  | luidToGuid (luid : UInt64)
  | setInterfaceDnsSettings (guid : Nat) (settings : DnsInterfaceSettings)
  | run (cmd : String) (args : List String)
  | setApplied (a : Applied)
  | takeApplied
  deriving DecidableEq

@[reducible] def Reply : Call → Type
  | .showInterfaces | .run .. => Except Error String
  | .aliasToLuid _ => Except Error UInt64
  | .luidToGuid _ => Except Error Nat
  | .setInterfaceDnsSettings .. => Except Error Unit
  | .setApplied _ => Unit
  | .takeApplied => Applied

abbrev sig : Sig := ⟨Call, Reply⟩

def aliasToLuid (name : String) : Prog sig (Except Error UInt64) :=
  .perform (E := sig) (.aliasToLuid name)
def luidToGuid (luid : UInt64) : Prog sig (Except Error Nat) := .perform (E := sig) (.luidToGuid luid)
def setInterfaceDnsSettings (guid : Nat) (settings : DnsInterfaceSettings) :
    Prog sig (Except Error Unit) := .perform (E := sig) (.setInterfaceDnsSettings guid settings)

/-- `run`: the standard output, or an error when the command cannot be started
or exits with a failure. -/
def run (cmd : String) (args : List String) : Prog sig (Except Error String) :=
  .perform (E := sig) (.run cmd args)

/-- `self.applied = a`. -/
def setApplied (a : Applied) : Prog sig Unit := .perform (E := sig) (.setApplied a)

/-- `mem::replace(&mut self.applied, Applied::None)`. -/
def takeApplied : Prog sig Applied := .perform (E := sig) .takeApplied

/-- `connected_interfaces`. -/
def connectedInterfaces : Prog sig (Except Error (List String)) := do
  match ← Prog.perform (E := sig) .showInterfaces with
  | .error e => return .error e
  | .ok out => return .ok (Parse.parseNetshInterfaces out)

/-- `alias_to_guid`. -/
def aliasToGuid (name : String) : Prog sig (Except Error Nat) := do
  match ← aliasToLuid name with
  | .error rc => return .error (.msg s!"ConvertInterfaceAliasToLuid({name}) -> {rc.text}")
  | .ok luid =>
    match ← luidToGuid luid with
    | .error rc => return .error (.msg s!"ConvertInterfaceLuidToGuid -> {rc.text}")
    | .ok guid => return .ok guid

/-- What `set_dns_native` and `clear_dns_native` share: the settings, and the
call's name in the error. -/
def updateDnsNative (settings : DnsInterfaceSettings) (what name : String) :
    Prog sig (Except Error Unit) := do
  match ← aliasToGuid name with
  | .error e => return .error e
  | .ok guid =>
    match ← setInterfaceDnsSettings guid settings with
    | .error rc => return .error (.msg s!"{what} -> {rc.text}")
    | .ok () => return .ok ()

/-- `set_dns_native`. -/
def setDnsNative (name server : String) : Prog sig (Except Error Unit) :=
  updateDnsNative ⟨server, "."⟩ "SetInterfaceDnsSettings" name

/-- `clear_dns_native`. -/
def clearDnsNative (name : String) : Prog sig (Except Error Unit) :=
  updateDnsNative ⟨"", ""⟩ "SetInterfaceDnsSettings(clear)" name

/-- The arguments `netsh_set` runs `netsh` with. -/
def setArgs (name server : String) : List String :=
  ["interface", "ipv4", "set", "dnsservers", s!"name={name}", "static", server, "primary"]

/-- `netsh_set`. -/
def netshSet (name server : String) : Prog sig (Except Error Unit) := do
  match ← run "netsh" (setArgs name server) with
  | .error e => return .error e
  | .ok _ => return .ok ()

/-- `netsh_clear`. -/
def netshClear (name : String) : Prog sig (Except Error Unit) := do
  match ← run "netsh" ["interface", "ipv4", "set", "dnsservers", s!"name={name}", "dhcp"] with
  | .error e => return .error e
  | .ok _ => return .ok ()

/-! ### The trait methods -/

/-- The native loop of `apply`: the interfaces that could be set. -/
def setAllNative (server : String) : List String → List String → Prog sig (List String)
  | [], nativeOk => return nativeOk
  | name :: ifaces, nativeOk => do
    match ← setDnsNative name server with
    | .ok () => setAllNative server ifaces (nativeOk ++ [name])
    | .error _ => setAllNative server ifaces nativeOk

/-- The `netsh` loop of `apply`: it stops at the first failure. -/
def setAllNetsh (server : String) : List String → Prog sig (Except Error Unit)
  | [] => return .ok ()
  | name :: ifaces => do
    match ← netshSet name server with
    | .error e => return .error e
    | .ok () => setAllNetsh server ifaces

/-- `WindowsRedirector::apply`. -/
def apply (proxy : IpAddr) : Prog sig (Except Error Unit) := do
  match ← connectedInterfaces with
  | .error e => return .error e
  | .ok ifaces =>
    if ifaces.isEmpty then return .error (.msg "no connected network interfaces found")
    else
      let nativeOk ← setAllNative proxy.text ifaces []
      if nativeOk.isEmpty then
        match ← setAllNetsh proxy.text ifaces with
        | .error e => return .error e
        | .ok () =>
          setApplied (.netsh ifaces)
          return .ok ()
      else
        setApplied (.native nativeOk)
        return .ok ()

/-- `WindowsRedirector::restore`. -/
def restore : Prog sig (Except Error Unit) := do
  match ← takeApplied with
  | .native names =>
    Prog.each clearDnsNative names
    return .ok ()
  | .netsh names =>
    Prog.each netshClear names
    return .ok ()
  | .none => return .ok ()

/-- `WindowsRedirector::flush_cache`. -/
def flushCache : Prog sig (Except Error Unit) := do
  match ← run "ipconfig" ["/flushdns"] with
  | .error e => return .error e
  | .ok _ => return .ok ()

/-! ### The system -/

/-- The redirector's record and the system behind it: what `netsh` prints of
the interfaces, the tables between their names, and the settings of each. -/
structure System where
  applied : Applied
  listing : String
  luid : String → Option UInt64
  guid : UInt64 → Option Nat
  dns : Nat → DnsInterfaceSettings

/-- The interface an argument `name=…` of `netsh` means. -/
def System.named (s : System) (arg : String) : Option Nat :=
  if "name=".toList <+: arg.toList then
    (s.luid (String.ofList (arg.toList.drop 5))).bind s.guid
  else none

/-- `netsh` sets the name server of an interface and leaves its search list. -/
def System.setNameServer (s : System) (guid : Nat) (server : String) : System :=
  { s with dns := Function.update s.dns guid { s.dns guid with nameServer := server } }

/-- What the system does with a command line, unless it refuses it, and what
the command prints. -/
def command (s : System) : String → List String → Option (String × System)
  | "netsh", ["interface", "ipv4", "set", "dnsservers", arg, "static", server, "primary"] =>
    (s.named arg).map fun guid => ("", s.setNameServer guid server)
  | "netsh", ["interface", "ipv4", "set", "dnsservers", arg, "dhcp"] =>
    (s.named arg).map fun guid => ("", s.setNameServer guid "")
  | _, _ => some ("", s)

/-- What the system does with a call. -/
def handler : Handler sig Fate System
  | .showInterfaces, w, s => w.attempt (some (s.listing, s)) s
  | .aliasToLuid name, w, s => w.attempt ((s.luid name).map (·, s)) s
  | .luidToGuid luid, w, s => w.attempt ((s.guid luid).map (·, s)) s
  | .setInterfaceDnsSettings guid settings, w, s =>
    w.attempt (some ((), { s with dns := Function.update s.dns guid settings })) s
  | .run cmd args, w, s => w.attempt (command s cmd args) s
  | .setApplied a, _, s => ((), { s with applied := a })
  | .takeApplied, _, s => (s.applied, { s with applied := .none })

/-- A machine with two connected interfaces. -/
def twoInterfaces : System where
  applied := .none
  listing := "Admin State    State          Type             Interface Name\n" ++
    "Enabled        Connected      Dedicated        Ethernet\n" ++
    "Enabled        Connected      Dedicated        Wi-Fi\n"
  luid := fun name => if name = "Ethernet" then some 1 else if name = "Wi-Fi" then some 2 else none
  guid := fun luid => some luid.toNat
  dns := fun _ => ⟨"9.9.9.9", ""⟩

/-! ### Which calls each path makes -/

/-- The calls on the settings of an interface. -/
def Call.native : Call → Bool
  | .aliasToLuid _ | .luidToGuid _ | .setInterfaceDnsSettings .. => true
  | _ => false

theorem updateDnsNative_native (settings : DnsInterfaceSettings) (what name : String) :
    (updateDnsNative settings what name).Calls fun c : Call => c.native = true := by
  have hguid : (aliasToGuid name).Calls fun c : Call => c.native = true := by
    refine Prog.calls_perform.mpr ⟨rfl, fun r => ?_⟩
    cases r with
    | error rc => trivial
    | ok luid => exact Prog.calls_perform.mpr ⟨rfl, fun r => by cases r <;> trivial⟩
  refine hguid.bind fun r => ?_
  cases r with
  | error e => trivial
  | ok guid => exact Prog.calls_perform.mpr ⟨rfl, fun r => by cases r <;> trivial⟩

theorem setAllNative_native (server : String) : ∀ ifaces nativeOk : List String,
    (setAllNative server ifaces nativeOk).Calls fun c : Call => c.native = true := by
  intro ifaces
  induction ifaces with
  | nil => intro nativeOk; trivial
  | cons name ifaces ih =>
    intro nativeOk
    refine (updateDnsNative_native _ _ name).bind fun r => ?_
    cases r with
    | error e => exact ih _
    | ok _ => exact ih _

theorem setAllNetsh_set (server : String) : ∀ ifaces : List String,
    (setAllNetsh server ifaces).Calls fun c : Call => ∃ name, c = .run "netsh" (setArgs name server) := by
  intro ifaces
  induction ifaces with
  | nil => trivial
  | cons name ifaces ih =>
    have hset : (netshSet name server).Calls fun c : Call =>
        ∃ name, c = .run "netsh" (setArgs name server) :=
      Prog.calls_perform.mpr ⟨⟨name, rfl⟩, fun r => by cases r <;> trivial⟩
    refine hset.bind fun r => ?_
    cases r with
    | error e => trivial
    | ok _ => exact ih

/-- A flush changes nothing. -/
theorem flushCache_same (s : System) :
    Safe handler (fun _ => True) (fun e => e.after = s) (fun _ t => t = s) flushCache s := by
  refine safe_same (Prog.calls_perform.mpr ⟨fun w t => ?_, fun r => by cases r <;> trivial⟩) s
  cases w <;> rfl

end Windows

/-- `WindowsRedirector`. -/
def WindowsRedirector : DnsRedirector (List Fate) Windows.System :=
  .ofProg Windows.handler Windows.apply Windows.restore Windows.flushCache

end Voidns
