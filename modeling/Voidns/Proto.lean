import Voidns.Base.Net

/-!
# The IPC protocol

`voidns-proto`: what the GUI and the service say to each other.  `UpstreamSel`
picks a DoH resolver, `Command` goes to the service, `Event` comes back, and
`Status` is the snapshot every reply and every broadcast carries.
-/

namespace Voidns

/-- Upstream DoH resolver selection. -/
inductive UpstreamSel where
  | voidns
  | cloudflare
  | google
  | quad9
  | custom (ip hostname path : String) (port : UInt16)
  deriving DecidableEq, Repr

namespace UpstreamSel

instance : Inhabited UpstreamSel := ⟨cloudflare⟩

/-- Short human label for the UI. -/
def label : UpstreamSel → String
  | voidns => "voidns"
  | cloudflare => "Cloudflare"
  | google => "Google"
  | quad9 => "Quad9"
  | custom _ hostname _ _ => hostname

end UpstreamSel

/-- Commands sent GUI → service. -/
inductive Command where
  | connect (upstream : UpstreamSel)
  | disconnect
  | getStatus
  | subscribe
  | ping
  deriving DecidableEq, Repr

/-- Connection lifecycle state. -/
inductive ConnState where
  | disconnected
  | connecting
  | connected
  | error
  deriving DecidableEq, Repr

/-- Full status snapshot. -/
structure Status where
  state : ConnState
  upstream : Option String
  listen : Option String
  error : Option String
  deriving DecidableEq, Repr

/-- The status the controller starts with and every disconnect sets. -/
def Status.disconnected : Status := ⟨.disconnected, none, none, none⟩

/-- Events and replies sent service → GUI. -/
inductive Event where
  | status (s : Status)
  | pong
  | error (message : String)
  deriving DecidableEq, Repr

end Voidns
