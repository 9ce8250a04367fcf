import Mathlib.Data.Fintype.Pi
import Voidns.Base.Address
import Voidns.Controller.Basic

/-!
# The proxy

`proxy.rs`: a DNS server on a loopback socket that hands every query to a resolver over
HTTPS.  `start` reads the upstream's name servers and the trust anchors, builds the
resolver, and binds a UDP and a TCP socket; the server is dropped when a later step
fails.  `hickory` and `rustls` come as `Libraries`.
-/

namespace Voidns

open Effect

deriving instance DecidableEq for IpAddr, SocketAddr

/-! ### What is configured -/

/-- `ConnectionConfig` of `hickory`, over HTTPS. -/
structure ConnectionConfig where
  port : UInt16
  serverName : String
  path : String
  deriving DecidableEq

/-- `NameServerConfig`. -/
structure NameServerConfig where
  ip : IpAddr
  connections : List ConnectionConfig
  deriving DecidableEq

/-- The libraries: `NameServerConfig::https` and the presets, the Mozilla roots, the
certificates in a PEM text, what a root store makes of one of them, and whether `rustls`
has its protocol versions. -/
structure Libraries (Cert Anchor : Type) where
  https : IpAddr → String → Option String → NameServerConfig
  cloudflare : List NameServerConfig
  google : List NameServerConfig
  quad9 : List NameServerConfig
  tlsServerRoots : List Anchor
  certs : List UInt8 → List (Except Error Cert)
  anchor : Cert → Except Error Anchor
  protocolVersions : Except Error Unit

/-- `ResolverOpts`, as far as they are set; times in seconds. -/
structure ResolverOpts where
  cacheSize : Nat
  positiveMinTtl : Option Nat
  positiveMaxTtl : Option Nat
  negativeMinTtl : Option Nat
  negativeMaxTtl : Option Nat
  tryTcpOnError : Bool
  numConcurrentReqs : Nat
  preserveIntermediates : Bool
  useHostsFile : Bool
  deriving DecidableEq

/-- The options of `DohProxy::start`. -/
def resolverOpts : ResolverOpts := ⟨1024, some 5, some 3600, some 5, some 300, true, 2, true, false⟩

/-- A domain name. -/
structure Name where
  labels : List String
  fqdn : Bool
  deriving DecidableEq

def Name.root : Name := ⟨[], true⟩

/-- The `Resolver` that `build_forward_zone` builds. -/
structure Resolver (Anchor : Type) where
  nameServers : List NameServerConfig
  options : ResolverOpts
  roots : List Anchor

/-- `VerifiedForwarder`. -/
structure VerifiedForwarder (Anchor : Type) where
  origin : Name
  resolver : Resolver Anchor

/-- `RequestInfo`, as far as `search` reads it. -/
structure RequestInfo where
  name : Name
  queryType : UInt16

/-- `LookupControlFlow`. -/
inductive LookupControlFlow (α : Type) where
  | continues (reply : α)
  | breaks (reply : α)
  | skip
  deriving DecidableEq

namespace VerifiedForwarder

variable {Anchor Lookup LookupError : Type}
  (resolve : Resolver Anchor → Name → UInt16 → Except LookupError Lookup)

/-- `lookup`: the name without its dot, so that no search domain is appended. -/
def lookup (f : VerifiedForwarder Anchor) (name : Name) (rtype : UInt16) :
    LookupControlFlow (Except LookupError Lookup) :=
  .continues (resolve f.resolver { name with fqdn := false } rtype)

/-- `search`, of what `request_info` makes of a request. -/
def search (f : VerifiedForwarder Anchor) (requestInfo : Except LookupError RequestInfo) :
    LookupControlFlow (Except LookupError Lookup) :=
  match requestInfo with
  | .error e => .breaks (.error e)
  | .ok info => f.lookup resolve info.name info.queryType

end VerifiedForwarder

/-- `Server`, with the sockets that are registered. -/
structure Server (Anchor : Type) where
  id : Nat
  zone : VerifiedForwarder Anchor
  udp : List SocketAddr
  tcp : List SocketAddr

inductive Transport where
  | udp
  | tcp
  deriving DecidableEq

def Server.sockets {Anchor : Type} (v : Server Anchor) : Transport → List SocketAddr
  | .udp => v.udp
  | .tcp => v.tcp

/-- The systems that keep the extra CA in different places. -/
inductive Target where
  | unix
  | windows
  deriving DecidableEq

section

variable {Cert Anchor : Type} (L : Libraries Cert Anchor)

def voidnsDohIp : String := "1.1.1.1"
def voidnsDohHost : String := "cloudflare-dns.com"
def voidnsDohPath : String := "/dns-query"

/-- `s.parse::<IpAddr>().context(ctx)`. -/
def parseIp (s ctx : String) : Except Error IpAddr :=
  match IpAddr.parse s with
  | some ip => .ok ip
  | none => .error ((Error.msg "invalid IP address syntax").context ctx)

/-- `upstream_name_servers`. -/
def upstreamNameServers : UpstreamSel → Except Error (List NameServerConfig)
  | .cloudflare => .ok L.cloudflare
  | .google => .ok L.google
  | .quad9 => .ok L.quad9
  | .voidns => (parseIp voidnsDohIp "voidns DoH IP").map fun ip =>
    [L.https ip voidnsDohHost (some voidnsDohPath)]
  | .custom ip hostname path port => (parseIp ip "custom DoH bootstrap IP").map fun ip =>
    let ns := L.https ip hostname (some path)
    -- `https` defaults to 443
    [{ ns with connections := ns.connections.map fun conn => { conn with port := port } }]

/-- `{:?}` of a path, without the escapes of what is not ASCII. -/
def debugPath (path : String) : String :=
  "\"" ++ String.join (path.toList.map fun c =>
    if c = '"' ∨ c = '\\' then String.ofList ['\\', c]
    else if c = '\n' then "\\n"
    else if c = '\r' then "\\r"
    else if c = '\t' then "\\t"
    else if c.toNat = 0 then "\\0"
    else if c.toNat < 32 ∨ c.toNat = 127 then
      "\\u\x7b" ++ String.ofList (Nat.toDigits 16 c.toNat) ++ "\x7d"
    else String.ofList [c]) ++ "\""

/-- The anchors of the certificates behind those that are there. -/
def addCerts : List (Except Error Cert) → List Anchor → Except Error (List Anchor)
  | [], roots => .ok roots
  | .error e :: _, _ => .error (e.context "parse extra CA PEM")
  | .ok cert :: certs, roots =>
    match L.anchor cert with
    | .error e => .error (e.context "add extra CA to root store")
    | .ok anchor => addCerts certs (roots ++ [anchor])

/-- `build_client_config`, once it has tried to read the extra CA. -/
def clientRoots (path : String) (required : Bool) (read : Except String (List UInt8)) :
    Except Error (List Anchor) := do
  let roots ← match read with
    | .ok pem => addCerts L (L.certs pem) L.tlsServerRoots
    | .error cause =>
      if required then
        .error (.msg ("read VOIDNS_EXTRA_CA_FILE " ++ debugPath path ++ ": " ++ cause))
      else .ok L.tlsServerRoots
  match L.protocolVersions with
  | .error e => .error (e.context "rustls protocol versions")
  | .ok () => .ok roots

end

namespace Proxy

/-! ### Calls -/

inductive Call (Anchor : Type) where
  | env (name : String)
  | readFile (path : String)
  | buildResolver (resolver : Resolver Anchor)
  | newServer (zone : VerifiedForwarder Anchor)
  | bindUdp (server : Nat) (listen : SocketAddr)
  | bindTcp (server : Nat) (listen : SocketAddr)
  | listening (proxy : DohProxy)
  | drop (server : Nat)
  | shutdown (server : Nat)

@[reducible] def Reply {Anchor : Type} : Call Anchor → Type
  | .env _ => Option String
  | .readFile _ => Except String (List UInt8)
  | .buildResolver _ | .bindUdp .. | .bindTcp .. | .shutdown _ => Except Error Unit
  | .newServer _ => Nat
  | .listening _ | .drop _ => Unit

abbrev sig (Anchor : Type) : Sig := ⟨Call Anchor, Reply⟩

section

variable {Cert Anchor : Type} (L : Libraries Cert Anchor) (target : Target)

/-- `std::env::var_os`. -/
def env (name : String) : Prog (sig Anchor) (Option String) := .perform (E := sig Anchor) (.env name)
/-- `std::fs::read`. -/
def readFile (path : String) : Prog (sig Anchor) (Except String (List UInt8)) :=
  .perform (E := sig Anchor) (.readFile path)
def buildResolver (resolver : Resolver Anchor) : Prog (sig Anchor) (Except Error Unit) :=
  .perform (E := sig Anchor) (.buildResolver resolver)
/-- `Server::new`, with the zone at the root of its catalog. -/
def newServer (zone : VerifiedForwarder Anchor) : Prog (sig Anchor) Nat :=
  .perform (E := sig Anchor) (.newServer zone)
/-- `UdpSocket::bind`, and `register_socket`. -/
def bindUdp (server : Nat) (listen : SocketAddr) : Prog (sig Anchor) (Except Error Unit) :=
  .perform (E := sig Anchor) (.bindUdp server listen)
/-- `TcpListener::bind`, and `register_listener`. -/
def bindTcp (server : Nat) (listen : SocketAddr) : Prog (sig Anchor) (Except Error Unit) :=
  .perform (E := sig Anchor) (.bindTcp server listen)
/-- The `DohProxy` is there. -/
def listening (proxy : DohProxy) : Prog (sig Anchor) Unit :=
  .perform (E := sig Anchor) (.listening proxy)
/-- The server is dropped, which aborts its tasks. -/
def drop (server : Nat) : Prog (sig Anchor) Unit := .perform (E := sig Anchor) (.drop server)
/-- `shutdown_gracefully`, after which the server is dropped in any case. -/
def shutdown (server : Nat) : Prog (sig Anchor) (Except Error Unit) :=
  .perform (E := sig Anchor) (.shutdown server)

/-! ### Start and stop -/

/-- `PathBuf::join` on Windows, of a relative path: no separator goes behind another one,
or behind a drive. -/
def join (base path : String) : String :=
  match base.toList, base.toList.getLast? with
  | [_, ':'], _ | _, none | _, some '\\' | _, some '/' => base ++ path
  | _, _ => base ++ "\\" ++ path

/-- `default_extra_ca_path`. -/
def defaultExtraCaPath : Target → Prog (sig Anchor) String
  | .windows => do
    let base ← env "ProgramData"
    return join (join (base.getD "C:\\ProgramData") "VoidNS") "extra-ca.pem"
  | .unix => return "/etc/voidns/extra-ca.pem"

/-- Where the extra CA is looked for, and whether it has to be there. -/
def extraCa : Prog (sig Anchor) (String × Bool) := do
  match ← env "VOIDNS_EXTRA_CA_FILE" with
  | some path => return (path, true)
  | none =>
    let path ← defaultExtraCaPath target
    return (path, false)

/-- `build_client_config`. -/
def buildClientConfig : Prog (sig Anchor) (Except Error (List Anchor)) := do
  let (path, required) ← extraCa target
  let read ← readFile path
  return clientRoots L path required read

/-- `build_forward_zone`. -/
def buildForwardZone (nameServers : List NameServerConfig) (options : ResolverOpts) :
    Prog (sig Anchor) (Except Error (VerifiedForwarder Anchor)) := do
  match ← buildClientConfig L target with
  | .error e => return .error e
  | .ok roots =>
    let resolver : Resolver Anchor := ⟨nameServers, options, roots⟩
    match ← buildResolver resolver with
    | .error e => return .error (.msg ("failed to build DoH resolver: " ++ e.text))
    | .ok () => return .ok ⟨.root, resolver⟩

/-- `start`, once the zone is there. -/
def serveZone (zone : VerifiedForwarder Anchor) (listen : SocketAddr) (upstream : UpstreamSel) :
    Prog (sig Anchor) (Except Error DohProxy) := do
  let server ← newServer zone
  match ← bindUdp server listen with
  | .error e =>
    drop server
    return .error (e.context ("bind UDP " ++ listen.text))
  | .ok () =>
    match ← bindTcp server listen with
    | .error e =>
      drop server
      return .error (e.context ("bind TCP " ++ listen.text))
    | .ok () =>
      listening ⟨server, listen, upstream⟩
      return .ok ⟨server, listen, upstream⟩

/-- `DohProxy::start`. -/
def start (listen : SocketAddr) (upstream : UpstreamSel) :
    Prog (sig Anchor) (Except Error DohProxy) := do
  match upstreamNameServers L upstream with
  | .error e => return .error e
  | .ok nameServers =>
    match ← buildForwardZone L target nameServers resolverOpts with
    | .error e => return .error e
    | .ok zone => serveZone zone listen upstream

/-- `DohProxy::stop`. -/
def stop (proxy : DohProxy) : Prog (sig Anchor) (Except Error Unit) := do
  match ← shutdown proxy.id with
  | .error e => return .error (.msg ("proxy shutdown error: " ++ e.text))
  | .ok () => return .ok ()

end

end Proxy

/-- Libraries with one root, and PEM texts of one certificate. -/
def plainLibraries : Libraries (List UInt8) String where
  https ip host path := ⟨ip, [⟨443, host, path.getD "/dns-query"⟩]⟩
  cloudflare := [⟨.v4 1 1 1 1, [⟨443, "cloudflare-dns.com", "/dns-query"⟩]⟩]
  google := [⟨.v4 8 8 8 8, [⟨443, "dns.google", "/dns-query"⟩]⟩]
  quad9 := [⟨.v4 9 9 9 9, [⟨443, "dns.quad9.net", "/dns-query"⟩]⟩]
  tlsServerRoots := ["ISRG Root X1"]
  certs pem := [.ok pem]
  anchor _ := .ok "internal"
  protocolVersions := .ok ()

end Voidns
