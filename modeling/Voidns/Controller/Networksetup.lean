import Voidns.Controller.Settled
import Voidns.Redirect.Snapshot

/-!
# Retries on macOS

The controller over the macOS redirector, with the dynamic store out of reach.
As long as no command fails half-way through the services (`CarefulStep`), every
snapshot holds the servers the user had and every `disconnect` puts them back.
A failure half-way drops the snapshot with some services redirected, and the
next `connect` snapshots the proxy.
-/

namespace Voidns.Controller

open Effect

/-- The calls on the operating system within one step. -/
def osEvents (e : CallEvent sig (Choice (List Fate)) (Controller Macos.System)) :
    List (CallEvent Macos.sig Fate Macos.System) :=
  match e.call with
  | .apply ip => (exec Macos.handler (Macos.apply ip) e.choice.os e.before.redirector).events
  | .restore => (exec Macos.handler Macos.restore e.choice.os e.before.redirector).events
  | .flushCache => (exec Macos.handler Macos.flushCache e.choice.os e.before.redirector).events
  | _ => []

/-- A service that cannot be set is harmless in an `apply` while every listed
service still has its own servers, and in a `restore` when it has its own. -/
def harmless (orig : String → List String) (services : List String) :
    Call → String → Macos.System → Prop
  | .restore => fun svc s => s.dns svc = orig svc
  | _ => fun _ s => ∀ other ∈ services, s.dns other = orig other

/-- No command fails where it does harm, and the dynamic store is out of reach. -/
def CarefulStep (orig : String → List String) (services : List String)
    (e : CallEvent sig (Choice (List Fate)) (Controller Macos.System)) : Prop :=
  ∀ ev ∈ osEvents e, Macos.Careful (harmless orig services e.call) ev

variable {orig : String → List String} {services : List String}

theorem keeps_snapshots (hv : ∀ svc, ∀ server ∈ orig svc, Text.isIpAddr server.toList = true)
    (hn : services.Nodup) :
    Keeps MacosRedirector (CarefulStep orig services) (Macos.Snapshot orig services)
      (Macos.Original orig services) where
  apply w c hA hd := by
    have hsafe := (Macos.apply_snapshots .localhost hv hn hd).exec w.os hA
    exact hsafe.2
  restore w c hA h := ((Macos.restore_undoes hv h).exec w.os hA).2
  flush w r := by
    have hsame : (MacosRedirector.flushCache w r).2 = r := ((Macos.flushCache_same r).exec_total w).2
    rw [hsame]
    exact ⟨id, id⟩

/-- **Snapshots survive failures and retries.**  In every run of commands over
services with addresses for servers, in which no command fails where it does
harm, each snapshot records what the user had, and after a `disconnect` every
service has it again. -/
theorem snapshots_survive (port : UInt16) (s : Macos.System)
    (hv : ∀ svc, ∀ server ∈ s.dns svc, Text.isIpAddr server.toList = true)
    (hn : (Parse.parseNetworkServices s.listing).Nodup) (requests : List Request)
    (ws : List (Choice (List Fate)))
    (hA : ∀ e ∈ (exec (handler MacosRedirector) (session requests) ws
        (new port { s with applied := .none })).events,
      CarefulStep s.dns (Parse.parseNetworkServices s.listing) e) :
    (∀ e ∈ (exec (handler MacosRedirector) (session requests) ws
        (new port { s with applied := .none })).events,
      ∀ saved, e.after.redirector.applied = .shell saved → ∀ p ∈ saved, p.2 = s.dns p.1) ∧
    (∀ before, requests = before ++ [.disconnect] →
      (exec (handler MacosRedirector) (session requests) ws
        (new port { s with applied := .none })).state.redirector.dns = s.dns) := by
  have h₀ : Settled (Macos.Snapshot s.dns (Parse.parseNetworkServices s.listing))
      (Macos.Original s.dns (Parse.parseNetworkServices s.listing))
      (new port { s with applied := .none }) := new_settled port ⟨rfl, rfl, rfl⟩
  have hk := keeps_snapshots hv hn
  constructor
  · intro e he saved hs p hp
    rcases (((session_safe hk requests h₀).exec ws hA).1 e he).either with hup | hdown
    · rw [hup.applied] at hs
      obtain rfl := Macos.Applied.shell.inj hs
      obtain ⟨svc, _, rfl⟩ := List.mem_map.mp hp
      rfl
    · rw [hdown.applied] at hs
      exact absurd hs (by simp)
  · rintro before rfl
    have hlast : Safe (handler MacosRedirector)
        (CarefulStep s.dns (Parse.parseNetworkServices s.listing)) (fun _ => True)
        (fun _ t => t.redirector.dns = s.dns) (session (before ++ [.disconnect]))
        (new port { s with applied := .none }) := by
      rw [session, Prog.each_append]
      refine safe_bind.mpr ((session_safe hk before h₀).mono (fun _ h => h) (fun _ _ => trivial)
        fun _ t ht => safe_bind.mpr ?_)
      exact (disconnect_safe hk ht).mono (fun _ h => h) (fun _ _ => trivial)
        fun _ u hu => (hu.1.down hu.2.2).dns
    exact (hlast.exec ws hA).2

/-- What the two services meet when only the dynamic store is missing. -/
theorem snapshots_survive_twoServices :
    (exec (handler MacosRedirector) (session [.connect .cloudflare, .disconnect])
      (List.replicate 4 default ++ [⟨.ok, [.fails "no session"]⟩])
      (new 53 { Macos.twoServices with applied := .none })).state.redirector.dns =
      Macos.twoServices.dns := by
  have hgood : ∀ e ∈ (exec (handler MacosRedirector) (session [.connect .cloudflare, .disconnect])
      (List.replicate 4 default ++ [⟨.ok, [.fails "no session"]⟩])
      (new 53 { Macos.twoServices with applied := .none })).events,
      ∀ ev ∈ osEvents e, ev.call.setsKey = false ∧ (ev.choice = .ok ∨ ev.call = .createStore) := by
    decide +kernel
  have hv : ∀ svc, ∀ server ∈ Macos.twoServices.dns svc, Text.isIpAddr server.toList = true := by
    intro svc server hs
    rw [List.mem_singleton.mp hs]
    decide
  have hn : (Parse.parseNetworkServices Macos.twoServices.listing).Nodup := by decide +kernel
  refine (snapshots_survive 53 Macos.twoServices hv hn _ _ fun e he ev hev => ?_).2
    [.connect .cloudflare] rfl
  obtain ⟨hkey, hok | hstore⟩ := hgood e he ev hev
  · exact ⟨fun h => absurd (hkey.symm.trans h) (by simp), fun _ _ => .inl hok, fun _ _ => .inl hok⟩
  · exact ⟨fun h => absurd (hkey.symm.trans h) (by simp),
      fun _ h => by rw [hstore] at h; exact absurd h (by simp [Macos.Call.gets]),
      fun _ h => by rw [hstore] at h; exact absurd h (by simp [Macos.Call.sets])⟩

/-- **A retry snapshots the proxy.**  The first `connect` sets Wi-Fi and fails on
Ethernet, the second records what it finds, and although every command of the
`disconnect` succeeds, Wi-Fi is left with the proxy. -/
theorem snapshot_of_proxy :
    let r := exec (handler MacosRedirector)
      (session [.connect .cloudflare, .connect .cloudflare, .disconnect])
      (List.replicate 4 default ++
        [⟨.ok, [.fails "no session", .ok, .ok, .ok, .ok, .fails "denied"]⟩] ++
        List.replicate 7 default ++ [⟨.ok, [.fails "no session"]⟩])
      (new 53 Macos.twoServices)
    (∀ e ∈ r.events, ∀ ev ∈ osEvents e, ev.call.setsKey = false) ∧
      (∀ e ∈ r.events, e.call.isRestore = true → ∀ ev ∈ osEvents e, ev.choice = .ok) ∧
      (∃ e ∈ r.events, e.after.redirector.applied =
        .shell [("Wi-Fi", ["127.0.0.1"]), ("Ethernet", ["9.9.9.9"])]) ∧
      r.state.redirector.dns "Wi-Fi" = ["127.0.0.1"] ∧
      Macos.twoServices.dns "Wi-Fi" = ["9.9.9.9"] := by decide +kernel

end Voidns.Controller
