import Voidns.Controller.Settled
import Voidns.Redirect.Record

/-!
# The controller, the proxy and the restore record

Three pieces of state say whether the service is connected: the status, the
proxy and the redirector's record.  `Joint` says that they agree.  It holds
whenever the controller's lock is free, whatever has failed so far, with each
of the three redirectors: `Records` is all that is needed of one, and `Settled`
with the record as `Up` and its absence as `Down` carries the rest.
-/

namespace Voidns.Controller

open Effect

/-- The status, the proxy and the record agree. -/
structure Joint {ρ : Type} (idle : ρ → Bool) (c : Controller ρ) : Prop where
  notConnecting : c.status.state ≠ .connecting
  connected : c.status.state = .connected ↔ c.proxy.isSome
  record : c.proxy.isSome ↔ idle c.redirector = false
  listen : c.status.listen = c.proxy.map fun p => p.listen.text
  upstream : c.status.upstream = c.proxy.map fun p => p.upstream.label
  error : c.status.error.isSome ↔ c.status.state = .error
  running : c.running = c.proxy.toList

theorem keeps_of_records {ω ρ : Type} {R : DnsRedirector ω ρ} {idle : ρ → Bool} (h : Records R idle) :
    Keeps R (fun _ => True) (fun r => idle r = false) (fun r => idle r = true) where
  apply w c _ hd := ⟨h.apply_ok _ _ _, fun e he => by rw [h.apply_error _ _ _ e he, hd]⟩
  restore w c _ _ := h.restore _ _
  flush w r := ⟨fun hr => by rw [h.flush, hr], fun hr => by rw [h.flush, hr]⟩

theorem Settled.joint {ρ : Type} {idle : ρ → Bool} {c : Controller ρ}
    (h : Settled (fun r => idle r = false) (fun r => idle r = true) c) : Joint idle c := by
  cases h with
  | connected p hp hr hs hu =>
    exact ⟨by rw [hs]; simp [connectedStatus], by rw [hs, hp]; simp [connectedStatus],
      by rw [hp, hu]; simp, by rw [hs, hp]; rfl, by rw [hs, hp]; rfl,
      by rw [hs]; simp [connectedStatus], by rw [hr, hp]; rfl⟩
  | disconnected hp hr hs hd =>
    have hidle : c.proxy.isSome ↔ idle c.redirector = false := by rw [hp, hd]; simp
    rcases hs with hs | ⟨e, hs⟩
    · exact ⟨by rw [hs]; simp [Status.disconnected], by rw [hs, hp]; simp [Status.disconnected],
        hidle, by rw [hs, hp]; rfl, by rw [hs, hp]; rfl, by rw [hs]; simp [Status.disconnected],
        by rw [hr, hp]; rfl⟩
    · exact ⟨by rw [hs]; simp [errorStatus], by rw [hs, hp]; simp [errorStatus],
        hidle, by rw [hs, hp]; rfl, by rw [hs, hp]; rfl, by rw [hs]; simp [errorStatus],
        by rw [hr, hp]; rfl⟩

/-- A run of commands from `c` ends in a joint state, has not applied a redirect
over a record, and has not overwritten a proxy. -/
structure JointRun {ω ρ : Type} [Inhabited ω] (R : DnsRedirector ω ρ) (idle : ρ → Bool)
    (requests : List Request) (ws : List (Choice ω)) (c : Controller ρ) : Prop where
  joint : Joint idle (exec (handler R) (session requests) ws c).state
  apply : ∀ e ∈ (exec (handler R) (session requests) ws c).events, ∀ ip, e.call = .apply ip →
    idle e.before.redirector = true
  putProxy : ∀ e ∈ (exec (handler R) (session requests) ws c).events, ∀ p,
    e.call = .putProxy p → e.before.proxy = none

theorem jointRun_of_records {ω ρ : Type} [Inhabited ω] {R : DnsRedirector ω ρ} {idle : ρ → Bool}
    (h : Records R idle) (port : UInt16) (requests : List Request) (ws : List (Choice ω)) {r : ρ}
    (hr : idle r = true) : JointRun R idle requests ws (new port r) := by
  obtain ⟨hB, hQ⟩ := (session_safe (keeps_of_records h) requests (new_settled port hr)).exec_total ws
  exact ⟨hQ.joint, fun e he => (hB e he).apply, fun e he => (hB e he).putProxy⟩

/-- **The three agree after every command**, on each operating system, from a
new redirector on, for every list of commands and every pattern of failures. -/
theorem joint_always (port : UInt16) (requests : List Request) (ws : List (Choice (List Fate))) :
    (∀ s : Linux.System,
      JointRun LinuxRedirector Linux.idle requests ws (new port { s with active := .idle })) ∧
    (∀ s : Macos.System,
      JointRun MacosRedirector Macos.idle requests ws (new port { s with applied := .none })) ∧
    (∀ s : Windows.System,
      JointRun WindowsRedirector Windows.idle requests ws (new port { s with applied := .none })) :=
  ⟨fun _ => jointRun_of_records LinuxRedirector_records port requests ws rfl,
    fun _ => jointRun_of_records MacosRedirector_records port requests ws rfl,
    fun _ => jointRun_of_records WindowsRedirector_records port requests ws rfl⟩

end Voidns.Controller
