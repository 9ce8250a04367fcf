import Voidns.Gui.Provider

/-!
# The user's last word

A click that the window takes as disconnect or cancel sends a `Disconnect`, on a
connection of its own.  A `Connect` sent before it, or by a `reconnectFor` that
was suspended when it came, may reach the mutex after it, and then the service
connects.  As long as every `Connect` gets the mutex while a `Disconnect` is still
to come, the service ends disconnected.
-/

namespace Voidns.Gui.World

open Steps Controller

variable {ω ρ : Type}

/-- Nothing more is clicked, and no call fails. -/
def Untouched : Label ω → World ρ → Prop
  | .user _, _ | .restart, _ => False
  | .service (.hangup i), w => ∀ r ∈ w.requests, r.stage ≠ .accepted i
  | l, w => Answered l w

instance : ∀ (l : Label ω) (w : World ρ), Decidable (Untouched l w)
  | .user _, _ | .restart, _ | .reject .., _ => isFalse id
  | .service (.hangup _), w => inferInstanceAs (Decidable (∀ r ∈ w.requests, _))
  | .tick, _ | .register, _ | .mounted, _ | .dial _, _ | .resolve _, _ | .subscribe, _
  | .emit, _ | .unsubscribe, _ | .service .listen, _ | .service (.serveError _), _
  | .service .accept, _ | .service (.recv ..), _ | .service .grant, _ | .service (.call _), _
  | .service .release, _ | .service (.update _), _ | .service (.write ..), _
  | .service .shutdown, _ | .service .exit, _ => isTrue trivial

/-- The command is a `Connect`. -/
def connects : Command → Bool
  | .connect _ => true
  | .ping | .getStatus | .subscribe | .disconnect => false

/-- A `Connect` gets the mutex only while a `Disconnect` is still to come. -/
def Covered : Label ω → World ρ → Prop
  | .service .grant, w => ∀ x ∈ w.daemon.queue.head?, connects x.cmd = true → w.Disconnecting
  | l, w => Untouched l w

instance : ∀ (l : Label ω) (w : World ρ), Decidable (Covered l w)
  | .service .grant, w => inferInstanceAs (Decidable (∀ x ∈ w.daemon.queue.head?, _ → _))
  | .user _, _ | .restart, _ | .reject .., _ => isFalse id
  | .service (.hangup _), w => inferInstanceAs (Decidable (∀ r ∈ w.requests, _))
  | .tick, _ | .register, _ | .mounted, _ | .dial _, _ | .resolve _, _ | .subscribe, _
  | .emit, _ | .unsubscribe, _ | .service .listen, _ | .service (.serveError _), _
  | .service .accept, _ | .service (.recv ..), _ | .service (.call _), _
  | .service .release, _ | .service (.update _), _ | .service (.write ..), _
  | .service .shutdown, _ | .service .exit, _ => isTrue trivial

/-- Disconnected, with no `Connect` under way. -/
def Down (d : Daemon ρ) : Prop :=
  d.controller.status.state = .disconnected ∧ ∀ x ∈ d.holder, connects x.cmd = false

/-- The daemon stays down while it is asked for other things. -/
theorem Down.step {R : DnsRedirector ω ρ} {l : Daemon.Label ω} {d e : Daemon ρ} (h : Down d)
    (hne : ∀ x ∈ d.holder, x.cmd ≠ .disconnect)
    (hturn : ∀ x, d.holder = some x → Effect.Safe (handler R) (fun _ => True) (Daemon.Asks x.cmd)
      (fun _ t => Daemon.Ended x.cmd t) x.rest d.controller)
    (hgrant : l = .grant → ∀ x ∈ d.queue.head?, connects x.cmd = false)
    (hs : Daemon.step R l d = some e) : Down e := by
  obtain ⟨hmoves, _⟩ := Daemon.step_moves hs
  cases hmoves with
  | listen | serveError | accept | shutdown | exit | recvNow | recvWait | hangup | updateValue
    | updateLagged | write => exact h
  | grant hh hq =>
    refine ⟨h.1, fun x hx => ?_⟩
    rw [← Option.some.inj hx]
    exact hgrant rfl _ (by rw [hq]; rfl)
  | @call x c k v hh hr =>
    have hasks := h.2 x hh
    have hsafe := hturn x hh
    rw [hr] at hsafe
    have hsame : (handler R c v d.controller).2 = d.controller := by
      refine (hsafe v trivial).1 (fun u hu => ?_) (hne x hh)
      rw [hu] at hasks
      exact absurd hasks (by simp [connects])
    refine ⟨?_, fun y hy => ?_⟩
    · show (handler R c v d.controller).2.status.state = _
      rw [hsame]
      exact h.1
    · rw [← Option.some.inj hy]
      exact hasks
  | releaseMain | releaseConn => exact ⟨h.1, fun x hx => absurd hx (by simp)⟩

/-- A connection that closes with nothing left to read on it loses nothing. -/
theorem Disconnecting.hangup {w : World ρ} (h : w.Disconnecting) {i : Nat}
    (hi : ∀ r ∈ w.requests, r.stage ≠ .accepted i) {d : Daemon ρ} (hq : d.queue = w.daemon.queue)
    (hh : d.holder = w.daemon.holder) :
    Disconnecting { w with daemon := d, requests := w.requests.map (Request.take i) } := by
  have hmap : w.requests.map (Request.take i) = w.requests := by
    refine (List.map_congr_left fun r hr => ?_).trans (List.map_id w.requests)
    rw [Request.take, if_neg (hi r hr)]
    rfl
  unfold Disconnecting
  dsimp only
  rw [hmap, hq, hh]
  exact h

/-- **Down, or a `Disconnect` is to come**, in every run in which that held once. -/
theorem down_or_disconnecting {R : DnsRedirector ω ρ} {port : UInt16} {redirector : ρ}
    {w₁ w : World ρ} (h₁ : Reach (step R) (fun _ _ => True) (new port redirector) w₁)
    (hstart : w₁.Disconnecting) (h : Reach (step R) Covered w₁ w) :
    Down w.daemon ∨ w.Disconnecting := by
  induction h with
  | init => exact .inr hstart
  | @next w w' l hr hA hs ih =>
    have hw := h₁.trans (hr.mono fun _ _ _ => trivial)
    have hmoves := step_moves hs
    by_cases hdisc : w.Disconnecting
    · by_cases hkeeps : Keeps l
      · exact .inr (hdisc.moves hmoves hkeeps)
      cases hmoves with
      | reject | restart => exact absurd hA id
      | @service l d hl hd =>
        by_cases hhang : ∃ i, l = .hangup i
        · obtain ⟨i, rfl⟩ := hhang
          obtain ⟨hmoves, _⟩ := Daemon.step_moves hd
          cases hmoves with
          | hangup => exact .inr (hdisc.hangup hA rfl rfl)
        · rcases reach_disconnecting_service hw hl hd (fun i he => hhang ⟨i, he⟩) hdisc with
            hdisc | ⟨_, hst, hfree⟩
          · exact .inr hdisc
          · -- it has been served
            refine .inl ⟨?_, fun y hy => absurd (hfree ▸ hy : y ∈ none) (by simp)⟩
            show d.controller.status.state = _
            rw [hst]
            rfl
      | _ => exact absurd trivial hkeeps
    · have hdown := ih.resolve_right hdisc
      refine .inl ?_
      cases hmoves with
      | user | restart | reject => exact absurd hA id
      | tick | register | emit | unsubscribe | mounted | resolve => exact hdown
      | subscribe _ hd | dial _ _ hd =>
        obtain rfl := Daemon.step_accept hd
        exact hdown
      | @service l d _ hd =>
        refine hdown.step ?_ (Daemon.reach_turn (reach_daemon hw)) ?_ hd
        · exact fun x hx hcmd => hdisc (.inr (.inr ⟨x, hx, hcmd⟩))
        · rintro rfl x hx
          cases hc : connects x.cmd with
          | false => rfl
          | true => exact absurd (hA x hx hc) hdisc

/-- **The user's last word wins**: after a click that the window takes as
disconnect or cancel, with no other click after it, the service is disconnected
once no request is pending. -/
theorem last_word {R : DnsRedirector ω ρ} {port : UInt16} {redirector : ρ} {w₀ w₁ w : World ρ}
    (h₀ : Reach (step R) (fun _ _ => True) (new port redirector) w₀)
    (hst : w₀.app.status = .connected ∨ w₀.app.status = .connecting)
    (hclick : step R (.user .toggle) w₀ = some w₁) (h : Reach (step R) Covered w₁ w)
    (hserved : w.Served) : w.daemon.controller.status.state = .disconnected := by
  have hsent : w₁.Disconnecting := by
    have hne : ¬ (w₀.app.status = .disconnected ∨ w₀.app.status = .error) := by
      rcases hst with hst | hst <;> rw [hst] <;> simp
    obtain rfl := Option.some.inj hclick
    refine .inl ⟨.new (.realDisconnect, .disconnect), ?_, rfl, rfl⟩
    show _ ∈ w₀.requests ++ ((w₀.app.toggle).2.map Request.new).toList
    rw [App.toggle, if_neg hne]
    simp [App.realDisconnect]
  exact ((down_or_disconnecting (h₀.next _ trivial hclick) hsent h).resolve_right
    hserved.not_disconnecting).1

/-- The window connects, and then is told to disconnect. -/
theorem last_word_connected : ∃ w₀ w : World (String × Option String),
    w₀.app.status = .connected ∧ w₀.daemon.controller.status.state = .connected ∧
      w.daemon.controller.status.state = .disconnected := by
  have hrun : ∃ w₀ ∈ run (step plainRedirector) connecting (new 53 ("9.9.9.9", none)),
      w₀.app.status = .connected ∧ w₀.daemon.controller.status.state = .connected ∧
      ∃ w₁ ∈ step plainRedirector (.user .toggle) w₀,
        Allowed (step plainRedirector) Covered ([.dial 0] ++ disconnection 3 ++ [.resolve 0]) w₁ ∧
        ∃ w ∈ run (step plainRedirector) ([.dial 0] ++ disconnection 3 ++ [.resolve 0]) w₁,
          w.Served := by decide +kernel
  obtain ⟨w₀, h₀, hst, hconn, w₁, hclick, hA, w, h, hserved⟩ := hrun
  exact ⟨w₀, w, hst, hconn, last_word (.of_run (fun _ _ => trivial) _ h₀) (.inl hst) hclick
    (.of_allowed hA h) hserved⟩

/-- The `Disconnect` of connection 3 is served before the `Connect` of connection 2. -/
def overtaking : List (Label Fate) :=
  [.dial 0, .dial 1, .service (.recv 3 .disconnect), .service (.recv 2 (.connect .cloudflare)),
    .service .grant] ++ List.replicate 5 (.service (.call default)) ++
    [.service .release, .service .grant] ++ List.replicate 9 (.service (.call default)) ++
    [.service .release, .service (.write 3 true), .service (.write 2 true)] ++
    hearing ++ hearing ++ hearing ++ [.resolve 1, .resolve 0]

/-- **A cancel that overtakes** the `Connect` it cancels. -/
theorem cancel_overtaken : ¬ ∀ w₀ w₁ w : World (String × Option String),
    Reach (step plainRedirector) Single (new 53 ("9.9.9.9", none)) w₀ →
    w₀.app.status = .connected ∨ w₀.app.status = .connecting →
    step plainRedirector (.user .toggle) w₀ = some w₁ →
    Reach (step plainRedirector) (fun l w => Single l w ∧ Untouched l w) w₁ w →
    w.Quiet → w.Served → w.daemon.controller.status.state = .disconnected := by
  intro hall
  have hrun : Allowed (step plainRedirector) Single (opening ++ [.resolve 0, .user .toggle])
        (new 53 ("9.9.9.9", none)) ∧
      ∃ w₀ ∈ run (step plainRedirector) (opening ++ [.resolve 0, .user .toggle])
        (new 53 ("9.9.9.9", none)), w₀.app.status = .connecting ∧
      ∃ w₁ ∈ step plainRedirector (.user .toggle) w₀,
        Allowed (step plainRedirector) (fun l w => Single l w ∧ Untouched l w) overtaking w₁ ∧
        ∃ w ∈ run (step plainRedirector) overtaking w₁,
          w.Quiet ∧ w.Served ∧ w.daemon.controller.status.state = .connected := by decide +kernel
  obtain ⟨hA₀, w₀, h₀, hst, w₁, hclick, hA, w, h, hq, hserved, hconn⟩ := hrun
  have := hall w₀ w₁ w (.of_allowed hA₀ h₀) (.inr hst) hclick (.of_allowed hA h) hq hserved
  exact absurd (hconn.symm.trans this) (by simp)

end Voidns.Gui.World
