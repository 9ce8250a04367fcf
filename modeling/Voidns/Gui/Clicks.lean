import Mathlib.Algebra.BigOperators.Group.List.Basic
import Mathlib.Algebra.Order.BigOperators.Group.List
import Mathlib.Algebra.Order.Group.Nat
import Mathlib.Algebra.Ring.Nat
import Voidns.Gui.LastWord

/-!
# Clicks

The GUI never connects by itself.  A click on the big button may send a `Connect`
at once; a click on a provider may have a `reconnectFor` send one when its
`Disconnect` is answered or has failed.  Nothing else sends one, and none is read
twice: so the service reads no more of them from the GUI than there have been such
clicks, whatever happens in between.

The proof is by a potential: what the requests of the window still owe.
-/

namespace Voidns.Gui

open Steps Controller

/-- The `Connect`s a request stands for: its own until it is read, and the one a
`reconnectFor` goes on to. -/
def Request.owed (r : Request) : Nat :=
  (if World.connects r.cmd = true ∧ r.stage.unread = true then 1 else 0) +
    if r.await = some .reconnectDisconnect then 1 else 0

namespace World

variable {ω ρ : Type} {R : DnsRedirector ω ρ}

/-- The clicks that mean to connect: on the big button while it shows no connection,
and on another provider while it shows one; neither at the token gate. -/
def clicked : Label ω → World ρ → Nat
  | .user .toggle, w =>
    if (w.app.status = .disconnected ∨ w.app.status = .error) ∧
      ¬ (w.app.providerId = "voidns" ∧ w.app.token = "") then 1 else 0
  | .user (.selectProvider id), w => if id ≠ w.app.providerId ∧ w.app.reconnects id then 1 else 0
  | _, _ => 0

/-- The `Connect`s that the service reads on connections of the GUI. -/
def asked : Label ω → World ρ → Nat
  | .service (.recv i (.connect _)), w => if i ∈ w.own then 1 else 0
  | _, _ => 0

/-- What the requests owe. -/
def owed (w : World ρ) : Nat := (w.requests.map Request.owed).sum

theorem owed_next (w : World ρ) (n : App.Next) :
    owed (w.next n) = w.owed + (n.2.map fun sent => (Request.new sent).owed).getD 0 := by
  show ((w.requests ++ (n.2.map Request.new).toList).map Request.owed).sum = _
  rw [List.map_append, List.sum_append]
  cases n.2 <;> simp [owed]

theorem owed_erase {rs : List Request} {k : Nat} {r : Request} (hk : rs[k]? = some r) :
    r.owed + ((rs.eraseIdx k).map Request.owed).sum = (rs.map Request.owed).sum := by
  obtain ⟨hlt, rfl⟩ := List.getElem?_eq_some_iff.mp hk
  have hlt' : k < (rs.map Request.owed).length := by rw [List.length_map]; exact hlt
  rw [← List.CommMonoid.add_sum_eraseIdx hlt', List.getElem_map, List.eraseIdx_map]

theorem owed_set {rs : List Request} {k : Nat} {r : Request} (hk : rs[k]? = some r) (r' : Request) :
    r.owed + ((rs.set k r').map Request.owed).sum = r'.owed + (rs.map Request.owed).sum := by
  have hlt : k < rs.length := (List.getElem?_eq_some_iff.mp hk).1
  have hset : r'.owed + (((rs.set k r').eraseIdx k).map Request.owed).sum = _ :=
    owed_erase (List.getElem?_set_self hlt)
  rw [List.eraseIdx_set_eq] at hset
  have := owed_erase hk
  omega

/-- A request that has been read owes no more than before. -/
theorem owed_take (i : Nat) (r : Request) : (r.take i).owed ≤ r.owed := by
  unfold Request.take
  split
  · simp [Request.owed, Stage.unread]
  · exact Nat.le_refl _

theorem owed_orphan (r : Request) :
    r.owed = r.orphan.owed + if r.await = some .reconnectDisconnect then 1 else 0 :=
  rfl

/-- A `Connect` that is read is owed no longer. -/
theorem owed_read {i : Nat} {r : Request} (hi : r.stage = .accepted i) (hcmd : connects r.cmd = true) :
    (r.take i).owed < r.owed := by
  rw [Request.take, if_pos hi]
  simp [Request.owed, Stage.unread, hcmd, hi]

/-- What an action sends is owed to a click. -/
theorem act_owed (w : World ρ) (action : Action) :
    ((w.app.act action).2.map fun sent => (Request.new sent).owed).getD 0 ≤
      clicked (.user action : Label ω) w := by
  have hacts := w.app.act_acts action
  generalize w.app.act action = n at hacts ⊢
  cases hacts with
  | connect hst hgate =>
    rw [clicked, if_pos ⟨hst, hgate⟩]
    exact Nat.le_refl 1
  | disconnect => exact Nat.zero_le _
  | reconnect hid hgate hst =>
    rw [clicked, if_pos ⟨hid, hgate, hst⟩]
    exact Nat.le_refl 1
  | barred | same | gated | select | blank | activate | revive | toggleOpen | typeToken | skipGate
  | openGate => exact Nat.zero_le _

/-- What is sent after an `await` is owed by the request that was awaited. -/
theorem resume_owed (a : App) {aw : Await} {r : Request} (reply : Except String Status)
    (hr : r.await = some aw) :
    ((a.resume aw reply).2.map fun sent => (Request.new sent).owed).getD 0 + r.orphan.owed ≤ r.owed := by
  cases aw with
  | reconnectDisconnect =>
    rw [owed_orphan r, if_pos hr, Nat.add_comm]
    exact Nat.le_refl _
  | onMount | realConnect | realDisconnect | reconnectConnect =>
    rw [owed_orphan r]
    cases reply <;> exact Nat.le_trans (Nat.le_of_eq (Nat.zero_add _)) (Nat.le_add_right _ _)

/-- The handler of an own connection reads what a request has sent. -/
theorem expected_owed {w : World ρ} {i : Nat} {cmd : Command} (he : w.expected i = some cmd)
    (hcmd : connects cmd = true) :
    ∃ r ∈ w.requests, r.stage = .accepted i ∧ connects r.cmd = true := by
  unfold expected at he
  split at he
  · rename_i r hfind
    have hi := List.find?_some hfind
    refine ⟨r, List.mem_of_find?_eq_some hfind, of_decide_eq_true hi, ?_⟩
    rw [Option.some.inj he]
    exact hcmd
  · split at he
    · rw [← Option.some.inj he] at hcmd
      exact absurd hcmd (by simp [connects])
    · exact absurd he (by simp)

/-- **What a step takes is owed.** -/
theorem step_owed {l : Label ω} {w w' : World ρ} (hs : step R l w = some w') :
    asked l w + w'.owed ≤ clicked l w + w.owed := by
  have htake : ∀ i, ((w.requests.map (Request.take i)).map Request.owed).sum ≤ w.owed := by
    intro i
    rw [List.map_map]
    exact List.sum_le_sum fun r _ => owed_take i r
  cases step_moves hs with
  | user a =>
    have hsent : _ ≤ clicked (.user a : Label ω) w := act_owed w a
    show 0 + owed (w.next (w.app.act a)) ≤ _
    rw [owed_next]
    omega
  | tick | register | emit | unsubscribe => exact Nat.le_refl _
  | mounted =>
    show 0 + owed (World.next { w with mount := .mounted } w.app.onMount) ≤ _
    rw [owed_next]
    exact Nat.le_refl _
  | @dial k r d hk hst _ =>
    have hset := owed_set hk { r with stage := .accepted w.daemon.conns.length }
    have hsame : Request.owed { r with stage := .accepted w.daemon.conns.length } = r.owed := by
      simp [Request.owed, hst, Stage.unread]
    show 0 + ((w.requests.set k _).map Request.owed).sum ≤ 0 + w.owed
    rw [owed]
    omega
  | @resolve k r aw e hk haw _ =>
    have hsent := resume_owed w.app (intoStatus (.ok e)) haw
    have herase := owed_erase hk
    show 0 + owed (World.next _ _) ≤ 0 + w.owed
    rw [owed_next, owed, owed]
    dsimp only
    omega
  | @reject k r aw e hk haw =>
    have hsent := resume_owed w.app (intoStatus (.error e)) haw
    have herase := owed_erase hk
    have hset := owed_set hk r.orphan
    show 0 + owed (World.next _ _) ≤ 0 + w.owed
    rw [owed_next, owed, owed]
    dsimp only
    unfold requestsFailed
    split
    · omega
    · omega
  | subscribe => exact Nat.le_refl _
  | restart =>
    show 0 + (((w.requests.filter fun r => r.stage ≠ .calling).map Request.orphan).map
      Request.owed).sum ≤ 0 + w.owed
    have horphan : ((w.requests.map Request.orphan).map Request.owed).sum ≤ w.owed := by
      rw [List.map_map]
      exact List.sum_le_sum fun r _ => owed_orphan r ▸ Nat.le_add_right _ _
    have hfilter := (List.filter_sublist (l := w.requests) (p := fun r => r.stage ≠ .calling))
    have := ((hfilter.map Request.orphan).map Request.owed).sum_le_sum (fun _ _ => Nat.zero_le _)
    omega
  | @service l d hl _ =>
    cases l with
    | recv i cmd =>
      by_cases hread : i ∈ w.own ∧ connects cmd = true
      · obtain ⟨r, hr, hi, hcmd⟩ := expected_owed (hl hread.1) hread.2
        have hlt : ((w.requests.map (Request.take i)).map Request.owed).sum < w.owed := by
          rw [List.map_map]
          exact List.sum_lt_sum _ _ (fun r _ => owed_take i r) ⟨r, hr, owed_read hi hcmd⟩
        have hone : asked (.service (.recv i cmd) : Label ω) w ≤ 1 := by
          cases cmd with
          | connect => rw [asked]; split <;> omega
          | ping | getStatus | subscribe | disconnect => exact Nat.zero_le 1
        show _ + ((w.requests.map (Request.take i)).map Request.owed).sum ≤ 0 + w.owed
        omega
      · have hnone : asked (.service (.recv i cmd) : Label ω) w = 0 := by
          cases cmd with
          | connect => exact if_neg fun hi => hread ⟨hi, rfl⟩
          | ping | getStatus | subscribe | disconnect => rfl
        rw [hnone]
        exact Nat.add_le_add_left (htake i) 0
    | hangup i => exact Nat.add_le_add_left (htake i) 0
    | accept | grant | call | release | update | write | listen | serveError | shutdown | exit =>
      exact Nat.le_refl _

/-- **No `Connect` without a click.**  Whatever fails or overtakes, and however often the
GUI is closed and opened again, the service has read no more `Connect`s on connections of the
GUI than there have been clicks that mean one, less what the requests still owe. -/
theorem connects_clicked {port : UInt16} {redirector : ρ} {ls : List (Label ω)} {w : World ρ}
    (h : run (step R) ls (new port redirector) = some w) :
    total (step R) asked ls (new port redirector) + w.owed ≤
      total (step R) clicked ls (new port redirector) :=
  total_le_of_potential (fun _ _ _ hs => step_owed hs) ls h

/-- A click on the big button and one on another provider. -/
def clicking : List (Label Fate) :=
  connecting ++ [.user (.selectProvider "quad9"), .dial 0] ++ disconnection 3 ++
    [.resolve 0, .dial 0] ++ connection 4 .quad9 ++ [.resolve 0]

theorem connects_clicked_twice : ∃ w : World (String × Option String),
    run (step plainRedirector) clicking (new 53 ("9.9.9.9", none)) = some w ∧
      total (step plainRedirector) asked clicking (new 53 ("9.9.9.9", none)) = 2 ∧
      2 + w.owed ≤ total (step plainRedirector) clicked clicking (new 53 ("9.9.9.9", none)) := by
  have hrun : ∃ w ∈ run (step plainRedirector) clicking (new 53 ("9.9.9.9", none)),
      total (step plainRedirector) asked clicking (new 53 ("9.9.9.9", none)) = 2 := by decide +kernel
  obtain ⟨w, hw, htwo⟩ := hrun
  exact ⟨w, hw, htwo, htwo ▸ connects_clicked hw⟩

end World

end Voidns.Gui
