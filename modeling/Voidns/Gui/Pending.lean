import Voidns.Gui.World

/-!
# A disconnect that is still to come

Nothing orders the commands of the window: each has its own connection, and the
mutex goes to the handlers in the order in which they asked for it.  What can be
said of the end of a run is what the last command to be served does.  So the
results about ends of runs go by a `Disconnect` that the service has not answered
yet (`Disconnecting`): on its way, in the queue, or holding the mutex.  It stays
one of these until it has been served (`disconnecting_service`), and then there is
no proxy.
-/

namespace Voidns.Gui

open Steps Controller

variable {ω ρ : Type}

/-- The command has not been read yet. -/
def Stage.unread : Stage → Bool
  | .calling | .accepted _ => true
  | .taken _ => false

namespace World

/-- A `Disconnect` that the service has not answered yet. -/
def Disconnecting (w : World ρ) : Prop :=
  (∃ r ∈ w.requests, r.cmd = .disconnect ∧ r.stage.unread = true) ∨
    (∃ x ∈ w.daemon.queue, x.cmd = .disconnect) ∨ ∃ x ∈ w.daemon.holder, x.cmd = .disconnect

instance (w : World ρ) : Decidable w.Disconnecting := inferInstanceAs (Decidable (_ ∨ _ ∨ _))

/-- No request is pending: nothing is suspended, and all that was sent has been
served. -/
def Served (w : World ρ) : Prop :=
  (∀ r ∈ w.requests, r.await = none ∧ r.stage.unread = false) ∧
    w.daemon.queue = [] ∧ w.daemon.holder = none

instance (w : World ρ) : Decidable w.Served := inferInstanceAs (Decidable (_ ∧ _ ∧ _))

theorem Served.not_disconnecting {w : World ρ} (h : Served w) : ¬ w.Disconnecting := by
  obtain ⟨hr, hq, hh⟩ := h
  rintro (⟨r, hin, _, hu⟩ | ⟨x, hin, _⟩ | ⟨x, hin, _⟩)
  · exact absurd ((hr r hin).2.symm.trans hu) (by simp)
  · rw [hq] at hin
    exact absurd hin (by simp)
  · rw [hh] at hin
    exact absurd hin (by simp)

/-- The requests on one connection are one command. -/
def Alone (w : World ρ) : Prop :=
  ∀ r ∈ w.requests, ∀ q ∈ w.requests, ∀ i, r.stage = .accepted i → q.stage = .accepted i →
    r.cmd = q.cmd

theorem Alone.of_sub {w w' : World ρ} (h : Alone w)
    (hsub : ∀ r ∈ w'.requests, ∀ i, r.stage = .accepted i →
      ∃ q ∈ w.requests, q.stage = .accepted i ∧ q.cmd = r.cmd) : Alone w' := by
  intro r hr q hq i hri hqi
  obtain ⟨r₀, hr₀, hr₀i, hrcmd⟩ := hsub r hr i hri
  obtain ⟨q₀, hq₀, hq₀i, hqcmd⟩ := hsub q hq i hqi
  rw [← hrcmd, ← hqcmd]
  exact h r₀ hr₀ q₀ hq₀ i hr₀i hq₀i

/-- What a function sends is not on a connection yet. -/
theorem mem_next {w : World ρ} {n : App.Next} {r : Request} (h : r ∈ (w.next n).requests) :
    r ∈ w.requests ∨ r.stage = .calling := by
  rcases List.mem_append.mp h with h | h
  · exact .inl h
  · obtain ⟨sent, _, rfl⟩ := Option.map_eq_some_iff.mp (Option.mem_toList.mp h)
    exact .inr rfl

theorem Alone.next {w : World ρ} (h : Alone w) (n : App.Next) : Alone (w.next n) := by
  refine h.of_sub fun r hr i hi => ?_
  rcases mem_next hr with hr | hr
  · exact ⟨r, hr, hi, rfl⟩
  · exact absurd (hr.symm.trans hi) (by simp)

theorem Alone.take {w : World ρ} (h : Alone w) (i : Nat) :
    Alone { w with requests := w.requests.map (Request.take i) } := by
  refine h.of_sub fun r hr j hj => ?_
  obtain ⟨q, hq, rfl⟩ := List.mem_map.mp hr
  unfold Request.take at hj ⊢
  split at hj
  · exact absurd hj (by simp)
  · rename_i hi
    rw [if_neg hi]
    exact ⟨q, hq, hj, rfl⟩

theorem reach_alone {R : DnsRedirector ω ρ} {A : Label ω → World ρ → Prop} {port : UInt16}
    {redirector : ρ} {w : World ρ} (h : Reach (step R) A (new port redirector) w) : Alone w := by
  induction h with
  | init => exact fun r hr => absurd hr (by simp [new])
  | @next w w' l hr _ hs ih =>
    have hlinked := reach_linked hr
    have herase : ∀ k, Alone { w with requests := w.requests.eraseIdx k } := fun k =>
      ih.of_sub fun r hr i hi => ⟨r, (List.eraseIdx_sublist _ _).subset hr, hi, rfl⟩
    cases step_moves hs with
    | user | mounted => exact ih.next _
    | tick | register | subscribe | emit | unsubscribe => exact ih
    | @dial k r d _ _ _ =>
      -- its connection is a new one
      have hnew : ∀ q ∈ w.requests, q.stage ≠ .accepted w.daemon.conns.length := fun q hq hi =>
        absurd (hlinked.bound _ (hlinked.taken q hq _ (.inl hi))) (Nat.lt_irrefl _)
      intro r hr q hq i hri hqi
      rcases List.mem_or_eq_of_mem_set hr with hr | rfl <;>
        rcases List.mem_or_eq_of_mem_set hq with hq | rfl
      · exact ih r hr q hq i hri hqi
      · exact absurd (hri.trans (hqi ▸ rfl)) (hnew r hr)
      · exact absurd (hqi.trans (hri ▸ rfl)) (hnew q hq)
      · rfl
    | resolve => exact (herase _).next _
    | @reject k r _ _ hk _ =>
      refine Alone.next ?_ _
      unfold requestsFailed
      split
      · refine ih.of_sub fun q hq i hi => ?_
        rcases List.mem_or_eq_of_mem_set hq with hq | rfl
        · exact ⟨q, hq, hi, rfl⟩
        · exact ⟨r, List.mem_of_getElem? hk, hi, rfl⟩
      · exact herase k
    | restart =>
      refine ih.of_sub fun r hr i hi => ?_
      obtain ⟨q, hq, rfl⟩ := List.mem_map.mp hr
      exact ⟨q, (List.mem_filter.mp hq).1, hi, rfl⟩
    | @service l d _ _ =>
      cases l with
      | recv i cmd => exact ih.take i
      | hangup i => exact ih.take i
      | _ => exact ih

/-! ### Until it is served -/

/-- The requests change so that none with a `Disconnect` is lost. -/
theorem Disconnecting.requests {w w' : World ρ} (h : w.Disconnecting) (hd : w'.daemon = w.daemon)
    (hrs : ∀ r ∈ w.requests, r.cmd = .disconnect → r.stage.unread = true →
      ∃ q ∈ w'.requests, q.cmd = .disconnect ∧ q.stage.unread = true) : w'.Disconnecting := by
  rcases h with ⟨r, hr, hcmd, hu⟩ | h
  · exact .inl (hrs r hr hcmd hu)
  · refine .inr ?_
    rw [hd]
    exact h

theorem Disconnecting.next {w : World ρ} (h : w.Disconnecting) (n : App.Next) :
    Disconnecting (w.next n) :=
  h.requests rfl fun r hr hcmd hu => ⟨r, List.mem_append_left _ hr, hcmd, hu⟩

/-- One that has been read is dropped. -/
theorem Disconnecting.erase {w : World ρ} (h : w.Disconnecting) {k : Nat} {r : Request}
    (hk : w.requests[k]? = some r) (hu : r.stage.unread = false) :
    Disconnecting { w with requests := w.requests.eraseIdx k } := by
  refine h.requests rfl fun q hq hcmd hqu => ⟨q, ?_, hcmd, hqu⟩
  obtain ⟨j, hj⟩ := List.mem_iff_getElem?.mp hq
  refine List.mem_eraseIdx_iff_getElem?.mpr ⟨j, fun hjk => ?_, hj⟩
  subst hjk
  rw [Option.some.inj (hj.symm.trans hk)] at hqu
  exact absurd (hu.symm.trans hqu) (by simp)

/-- One is dialled. -/
theorem Disconnecting.set {w : World ρ} (h : w.Disconnecting) {k : Nat} {r : Request} (r' : Request)
    (hk : w.requests[k]? = some r) (hcmd : r'.cmd = r.cmd) (hu : r'.stage.unread = true) :
    Disconnecting { w with requests := w.requests.set k r' } := by
  have hlt : k < w.requests.length := (List.getElem?_eq_some_iff.mp hk).1
  refine h.requests rfl fun q hq hqcmd hqu => ?_
  obtain ⟨j, hj⟩ := List.mem_iff_getElem?.mp hq
  by_cases hjk : k = j
  · subst hjk
    obtain rfl := Option.some.inj (hj.symm.trans hk)
    exact ⟨r', List.mem_of_getElem? (List.getElem?_set_self hlt), hcmd.trans hqcmd, hu⟩
  · exact ⟨q, List.mem_of_getElem? ((List.getElem?_set_ne hjk).trans hj), hqcmd, hqu⟩

/-- Its reply comes after it has been read. -/
theorem reply_unread {w : World ρ} {r : Request} {e : Event} (h : w.reply r = some e) :
    r.stage.unread = false := by
  unfold reply at h
  split at h
  · rename_i hst
    rw [hst]
    rfl
  · exact absurd h (by simp)

/-- The window's own steps, in which no request is dropped. -/
def Keeps : Label ω → Prop
  | .restart | .reject .. | .service _ => False
  | _ => True

theorem Disconnecting.moves {R : DnsRedirector ω ρ} {l : Label ω} {w w' : World ρ}
    (h : w.Disconnecting) (hm : Moves R w l w') (hl : Keeps l) : w'.Disconnecting := by
  cases hm with
  | user a => exact h.next _
  | tick | register | emit | unsubscribe => exact h
  | mounted => exact Disconnecting.next (w := { w with mount := .mounted }) h _
  | @dial k r d hk _ hd =>
    obtain rfl := Daemon.step_accept hd
    exact h.set { r with stage := .accepted w.daemon.conns.length } hk rfl rfl
  | resolve hk _ he => exact (h.erase hk (reply_unread he)).next _
  | subscribe _ hd =>
    obtain rfl := Daemon.step_accept hd
    exact h
  | reject | restart | service => exact absurd hl id

/-- A `Disconnect` is served or still to come after a step of the daemon that
hangs up on nobody. -/
theorem Linked.disconnecting_service {R : DnsRedirector ω ρ} {l : Daemon.Label ω} {w : World ρ}
    {d : Daemon ρ} (h : Linked w) (ha : Alone w) (hl : w.allows l)
    (hs : Daemon.step R l w.daemon = some d) (hhang : ∀ i, l ≠ .hangup i) (hd : w.Disconnecting) :
    Disconnecting { w with daemon := d, requests := w.requestsAfter l } ∨
      ∃ x reply, w.daemon.holder = some x ∧ x.cmd = .disconnect ∧ x.rest = .ret reply ∧
        d.controller = w.daemon.controller ∧ d.holder = none := by
  have hsame : ∀ {e : Daemon ρ}, e.queue = w.daemon.queue → e.holder = w.daemon.holder →
      Disconnecting { w with daemon := e } := by
    intro e hq hh
    unfold Disconnecting
    dsimp only
    rw [hq, hh]
    exact hd
  obtain ⟨hmoves, _⟩ := Daemon.step_moves hs
  cases hmoves with
  | listen | serveError | exit | shutdown => exact absurd hl id
  | accept | updateValue | updateLagged | write => exact .inl (hsame rfl rfl)
  | hangup => exact absurd rfl (hhang _)
  | @recvNow i c cmd reply hc hp hret =>
    obtain ⟨rfl, _⟩ := Daemon.dispatch_ret hret
    refine .inl ?_
    rcases hd with ⟨r, hr, hcmd, hu⟩ | hd
    · refine .inl ⟨r.take i, List.mem_map_of_mem hr, ?_, ?_⟩
      · unfold Request.take
        split <;> exact hcmd
      · unfold Request.take
        split
        · rename_i hi
          exact absurd (hl (h.taken r hr i (.inl hi))) h.not_ping
        · exact hu
    · exact .inr hd
  | @recvWait i c cmd call k hc hp _ =>
    refine .inl ?_
    rcases hd with ⟨r, hr, hcmd, hu⟩ | ⟨x, hx, hcmd⟩ | hd
    · by_cases hi : r.stage = .accepted i
      · -- it is this one that is read
        have hread := hl (h.taken r hr i (.inl hi))
        obtain ⟨q, hq, hqi, hqcmd⟩ : ∃ q ∈ w.requests, q.stage = .accepted i ∧ q.cmd = cmd := by
          unfold expected at hread
          split at hread
          · rename_i q hfind
            have hqi := List.find?_some hfind
            exact ⟨q, List.mem_of_find?_eq_some hfind, of_decide_eq_true hqi,
              Option.some.inj hread⟩
          · rename_i hnone
            exact absurd (decide_eq_true hi) (by simpa using List.find?_eq_none.mp hnone r hr)
        refine .inr (.inl ⟨⟨.conn i, cmd⟩, by simp, ?_⟩)
        rw [← hqcmd, ← hcmd]
        exact ha q hq r hr i hqi hi
      · refine .inl ⟨r, List.mem_map.mpr ⟨r, hr, ?_⟩, hcmd, hu⟩
        rw [Request.take, if_neg hi]
    · exact .inr (.inl ⟨x, List.mem_append_left _ hx, hcmd⟩)
    · exact .inr (.inr hd)
  | @grant waiter queue hh hq =>
    refine .inl ?_
    rcases hd with hd | ⟨x, hx, hcmd⟩ | ⟨x, hx, _⟩
    · exact .inl hd
    · rw [hq] at hx
      rcases List.mem_cons.mp hx with rfl | hx
      · exact .inr (.inr ⟨_, rfl, hcmd⟩)
      · exact .inr (.inl ⟨x, hx, hcmd⟩)
    · rw [hh] at hx
      exact absurd hx (by simp)
  | @call x c k v hh _ =>
    refine .inl ?_
    rcases hd with hd | hd | ⟨y, hy, hcmd⟩
    · exact .inl hd
    · exact .inr (.inl hd)
    · rw [hh] at hy
      rw [← Option.some.inj hy] at hcmd
      exact .inr (.inr ⟨_, rfl, hcmd⟩)
  | @releaseMain x reply hh hr _ =>
    rcases hd with hd | hd | ⟨y, hy, hcmd⟩
    · exact .inl (.inl hd)
    · exact .inl (.inr (.inl hd))
    · obtain rfl := Option.some.inj (hh.symm.trans hy)
      exact .inr ⟨x, reply, hh, hcmd, hr, rfl, rfl⟩
  | @releaseConn x reply _ _ hh hr _ _ =>
    rcases hd with hd | hd | ⟨y, hy, hcmd⟩
    · exact .inl (.inl hd)
    · exact .inl (.inr (.inl hd))
    · obtain rfl := Option.some.inj (hh.symm.trans hy)
      exact .inr ⟨x, reply, hh, hcmd, hr, rfl, rfl⟩

/-- **A `Disconnect` still to come stays so until it has been served**, and then
there is no proxy. -/
theorem reach_disconnecting_service {R : DnsRedirector ω ρ} {A : Label ω → World ρ → Prop}
    {port : UInt16} {redirector : ρ} {w : World ρ} (h : Reach (step R) A (new port redirector) w)
    {l : Daemon.Label ω} {d : Daemon ρ} (hl : w.allows l) (hs : Daemon.step R l w.daemon = some d)
    (hhang : ∀ i, l ≠ .hangup i) (hd : w.Disconnecting) :
    Disconnecting { w with daemon := d, requests := w.requestsAfter l } ∨
      d.controller.proxy = none ∧ d.controller.status = .disconnected ∧ d.holder = none := by
  rcases (reach_linked h).disconnecting_service (reach_alone h) hl hs hhang hd with
    hd | ⟨x, reply, hx, hcmd, hret, hc, hfree⟩
  · exact .inl hd
  · have hend := Daemon.reach_turn (reach_daemon h) x hx
    rw [hret] at hend
    rw [hc]
    exact .inr ⟨(hend hcmd).1, (hend hcmd).2, hfree⟩

end World

end Voidns.Gui
