import Voidns.Gui.World

/-!
# What the window shows

The window has two sources, the replies to its requests and the events of its
subscription, and only the events come in order.  When every event has reached
the window, the last of them is the service's status (`caughtUp_last`), so the
event that arrives last puts the window right.  Two things can put it wrong
after that: a reply that is older than the last event and arrives after it, and
the token gate, which shows an error whatever the service does.
-/

namespace Voidns.Gui.World

open Steps Controller Broadcast

variable {ω ρ : Type}

/-- Every status set so far has reached the window. -/
def CaughtUp (w : World ρ) : Prop :=
  ∃ c ∈ w.sub, c.handled = [.subscribe] ∧ c.phase = .select ∧
    (∀ rx ∈ c.subscription, rx.next = w.daemon.controller.sent.length) ∧
    w.heard = c.written.length

instance (w : World ρ) : Decidable w.CaughtUp := inferInstanceAs (Decidable (∃ c ∈ w.sub, _))

/-- No function of the window is suspended, and all events have arrived. -/
def Quiet (w : World ρ) : Prop :=
  w.mount = .mounted ∧ (∀ r ∈ w.requests, r.await = none) ∧ w.CaughtUp

instance (w : World ρ) : Decidable w.Quiet := inferInstanceAs (Decidable (_ ∧ _ ∧ _))

/-- The window shows connected just when the service is. -/
def Agrees (w : World ρ) : Prop :=
  w.app.status = .connected ↔ w.daemon.controller.status.state = .connected

instance (w : World ρ) : Decidable w.Agrees := inferInstanceAs (Decidable (_ ↔ _))

/-- The last event of the subscription says connected. -/
def lastConnected (w : World ρ) : Prop :=
  ∃ c ∈ w.sub, ∃ s ∈ (Daemon.statuses c).getLast?, s.state = .connected

instance (w : World ρ) : Decidable w.lastConnected :=
  inferInstanceAs (Decidable (∃ c ∈ w.sub, ∃ s ∈ _, _))

/-- With its reply to `k` the service has answered everything, and every event has
arrived before it. -/
def Final (k : Nat) (w : World ρ) : Prop :=
  Quiet { w with requests := w.requests.eraseIdx k }

instance (k : Nat) (w : World ρ) : Decidable (Final k w) := inferInstanceAs (Decidable (Quiet _))

/-- Steps that do not leave the window wrong: no call fails, a reply that arrives
last does not contradict the last event, and the token gate does not come up over
a connection when nothing is under way. -/
def Timely : Label ω → World ρ → Prop
  | .resolve k, w => Final k w → ∀ r ∈ w.requests[k]?, r.await ≠ some .reconnectDisconnect →
      ∀ e ∈ w.reply r, ((∃ s ∈ Daemon.statusOf e, s.state = .connected) ↔ w.lastConnected)
  | .user (.selectProvider id), w => w.app.gated id → w.Quiet → ¬ w.lastConnected
  | .reject .., _ => False
  | _, _ => True

/-- The service is reachable. -/
def Answered : Label ω → World ρ → Prop
  | .reject .., _ => False
  | _, _ => True

instance : ∀ (l : Label ω) (w : World ρ), Decidable (Answered l w)
  | .reject .., _ => isFalse id
  | .user _, _ | .tick, _ | .register, _ | .mounted, _ | .dial _, _ | .resolve _, _
  | .subscribe, _ | .emit, _ | .unsubscribe, _ | .restart, _ | .service _, _ => isTrue trivial

instance : ∀ (l : Label ω) (w : World ρ), Decidable (Timely l w)
  | .resolve k, w => inferInstanceAs (Decidable (Final k w → ∀ r ∈ w.requests[k]?, _ → _))
  | .user (.selectProvider id), w => inferInstanceAs (Decidable (w.app.gated id → w.Quiet → ¬ _))
  | .reject .., _ => isFalse id
  | .user .toggle, _ | .user .toggleOpen, _ | .user (.typeToken _), _ | .user .activateToken, _
  | .user .skipGate, _ | .user .openGate, _ | .tick, _ | .register, _ | .mounted, _ | .dial _, _
  | .subscribe, _ | .emit, _ | .unsubscribe, _ | .restart, _ | .service _, _ => isTrue trivial

/-! ### Caught up -/

/-- **What has arrived last is the service's status.** -/
theorem caughtUp_last {R : DnsRedirector ω ρ} {A : Label ω → World ρ → Prop} {port : UInt16}
    {redirector : ρ} {w : World ρ} (h : Reach (step R) A (new port redirector) w)
    (hc : w.CaughtUp) : ∃ c, w.sub = some c ∧ w.heard = c.written.length ∧
      c.written.getLast? = some (.status w.daemon.controller.status) ∧
      (Daemon.statuses c).getLast? = some w.daemon.controller.status := by
  obtain ⟨c, hsub, hhandled, hp, hdrained, hheard⟩ := hc
  obtain ⟨i, hi, hget⟩ := sub_eq_some.mp hsub
  have hmem := List.mem_of_getElem? hget
  have htold := Daemon.reach_told (reach_daemon h)
  have hf := htold.follows c hmem
  obtain ⟨rx, hrx⟩ := Option.isSome_iff_exists.mp (hf.subscribed (by rw [hhandled]; simp))
  have hlast := hf.current (by simp [hp]) rx hrx (hdrained rx hrx)
  rw [Daemon.said_eq (by simp [hp]), ← htold.status] at hlast
  refine ⟨c, hsub, hheard, ?_, hlast⟩
  -- everything written on the connection is a status
  have hall : ∀ e ∈ c.written, ∃ s, e = .status s := fun e he =>
    (Daemon.reach_informed (reach_daemon h)).conns c hmem (by rw [hhandled]; simp) e
      (by rw [Daemon.events_eq (by simp [hp])]; exact he)
  cases hw : c.written.getLast? with
  | none =>
    rw [List.getLast?_eq_none_iff.mp hw] at hall
    rw [Daemon.statuses, List.getLast?_eq_none_iff.mp hw] at hlast
    exact absurd hlast (by simp)
  | some e =>
    obtain ⟨init, hinit⟩ := List.getLast?_eq_some_iff.mp hw
    obtain ⟨s, rfl⟩ := hall e (by rw [hinit]; simp)
    have hone : [Event.status s].filterMap Daemon.statusOf = [s] := rfl
    rw [Daemon.statuses, hinit, List.filterMap_append, hone, List.getLast?_concat] at hlast
    rw [Option.some.inj hlast]

theorem lastConnected_iff {R : DnsRedirector ω ρ} {A : Label ω → World ρ → Prop} {port : UInt16}
    {redirector : ρ} {w : World ρ} (h : Reach (step R) A (new port redirector) w)
    (hc : w.CaughtUp) : w.lastConnected ↔ w.daemon.controller.status.state = .connected := by
  obtain ⟨c, hsub, _, _, hlast⟩ := caughtUp_last h hc
  constructor
  · rintro ⟨x, hx, s, hs, hst⟩
    obtain rfl := Option.some.inj (hsub.symm.trans hx)
    rw [← Option.some.inj (hlast.symm.trans hs)] at hst
    exact hst
  · intro hst
    exact ⟨c, hsub, _, hlast, hst⟩

/-- A step of the daemon after which the window is caught up has told nobody
anything: the window was caught up before. -/
theorem Linked.caughtUp_back {R : DnsRedirector ω ρ} {l : Daemon.Label ω} {w w' : World ρ}
    (h : Linked w) (htold : Daemon.Told w.daemon.controller w.daemon.conns)
    (hs : Daemon.step R l w.daemon = some w'.daemon) (hstream : w'.stream = w.stream)
    (hheard : w'.heard = w.heard) (hc : w'.CaughtUp) :
    w.CaughtUp ∧ w'.daemon.controller.status = w.daemon.controller.status := by
  obtain ⟨c', hsub, hhandled, hp, hdrained, hall⟩ := hc
  obtain ⟨i, hi, hget'⟩ := sub_eq_some.mp hsub
  rw [hstream] at hi
  obtain ⟨c, hget⟩ : ∃ c, w.daemon.conns[i]? = some c :=
    ⟨_, List.getElem?_eq_getElem (h.bound i (h.stream i hi))⟩
  obtain ⟨x, hx, hbecomes⟩ := Daemon.step_conn hs hget
  obtain rfl := Option.some.inj (hx.symm.trans hget')
  have hle := h.heard _ (sub_eq_some.mpr ⟨i, hi, hget⟩)
  have hf := htold.follows _ (List.mem_of_getElem? hget)
  have hsent := Daemon.step_sent hs
  have hmono : w.daemon.controller.sent.length ≤ w'.daemon.controller.sent.length := by
    rcases hsent with ⟨_, hsent⟩ | ⟨_, _, hsent⟩ <;> simp [hsent]
  rw [hheard] at hall
  cases hbecomes with
  | same =>
    obtain ⟨rx, hrx⟩ := Option.isSome_iff_exists.mp (hf.subscribed (by rw [hhandled]; simp))
    have hnext := hdrained rx hrx
    have hnext_le := hf.next_le rx hrx
    rcases hsent with ⟨hst, hsent⟩ | ⟨_, _, hsent⟩
    · refine ⟨⟨_, sub_eq_some.mpr ⟨i, hi, hget⟩, hhandled, hp, ?_, hall⟩, hst⟩
      rw [← hsent]
      exact hdrained
    · rw [hsent, List.length_append, List.length_singleton] at hnext
      omega
  | lagged hrx hr =>
    have hnext := hdrained _ rfl
    obtain ⟨hlt, hrx'⟩ := recv_lagged hr
    rw [hrx'] at hnext
    have hcap : w.daemon.controller.sent.length - 16 = w'.daemon.controller.sent.length := hnext
    omega
  | @wrote event ok _ =>
    cases ok with
    | false => exact absurd hp (by simp [Conn.wrote])
    | true =>
      have hlen : (c.wrote event true).written.length = c.written.length + 1 := by
        simp [Conn.wrote]
      omega
  | answer | dispatching | closed | value => exact absurd hp (by simp [Conn.answer])

/-! ### When the window is right -/

/-- The functions that send nothing, and do not end at the token gate, leave the
window as connected as it was. -/
theorem act_connected {a : App} {action : Action} (hn : (a.act action).2 = none)
    (hg : ∀ id, action = .selectProvider id → ¬ a.gated id) :
    (a.act action).1.status = .connected ↔ a.status = .connected := by
  have h := a.act_acts action
  generalize a.act action = n at h hn ⊢
  cases h with
  | barred hst _ => rcases hst with hst | hst <;> simp [hst]
  | revive _ hst => simp [hst]
  | gated hgate => exact absurd hgate (hg _ rfl)
  | connect | disconnect | reconnect => exact absurd hn (by simp [App.realConnect, App.realDisconnect])
  | same | select | blank | activate | toggleOpen | typeToken | skipGate | openGate => exact Iff.rfl

theorem Quiet.of_next {w : World ρ} {n : App.Next} (h : Quiet (w.next n)) : n.2 = none ∧ Quiet w := by
  obtain ⟨hm, hr, hc⟩ := h
  refine ⟨?_, hm, fun r hin => hr r (List.mem_append_left _ hin), hc⟩
  cases hn : n.2 with
  | none => rfl
  | some sent => exact absurd (hr (.new sent) (by simp [World.next, hn])) (by simp [Request.new])

/-- The service answers the window with statuses only. -/
theorem Linked.reply_status {w : World ρ} (h : Linked w) (hinf : Daemon.Informed w.daemon)
    {r : Request} (hr : r ∈ w.requests) {e : Event} (he : w.reply r = some e) :
    ∃ s, e = .status s := by
  unfold reply at he
  split at he
  · rename_i i hst
    obtain ⟨c, hc, hhead⟩ := Option.bind_eq_some_iff.mp he
    refine hinf.conns c (List.mem_of_getElem? hc) (h.plain i (h.taken r hr i (.inr hst)) c hc) e ?_
    exact List.mem_append_left _ (List.mem_of_mem_head? hhead)
  · exact absurd he (by simp)

/-- A reply that nothing follows is applied. -/
theorem resume_status {a : App} {aw : Await} {s : Status} (h : (a.resume aw (.ok s)).2 = none) :
    aw ≠ .reconnectDisconnect ∧ (a.resume aw (.ok s)).1.status = s.state := by
  cases aw with
  | reconnectDisconnect => exact absurd h (by simp [App.resume, App.reconnect])
  | onMount | realConnect | realDisconnect | reconnectConnect =>
    exact ⟨nofun, App.applyStatus_status a s⟩

/-- Whether a request is awaited does not depend on where it is. -/
theorem await_none_of_map {rs rs' : List Request} (he : rs'.map Request.await = rs.map Request.await)
    (h : ∀ r ∈ rs', r.await = none) : ∀ r ∈ rs, r.await = none := by
  intro r hr
  have hin : r.await ∈ rs'.map Request.await := he ▸ List.mem_map_of_mem hr
  obtain ⟨q, hq, hqr⟩ := List.mem_map.mp hin
  rw [← hqr]
  exact h q hq

theorem take_await (rs : List Request) (i : Nat) :
    (rs.map (Request.take i)).map Request.await = rs.map Request.await := by
  rw [List.map_map]
  refine List.map_congr_left fun r _ => ?_
  show (r.take i).await = r.await
  unfold Request.take
  split <;> rfl

/-- The token gate shows an error, and sends nothing. -/
theorem act_gated {a : App} {id : String} (h : a.gated id) :
    (a.act (.selectProvider id)).2 = none ∧
      (a.act (.selectProvider id)).1.status = .error := by
  show (a.selectProvider id).2 = none ∧ (a.selectProvider id).1.status = .error
  rw [App.selectProvider, if_neg h.1, if_pos h.2]
  exact ⟨rfl, rfl⟩

theorem Quiet.next {w : World ρ} {n : App.Next} (h : Quiet w) (hn : n.2 = none) :
    Quiet (w.next n) := by
  have hreq : (w.next n).requests = w.requests := by simp [World.next, hn]
  exact ⟨h.1, by rw [hreq]; exact h.2.1, h.2.2⟩

/-- How a step gets to a quiet window. -/
inductive Quietens (w : World ρ) : Label ω → World ρ → Prop
  /-- The window was quiet before, and is as connected as it was. -/
  | same {l : Label ω} {w' : World ρ} : w.Quiet →
      (w'.app.status = .connected ↔ w.app.status = .connected) →
      w'.daemon.controller.status = w.daemon.controller.status → Quietens w l w'
  /-- The token gate comes up. -/
  | gated {id : String} {w' : World ρ} : w.app.gated id → w.Quiet → w'.app.status = .error →
      w'.daemon = w.daemon → Quietens w (.user (.selectProvider id)) w'
  /-- The last event arrives. -/
  | event {w' : World ρ} : w'.app.status = w'.daemon.controller.status.state → Quietens w .emit w'
  /-- The last reply arrives. -/
  | reply {k : Nat} {r : Request} {s : Status} {w' : World ρ} : Final k w →
      w.requests[k]? = some r → r.await ≠ some .reconnectDisconnect →
      w.reply r = some (.status s) → w'.app.status = s.state → w'.daemon = w.daemon →
      Quietens w (.resolve k) w'
  /-- The last call fails. -/
  | failed {k : Nat} {e : String} {r : Request} {w' : World ρ} : Final k w →
      w.requests[k]? = some r →
      (r.await = some .onMount ∧ w'.app.status = w.app.status ∨ w'.app.status ≠ .connected) →
      w'.daemon = w.daemon → Quietens w (.reject k e) w'

/-- What is left of the requests after one has failed is awaited as before. -/
theorem requestsFailed_await {w : World ρ} {k : Nat} {r : Request}
    (h : ∀ q ∈ w.requestsFailed k r, q.await = none) : ∀ q ∈ w.requests.eraseIdx k, q.await = none := by
  intro q hq
  unfold requestsFailed at h
  split at h
  · obtain ⟨j, hj, hget⟩ := List.mem_eraseIdx_iff_getElem?.mp hq
    refine h q (List.mem_of_getElem? (i := j) ?_)
    rw [List.getElem?_set_ne (Ne.symm hj), hget]
  · exact h q hq

/-- A call that fails connects nothing. -/
theorem resume_error {a : App} {aw : Await} {e : String} (h : (a.resume aw (.error e)).2 = none) :
    aw = .onMount ∧ (a.resume aw (.error e)).1.status = a.status ∨
      (a.resume aw (.error e)).1.status ≠ .connected := by
  cases aw with
  | onMount => exact .inl ⟨rfl, rfl⟩
  | reconnectDisconnect => exact absurd h (by simp [App.resume, App.reconnect])
  | realConnect | realDisconnect | reconnectConnect => exact .inr (by simp [App.resume])

/-- **A window gets quiet** in one of these ways. -/
theorem step_quietens {R : DnsRedirector ω ρ} {A : Label ω → World ρ → Prop} {port : UInt16}
    {redirector : ρ} {l : Label ω} {w w' : World ρ} (hr : Reach (step R) A (new port redirector) w)
    (hA : A l w) (hs : step R l w = some w') (hq : w'.Quiet) : Quietens w l w' := by
  have hlinked := reach_linked hr
  have hdaemon := reach_daemon hr
  -- after a step of the daemon the window was as quiet before, and has been told the same
  have hback : ∀ {m : Daemon.Label ω}, Daemon.step R m w.daemon = some w'.daemon →
      w'.mount = w.mount → w'.stream = w.stream → w'.heard = w.heard → w'.app = w.app →
      w'.requests.map Request.await = w.requests.map Request.await → Quietens w l w' := by
    intro m hm hmount hstream hheard happ hreq
    obtain ⟨hc, hst⟩ := hlinked.caughtUp_back (Daemon.reach_told hdaemon) hm hstream hheard hq.2.2
    exact .same ⟨hmount ▸ hq.1, await_none_of_map hreq hq.2.1, hc⟩ (by rw [happ]) hst
  cases step_moves hs with
  | user a =>
    obtain ⟨hn, hq'⟩ := hq.of_next
    by_cases hg : ∀ id, a = .selectProvider id → ¬ w.app.gated id
    · exact .same hq' (act_connected hn hg) rfl
    · obtain ⟨id, rfl, hgated⟩ : ∃ id, a = .selectProvider id ∧ w.app.gated id := by
        simpa using hg
      exact .gated hgated hq' (act_gated hgated).2 rfl
  | tick => exact .same hq Iff.rfl rfl
  | register => exact absurd hq.1 (by simp)
  | mounted => exact absurd hq.of_next.1 (by simp [App.onMount])
  | @dial k r d hk _ hd =>
    refine hback hd rfl rfl rfl rfl ?_
    have hset : w.requests.set k r = w.requests := by
      obtain ⟨hlt, hget⟩ := List.getElem?_eq_some_iff.mp hk
      rw [← hget]
      exact List.set_getElem_self hlt
    show (w.requests.set k { r with stage := _ }).map Request.await = _
    rw [List.map_set]
    conv_rhs => rw [← hset, List.map_set]
  | @resolve k r aw e hk haw he =>
    obtain ⟨s, rfl⟩ := hlinked.reply_status (Daemon.reach_informed hdaemon)
      (List.mem_of_getElem? hk) he
    obtain ⟨hn, hfinal⟩ := hq.of_next
    obtain ⟨hne, hst⟩ := resume_status hn
    exact .reply hfinal hk (by rw [haw]; simpa using hne) he hst rfl
  | @reject k r aw e hk haw =>
    obtain ⟨hn, hq'⟩ := hq.of_next
    have hfinal : Final k w := ⟨hq'.1, requestsFailed_await hq'.2.1, hq'.2.2⟩
    refine .failed hfinal hk ?_ rfl
    rcases resume_error hn with ⟨rfl, hst⟩ | hst
    · exact .inl ⟨haw, hst⟩
    · exact .inr hst
  | subscribe _ hd =>
    obtain ⟨c, hsub, hhandled, _⟩ := hq.2.2
    obtain ⟨i, hi, hget⟩ := sub_eq_some.mp hsub
    obtain ⟨_, hnew⟩ := hlinked.accept (Daemon.reach_informed hdaemon) hd
    rw [← Option.some.inj hi, hnew] at hget
    rw [← Option.some.inj hget] at hhandled
    exact absurd hhandled (by simp [Conn.new])
  | @emit e he =>
    obtain ⟨c, hsub, hheard, hlast, _⟩ := caughtUp_last (hr.next _ hA hs) hq.2.2
    obtain ⟨x, hx, he⟩ := Option.bind_eq_some_iff.mp he
    obtain rfl := Option.some.inj (hx.symm.trans hsub)
    have hlen : w.heard = x.written.length - 1 := by
      have : w.heard + 1 = x.written.length := hheard
      omega
    rw [hlen, ← List.getLast?_eq_getElem?, hlast] at he
    rw [← Option.some.inj he]
    have hm : w.mount = .mounted := hq.1
    refine .event ?_
    show (w.hear (.status w.daemon.controller.status)).status = w.daemon.controller.status.state
    unfold hear
    rw [hm]
    exact App.applyStatus_status _ _
  | unsubscribe => exact absurd hq.2.2 (by simp [CaughtUp, sub])
  | restart => exact absurd hq.1 (by simp)
  | @service m d hl hd =>
    refine hback hd rfl rfl rfl rfl ?_
    cases m with
    | recv i cmd => exact take_await _ i
    | hangup i => exact take_await _ i
    | listen | serveError | accept | grant | call | release | update | write | shutdown | exit =>
      rfl

/-- **A step that is not timely** leaves the window wrong, with nothing under way
to put it right. -/
theorem untimely_wrong {R : DnsRedirector ω ρ} {A : Label ω → World ρ → Prop} {port : UInt16}
    {redirector : ρ} {w w' : World ρ} (h : Reach (step R) A (new port redirector) w) {l : Label ω}
    (hs : step R l w = some w') (ha : Answered l w) (ht : ¬ Timely l w) : w'.Quiet ∧ ¬ w'.Agrees := by
  cases step_moves hs with
  | user a =>
    cases a with
    | selectProvider id =>
      obtain ⟨hgated, hq, hlast⟩ : w.app.gated id ∧ w.Quiet ∧ w.lastConnected := by
        simpa [Timely] using ht
      obtain ⟨hn, hst⟩ := act_gated hgated
      refine ⟨hq.next hn, fun hagrees => ?_⟩
      have hconn := hagrees.mpr ((lastConnected_iff h hq.2.2).mp hlast)
      exact absurd (hst.symm.trans hconn) (by simp)
    | toggle | toggleOpen | typeToken | activateToken | skipGate | openGate =>
      exact absurd trivial ht
  | @resolve k r aw e hk haw he =>
    obtain ⟨s, rfl⟩ := (reach_linked h).reply_status (Daemon.reach_informed (reach_daemon h))
      (List.mem_of_getElem? hk) he
    obtain ⟨hfinal, hne, hst⟩ : Final k w ∧ aw ≠ .reconnectDisconnect ∧
        ¬ (s.state = .connected ↔ w.lastConnected) := by
      refine Classical.not_not.mp fun hn => ht fun hfinal q hq hne e he' => ?_
      obtain rfl := Option.some.inj (hk.symm.trans hq)
      obtain rfl := Option.some.inj (he.symm.trans he')
      have hne' : aw ≠ .reconnectDisconnect := by simpa [haw] using hne
      have := Classical.not_not.mp fun hst => hn ⟨hfinal, hne', hst⟩
      simpa [Daemon.statusOf] using this
    have hresume : w.app.resume aw (.ok s) = (w.app.applyStatus s, none) := by
      cases aw with
      | reconnectDisconnect => exact absurd rfl hne
      | onMount | realConnect | realDisconnect | reconnectConnect => rfl
    have hshown : (w.app.resume aw (.ok s)).1.status = s.state := by
      rw [hresume]
      exact App.applyStatus_status _ _
    refine ⟨Quiet.next hfinal (congrArg Prod.snd hresume), fun hagrees => hst ?_⟩
    rw [lastConnected_iff h hfinal.2.2, ← hshown]
    exact hagrees
  | reject => exact absurd ha id
  | tick | register | mounted | dial | subscribe | emit | unsubscribe | restart | service =>
    exact absurd trivial ht

/-- **The window shows what the service is**, in every run of timely steps, once
nothing is under way. -/
theorem display_agrees {R : DnsRedirector ω ρ} {port : UInt16} {redirector : ρ} {w : World ρ}
    (h : Reach (step R) Timely (new port redirector) w) :
    w.Quiet → (w.app.status = .connected ↔ w.daemon.controller.status.state = .connected) := by
  induction h with
  | init => exact fun hq => absurd hq.1 (by simp [new])
  | @next w w' l hr hA hs ih =>
    intro hq
    cases step_quietens hr hA hs hq with
    | same hq' happ hst =>
      rw [happ, hst]
      exact ih hq'
    | gated hgated hq' hst hd =>
      have hlast := hA hgated hq'
      rw [lastConnected_iff hr hq'.2.2] at hlast
      rw [hst, hd]
      exact ⟨fun he => absurd he (by simp), fun hc => absurd hc hlast⟩
    | event hst => rw [hst]
    | reply hfinal hk hne he hst hd =>
      have htimely := hA hfinal _ hk hne _ he
      rw [hst, hd, ← lastConnected_iff hr hfinal.2.2, ← htimely]
      simp [Daemon.statusOf]
    | failed => exact absurd hA id

/-- The window opens, and its subscription starts. -/
def opening : List (Label Fate) :=
  [.register, .mounted, .subscribe, .service (.recv 0 .subscribe), .service .grant,
    .service (.call default), .service (.call default), .service .release,
    .service (.write 0 true), .emit, .dial 0, .service (.recv 1 .getStatus), .service .grant,
    .service (.call default), .service .release, .service (.write 1 true)]

/-- The next event of the subscription is written and reaches the window. -/
def hearing : List (Label Fate) := [.service (.update 0), .service (.write 0 true), .emit]

/-- Connection `i` connects, and the events reach the window. -/
def connection (i : Nat) (upstream : UpstreamSel) : List (Label Fate) :=
  (Daemon.connecting i upstream).map .service ++
    [.service .release, .service (.write i true)] ++ hearing ++ hearing

/-- The user connects. -/
theorem display_agrees_toggle : ∃ w : World (String × Option String), w.app.status = .connected ∧
    (w.app.status = .connected ↔ w.daemon.controller.status.state = .connected) := by
  have hrun : Allowed (step plainRedirector) Timely
      (opening ++ [.resolve 0, .user .toggle, .dial 0] ++ connection 2 .cloudflare ++ [.resolve 0])
      (new 53 ("9.9.9.9", none)) := by decide +kernel
  obtain ⟨w, hw, hq, hst⟩ := Reach.exists_of_allowed hrun
    (P := fun w => w.Quiet ∧ w.app.status = .connected) (by decide +kernel)
  exact ⟨w, hst, display_agrees hw hq⟩

/-- **The reply that comes last.**  The window asks for the status as it opens, and
the answer overtakes nothing: another client connects meanwhile, and both events
arrive before it. -/
theorem display_late_reply : ¬ ∀ w : World (String × Option String),
    Reach (step plainRedirector) Answered (new 53 ("9.9.9.9", none)) w → w.Quiet →
    (w.app.status = .connected ↔ w.daemon.controller.status.state = .connected) := by
  intro hall
  have hrun : Allowed (step plainRedirector) Answered
      (opening ++ [.service .accept] ++ connection 2 .cloudflare ++ [.resolve 0])
      (new 53 ("9.9.9.9", none)) := by decide +kernel
  obtain ⟨w, hw, hq, hst, hconn⟩ := Reach.exists_of_allowed hrun
    (P := fun w => w.Quiet ∧ w.app.status = .disconnected ∧
      w.daemon.controller.status.state = .connected) (by decide +kernel)
  exact absurd (hst.symm.trans ((hall w hw hq).mpr hconn)) (by simp)

end Voidns.Gui.World
