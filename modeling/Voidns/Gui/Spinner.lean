import Voidns.Gui.LastWord

/-!
# The spinner

The window spins while it shows connecting.  It shows so on three occasions: when
it sends a `Connect`, when a `reconnectFor` goes on to its `Connect`, and when an
event says so.  A reply never says so, since a reply is the status with the mutex
free (`reach_greeted`): so a spinner that no call and no event is going to stop is
one that the service has not stopped either, and then a `Connect` holds the mutex.

All steps are allowed here: calls that fail, connections that close, the GUI closed
and opened again, and other clients.
-/

namespace Voidns.Daemon

open Effect Steps Controller

variable {ω ρ : Type} {R : DnsRedirector ω ρ}

/-! ### Replies -/

/-- The first event on a connection is a reply, and no reply says connecting. -/
structure Greeted (c : Conn) : Prop where
  first : ∀ s, (events c).head? = some (.status s) → s.state ≠ .connecting
  subscribed : c.phase ≠ .closed → c.subscription.isSome → events c ≠ []

namespace Greeted

variable {c c' : Conn}

theorem new : Greeted .new := ⟨nofun, nofun⟩

/-- The connection goes on with no other event first. -/
theorem same (h : Greeted c) (he : events c' = events c) (hp : c.phase ≠ .closed)
    (hsub : c'.subscription.isSome → c.subscription.isSome) : Greeted c' :=
  ⟨he ▸ h.first, fun _ hs => he ▸ h.subscribed hp (hsub hs)⟩

theorem closed (h : Greeted c) : Greeted { c with phase := .closed } := by
  refine ⟨fun s hs => h.first s ?_, fun hp => absurd rfl hp⟩
  rw [events_eq (by simp)] at hs
  rw [events, List.head?_append, hs]
  rfl

theorem wrote (h : Greeted c) {event : Event} (hp : c.phase = .writing event) (ok : Bool) :
    Greeted (c.wrote event ok) := by
  cases ok with
  | false => exact h.closed
  | true =>
    refine h.same ?_ (by simp [hp]) id
    rw [events_writing hp, events_eq (by simp [Conn.wrote])]
    rfl

theorem answer (h : Greeted c) (hp : ∀ event, c.phase ≠ .writing event) {cmd : Command}
    {reply : Option Nat × Event} (hr : ∀ s, reply.2 = .status s → s.state ≠ .connecting) :
    Greeted (c.answer cmd reply) := by
  have he : events (c.answer cmd reply) = events c ++ [reply.2] := by
    rw [events_writing rfl, events_eq hp]
    rfl
  refine ⟨fun s hs => ?_, fun _ _ => by rw [he]; simp⟩
  rw [he, List.head?_append] at hs
  cases hc : (events c).head? with
  | none =>
    rw [hc] at hs
    exact hr s (Option.some.inj hs)
  | some e =>
    rw [hc] at hs
    exact h.first s (hc.trans hs)

/-- An event of the subscription is not the first. -/
theorem value (h : Greeted c) (hp : c.phase = .select) {rx rx' : Broadcast.Receiver}
    (hrx : c.subscription = some rx) (status : Status) :
    Greeted { c with phase := .writing (.status status), subscription := some rx' } := by
  have hne : events c ≠ [] := h.subscribed (by simp [hp]) (by simp [hrx])
  have he : events { c with phase := .writing (.status status), subscription := some rx' } =
      events c ++ [.status status] := by
    rw [events_writing rfl, events_eq (c := c) (by simp [hp])]
  refine ⟨fun s hs => h.first s ?_, fun _ _ => by rw [he]; simp⟩
  rw [he, List.head?_append_of_ne_nil _ hne] at hs
  exact hs

end Greeted

theorem reach_greeted {port : UInt16} {redirector : ρ} {d : Daemon ρ}
    (h : Reach (step R) (fun _ _ => True) (new port redirector) d) : ∀ c ∈ d.conns, Greeted c := by
  induction h with
  | init => exact fun c hc => absurd hc (by simp [new])
  | @next d e l hr _ hs ih =>
    have hof : ∀ {i : Nat} {c : Conn}, d.conns[i]? = some c → Greeted c :=
      fun hc => ih _ (List.mem_of_getElem? hc)
    have hset : ∀ {i : Nat} {c : Conn}, Greeted c → ∀ x ∈ d.conns.set i c, Greeted x := by
      intro i c hc x hx
      rcases List.mem_or_eq_of_mem_set hx with hx | rfl
      · exact ih x hx
      · exact hc
    obtain ⟨hmoves, _⟩ := step_moves hs
    cases hmoves with
    | listen | serveError | exit | shutdown | grant | call | releaseMain => exact ih
    | accept =>
      intro c hc
      rcases List.mem_append.mp hc with hc | hc
      · exact ih c hc
      · rw [List.mem_singleton.mp hc]
        exact .new
    | recvNow hc hp hret =>
      obtain ⟨rfl, rfl⟩ := dispatch_ret hret
      exact hset ((hof hc).answer (by simp [hp]) (by simp))
    | recvWait hc hp _ =>
      refine hset ((hof hc).same ?_ (by simp [hp]) id)
      rw [events_eq (by simp), events_eq (by simp [hp])]
    | hangup hc hp => exact hset (hof hc).closed
    | updateValue hc hp hsub _ => exact hset ((hof hc).value hp hsub _)
    | updateLagged hc hp hsub _ =>
      exact hset ((hof hc).same rfl (by simp [hp]) fun _ => by rw [hsub]; rfl)
    | write ok hc hp => exact hset ((hof hc).wrote hp ok)
    | releaseConn hx hrest htask hc =>
      -- the reply is the status the turn ends with
      obtain ⟨hqueued, hlocked⟩ := reach_any hr
      have hp := hqueued.holding hx htask hc
      obtain ⟨hsettled, hreplied⟩ := hlocked.done hx hrest
      refine hset ((hof hc).answer (by simp [hp]) fun s hs => ?_)
      rcases hreplied.event with he | ⟨_, he⟩
      · rw [← Event.status.inj (he.symm.trans hs)]
        exact hsettled.notConnecting
      · exact absurd (he.symm.trans hs) (by simp)

/-! ### Who connects -/

/-- A turn that is no `Connect` sets no status but disconnected. -/
theorem dispatch_notConnecting {cmd : Command} (hcmd : Gui.World.connects cmd = false)
    {c : Controller ρ} (h : c.status.state ≠ .connecting) :
    Safe (handler R) (fun _ => True) (fun e => e.after.status.state ≠ .connecting)
      (fun _ t => t.status.state ≠ .connecting) (dispatch cmd) c := by
  have hcalls : (dispatch cmd).Calls fun c : Call => ∀ s, c = .set s → s = .disconnected := by
    cases cmd with
    | connect => exact absurd hcmd (by simp [Gui.World.connects])
    | ping => trivial
    | getStatus => exact ⟨by simp, fun _ => trivial⟩
    | subscribe => exact ⟨by simp, fun _ => ⟨by simp, fun _ => trivial⟩⟩
    | disconnect =>
      have hfinish : finishDisconnect.Calls fun c : Call => ∀ s, c = .set s → s = .disconnected :=
        ⟨by simp, fun _ => ⟨fun s hs => (Call.set.inj hs).symm, fun _ => .perform (by simp)⟩⟩
      refine Prog.Calls.bind ⟨by simp, fun _ => ⟨by simp, fun proxy => ?_⟩⟩ fun _ => trivial
      cases proxy with
      | none => exact hfinish
      | some _ => exact ⟨by simp, fun _ => hfinish⟩
  refine safe_frame (I := fun c : Controller ρ => c.status.state ≠ .connecting)
    (fun call w c hcall _ hc => ?_) hcalls h
  cases call with
  | set s =>
    rw [handler_set, hcall s rfl]
    simp [Status.disconnected]
  | start listen upstream =>
    rcases start_cases R w c listen upstream with ⟨e, he⟩ | he <;> rw [he] <;> exact hc
  | _ => exact hc

/-- **While the status is connecting, a `Connect` holds the mutex.** -/
theorem reach_connecting {port : UInt16} {redirector : ρ} {d : Daemon ρ}
    (h : Reach (step R) (fun _ _ => True) (new port redirector) d)
    (hst : d.controller.status.state = .connecting) :
    ∃ x, d.holder = some x ∧ Gui.World.connects x.cmd = true := by
  induction h with
  | init => exact absurd hst (by simp [new, Controller.new, Status.disconnected])
  | @next d e l hr _ hs ih =>
    have hlocked := (reach_any hr).2
    obtain ⟨hmoves, _⟩ := step_moves hs
    cases hmoves with
    | listen | serveError | exit | accept | shutdown | recvNow | recvWait | hangup | updateValue
      | updateLagged | write => exact ih hst
    | grant hh _ =>
      obtain ⟨x, hx, _⟩ := ih hst
      exact absurd (hx.symm.trans hh) (by simp)
    | releaseMain hx hrest _ => exact absurd hst (hlocked.done hx hrest).1.notConnecting
    | releaseConn hx hrest _ _ => exact absurd hst (hlocked.done hx hrest).1.notConnecting
    | @call x c k w hx hrest =>
      refine ⟨_, rfl, ?_⟩
      show Gui.World.connects x.cmd = true
      by_contra hcmd
      rw [Bool.not_eq_true] at hcmd
      have hturns : Turns R (fun _ => True) (Settled (fun _ => True) fun _ => True)
          (fun cmd e => Gui.World.connects cmd = false → e.after.status.state ≠ .connecting)
          (fun _ _ _ _ => True) d := by
        refine reach_turns (fun cmd c hc => ?_) (new_settled port trivial)
          (hr.mono fun _ _ _ _ _ => trivial)
        have hsafe := (dispatch_safe (keeps_trivial R) cmd hc).post fun _ _ ht => ht.1
        cases hcmd : Gui.World.connects cmd with
        | true =>
          exact hsafe.mono (fun _ h => h) (fun _ _ hn => absurd hn (by simp)) fun _ _ ht => ⟨ht, trivial⟩
        | false =>
          exact (hsafe.and (dispatch_notConnecting hcmd hc.notConnecting)).mono (fun _ h => h)
            (fun _ he _ => he.2) fun _ _ ht => ⟨ht.1, trivial⟩
      have hsafe := hturns.held x hx
      rw [hrest] at hsafe
      exact (hsafe w trivial).1 hcmd hst

end Voidns.Daemon

namespace Voidns.Gui.World

open Steps Controller

variable {ω ρ : Type} {R : DnsRedirector ω ρ}

/-- A `Connect` of the window that has not been answered. -/
def Asking (w : World ρ) : Prop :=
  ∃ r ∈ w.requests, r.await = some .realConnect ∨ r.await = some .reconnectConnect

instance (w : World ρ) : Decidable w.Asking := inferInstanceAs (Decidable (∃ r ∈ w.requests, _))

/-- The window has cause to show connecting: an answer or an event may still come, or the service
is connecting. -/
def Busy (w : World ρ) : Prop :=
  w.Asking ∨ w.mount ≠ .registering ∧
    (¬ w.CaughtUp ∨ w.daemon.controller.status.state = .connecting)

/-- What is sent is added to what is awaited. -/
theorem Asking.next {w : World ρ} (h : w.Asking) (n : App.Next) : Asking (w.next n) := by
  obtain ⟨r, hr, hcmd⟩ := h
  exact ⟨r, List.mem_append_left _ hr, hcmd⟩

theorem Busy.next {w : World ρ} (h : w.Busy) (n : App.Next) : Busy (w.next n) :=
  h.imp (·.next n) id

/-- What is awaited stays awaited where the requests only move on. -/
theorem Asking.of_map {w w' : World ρ} (h : w.Asking)
    (he : w'.requests.map Request.await = w.requests.map Request.await) : w'.Asking := by
  obtain ⟨r, hr, haw⟩ := h
  have hin : r.await ∈ w'.requests.map Request.await := he ▸ List.mem_map_of_mem hr
  obtain ⟨q, hq, hqr⟩ := List.mem_map.mp hin
  exact ⟨q, hq, by rw [hqr]; exact haw⟩

/-- The end of a request of another function leaves the rest. -/
theorem Busy.drop {w : World ρ} (h : w.Busy) {k : Nat} {r : Request} (hk : w.requests[k]? = some r)
    (haw : r.await = some .onMount) {rs : List Request}
    (hrs : ∀ q ∈ w.requests.eraseIdx k, q ∈ rs) : Busy { w with requests := rs } := by
  refine h.imp (fun ⟨q, hq, hqaw⟩ => ⟨q, hrs q ?_, hqaw⟩) id
  obtain ⟨j, hj⟩ := List.mem_iff_getElem?.mp hq
  refine List.mem_eraseIdx_iff_getElem?.mpr ⟨j, ?_, hj⟩
  rintro rfl
  obtain rfl := Option.some.inj (hj.symm.trans hk)
  rw [haw] at hqaw
  exact absurd hqaw (by simp)

/-- An action shows connecting when it sends a `Connect`, or when that was shown before. -/
theorem act_connecting {a : App} {action : Action} (h : (a.act action).1.status = .connecting) :
    a.status = .connecting ∨ ∃ cmd, (a.act action).2 = some (.realConnect, cmd) := by
  have hacts := a.act_acts action
  generalize a.act action = n at h hacts ⊢
  cases hacts with
  | barred | gated | revive => exact absurd h (by simp)
  | connect => exact .inr ⟨_, rfl⟩
  | disconnect | reconnect | same | select | blank | activate | toggleOpen | typeToken | skipGate
  | openGate => exact .inl h

/-- A failed call shows connecting only where another `Connect` is on its way. -/
theorem resume_connecting (a : App) (aw : Await) {r : Except String Status}
    (hr : ∀ s, r = .ok s → s.state ≠ .connecting) (h : (a.resume aw r).1.status = .connecting) :
    (aw = .onMount ∧ a.status = .connecting) ∨
      ∃ cmd, (a.resume aw r).2 = some (.reconnectConnect, cmd) := by
  cases r with
  | ok s =>
    cases aw with
    | reconnectDisconnect => exact .inr ⟨_, rfl⟩
    | onMount | realConnect | realDisconnect | reconnectConnect =>
      exact absurd ((App.applyStatus_status a s).symm.trans h) (hr s rfl)
  | error e =>
    cases aw with
    | onMount => exact .inl ⟨rfl, h⟩
    | reconnectDisconnect => exact .inr ⟨_, rfl⟩
    | realConnect | realDisconnect | reconnectConnect => exact absurd h (by simp [App.resume])

/-- A window with a listener shows the status it is told. -/
theorem hear_status {w : World ρ} (h : w.mount ≠ .registering) (s : Status) :
    (w.hear (.status s)).status = s.state := by
  cases hm : w.mount with
  | registering => exact absurd hm h
  | registered | mounted =>
    simp only [hear, hm]
    exact App.applyStatus_status _ _

/-- The event that catches the window up is the service's status. -/
theorem emit_last {A : Label ω → World ρ → Prop} {port : UInt16} {redirector : ρ} {w w' : World ρ}
    (hr : Reach (step R) A (new port redirector) w) (hA : A .emit w) (hs : step R .emit w = some w')
    {e : Event} (he : w.event = some e) (hc : w'.CaughtUp) :
    e = .status w'.daemon.controller.status := by
  obtain ⟨c, hsub, hheard, hlast, _⟩ := caughtUp_last (hr.next _ hA hs) hc
  obtain ⟨x, hx, he⟩ := Option.bind_eq_some_iff.mp he
  obtain ⟨e', _, rfl⟩ := Option.map_eq_some_iff.mp hs
  obtain rfl := Option.some.inj (hx.symm.trans hsub)
  have hlen : w.heard = x.written.length - 1 := by
    have : w.heard + 1 = x.written.length := hheard
    omega
  rw [hlen, ← List.getLast?_eq_getElem?, hlast] at he
  exact (Option.some.inj he).symm

/-- A reply the window gets is not connecting. -/
theorem reply_settled {port : UInt16} {redirector : ρ} {w : World ρ}
    (h : Reach (step R) (fun _ _ => True) (new port redirector) w) {r : Request} {s : Status}
    (hr : w.reply r = some (.status s)) : s.state ≠ .connecting := by
  unfold reply at hr
  split at hr
  · obtain ⟨c, hc, hhead⟩ := Option.bind_eq_some_iff.mp hr
    refine (Daemon.reach_greeted (reach_daemon h) c (List.mem_of_getElem? hc)).first s ?_
    rw [Daemon.events, List.head?_append, hhead]
    rfl
  · exact absurd hr (by simp)

/-- **A spinning window is busy.** -/
theorem reach_busy {port : UInt16} {redirector : ρ} {w : World ρ}
    (h : Reach (step R) (fun _ _ => True) (new port redirector) w) :
    w.app.status = .connecting → w.Busy := by
  induction h with
  | init => exact fun hst => absurd hst (by simp [new, App.new])
  | @next w w' l hr hA hs ih =>
    have hlinked := reach_linked hr
    have hdaemon := reach_daemon hr
    -- what a step of the daemon does not tell the window, it has not missed
    have hback : ∀ {m : Daemon.Label ω}, Daemon.step R m w.daemon = some w'.daemon →
        w'.mount = w.mount → w'.stream = w.stream → w'.heard = w.heard → w'.app = w.app →
        w'.requests.map Request.await = w.requests.map Request.await →
        w'.app.status = .connecting → w'.Busy := by
      intro m hm hmount hstream hheard happ hreq hst
      rw [happ] at hst
      refine (ih hst).imp (·.of_map hreq) fun htold => ⟨hmount ▸ htold.1, ?_⟩
      by_cases hc : w'.CaughtUp
      · obtain ⟨hc', hsame⟩ :=
          hlinked.caughtUp_back (Daemon.reach_told hdaemon) hm hstream hheard hc
        exact .inr (by rw [hsame]; exact htold.2.resolve_left (not_not.mpr hc'))
      · exact .inl hc
    have hasks : ∀ {v : World ρ} {n : App.Next} {cmd : Command},
        n.2 = some (.reconnectConnect, cmd) → Busy (v.next n) := by
      intro v n cmd hsent
      refine .inl ⟨.new (.reconnectConnect, cmd), ?_, .inr rfl⟩
      simp [World.next, hsent]
    cases step_moves hs with
    | user a =>
      intro hst
      rcases act_connecting hst with hst | ⟨cmd, hsent⟩
      · exact (ih hst).next _
      · refine .inl ⟨.new (.realConnect, cmd), ?_, .inl rfl⟩
        simp [World.next, hsent]
    | tick => exact ih
    | register hm => exact fun hst => (ih hst).imp id fun htold => absurd hm htold.1
    | mounted hm =>
      intro hst
      have hbusy : Busy { w with mount := .mounted } :=
        (ih hst).imp id fun htold => ⟨by simp, htold.2⟩
      exact hbusy.next _
    | @dial k r d hk _ hd =>
      refine hback hd rfl rfl rfl rfl ?_
      have hset : w.requests.set k r = w.requests := by
        obtain ⟨hlt, hget⟩ := List.getElem?_eq_some_iff.mp hk
        rw [← hget]
        exact List.set_getElem_self hlt
      show (w.requests.set k { r with stage := _ }).map Request.await = _
      rw [List.map_set]
      conv_rhs => rw [← hset, List.map_set]
    | @resolve k r aw e hk haw he =>
      intro hst
      obtain ⟨s, rfl⟩ := hlinked.reply_status (Daemon.reach_informed hdaemon)
        (List.mem_of_getElem? hk) he
      have hsettled : ∀ s', intoStatus (.ok (.status s)) = .ok s' → s'.state ≠ .connecting := by
        intro s' hs'
        rw [← Except.ok.inj hs']
        exact reply_settled hr he
      rcases resume_connecting w.app aw hsettled hst with ⟨rfl, hshown⟩ | ⟨cmd, hsent⟩
      · exact ((ih hshown).drop hk haw fun _ hq => hq).next _
      · exact hasks hsent
    | @reject k r aw e hk haw =>
      intro hst
      have hfailed : ∀ s, intoStatus (.error e) = .ok s → s.state ≠ .connecting :=
        fun _ hs => absurd hs (by simp [intoStatus])
      rcases resume_connecting w.app aw hfailed hst with ⟨rfl, hshown⟩ | ⟨cmd, hsent⟩
      · refine ((ih hshown).drop hk haw fun q hq => ?_).next _
        unfold requestsFailed
        split
        · obtain ⟨j, hj, hget⟩ := List.mem_eraseIdx_iff_getElem?.mp hq
          exact List.mem_of_getElem? (i := j) ((List.getElem?_set_ne (Ne.symm hj)).trans hget)
        · exact hq
      · exact hasks hsent
    | subscribe _ hd =>
      intro hst
      refine (ih hst).imp id fun htold => ⟨htold.1, .inl ?_⟩
      rintro ⟨c, hsub, hhandled, _⟩
      obtain ⟨i, hi, hget⟩ := sub_eq_some.mp hsub
      obtain ⟨_, hnew⟩ := hlinked.accept (Daemon.reach_informed hdaemon) hd
      rw [← Option.some.inj hi, hnew] at hget
      rw [← Option.some.inj hget] at hhandled
      exact absurd hhandled (by simp [Conn.new])
    | @emit e he =>
      intro hst
      by_cases hreg : w.mount = .registering
      · -- the window hears nothing yet
        have hsame : w.hear e = w.app := by simp only [hear, hreg]
        have hst : (w.hear e).status = .connecting := hst
        rw [hsame] at hst
        exact .inl ((ih hst).resolve_right fun h => h.1 hreg)
      · refine .inr ⟨hreg, ?_⟩
        by_cases hc : CaughtUp { w with app := w.hear e, heard := w.heard + 1 }
        · refine .inr ?_
          have hlast : e = .status w.daemon.controller.status := emit_last hr hA hs he hc
          subst hlast
          exact (hear_status hreg _).symm.trans hst
        · exact .inl hc
    | unsubscribe =>
      intro hst
      exact (ih hst).imp id fun htold => ⟨htold.1, .inl (by simp [CaughtUp, sub])⟩
    | restart => exact fun hst => absurd hst (by simp [App.new])
    | @service m d hl hd =>
      refine hback hd rfl rfl rfl rfl ?_
      cases m with
      | recv i cmd => exact take_await _ i
      | hangup i => exact take_await _ i
      | listen | serveError | accept | grant | call | release | update | write | shutdown | exit =>
        rfl

/-- **No spinner without cause.**  Whatever fails and whoever else is a client, a
window that shows connecting has a `Connect` unanswered, or has not been told all
there is; otherwise the service is connecting, and a `Connect` holds the mutex. -/
theorem spins_with_cause {port : UInt16} {redirector : ρ} {w : World ρ}
    (h : Reach (step R) (fun _ _ => True) (new port redirector) w)
    (hst : w.app.status = .connecting) :
    w.Asking ∨ ¬ w.CaughtUp ∨ w.daemon.controller.status.state = .connecting ∧
      ∃ x, w.daemon.holder = some x ∧ connects x.cmd = true := by
  refine (reach_busy h hst).imp id fun ⟨_, hcause⟩ => hcause.imp id fun hconn => ⟨hconn, ?_⟩
  exact Daemon.reach_connecting (reach_daemon h) hconn

/-- Another client's `Connect` is under way. -/
def watching : List (Label Fate) :=
  opening ++ [.resolve 0, .service .accept, .service (.recv 2 (.connect .quad9)), .service .grant,
    .service (.call default), .service (.call default)] ++ hearing

theorem spins_with_cause_watching : ∃ w : World (String × Option String),
    w.app.status = .connecting ∧ ∃ x, w.daemon.holder = some x ∧ connects x.cmd = true := by
  have hrun : ∃ w ∈ run (step plainRedirector) watching (new 53 ("9.9.9.9", none)),
      w.app.status = .connecting ∧ ¬ w.Asking ∧ w.CaughtUp := by decide +kernel
  obtain ⟨w, hw, hst, hasks, hc⟩ := hrun
  have hcause := spins_with_cause (.of_run (fun _ _ => trivial) _ hw) hst
  exact ⟨w, hst, ((hcause.resolve_left hasks).resolve_left (not_not.mpr hc)).2⟩

end Voidns.Gui.World
