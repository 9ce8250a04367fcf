import Voidns.Daemon.Upstream

/-!
# What subscribers see

A handler writes statuses from two sources, its replies and its subscription.
They cannot contradict each other for long: a reply is the controller's status at
the moment the mutex is given up, and a status set after that is still in the
channel.  So whenever the receiver is drained, what the handler has written last,
or is about to write, is the controller's status (`Follows.current`).

A connection that only subscribes writes the status it found, and then what its
receiver delivers.
-/

namespace Voidns.Daemon

open Effect Steps Broadcast Controller

variable {ω ρ : Type}

/-- The controller's status after these have been set. -/
def latest (sent : List Status) : Status := sent.getLast?.getD .disconnected

def statusOf : Event → Option Status
  | .status status => some status
  | .pong | .error _ => none

/-- The statuses written on a connection. -/
def statuses (c : Conn) : List Status := c.written.filterMap statusOf

/-- With the one that is being written. -/
def said (c : Conn) : List Status :=
  statuses c ++ match c.phase with
    | .writing event => (statusOf event).toList
    | _ => []

theorem statuses_le (c : Conn) : statuses c <+: said c := List.prefix_append _ _

theorem said_eq {c : Conn} (h : ∀ event, c.phase ≠ .writing event) : said c = statuses c := by
  rw [said]
  split
  · exact absurd ‹_› (h _)
  · exact List.append_nil _

theorem said_writing {c : Conn} {event : Event} (h : c.phase = .writing event) :
    said c = statuses c ++ (statusOf event).toList := by rw [said, h]

theorem latest_append (sent : List Status) (status : Status) :
    latest (sent ++ [status]) = status := by
  simp [latest]

/-- What a connection has said, given the statuses sent so far. -/
structure Follows (sent : List Status) (c : Conn) : Prop where
  subscribed : .subscribe ∈ c.handled → c.subscription.isSome
  next_le : ∀ rx, c.subscription = some rx → rx.next ≤ sent.length
  current : c.phase ≠ .closed → ∀ rx, c.subscription = some rx → rx.next = sent.length →
    (said c).getLast? = some (latest sent)
  fresh : c.handled = [] → c.subscription = none ∧ said c = []
  only : c.handled = [.subscribe] → ∃ rx got, c.subscription = some rx ∧ Delivered sent rx got ∧
    said c <+: latest (sent.take rx.start) :: got ∧
    (c.phase ≠ .closed → said c = latest (sent.take rx.start) :: got)

namespace Follows

variable {sent : List Status} {c c' : Conn}

theorem new : Follows sent .new where
  subscribed h := absurd h (by simp [Conn.new])
  next_le _ h := absurd h (by simp [Conn.new])
  current _ _ h := absurd h (by simp [Conn.new])
  fresh _ := ⟨rfl, rfl⟩
  only h := absurd h (by simp [Conn.new])

/-- The handler goes on without saying anything new. -/
theorem same (h : Follows sent c) (hsub : c'.subscription = c.subscription)
    (hh : c'.handled = c.handled) (hsaid : said c' = said c) (hp : c.phase ≠ .closed) :
    Follows sent c' where
  subscribed := by rw [hh, hsub]; exact h.subscribed
  next_le := by rw [hsub]; exact h.next_le
  current _ := by rw [hsub, hsaid]; exact h.current hp
  fresh := by rw [hh, hsub, hsaid]; exact h.fresh
  only hn := by
    obtain ⟨rx, got, hrx, hgot, hpre, heq⟩ := h.only (hh ▸ hn)
    exact ⟨rx, got, hsub.trans hrx, hgot, hsaid ▸ hpre, fun _ => hsaid.trans (heq hp)⟩

/-- The handler leaves its loop; what it was writing may be lost. -/
theorem closed (h : Follows sent c) : Follows sent { c with phase := .closed } := by
  have hsaid : said { c with phase := .closed } = statuses c := said_eq (by simp)
  refine ⟨h.subscribed, h.next_le, fun hn => absurd rfl hn, fun hn => ⟨(h.fresh hn).1, ?_⟩, ?_⟩
  · have hpre := statuses_le c
    rw [(h.fresh hn).2] at hpre
    rw [hsaid]
    exact List.prefix_nil.mp hpre
  · intro hn
    obtain ⟨rx, got, hrx, hgot, hpre, _⟩ := h.only hn
    exact ⟨rx, got, hrx, hgot, hsaid ▸ (statuses_le c).trans hpre, fun hc => absurd rfl hc⟩

theorem wrote (h : Follows sent c) {event : Event} (hp : c.phase = .writing event) (ok : Bool) :
    Follows sent (c.wrote event ok) := by
  cases ok with
  | false => exact h.closed
  | true =>
    refine h.same rfl rfl ?_ (by rw [hp]; simp)
    rw [said_writing hp, said_eq (by simp [Conn.wrote])]
    cases event <;> simp [statuses, statusOf, Conn.wrote]

/-- A status is set. -/
theorem send (h : Follows sent c) (status : Status) : Follows (sent ++ [status]) c := by
  refine ⟨h.subscribed, fun rx hrx => ?_, fun _ rx hrx hd => ?_, h.fresh, fun hn => ?_⟩
  · have := h.next_le rx hrx
    rw [List.length_append]
    omega
  · have := h.next_le rx hrx
    rw [List.length_append, List.length_singleton] at hd
    omega
  · obtain ⟨rx, got, hrx, hgot, hsaid⟩ := h.only hn
    have hle : rx.start ≤ sent.length := Nat.le_trans hgot.start_le hgot.next_le
    refine ⟨rx, got, hrx, hgot.send status, ?_⟩
    rw [List.take_append_of_le_length hle]
    exact hsaid

/-- The subscription delivers a status. -/
theorem value (h : Follows sent c) (hp : c.phase = .select) {rx rx' : Receiver} {status : Status}
    (hrx : c.subscription = some rx) (hr : rx.recv capacity sent = .value status rx') :
    Follows sent { c with phase := .writing (.status status), subscription := some rx' } := by
  have hopen : c.phase ≠ .closed := by rw [hp]; simp
  have hsaid : said { c with phase := .writing (.status status), subscription := some rx' } =
      said c ++ [status] := by
    rw [said_writing rfl, said_eq (c := c) (by simp [hp])]
    rfl
  obtain ⟨hget, hrx'⟩ := recv_value hr
  refine ⟨fun _ => rfl, fun y hy => ?_, fun _ y hy hd => ?_, fun hn => ?_, fun hn => ?_⟩
  · rw [← Option.some.inj hy, hrx']
    exact (List.getElem?_eq_some_iff.mp hget).1
  · rw [hsaid, List.getLast?_concat]
    rw [← Option.some.inj hy, hrx'] at hd
    have hlast : sent.length - 1 = rx.next := by rw [← hd]; rfl
    rw [latest, List.getLast?_eq_getElem?, hlast, hget]
    rfl
  · exact absurd (hrx.symm.trans (h.fresh hn).1) (by simp)
  · obtain ⟨y, got, hy, hgot, _, heq⟩ := h.only hn
    obtain rfl := Option.some.inj (hrx.symm.trans hy)
    have hstart : rx'.start = rx.start := by rw [hrx']
    have hall : said c ++ [status] = latest (sent.take rx'.start) :: (got ++ [status]) := by
      rw [heq hopen, hstart]
      rfl
    have heq' := hsaid.trans hall
    exact ⟨rx', got ++ [status], rfl, hgot.value hr, ⟨[], (List.append_nil _).trans heq'⟩,
      fun _ => heq'⟩

/-- The subscription has lagged. -/
theorem lagged (h : Follows sent c) (hp : c.phase = .select) {rx rx' : Receiver}
    (hrx : c.subscription = some rx) (hr : rx.recv capacity sent = .lagged rx') :
    Follows sent { c with subscription := some rx' } := by
  have hopen : c.phase ≠ .closed := by rw [hp]; simp
  have hsaid : said { c with subscription := some rx' } = said c := rfl
  obtain ⟨hlt, hrx'⟩ := recv_lagged hr
  refine ⟨fun _ => rfl, fun y hy => ?_, fun _ y hy hd => ?_, fun hn => ?_, fun hn => ?_⟩
  · rw [← Option.some.inj hy, hrx']
    exact Nat.sub_le _ _
  · rw [← Option.some.inj hy, hrx'] at hd
    have : sent.length - 16 = sent.length := hd
    omega
  · exact absurd (hrx.symm.trans (h.fresh hn).1) (by simp)
  · obtain ⟨y, got, hy, hgot, hpre, heq⟩ := h.only hn
    obtain rfl := Option.some.inj (hrx.symm.trans hy)
    have hstart : rx'.start = rx.start := by rw [hrx']
    exact ⟨rx', got, rfl, hgot.lagged hr, by rw [hsaid, hstart]; exact hpre,
      fun _ => by rw [hsaid, hstart]; exact heq hopen⟩

/-- A command has been dispatched. -/
theorem answer {t : Controller ρ} (h : Follows t.sent c) (ht : t.status = latest t.sent)
    (hp : c.phase = .select ∨ c.phase = .dispatching) {cmd : Command} {entry : Controller ρ}
    {reply : Option Nat × Event} (hr : Replied cmd entry reply t) :
    Follows t.sent (c.answer cmd reply) := by
  have hopen : c.phase ≠ .closed := by rcases hp with hp | hp <;> rw [hp] <;> simp
  have hsaid : said (c.answer cmd reply) = said c ++ (statusOf reply.2).toList := by
    have hw : (c.answer cmd reply).phase = .writing reply.2 := rfl
    rw [said_writing hw, said_eq (c := c) (by rcases hp with hp | hp <;> simp [hp])]
    rfl
  have hlast : reply.2 = .status t.status →
      (said (c.answer cmd reply)).getLast? = some (latest t.sent) := by
    intro he
    rw [hsaid, he, ht]
    exact List.getLast?_concat
  have hne : c.handled ++ [cmd] ≠ [] := by simp
  have honly : c.handled ++ [cmd] = [] ++ [.subscribe] → c.handled = [] ∧ cmd = .subscribe :=
    fun hn => ⟨(List.append_inj' hn rfl).1, List.singleton_inj.mp (List.append_inj' hn rfl).2⟩
  by_cases hcmd : cmd = .subscribe
  · -- a new receiver, at the end of the channel
    have hsub : (c.answer cmd reply).subscription = some (.new t.sent.length) := by
      rw [Conn.answer, hr.subscribe hcmd]
      rfl
    have he : reply.2 = .status t.status := by
      rcases hr.event with he | ⟨hping, _⟩
      · exact he
      · exact absurd (hcmd.symm.trans hping) (by simp)
    refine ⟨fun _ => by rw [hsub]; rfl, fun rx hrx => ?_, fun _ _ _ _ => hlast he,
      fun hn => absurd hn hne, fun hn => ?_⟩
    · rw [← Option.some.inj (hsub.symm.trans hrx)]
      exact Nat.le_refl _
    · have heq : said (c.answer cmd reply) =
          [latest (t.sent.take (Receiver.new t.sent.length).start)] := by
        rw [hsaid, (h.fresh (honly hn).1).2, he, ht,
          show (Receiver.new t.sent.length).start = t.sent.length from rfl, List.take_length]
        rfl
      exact ⟨_, [], hsub, .new, ⟨[], (List.append_nil _).trans heq⟩, fun _ => heq⟩
  · -- the receiver stays
    have hsub : (c.answer cmd reply).subscription = c.subscription := by
      rw [Conn.answer, hr.other hcmd]
      rfl
    refine ⟨fun hin => ?_, ?_, fun _ rx hrx hd => ?_, fun hn => absurd hn hne, fun hn => ?_⟩
    · rw [hsub]
      rcases List.mem_append.mp hin with hin | hin
      · exact h.subscribed hin
      · exact absurd (List.mem_singleton.mp hin).symm hcmd
    · rw [hsub]
      exact h.next_le
    · rcases hr.event with he | ⟨_, he⟩
      · exact hlast he
      · rw [hsaid, he]
        rw [hsub] at hrx
        simpa [statusOf] using h.current hopen rx hrx hd
    · exact absurd (honly hn).2 hcmd

end Follows

/-! ### Over whole runs -/

/-- The controller's status is the last one sent, and every connection follows. -/
structure Told (t : Controller ρ) (conns : List Conn) : Prop where
  status : t.status = latest t.sent
  follows : ∀ c ∈ conns, Follows t.sent c

/-- A call sets and sends one status, or leaves both alone. -/
theorem handler_sent (R : DnsRedirector ω ρ) (call : Call) (w : Choice ω) (c : Controller ρ) :
    ((handler R call w c).2.status = c.status ∧ (handler R call w c).2.sent = c.sent) ∨
      ∃ status, (handler R call w c).2.status = status ∧
        (handler R call w c).2.sent = c.sent ++ [status] := by
  cases call with
  | set status => exact .inr ⟨status, rfl, rfl⟩
  | start listen upstream =>
    rcases start_cases R w c listen upstream with ⟨err, h⟩ | h <;> rw [h] <;> exact .inl ⟨rfl, rfl⟩
  | status | port | stop | putProxy | takeProxy | apply | restore | flushCache | subscribe =>
    exact .inl ⟨rfl, rfl⟩

/-- A step sets and sends one status, or leaves both alone. -/
theorem step_sent {R : DnsRedirector ω ρ} {l : Label ω} {d e : Daemon ρ} (h : step R l d = some e) :
    (e.controller.status = d.controller.status ∧ e.controller.sent = d.controller.sent) ∨
      ∃ status, e.controller.status = status ∧
        e.controller.sent = d.controller.sent ++ [status] := by
  obtain ⟨hmoves, _⟩ := step_moves h
  cases hmoves with
  | call w _ _ => exact handler_sent R _ w _
  | listen | serveError | accept | shutdown | exit | recvNow | recvWait | hangup | updateValue
    | updateLagged | write | grant | releaseMain | releaseConn => exact .inl ⟨rfl, rfl⟩

theorem dispatch_ret {cmd : Command} {reply : Option Nat × Event} (h : dispatch cmd = .ret reply) :
    cmd = .ping ∧ reply = (none, .pong) := by
  cases cmd with
  | ping => exact ⟨rfl, (Prog.ret.inj h).symm⟩
  | connect | disconnect | getStatus | subscribe => exact absurd h nofun

theorem Told.set {t : Controller ρ} {conns : List Conn} (h : Told t conns) (i : Nat) {c : Conn}
    (hc : Follows t.sent c) : Told t (conns.set i c) := by
  refine ⟨h.status, fun x hx => ?_⟩
  rcases List.mem_or_eq_of_mem_set hx with hx | rfl
  · exact h.follows x hx
  · exact hc

theorem Told.call {t : Controller ρ} {conns : List Conn} (h : Told t conns) (R : DnsRedirector ω ρ)
    (call : Call) (w : Choice ω) : Told (handler R call w t).2 conns := by
  rcases handler_sent R call w t with ⟨hst, hsent⟩ | ⟨status, hst, hsent⟩
  · refine ⟨by rw [hst, hsent, h.status], fun c hc => ?_⟩
    rw [hsent]
    exact h.follows c hc
  · refine ⟨by rw [hst, hsent, latest_append], fun c hc => ?_⟩
    rw [hsent]
    exact (h.follows c hc).send status

theorem Told.step {R : DnsRedirector ω ρ} {l : Label ω} {d e : Daemon ρ} (hq : Queued d)
    (hl : Locked R (fun _ => True) (fun _ => True) (fun _ => True) d)
    (h : Told d.controller d.conns) (hs : step R l d = some e) : Told e.controller e.conns := by
  have hof : ∀ {i : Nat} {c : Conn}, d.conns[i]? = some c → Follows d.controller.sent c :=
    fun hc => h.follows _ (List.mem_of_getElem? hc)
  obtain ⟨hmoves, _⟩ := step_moves hs
  cases hmoves with
  | listen | serveError | exit | shutdown | grant | releaseMain => exact h
  | accept _ =>
    refine ⟨h.status, fun x hx => ?_⟩
    rcases List.mem_append.mp hx with hx | hx
    · exact h.follows x hx
    · rw [List.mem_singleton.mp hx]
      exact .new
  | recvNow hc hp hret =>
    obtain ⟨rfl, rfl⟩ := dispatch_ret hret
    have hreply : Replied .ping d.controller (none, .pong) d.controller :=
      ⟨.inr ⟨rfl, rfl⟩, nofun, fun _ => rfl, nofun⟩
    exact h.set _ ((hof hc).answer h.status (.inl hp) hreply)
  | @recvWait i c _ _ _ hc hp _ =>
    have hsaid : said { c with phase := .dispatching } = said c := by
      rw [said_eq (by simp), said_eq (c := c) (by simp [hp])]
      rfl
    exact h.set i ((hof hc).same rfl rfl hsaid (by rw [hp]; simp))
  | hangup hc hp => exact h.set _ (hof hc).closed
  | updateValue hc hp hsub hr => exact h.set _ ((hof hc).value hp hsub hr)
  | updateLagged hc hp hsub hr => exact h.set _ ((hof hc).lagged hp hsub hr)
  | write ok hc hp => exact h.set _ ((hof hc).wrote hp ok)
  | call w hx hr => exact h.call R _ w
  | @releaseConn x reply i c hx hr htask hc =>
    have hp := hq.holding hx htask hc
    exact h.set i ((hof hc).answer h.status (.inr hp) (hl.done hx hr).2)

theorem reach_told {R : DnsRedirector ω ρ} {port : UInt16} {redirector : ρ} {d : Daemon ρ}
    (h : Reach (step R) (fun _ _ => True) (new port redirector) d) : Told d.controller d.conns := by
  induction h with
  | init => exact ⟨rfl, fun c hc => absurd hc (by simp [Daemon.new])⟩
  | next l hr _ hs ih => exact ih.step (reach_any hr).1 (reach_any hr).2 hs

/-! ### Statuses only -/

/-- The events written on a connection, with the one that is being written. -/
def events (c : Conn) : List Event :=
  c.written ++ match c.phase with
    | .writing event => [event]
    | _ => []

theorem events_eq {c : Conn} (h : ∀ event, c.phase ≠ .writing event) : events c = c.written := by
  rw [events]
  split
  · exact absurd ‹_› (h _)
  · exact List.append_nil _

theorem events_writing {c : Conn} {event : Event} (h : c.phase = .writing event) :
    events c = c.written ++ [event] := by rw [events, h]

/-- A client that has sent no `Ping` is told statuses only. -/
def Informs (c : Conn) : Prop := .ping ∉ c.handled → ∀ event ∈ events c, ∃ s, event = .status s

namespace Informs

variable {c c' : Conn}

theorem same (h : Informs c) (hh : c'.handled = c.handled) (he : events c' ⊆ events c) :
    Informs c' := fun hn event hin => h (hh ▸ hn) event (he hin)

theorem closed (h : Informs c) : Informs { c with phase := .closed } := by
  refine h.same rfl ?_
  rw [events_eq (by simp)]
  exact List.subset_append_left _ _

theorem wrote (h : Informs c) {event : Event} (hp : c.phase = .writing event) (ok : Bool) :
    Informs (c.wrote event ok) := by
  cases ok with
  | false => exact h.closed
  | true =>
    refine h.same rfl ?_
    rw [events_writing hp, events_eq (by simp [Conn.wrote])]
    exact List.Subset.refl _

theorem answer (h : Informs c) (hp : ∀ event, c.phase ≠ .writing event) {cmd : Command}
    {reply : Option Nat × Event} (hr : cmd ≠ .ping → ∃ s, reply.2 = .status s) :
    Informs (c.answer cmd reply) := by
  intro hn event hin
  have hnot : .ping ∉ c.handled ∧ .ping ≠ cmd := by simpa [Conn.answer] using hn
  have hw : (c.answer cmd reply).phase = .writing reply.2 := rfl
  rw [events_writing hw, List.mem_append, List.mem_singleton] at hin
  rcases hin with hin | rfl
  · exact h hnot.1 event (by rw [events_eq hp]; exact hin)
  · exact hr hnot.2.symm

end Informs

/-- No one waits for the mutex to answer a `Ping`. -/
structure Informed (d : Daemon ρ) : Prop where
  conns : ∀ c ∈ d.conns, Informs c
  queue : ∀ x ∈ d.queue, x.cmd ≠ .ping
  holder : ∀ x, d.holder = some x → x.cmd ≠ .ping

theorem Informed.set {d : Daemon ρ} (h : Informed d) (i : Nat) {c : Conn} (hc : Informs c) :
    Informed { d with conns := d.conns.set i c } := by
  refine ⟨fun x hx => ?_, h.queue, h.holder⟩
  rcases List.mem_or_eq_of_mem_set hx with hx | rfl
  · exact h.conns x hx
  · exact hc

theorem Informed.step {R : DnsRedirector ω ρ} {l : Label ω} {d e : Daemon ρ} (hq : Queued d)
    (hl : Locked R (fun _ => True) (fun _ => True) (fun _ => True) d) (h : Informed d)
    (hs : step R l d = some e) : Informed e := by
  have hof : ∀ {i : Nat} {c : Conn}, d.conns[i]? = some c → Informs c :=
    fun hc => h.conns _ (List.mem_of_getElem? hc)
  obtain ⟨hmoves, _⟩ := step_moves hs
  cases hmoves with
  | listen | serveError | exit => exact ⟨h.conns, h.queue, h.holder⟩
  | shutdown =>
    refine ⟨h.conns, fun x hx => ?_, h.holder⟩
    rcases List.mem_append.mp hx with hx | hx
    · exact h.queue x hx
    · rw [List.mem_singleton.mp hx]
      simp
  | accept =>
    refine ⟨fun x hx => ?_, h.queue, h.holder⟩
    rcases List.mem_append.mp hx with hx | hx
    · exact h.conns x hx
    · rw [List.mem_singleton.mp hx]
      exact fun _ event hin => absurd hin (by simp [events, Conn.new])
  | recvNow hc hp hret =>
    obtain ⟨rfl, rfl⟩ := dispatch_ret hret
    exact h.set _ ((hof hc).answer (by simp [hp]) fun hn => absurd rfl hn)
  | @recvWait i c cmd _ _ hc hp hcall =>
    have hsame : Informs { c with phase := .dispatching } :=
      (hof hc).same rfl (by rw [events_eq (by simp), events_eq (by simp [hp])]; exact fun _ h => h)
    have hset := h.set i hsame
    refine ⟨hset.conns, fun x hx => ?_, h.holder⟩
    rcases List.mem_append.mp hx with hx | hx
    · exact h.queue x hx
    · rw [List.mem_singleton.mp hx]
      rintro rfl
      exact absurd hcall (by simp [dispatch])
  | hangup hc hp => exact h.set _ (hof hc).closed
  | updateValue hc hp hsub hr =>
    refine h.set _ fun hn event hin => ?_
    rw [events_writing rfl, List.mem_append, List.mem_singleton] at hin
    rcases hin with hin | rfl
    · exact hof hc hn event (by rw [events_eq (by simp [hp])]; exact hin)
    · exact ⟨_, rfl⟩
  | updateLagged hc hp hsub hr => exact h.set _ ((hof hc).same rfl (List.Subset.refl _))
  | write ok hc hp => exact h.set _ ((hof hc).wrote hp ok)
  | grant hh hq =>
    refine ⟨h.conns, fun x hx => h.queue x (hq ▸ List.mem_cons_of_mem _ hx), fun x hx => ?_⟩
    rw [← Option.some.inj hx]
    exact h.queue _ (hq ▸ List.mem_cons_self)
  | @call x _ _ w hx hr =>
    refine ⟨h.conns, h.queue, fun y hy => ?_⟩
    rw [← Option.some.inj hy]
    exact h.holder x hx
  | releaseMain hx hr _ => exact ⟨h.conns, h.queue, fun y hy => absurd hy (by simp)⟩
  | @releaseConn x reply i c hx hr htask hc =>
    have hp := hq.holding hx htask hc
    have hreply : x.cmd ≠ .ping → ∃ s, reply.2 = .status s := by
      intro hn
      rcases (hl.done hx hr).2.event with he | ⟨hping, _⟩
      · exact ⟨_, he⟩
      · exact absurd hping hn
    have hset := h.set i ((hof hc).answer (by simp [hp]) hreply)
    exact ⟨hset.conns, h.queue, fun y hy => absurd hy (by simp)⟩

theorem reach_informed {R : DnsRedirector ω ρ} {port : UInt16} {redirector : ρ} {d : Daemon ρ}
    (h : Reach (step R) (fun _ _ => True) (new port redirector) d) : Informed d := by
  induction h with
  | init =>
    exact ⟨fun c hc => absurd hc (by simp [Daemon.new]), fun x hx => absurd hx (by simp [Daemon.new]),
      fun x hx => absurd hx (by simp [Daemon.new])⟩
  | next l hr _ hs ih => exact ih.step (reach_any hr).1 (reach_any hr).2 hs

/-- The handler of connection `i` is at most `capacity` statuses behind. -/
def Near (i : Nat) (_ : Label ω) (d : Daemon ρ) : Prop :=
  ∀ c rx, d.conns[i]? = some c → c.subscription = some rx →
    d.controller.sent.length ≤ rx.next + capacity

/-- The receiver of connection `i` has missed nothing. -/
def Caught (i : Nat) (conns : List Conn) : Prop :=
  ∀ c rx, conns[i]? = some c → c.subscription = some rx → rx.missed = 0

theorem Caught.set {i j : Nat} {conns : List Conn} {c c' : Conn} (h : Caught i conns)
    (hc : conns[j]? = some c)
    (hc' : i = j → (∀ rx, c.subscription = some rx → rx.missed = 0) →
      ∀ rx, c'.subscription = some rx → rx.missed = 0) : Caught i (conns.set j c') := by
  intro x rx hx hrx
  by_cases hij : i = j
  · subst hij
    rw [List.getElem?_set_self (List.getElem?_eq_some_iff.mp hc).1] at hx
    rw [← Option.some.inj hx] at hrx
    exact hc' rfl (fun rx => h c rx hc) rx hrx
  · rw [List.getElem?_set_ne (Ne.symm hij)] at hx
    exact h x rx hx hrx

theorem answer_missed {c : Conn} (h : ∀ rx, c.subscription = some rx → rx.missed = 0)
    (cmd : Command) (reply : Option Nat × Event) :
    ∀ rx, (c.answer cmd reply).subscription = some rx → rx.missed = 0 := by
  intro rx hrx
  obtain ⟨first, event⟩ := reply
  cases first with
  | none => exact h rx hrx
  | some n =>
    rw [← Option.some.inj hrx]
    rfl

/-- **A handler that is never far behind misses nothing.** -/
theorem near_caught {R : DnsRedirector ω ρ} {port : UInt16} {redirector : ρ} {d : Daemon ρ}
    {i : Nat} (h : Reach (step R) (Near i) (new port redirector) d) : Caught i d.conns := by
  refine h.invariant (I := fun d => Caught i d.conns) (fun c rx hc => absurd hc (by simp [new])) ?_
  intro l d e hnear hs hI
  obtain ⟨hmoves, _⟩ := step_moves hs
  cases hmoves with
  | listen | serveError | exit | shutdown | grant | call | releaseMain => exact hI
  | accept _ =>
    intro c rx hc hrx
    rw [List.getElem?_append] at hc
    split at hc
    · exact hI c rx hc hrx
    · rw [List.mem_singleton.mp (List.mem_of_getElem? hc)] at hrx
      exact absurd hrx (by simp [Conn.new])
  | recvNow hc _ _ => exact hI.set hc fun _ h => answer_missed h _ _
  | releaseConn _ _ _ hc => exact hI.set hc fun _ h => answer_missed h _ _
  | recvWait hc _ _ => exact hI.set hc fun _ h => h
  | hangup hc _ => exact hI.set hc fun _ h => h
  | updateValue hc hp hsub hr =>
    refine hI.set hc fun _ h rx hrx => ?_
    have hmissed := h _ hsub
    rw [← Option.some.inj hrx, (recv_value hr).2]
    exact hmissed
  | updateLagged hc hp hsub hr =>
    refine hI.set hc fun hij _ => ?_
    subst hij
    exact absurd hr (recv_near (hnear _ _ hc hsub))
  | write ok hc hp =>
    refine hI.set hc fun _ h => ?_
    cases ok <;> exact h

/-- **Subscribers converge.**  A connection that has subscribed, is open, drained
and back at its `select!` has written the controller's status last.  One that has
only subscribed has written the status it found and then some of those set later,
in order and each at most once; all of them up to the position of its receiver,
if it was never more than `capacity` behind. -/
theorem subscriber_converges {R : DnsRedirector ω ρ} {port : UInt16} {redirector : ρ}
    {d : Daemon ρ} (hd : Reach (step R) (fun _ _ => True) (new port redirector) d) {i : Nat}
    {c : Conn} (hc : d.conns[i]? = some c) :
    (.subscribe ∈ c.handled → c.phase = .select →
      (∀ rx, c.subscription = some rx → rx.next = d.controller.sent.length) →
      (statuses c).getLast? = some d.controller.status) ∧
    (c.handled = [.subscribe] → ∃ rx, c.subscription = some rx ∧
      (statuses c = [] ∨ ∃ later, later.Sublist (d.controller.sent.drop rx.start) ∧
        statuses c = latest (d.controller.sent.take rx.start) :: later) ∧
      (c.phase = .select → Reach (step R) (Near i) (new port redirector) d →
        statuses c = latest (d.controller.sent.take rx.start) ::
          (d.controller.sent.take rx.next).drop rx.start)) := by
  have htold := reach_told hd
  have hf := htold.follows c (List.mem_of_getElem? hc)
  constructor
  · intro hsub hp hdrained
    obtain ⟨rx, hrx⟩ := Option.isSome_iff_exists.mp (hf.subscribed hsub)
    rw [htold.status, ← said_eq (by simp [hp])]
    exact hf.current (by simp [hp]) rx hrx (hdrained rx hrx)
  · intro honly
    obtain ⟨rx, got, hrx, hgot, hpre, heq⟩ := hf.only honly
    refine ⟨rx, hrx, ?_, fun hp hnear => ?_⟩
    · rcases List.prefix_cons_iff.mp ((statuses_le c).trans hpre) with hnil | ⟨later, hl, hlater⟩
      · exact .inl hnil
      · refine .inr ⟨later, ?_, hl⟩
        exact (hlater.sublist.trans hgot.sublist).trans ((List.take_sublist _ _).drop _)
    · rw [← said_eq (by simp [hp]), heq (by simp [hp]), hgot.all (near_caught hnear c rx hc hrx)]

/-- A subscriber that has seen another client connect. -/
def watcher : Conn where
  phase := .select
  subscription := some ⟨0, 2, 0⟩
  handled := [.subscribe]
  written := [.status .disconnected, .status ⟨.connecting, some "Cloudflare", none, none⟩,
    .status cloudflare.status]

/-- The daemon it is connected to. -/
def watched : Daemon (String × Option String) where
  controller := cloudflare
  holder := none
  queue := []
  main := .serving
  conns := [watcher, ⟨.select, none, [.connect .cloudflare], [.status cloudflare.status]⟩]

theorem subscriber_converges_watcher :
    (statuses watcher).getLast? = some cloudflare.status ∧
      ∃ rx, watcher.subscription = some rx ∧
        (statuses watcher = [] ∨ ∃ later, later.Sublist (cloudflare.sent.drop rx.start) ∧
          statuses watcher = latest (cloudflare.sent.take rx.start) :: later) ∧
        (watcher.phase = .select →
          Reach (step plainRedirector) (Near 0) (new 53 ("9.9.9.9", none)) watched →
          statuses watcher = latest (cloudflare.sent.take rx.start) ::
            (cloudflare.sent.take rx.next).drop rx.start) := by
  have hrun : run (step plainRedirector)
      ([.listen, .accept, .accept, .recv 0 .subscribe, .grant, .call default, .call default,
        .release, .write 0 true] ++ connecting 1 .cloudflare ++
        [.release, .write 1 true, .update 0, .write 0 true, .update 0, .write 0 true])
      (new 53 ("9.9.9.9", none)) = some watched := rfl
  have h := subscriber_converges (i := 0) (.of_run (fun _ _ => trivial) _ hrun) (c := watcher) rfl
  refine ⟨h.1 (by decide) rfl fun rx hrx => ?_, h.2 rfl⟩
  rw [← Option.some.inj hrx]
  rfl

end Voidns.Daemon
