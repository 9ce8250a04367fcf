import Voidns.Controller.Joint
import Voidns.Daemon.Basic

/-!
# The controller's mutex

Two things hold in every state of the daemon, however its tasks take turns.  The
tasks in the queue and the one that holds the mutex are the handlers that are
dispatching, each once, and `run_daemon` while it is stopping (`Queued`).  And the
controller is settled whenever the mutex is free; while it is held, what is left
of the command will leave it settled, and will reply with its status (`Locked`).

The second is a case of `Turns`: what every command keeps, on its own, holds
whenever the mutex is free, and what it keeps from call to call holds always.
-/

namespace Voidns.Daemon

open Effect Steps Controller

variable {ω ρ : Type}

/-! ### The queue -/

/-- The task that holds the mutex, and those that wait for it. -/
def tasks (d : Daemon ρ) : List Task := (d.holder.map Holder.task).toList ++ d.queue.map Waiter.task

/-- Connection `i` is in `dispatch`, with the mutex or waiting for it. -/
def dispatching (conns : List Conn) (i : Nat) : Prop :=
  (conns[i]?).map Conn.phase = some .dispatching

/-- Who is in the queue, and once only. -/
structure Queued (d : Daemon ρ) : Prop where
  nodup : d.tasks.Nodup
  conn : ∀ i, Task.conn i ∈ d.tasks ↔ dispatching d.conns i
  main : Task.main ∈ d.tasks ↔ d.main = .stopping

theorem new_queued (port : UInt16) (redirector : ρ) : Queued (new port redirector) :=
  ⟨List.nodup_nil, fun _ => by simp [tasks, dispatching, new], by simp [tasks, new]⟩

theorem dispatching_set {conns : List Conn} {i : Nat} {c : Conn} (hc : conns[i]? = some c)
    (c' : Conn) (j : Nat) :
    dispatching (conns.set i c') j ↔
      if i = j then c'.phase = .dispatching else dispatching conns j := by
  have hlt : i < conns.length := (List.getElem?_eq_some_iff.mp hc).1
  rw [dispatching, List.getElem?_set]
  split
  · simp
  · exact Iff.rfl

/-- A new connection is not dispatching. -/
theorem dispatching_accept (conns : List Conn) (i : Nat) :
    dispatching (conns ++ [.new]) i ↔ dispatching conns i := by
  rw [dispatching, dispatching, List.getElem?_append]
  split
  · exact Iff.rfl
  · rename_i hlt
    rw [List.getElem?_eq_none (l := conns) (by omega)]
    cases i - conns.length with
    | zero => simp [Conn.new]
    | succ n => simp

theorem wrote_phase (c : Conn) (event : Event) (ok : Bool) :
    (c.wrote event ok).phase ≠ .dispatching := by
  cases ok <;> simp [Conn.wrote]

namespace Queued

variable {d e : Daemon ρ}

/-- The mutex changes hands, or its holder goes on. -/
theorem same (h : Queued d) (ht : e.tasks = d.tasks) (hm : e.main = d.main)
    (hc : e.conns = d.conns) : Queued e :=
  ⟨ht ▸ h.nodup, by rw [ht, hc]; exact h.conn, by rw [ht, hm]; exact h.main⟩

/-- A connection that is not dispatching does something else. -/
theorem set (h : Queued d) {i : Nat} {c c' : Conn} (hc : d.conns[i]? = some c)
    (hp : c.phase ≠ .dispatching) (hp' : c'.phase ≠ .dispatching) :
    Queued { d with conns := d.conns.set i c' } := by
  refine ⟨h.nodup, fun j => (h.conn j).trans ?_, h.main⟩
  rw [dispatching_set hc]
  split
  · rename_i hij
    rw [← hij, dispatching, hc]
    simp [hp, hp']
  · exact Iff.rfl

/-- A task joins at the end. -/
theorem join (h : Queued d) {w : Waiter} (hw : w.task ∉ d.tasks) :
    (tasks { d with queue := d.queue ++ [w] }) = d.tasks ++ [w.task] ∧
      (d.tasks ++ [w.task]).Nodup := by
  refine ⟨by simp [tasks], List.nodup_append.mpr ⟨h.nodup, by simp, ?_⟩⟩
  intro t ht u hu heq
  rw [List.mem_singleton.mp hu] at heq
  exact hw (heq ▸ ht)

/-- The holder of the mutex, and those who wait for it. -/
theorem leave (h : Queued d) {x : Holder ρ} (hx : d.holder = some x) :
    d.tasks = x.task :: d.queue.map Waiter.task ∧ x.task ∉ d.queue.map Waiter.task ∧
      (d.queue.map Waiter.task).Nodup := by
  have ht : d.tasks = x.task :: d.queue.map Waiter.task := by simp [tasks, hx]
  exact ⟨ht, List.nodup_cons.mp (ht ▸ h.nodup)⟩

/-- The handler that holds the mutex is in `dispatch`, so it has nothing to write. -/
theorem holding (h : Queued d) {x : Holder ρ} {i : Nat} {c : Conn} (hx : d.holder = some x)
    (ht : x.task = .conn i) (hc : d.conns[i]? = some c) : c.phase = .dispatching := by
  have hdisp := (h.conn i).mp (by simp [tasks, hx, ht])
  rw [dispatching, hc] at hdisp
  exact Option.some.inj hdisp

theorem step {R : DnsRedirector ω ρ} {l : Label ω} (h : Queued d) (hs : step R l d = some e) :
    Queued e := by
  obtain ⟨hmoves, _⟩ := step_moves hs
  cases hmoves with
  | listen hm => exact ⟨h.nodup, h.conn, h.main.trans (by rw [hm]; simp)⟩
  | serveError err hm => exact ⟨h.nodup, h.conn, h.main.trans (by rw [hm]; simp)⟩
  | exit result hm => exact ⟨h.nodup, h.conn, h.main.trans (by rw [hm]; simp)⟩
  | accept hm =>
    exact ⟨h.nodup, fun i => (h.conn i).trans (dispatching_accept d.conns i).symm, h.main⟩
  | shutdown hm =>
    have hne : d.main ≠ .stopping := by rcases hm with hm | hm <;> rw [hm] <;> simp
    obtain ⟨ht, hnodup⟩ := h.join (w := ⟨.main, .disconnect⟩) fun hin => hne (h.main.mp hin)
    refine ⟨ht ▸ hnodup, fun i => ?_, ?_⟩
    · show Task.conn i ∈ tasks { d with queue := d.queue ++ [⟨.main, .disconnect⟩] } ↔ _
      rw [ht, ← h.conn]
      simp
    · show Task.main ∈ tasks { d with queue := d.queue ++ [⟨.main, .disconnect⟩] } ↔ _
      rw [ht]
      simp
  | recvNow hc hp _ => exact h.set hc (by rw [hp]; simp) (by simp [Conn.answer])
  | @recvWait i c cmd _ _ hc hp _ =>
    have hnot : Task.conn i ∉ d.tasks := by
      rw [h.conn, dispatching, hc]
      simp [hp]
    obtain ⟨ht, hnodup⟩ := h.join (w := ⟨.conn i, cmd⟩) hnot
    refine ⟨ht ▸ hnodup, fun j => ?_, ?_⟩
    · show Task.conn j ∈ tasks { d with queue := d.queue ++ [⟨.conn i, cmd⟩] } ↔ _
      rw [ht, dispatching_set hc, List.mem_append, h.conn]
      split
      · rename_i hij
        simp [hij]
      · rename_i hij
        simp [Ne.symm hij]
    · show Task.main ∈ tasks { d with queue := d.queue ++ [⟨.conn i, cmd⟩] } ↔ _
      rw [ht, ← h.main]
      simp
  | hangup hc hp => exact h.set hc (by rw [hp]; simp) (by simp)
  | updateValue hc hp _ _ => exact h.set hc (by rw [hp]; simp) (by simp)
  | updateLagged hc hp _ _ => exact h.set hc (by rw [hp]; simp) (by simp [hp])
  | write ok hc hp => exact h.set hc (by rw [hp]; simp) (wrote_phase _ _ ok)
  | grant hh hq => exact h.same (by simp [tasks, hh, hq]) rfl rfl
  | call w hh hr => exact h.same (by simp [tasks, hh]) rfl rfl
  | releaseMain hh hr htask =>
    obtain ⟨ht, hnot, hnodup⟩ := h.leave hh
    rw [htask] at ht hnot
    refine ⟨hnodup, fun i => ?_, by simpa [tasks] using hnot⟩
    rw [← h.conn, ht]
    simp [tasks]
  | @releaseConn x reply i c hh hr htask hc =>
    obtain ⟨ht, hnot, hnodup⟩ := h.leave hh
    rw [htask] at ht hnot
    refine ⟨hnodup, fun j => ?_, ?_⟩
    · rw [dispatching_set hc]
      split
      · rename_i hij
        subst hij
        simpa [tasks, Conn.answer] using hnot
      · rename_i hij
        rw [← h.conn, ht]
        simp [tasks, Ne.symm hij]
    · rw [← h.main, ht]
      simp [tasks]

end Queued

/-! ### The controller under the mutex -/

/-- What a command that found `c` replies where it ends, in `t`. -/
structure Replied (cmd : Command) (c : Controller ρ) (reply : Option Nat × Event)
    (t : Controller ρ) : Prop where
  event : reply.2 = .status t.status ∨ cmd = .ping ∧ reply.2 = .pong
  subscribe : cmd = .subscribe → reply.1 = some t.sent.length
  other : cmd ≠ .subscribe → reply.1 = none
  served : ∀ upstream, cmd = .connect upstream → Served upstream c t

section Locked

variable {R : DnsRedirector ω ρ} {A : CallEvent sig (Choice ω) (Controller ρ) → Prop}
  {Up Down : ρ → Prop}

/-- **A turn with the mutex.** -/
theorem dispatch_safe (hk : Keeps R A Up Down) (cmd : Command) {c : Controller ρ}
    (h : Settled Up Down c) :
    Safe (handler R) A (Orderly Up Down)
      (fun reply t => Settled Up Down t ∧ Replied cmd c reply t) (dispatch cmd) c := by
  cases cmd with
  | ping => exact ⟨h, .inr ⟨rfl, rfl⟩, nofun, fun _ => rfl, nofun⟩
  | getStatus =>
    refine safe_perform.mpr fun w _ => ⟨h.orderly (.inl rfl) w, h, ?_⟩
    exact ⟨.inl rfl, nofun, fun _ => rfl, nofun⟩
  | subscribe =>
    refine safe_perform.mpr fun w _ => ⟨h.orderly (.inr rfl) w, ?_⟩
    refine safe_perform.mpr fun w _ => ⟨h.orderly (.inl rfl) w, h, ?_⟩
    exact ⟨.inl rfl, fun _ => rfl, fun hn => absurd rfl hn, nofun⟩
  | connect upstream =>
    refine safe_bind.mpr (Safe.post (fun status t ht => ?_) (connect_safe hk upstream h))
    refine ⟨ht.1, .inl (congrArg Event.status ht.2.1), nofun, fun _ => rfl, fun u hu => ?_⟩
    rw [← Command.connect.inj hu]
    exact ht.2.2
  | disconnect =>
    refine safe_bind.mpr (Safe.post (fun status t ht => ?_) (disconnect_safe hk h))
    exact ⟨ht.1, .inl (congrArg Event.status ht.2.1), nofun, fun _ => rfl, nofun⟩

/-- The call a step makes on the controller, if it makes one. -/
def callOf (R : DnsRedirector ω ρ) :
    Label ω → Daemon ρ → Option (CallEvent sig (Choice ω) (Controller ρ))
  | .call w, d => match d.holder with
    | some x => match x.rest with
      | .call c _ => some ⟨c, w, d.controller, (handler R c w d.controller).2⟩
      | .ret _ => none
    | none => none
  | _, _ => none

theorem callOf_eq {R : DnsRedirector ω ρ} {l : Label ω} {d : Daemon ρ}
    {e : CallEvent sig (Choice ω) (Controller ρ)} (h : e ∈ callOf R l d) :
    ∃ c w, l = .call w ∧ e = ⟨c, w, d.controller, (handler R c w d.controller).2⟩ := by
  cases l with
  | call w =>
    rw [Option.mem_def, callOf] at h
    cases hx : d.holder with
    | none => exact absurd h (by simp [hx])
    | some x =>
      cases hr : x.rest with
      | ret reply => exact absurd h (by simp [hx, hr])
      | call c k =>
        simp only [hx, hr] at h
        exact ⟨c, w, rfl, (Option.some.inj h).symm⟩
  | listen | serveError | accept | recv | grant | release | update | write | hangup | shutdown
    | exit => exact absurd h (by simp [callOf])

/-- The call a step makes keeps to `A`. -/
def CallsKeep (R : DnsRedirector ω ρ) (A : CallEvent sig (Choice ω) (Controller ρ) → Prop)
    (l : Label ω) (d : Daemon ρ) : Prop := ∀ e ∈ callOf R l d, A e

instance [DecidablePred A] (l : Label ω) (d : Daemon ρ) : Decidable (CallsKeep R A l d) :=
  inferInstanceAs (Decidable (∀ e ∈ callOf R l d, A e))

theorem CallsKeep.call {d : Daemon ρ} {w : Choice ω} (h : CallsKeep R A (.call w) d) {x : Holder ρ}
    {c : Call} {k : Reply c → Prog sig (Option Nat × Event)} (hx : d.holder = some x)
    (hr : x.rest = .call c k) : A ⟨c, w, d.controller, (handler R c w d.controller).2⟩ :=
  h _ (by simp [callOf, hx, hr])

/-- The controller, with the mutex free and `I`, or held by a turn that guarantees `B`
of its calls, and `I` again and `Q` where it ends. -/
structure Turns (R : DnsRedirector ω ρ) (A : CallEvent sig (Choice ω) (Controller ρ) → Prop)
    (I : Controller ρ → Prop) (B : Command → CallEvent sig (Choice ω) (Controller ρ) → Prop)
    (Q : Command → Controller ρ → Option Nat × Event → Controller ρ → Prop) (d : Daemon ρ) :
    Prop where
  free : d.holder = none → I d.controller
  held : ∀ x, d.holder = some x → Safe (handler R) A (B x.cmd)
    (fun reply t => I t ∧ Q x.cmd x.entry reply t) x.rest d.controller

section Turns

variable {I : Controller ρ → Prop} {B : Command → CallEvent sig (Choice ω) (Controller ρ) → Prop}
  {Q : Command → Controller ρ → Option Nat × Event → Controller ρ → Prop} {d e : Daemon ρ}

theorem Turns.done (h : Turns R A I B Q d) {x : Holder ρ} {reply : Option Nat × Event}
    (hx : d.holder = some x) (hr : x.rest = .ret reply) :
    I d.controller ∧ Q x.cmd x.entry reply d.controller := by
  have hsafe := h.held x hx
  rw [hr] at hsafe
  exact hsafe

theorem Turns.step {l : Label ω}
    (hturn : ∀ cmd c, I c → Safe (handler R) A (B cmd) (fun reply t => I t ∧ Q cmd c reply t)
      (dispatch cmd) c)
    (h : Turns R A I B Q d) (hA : CallsKeep R A l d) (hs : step R l d = some e) :
    Turns R A I B Q e := by
  obtain ⟨hmoves, _⟩ := step_moves hs
  cases hmoves with
  | listen | serveError | exit | accept | shutdown | recvNow | recvWait | hangup | updateValue
    | updateLagged | write => exact ⟨h.free, h.held⟩
  | @grant waiter queue hh hq =>
    refine ⟨fun hn => absurd hn (by simp), fun x hx => ?_⟩
    rw [← Option.some.inj hx]
    exact hturn waiter.cmd d.controller (h.free hh)
  | @call x c k w hh hr =>
    refine ⟨fun hn => absurd hn (by simp), fun y hy => ?_⟩
    rw [← Option.some.inj hy]
    have hsafe := h.held x hh
    rw [hr] at hsafe
    exact (hsafe w (hA.call hh hr)).2
  | releaseMain hh hr _ => exact ⟨fun _ => (h.done hh hr).1, fun x hx => absurd hx (by simp)⟩
  | releaseConn hh hr _ _ => exact ⟨fun _ => (h.done hh hr).1, fun x hx => absurd hx (by simp)⟩

/-- **The mutex rule.**  What every turn keeps, any interleaving of turns keeps. -/
theorem reach_turns
    (hturn : ∀ cmd c, I c → Safe (handler R) A (B cmd) (fun reply t => I t ∧ Q cmd c reply t)
      (dispatch cmd) c)
    {port : UInt16} {redirector : ρ} (h₀ : I (.new port redirector))
    (h : Reach (Daemon.step R) (CallsKeep R A) (new port redirector) d) : Turns R A I B Q d :=
  h.invariant (I := Turns R A I B Q) ⟨fun _ => h₀, fun x hx => absurd hx (by simp [new])⟩
    fun _ _ _ hA hs hI => hI.step hturn hA hs

/-- What holds between turns and after each call of one holds always. -/
theorem reach_always
    (hturn : ∀ cmd c, I c → Safe (handler R) A (B cmd) (fun reply t => I t ∧ Q cmd c reply t)
      (dispatch cmd) c)
    {P : Controller ρ → Prop} (hI : ∀ c, I c → P c) (hB : ∀ cmd e, B cmd e → P e.after)
    {port : UInt16} {redirector : ρ} (h₀ : I (.new port redirector))
    (h : Reach (Daemon.step R) (CallsKeep R A) (new port redirector) d) : P d.controller := by
  induction h with
  | init => exact hI _ h₀
  | next l hr hA hs ih =>
    obtain ⟨hmoves, _⟩ := step_moves hs
    cases hmoves with
    | call w hh hrest =>
      have hsafe := (reach_turns hturn h₀ hr).held _ hh
      rw [hrest] at hsafe
      exact hB _ _ (hsafe w (hA.call hh hrest)).1
    | listen | serveError | exit | accept | shutdown | recvNow | recvWait | hangup | updateValue
      | updateLagged | write | grant | releaseMain | releaseConn => exact ih

end Turns

/-- The controller, with the mutex free or held. -/
structure Locked (R : DnsRedirector ω ρ) (A : CallEvent sig (Choice ω) (Controller ρ) → Prop)
    (Up Down : ρ → Prop) (d : Daemon ρ) : Prop where
  free : d.holder = none → Settled Up Down d.controller
  held : ∀ h, d.holder = some h → Safe (handler R) A (Orderly Up Down)
    (fun reply t => Settled Up Down t ∧ Replied h.cmd h.entry reply t) h.rest d.controller

/-- The holder is done. -/
theorem Locked.done {d : Daemon ρ} (h : Locked R A Up Down d) {x : Holder ρ}
    {reply : Option Nat × Event} (hx : d.holder = some x) (hr : x.rest = .ret reply) :
    Settled Up Down d.controller ∧ Replied x.cmd x.entry reply d.controller := by
  have hsafe := h.held x hx
  rw [hr] at hsafe
  exact hsafe

end Locked

/-- **Turns do not mix.**  In every state any interleaving leads to, the queue is
in order and the controller is settled up to what the holder has left to do. -/
theorem reach_locked {R : DnsRedirector ω ρ} {A : CallEvent sig (Choice ω) (Controller ρ) → Prop}
    {Up Down : ρ → Prop} (hk : Keeps R A Up Down) {port : UInt16} {redirector : ρ} {d : Daemon ρ}
    (h₀ : Down redirector) (h : Reach (step R) (CallsKeep R A) (new port redirector) d) :
    Queued d ∧ Locked R A Up Down d := by
  have hqueued : Queued d :=
    h.invariant (I := Queued) (new_queued port redirector) fun _ _ _ _ hs hI => hI.step hs
  have hturns : Turns R A (Settled Up Down) (fun _ => Orderly Up Down) Replied d :=
    reach_turns (fun cmd _ hc => dispatch_safe hk cmd hc) (new_settled port h₀) h
  exact ⟨hqueued, hturns.free, hturns.held⟩

/-- With nothing asked of the world or known of the redirector. -/
theorem keeps_trivial (R : DnsRedirector ω ρ) :
    Keeps R (fun _ => True) (fun _ => True) fun _ => True where
  apply _ _ _ _ := ⟨fun _ => trivial, fun _ _ => trivial⟩
  restore _ _ _ _ := trivial
  flush _ _ := ⟨fun _ => trivial, fun _ => trivial⟩

/-- `reach_locked` over all runs. -/
theorem reach_any {R : DnsRedirector ω ρ} {port : UInt16} {redirector : ρ} {d : Daemon ρ}
    (h : Reach (step R) (fun _ _ => True) (new port redirector) d) :
    Queued d ∧ Locked R (fun _ => True) (fun _ => True) (fun _ => True) d := by
  exact reach_locked (keeps_trivial R) trivial (h.mono fun _ _ _ _ _ => trivial)

/-- **The status, the proxy and the record agree** whenever the mutex is free. -/
theorem reach_joint {R : DnsRedirector ω ρ} {idle : ρ → Bool} (hR : Records R idle) {port : UInt16}
    {redirector : ρ} (hr : idle redirector = true) {d : Daemon ρ}
    (h : Reach (step R) (fun _ _ => True) (new port redirector) d) (hfree : d.holder = none) :
    Joint idle d.controller :=
  ((reach_locked (keeps_of_records hR) hr (h.mono fun _ _ _ _ _ => trivial)).2.free hfree).joint

/-! ### What one turn does -/

/-- A turn that neither connects nor disconnects leaves the controller alone. -/
def Asks (cmd : Command) (e : CallEvent sig (Choice ω) (Controller ρ)) : Prop :=
  (∀ upstream, cmd ≠ .connect upstream) → cmd ≠ .disconnect → e.after = e.before

/-- Where a turn ends: after a `Disconnect` there is no proxy. -/
def Ended (cmd : Command) (t : Controller ρ) : Prop :=
  cmd = .disconnect → t.proxy = none ∧ t.status = .disconnected

theorem dispatch_turn (R : DnsRedirector ω ρ) (cmd : Command) (c : Controller ρ) :
    Safe (handler R) (fun _ => True) (Asks cmd) (fun _ t => Ended cmd t) (dispatch cmd) c := by
  cases cmd with
  | ping => exact nofun
  | getStatus => exact safe_perform.mpr fun w _ => ⟨fun _ _ => rfl, nofun⟩
  | subscribe =>
    refine safe_perform.mpr fun w _ => ⟨fun _ _ => rfl, ?_⟩
    exact safe_perform.mpr fun w _ => ⟨fun _ _ => rfl, nofun⟩
  | connect upstream =>
    have hB : ∀ e : CallEvent sig (Choice ω) (Controller ρ), True → Asks (.connect upstream) e :=
      fun _ _ hc => absurd rfl (hc upstream)
    exact (safe_trivial _ c).mono (fun _ h => h) hB fun _ _ _ => nofun
  | disconnect =>
    have hB : ∀ e : CallEvent sig (Choice ω) (Controller ρ), True → Asks .disconnect e :=
      fun _ _ _ hc => absurd rfl hc
    refine safe_bind.mpr ((disconnect_ends R c).mono (fun _ h => h) hB fun _ _ ht => ?_)
    exact fun _ => ht.2

/-- The turn under way keeps to its command. -/
theorem reach_turn {R : DnsRedirector ω ρ} {A : Label ω → Daemon ρ → Prop} {port : UInt16}
    {redirector : ρ} {d : Daemon ρ} (h : Reach (step R) A (new port redirector) d) :
    ∀ x, d.holder = some x →
      Safe (handler R) (fun _ => True) (Asks x.cmd) (fun _ t => Ended x.cmd t) x.rest d.controller := by
  have hturns : Turns R (fun _ => True) (fun _ => True) Asks (fun cmd _ _ t => Ended cmd t) d :=
    reach_turns (fun cmd c _ => (dispatch_turn R cmd c).post fun _ _ ht => ⟨trivial, ht⟩) trivial
      (h.mono fun _ _ _ _ _ => trivial)
  exact fun x hx => (hturns.held x hx).post fun _ _ ht => ht.2

end Voidns.Daemon
