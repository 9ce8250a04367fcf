import Voidns.Controller.Basic
import Voidns.Lib.Broadcast
import Voidns.Lib.Steps

/-!
# The daemon

`run_daemon`, and `serve`, `handle_conn` and `dispatch` of `ipc.rs`.  Every
connection has a task of its own, and all of them take turns on the controller's
mutex, which is FIFO; the last turn `run_daemon` takes, to disconnect on
shutdown, is one turn among the others.  A step of the daemon is what some task
does next: everything between two awaits in which it touches what others see.

The task that holds the mutex runs its program on the controller call by call.
Meanwhile the other tasks read commands, queue up, write, and receive statuses:
`recv` needs no lock.  `set` is one call: its assignment can only be seen with
the mutex locked.

Which bytes make up a command is the subject of `Ipc/Conn.lean`; here a
connection reads any command at any time.
-/

namespace Voidns

open Effect Broadcast

/-- What `dispatch` does with the controller locked: a new subscription, if any,
and the reply. -/
def dispatch : Command → Prog Controller.sig (Option Nat × Event)
  | .ping => return (none, .pong)
  | .getStatus => do
    let status ← Controller.readStatus
    return (none, .status status)
  | .subscribe => do
    let rx ← Controller.subscribe
    let status ← Controller.readStatus
    return (some rx, .status status)
  | .connect upstream => do
    let status ← Controller.connect upstream
    return (none, .status status)
  | .disconnect => do
    let status ← Controller.disconnect
    return (none, .status status)

/-- Where `handle_conn` is: at its `select!`, waiting for the mutex or holding it,
in `write_msg`, or over. -/
inductive Phase where
  | select
  | dispatching
  | writing (event : Event)
  | closed
  deriving DecidableEq

/-- A connection, with the commands that have been dispatched and the events
written on it. -/
structure Conn where
  phase : Phase
  subscription : Option Receiver
  handled : List Command
  written : List Event
  deriving DecidableEq

namespace Conn

/-- A connection just accepted. -/
def new : Conn := ⟨.select, none, [], []⟩

/-- `dispatch` has returned. -/
def answer (c : Conn) (cmd : Command) (reply : Option Nat × Event) : Conn where
  phase := .writing reply.2
  subscription := (reply.1.map .new).or c.subscription
  handled := c.handled ++ [cmd]
  written := c.written

/-- `write_msg` has returned: back to the `select!`, or out of the loop on an
error. -/
def wrote (c : Conn) (event : Event) (ok : Bool) : Conn :=
  if ok then { c with phase := .select, written := c.written ++ [event] }
  else { c with phase := .closed }

end Conn

/-- A task that locks the controller. -/
inductive Task where
  | main
  | conn (i : Nat)
  deriving DecidableEq

/-- A task waiting for the mutex, and the command it is to run. -/
structure Waiter where
  task : Task
  cmd : Command
  deriving DecidableEq

/-- The task that holds the mutex: the controller it found, and what it has still
to run. -/
structure Holder (ρ : Type) where
  task : Task
  cmd : Command
  entry : Controller ρ
  rest : Prog Controller.sig (Option Nat × Event)

/-- Where `run_daemon` is: before `serve` accepts, in it, in the shutdown branch,
returned, or the process has exited. -/
inductive Main where
  | starting
  | serving
  | stopping
  | returned (result : Except Error Unit)
  | exited (result : Except Error Unit)
  deriving DecidableEq

/-- The shutdown branch has run to its end. -/
def Main.restored : Main → Bool
  | .returned (.ok _) | .exited (.ok _) => true
  | _ => false

/-- No connection is ever accepted, or not yet. -/
def Main.quiet : Main → Bool
  | .starting | .returned (.error _) | .exited (.error _) => true
  | _ => false

structure Daemon (ρ : Type) where
  controller : Controller ρ
  holder : Option (Holder ρ)
  queue : List Waiter
  main : Main
  conns : List Conn

namespace Daemon

open Controller (Choice handler)

variable {ω ρ : Type}

/-- `run_daemon` before its `select!`. -/
def new (port : UInt16) (redirector : ρ) : Daemon ρ :=
  ⟨.new port redirector, none, [], .starting, []⟩

/-- The capacity of the controller's broadcast channel. -/
def capacity : Nat := 16

/-- What happens next. -/
inductive Label (ω : Type) where
  /-- `serve` has bound its socket. -/
  | listen
  /-- `serve` returns an error, which it only does before it accepts. -/
  | serveError (e : Error)
  | accept
  /-- `read_msg` returns a command on connection `i`. -/
  | recv (i : Nat) (cmd : Command)
  /-- The first in the queue gets the mutex. -/
  | grant
  /-- The holder makes its next call on the controller. -/
  | call (w : Choice ω)
  /-- The holder is done and unlocks. -/
  | release
  /-- `recv_opt` of connection `i` completes. -/
  | update (i : Nat)
  /-- `write_msg` of connection `i` returns. -/
  | write (i : Nat) (ok : Bool)
  /-- `read_msg` of connection `i` returns no command. -/
  | hangup (i : Nat)
  | shutdown
  /-- The runtime is dropped. -/
  | exit

/-- `select!` has read a command. -/
def recv (d : Daemon ρ) (i : Nat) (cmd : Command) (c : Conn) : Daemon ρ :=
  match dispatch cmd with
  | .ret reply => { d with conns := d.conns.set i (c.answer cmd reply) }
  | .call .. =>
    { d with conns := d.conns.set i { c with phase := .dispatching }
             queue := d.queue ++ [⟨.conn i, cmd⟩] }

/-- `select!` has found the subscription ready. -/
def update (d : Daemon ρ) (i : Nat) (c : Conn) (rx : Receiver) : Option (Daemon ρ) :=
  match rx.recv capacity d.controller.sent with
  | .value status rx' =>
    some { d with
      conns := d.conns.set i
        { c with phase := .writing (.status status), subscription := some rx' } }
  -- a lag error is as if nothing had come
  | .lagged rx' => some { d with conns := d.conns.set i { c with subscription := some rx' } }
  | .empty => none

/-- The holder gives up the mutex and goes on with its reply. -/
def release (d : Daemon ρ) (h : Holder ρ) (reply : Option Nat × Event) : Option (Daemon ρ) :=
  match h.task with
  | .main => some { d with holder := none, main := .returned (.ok ()) }
  | .conn i =>
    match d.conns[i]? with
    | some c => some { d with holder := none, conns := d.conns.set i (c.answer h.cmd reply) }
    | none => none

/-- What each label does while the process runs. -/
def act (R : DnsRedirector ω ρ) (d : Daemon ρ) : Label ω → Option (Daemon ρ)
  | .listen => match d.main with
    | .starting => some { d with main := .serving }
    | _ => none
  | .serveError e => match d.main with
    | .starting => some { d with main := .returned (.error e) }
    | _ => none
  | .accept => match d.main with
    | .serving => some { d with conns := d.conns ++ [.new] }
    | _ => none
  | .shutdown => match d.main with
    | .starting | .serving =>
      some { d with main := .stopping, queue := d.queue ++ [⟨.main, .disconnect⟩] }
    | _ => none
  | .exit => match d.main with
    | .returned result => some { d with main := .exited result }
    | _ => none
  | .recv i cmd => match d.conns[i]? with
    | some c => if c.phase = .select then some (d.recv i cmd c) else none
    | none => none
  | .hangup i => match d.conns[i]? with
    | some c =>
      if c.phase = .select then some { d with conns := d.conns.set i { c with phase := .closed } }
      else none
    | none => none
  | .update i => match d.conns[i]? with
    | some c => match c.phase, c.subscription with
      | .select, some rx => d.update i c rx
      | _, _ => none
    | none => none
  | .write i ok => match d.conns[i]? with
    | some c => match c.phase with
      | .writing event => some { d with conns := d.conns.set i (c.wrote event ok) }
      | _ => none
    | none => none
  | .grant => match d.holder, d.queue with
    | none, waiter :: queue =>
      some { d with
        holder := some ⟨waiter.task, waiter.cmd, d.controller, dispatch waiter.cmd⟩
        queue := queue }
    | _, _ => none
  | .call w => match d.holder with
    | some h => match h.rest with
      | .call c k =>
        some { d with
          controller := (handler R c w d.controller).2
          holder := some { h with rest := k (handler R c w d.controller).1 } }
      | .ret _ => none
    | none => none
  | .release => match d.holder with
    | some h => match h.rest with
      | .ret reply => d.release h reply
      | .call .. => none
    | none => none

/-- One step; a process that has exited makes none. -/
def step (R : DnsRedirector ω ρ) (l : Label ω) (d : Daemon ρ) : Option (Daemon ρ) :=
  match d.main with
  | .exited _ => none
  | _ => d.act R l

/-- A `connect` of connection `i` in which nothing fails, up to its reply. -/
def connecting (i : Nat) (upstream : UpstreamSel) : List (Label Fate) :=
  [.recv i (.connect upstream), .grant] ++ List.replicate 9 (.call default)

/-! ### What a step can be -/

/-- Every step, with what makes it possible. -/
inductive Moves (R : DnsRedirector ω ρ) (d : Daemon ρ) : Label ω → Daemon ρ → Prop
  | listen : d.main = .starting → Moves R d .listen { d with main := .serving }
  | serveError (e : Error) : d.main = .starting →
      Moves R d (.serveError e) { d with main := .returned (.error e) }
  | accept : d.main = .serving → Moves R d .accept { d with conns := d.conns ++ [.new] }
  | shutdown : d.main = .starting ∨ d.main = .serving →
      Moves R d .shutdown
        { d with main := .stopping, queue := d.queue ++ [⟨.main, .disconnect⟩] }
  | exit (result : Except Error Unit) : d.main = .returned result →
      Moves R d .exit { d with main := .exited result }
  | recvNow {i : Nat} {c : Conn} {cmd : Command} {reply : Option Nat × Event} :
      d.conns[i]? = some c → c.phase = .select → dispatch cmd = .ret reply →
      Moves R d (.recv i cmd) { d with conns := d.conns.set i (c.answer cmd reply) }
  | recvWait {i : Nat} {c : Conn} {cmd : Command} {call : Controller.Call}
      {k : Controller.Reply call → Prog Controller.sig (Option Nat × Event)} :
      d.conns[i]? = some c → c.phase = .select → dispatch cmd = .call call k →
      Moves R d (.recv i cmd)
        { d with conns := d.conns.set i { c with phase := .dispatching }
                 queue := d.queue ++ [⟨.conn i, cmd⟩] }
  | hangup {i : Nat} {c : Conn} : d.conns[i]? = some c → c.phase = .select →
      Moves R d (.hangup i) { d with conns := d.conns.set i { c with phase := .closed } }
  | updateValue {i : Nat} {c : Conn} {rx rx' : Receiver} {status : Status} :
      d.conns[i]? = some c → c.phase = .select → c.subscription = some rx →
      rx.recv capacity d.controller.sent = .value status rx' →
      Moves R d (.update i)
        { d with
          conns := d.conns.set i
            { c with phase := .writing (.status status), subscription := some rx' } }
  | updateLagged {i : Nat} {c : Conn} {rx rx' : Receiver} :
      d.conns[i]? = some c → c.phase = .select → c.subscription = some rx →
      rx.recv capacity d.controller.sent = .lagged rx' →
      Moves R d (.update i) { d with conns := d.conns.set i { c with subscription := some rx' } }
  | write {i : Nat} {c : Conn} {event : Event} (ok : Bool) :
      d.conns[i]? = some c → c.phase = .writing event →
      Moves R d (.write i ok) { d with conns := d.conns.set i (c.wrote event ok) }
  | grant {waiter : Waiter} {queue : List Waiter} :
      d.holder = none → d.queue = waiter :: queue →
      Moves R d .grant
        { d with
          holder := some ⟨waiter.task, waiter.cmd, d.controller, dispatch waiter.cmd⟩
          queue := queue }
  | call {h : Holder ρ} {c : Controller.Call}
      {k : Controller.Reply c → Prog Controller.sig (Option Nat × Event)} (w : Choice ω) :
      d.holder = some h → h.rest = .call c k →
      Moves R d (.call w)
        { d with
          controller := (handler R c w d.controller).2
          holder := some { h with rest := k (handler R c w d.controller).1 } }
  | releaseMain {h : Holder ρ} {reply : Option Nat × Event} :
      d.holder = some h → h.rest = .ret reply → h.task = .main →
      Moves R d .release { d with holder := none, main := .returned (.ok ()) }
  | releaseConn {h : Holder ρ} {reply : Option Nat × Event} {i : Nat} {c : Conn} :
      d.holder = some h → h.rest = .ret reply → h.task = .conn i → d.conns[i]? = some c →
      Moves R d .release
        { d with holder := none, conns := d.conns.set i (c.answer h.cmd reply) }

theorem act_moves {R : DnsRedirector ω ρ} {l : Label ω} {d e : Daemon ρ}
    (h : d.act R l = some e) : Moves R d l e := by
  cases l with
  | listen =>
    rw [act] at h
    split at h
    · obtain rfl := Option.some.inj h; exact .listen ‹_›
    · exact absurd h (by simp)
  | serveError err =>
    rw [act] at h
    split at h
    · obtain rfl := Option.some.inj h; exact .serveError err ‹_›
    · exact absurd h (by simp)
  | accept =>
    rw [act] at h
    split at h
    · obtain rfl := Option.some.inj h; exact .accept ‹_›
    · exact absurd h (by simp)
  | shutdown =>
    rw [act] at h
    split at h
    · obtain rfl := Option.some.inj h; exact .shutdown (.inl ‹_›)
    · obtain rfl := Option.some.inj h; exact .shutdown (.inr ‹_›)
    · exact absurd h (by simp)
  | exit =>
    rw [act] at h
    split at h
    · obtain rfl := Option.some.inj h; exact .exit _ ‹_›
    · exact absurd h (by simp)
  | recv i cmd =>
    rw [act] at h
    split at h
    · split at h
      · obtain rfl := Option.some.inj h
        unfold recv
        split
        · exact .recvNow ‹_› ‹_› ‹_›
        · exact .recvWait ‹_› ‹_› ‹_›
      · exact absurd h (by simp)
    · exact absurd h (by simp)
  | hangup i =>
    rw [act] at h
    split at h
    · split at h
      · obtain rfl := Option.some.inj h; exact .hangup ‹_› ‹_›
      · exact absurd h (by simp)
    · exact absurd h (by simp)
  | update i =>
    rw [act] at h
    split at h
    · split at h
      · unfold update at h
        split at h
        · obtain rfl := Option.some.inj h; exact .updateValue ‹_› ‹_› ‹_› ‹_›
        · obtain rfl := Option.some.inj h; exact .updateLagged ‹_› ‹_› ‹_› ‹_›
        · exact absurd h (by simp)
      · exact absurd h (by simp)
    · exact absurd h (by simp)
  | write i ok =>
    rw [act] at h
    split at h
    · split at h
      · obtain rfl := Option.some.inj h; exact .write ok ‹_› ‹_›
      · exact absurd h (by simp)
    · exact absurd h (by simp)
  | grant =>
    rw [act] at h
    split at h
    · obtain rfl := Option.some.inj h; exact .grant ‹_› ‹_›
    · exact absurd h (by simp)
  | call w =>
    rw [act] at h
    split at h
    · split at h
      · obtain rfl := Option.some.inj h; exact .call w ‹_› ‹_›
      · exact absurd h (by simp)
    · exact absurd h (by simp)
  | release =>
    rw [act] at h
    split at h
    · split at h
      · unfold release at h
        split at h
        · obtain rfl := Option.some.inj h; exact .releaseMain ‹_› ‹_› ‹_›
        · split at h
          · obtain rfl := Option.some.inj h; exact .releaseConn ‹_› ‹_› ‹_› ‹_›
          · exact absurd h (by simp)
      · exact absurd h (by simp)
    · exact absurd h (by simp)

/-- **A step is one of these**, and the process has not exited. -/
theorem step_moves {R : DnsRedirector ω ρ} {l : Label ω} {d e : Daemon ρ}
    (h : step R l d = some e) : Moves R d l e ∧ ∀ result, d.main ≠ .exited result := by
  unfold step at h
  split at h
  · exact absurd h (by simp)
  · rename_i hmain
    exact ⟨act_moves h, fun result he => hmain result he⟩

theorem step_accept {R : DnsRedirector ω ρ} {d e : Daemon ρ} (h : step R .accept d = some e) :
    e = { d with conns := d.conns ++ [.new] } := by
  obtain ⟨hmoves, _⟩ := step_moves h
  cases hmoves with
  | accept => rfl

/-! ### One connection -/

/-- What a step makes of connection `i`. -/
inductive Becomes (d : Daemon ρ) (l : Label ω) (i : Nat) (c : Conn) : Conn → Prop
  | same : Becomes d l i c c
  | answer {cmd : Command} {reply : Option Nat × Event} :
      l = .recv i cmd ∧ dispatch cmd = .ret reply ∨ (∃ x, d.holder = some x ∧ x.cmd = cmd) →
      Becomes d l i c (c.answer cmd reply)
  | dispatching : c.phase = .select → Becomes d l i c { c with phase := .dispatching }
  | closed : Becomes d l i c { c with phase := .closed }
  | value {rx : Receiver} {status : Status} :
      Becomes d l i c { c with phase := .writing (.status status), subscription := some rx }
  | lagged {rx rx' : Receiver} : c.subscription = some rx →
      rx.recv capacity d.controller.sent = .lagged rx' →
      Becomes d l i c { c with subscription := some rx' }
  | wrote {event : Event} (ok : Bool) : c.phase = .writing event →
      Becomes d l i c (c.wrote event ok)

theorem Becomes.set {d : Daemon ρ} {l : Label ω} {i j : Nat} {c x x' : Conn}
    (hx : d.conns[j]? = some x) (hc : d.conns[i]? = some c)
    (h : i = j → x = c → Becomes d l i c x') :
    ∃ c', (d.conns.set j x')[i]? = some c' ∧ Becomes d l i c c' := by
  by_cases hij : i = j
  · subst hij
    exact ⟨x', List.getElem?_set_self (List.getElem?_eq_some_iff.mp hx).1,
      h rfl (Option.some.inj (hx.symm.trans hc))⟩
  · exact ⟨c, by rw [List.getElem?_set_ne (Ne.symm hij), hc], .same⟩

/-- **A connection stays**, and becomes one of these. -/
theorem step_conn {R : DnsRedirector ω ρ} {l : Label ω} {d e : Daemon ρ} (h : step R l d = some e)
    {i : Nat} {c : Conn} (hc : d.conns[i]? = some c) :
    ∃ c', e.conns[i]? = some c' ∧ Becomes d l i c c' := by
  obtain ⟨hmoves, _⟩ := step_moves h
  cases hmoves with
  | listen | serveError | exit | shutdown | grant | call | releaseMain => exact ⟨c, hc, .same⟩
  | accept =>
    exact ⟨c, by rw [List.getElem?_append_left (List.getElem?_eq_some_iff.mp hc).1, hc], .same⟩
  | recvNow hx hp hret =>
    exact Becomes.set hx hc fun hij hxc => by
      subst hij hxc
      exact .answer (.inl ⟨rfl, hret⟩)
  | recvWait hx hp _ =>
    exact Becomes.set hx hc fun _ hxc => by
      subst hxc
      exact .dispatching hp
  | hangup hx _ =>
    exact Becomes.set hx hc fun _ hxc => by
      subst hxc
      exact .closed
  | updateValue hx _ _ _ =>
    exact Becomes.set hx hc fun _ hxc => by
      subst hxc
      exact .value
  | updateLagged hx _ hsub hr =>
    exact Becomes.set hx hc fun _ hxc => by
      subst hxc
      exact .lagged hsub hr
  | write ok hx hp =>
    exact Becomes.set hx hc fun _ hxc => by
      subst hxc
      exact .wrote ok hp
  | releaseConn hh _ _ hx =>
    exact Becomes.set hx hc fun _ hxc => by
      subst hxc
      exact .answer (.inr ⟨_, hh, rfl⟩)

/-- Only `accept` adds a connection. -/
theorem step_conns_same {R : DnsRedirector ω ρ} {l : Label ω} {d e : Daemon ρ}
    (h : step R l d = some e) (hl : l ≠ .accept) : e.conns.length = d.conns.length := by
  obtain ⟨hmoves, _⟩ := step_moves h
  cases hmoves with
  | accept => exact absurd rfl hl
  | listen | serveError | exit | shutdown | grant | call | releaseMain => rfl
  | recvNow | recvWait | hangup | updateValue | updateLagged | write | releaseConn =>
    exact List.length_set

/-- Connections are only ever added. -/
theorem step_conns_length {R : DnsRedirector ω ρ} {l : Label ω} {d e : Daemon ρ}
    (h : step R l d = some e) : d.conns.length ≤ e.conns.length := by
  refine Nat.le_of_not_lt fun hlt => ?_
  obtain ⟨c', hc', _⟩ := step_conn h (List.getElem?_eq_getElem hlt)
  exact absurd (List.getElem?_eq_some_iff.mp hc').1 (by omega)

/-- What has been written stays written. -/
theorem Becomes.written {d : Daemon ρ} {l : Label ω} {i : Nat} {c c' : Conn}
    (h : Becomes d l i c c') : c.written <+: c'.written := by
  cases h with
  | wrote ok =>
    cases ok with
    | true => exact List.prefix_append _ _
    | false => exact List.prefix_refl _
  | same | answer | dispatching | closed | value | lagged => exact List.prefix_refl _

end Daemon

end Voidns
