import Voidns.Daemon.History
import Voidns.Ipc.Wire

/-!
# The daemon on its sockets

Below the daemon that reads a command at any time is one that reads bytes.  A client
writes what it likes, the bytes arrive in pieces, the `read_msg` of a connection takes
those that are there and loses what it holds when a status is forwarded, and
`write_msg` may fail with part of a frame written.

Seen without its bytes this is a run of the daemon, and seen without the rest each
connection of it is one that is run by itself (`wired_projects`).
-/

namespace Voidns

open Effect Steps Framing

/-- The bytes of one connection: all that the client writes, those of them still on
their way, those in the socket, those the `read_msg` under way has taken, and what
has been written to the client. -/
structure Pipe where
  sent : List UInt8
  coming : List UInt8
  input : List UInt8
  held : List UInt8
  output : List UInt8
  deriving DecidableEq

namespace Pipe

/-- A connection on which the client writes `bytes`. -/
def new (bytes : List UInt8) : Pipe := ⟨bytes, bytes, [], [], []⟩

/-- The next `n` bytes are there. -/
def arrive (p : Pipe) (n : Nat) : Pipe :=
  { p with coming := p.coming.drop n, input := p.input ++ p.coming.take n }

/-- The frame of an event is written, or as much of it as the stream took. -/
def wrote (p : Pipe) (events : Ipc.Codec Event) (event : Event) (ok : Bool) (n : Nat) : Pipe :=
  { p with output := p.output ++ if ok then events.wire event else (events.wire event).take n }

end Pipe

/-- The daemon with the bytes of its connections. -/
structure Wired (ρ : Type) where
  daemon : Daemon ρ
  pipes : List Pipe

namespace Daemon

variable {ω ρ : Type} {R : DnsRedirector ω ρ} {l : Label ω} {d e : Daemon ρ}

/-- The handler of connection `i` is in `dispatch` with `cmd`. -/
def Runs (d : Daemon ρ) (i : Nat) (cmd : Command) : Prop :=
  (∃ x, d.holder = some x ∧ x.task = .conn i ∧ x.cmd = cmd) ∨ ⟨.conn i, cmd⟩ ∈ d.queue

theorem Runs.mem_tasks {i : Nat} {cmd : Command} (h : d.Runs i cmd) : Task.conn i ∈ d.tasks := by
  rcases h with ⟨x, hx, ht, _⟩ | hq
  · simp [tasks, hx, ht]
  · exact List.mem_append_right _ (List.mem_map.mpr ⟨_, hq, rfl⟩)

/-- Only reading a command makes a handler dispatch one. -/
theorem step_runs (h : step R l d = some e) {i : Nat} {cmd : Command} (hr : e.Runs i cmd) :
    d.Runs i cmd ∨ l = .recv i cmd := by
  obtain ⟨hmoves, _⟩ := step_moves h
  cases hmoves with
  | listen | serveError | exit | accept | recvNow | hangup | updateValue | updateLagged | write =>
    exact .inl hr
  | shutdown _ =>
    rcases hr with hx | hq
    · exact .inl (.inl hx)
    · rcases List.mem_append.mp hq with hq | hq
      · exact .inl (.inr hq)
      · exact absurd (List.mem_singleton.mp hq) (by simp)
  | @recvWait j c cmd' _ _ _ _ _ =>
    rcases hr with hx | hq
    · exact .inl (.inl hx)
    · rcases List.mem_append.mp hq with hq | hq
      · exact .inl (.inr hq)
      · obtain ⟨hj, hcmd⟩ := Waiter.mk.inj (List.mem_singleton.mp hq)
        rw [Task.conn.inj hj, hcmd]
        exact .inr rfl
  | grant _ hqueue =>
    rcases hr with ⟨x, hx, ht, hcmd⟩ | hq
    · refine .inl (.inr ?_)
      rw [← Option.some.inj hx] at ht hcmd
      rw [hqueue, ← ht, ← hcmd]
      exact List.mem_cons_self
    · exact .inl (.inr (by rw [hqueue]; exact List.mem_cons_of_mem _ hq))
  | call w hh _ =>
    rcases hr with ⟨x, hx, ht, hcmd⟩ | hq
    · rw [← Option.some.inj hx] at ht hcmd
      exact .inl (.inl ⟨_, hh, ht, hcmd⟩)
    · exact .inl (.inr hq)
  | releaseMain | releaseConn =>
    rcases hr with ⟨x, hx, _⟩ | hq
    · exact absurd hx (by simp)
    · exact .inl (.inr hq)

/-- The connection a step reads or writes on. -/
def Label.about : Label ω → Option Nat
  | .recv i _ | .hangup i | .update i | .write i _ => some i
  | .listen | .serveError _ | .accept | .grant | .call _ | .release | .shutdown | .exit => none

/-- What is read and written on another connection does not matter. -/
theorem step_apart (h : step R l d = some e) {i j : Nat} (hl : l.about = some j) (hij : j ≠ i) :
    e.conns[i]? = d.conns[i]? := by
  obtain ⟨hmoves, _⟩ := step_moves h
  cases hmoves with
  | listen | serveError | exit | accept | shutdown | grant | call | releaseMain | releaseConn =>
    exact absurd hl (by simp [Label.about])
  | recvNow | recvWait | hangup | updateValue | updateLagged | write =>
    obtain rfl := Option.some.inj hl
    exact List.getElem?_set_ne hij

end Daemon

namespace Wired

variable {ω ρ : Type}

def new (port : UInt16) (redirector : ρ) : Wired ρ := ⟨.new port redirector, []⟩

/-- What happens next. -/
inductive Signal (ω : Type) where
  /-- A client connects that is going to write these bytes. -/
  | accept (bytes : List UInt8)
  /-- The next `n` bytes arrive on connection `i`. -/
  | arrive (i n : Nat)
  /-- The branch of connection `i` that reads is polled. -/
  | poll (i : Nat)
  /-- `recv_opt` of connection `i` completes. -/
  | update (i : Nat)
  /-- `write_msg` of connection `i` returns; if it fails, `n` bytes at most are written. -/
  | write (i : Nat) (ok : Bool) (n : Nat)
  /-- `read_msg` of connection `i` finds the end of the stream. -/
  | hangup (i : Nat)
  /-- A read of connection `i` returns an error. -/
  | fail (i : Nat)
  /-- A step that has to do with no stream. -/
  | other (l : Daemon.Label ω)

/-- The steps of the daemon that neither read nor write. -/
def inner : Daemon.Label ω → Bool
  | .listen | .serveError _ | .grant | .call _ | .release | .shutdown | .exit => true
  | .accept | .recv .. | .update _ | .write .. | .hangup _ => false

/-- `read_msg` has returned a command, or an error on what is none. -/
def heard (i : Nat) : Option Command → Daemon.Label ω
  | some cmd => .recv i cmd
  | none => .hangup i

section

variable (commands : Ipc.Codec Command) (events : Ipc.Codec Event) (R : DnsRedirector ω ρ)

/-- A step of the daemon, and what it makes of the bytes. -/
def move (w : Wired ρ) (l : Daemon.Label ω) (pipes : List Pipe) : Option (Wired ρ) :=
  (w.daemon.step R l).map fun d => ⟨d, pipes⟩

/-- The branch that reads is polled. -/
def poll (w : Wired ρ) (i : Nat) (p : Pipe) : Option (Wired ρ) :=
  match readFrom p.held p.input with
  | (none, held, rest) =>
    some { w with pipes := w.pipes.set i { p with held := held, input := rest } }
  | (some payload, _, rest) =>
    w.move R (heard i (commands.decode payload)) (w.pipes.set i { p with held := [], input := rest })

/-- What each signal does while the process runs. -/
def act (w : Wired ρ) : Signal ω → Option (Wired ρ)
  | .accept bytes => w.move R .accept (w.pipes ++ [.new bytes])
  | .arrive i n => match w.pipes[i]? with
    | some p => some { w with pipes := w.pipes.set i (p.arrive n) }
    | none => none
  | .poll i => match w.daemon.conns[i]?, w.pipes[i]? with
    | some c, some p => if c.phase = .select then w.poll commands R i p else none
    | _, _ => none
  | .update i => match w.pipes[i]? with
    -- the future of `read_msg` is dropped with what it holds
    | some p => w.move R (.update i) (w.pipes.set i { p with held := [] })
    | none => none
  | .write i ok n => match w.daemon.conns[i]?, w.pipes[i]? with
    | some c, some p => match c.phase with
      | .writing event => w.move R (.write i ok) (w.pipes.set i (p.wrote events event ok n))
      | _ => none
    | _, _ => none
  | .hangup i => match w.pipes[i]? with
    | some p => if p.coming = [] ∧ p.input = [] then w.move R (.hangup i) w.pipes else none
    | none => none
  | .fail i => w.move R (.hangup i) w.pipes
  | .other l => if inner l then w.move R l w.pipes else none

/-- One step; a process that has exited makes none. -/
def step (s : Signal ω) (w : Wired ρ) : Option (Wired ρ) :=
  match w.daemon.main with
  | .exited _ => none
  | _ => w.act commands events R s

/-! ### What a step can be -/

/-- Every step, with what makes it possible and the step of the daemon it is. -/
inductive Moves (w : Wired ρ) : Signal ω → Wired ρ → Prop
  | accept {d : Daemon ρ} (bytes : List UInt8) : Daemon.step R .accept w.daemon = some d →
      Moves w (.accept bytes) ⟨d, w.pipes ++ [.new bytes]⟩
  | arrive {i n : Nat} {p : Pipe} : w.pipes[i]? = some p →
      Moves w (.arrive i n) ⟨w.daemon, w.pipes.set i (p.arrive n)⟩
  | hold {i : Nat} {c : Conn} {p : Pipe} {held rest : List UInt8} :
      w.daemon.conns[i]? = some c → w.pipes[i]? = some p → c.phase = .select →
      readFrom p.held p.input = (none, held, rest) →
      Moves w (.poll i) ⟨w.daemon, w.pipes.set i { p with held := held, input := rest }⟩
  | poll {i : Nat} {c : Conn} {p : Pipe} {payload held rest : List UInt8} {d : Daemon ρ} :
      w.daemon.conns[i]? = some c → w.pipes[i]? = some p → c.phase = .select →
      readFrom p.held p.input = (some payload, held, rest) →
      Daemon.step R (heard i (commands.decode payload)) w.daemon = some d →
      Moves w (.poll i) ⟨d, w.pipes.set i { p with held := [], input := rest }⟩
  | update {i : Nat} {p : Pipe} {d : Daemon ρ} : w.pipes[i]? = some p →
      Daemon.step R (.update i) w.daemon = some d →
      Moves w (.update i) ⟨d, w.pipes.set i { p with held := [] }⟩
  | write {i : Nat} {c : Conn} {p : Pipe} {event : Event} {d : Daemon ρ} (ok : Bool) (n : Nat) :
      w.daemon.conns[i]? = some c → w.pipes[i]? = some p → c.phase = .writing event →
      Daemon.step R (.write i ok) w.daemon = some d →
      Moves w (.write i ok n) ⟨d, w.pipes.set i (p.wrote events event ok n)⟩
  | hangup {i : Nat} {p : Pipe} {d : Daemon ρ} : w.pipes[i]? = some p → p.coming = [] →
      p.input = [] → Daemon.step R (.hangup i) w.daemon = some d →
      Moves w (.hangup i) ⟨d, w.pipes⟩
  | fail {i : Nat} {d : Daemon ρ} : Daemon.step R (.hangup i) w.daemon = some d →
      Moves w (.fail i) ⟨d, w.pipes⟩
  | other {l : Daemon.Label ω} {d : Daemon ρ} : inner l = true →
      Daemon.step R l w.daemon = some d → Moves w (.other l) ⟨d, w.pipes⟩

variable {commands events R} {w v : Wired ρ}

theorem move_some {l : Daemon.Label ω} {pipes : List Pipe} (h : w.move R l pipes = some v) :
    ∃ d, Daemon.step R l w.daemon = some d ∧ v = ⟨d, pipes⟩ := by
  obtain ⟨d, hd, hv⟩ := Option.map_eq_some_iff.mp h
  exact ⟨d, hd, hv.symm⟩

theorem poll_moves {i : Nat} {c : Conn} {p : Pipe} (hc : w.daemon.conns[i]? = some c)
    (hp : w.pipes[i]? = some p) (hsel : c.phase = .select) (h : w.poll commands R i p = some v) :
    Moves commands events R w (.poll i) v := by
  rw [poll] at h
  split at h
  · obtain rfl := Option.some.inj h
    exact .hold hc hp hsel ‹_›
  · obtain ⟨d, hd, rfl⟩ := move_some h
    exact .poll hc hp hsel ‹_› hd

theorem act_moves {s : Signal ω} (h : w.act commands events R s = some v) :
    Moves commands events R w s v := by
  cases s with
  | accept bytes =>
    obtain ⟨d, hd, rfl⟩ := move_some h
    exact .accept bytes hd
  | arrive i n =>
    rw [act] at h
    split at h
    · obtain rfl := Option.some.inj h
      exact .arrive ‹_›
    · exact absurd h (by simp)
  | poll i =>
    rw [act] at h
    split at h
    · split at h
      · exact poll_moves ‹_› ‹_› ‹_› h
      · exact absurd h (by simp)
    · exact absurd h (by simp)
  | update i =>
    rw [act] at h
    split at h
    · obtain ⟨d, hd, rfl⟩ := move_some h
      exact .update ‹_› hd
    · exact absurd h (by simp)
  | write i ok n =>
    rw [act] at h
    split at h
    · split at h
      · obtain ⟨d, hd, rfl⟩ := move_some h
        exact .write ok n ‹_› ‹_› ‹_› hd
      · exact absurd h (by simp)
    · exact absurd h (by simp)
  | hangup i =>
    rw [act] at h
    split at h
    · split at h
      · rename_i hend
        obtain ⟨d, hd, rfl⟩ := move_some h
        exact .hangup ‹_› hend.1 hend.2 hd
      · exact absurd h (by simp)
    · exact absurd h (by simp)
  | fail i =>
    obtain ⟨d, hd, rfl⟩ := move_some h
    exact .fail hd
  | other l =>
    rw [act] at h
    split at h
    · obtain ⟨d, hd, rfl⟩ := move_some h
      exact .other ‹_› hd
    · exact absurd h (by simp)

/-- **A step is one of these**, and the process has not exited. -/
theorem step_moves {s : Signal ω} (h : step commands events R s w = some v) :
    Moves commands events R w s v := by
  unfold step at h
  split at h
  · exact absurd h (by simp)
  · exact act_moves h

/-- A step of the daemon, or one that leaves it alone. -/
theorem Moves.daemon {s : Signal ω} (h : Moves commands events R w s v) :
    v.daemon = w.daemon ∨ ∃ l, Daemon.step R l w.daemon = some v.daemon := by
  cases h with
  | arrive | hold => exact .inl rfl
  | accept bytes hd => exact .inr ⟨_, hd⟩
  | poll _ _ _ _ hd => exact .inr ⟨_, hd⟩
  | update _ hd => exact .inr ⟨_, hd⟩
  | write ok n _ _ _ hd => exact .inr ⟨_, hd⟩
  | hangup _ _ _ hd => exact .inr ⟨_, hd⟩
  | fail hd => exact .inr ⟨_, hd⟩
  | other _ hd => exact .inr ⟨_, hd⟩

/-! ### The daemon underneath -/

/-- There are bytes for each connection. -/
theorem Moves.length {s : Signal ω} (h : Moves commands events R w s v)
    (hlen : w.pipes.length = w.daemon.conns.length) : v.pipes.length = v.daemon.conns.length := by
  cases h with
  | arrive | hold => simpa using hlen
  | accept bytes hd => rw [Daemon.step_accept hd]; simp [hlen]
  | poll _ _ _ _ hd =>
    rw [List.length_set, hlen]
    refine (Daemon.step_conns_same hd ?_).symm
    cases commands.decode _ <;> simp [heard]
  | update _ hd => rw [List.length_set, hlen, Daemon.step_conns_same hd (by simp)]
  | write ok n _ _ _ hd => rw [List.length_set, hlen, Daemon.step_conns_same hd (by simp)]
  | hangup _ _ _ hd => rw [hlen, Daemon.step_conns_same hd (by simp)]
  | fail hd => rw [hlen, Daemon.step_conns_same hd (by simp)]
  | other hl hd =>
    rw [hlen, Daemon.step_conns_same hd]
    rintro rfl
    exact absurd hl (by simp [inner])

/-- **Without its bytes** a run is one of the daemon. -/
theorem reach_daemon {A : Signal ω → Wired ρ → Prop} (h : Reach (step commands events R) A w v) :
    Reach (Daemon.step R) (fun _ _ => True) w.daemon v.daemon := by
  obtain ⟨d, hd, rfl⟩ := h.simulated (B := fun _ _ => True) (Q := fun w d => w.daemon = d) rfl
    fun s w v d _ hs hQ => by
      obtain ⟨hsame⟩ | ⟨l, hl⟩ := (step_moves hs).daemon
      · exact ⟨d, .inl rfl, hsame.trans hQ⟩
      · exact ⟨v.daemon, .inr ⟨l, trivial, hQ ▸ hl⟩, rfl⟩
  exact hd

/-! ### Each connection by itself -/

/-- How connection `i` of the daemon is seen by itself: as `k`. -/
structure Seen (d : Daemon ρ) (i : Nat) (p : Pipe) (c : Conn) (k : Ipc.Conn) : Prop where
  coming : k.coming = p.coming
  input : k.input = p.input
  held : k.held = p.held
  select : c.phase = .select → k.phase = .select
  dispatching : c.phase = .dispatching → ∀ cmd, d.Runs i cmd → k.phase = .replying cmd ∧
    k.dispatched = c.handled ++ [cmd] ∧ (cmd = .subscribe → k.subscribed = true)
  writing : ∀ event, c.phase = .writing event → k.phase ≠ .closed
  closed : c.phase = .closed → k.phase = .closed
  handled : c.phase ≠ .dispatching → k.dispatched = c.handled
  subscribed : c.subscription ≠ none → k.subscribed = true

theorem Seen.new {d : Daemon ρ} {i : Nat} (bytes : List UInt8) :
    Seen d i (.new bytes) .new (.reading bytes) where
  coming := rfl
  input := rfl
  held := rfl
  select _ := rfl
  dispatching hp := absurd hp (by simp [Conn.new])
  writing _ hp := absurd hp (by simp [Conn.new])
  closed hp := absurd hp (by simp [Conn.new])
  handled _ := rfl
  subscribed hn := absurd rfl hn

/-- What goes on elsewhere. -/
theorem Seen.frame {d e : Daemon ρ} {i : Nat} {p : Pipe} {c : Conn} {k : Ipc.Conn}
    (h : Seen d i p c k) (hruns : ∀ cmd, e.Runs i cmd → d.Runs i cmd) : Seen e i p c k :=
  { h with dispatching := fun hp cmd hr => h.dispatching hp cmd (hruns cmd hr) }

/-- Something is read or written on another connection. -/
theorem Seen.apart {l : Daemon.Label ω} {d e : Daemon ρ} {i j : Nat} {p : Pipe} {c : Conn}
    {k : Ipc.Conn} (h : Seen d i p c k) (hs : Daemon.step R l d = some e) (hl : l.about = some j)
    (hij : j ≠ i) : Seen e i p c k := by
  refine h.frame fun cmd hr => (Daemon.step_runs hs hr).resolve_right ?_
  rintro rfl
  exact hij (Option.some.inj hl).symm

/-- `read_msg` has returned with a command or an error. -/
theorem Seen.poll {d e : Daemon ρ} {i : Nat} {p : Pipe} {c : Conn} {k : Ipc.Conn}
    {payload held rest : List UInt8} (h : Seen d i p c k) (hq : Daemon.Queued d)
    (hc : d.conns[i]? = some c) (hsel : c.phase = .select)
    (hread : readFrom p.held p.input = (some payload, held, rest))
    (hs : Daemon.step R (heard i (commands.decode payload)) d = some e) :
    ∃ c', e.conns[i]? = some c' ∧ ∃ k', Ipc.step commands .poll k = some k' ∧
      Seen e i { p with held := [], input := rest } c' k' := by
  have hlt : i < d.conns.length := (List.getElem?_eq_some_iff.mp hc).1
  have hopen : c.phase ≠ .dispatching := by rw [hsel]; simp
  have hpoll : Ipc.step commands .poll k = some (k.receive rest (commands.decode payload)) := by
    simp only [Ipc.step, h.select hsel, h.held, h.input, hread]
  cases hcmd : commands.decode payload with
  | none =>
    rw [hcmd] at hs hpoll
    obtain ⟨hmoves, _⟩ := Daemon.step_moves hs
    cases hmoves with
    | @hangup _ x hx _ =>
      obtain rfl := Option.some.inj (hc.symm.trans hx)
      refine ⟨_, List.getElem?_set_self hlt, _, hpoll, ?_⟩
      exact ⟨h.coming, rfl, rfl, fun hp => absurd hp (by simp), fun hp => absurd hp (by simp),
        fun _ hp => absurd hp (by simp), fun _ => rfl, fun _ => h.handled hopen, h.subscribed⟩
  | some cmd =>
    rw [hcmd] at hs hpoll
    have hsub : c.subscription ≠ none → (k.receive rest (some cmd)).subscribed = true := fun hn => by
      show (k.subscribed || decide (cmd = .subscribe)) = true
      rw [h.subscribed hn, Bool.true_or]
    obtain ⟨hmoves, _⟩ := Daemon.step_moves hs
    cases hmoves with
    | @recvNow _ x _ reply hx _ hret =>
      obtain rfl := Option.some.inj (hc.symm.trans hx)
      obtain ⟨rfl, rfl⟩ := Daemon.dispatch_ret hret
      refine ⟨_, List.getElem?_set_self hlt, _, hpoll, ?_⟩
      refine ⟨h.coming, rfl, rfl, fun hp => absurd hp (by simp [Conn.answer]),
        fun hp => absurd hp (by simp [Conn.answer]), fun _ _ => by simp [Ipc.Conn.receive],
        fun hp => absurd hp (by simp [Conn.answer]), fun _ => ?_, hsub⟩
      show k.dispatched ++ [.ping] = c.handled ++ [.ping]
      rw [h.handled hopen]
    | @recvWait _ x _ _ _ hx _ hcall =>
      obtain rfl := Option.some.inj (hc.symm.trans hx)
      refine ⟨_, List.getElem?_set_self hlt, _, hpoll, ?_⟩
      refine ⟨h.coming, rfl, rfl, fun hp => absurd hp (by simp), fun _ cmd' hr => ?_,
        fun _ hp => absurd hp (by simp), fun hp => absurd hp (by simp),
        fun hp => absurd rfl hp, hsub⟩
      -- it runs no other command: it was not dispatching
      obtain rfl : cmd' = cmd := by
        rcases Daemon.step_runs hs hr with hr | hl
        · have hdisp := (hq.conn i).mp hr.mem_tasks
          rw [Daemon.dispatching, hc] at hdisp
          exact absurd (Option.some.inj hdisp) hopen
        · exact ((Daemon.Label.recv.inj hl).2).symm
      refine ⟨rfl, ?_, fun hcmd => by simp [Ipc.Conn.receive, hcmd]⟩
      show k.dispatched ++ [cmd'] = c.handled ++ [cmd']
      rw [h.handled hopen]

variable (commands) in
/-- `recv_opt` has completed, with a status or with a lag error. -/
theorem Seen.update {d e : Daemon ρ} {i : Nat} {p : Pipe} {c : Conn} {k : Ipc.Conn}
    (h : Seen d i p c k) (hc : d.conns[i]? = some c) (hs : Daemon.step R (.update i) d = some e) :
    ∃ c', e.conns[i]? = some c' ∧ ∃ k', (∃ status, Ipc.step commands (.update status) k = some k') ∧
      Seen e i { p with held := [] } c' k' := by
  have hlt : i < d.conns.length := (List.getElem?_eq_some_iff.mp hc).1
  have hstep : ∀ status, c.phase = .select → c.subscription ≠ none →
      Ipc.step commands (.update status) k = some
        { k with held := [], written := k.written ++ if status then [.update] else [] } := by
    intro status hsel hn
    simp only [Ipc.step, h.select hsel, h.subscribed hn, if_pos]
  obtain ⟨hmoves, _⟩ := Daemon.step_moves hs
  cases hmoves with
  | @updateValue _ x rx rx' status hx hsel hsub _ =>
    obtain rfl := Option.some.inj (hc.symm.trans hx)
    have hn : c.subscription ≠ none := by rw [hsub]; simp
    refine ⟨_, List.getElem?_set_self hlt, _, ⟨true, hstep true hsel hn⟩, ?_⟩
    exact ⟨h.coming, h.input, rfl, fun hp => absurd hp (by simp), fun hp => absurd hp (by simp),
      fun _ _ hk => absurd ((h.select hsel).symm.trans hk) (by simp), fun hp => absurd hp (by simp),
      fun _ => h.handled (by rw [hsel]; simp), fun _ => h.subscribed hn⟩
  | @updateLagged _ x rx rx' hx hsel hsub _ =>
    obtain rfl := Option.some.inj (hc.symm.trans hx)
    have hn : c.subscription ≠ none := by rw [hsub]; simp
    refine ⟨_, List.getElem?_set_self hlt, _, ⟨false, hstep false hsel hn⟩, ?_⟩
    exact ⟨h.coming, h.input, rfl, h.select, fun hp => absurd (hsel.symm.trans hp) (by simp),
      h.writing, h.closed, h.handled, fun _ => h.subscribed hn⟩

variable (commands events) in
/-- `write_msg` has returned.  By itself, a status was forwarded when it came. -/
theorem Seen.write {d e : Daemon ρ} {i : Nat} {p : Pipe} {c : Conn} {k : Ipc.Conn} {ok : Bool}
    {event : Event} (n : Nat) (h : Seen d i p c k) (hc : d.conns[i]? = some c)
    (hp : c.phase = .writing event) (hs : Daemon.step R (.write i ok) d = some e) :
    ∃ c', e.conns[i]? = some c' ∧ ∃ k', (k' = k ∨ ∃ l, Ipc.step commands l k = some k') ∧
      Seen e i (p.wrote events event ok n) c' k' := by
  have hlt : i < d.conns.length := (List.getElem?_eq_some_iff.mp hc).1
  have hhandled : k.dispatched = c.handled := h.handled (by rw [hp]; simp)
  obtain ⟨hmoves, _⟩ := Daemon.step_moves hs
  cases hmoves with
  | @write _ x event' _ hx hp' =>
    obtain rfl := Option.some.inj (hc.symm.trans hx)
    refine ⟨_, List.getElem?_set_self hlt, ?_⟩
    cases ok with
    | false =>
      refine ⟨{ k with phase := .closed }, .inr ⟨.fail, if_neg (h.writing event hp)⟩, ?_⟩
      exact ⟨h.coming, h.input, h.held, fun hp => absurd hp (by simp [Conn.wrote]),
        fun hp => absurd hp (by simp [Conn.wrote]), fun _ hp => absurd hp (by simp [Conn.wrote]),
        fun _ => rfl, fun _ => hhandled, h.subscribed⟩
    | true =>
      cases hk : k.phase with
      | closed => exact absurd hk (h.writing event hp)
      | select =>
        refine ⟨k, .inl rfl, ?_⟩
        exact ⟨h.coming, h.input, h.held, fun _ => hk, fun hp => absurd hp (by simp [Conn.wrote]),
          fun _ hp => absurd hp (by simp [Conn.wrote]), fun hp => absurd hp (by simp [Conn.wrote]),
          fun _ => hhandled, h.subscribed⟩
      | replying cmd =>
        refine ⟨{ k with phase := .select, written := k.written ++ [.reply cmd] },
          .inr ⟨.reply, by simp only [Ipc.step, hk]⟩, ?_⟩
        exact ⟨h.coming, h.input, h.held, fun _ => rfl, fun hp => absurd hp (by simp [Conn.wrote]),
          fun _ hp => absurd hp (by simp [Conn.wrote]), fun hp => absurd hp (by simp [Conn.wrote]),
          fun _ => hhandled, h.subscribed⟩

/-- The handler leaves its loop. -/
theorem Seen.hangup {d e : Daemon ρ} {i : Nat} {p : Pipe} {c : Conn} {k : Ipc.Conn}
    (h : Seen d i p c k) (hc : d.conns[i]? = some c) (hs : Daemon.step R (.hangup i) d = some e) :
    c.phase = .select ∧ ∃ c', e.conns[i]? = some c' ∧ Seen e i p c' { k with phase := .closed } := by
  have hlt : i < d.conns.length := (List.getElem?_eq_some_iff.mp hc).1
  obtain ⟨hmoves, _⟩ := Daemon.step_moves hs
  cases hmoves with
  | @hangup _ x hx hsel =>
    obtain rfl := Option.some.inj (hc.symm.trans hx)
    refine ⟨hsel, _, List.getElem?_set_self hlt, ?_⟩
    exact ⟨h.coming, h.input, h.held, fun hp => absurd hp (by simp), fun hp => absurd hp (by simp),
      fun _ hp => absurd hp (by simp), fun _ => rfl, fun _ => h.handled (by rw [hsel]; simp),
      h.subscribed⟩

/-- A step that has to do with no stream. -/
theorem Seen.other {l : Daemon.Label ω} {d e : Daemon ρ} {i : Nat} {p : Pipe} {c : Conn}
    {k : Ipc.Conn} (h : Seen d i p c k) (hq : Daemon.Queued d)
    (hlocked : Daemon.Locked R (fun _ => True) (fun _ => True) (fun _ => True) d)
    (hc : d.conns[i]? = some c) (hl : inner l = true) (hs : Daemon.step R l d = some e) :
    ∃ c', e.conns[i]? = some c' ∧ Seen e i p c' k := by
  have hframe : Seen e i p c k := by
    refine h.frame fun cmd hr => (Daemon.step_runs hs hr).resolve_right ?_
    rintro rfl
    exact absurd hl (by simp [inner])
  obtain ⟨hmoves, _⟩ := Daemon.step_moves hs
  cases hmoves with
  | listen | serveError | exit | shutdown | grant | call | releaseMain => exact ⟨c, hc, hframe⟩
  | accept | recvNow | recvWait | hangup | updateValue | updateLagged | write => simp [inner] at hl
  | @releaseConn x reply j cj hx hr ht hcj =>
    by_cases hij : j = i
    · subst hij
      obtain rfl := Option.some.inj (hc.symm.trans hcj)
      have hdisp := hq.holding hx ht hc
      obtain ⟨hphase, hdispatched, hsub⟩ := h.dispatching hdisp x.cmd (.inl ⟨x, hx, ht, rfl⟩)
      refine ⟨_, List.getElem?_set_self (List.getElem?_eq_some_iff.mp hc).1, ?_⟩
      refine ⟨h.coming, h.input, h.held, fun hp => absurd hp (by simp [Conn.answer]),
        fun hp => absurd hp (by simp [Conn.answer]), fun _ _ => by rw [hphase]; simp,
        fun hp => absurd hp (by simp [Conn.answer]), fun _ => hdispatched, fun hn => ?_⟩
      -- only a `Subscribe` has made a subscription
      by_cases hcmd : x.cmd = .subscribe
      · exact hsub hcmd
      · refine h.subscribed fun hnone => hn ?_
        have hreply := (hlocked.done hx hr).2.other hcmd
        show (reply.1.map Broadcast.Receiver.new).or c.subscription = none
        rw [hreply, hnone]
        rfl
    · exact ⟨c, by rw [List.getElem?_set_ne hij, hc], hframe⟩

/-- Each connection is seen as a run by itself. -/
def Apart (commands : Ipc.Codec Command) (w : Wired ρ) : Prop :=
  ∀ i p c, w.pipes[i]? = some p → w.daemon.conns[i]? = some c →
    ∃ k, Reach (Ipc.step commands) (fun _ _ => True) (.reading p.sent) k ∧ Seen w.daemon i p c k

/-- The connection a signal is about. -/
def Signal.about : Signal ω → Option Nat
  | .arrive i _ | .poll i | .update i | .write i .. | .hangup i | .fail i => some i
  | .accept _ | .other _ => none

theorem about_heard (i : Nat) (cmd : Option Command) :
    (heard i cmd : Daemon.Label ω).about = some i := by
  cases cmd <;> rfl

/-- What goes on on another connection. -/
theorem Moves.apart {s : Signal ω} (h : Moves commands events R w s v) {i j : Nat}
    (hs : s.about = some j) (hij : j ≠ i) :
    v.pipes[i]? = w.pipes[i]? ∧ v.daemon.conns[i]? = w.daemon.conns[i]? ∧
      ∀ p c k, Seen w.daemon i p c k → Seen v.daemon i p c k := by
  have hdaemon : ∀ {l : Daemon.Label ω} {d : Daemon ρ}, l.about = some j →
      Daemon.step R l w.daemon = some d → d.conns[i]? = w.daemon.conns[i]? ∧
        ∀ p c k, Seen w.daemon i p c k → Seen d i p c k := fun hl hd =>
    ⟨Daemon.step_apart hd hl hij, fun _ _ _ hk => hk.apart hd hl hij⟩
  cases h with
  | accept | other => exact absurd hs (by simp [Signal.about])
  | arrive | hold =>
    obtain rfl := Option.some.inj hs
    exact ⟨List.getElem?_set_ne hij, rfl, fun _ _ _ hk => hk⟩
  | poll _ _ _ _ hd =>
    obtain rfl := Option.some.inj hs
    exact ⟨List.getElem?_set_ne hij, hdaemon (about_heard _ _) hd⟩
  | update _ hd =>
    obtain rfl := Option.some.inj hs
    exact ⟨List.getElem?_set_ne hij, hdaemon rfl hd⟩
  | write ok n _ _ _ hd =>
    obtain rfl := Option.some.inj hs
    exact ⟨List.getElem?_set_ne hij, hdaemon rfl hd⟩
  | hangup _ _ _ hd =>
    obtain rfl := Option.some.inj hs
    exact ⟨rfl, hdaemon rfl hd⟩
  | fail hd =>
    obtain rfl := Option.some.inj hs
    exact ⟨rfl, hdaemon rfl hd⟩

section

variable {s : Signal ω} {i : Nat} {p : Pipe} {c : Conn} {k : Ipc.Conn}

/-- Connection `i` is there after the step, and has made a step by itself or none. -/
def Goes (commands : Ipc.Codec Command) (v : Wired ρ) (i : Nat) (p : Pipe) (k : Ipc.Conn) : Prop :=
  ∃ p' c' k', v.pipes[i]? = some p' ∧ v.daemon.conns[i]? = some c' ∧ p'.sent = p.sent ∧
    (k' = k ∨ ∃ l, Ipc.step commands l k = some k') ∧ Seen v.daemon i p' c' k'

/-- What goes on on the connection itself. -/
theorem Moves.own (h : Moves commands events R w s v) (hs : s.about = some i)
    (hq : Daemon.Queued w.daemon) (hp : w.pipes[i]? = some p) (hc : w.daemon.conns[i]? = some c)
    (hk : Seen w.daemon i p c k) : Goes commands v i p k := by
  have hlt : i < w.pipes.length := (List.getElem?_eq_some_iff.mp hp).1
  cases h with
  | accept | other => exact absurd hs (by simp [Signal.about])
  | @arrive _ n x hx =>
    obtain rfl := Option.some.inj hs
    obtain rfl := Option.some.inj (hp.symm.trans hx)
    refine ⟨_, c, { k with coming := k.coming.drop n, input := k.input ++ k.coming.take n },
      List.getElem?_set_self hlt, hc, rfl, .inr ⟨.arrive n, rfl⟩, ?_⟩
    refine { hk with coming := ?_, input := ?_ }
    · show k.coming.drop n = p.coming.drop n
      rw [hk.coming]
    · show k.input ++ k.coming.take n = p.input ++ p.coming.take n
      rw [hk.coming, hk.input]
  | @hold _ cj x held rest hcj hx hsel hread =>
    obtain rfl := Option.some.inj hs
    obtain rfl := Option.some.inj (hp.symm.trans hx)
    obtain rfl := Option.some.inj (hc.symm.trans hcj)
    refine ⟨_, c, { k with held := held, input := rest }, List.getElem?_set_self hlt, hc, rfl,
      .inr ⟨.poll, ?_⟩, { hk with held := rfl, input := rfl }⟩
    simp only [Ipc.step, hk.select hsel, hk.held, hk.input, hread]
  | @poll _ cj x payload held rest d hcj hx hsel hread hd =>
    obtain rfl := Option.some.inj hs
    obtain rfl := Option.some.inj (hp.symm.trans hx)
    obtain rfl := Option.some.inj (hc.symm.trans hcj)
    obtain ⟨c', hc', k', hk', hseen⟩ := hk.poll hq hc hsel hread hd
    exact ⟨_, c', k', List.getElem?_set_self hlt, hc', rfl, .inr ⟨.poll, hk'⟩, hseen⟩
  | @update _ x d hx hd =>
    obtain rfl := Option.some.inj hs
    obtain rfl := Option.some.inj (hp.symm.trans hx)
    obtain ⟨c', hc', k', ⟨status, hk'⟩, hseen⟩ := hk.update commands hc hd
    exact ⟨_, c', k', List.getElem?_set_self hlt, hc', rfl, .inr ⟨_, hk'⟩, hseen⟩
  | @write _ cj x event d ok n hcj hx hphase hd =>
    obtain rfl := Option.some.inj hs
    obtain rfl := Option.some.inj (hp.symm.trans hx)
    obtain rfl := Option.some.inj (hc.symm.trans hcj)
    obtain ⟨c', hc', k', hk', hseen⟩ := hk.write commands events n hc hphase hd
    exact ⟨_, c', k', List.getElem?_set_self hlt, hc', rfl, hk', hseen⟩
  | @hangup _ x d hx hcoming hinput hd =>
    obtain rfl := Option.some.inj hs
    obtain rfl := Option.some.inj (hp.symm.trans hx)
    obtain ⟨hsel, c', hc', hseen⟩ := hk.hangup hc hd
    refine ⟨p, c', _, hp, hc', rfl, .inr ⟨.hangup, if_pos ⟨hk.select hsel, ?_, ?_⟩⟩, hseen⟩
    · rw [hk.coming, hcoming]
    · rw [hk.input, hinput]
  | @fail _ d hd =>
    obtain rfl := Option.some.inj hs
    obtain ⟨hsel, c', hc', hseen⟩ := hk.hangup hc hd
    refine ⟨p, c', _, hp, hc', rfl, .inr ⟨.fail, if_neg ?_⟩, hseen⟩
    rw [hk.select hsel]
    simp

/-- What a step makes of a connection that is there. -/
theorem Moves.seen (h : Moves commands events R w s v) (hq : Daemon.Queued w.daemon)
    (hlocked : Daemon.Locked R (fun _ => True) (fun _ => True) (fun _ => True) w.daemon)
    (hp : w.pipes[i]? = some p) (hc : w.daemon.conns[i]? = some c) (hk : Seen w.daemon i p c k) :
    Goes commands v i p k := by
  cases hs : s.about with
  | some j =>
    by_cases hij : j = i
    · subst hij
      exact h.own hs hq hp hc hk
    · obtain ⟨hpipe, hconn, hseen⟩ := h.apart hs hij
      exact ⟨p, c, k, hpipe.trans hp, hconn.trans hc, rfl, .inl rfl, hseen _ _ _ hk⟩
  | none =>
    cases h with
    | arrive | hold | poll | update | write | hangup | fail =>
      exact absurd hs (by simp [Signal.about])
    | accept bytes hd =>
      refine ⟨p, c, k, ?_, ?_, rfl, .inl rfl, hk.frame fun cmd hr => ?_⟩
      · rw [List.getElem?_append_left (List.getElem?_eq_some_iff.mp hp).1, hp]
      · rw [Daemon.step_accept hd]
        exact (List.getElem?_append_left (List.getElem?_eq_some_iff.mp hc).1).trans hc
      · exact (Daemon.step_runs hd hr).resolve_right (by simp)
    | other hl hd =>
      obtain ⟨c', hc', hseen⟩ := hk.other hq hlocked hc hl hd
      exact ⟨p, c', k, hp, hc', rfl, .inl rfl, hseen⟩

end

/-- A connection that was not there is a new one. -/
theorem Moves.fresh {s : Signal ω} (h : Moves commands events R w s v)
    (hlen : w.pipes.length = w.daemon.conns.length) {i : Nat} (hi : w.pipes.length ≤ i) {p : Pipe}
    {c : Conn} (hp : v.pipes[i]? = some p) (hc : v.daemon.conns[i]? = some c) :
    p = .new p.sent ∧ c = .new := by
  cases h with
  | accept bytes hd =>
    rw [Daemon.step_accept hd] at hc
    rw [List.getElem?_append_right hi] at hp
    rw [List.getElem?_append_right (by omega)] at hc
    obtain rfl := List.mem_singleton.mp (List.mem_of_getElem? hp)
    obtain rfl := List.mem_singleton.mp (List.mem_of_getElem? hc)
    exact ⟨rfl, rfl⟩
  | arrive | hold | poll | update | write | hangup | fail | other =>
    have hlt := (List.getElem?_eq_some_iff.mp hp).1
    simp at hlt
    omega

/-- **Each connection runs by itself.** -/
theorem reach_apart {port : UInt16} {redirector : ρ}
    (h : Reach (step commands events R) (fun _ _ => True) (new port redirector) w) :
    w.pipes.length = w.daemon.conns.length ∧ Apart commands w := by
  induction h with
  | init => exact ⟨rfl, fun i p c hp => absurd hp (by simp [new])⟩
  | @next w v s hr _ hs ih =>
    obtain ⟨hlen, hapart⟩ := ih
    have hmoves := step_moves hs
    obtain ⟨hq, hlocked⟩ := Daemon.reach_any (reach_daemon hr)
    refine ⟨hmoves.length hlen, fun i p' c' hp' hc' => ?_⟩
    rcases Nat.lt_or_ge i w.pipes.length with hi | hi
    · have hp := List.getElem?_eq_getElem hi
      have hc := List.getElem?_eq_getElem (hlen ▸ hi)
      obtain ⟨k, hk, hseen⟩ := hapart i _ _ hp hc
      obtain ⟨p'', c'', k', hp'', hc'', hsent, hstep, hseen'⟩ := hmoves.seen hq hlocked hp hc hseen
      obtain rfl := Option.some.inj (hp''.symm.trans hp')
      obtain rfl := Option.some.inj (hc''.symm.trans hc')
      rw [hsent]
      rcases hstep with rfl | ⟨l, hl⟩
      · exact ⟨k', hk, hseen'⟩
      · exact ⟨k', .next l hk trivial hl, hseen'⟩
    · obtain ⟨hp, rfl⟩ := hmoves.fresh hlen hi hp' hc'
      rw [hp]
      exact ⟨_, .init, .new _⟩

/-- **The daemon on its sockets** is the daemon, and each of its connections is the
connection read byte by byte: what happens there to the bytes is what happens to them
when nothing else is going on. -/
theorem wired_projects {port : UInt16} {redirector : ρ}
    (h : Reach (step commands events R) (fun _ _ => True) (new port redirector) w) :
    Reach (Daemon.step R) (fun _ _ => True) (.new port redirector) w.daemon ∧
      w.pipes.length = w.daemon.conns.length ∧ Apart commands w :=
  ⟨reach_daemon h, reach_apart h⟩

end

/-- A client has asked for the status. -/
def asked : Wired (String × Option String) where
  daemon := { Daemon.new 53 ("9.9.9.9", none) with
    main := .serving
    conns := [⟨.select, none, [.getStatus], [.status .disconnected]⟩] }
  pipes := [⟨Ipc.jsonText.command.wire .getStatus, [], [], [],
    Ipc.jsonText.event.wire (.status .disconnected)⟩]

/-- Its frame has come in two pieces. -/
theorem run_asked : run (step Ipc.jsonText.command Ipc.jsonText.event plainRedirector)
    [.other .listen, .accept (Ipc.jsonText.command.wire .getStatus), .arrive 0 3, .poll 0,
      .arrive 0 99, .poll 0, .other .grant, .other (.call default), .other .release,
      .write 0 true 0] (new 53 ("9.9.9.9", none)) = some asked := rfl

theorem wired_projects_asked :
    Reach (Daemon.step plainRedirector) (fun _ _ => True) (.new 53 ("9.9.9.9", none))
        asked.daemon ∧
      asked.pipes.length = asked.daemon.conns.length ∧ Apart Ipc.jsonText.command asked :=
  wired_projects (.of_run (fun _ _ => trivial) _ run_asked)

end Wired

end Voidns
