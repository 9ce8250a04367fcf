import Voidns.Daemon.Subscribers
import Voidns.Gui.App

/-!
# The window and the service

The GUI process (`src-tauri/src/ipc.rs`, `lib.rs`) between the window and the
daemon.  Each command of the window goes over a connection of its own, and its
reply resumes the function that awaits it; the statuses come over one
subscription, in order.  Nothing orders these connections among each other, so
a step of the world is what any part does next: the user, the window's `onMount`,
a connection, or the daemon (`Daemon.step`), which also serves other clients.

The window hears nothing before it has registered its listener.  When the GUI is
closed and opened again, the window's state is gone with all its awaits; commands
already on a connection are still read.
-/

namespace Voidns.Gui

open Steps Controller

/-- Where a request is: not connected yet, accepted as connection `i` with its
command on the way, or past the handler's `read_msg`. -/
inductive Stage where
  | calling
  | accepted (i : Nat)
  | taken (i : Nat)
  deriving DecidableEq

/-- A command sent, and the `await` its reply resumes, unless the window that sent
it is gone. -/
structure Request where
  cmd : Command
  await : Option Await
  stage : Stage
  deriving DecidableEq

/-- How far `onMount` is: awaiting `listen`, with the listener registered or not
yet, or past it. -/
inductive Mount where
  | registering
  | registered
  | mounted
  deriving DecidableEq

/-- The window, the GUI process and the daemon.  `heard` counts the events of the
subscription that have reached the window; `own` are the connections the GUI has
opened. -/
structure World (ρ : Type) where
  daemon : Daemon ρ
  app : App
  mount : Mount
  requests : List Request
  stream : Option Nat
  heard : Nat
  own : List Nat

/-- `into_status`. -/
def intoStatus : Except String Event → Except String Status
  | .ok (.status s) => .ok s
  | .ok (.error message) => .error message
  | .ok .pong => .error "unexpected reply from service"
  | .error e => .error s!"voidns-service unreachable: {e}"

/-- What the command that is awaited becomes. -/
def Request.new (sent : Await × Command) : Request := ⟨sent.2, some sent.1, .calling⟩

/-- The handler of connection `i` has read its command, or given up. -/
def Request.take (i : Nat) (r : Request) : Request :=
  if r.stage = .accepted i then { r with stage := .taken i } else r

/-- What a request is after its window is gone. -/
def Request.orphan (r : Request) : Request := { r with await := none }

namespace World

variable {ω ρ : Type}

/-- The window opens while the daemon serves. -/
def new (port : UInt16) (redirector : ρ) : World ρ where
  daemon := { Daemon.new port redirector with main := .serving }
  app := .new
  mount := .registering
  requests := []
  stream := none
  heard := 0
  own := []

inductive Label (ω : Type) where
  | user (a : Action)
  /-- `tickTimer` fires. -/
  | tick
  /-- The listener is registered. -/
  | register
  /-- `listen` returns to `onMount`. -/
  | mounted
  /-- The connection of request `k` is accepted. -/
  | dial (k : Nat)
  /-- The reply to request `k` reaches the window. -/
  | resolve (k : Nat)
  /-- Request `k` fails. -/
  | reject (k : Nat) (e : String)
  /-- The connection of `subscribe_once` is accepted. -/
  | subscribe
  /-- The next event of the subscription reaches the window. -/
  | emit
  /-- `subscribe_once` returns. -/
  | unsubscribe
  /-- The GUI is closed and opened again. -/
  | restart
  /-- A step of the daemon. -/
  | service (l : Daemon.Label ω)

/-- What a function of the window leaves. -/
def next (w : World ρ) (n : App.Next) : World ρ :=
  { w with app := n.1, requests := w.requests ++ (n.2.map Request.new).toList }

/-- The command the handler of an own connection is about to read: that of its
request, or `Subscribe`. -/
def expected (w : World ρ) (i : Nat) : Option Command :=
  match w.requests.find? fun r => r.stage = .accepted i with
  | some r => some r.cmd
  | none => if (w.daemon.conns[i]?).map Conn.handled = some [] then some .subscribe else none

/-- The reply to a request, once the handler has written it. -/
def reply (w : World ρ) (r : Request) : Option Event :=
  match r.stage with
  | .taken i => (w.daemon.conns[i]?).bind fun c => c.written.head?
  | _ => none

/-- The connection of the subscription. -/
def sub (w : World ρ) : Option Conn := w.stream.bind fun i => w.daemon.conns[i]?

/-- The next event of the subscription. -/
def event (w : World ρ) : Option Event := w.sub.bind fun c => c.written[w.heard]?

/-- The steps the daemon can take: a handler reads on an own connection only what
the GUI has sent on it, and the service stays up. -/
def allows (w : World ρ) : Daemon.Label ω → Prop
  | .recv i cmd => i ∈ w.own → w.expected i = some cmd
  | .listen | .serveError _ | .shutdown | .exit => False
  | _ => True

instance (w : World ρ) : DecidablePred (w.allows (ω := ω))
  | .recv .. => inferInstanceAs (Decidable (_ → _))
  | .listen | .serveError _ | .shutdown | .exit => isFalse id
  | .accept | .grant | .call _ | .release | .update _ | .write .. | .hangup _ => isTrue trivial

/-- The requests after a step of the daemon. -/
def requestsAfter (w : World ρ) : Daemon.Label ω → List Request
  | .recv i _ | .hangup i => w.requests.map (Request.take i)
  | _ => w.requests

/-- The requests after request `k` has failed; what is in a socket may still be
read. -/
def requestsFailed (w : World ρ) (k : Nat) (r : Request) : List Request :=
  match r.stage with
  | .accepted _ => w.requests.set k r.orphan
  | _ => w.requests.eraseIdx k

/-- An event reaches the window. -/
def hear (w : World ρ) (e : Event) : App :=
  match w.mount, e with
  | .registering, _ => w.app
  | _, .status s => w.app.applyStatus s
  | _, _ => w.app

def step (R : DnsRedirector ω ρ) : Label ω → World ρ → Option (World ρ)
  | .user a, w => some (w.next (w.app.act a))
  | .tick, w =>
    if w.app.ticking then some { w with app := { w.app with elapsed := w.app.elapsed + 1 } }
    else none
  | .register, w => if w.mount = .registering then some { w with mount := .registered } else none
  | .mounted, w =>
    if w.mount = .registered then some ({ w with mount := .mounted }.next w.app.onMount) else none
  | .dial k, w =>
    match w.requests[k]? with
    | some r =>
      if r.stage = .calling then
        (Daemon.step R .accept w.daemon).map fun d =>
          { w with
            daemon := d
            requests := w.requests.set k { r with stage := .accepted w.daemon.conns.length }
            own := w.daemon.conns.length :: w.own }
      else none
    | none => none
  | .resolve k, w =>
    match w.requests[k]? with
    | some r =>
      match r.await, w.reply r with
      | some aw, some e =>
        some ({ w with requests := w.requests.eraseIdx k }.next
          (w.app.resume aw (intoStatus (.ok e))))
      | _, _ => none
    | none => none
  | .reject k e, w =>
    match w.requests[k]? with
    | some r =>
      match r.await with
      | some aw =>
        some ({ w with requests := w.requestsFailed k r }.next
          (w.app.resume aw (intoStatus (.error e))))
      | none => none
    | none => none
  | .subscribe, w =>
    if w.stream = none then
      (Daemon.step R .accept w.daemon).map fun d =>
        { w with
          daemon := d
          stream := some w.daemon.conns.length
          heard := 0
          own := w.daemon.conns.length :: w.own }
    else none
  | .emit, w => w.event.map fun e => { w with app := w.hear e, heard := w.heard + 1 }
  | .unsubscribe, w => if w.stream = none then none else some { w with stream := none }
  | .restart, w =>
    some { w with
      app := .new
      mount := .registering
      requests := (w.requests.filter fun r => r.stage ≠ .calling).map Request.orphan
      stream := none
      heard := 0 }
  | .service l, w =>
    if w.allows l then
      (Daemon.step R l w.daemon).map fun d => { w with daemon := d, requests := w.requestsAfter l }
    else none

/-! ### What a step can be -/

/-- Every step, with what makes it possible. -/
inductive Moves (R : DnsRedirector ω ρ) (w : World ρ) : Label ω → World ρ → Prop
  | user (a : Action) : Moves R w (.user a) (w.next (w.app.act a))
  | tick : Moves R w .tick { w with app := { w.app with elapsed := w.app.elapsed + 1 } }
  | register : w.mount = .registering → Moves R w .register { w with mount := .registered }
  | mounted : w.mount = .registered →
      Moves R w .mounted ({ w with mount := .mounted }.next w.app.onMount)
  | dial {k : Nat} {r : Request} {d : Daemon ρ} : w.requests[k]? = some r → r.stage = .calling →
      Daemon.step R .accept w.daemon = some d →
      Moves R w (.dial k)
        { w with
          daemon := d
          requests := w.requests.set k { r with stage := .accepted w.daemon.conns.length }
          own := w.daemon.conns.length :: w.own }
  | resolve {k : Nat} {r : Request} {aw : Await} {e : Event} : w.requests[k]? = some r →
      r.await = some aw → w.reply r = some e →
      Moves R w (.resolve k)
        ({ w with requests := w.requests.eraseIdx k }.next (w.app.resume aw (intoStatus (.ok e))))
  | reject {k : Nat} {r : Request} {aw : Await} (e : String) : w.requests[k]? = some r →
      r.await = some aw →
      Moves R w (.reject k e)
        ({ w with requests := w.requestsFailed k r }.next
          (w.app.resume aw (intoStatus (.error e))))
  | subscribe {d : Daemon ρ} : w.stream = none → Daemon.step R .accept w.daemon = some d →
      Moves R w .subscribe
        { w with
          daemon := d
          stream := some w.daemon.conns.length
          heard := 0
          own := w.daemon.conns.length :: w.own }
  | emit {e : Event} : w.event = some e →
      Moves R w .emit { w with app := w.hear e, heard := w.heard + 1 }
  | unsubscribe : Moves R w .unsubscribe { w with stream := none }
  | restart : Moves R w .restart
      { w with
        app := .new
        mount := .registering
        requests := (w.requests.filter fun r => r.stage ≠ .calling).map Request.orphan
        stream := none
        heard := 0 }
  | service {l : Daemon.Label ω} {d : Daemon ρ} : w.allows l →
      Daemon.step R l w.daemon = some d →
      Moves R w (.service l) { w with daemon := d, requests := w.requestsAfter l }

/-- **A step is one of these.** -/
theorem step_moves {R : DnsRedirector ω ρ} {l : Label ω} {w w' : World ρ}
    (h : step R l w = some w') : Moves R w l w' := by
  cases l with
  | user a => obtain rfl := Option.some.inj h; exact .user a
  | tick =>
    obtain ⟨_, rfl⟩ : w.app.ticking = true ∧ _ = w' := by simpa [step] using h
    exact .tick
  | register =>
    obtain ⟨hm, rfl⟩ : w.mount = .registering ∧ _ = w' := by simpa [step] using h
    exact .register hm
  | mounted =>
    obtain ⟨hm, rfl⟩ : w.mount = .registered ∧ _ = w' := by simpa [step] using h
    exact .mounted hm
  | dial k =>
    rw [step] at h
    split at h
    · split at h
      · obtain ⟨d, hd, rfl⟩ := Option.map_eq_some_iff.mp h
        exact .dial ‹_› ‹_› hd
      · exact absurd h (by simp)
    · exact absurd h (by simp)
  | resolve k =>
    rw [step] at h
    split at h
    · split at h
      · obtain rfl := Option.some.inj h
        exact .resolve ‹_› ‹_› ‹_›
      · exact absurd h (by simp)
    · exact absurd h (by simp)
  | reject k e =>
    rw [step] at h
    split at h
    · split at h
      · obtain rfl := Option.some.inj h
        exact .reject e ‹_› ‹_›
      · exact absurd h (by simp)
    · exact absurd h (by simp)
  | subscribe =>
    rw [step] at h
    split at h
    · obtain ⟨d, hd, rfl⟩ := Option.map_eq_some_iff.mp h
      exact .subscribe ‹_› hd
    · exact absurd h (by simp)
  | emit =>
    obtain ⟨e, he, rfl⟩ := Option.map_eq_some_iff.mp h
    exact .emit he
  | unsubscribe =>
    obtain ⟨_, rfl⟩ : w.stream ≠ none ∧ _ = w' := by simpa [step] using h
    exact .unsubscribe
  | restart => obtain rfl := Option.some.inj h; exact .restart
  | service l =>
    rw [step] at h
    split at h
    · obtain ⟨d, hd, rfl⟩ := Option.map_eq_some_iff.mp h
      exact .service ‹_› hd
    · exact absurd h (by simp)

/-! ### The daemon of the world -/

/-- A step of the world is a step of the daemon, or leaves it alone. -/
theorem Moves.daemon {R : DnsRedirector ω ρ} {l : Label ω} {w w' : World ρ} (h : Moves R w l w') :
    w'.daemon = w.daemon ∨ ∃ m, Daemon.step R m w.daemon = some w'.daemon := by
  cases h with
  | user | tick | register | mounted | resolve | reject | emit | unsubscribe | restart =>
    exact .inl rfl
  | dial _ _ hd => exact .inr ⟨_, hd⟩
  | subscribe _ hd => exact .inr ⟨_, hd⟩
  | service _ hd => exact .inr ⟨_, hd⟩

/-- **The daemon of the world runs as a daemon does.** -/
theorem reach_daemon {R : DnsRedirector ω ρ} {A : Label ω → World ρ → Prop} {port : UInt16}
    {redirector : ρ} {w : World ρ} (h : Reach (step R) A (new port redirector) w) :
    Reach (Daemon.step R) (fun _ _ => True) (Daemon.new port redirector) w.daemon := by
  induction h with
  | init => exact .next .listen .init trivial rfl
  | next l _ _ hs ih =>
    rcases (step_moves hs).daemon with he | ⟨m, hm⟩
    · rw [he]; exact ih
    · exact .next m ih trivial hm

/-! ### The GUI's connections -/

/-- What ties the requests and the subscription to connections of the daemon. -/
structure Linked (w : World ρ) : Prop where
  sends : ∀ r ∈ w.requests, App.Sends r.cmd
  bound : ∀ i ∈ w.own, i < w.daemon.conns.length
  plain : ∀ i ∈ w.own, ∀ c, w.daemon.conns[i]? = some c → .ping ∉ c.handled
  taken : ∀ r ∈ w.requests, ∀ i, r.stage = .accepted i ∨ r.stage = .taken i → i ∈ w.own
  stream : ∀ i, w.stream = some i → i ∈ w.own
  heard : ∀ c, w.sub = some c → w.heard ≤ c.written.length

theorem new_linked (port : UInt16) (redirector : ρ) : Linked (new port redirector) where
  sends _ h := absurd h (by simp [new])
  bound _ h := absurd h (by simp [new])
  plain _ h := absurd h (by simp [new])
  taken _ h := absurd h (by simp [new])
  stream _ h := absurd h (by simp [new])
  heard _ h := absurd h (by simp [sub, new])

theorem sub_eq_some {w : World ρ} {c : Conn} :
    w.sub = some c ↔ ∃ i, w.stream = some i ∧ w.daemon.conns[i]? = some c :=
  Option.bind_eq_some_iff

namespace Linked

variable {w : World ρ}

/-- Some requests are dropped, taken or orphaned. -/
theorem requests (h : Linked w) {rs : List Request} {app : App} {mount : Mount}
    (hrs : ∀ r ∈ rs, ∃ q ∈ w.requests, q.cmd = r.cmd ∧
      ∀ i, r.stage = .accepted i ∨ r.stage = .taken i → q.stage = .accepted i ∨ q.stage = .taken i) :
    Linked { w with requests := rs, app := app, mount := mount } := by
  refine ⟨fun r hr => ?_, h.bound, h.plain, fun r hr i hi => ?_, h.stream, h.heard⟩
  · obtain ⟨q, hq, hcmd, _⟩ := hrs r hr
    rw [← hcmd]
    exact h.sends q hq
  · obtain ⟨q, hq, _, hst⟩ := hrs r hr
    exact h.taken q hq i (hst i hi)

theorem erase (h : Linked w) (k : Nat) : Linked { w with requests := w.requests.eraseIdx k } :=
  h.requests fun r hr => ⟨r, (List.eraseIdx_sublist _ _).subset hr, rfl, fun _ hi => hi⟩

theorem take_stage (r : Request) (i j : Nat)
    (h : (r.take i).stage = .accepted j ∨ (r.take i).stage = .taken j) :
    r.stage = .accepted j ∨ r.stage = .taken j := by
  unfold Request.take at h
  split at h
  · rename_i hi
    rcases h with h | h
    · exact absurd h (by simp)
    · exact .inl (by rw [hi, Stage.taken.inj h])
  · exact h

theorem take (h : Linked w) (i : Nat) :
    Linked { w with requests := w.requests.map (Request.take i) } := by
  refine h.requests fun r hr => ?_
  obtain ⟨q, hq, rfl⟩ := List.mem_map.mp hr
  refine ⟨q, hq, ?_, take_stage q i⟩
  unfold Request.take
  split <;> rfl

/-- A function of the window has run. -/
theorem next (h : Linked w) {n : App.Next} (hn : n.Ok) : Linked (w.next n) := by
  have hnew : ∀ r ∈ (n.2.map Request.new).toList, App.Sends r.cmd ∧ r.stage = .calling := by
    intro r hr
    obtain ⟨⟨aw, cmd⟩, hs, rfl⟩ := Option.map_eq_some_iff.mp (Option.mem_toList.mp hr)
    exact ⟨hn aw cmd hs, rfl⟩
  refine ⟨fun r hr => ?_, h.bound, h.plain, fun r hr i hi => ?_, h.stream, h.heard⟩
  · rcases List.mem_append.mp hr with hr | hr
    · exact h.sends r hr
    · exact (hnew r hr).1
  · rcases List.mem_append.mp hr with hr | hr
    · exact h.taken r hr i hi
    · rw [(hnew r hr).2] at hi
      exact absurd hi (by simp)

/-- No own connection is about to be read for a `Ping`. -/
theorem not_ping (h : Linked w) {i : Nat} : w.expected i ≠ some .ping := by
  intro he
  unfold expected at he
  split at he
  · rename_i r hr
    have hs := h.sends r (List.mem_of_find?_eq_some hr)
    rw [Option.some.inj he] at hs
    exact hs
  · split at he <;> exact absurd he (by simp)

theorem daemon {R : DnsRedirector ω ρ} {l : Daemon.Label ω} {d : Daemon ρ} (h : Linked w)
    (hinf : Daemon.Informed w.daemon) (hl : w.allows l) (hs : Daemon.step R l w.daemon = some d) :
    Linked { w with daemon := d } := by
  have hconn : ∀ i ∈ w.own, ∃ c c', w.daemon.conns[i]? = some c ∧ d.conns[i]? = some c' ∧
      Daemon.Becomes w.daemon l i c c' := by
    intro i hi
    have hc := List.getElem?_eq_getElem (h.bound i hi)
    obtain ⟨c', hc', hb⟩ := Daemon.step_conn hs hc
    exact ⟨_, c', hc, hc', hb⟩
  refine ⟨h.sends, fun i hi => ?_, fun i hi x hx => ?_, h.taken, h.stream, fun x hx => ?_⟩
  · exact Nat.lt_of_lt_of_le (h.bound i hi) (Daemon.step_conns_length hs)
  · obtain ⟨c, c', hc, hc', hb⟩ := hconn i hi
    obtain rfl := Option.some.inj (hc'.symm.trans hx)
    have hplain := h.plain i hi c hc
    cases hb with
    | answer hcmd =>
      refine fun hin => ?_
      rcases List.mem_append.mp hin with hin | hin
      · exact hplain hin
      · rw [← List.mem_singleton.mp hin] at hcmd
        rcases hcmd with ⟨rfl, _⟩ | ⟨y, hy, hping⟩
        · exact h.not_ping (hl hi)
        · exact hinf.holder y hy hping
    | wrote ok _ => cases ok <;> exact hplain
    | same | dispatching | closed | value | lagged => exact hplain
  · obtain ⟨i, hi, hx⟩ := sub_eq_some.mp hx
    obtain ⟨c, c', hc, hc', hb⟩ := hconn i (h.stream i hi)
    obtain rfl := Option.some.inj (hc'.symm.trans hx)
    exact Nat.le_trans (h.heard c (sub_eq_some.mpr ⟨i, hi, hc⟩)) hb.written.length_le

/-- A connection the GUI has opened is accepted. -/
theorem accept {R : DnsRedirector ω ρ} {d : Daemon ρ} (h : Linked w)
    (hinf : Daemon.Informed w.daemon) (hs : Daemon.step R .accept w.daemon = some d) :
    Linked { w with daemon := d, own := w.daemon.conns.length :: w.own } ∧
      d.conns[w.daemon.conns.length]? = some .new := by
  have hall : w.allows (.accept : Daemon.Label ω) := trivial
  have hd := h.daemon hinf hall hs
  obtain rfl := Daemon.step_accept hs
  have hnew : (w.daemon.conns ++ [Conn.new])[w.daemon.conns.length]? = some .new := by simp
  refine ⟨⟨h.sends, fun i hi => ?_, fun i hi c hc => ?_, fun r hr i hi => ?_, fun i hi => ?_,
    hd.heard⟩, hnew⟩
  · rcases List.mem_cons.mp hi with rfl | hi
    · exact (List.getElem?_eq_some_iff.mp hnew).1
    · exact hd.bound i hi
  · rcases List.mem_cons.mp hi with rfl | hi
    · rw [← Option.some.inj (hnew.symm.trans hc)]
      exact fun hin => absurd hin (by simp [Conn.new])
    · exact hd.plain i hi c hc
  · exact List.mem_cons_of_mem _ (h.taken r hr i hi)
  · exact List.mem_cons_of_mem _ (h.stream i hi)

theorem step {R : DnsRedirector ω ρ} {l : Label ω} {w' : World ρ} (h : Linked w)
    (hinf : Daemon.Informed w.daemon) (hs : World.step R l w = some w') : Linked w' := by
  cases step_moves hs with
  | user a => exact h.next (App.act_ok _ a)
  | tick | register => exact ⟨h.sends, h.bound, h.plain, h.taken, h.stream, h.heard⟩
  | mounted =>
    have hm : Linked { w with mount := .mounted } :=
      ⟨h.sends, h.bound, h.plain, h.taken, h.stream, h.heard⟩
    exact hm.next fun aw cmd he => by
      obtain rfl : Command.getStatus = cmd := (Prod.mk.inj (Option.some.inj he)).2
      trivial
  | @dial k r d hr _ hd =>
    obtain ⟨ha, _⟩ := h.accept hinf hd
    refine ⟨fun q hq => ?_, ha.bound, ha.plain, fun q hq i hi => ?_, ha.stream, ha.heard⟩
    · rcases List.mem_or_eq_of_mem_set hq with hq | rfl
      · exact h.sends q hq
      · exact h.sends r (List.mem_of_getElem? hr)
    · rcases List.mem_or_eq_of_mem_set hq with hq | rfl
      · exact ha.taken q hq i hi
      · rcases hi with hi | hi
        · rw [← Stage.accepted.inj hi]
          exact List.mem_cons_self
        · exact absurd hi (by simp)
  | resolve => exact (h.erase _).next (App.resume_ok _ _ _)
  | @reject k r aw e hr _ =>
    refine Linked.next ?_ (App.resume_ok _ _ _)
    have hrs : w.requestsFailed k r = w.requests.set k r.orphan ∨
        w.requestsFailed k r = w.requests.eraseIdx k := by
      unfold requestsFailed
      split
      · exact .inl rfl
      · exact .inr rfl
    rcases hrs with hrs | hrs <;> rw [hrs]
    · refine h.requests fun q hq => ?_
      rcases List.mem_or_eq_of_mem_set hq with hq | rfl
      · exact ⟨q, hq, rfl, fun _ hi => hi⟩
      · exact ⟨r, List.mem_of_getElem? hr, rfl, fun _ hi => hi⟩
    · exact h.erase k
  | subscribe _ hd =>
    obtain ⟨ha, hnew⟩ := h.accept hinf hd
    refine ⟨ha.sends, ha.bound, ha.plain, ha.taken, fun i hi => ?_, fun c _ => Nat.zero_le _⟩
    rw [← Option.some.inj hi]
    exact List.mem_cons_self
  | @emit e he =>
    refine ⟨h.sends, h.bound, h.plain, h.taken, h.stream, fun c hc => ?_⟩
    obtain ⟨x, hx, he⟩ := Option.bind_eq_some_iff.mp he
    have hcx : some x = some c := hx.symm.trans hc
    rw [← Option.some.inj hcx]
    exact (List.getElem?_eq_some_iff.mp he).1
  | unsubscribe =>
    exact ⟨h.sends, h.bound, h.plain, h.taken, fun i hi => absurd hi (by simp),
      fun c hc => absurd hc (by simp [sub])⟩
  | restart =>
    have hr : Linked { w with
        requests := (w.requests.filter fun r => r.stage ≠ .calling).map Request.orphan } := by
      refine h.requests fun r hr => ?_
      obtain ⟨q, hq, rfl⟩ := List.mem_map.mp hr
      exact ⟨q, (List.mem_filter.mp hq).1, rfl, fun _ hi => hi⟩
    exact ⟨hr.sends, hr.bound, hr.plain, hr.taken, fun i hi => absurd hi (by simp),
      fun c hc => absurd hc (by simp [sub])⟩
  | @service l d hl hd =>
    have hdaemon := h.daemon hinf hl hd
    cases l with
    | recv i cmd => exact hdaemon.take i
    | hangup i => exact hdaemon.take i
    | _ => exact hdaemon

end Linked

theorem reach_linked {R : DnsRedirector ω ρ} {A : Label ω → World ρ → Prop} {port : UInt16}
    {redirector : ρ} {w : World ρ} (h : Reach (step R) A (new port redirector) w) : Linked w := by
  induction h with
  | init => exact new_linked port redirector
  | next l hr _ hs ih => exact ih.step (Daemon.reach_informed (reach_daemon hr)) hs

end World

end Voidns.Gui
