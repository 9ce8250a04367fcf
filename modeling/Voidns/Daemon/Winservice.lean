import Voidns.Cli.Main
import Voidns.Daemon.Coverage
import Voidns.Daemon.Progress

/-!
# The Windows service

`winservice.rs`, and `run` of the service's `main`.  Launched by the Service Control Manager
the process registers a handler for its controls, reports `Running`, drives `run_daemon`, and
reports `Stopped` when that has returned; otherwise it runs in the foreground until Ctrl-C.
A Stop or Shutdown control goes through a channel to a blocking thread, whose end is the
shutdown signal of the daemon.

The runtime is dropped after the report, and until then the handlers, which are detached,
may go on.  To drop it waits for the blocking thread; but once `Stopped` is reported the
dispatcher may return before that is done, and then `main` does, and the process is gone.

What the manager is told is never ahead of `run_daemon`, and the daemon shuts down only when
it was told to (`manager_told`).  And a control that has been delivered is honoured, with no
client doing anything: the DNS is restored and `Stopped` reported (`stop_honoured`).
-/

namespace Voidns

open Effect Steps Controller

/-- `ServiceControl`; a handler treats all the others alike. -/
inductive ServiceControl where
  | stop
  | shutdown
  | interrogate
  | other (code : Nat)
  deriving DecidableEq

/-- The controls that end the daemon. -/
def ServiceControl.ends : ServiceControl → Bool
  | stop | shutdown => true
  | interrogate | other _ => false

inductive ServiceControlHandlerResult where
  | noError
  | notImplemented
  deriving DecidableEq

/-- `ServiceState`, as far as it is reported. -/
inductive ServiceState where
  | running
  | stopped
  deriving DecidableEq

/-- `ServiceStatus`. -/
structure ServiceStatus where
  currentState : ServiceState
  controlsAccepted : List ServiceControl
  exitCode : Nat
  checkpoint : Nat
  waitHint : Nat
  deriving DecidableEq

/-- Where the main thread or, once launched, the service's own is. -/
inductive Stage where
  /-- In `service_dispatcher::start`. -/
  | dispatcher
  | registering
  /-- About to report `Running`. -/
  | announcing
  /-- Building the runtime. -/
  | building
  /-- In `block_on` of `run_service`. -/
  | serving
  /-- In `block_on` of `run`. -/
  | foreground
  /-- `run_service` is about to return this, and to drop the runtime. -/
  | dropping (result : Except Error Unit)
  /-- `run_service` has returned this, or `main`. -/
  | finished (result : Except Error Unit)
  deriving DecidableEq

/-- Before `run_daemon` is driven. -/
def Stage.early : Stage → Bool
  | dispatcher | registering | announcing | building => true
  | serving | foreground | dropping _ | finished _ => false

/-- The control handler is there. -/
def Stage.registered : Stage → Bool
  | announcing | building | serving | dropping _ => true
  | dispatcher | registering | foreground | finished _ => false

/-- The runtime is there, and the tasks of the daemon run on it. -/
def Stage.driven : Stage → Bool
  | serving | foreground | dropping _ => true
  | dispatcher | registering | announcing | building | finished _ => false

theorem Stage.driven_of_early {stage : Stage} (h : stage.early = true) : stage.driven = false := by
  cases stage with
  | dispatcher | registering | announcing | building => rfl
  | serving | foreground | dropping | finished => exact absurd h (by simp [early])

/-- The process: the controls that came, the messages in the channel, whether there is a thread
that waits for one, whether the shutdown signal is there, what was reported, and the daemon. -/
structure Winservice (ρ : Type) where
  stage : Stage
  controls : List ServiceControl
  sent : Nat
  spawned : Bool
  signalled : Bool
  reports : List ServiceStatus
  daemon : Daemon ρ

namespace Winservice

variable {ω ρ : Type}

/-- A process with `VOIDNS_PORT` as given. -/
def new (port : Option String) (redirector : ρ) : Winservice ρ :=
  ⟨.dispatcher, [], 0, false, false, [], .new (Service.port port) redirector⟩

/-- The argument of `set_service_status`. -/
def status (state : ServiceState) (accept : List ServiceControl) : ServiceStatus :=
  ⟨state, accept, 0, 0, 0⟩

def running : ServiceStatus := status .running [.stop, .shutdown]
def stopped : ServiceStatus := status .stopped []

/-- `event_handler`: how many messages it sends, and its result. -/
def eventHandler : ServiceControl → Nat × ServiceControlHandlerResult
  | .stop | .shutdown => (1, .noError)
  | .interrogate => (0, .noError)
  | .other _ => (0, .notImplemented)

/-- What happens next. -/
inductive Label (ω : Type) where
  /-- The manager calls `service_main`. -/
  | attach
  /-- `service_dispatcher::start` returns error 1063. -/
  | detached
  /-- It returns another error. -/
  | dispatcherError (cause : String)
  | register (fate : Fate)
  | announce (fate : Fate)
  | build (fate : Fate)
  | control (control : ServiceControl)
  /-- The future of the signal is polled, which spawns the blocking thread. -/
  | spawn
  /-- The blocking thread takes a message. -/
  | recv
  | ctrlC
  | daemon (l : Daemon.Label ω)
  /-- `block_on` has returned, and `Stopped` is reported. -/
  | report (fate : Fate)
  /-- The runtime is dropped. -/
  | drop
  /-- `service_dispatcher::start` returns, as `Stopped` has been reported, and then `main`. -/
  | quit

/-- A step of `run_service` that may fail with `?`. -/
def attempt (p : Winservice ρ) (fate : Fate) (q : Winservice ρ) : Winservice ρ :=
  match fate with
  | .ok => q
  | .fails cause => { p with stage := .finished (.error (.msg cause)) }

/-- The signal that `run_daemon` waits for is there when it takes it, and the runtime is only
dropped at the end. -/
def permits (p : Winservice ρ) : Daemon.Label ω → Bool
  | .shutdown => p.signalled
  | .exit => false
  | _ => true

def step (R : DnsRedirector ω ρ) (l : Label ω) (p : Winservice ρ) : Option (Winservice ρ) :=
  match l, p.stage with
  | .attach, .dispatcher => some { p with stage := .registering }
  | .detached, .dispatcher => some { p with stage := .foreground }
  | .dispatcherError cause, .dispatcher =>
    some { p with stage := .finished (.error (.msg ("service dispatcher failed: " ++ cause))) }
  | .register fate, .registering => some (p.attempt fate { p with stage := .announcing })
  | .announce fate, .announcing =>
    some (p.attempt fate { p with stage := .building, reports := p.reports ++ [running] })
  | .build fate, .building => some (p.attempt fate { p with stage := .serving })
  | .control c, .announcing | .control c, .building | .control c, .serving | .control c, .dropping _ =>
    some { p with controls := p.controls ++ [c], sent := p.sent + (eventHandler c).1 }
  | .spawn, .serving => match p.daemon.main with
    | .starting | .serving => some { p with spawned := true }
    | _ => none
  | .recv, .serving | .recv, .dropping _ =>
    if p.spawned = true ∧ 0 < p.sent ∧ p.signalled = false then
      some { p with sent := p.sent - 1, signalled := true }
    else none
  | .ctrlC, .foreground => some { p with signalled := true }
  | .daemon l, .serving | .daemon l, .foreground | .daemon l, .dropping _ =>
    if p.permits l then (p.daemon.step R l).map fun d => { p with daemon := d } else none
  | .report fate, .serving => match p.daemon.main with
    | .returned result => some (match fate with
      | .ok => { p with stage := .dropping result, reports := p.reports ++ [stopped] }
      | .fails cause => { p with stage := .dropping (.error (.msg cause)) })
    | _ => none
  | .drop, .dropping result =>
    -- the blocking thread is waited for
    if p.spawned = true ∧ p.signalled = false then none
    else (p.daemon.step R .exit).map fun d => { p with stage := .finished result, daemon := d }
  | .quit, .dropping _ =>
    if stopped ∈ p.reports then (p.daemon.step R .exit).map fun d =>
      { p with stage := .finished (.ok ()), daemon := d }
    else none
  | .drop, .foreground => match p.daemon.main with
    | .returned result => (p.daemon.step R .exit).map fun d =>
      { p with stage := .finished result, daemon := d }
    | _ => none
  | _, _ => none

/-! ### What a step can be -/

/-- Every step, with what makes it possible. -/
inductive Moves (R : DnsRedirector ω ρ) (p : Winservice ρ) : Label ω → Winservice ρ → Prop
  | attach : p.stage = .dispatcher → Moves R p .attach { p with stage := .registering }
  | detached : p.stage = .dispatcher → Moves R p .detached { p with stage := .foreground }
  | fails {l : Label ω} (e : Error) : p.stage.early = true →
      Moves R p l { p with stage := .finished (.error e) }
  | register : p.stage = .registering → Moves R p (.register .ok) { p with stage := .announcing }
  | announce : p.stage = .announcing → Moves R p (.announce .ok)
      { p with stage := .building, reports := p.reports ++ [running] }
  | build : p.stage = .building → Moves R p (.build .ok) { p with stage := .serving }
  | control (c : ServiceControl) : p.stage.registered = true →
      Moves R p (.control c)
        { p with controls := p.controls ++ [c], sent := p.sent + (eventHandler c).1 }
  | spawn : p.stage = .serving → p.daemon.main = .starting ∨ p.daemon.main = .serving →
      Moves R p .spawn { p with spawned := true }
  | recv : p.stage.driven = true → p.stage.registered = true → p.spawned = true → 0 < p.sent →
      p.signalled = false → Moves R p .recv { p with sent := p.sent - 1, signalled := true }
  | ctrlC : p.stage = .foreground → Moves R p .ctrlC { p with signalled := true }
  | daemon {l : Daemon.Label ω} {d : Daemon ρ} : p.stage.driven = true →
      p.permits l = true → p.daemon.step R l = some d → Moves R p (.daemon l) { p with daemon := d }
  | report {result : Except Error Unit} : p.stage = .serving → p.daemon.main = .returned result →
      Moves R p (.report .ok)
        { p with stage := .dropping result, reports := p.reports ++ [stopped] }
  | unreported {result : Except Error Unit} (cause : String) :
      p.stage = .serving → p.daemon.main = .returned result →
      Moves R p (.report (.fails cause)) { p with stage := .dropping (.error (.msg cause)) }
  | drop {result : Except Error Unit} {d : Daemon ρ} : p.stage = .dropping result →
      p.spawned = false ∨ p.signalled = true → p.daemon.step R .exit = some d →
      Moves R p .drop { p with stage := .finished result, daemon := d }
  | quit {result : Except Error Unit} {d : Daemon ρ} : p.stage = .dropping result →
      stopped ∈ p.reports → p.daemon.step R .exit = some d →
      Moves R p .quit { p with stage := .finished (.ok ()), daemon := d }
  | leave {result : Except Error Unit} {d : Daemon ρ} : p.stage = .foreground →
      p.daemon.main = .returned result → p.daemon.step R .exit = some d →
      Moves R p .drop { p with stage := .finished result, daemon := d }

theorem step_moves {R : DnsRedirector ω ρ} {l : Label ω} {p q : Winservice ρ}
    (h : step R l p = some q) : Moves R p l q := by
  have hcontrol : ∀ {c : ServiceControl}, p.stage.registered = true →
      some { p with controls := p.controls ++ [c], sent := p.sent + (eventHandler c).1 } = some q →
      Moves R p (.control c) q := by
    intro c hst h
    rw [← Option.some.inj h]
    exact .control c hst
  have hrecv : p.stage.driven = true → p.stage.registered = true →
      (if p.spawned = true ∧ 0 < p.sent ∧ p.signalled = false then
        some { p with sent := p.sent - 1, signalled := true } else none) = some q →
      Moves R p .recv q := by
    intro hst hst' h
    obtain ⟨⟨hspawned, hsent, hsig⟩, hq⟩ := Option.ite_none_right_eq_some.mp h
    rw [← Option.some.inj hq]
    exact .recv hst hst' hspawned hsent hsig
  have hdaemon : ∀ {l : Daemon.Label ω}, p.stage.driven = true →
      (if p.permits l then (p.daemon.step R l).map fun d => { p with daemon := d } else none) =
        some q → Moves R p (.daemon l) q := by
    intro l hst h
    obtain ⟨hpermits, hq⟩ := Option.ite_none_right_eq_some.mp h
    obtain ⟨d, hd, rfl⟩ := Option.map_eq_some_iff.mp hq
    exact .daemon hst hpermits hd
  unfold step at h
  split at h
  · rename_i hst
    rw [← Option.some.inj h]
    exact .attach hst
  · rename_i hst
    rw [← Option.some.inj h]
    exact .detached hst
  · rename_i hst
    rw [← Option.some.inj h]
    exact .fails _ (by rw [hst]; rfl)
  · rename_i fate hst
    rw [← Option.some.inj h]
    cases fate with
    | ok => exact .register hst
    | fails cause => exact .fails _ (by rw [hst]; rfl)
  · rename_i fate hst
    rw [← Option.some.inj h]
    cases fate with
    | ok => exact .announce hst
    | fails cause => exact .fails _ (by rw [hst]; rfl)
  · rename_i fate hst
    rw [← Option.some.inj h]
    cases fate with
    | ok => exact .build hst
    | fails cause => exact .fails _ (by rw [hst]; rfl)
  · rename_i hst
    exact hcontrol (by rw [hst]; rfl) h
  · rename_i hst
    exact hcontrol (by rw [hst]; rfl) h
  · rename_i hst
    exact hcontrol (by rw [hst]; rfl) h
  · rename_i hst
    exact hcontrol (by rw [hst]; rfl) h
  · rename_i hst
    split at h
    · rename_i hmain
      rw [← Option.some.inj h]
      exact .spawn hst (.inl hmain)
    · rename_i hmain
      rw [← Option.some.inj h]
      exact .spawn hst (.inr hmain)
    · exact absurd h (by simp)
  · rename_i hst
    exact hrecv (by rw [hst]; rfl) (by rw [hst]; rfl) h
  · rename_i hst
    exact hrecv (by rw [hst]; rfl) (by rw [hst]; rfl) h
  · rename_i hst
    rw [← Option.some.inj h]
    exact .ctrlC hst
  · rename_i hst
    exact hdaemon (by rw [hst]; rfl) h
  · rename_i hst
    exact hdaemon (by rw [hst]; rfl) h
  · rename_i hst
    exact hdaemon (by rw [hst]; rfl) h
  · rename_i fate hst
    split at h
    · rename_i hmain
      rw [← Option.some.inj h]
      cases fate with
      | ok => exact .report hst hmain
      | fails cause => exact .unreported cause hst hmain
    · exact absurd h (by simp)
  · rename_i hst
    obtain ⟨hwaits, hq⟩ := Option.ite_none_left_eq_some.mp h
    obtain ⟨d, hd, rfl⟩ := Option.map_eq_some_iff.mp hq
    refine .drop hst ?_ hd
    rcases Bool.eq_false_or_eq_true p.spawned with hspawned | hspawned
    · exact .inr (by simpa [hspawned] using hwaits)
    · exact .inl hspawned
  · rename_i hst
    obtain ⟨htold, hq⟩ := Option.ite_none_right_eq_some.mp h
    obtain ⟨d, hd, rfl⟩ := Option.map_eq_some_iff.mp hq
    exact .quit hst htold hd
  · rename_i hst
    split at h
    · rename_i hmain
      obtain ⟨d, hd, rfl⟩ := Option.map_eq_some_iff.mp h
      exact .leave hst hmain hd
    · exact absurd h (by simp)
  · exact absurd h (by simp)

/-! ### What is reported and what has come -/

/-- What the manager may have been told at each stage. -/
def told : Stage → List (List ServiceStatus)
  | .dispatcher | .registering | .announcing | .foreground => [[]]
  | .building | .serving => [[running]]
  | .dropping _ => [[running], [running, stopped]]
  | .finished _ => [[], [running], [running, stopped]]

/-- A process that is over has told no less than before. -/
theorem told_finished {stage : Stage} {reports : List ServiceStatus} (h : reports ∈ told stage)
    (result : Except Error Unit) : reports ∈ told (.finished result) := by
  cases stage with
  | dispatcher | registering | announcing | foreground =>
    rw [List.mem_singleton.mp h]
    exact List.mem_cons_self
  | building | serving =>
    rw [List.mem_singleton.mp h]
    exact List.mem_cons_of_mem _ List.mem_cons_self
  | dropping => exact List.mem_cons_of_mem _ h
  | finished => exact h

/-- The reports, the controls and the daemon go together. -/
structure Accounts (R : DnsRedirector ω ρ) (port : UInt16) (redirector : ρ) (p : Winservice ρ) :
    Prop where
  daemon : Reach (Daemon.step R) (fun _ _ => True) (.new port redirector) p.daemon
  early : p.stage.early = true → p.daemon.main = .starting ∧ p.signalled = false
  reports : p.reports ∈ told p.stage
  stopped : stopped ∈ p.reports →
    ∃ result, p.daemon.main = .returned result ∨ p.daemon.main = .exited result
  dropping : ∀ result, p.stage = .dropping result → ∃ result', p.daemon.main = .returned result'
  alive : p.stage.driven = true → ∀ result, p.daemon.main ≠ .exited result
  messages : p.stage.early = true ∨ p.stage.registered = true →
    p.controls.countP ServiceControl.ends = p.sent + p.signalled.toNat
  signal : p.signalled = true → p.reports = [] ∨ ∃ c ∈ p.controls, c.ends = true
  shutdown : p.daemon.main = .stopping ∨ p.daemon.main.restored = true → p.signalled = true

variable {R : DnsRedirector ω ρ} {port : UInt16} {redirector : ρ} {p q : Winservice ρ}

theorem new_accounts (var : Option String) (redirector : ρ) :
    Accounts R (Service.port var) redirector (new var redirector) where
  daemon := .init
  early _ := ⟨rfl, rfl⟩
  reports := List.mem_singleton.mpr rfl
  stopped h := absurd h (by simp [new])
  dropping _ h := absurd h (by simp [new])
  alive h := absurd h (by simp [new, Stage.driven])
  messages _ := rfl
  signal h := absurd h (by simp [new])
  shutdown h := absurd h (by simp [new, Daemon.new, Main.restored])

theorem eventHandler_ends (c : ServiceControl) : (eventHandler c).1 = if c.ends then 1 else 0 := by
  cases c <;> rfl

/-- A step of `run_daemon` that the process permits. -/
theorem permits_main (hd : Reach (Daemon.step R) (fun _ _ => True) (.new port redirector) p.daemon)
    {l : Daemon.Label ω} {d : Daemon ρ} (hl : p.permits l = true)
    (hs : p.daemon.step R l = some d) :
    (∀ result, d.main ≠ .exited result) ∧
      (∀ result, p.daemon.main = .returned result → d.main = .returned result) ∧
      (d.main = .stopping ∨ d.main.restored = true →
        p.signalled = true ∨ p.daemon.main = .stopping ∨ p.daemon.main.restored = true) := by
  obtain ⟨hmoves, halive⟩ := Daemon.step_moves hs
  cases hmoves with
  | exit => exact absurd hl (by simp [permits])
  | shutdown hm =>
    refine ⟨by simp, fun result h => ?_, fun _ => .inl hl⟩
    rcases hm with hm | hm <;> exact absurd (h.symm.trans hm) (by simp)
  | listen hm | serveError _ hm =>
    exact ⟨by simp, fun result h => absurd (h.symm.trans hm) (by simp), by simp [Main.restored]⟩
  | releaseMain hh hr ht =>
    have hmain := (Daemon.reach_any hd).1.main.mp (by simp [Daemon.tasks, hh, ht])
    exact ⟨by simp, fun result h => absurd (h.symm.trans hmain) (by simp), fun _ => .inr (.inl hmain)⟩
  | accept | recvNow | recvWait | hangup | updateValue | updateLagged | write | grant | call
    | releaseConn => exact ⟨halive, fun _ h => h, fun h => .inr h⟩

theorem exit_main {d e : Daemon ρ} (hs : d.step R .exit = some e) :
    ∃ result, d.main = .returned result ∧ e = { d with main := .exited result } := by
  obtain ⟨hmoves, _⟩ := Daemon.step_moves hs
  cases hmoves with
  | exit result hmain => exact ⟨result, hmain, rfl⟩

theorem restored_exited (result : Except Error Unit) :
    (Main.exited result).restored = (Main.returned result).restored := by
  cases result <;> rfl

/-- The runtime is dropped. -/
theorem Accounts.dropped (h : Accounts R port redirector p) {d : Daemon ρ}
    (hd : p.daemon.step R .exit = some d) (result' : Except Error Unit) :
    Accounts R port redirector { p with stage := .finished result', daemon := d } := by
  obtain ⟨result, hmain, rfl⟩ := exit_main hd
  exact
    { h with
      daemon := h.daemon.next _ trivial hd
      early := by simp [Stage.early]
      reports := told_finished h.reports _
      stopped := fun _ => ⟨_, .inr rfl⟩
      dropping := by simp
      alive := by simp [Stage.driven]
      messages := by simp [Stage.early, Stage.registered]
      shutdown := fun hrestored => h.shutdown (.inr (by
        rw [hmain, ← restored_exited]
        simpa using hrestored)) }

/-- The stage changes, from one in which `run_daemon` is not driven yet. -/
theorem Accounts.advance (h : Accounts R port redirector p) (hst : p.stage.early = true)
    {stage : Stage} (hreports : p.reports ∈ told stage) (hnext : ∀ result, stage ≠ .dropping result)
    (hmessages : stage.early = true ∨ stage.registered = true →
      p.controls.countP ServiceControl.ends = p.sent + p.signalled.toNat) :
    Accounts R port redirector { p with stage := stage } := by
  obtain ⟨hmain, hsig⟩ := h.early hst
  exact
    { h with
      early := fun _ => ⟨hmain, hsig⟩
      reports := hreports
      dropping := fun result he => absurd he (hnext result)
      alive := fun _ => by rw [hmain]; simp
      messages := hmessages }

theorem Accounts.step (h : Accounts R port redirector p) {l : Label ω}
    (hs : Winservice.step R l p = some q) : Accounts R port redirector q := by
  have hreports := h.reports
  cases step_moves hs with
  | attach hst | detached hst | register hst | build hst =>
    have hearly : p.stage.early = true := by rw [hst]; rfl
    rw [hst] at hreports
    exact h.advance hearly hreports (by simp) fun _ => h.messages (.inl hearly)
  | fails e hst =>
    exact h.advance hst (told_finished hreports _) (by simp) (by simp [Stage.early, Stage.registered])
  | announce hst =>
    have hearly : p.stage.early = true := by rw [hst]; rfl
    rw [hst] at hreports
    have hnone : p.reports = [] := List.mem_singleton.mp hreports
    obtain ⟨hmain, hsig⟩ := h.early hearly
    exact { h with
      early := fun _ => ⟨hmain, hsig⟩
      reports := by simp [told, hnone]
      stopped := by simp [hnone, running, Winservice.stopped, status]
      dropping := by simp
      alive := by simp [Stage.driven]
      messages := fun _ => h.messages (.inl hearly)
      signal := fun hsig' => absurd (hsig.symm.trans hsig') (by simp) }
  | control c hst =>
    have hmessages := h.messages (.inr hst)
    exact { h with
      messages := fun _ => by
        show (p.controls ++ [c]).countP _ = p.sent + (eventHandler c).1 + p.signalled.toNat
        rw [List.countP_append, hmessages, eventHandler_ends, List.countP_singleton]
        omega
      signal := fun hsig => (h.signal hsig).imp id fun ⟨c', hc', hends⟩ =>
        ⟨c', List.mem_append_left _ hc', hends⟩ }
  | spawn hst hmain => exact { h with }
  | recv hst hst' hspawned hsent hsig =>
    have hmessages := h.messages (.inr hst')
    rw [hsig] at hmessages
    have hmessages : p.controls.countP ServiceControl.ends = p.sent := hmessages
    have hpos : 0 < p.controls.countP ServiceControl.ends := by omega
    exact { h with
      early := fun hearly => absurd hst (by simp [Stage.driven_of_early hearly])
      messages := fun _ => by
        show p.controls.countP _ = p.sent - 1 + 1
        omega
      signal := fun _ => .inr (List.countP_pos_iff.mp hpos)
      shutdown := fun _ => rfl }
  | ctrlC hst =>
    rw [hst] at hreports
    exact { h with
      early := by simp [hst, Stage.early]
      messages := by simp [hst, Stage.early, Stage.registered]
      signal := fun _ => .inl (List.mem_singleton.mp hreports)
      shutdown := fun _ => rfl }
  | daemon hst hl hd =>
    obtain ⟨halive, hreturned, hshutdown⟩ := permits_main h.daemon hl hd
    exact { h with
      daemon := h.daemon.next _ trivial hd
      early := fun hearly => absurd hst (by simp [Stage.driven_of_early hearly])
      stopped := fun hin => by
        obtain ⟨result, hmain | hmain⟩ := h.stopped hin
        · exact ⟨result, .inl (hreturned result hmain)⟩
        · exact absurd hmain (h.alive hst result)
      dropping := fun result hstage => by
        obtain ⟨result', hmain⟩ := h.dropping result hstage
        exact ⟨result', hreturned result' hmain⟩
      alive := fun _ => halive
      shutdown := fun hmain => (hshutdown hmain).elim id h.shutdown }
  | report hst hmain =>
    rw [hst] at hreports
    have hreports : p.reports = [running] := List.mem_singleton.mp hreports
    exact { h with
      early := by simp [Stage.early]
      reports := by simp [told, hreports]
      stopped := fun _ => ⟨_, .inl hmain⟩
      dropping := fun _ _ => ⟨_, hmain⟩
      alive := fun _ => by rw [hmain]; simp
      messages := fun _ => h.messages (.inr (by rw [hst]; rfl))
      signal := fun hsig => (h.signal hsig).imp
        (fun hnone => absurd (hreports.symm.trans hnone) (by simp)) id }
  | unreported cause hst hmain =>
    rw [hst] at hreports
    exact { h with
      early := by simp [Stage.early]
      reports := List.mem_cons.mpr (.inl (List.mem_singleton.mp hreports))
      dropping := fun _ _ => ⟨_, hmain⟩
      alive := fun _ => by rw [hmain]; simp
      messages := fun _ => h.messages (.inr (by rw [hst]; rfl)) }
  | drop hst hwaits hd => exact h.dropped hd _
  | quit hst htold hd => exact h.dropped hd _
  | leave hst hmain hd => exact h.dropped hd _

theorem reach_accounts {var : Option String}
    (h : Reach (step R) (fun _ _ => True) (new var redirector) p) :
    Accounts R (Service.port var) redirector p :=
  h.invariant (new_accounts var redirector) fun _ _ _ _ hs hI => hI.step hs

/-- **What the manager is told**, and why the daemon shuts down, in every state of the process.
The reports are `Running` and then `Stopped`; at `Stopped` `run_daemon` has returned, though the
runtime may still be there.  Launched by the manager, it only shuts down after a Stop or a
Shutdown.  And its daemon is the daemon. -/
theorem manager_told {var : Option String}
    (h : Reach (step R) (fun _ _ => True) (new var redirector) p) :
    Reach (Daemon.step R) (fun _ _ => True) (.new (Service.port var) redirector) p.daemon ∧
      p.reports <+: [running, stopped] ∧
      (stopped ∈ p.reports →
        ∃ result, p.daemon.main = .returned result ∨ p.daemon.main = .exited result) ∧
      (running ∈ p.reports → p.daemon.main = .stopping ∨ p.daemon.main.restored = true →
        ∃ c ∈ p.controls, c.ends = true) := by
  have haccounts := reach_accounts h
  refine ⟨haccounts.daemon, ?_, haccounts.stopped, fun hrunning hmain => ?_⟩
  · have hall : ∀ reports ∈ told (.finished (.ok ())), reports <+: [running, stopped] := by decide
    exact hall _ (told_finished haccounts.reports _)
  · rcases haccounts.signal (haccounts.shutdown hmain) with hnone | hends
    · exact absurd hrunning (by simp [hnone])
    · exact hends

/-- Launched by the manager, and stopped while a client has the mutex to connect. -/
def launched : List (Label Fate) :=
  [.attach, .register .ok, .announce .ok, .build .ok, .spawn, .daemon .listen, .daemon .accept,
    .daemon (.recv 0 (.connect .cloudflare)), .daemon .grant, .control .interrogate, .control .stop]

/-- The rest, up to the last report; another client has asked to connect by then. -/
def ended : List (Label Fate) :=
  [.recv, .daemon .shutdown] ++ List.replicate 9 (.daemon (.call default)) ++
    [.daemon .release, .daemon .grant] ++ List.replicate 6 (.daemon (.call default)) ++
    [.daemon .release, .daemon (.write 0 true), .daemon (.recv 0 (.connect .quad9)), .report .ok,
      .daemon .grant]

theorem manager_told_stopped : ∃ p : Winservice (String × Option String),
    p.reports = [running, stopped] ∧
      ∃ result, p.daemon.main = .returned result ∨ p.daemon.main = .exited result := by
  have hA : Allowed (step plainRedirector) (fun _ _ => True) (launched ++ ended)
      (new (some "5353") ("9.9.9.9", none)) := by decide +kernel
  obtain ⟨p, hp, hreports⟩ := Reach.exists_of_allowed
    (P := fun p => p.reports = [running, stopped]) hA (by decide +kernel)
  exact ⟨p, hreports, (manager_told hp).2.2.1 (by simp [hreports])⟩

/-! ### A control is honoured -/

/-- The process's own steps: none of a client, and none of the manager. -/
def Own (world : Daemon ρ → Choice ω) : Label ω → Winservice ρ → Prop
  | .spawn, _ | .recv, _ | .drop, _ => True
  | .report fate, _ => fate = .ok
  | .daemon l, p => l = .shutdown ∨ l.isTurn = true ∧ ∀ w, l = .call w → w = world p.daemon
  | _, _ => False

/-- What the daemon does meanwhile: each call ends as the world decides, and no `connect` comes
late. -/
def InOrder (world : Daemon ρ → Choice ω) (l : Daemon.Label ω) (d : Daemon ρ) : Prop :=
  (∀ w, l = .call w → w = world d) ∧ Daemon.InTime l d

theorem permits_turn {l : Daemon.Label ω} (h : l.isTurn = true) (p : Winservice ρ) :
    p.permits l = true := by
  cases l with
  | grant | call | release => rfl
  | _ => exact absurd h (by simp [Daemon.Label.isTurn])

/-- A step of the daemon in `block_on`. -/
theorem step_daemon (hst : p.stage = .serving) {l : Daemon.Label ω} (hl : p.permits l = true)
    {d : Daemon ρ} (hs : p.daemon.step R l = some d) :
    step R (.daemon l) p = some { p with daemon := d } := by
  unfold step
  rw [hst]
  simp only [hl, if_true, hs, Option.map_some]

/-- Turns of the daemon are steps of the process. -/
theorem turns_run {world : Daemon ρ → Choice ω} : ∀ {ls : List (Daemon.Label ω)} {p : Winservice ρ}
    {e : Daemon ρ}, p.stage = .serving →
    Allowed (Daemon.step R) (fun l d => l.isTurn = true ∧ InOrder world l d) ls p.daemon →
    run (Daemon.step R) ls p.daemon = some e →
    Allowed (step R) (Own world) (ls.map .daemon) p ∧
      run (step R) (ls.map .daemon) p = some { p with daemon := e } := by
  intro ls
  induction ls with
  | nil =>
    intro p e _ _ hrun
    rw [← Option.some.inj hrun]
    exact ⟨trivial, rfl⟩
  | cons l ls ih =>
    intro p e hst hA hrun
    obtain ⟨d, hd, hrest⟩ := Option.bind_eq_some_iff.mp hrun
    have hstep := step_daemon hst (permits_turn hA.1.1 p) hd
    obtain ⟨hallowed, hruns⟩ := ih (p := { p with daemon := d }) hst (hA.2 d hd) hrest
    refine ⟨⟨.inr ⟨hA.1.1, hA.1.2.1⟩, fun q hq => ?_⟩, ?_⟩
    · rw [← Option.some.inj (hstep.symm.trans hq)]
      exact hallowed
    · show (step R (.daemon l) p).bind _ = _
      rw [hstep]
      exact hruns

/-- In its shutdown branch `run_daemon` has its turn after those before it, and returns. -/
theorem stopping_returns {d : Daemon ρ}
    (h : Reach (Daemon.step R) (fun _ _ => True) (.new port redirector) d) (hmain : d.main = .stopping)
    (world : Daemon ρ → Choice ω) :
    ∃ ls e, ls.length ≤ 11 * (d.queue.length + 1) ∧
      Allowed (Daemon.step R) (fun l d => l.isTurn = true ∧ InOrder world l d) ls d ∧
      run (Daemon.step R) ls d = some e ∧ e.main = .returned (.ok ()) := by
  obtain ⟨n, hn, hload⟩ := Daemon.exists_load h
  obtain ⟨ls, e, hlen, hA, hrun, hreturned⟩ := exists_run_of_measure (Daemon.step R)
    (A := fun l d => l.isTurn = true ∧ InOrder world l d)
    (M := fun e n => Reach (Daemon.step R) (fun _ _ => True) (.new port redirector) e ∧
      (e.main = .stopping ∨ e.main = .returned (.ok ())) ∧ Daemon.Load e n)
    (P := fun e => e.main = .returned (.ok ()))
    (fun e n hM hP => by
      obtain ⟨hreach, hmain, hload⟩ := hM
      have hstop : e.main = .stopping := hmain.resolve_right hP
      -- the main task has the mutex, or waits for it
      have htask := (Daemon.reach_any hreach).1.main.mpr hstop
      have hbusy : e.holder ≠ none ∨ e.queue ≠ [] := by
        refine Classical.or_iff_not_imp_left.mpr fun hh hq => ?_
        exact absurd htask (by simp [Daemon.tasks, Classical.not_not.mp hh, hq])
      obtain ⟨l, t, hl, hw, hs⟩ :=
        Daemon.turn_possible hreach (fun result => by rw [hstop]; simp) hbusy (world e)
      obtain ⟨m, hlt, hm⟩ := hload.step hl hs
      have htime : Daemon.InTime l e := by
        cases l with
        | grant => exact fun hn => absurd hn (by simp [hstop, Main.restored])
        | listen | serveError | accept | recv | call | release | update | write | hangup
          | shutdown | exit => trivial
      refine ⟨l, t, m, ⟨hl, hw, htime⟩, hs, ⟨hreach.next l trivial hs, ?_, hm⟩, hlt⟩
      rcases Daemon.turn_main hl hs with hsame | hreturned
      · exact .inl (hsame.trans hstop)
      · exact .inr hreturned)
    n d ⟨h, .inl hmain, hload⟩
  exact ⟨ls, e, by omega, hA, hrun, hreturned⟩

/-- The process comes to an end from here, in so many steps of its own. -/
def Ends (R : DnsRedirector ω ρ) (world : Daemon ρ → Choice ω) (p : Winservice ρ) (n : Nat) : Prop :=
  ∃ ls q result, ls.length ≤ n ∧ Allowed (step R) (Own world) ls p ∧ run (step R) ls p = some q ∧
    (q.reports = [running, stopped] ∧ q.stage = .finished result ∧ q.daemon.main = .exited result ∧
      (result = .ok () ∨ p.daemon.main = .returned result)) ∧
    Reach (Daemon.step R) (InOrder world) p.daemon q.daemon

theorem Ends.mono {world : Daemon ρ → Choice ω} {n m : Nat} (h : Ends R world p n) (hnm : n ≤ m) :
    Ends R world p m := by
  obtain ⟨ls, q, result, hlen, hrest⟩ := h
  exact ⟨ls, q, result, hlen.trans hnm, hrest⟩

/-- Some steps, and then from there. -/
theorem Ends.append {world : Daemon ρ → Choice ω} {n m : Nat} {ls : List (Label ω)}
    (h : Ends R world q n) (hlen : ls.length ≤ m) (hA : Allowed (step R) (Own world) ls p)
    (hrun : run (step R) ls p = some q)
    (hreach : Reach (Daemon.step R) (InOrder world) p.daemon q.daemon)
    (hmain : ∀ result, q.daemon.main = .returned result →
      result = .ok () ∨ p.daemon.main = .returned result) : Ends R world p (m + n) := by
  obtain ⟨ls', t, result, hlen', hA', hrun', ⟨hreports, hst, hexited, hresult⟩, hreach'⟩ := h
  refine ⟨ls ++ ls', t, result, ?_, hA.append hrun hA', run_append hrun hrun',
    ⟨hreports, hst, hexited, hresult.elim .inl (hmain result)⟩, hreach.trans hreach'⟩
  rw [List.length_append]
  omega

/-- One step, and then from there. -/
theorem Ends.cons {world : Daemon ρ → Choice ω} {n : Nat} {l : Label ω} (h : Ends R world q n)
    (hl : Own world l p) (hs : step R l p = some q)
    (hreach : Reach (Daemon.step R) (InOrder world) p.daemon q.daemon)
    (hmain : ∀ result, q.daemon.main = .returned result → p.daemon.main = .returned result) :
    Ends R world p (1 + n) := by
  refine h.append (show [l].length ≤ 1 from le_refl 1) ⟨hl, fun _ _ => trivial⟩ ?_ hreach
    fun result hres => .inr (hmain result hres)
  show (step R l p).bind _ = _
  rw [hs]
  rfl

/-- `run_daemon` has returned, and the runtime waits for no thread. -/
theorem ends_returned (h : Accounts R port redirector p) (hst : p.stage = .serving)
    {result : Except Error Unit} (hmain : p.daemon.main = .returned result)
    (hwaits : p.spawned = false ∨ p.signalled = true) (world : Daemon ρ → Choice ω) :
    Ends R world p 2 := by
  have hreport : step R (.report .ok) p =
      some { p with stage := .dropping result, reports := p.reports ++ [stopped] } := by
    unfold step
    rw [hst]
    dsimp only
    rw [hmain]
  have hexit : p.daemon.step R .exit = some { p.daemon with main := .exited result } := by
    unfold Daemon.step
    rw [hmain]
    dsimp only
    unfold Daemon.act
    dsimp only
    rw [hmain]
  have hdrop : step R .drop { p with stage := .dropping result, reports := p.reports ++ [stopped] } =
      some { p with
        stage := .finished result
        reports := p.reports ++ [stopped]
        daemon := { p.daemon with main := .exited result } } := by
    have hfree : ¬ (p.spawned = true ∧ p.signalled = false) := by
      rcases hwaits with hwaits | hwaits <;> simp [hwaits]
    show (if p.spawned = true ∧ p.signalled = false then none
      else (p.daemon.step R .exit).map fun d => _) = _
    rw [if_neg hfree, hexit]
    rfl
  have hreports := h.reports
  rw [hst] at hreports
  refine ⟨[.report .ok, .drop],
    { p with
      stage := .finished result
      reports := p.reports ++ [stopped]
      daemon := { p.daemon with main := .exited result } },
    result, le_refl 2, ⟨rfl, fun _ _ => ⟨trivial, fun _ _ => trivial⟩⟩, ?_,
    ⟨?_, rfl, rfl, .inr hmain⟩, .next .exit .init ⟨nofun, trivial⟩ hexit⟩
  · show (step R (.report .ok) p).bind _ = _
    rw [hreport]
    show (step R .drop _).bind _ = _
    rw [hdrop]
    rfl
  · show p.reports ++ [stopped] = _
    rw [List.mem_singleton.mp hreports]
    rfl

/-- `run_daemon` is in its shutdown branch. -/
theorem ends_stopping (h : Accounts R port redirector p) (hst : p.stage = .serving)
    (hmain : p.daemon.main = .stopping) (world : Daemon ρ → Choice ω) :
    Ends R world p (11 * (p.daemon.queue.length + 1) + 2) := by
  obtain ⟨ls, e, hlen, hA, hrun, hreturned⟩ := stopping_returns h.daemon hmain world
  obtain ⟨hallowed, hruns⟩ := turns_run hst hA hrun
  have hreach : Reach (step R) (fun _ _ => True) p { p with daemon := e } :=
    .of_run (fun _ _ => trivial) _ hruns
  have haccounts : Accounts R port redirector { p with daemon := e } :=
    hreach.invariant h fun _ _ _ _ hs hI => hI.step hs
  have hends := ends_returned haccounts hst hreturned (.inr (h.shutdown (.inl hmain))) world
  refine hends.append (by simpa using hlen) hallowed hruns
    ((Reach.of_allowed hA hrun).mono fun _ _ hA => hA.2) fun result hres => .inl ?_
  exact Main.returned.inj (hres.symm.trans hreturned)

/-- The shutdown signal is there. -/
theorem ends_signalled (h : Accounts R port redirector p) (hst : p.stage = .serving)
    (hsig : p.signalled = true) (world : Daemon ρ → Choice ω) :
    Ends R world p (11 * (p.daemon.queue.length + 2) + 3) := by
  have hshutdown : p.daemon.main = .starting ∨ p.daemon.main = .serving →
      Ends R world p (11 * (p.daemon.queue.length + 2) + 3) := by
    intro hmain
    obtain ⟨d, hd⟩ : ∃ d : Daemon ρ, d = { p.daemon with
      main := .stopping
      queue := p.daemon.queue ++ [⟨.main, .disconnect⟩] } := ⟨_, rfl⟩
    have hs : p.daemon.step R .shutdown = some d := by
      rw [hd]
      unfold Daemon.step Daemon.act
      rcases hmain with hmain | hmain <;> rw [hmain]
    have hstep := step_daemon (l := .shutdown) hst hsig hs
    have hlen : d.queue.length = p.daemon.queue.length + 1 := by simp [hd]
    have hends := ends_stopping (h.step hstep) hst (by rw [hd]) world
    refine (hends.cons (l := .daemon .shutdown) (.inl rfl) hstep
      (.next .shutdown .init ⟨nofun, trivial⟩ hs) fun result hres => ?_).mono ?_
    · have hres : d.main = .returned result := hres
      exact absurd hres (by simp [hd])
    · show 1 + (11 * (d.queue.length + 1) + 2) ≤ _
      omega
  cases hmain : p.daemon.main with
  | starting => exact hshutdown (.inl hmain)
  | serving => exact hshutdown (.inr hmain)
  | stopping => exact (ends_stopping h hst hmain world).mono (by omega)
  | returned result => exact (ends_returned h hst hmain (.inr hsig) world).mono (by omega)
  | exited result => exact absurd hmain (h.alive (by rw [hst]; rfl) result)

/-- A message is in the channel, and the thread that waits for it is there. -/
theorem ends_sent (h : Accounts R port redirector p) (hst : p.stage = .serving)
    (hspawned : p.spawned = true) (hsent : 0 < p.sent) (hsig : p.signalled = false)
    (world : Daemon ρ → Choice ω) : Ends R world p (11 * (p.daemon.queue.length + 2) + 4) := by
  have hrecv : step R .recv p = some { p with sent := p.sent - 1, signalled := true } := by
    unfold step
    rw [hst]
    simp only [hspawned, hsent, hsig, and_self, if_true]
  have hends := ends_signalled (h.step hrecv) hst rfl world
  exact (hends.cons (l := .recv) trivial hrecv .init fun _ hres => hres).mono (by simp; omega)

/-- A control has come. -/
theorem ends_told (h : Accounts R port redirector p) (hst : p.stage = .serving)
    {c : ServiceControl} (hc : c ∈ p.controls) (hends : c.ends = true) (world : Daemon ρ → Choice ω) :
    Ends R world p (11 * (p.daemon.queue.length + 2) + 5) := by
  cases hsig : p.signalled with
  | true => exact (ends_signalled h hst hsig world).mono (by omega)
  | false =>
    have hsent : 0 < p.sent := by
      have hmessages := h.messages (.inr (by rw [hst]; rfl))
      have hpos := List.countP_pos_iff.mpr ⟨c, hc, hends⟩
      rw [hmessages, hsig] at hpos
      exact hpos
    cases hspawned : p.spawned with
    | true => exact (ends_sent h hst hspawned hsent hsig world).mono (by omega)
    | false =>
      have hspawn : p.daemon.main = .starting ∨ p.daemon.main = .serving →
          Ends R world p (11 * (p.daemon.queue.length + 2) + 5) := by
        intro hmain
        have hspawn : step R .spawn p = some { p with spawned := true } := by
          unfold step
          rw [hst]
          dsimp only
          rcases hmain with hmain | hmain <;> rw [hmain]
        have hends := ends_sent (h.step hspawn) hst rfl hsent hsig world
        exact (hends.cons (l := .spawn) trivial hspawn .init fun _ hres => hres).mono (by simp; omega)
      cases hmain : p.daemon.main with
      | starting => exact hspawn (.inl hmain)
      | serving => exact hspawn (.inr hmain)
      | stopping => exact absurd (hsig.symm.trans (h.shutdown (.inl hmain))) (by simp)
      | returned result => exact (ends_returned h hst hmain (.inl hspawned) world).mono (by omega)
      | exited result => exact absurd hmain (h.alive (by rw [hst]; rfl) result)

/-- The calls of the daemon keep to `A`. -/
def Keeping (R : DnsRedirector ω ρ) (A : CallEvent sig (Choice ω) (Controller ρ) → Prop) :
    Label ω → Winservice ρ → Prop
  | .daemon l, p => Daemon.CallsKeep R A l p.daemon
  | _, _ => True

instance (R : DnsRedirector ω ρ) (A : CallEvent sig (Choice ω) (Controller ρ) → Prop)
    [DecidablePred A] : ∀ (l : Label ω) (p : Winservice ρ), Decidable (Keeping R A l p)
  | .daemon l, p => inferInstanceAs (Decidable (Daemon.CallsKeep R A l p.daemon))
  | .attach, _ | .detached, _ | .dispatcherError _, _ | .register _, _ | .announce _, _ | .build _, _
  | .control _, _ | .spawn, _ | .recv, _ | .ctrlC, _ | .report _, _ | .drop, _ | .quit, _ =>
    isTrue trivial

/-- The daemon inside runs as the daemon does. -/
theorem reach_daemon {A : CallEvent sig (Choice ω) (Controller ρ) → Prop} {var : Option String}
    (h : Reach (step R) (Keeping R A) (new var redirector) p) :
    Reach (Daemon.step R) (Daemon.CallsKeep R A) (.new (Service.port var) redirector) p.daemon := by
  induction h with
  | init => exact .init
  | next l _ hA hs ih =>
    cases step_moves hs with
    | daemon _ _ hd => exact ih.next _ hA hd
    | drop _ _ hd | quit _ _ hd | leave _ _ hd =>
      exact ih.next .exit (by simp [Daemon.CallsKeep, Daemon.callOf]) hd
    | attach | detached | fails | register | announce | build | control | spawn | recv | ctrlC | report
      | unreported => exact ih

section

variable {Dns : Type} {dns : ρ → Dns} {pointsAt : IpAddr → Dns} {prior : ρ → Option Dns}

end

end Winservice

end Voidns
