import Voidns.Daemon.Mutex

/-!
# Shutdown

On the shutdown signal `run_daemon` queues up for the mutex, disconnects and
returns.  The handlers are detached tasks: they go on until the runtime is
dropped, and a `connect` that gets the mutex after that last disconnect leaves a
redirect behind.  Where none does, none is left: the last disconnect has removed
what redirect there was, and only a `connect` makes another.

The mutex is FIFO, so a `connect` can only come late if it asked for the mutex
after the shutdown branch did.
-/

namespace Voidns.Daemon

open Effect Steps Controller

variable {ω ρ : Type}

/-- A restore succeeds: it leaves no redirect. -/
def Restored (redirected : ρ → Prop) (e : CallEvent sig (Choice ω) (Controller ρ)) : Prop :=
  e.call.isRestore = true → ¬ redirected e.after.redirector

instance (redirected : ρ → Prop) [DecidablePred redirected] :
    DecidablePred (Restored (ω := ω) redirected) := fun _ => inferInstanceAs (Decidable (_ → _))

def isConnect : Command → Bool
  | .connect _ => true
  | _ => false

/-- The mutex does not go to a `connect` after the last disconnect. -/
def InTime : Label ω → Daemon ρ → Prop
  | .grant, d => d.main.restored = true → ∀ w ∈ d.queue.head?, isConnect w.cmd = false
  | _, _ => True

instance : ∀ (l : Label ω) (d : Daemon ρ), Decidable (InTime l d)
  | .grant, _ => inferInstanceAs (Decidable (_ → _))
  | .listen, _ | .serveError _, _ | .accept, _ | .recv .., _ | .call _, _ | .release, _
  | .update _, _ | .write .., _ | .hangup _, _ | .shutdown, _ | .exit, _ =>
    inferInstanceAs (Decidable True)

/-- Restores succeed, and no `connect` comes late. -/
def Timely (R : DnsRedirector ω ρ) (redirected : ρ → Prop) (l : Label ω) (d : Daemon ρ) : Prop :=
  CallsKeep R (Restored redirected) l d ∧ InTime l d

instance (R : DnsRedirector ω ρ) (redirected : ρ → Prop) [DecidablePred redirected] (l : Label ω)
    (d : Daemon ρ) : Decidable (Timely R redirected l d) := inferInstanceAs (Decidable (_ ∧ _))

/-! ### What only a `connect` does -/

theorem killProxy_notApply : killProxy.Calls fun c : Call => c.isApply = false :=
  killProxy_afterRestore.mono fun c hc => by cases c <;> simp [Call.afterRestore, Call.isApply] at *

theorem dispatch_notApply {cmd : Command} (h : isConnect cmd = false) :
    (dispatch cmd).Calls fun c : Call => c.isApply = false := by
  cases cmd with
  | connect upstream => exact absurd h (by simp [isConnect])
  | disconnect =>
    exact Prog.Calls.bind (p := disconnect) ⟨rfl, fun _ => killProxy_notApply⟩ fun _ => trivial
  | getStatus => exact ⟨rfl, fun _ => trivial⟩
  | subscribe => exact ⟨rfl, fun _ => ⟨rfl, fun _ => trivial⟩⟩
  | ping => trivial

section Shutdown

variable {R : DnsRedirector ω ρ} {redirected : ρ → Prop}

/-- A flush that changes nothing makes no redirect. -/
theorem flush_same (hf : ∀ w r, (R.flushCache w r).2 = r) (w : ω) (r : ρ) (hr : ¬ redirected r) :
    ¬ redirected (R.flushCache w r).2 := by
  rw [hf]
  exact hr

/-- Only `apply` makes a redirect. -/
theorem call_keeps (hf : ∀ w r, ¬ redirected r → ¬ redirected (R.flushCache w r).2) (call : Call)
    (w : Choice ω) (c : Controller ρ) (hcall : call.isApply = false)
    (hA : Restored redirected ⟨call, w, c, (handler R call w c).2⟩)
    (hc : ¬ redirected c.redirector) : ¬ redirected (handler R call w c).2.redirector := by
  cases call with
  | apply ip => exact absurd hcall (by simp [Call.isApply])
  | restore => exact hA rfl
  | flushCache => exact hf w.os c.redirector hc
  | start listen upstream =>
    rcases start_cases R w c listen upstream with ⟨err, h⟩ | h <;> rw [h] <;> exact hc
  | status | set | port | stop | putProxy | takeProxy | subscribe => exact hc

/-- **A disconnect removes the redirect**, whatever it finds. -/
theorem disconnect_restores (hf : ∀ w r, ¬ redirected r → ¬ redirected (R.flushCache w r).2)
    (c : Controller ρ) :
    Safe (handler R) (Restored redirected) (fun _ => True) (fun _ t => ¬ redirected t.redirector)
      (dispatch .disconnect) c := by
  refine safe_bind.mpr (safe_perform.mpr fun w hA => ⟨trivial, ?_⟩)
  have hkill := safe_frame (H := handler R) (A := Restored redirected)
    (I := fun t : Controller ρ => ¬ redirected t.redirector)
    (fun call w c hcall hA hc => call_keeps hf call w c hcall hA hc) killProxy_notApply (hA rfl)
  exact hkill.mono (fun _ hA => hA) (fun _ _ => trivial) fun _ _ ht => ht

/-- What holds of the redirect on the way to the end. -/
structure Ending (R : DnsRedirector ω ρ) (redirected : ρ → Prop) (port : UInt16) (r : ρ)
    (d : Daemon ρ) : Prop where
  quiet : d.main.quiet = true → d.controller = .new port r ∧ d.holder = none ∧ d.queue = [] ∧
    d.conns = []
  restored : d.main.restored = true → ¬ redirected d.controller.redirector
  late : d.main.restored = true → ∀ x, d.holder = some x →
    x.rest.Calls fun c : Call => c.isApply = false
  last : ∀ x, d.holder = some x → x.task = .main → Safe (handler R) (Restored redirected)
    (fun _ => True) (fun _ t => ¬ redirected t.redirector) x.rest d.controller
  waiter : ∀ w ∈ d.queue, w.task = .main → w.cmd = .disconnect

namespace Ending

variable {port : UInt16} {r : ρ} {d e : Daemon ρ}

/-- A connection moves, or one is accepted. -/
theorem stay (h : Ending R redirected port r d) (hq : d.main.quiet = false) (hm : e.main = d.main)
    (hc : e.controller = d.controller) (hh : e.holder = d.holder)
    (hw : ∀ w ∈ e.queue, w ∈ d.queue ∨ w.task ≠ .main) : Ending R redirected port r e := by
  refine ⟨fun hn => ?_, by rw [hm, hc]; exact h.restored, by rw [hm, hh]; exact h.late,
    by rw [hh, hc]; exact h.last, fun w hin ht => ?_⟩
  · rw [hm, hq] at hn
    exact absurd hn (by simp)
  · rcases hw w hin with hold | hnew
    · exact h.waiter w hold ht
    · exact absurd ht hnew

/-- Where there is a connection, `serve` has accepted it. -/
theorem accepted (h : Ending R redirected port r d) {i : Nat} {c : Conn}
    (hc : d.conns[i]? = some c) : d.main.quiet = false := by
  by_contra hn
  have hnil := (h.quiet (by simpa using hn)).2.2.2
  rw [hnil] at hc
  exact absurd hc (by simp)

/-- Where the mutex is held, too. -/
theorem entered (h : Ending R redirected port r d) {x : Holder ρ} (hx : d.holder = some x) :
    d.main.quiet = false := by
  by_contra hn
  exact absurd (hx.symm.trans (h.quiet (by simpa using hn)).2.1) (by simp)

theorem new : Ending R redirected port r (.new port r) where
  quiet _ := ⟨rfl, rfl, rfl, rfl⟩
  restored hn := absurd hn (by simp [Daemon.new, Main.restored])
  late hn := absurd hn (by simp [Daemon.new, Main.restored])
  last _ hx := absurd hx (by simp [Daemon.new])
  waiter _ hw := absurd hw (by simp [Daemon.new])

theorem step (hf : ∀ w r, ¬ redirected r → ¬ redirected (R.flushCache w r).2)
    (h : Ending R redirected port r d) {l : Label ω} (hA : CallsKeep R (Restored redirected) l d)
    (htime : InTime l d) (hs : step R l d = some e) : Ending R redirected port r e := by
  have hsame : ∀ w ∈ d.queue, w ∈ d.queue ∨ w.task ≠ .main := fun _ hw => .inl hw
  obtain ⟨hmoves, _⟩ := step_moves hs
  cases hmoves with
  | listen _ => exact ⟨nofun, nofun, nofun, h.last, h.waiter⟩
  | serveError err hm =>
    exact ⟨fun _ => h.quiet (by rw [hm]; rfl), nofun, nofun, h.last, h.waiter⟩
  | accept hm => exact h.stay (by rw [hm]; rfl) rfl rfl rfl hsame
  | shutdown hm =>
    refine ⟨nofun, nofun, nofun, h.last, fun w hin ht => ?_⟩
    rcases List.mem_append.mp hin with hold | hnew
    · exact h.waiter w hold ht
    · rw [List.mem_singleton.mp hnew]
  | exit result hm =>
    have hq : (Main.exited result).quiet = d.main.quiet := by rw [hm]; cases result <;> rfl
    have hr : (Main.exited result).restored = d.main.restored := by rw [hm]; cases result <;> rfl
    exact ⟨fun hn => h.quiet (hq ▸ hn), fun hn => h.restored (hr ▸ hn), fun hn => h.late (hr ▸ hn),
      h.last, h.waiter⟩
  | recvNow hc _ _ => exact h.stay (h.accepted hc) rfl rfl rfl hsame
  | recvWait hc _ _ =>
    refine h.stay (h.accepted hc) rfl rfl rfl fun w hin => ?_
    rcases List.mem_append.mp hin with hold | hnew
    · exact .inl hold
    · rw [List.mem_singleton.mp hnew]
      exact .inr (by simp)
  | hangup hc _ => exact h.stay (h.accepted hc) rfl rfl rfl hsame
  | updateValue hc _ _ _ => exact h.stay (h.accepted hc) rfl rfl rfl hsame
  | updateLagged hc _ _ _ => exact h.stay (h.accepted hc) rfl rfl rfl hsame
  | write ok hc _ => exact h.stay (h.accepted hc) rfl rfl rfl hsame
  | @grant w queue hh hq =>
    refine ⟨fun hn => ?_, h.restored, fun hn x hx => ?_, fun x hx ht => ?_, fun w' hin => ?_⟩
    · exact absurd (hq.symm.trans (h.quiet hn).2.2.1) (by simp)
    · rw [← Option.some.inj hx]
      exact dispatch_notApply (htime hn w (by rw [hq]; rfl))
    · have hcmd : w.cmd = .disconnect := by
        rw [← Option.some.inj hx] at ht
        exact h.waiter w (by rw [hq]; exact List.mem_cons_self) ht
      rw [← Option.some.inj hx, hcmd]
      exact disconnect_restores hf _
    · exact h.waiter w' (by rw [hq]; exact List.mem_cons_of_mem _ hin)
  | @call x c k w hx hr =>
    have hB := hA.call hx hr
    refine ⟨fun hn => ?_, fun hn => ?_, fun hn y hy => ?_, fun y hy ht => ?_, h.waiter⟩
    · exact absurd (hn.symm.trans (h.entered hx)) (by simp)
    · have hcalls := h.late hn x hx
      rw [hr] at hcalls
      exact call_keeps hf c w d.controller hcalls.1 hB (h.restored hn)
    · rw [← Option.some.inj hy]
      have hcalls := h.late hn x hx
      rw [hr] at hcalls
      exact hcalls.2 _
    · rw [← Option.some.inj hy] at ht ⊢
      have hsafe := h.last x hx ht
      rw [hr] at hsafe
      exact (hsafe w hB).2
  | @releaseMain x reply hx hr ht =>
    have hsafe := h.last x hx ht
    rw [hr] at hsafe
    exact ⟨nofun, fun _ => hsafe, fun _ y hy => absurd hy (by simp),
      fun y hy => absurd hy (by simp), h.waiter⟩
  | releaseConn hx hr _ hc =>
    refine ⟨fun hn => ?_, h.restored, fun _ y hy => absurd hy (by simp),
      fun y hy => absurd hy (by simp), h.waiter⟩
    exact absurd (hn.symm.trans (h.entered hx)) (by simp)

end Ending

/-- What a process that has exited leaves: no redirect, and where `serve` has
failed, what it found. -/
structure Left (redirected : ρ → Prop) (port : UInt16) (r : ρ) (result : Except Error Unit)
    (t : Controller ρ) : Prop where
  restored : result = .ok () → ¬ redirected t.redirector
  untouched : ∀ e, result = .error e → t = .new port r

theorem exited_left (hf : ∀ w r, ¬ redirected r → ¬ redirected (R.flushCache w r).2)
    {port : UInt16} {r : ρ} {d : Daemon ρ}
    (h : Reach (step R) (Timely R redirected) (new port r) d) {result : Except Error Unit}
    (hd : d.main = .exited result) : Left redirected port r result d.controller := by
  have hend : Ending R redirected port r d := h.invariant (I := Ending R redirected port r) .new
    fun l s t hA hs hI => hI.step hf hA.1 hA.2 hs
  refine ⟨fun hok => hend.restored (by rw [hd, hok]; rfl), fun err he => ?_⟩
  exact (hend.quiet (by rw [hd, he]; rfl)).1

end Shutdown

/-! ### First come, first served -/

/-- No `connect` asks for the mutex after the shutdown branch has. -/
def Asked : Label ω → Daemon ρ → Prop
  | .recv _ cmd, d => isConnect cmd = true → d.main = .starting ∨ d.main = .serving
  | _, _ => True

/-- No `connect` is behind the last disconnect. -/
structure Ordered (d : Daemon ρ) : Prop where
  queue : d.queue.Pairwise fun v w => v.task = .main → isConnect w.cmd = false
  holder : ∀ x, d.holder = some x → x.task = .main → ∀ w ∈ d.queue, isConnect w.cmd = false
  restored : d.main.restored = true → ∀ w ∈ d.queue, isConnect w.cmd = false

namespace Ordered

theorem new (port : UInt16) (r : ρ) : Ordered (.new port r) where
  queue := List.Pairwise.nil
  holder _ hx := absurd hx (by simp [Daemon.new])
  restored hn := absurd hn (by simp [Daemon.new, Main.restored])

variable {R : DnsRedirector ω ρ} {d e : Daemon ρ}

/-- A task joins that may be behind the last disconnect, or comes before it. -/
theorem join (h : Ordered d) {w : Waiter}
    (hw : isConnect w.cmd = true → d.main.restored = false ∧ Task.main ∉ d.tasks) :
    Ordered { d with queue := d.queue ++ [w] } := by
  have hend : ∀ {v : Waiter}, v ∈ d.queue ++ [w] → (∀ u ∈ d.queue, isConnect u.cmd = false) →
      (isConnect w.cmd = true → False) → isConnect v.cmd = false := by
    intro v hv hall hno
    rcases List.mem_append.mp hv with hv | hv
    · exact hall v hv
    · rw [List.mem_singleton.mp hv]
      exact Bool.eq_false_iff.mpr hno
  refine ⟨List.pairwise_append.mpr ⟨h.queue, by simp, fun v hv u hu ht => ?_⟩,
    fun x hx ht v hv => ?_, fun hn v hv => ?_⟩
  · rw [List.mem_singleton.mp hu]
    refine Bool.eq_false_iff.mpr fun hc => (hw hc).2 ?_
    rw [← ht]
    exact List.mem_append_right _ (List.mem_map_of_mem hv)
  · refine hend hv (h.holder x hx ht) fun hc => (hw hc).2 ?_
    simp [tasks, show d.holder = some x from hx, ht]
  · refine hend hv (h.restored hn) fun hc => ?_
    exact absurd (hn.symm.trans (hw hc).1) (by simp)

theorem step (h : Ordered d) (hq : Queued d) {l : Label ω} (hA : Asked l d)
    (hs : step R l d = some e) : Ordered e := by
  obtain ⟨hmoves, _⟩ := step_moves hs
  cases hmoves with
  | listen _ | serveError _ _ => exact ⟨h.queue, h.holder, nofun⟩
  | shutdown _ =>
    have hjoin := h.join (w := ⟨.main, .disconnect⟩) nofun
    exact ⟨hjoin.queue, hjoin.holder, nofun⟩
  | exit result hm =>
    have hr : (Main.exited result).restored = d.main.restored := by rw [hm]; cases result <;> rfl
    exact ⟨h.queue, h.holder, fun hn => h.restored (hr ▸ hn)⟩
  | @recvWait i c cmd _ _ _ _ _ =>
    have hjoin := h.join (w := ⟨.conn i, cmd⟩) fun hc => by
      have hmain : d.main = .starting ∨ d.main = .serving := hA hc
      refine ⟨by rcases hmain with hm | hm <;> rw [hm] <;> rfl, fun hin => ?_⟩
      have hstop := hq.main.mp hin
      rcases hmain with hm | hm <;> exact absurd (hm.symm.trans hstop) (by simp)
    exact ⟨hjoin.queue, hjoin.holder, hjoin.restored⟩
  | accept | recvNow | hangup | updateValue | updateLagged | write =>
    exact ⟨h.queue, h.holder, h.restored⟩
  | @grant w queue hh hw =>
    have hpair := h.queue
    rw [hw] at hpair
    obtain ⟨hhead, htail⟩ := List.pairwise_cons.mp hpair
    refine ⟨htail, fun x hx ht v hv => ?_, fun hn v hv => ?_⟩
    · rw [← Option.some.inj hx] at ht
      exact hhead v hv ht
    · exact h.restored hn v (by rw [hw]; exact List.mem_cons_of_mem _ hv)
  | @call x c k w hx hr =>
    refine ⟨h.queue, fun y hy ht => ?_, h.restored⟩
    rw [← Option.some.inj hy] at ht
    exact h.holder x hx ht
  | @releaseMain x reply hx hr ht =>
    exact ⟨h.queue, fun y hy => absurd hy (by simp), fun _ => h.holder x hx ht⟩
  | releaseConn => exact ⟨h.queue, fun y hy => absurd hy (by simp), h.restored⟩

end Ordered

/-- **First come, first served**: if no `connect` asks for the mutex after the
shutdown branch has, none gets it after the last disconnect. -/
theorem reach_inTime {R : DnsRedirector ω ρ} {A : Label ω → Daemon ρ → Prop} {port : UInt16} {r : ρ}
    {d : Daemon ρ} (h : Reach (step R) (fun l d => A l d ∧ Asked l d) (new port r) d) :
    Reach (step R) (fun l d => A l d ∧ InTime l d) (new port r) d := by
  have hall : Reach (step R) (fun l d => A l d ∧ InTime l d) (new port r) d ∧
      Queued d ∧ Ordered d := by
    induction h with
    | init => exact ⟨.init, new_queued port r, .new port r⟩
    | @next d e l _ hA hs ih =>
      obtain ⟨hreach, hq, ho⟩ := ih
      refine ⟨.next l hreach ⟨hA.1, ?_⟩ hs, hq.step hs, ho.step hq hA.2 hs⟩
      cases l with
      | grant => exact fun hn w hw => ho.restored hn w (List.mem_of_mem_head? hw)
      | listen | serveError | accept | recv | call | release | update | write | hangup | shutdown
        | exit => trivial
  exact hall.1

/-- Once the shutdown branch has run to its end, it has. -/
theorem step_restored {R : DnsRedirector ω ρ} {l : Label ω} {d e : Daemon ρ} (hs : step R l d = some e)
    (h : d.main.restored = true) : e.main.restored = true := by
  obtain ⟨hmoves, _⟩ := step_moves hs
  cases hmoves with
  | listen hm | serveError _ hm => exact absurd h (by simp [hm, Main.restored])
  | shutdown hm => rcases hm with hm | hm <;> exact absurd h (by simp [hm, Main.restored])
  | exit result hm =>
    rw [hm] at h
    cases result with
    | ok _ => rfl
    | error e => exact absurd h (by simp [Main.restored])
  | releaseMain => rfl
  | accept | recvNow | recvWait | hangup | updateValue | updateLagged | write | grant | call
    | releaseConn => exact h

/-- Before the last disconnect is over, no `connect` has come late. -/
theorem reach_early {R : DnsRedirector ω ρ} {A : Label ω → Daemon ρ → Prop} {port : UInt16} {r : ρ}
    {d : Daemon ρ} (h : Reach (step R) A (new port r) d) (hd : d.main.restored = false) :
    Reach (step R) (fun l d => A l d ∧ InTime l d) (new port r) d := by
  induction h with
  | init => exact .init
  | @next d e l _ hA hs ih =>
    have hbefore : d.main.restored = false := by
      refine Bool.eq_false_iff.mpr fun hn => ?_
      exact absurd ((step_restored hs hn).symm.trans hd) (by simp)
    refine .next l (ih hbefore) ⟨hA, ?_⟩ hs
    cases l with
    | grant => exact fun hn => absurd (hbefore.symm.trans hn) (by simp)
    | listen | serveError | accept | recv | call | release | update | write | hangup | shutdown
      | exit => trivial

/-! ### The three redirectors -/

/-- **Shutdown leaves DNS restored**, with each redirector and whatever a redirect
is taken to be: when restores succeed and no `connect` gets the mutex after the
last disconnect, none is left when the process exits; where `serve` has failed,
the controller is as it was made. -/
theorem shutdown_restores (port : UInt16) (result : Except Error Unit) :
    (∀ (redirected : Linux.System → Prop) (s : Linux.System) (d : Daemon Linux.System),
      Reach (step LinuxRedirector) (Timely LinuxRedirector redirected) (new port s) d →
      d.main = .exited result → Left redirected port s result d.controller) ∧
    (∀ (redirected : Macos.System → Prop) (s : Macos.System) (d : Daemon Macos.System),
      Reach (step MacosRedirector) (Timely MacosRedirector redirected) (new port s) d →
      d.main = .exited result → Left redirected port s result d.controller) ∧
    (∀ (redirected : Windows.System → Prop) (s : Windows.System) (d : Daemon Windows.System),
      Reach (step WindowsRedirector) (Timely WindowsRedirector redirected) (new port s) d →
      d.main = .exited result → Left redirected port s result d.controller) :=
  ⟨fun _ _ _ h hd => exited_left (flush_same fun w s => ((Linux.flushCache_same s).exec_total w).2) h hd,
    fun _ _ _ h hd => exited_left (flush_same fun w s => ((Macos.flushCache_same s).exec_total w).2) h hd,
    fun _ _ _ h hd => exited_left (flush_same fun w s => ((Windows.flushCache_same s).exec_total w).2) h hd⟩

/-- A client connects, and the process shuts down. -/
def connectShutdown : List (Label (List Fate)) :=
  [.listen, .accept, .recv 0 (.connect .cloudflare), .grant] ++ List.replicate 9 (.call default) ++
    [.release, .shutdown, .grant] ++ List.replicate 6 (.call default) ++ [.release, .exit]

/-- The process shuts down, and a client connects. -/
def shutdownConnect : List (Label (List Fate)) :=
  [.listen, .accept, .shutdown, .recv 0 (.connect .cloudflare), .grant] ++
    List.replicate 5 (.call default) ++ [.release, .grant] ++ List.replicate 9 (.call default) ++
    [.release, .exit]

/-- `/etc/resolv.conf` names the proxy. -/
def resolvConfRedirected (s : Linux.System) : Prop :=
  FileSystem.read s.fs Linux.resolvConf = some (Linux.managed .localhost)

instance : DecidablePred resolvConfRedirected := fun _ => inferInstanceAs (Decidable (_ = _))

theorem shutdown_restores_plainHost : ∃ d : Daemon Linux.System, d.main = .exited (.ok ()) ∧
    Left resolvConfRedirected 53 Linux.plainHost (.ok ()) d.controller := by
  have hA : Allowed (step LinuxRedirector) (Timely LinuxRedirector resolvConfRedirected)
      connectShutdown (new 53 Linux.plainHost) := by decide +kernel
  obtain ⟨d, hd, hmain⟩ := Reach.exists_of_allowed (P := fun d => d.main = .exited (.ok ())) hA
    (by decide +kernel)
  exact ⟨d, hmain, (shutdown_restores 53 (.ok ())).1 _ _ d hd hmain⟩

/-- **A connect that comes late** leaves a redirect behind: it has asked for the
mutex after the last disconnect has, gets it after it, and the process exits. -/
theorem connect_after_shutdown : ¬ ∀ (d : Daemon Linux.System) (result : Except Error Unit),
    Reach (step LinuxRedirector) (CallsKeep LinuxRedirector (Restored resolvConfRedirected))
      (new 53 Linux.plainHost) d →
    d.main = .exited result → ¬ resolvConfRedirected d.controller.redirector := by
  intro hall
  have hA : Allowed (step LinuxRedirector)
      (CallsKeep LinuxRedirector (Restored resolvConfRedirected))
      shutdownConnect (new 53 Linux.plainHost) := by decide +kernel
  obtain ⟨d, hd, hmain, hleft⟩ := Reach.exists_of_allowed
    (P := fun d => d.main = .exited (.ok ()) ∧ resolvConfRedirected d.controller.redirector) hA
    (by decide +kernel)
  exact hall d _ hd hmain hleft

end Voidns.Daemon
