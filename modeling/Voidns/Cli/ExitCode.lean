import Voidns.Cli.Main
import Voidns.Daemon.Clients

/-!
# What an exit code says

`voidns` and `voidns-service` tell scripts by their exit code whether the command has
done what it should.  It is zero exactly when the daemon has run the command, and the
whole reply has come, and the reply is none of the failures (`exit_zero_iff`).  Of a
`connect` it says that at the end of its turn one proxy was running, and the line that is
printed names it; it is the one asked for unless the daemon was connected before.
-/

namespace Voidns

open Effect Steps Controller
open Daemon (History Sequential turnsOf)

variable {ω ρ : Type} {R : DnsRedirector ω ρ} {w : Wired ρ} {serde : Ipc.SerdeJson}
  {port : UInt16} {redirector : ρ}

/-- A reply that is no failure. -/
def Command.done (cmd : Command) : Event → Bool
  | .status s => !s.bad cmd
  | .pong => true
  | .error _ => false

theorem report_code {cmd : Command} {reply : Except Error Event} :
    (report cmd reply).code = 0 ↔ ∃ e, reply = .ok e ∧ cmd.done e = true := by
  cases reply with
  | error e => simp [report]
  | ok e =>
    cases e with
    | status s => cases h : s.bad cmd <;> simp [report, Command.done, h]
    | pong | error => simp [report, Command.done]

/-- A `connect` that a turn has replied `Connected` to: from where the turns before it led. -/
def ConnectedTurn [Inhabited ω] (R : DnsRedirector ω ρ) (c₀ : Controller ρ)
    (turns : List Daemon.Turn) (upstream : UpstreamSel) (stdout : List String) : Prop :=
  ∃ before s ws, before <+: turns ∧ Sequential R c₀ before s ∧
    ∃ p, (exec (handler R) (dispatch (.connect upstream)) ws s).state.proxy = some p ∧
      (exec (handler R) (dispatch (.connect upstream)) ws s).state.running = [p] ∧
      stdout = [(connectedStatus p.upstream.label p.listen).line] ∧
      (p.upstream = upstream ∨ s.status.state = .connected ∧
        (exec (handler R) (dispatch (.connect upstream)) ws s).state = s)

/-- A turn of a `connect` with a reply that is no failure. -/
theorem connectedTurn [Inhabited ω] {turns : List Daemon.Turn} {d : Daemon ρ}
    (h : History R (.new port redirector) turns d) {turn : Daemon.Turn} (hin : turn ∈ turns)
    {upstream : UpstreamSel} (hcmd : turn.cmd = .connect upstream)
    (hdone : (Command.connect upstream).done turn.reply.2 = true) :
    ConnectedTurn R (.new port redirector) turns upstream
      (report (.connect upstream) (.ok turn.reply.2)).stdout := by
  obtain ⟨before, after, rfl⟩ := List.append_of_mem hin
  obtain ⟨t, ht⟩ := h.sequential
  obtain ⟨s, ws, hs, hvalue⟩ := ht.split rfl
  rw [hcmd] at hvalue
  obtain ⟨_, hset, hreplied⟩ := (Daemon.dispatch_safe (Daemon.keeps_trivial R) (.connect upstream)
    (hs.settled (new_settled port trivial))).exec_total ws
  refine ⟨before, s, ws, List.prefix_append _ _, hs, ?_⟩
  generalize hrun : exec (handler R) (dispatch (.connect upstream)) ws s = run at *
  have hreply : turn.reply.2 = .status run.state.status := by
    rcases hreplied.event with he | ⟨hping, _⟩
    · rw [hvalue]
      exact he
    · exact absurd hping (by simp)
  have hconnected : run.state.status.state = .connected := by
    rw [hreply] at hdone
    have hgood : run.state.status.state ≠ .error ∧ run.state.status.state = .connected := by
      simpa [Command.done, Status.bad, Command.isConnect] using hdone
    exact hgood.2
  rw [hreply]
  cases hset with
  | disconnected _ _ hst _ =>
    rcases hst with hst | ⟨err, hst⟩ <;> rw [hst] at hconnected <;>
      exact absurd hconnected (by simp [Status.disconnected, errorStatus])
  | connected p hproxy hrunning hst _ =>
    refine ⟨p, hproxy, hrunning, by rw [← hst]; rfl, ?_⟩
    rcases hreplied.served upstream rfl with ⟨_, hsame⟩ | ⟨_, hserved⟩
    · exact .inr ⟨by rw [← hsame]; exact hconnected, hsame⟩
    · exact .inl (hserved p hproxy)

/-- **Exit code zero tells the truth**, and nothing else does.  Whatever else goes on, each
program exits with zero if and only if its command has had its turn, once, and the whole
frame of a reply that is no failure has come back; and what it prints after a `connect` is
the state that the turn has left. -/
theorem exit_zero_iff [Inhabited ω] (hserde : serde.Inverts) (hcut : serde.RejectsCut)
    (h : Reach (Wired.step serde.command serde.event R) (fun _ _ => True) (.new port redirector) w) :
    ∃ turns, History R (.new port redirector) turns w.daemon ∧
      ∀ i p, w.pipes[i]? = some p → ∀ (program : Program) (args : List String) (line : Ipc.Line)
        (cmd : Command) (out : Outcome), program.command args = .ok (some cmd) →
        (serde.command.encode cmd).length < 2 ^ 32 →
        program.main serde.command serde.event args line = some (p.sent, out) →
        line.incoming.flatten <+: p.output →
        (out.code = 0 ↔ line.name = .ok ∧ line.connect = .ok ∧ line.write = .ok ∧
          ∃ reply, turnsOf i turns = [⟨.conn i, cmd, reply⟩] ∧
            line.incoming.flatten = serde.event.wire reply.2 ∧ Ipc.fits serde.event reply.2 ∧
            cmd.done reply.2 = true) ∧
        ∀ upstream, cmd = .connect upstream → out.code = 0 →
          ConnectedTurn R (.new port redirector) turns upstream out.stdout := by
  obtain ⟨turns, hturns, hwrote⟩ := Wired.reach_wrote h
  refine ⟨turns, hturns, fun i p hp program args line cmd out hcommand hlen hmain hin => ?_⟩
  obtain ⟨c, hc⟩ := Wired.reach_conn h hp
  rw [Program.main_command hcommand] at hmain
  obtain ⟨hsent, rfl⟩ := Prod.mk.inj (Option.some.inj hmain)
  obtain ⟨_, hiff⟩ := Wired.oneShot_answered hserde hcut h hturns hp hc (hwrote i p c hp hc)
    program.peer (Program.command_ne hcommand) hlen hsent.symm hin
  have hcode : (report cmd (program.peer.oneShot serde.command serde.event cmd line).2).code = 0 ↔
      line.name = .ok ∧ line.connect = .ok ∧ line.write = .ok ∧
        ∃ reply, turnsOf i turns = [⟨.conn i, cmd, reply⟩] ∧
          line.incoming.flatten = serde.event.wire reply.2 ∧ Ipc.fits serde.event reply.2 ∧
          cmd.done reply.2 = true := by
    rw [report_code]
    constructor
    · rintro ⟨e, he, hdone⟩
      obtain ⟨hname, hconnect, hwrite, reply, hturn, rfl, hwire, hfits⟩ := (hiff e).mp he
      exact ⟨hname, hconnect, hwrite, reply, hturn, hwire, hfits, hdone⟩
    · rintro ⟨hname, hconnect, hwrite, reply, hturn, hwire, hfits, hdone⟩
      exact ⟨reply.2, (hiff reply.2).mpr ⟨hname, hconnect, hwrite, reply, hturn, rfl, hwire, hfits⟩,
        hdone⟩
  refine ⟨hcode, fun upstream hconnect hzero => ?_⟩
  obtain ⟨e, he, hdone⟩ := report_code.mp hzero
  obtain ⟨_, _, _, reply, hturn, rfl, _, _⟩ := (hiff e).mp he
  have hmem : (⟨.conn i, cmd, reply⟩ : Daemon.Turn) ∈ turns := by
    refine List.mem_of_mem_filter (p := fun turn => turn.task = .conn i) ?_
    exact List.mem_of_mem_head? (by rw [← turnsOf, hturn]; rfl)
  subst hconnect
  rw [he]
  exact connectedTurn hturns hmem rfl hdone

/-- The daemon has served `voidns connect cloudflare`, and has written this much. -/
def answering (conn : Conn) (output : List UInt8) : Wired (String × Option String) where
  daemon :=
    { controller := Daemon.cloudflare
      holder := none
      queue := []
      main := .serving
      conns := [conn] }
  pipes := [⟨Ipc.jsonText.command.wire (.connect .cloudflare), [], [], [], output⟩]

/-- Its command has been read, in two pieces. -/
def asking : Wired (String × Option String) where
  daemon :=
    { Daemon.new 53 ("9.9.9.9", none) with
      queue := [⟨.conn 0, .connect .cloudflare⟩]
      main := .serving
      conns := [⟨.dispatching, none, [], []⟩] }
  pipes := [⟨Ipc.jsonText.command.wire (.connect .cloudflare), [], [], [], []⟩]

/-- Its reply has been written. -/
def answered : Wired (String × Option String) :=
  answering ⟨.select, none, [.connect .cloudflare], [.status Daemon.cloudflare.status]⟩
    (Ipc.jsonText.event.wire (.status Daemon.cloudflare.status))

theorem reach_answered :
    Reach (Wired.step Ipc.jsonText.command Ipc.jsonText.event plainRedirector) (fun _ _ => True)
      (.new 53 ("9.9.9.9", none)) answered := by
  have hasked : run (Wired.step Ipc.jsonText.command Ipc.jsonText.event plainRedirector)
      [.other .listen, .accept (Ipc.jsonText.command.wire (.connect .cloudflare)), .arrive 0 2,
        .poll 0, .arrive 0 99, .poll 0] (.new 53 ("9.9.9.9", none)) = some asking := rfl
  have hserved : run (Wired.step Ipc.jsonText.command Ipc.jsonText.event plainRedirector)
      ([.other .grant] ++ List.replicate 9 (.other (.call default)) ++ [.other .release]) asking =
        some (answering
          ⟨.writing (.status Daemon.cloudflare.status), none, [.connect .cloudflare], []⟩ []) := rfl
  have hwritten : run (Wired.step Ipc.jsonText.command Ipc.jsonText.event plainRedirector)
      [.write 0 true 0] (answering
        ⟨.writing (.status Daemon.cloudflare.status), none, [.connect .cloudflare], []⟩ []) =
        some answered := rfl
  exact ((Reach.of_run (fun _ _ => trivial) _ hasked).trans
    (.of_run (fun _ _ => trivial) _ hserved)).trans (.of_run (fun _ _ => trivial) _ hwritten)

theorem exit_zero_connect :
    ∃ turns, History plainRedirector (.new 53 ("9.9.9.9", none)) turns answered.daemon ∧
      ConnectedTurn plainRedirector (.new 53 ("9.9.9.9", none)) turns .cloudflare
        [Daemon.cloudflare.status.line] := by
  obtain ⟨turns, hturns, hclients⟩ := exit_zero_iff Ipc.jsonText_inverts Ipc.jsonText_rejectsCut
    reach_answered
  let line : Ipc.Line := ⟨.ok, .ok, .ok, 0,
    [Ipc.jsonText.event.wire (.status Daemon.cloudflare.status)], none, "early eof",
    "expected value"⟩
  have hcommand : Program.cli.command ["voidns", "connect", "cloudflare"] =
      .ok (some (.connect .cloudflare)) := rfl
  have hmain : Program.cli.main Ipc.jsonText.command Ipc.jsonText.event
      ["voidns", "connect", "cloudflare"] line =
        some (Ipc.jsonText.command.wire (.connect .cloudflare),
          ⟨[Daemon.cloudflare.status.line], none, 0⟩) := by decide +kernel
  exact ⟨turns, hturns, (hclients 0 _ rfl .cli _ line _ _ hcommand (by decide +kernel) hmain
    (by simp [line])).2 .cloudflare rfl rfl⟩

end Voidns
