import Voidns.Daemon.Wired
import Voidns.Ipc.Client

/-!
# What the clients are told

From one end to the other: a client writes a frame, the handler reads it in pieces,
takes its turn with the others, and writes the frame of its reply, and the client reads
that in pieces.  Each end may break off at any byte.

What goes wrong when a status is forwarded in the middle of a frame does not concern the
clients of this repository: none of them writes anything behind a `Subscribe`.  So no
command of theirs is lost or run twice (`one_shot_exact`), and a subscription hears what
its handler was sent (`subscription_exact`).
-/

namespace Voidns

open Effect Steps Framing

/-! ### The commands of one connection -/

namespace Ipc

/-- Nothing is written behind a `Subscribe`. -/
def SubscribesLast (cmds : List Command) : Prop := ∀ l r, cmds = l ++ .subscribe :: r → r = []

/-- The commands dispatched and those left are the commands sent, and as long as the
connection is open the bytes are the beginning of those left. -/
structure Fed (codec : Codec Command) (cmds left : List Command) (k : Conn) : Prop where
  cmds : cmds = k.dispatched ++ left
  bytes : k.phase ≠ .closed → k.held ++ k.input ++ k.coming <+: left.flatMap codec.wire
  held : k.phase ≠ .closed → ∀ cmd rest, left = cmd :: rest →
    k.held.length < (codec.wire cmd).length
  subscribed : k.subscribed = true → .subscribe ∈ k.dispatched ∧ left = []

variable {codec : Codec Command} {cmds left : List Command} {k k' : Conn}

theorem Fed.new {bytes : List UInt8} (h : bytes <+: cmds.flatMap codec.wire) :
    Fed codec cmds cmds (.reading bytes) where
  cmds := rfl
  bytes _ := h
  held _ _ _ _ := by
    show 0 < (frame _).length
    rw [frame_length]
    omega
  subscribed hs := absurd hs (by simp [Conn.reading])

/-- The connection is over. -/
theorem Fed.closed (h : Fed codec cmds left k) : Fed codec cmds left { k with phase := .closed } where
  cmds := h.cmds
  bytes hn := absurd rfl hn
  held hn := absurd rfl hn
  subscribed := h.subscribed

theorem Fed.poll (hc : Lawful codec cmds) (hlast : SubscribesLast cmds) (h : Fed codec cmds left k)
    (hs : Ipc.step codec .poll k = some k') : ∃ left', Fed codec cmds left' k' := by
  rw [Ipc.step] at hs
  split at hs
  · rename_i hsel
    have hopen : k.phase ≠ .closed := by rw [hsel]; simp
    have hbytes := h.bytes hopen
    cases left with
    | nil =>
      rw [List.flatMap_nil, List.prefix_nil, List.append_eq_nil_iff, List.append_eq_nil_iff] at hbytes
      rw [hbytes.1.1, hbytes.1.2, readFrom_nil] at hs
      rw [← Option.some.inj hs]
      refine ⟨[], h.cmds, fun _ => ?_, fun _ _ _ hn => absurd hn (by simp), h.subscribed⟩
      rw [hbytes.2]
      exact List.prefix_refl _
    | cons cmd rest =>
      have hmem : cmd ∈ cmds := by rw [h.cmds]; simp
      rcases readFrom_prefix (hc.length cmd hmem) (h.held hopen cmd rest rfl) hbytes with
        ⟨hread, hlt⟩ | ⟨tail, hread, htail⟩
      · -- only the beginning of the frame is there
        rw [hread] at hs
        rw [← Option.some.inj hs]
        refine ⟨cmd :: rest, h.cmds, fun _ => ?_, fun _ cmd' rest' he => ?_, h.subscribed⟩
        · rw [List.append_nil]
          exact hbytes
        · rw [← (List.cons.inj he).1]
          exact hlt
      · -- the frame is there
        simp only [hread, hc.decode_encode cmd hmem] at hs
        rw [← Option.some.inj hs]
        refine ⟨rest, ?_, fun _ => htail, fun _ cmd' _ _ => ?_, fun hsub => ?_⟩
        · show cmds = k.dispatched ++ [cmd] ++ rest
          rw [h.cmds, List.append_assoc, List.singleton_append]
        · show 0 < (frame _).length
          rw [frame_length]
          omega
        · rcases Bool.or_eq_true_iff.mp hsub with hold | hnew
          · exact absurd (h.subscribed hold).2 (by simp)
          · obtain rfl := of_decide_eq_true hnew
            exact ⟨by simp [Conn.receive], hlast k.dispatched rest h.cmds⟩
  · exact absurd hs (by simp)

/-- **Any step** leaves the commands in order, also when bytes that are held are dropped,
as there are none then. -/
theorem Fed.step (hc : Lawful codec cmds) (hlast : SubscribesLast cmds) (h : Fed codec cmds left k)
    {l : Label} (hs : Ipc.step codec l k = some k') : ∃ left', Fed codec cmds left' k' := by
  cases l with
  | arrive n =>
    rw [← Option.some.inj hs]
    refine ⟨left, h.cmds, fun hn => ?_, h.held, h.subscribed⟩
    show k.held ++ (k.input ++ k.coming.take n) ++ k.coming.drop n <+: _
    rw [List.append_assoc, List.append_assoc, List.take_append_drop, ← List.append_assoc]
    exact h.bytes hn
  | poll => exact h.poll hc hlast hs
  | reply =>
    rw [Ipc.step] at hs
    split at hs
    · rename_i cmd hp
      have hopen : k.phase ≠ .closed := by rw [hp]; simp
      rw [← Option.some.inj hs]
      exact ⟨left, h.cmds, fun _ => h.bytes hopen, fun _ => h.held hopen, h.subscribed⟩
    · exact absurd hs (by simp)
  | update status =>
    rw [Ipc.step] at hs
    split at hs
    · rename_i hsel
      split at hs
      · rename_i hsub
        have hbytes := h.bytes (by rw [hsel]; simp)
        rw [(h.subscribed hsub).2, List.flatMap_nil, List.prefix_nil, List.append_eq_nil_iff,
          List.append_eq_nil_iff] at hbytes
        rw [← Option.some.inj hs]
        refine ⟨left, h.cmds, fun _ => ?_, fun _ cmd rest he => ?_, h.subscribed⟩
        · rw [List.nil_append, hbytes.1.2, hbytes.2]
          exact List.nil_prefix
        · exact absurd (h.subscribed hsub).2 (by rw [he]; simp)
      · exact absurd hs (by simp)
    · exact absurd hs (by simp)
  | hangup =>
    rw [Ipc.step] at hs
    split at hs
    · rw [← Option.some.inj hs]
      exact ⟨left, h.closed⟩
    · exact absurd hs (by simp)
  | fail =>
    rw [Ipc.step] at hs
    split at hs
    · exact absurd hs (by simp)
    · rw [← Option.some.inj hs]
      exact ⟨left, h.closed⟩

theorem reach_fed (hc : Lawful codec cmds) (hlast : SubscribesLast cmds) {bytes : List UInt8}
    (hbytes : bytes <+: cmds.flatMap codec.wire)
    (h : Reach (Ipc.step codec) (fun _ _ => True) (.reading bytes) k) :
    ∃ left, Fed codec cmds left k :=
  h.invariant (I := fun k => ∃ left, Fed codec cmds left k) ⟨cmds, .new hbytes⟩
    fun _ _ _ _ hs ⟨_, hk⟩ => hk.step hc hlast hs

theorem subscribesLast_single (cmd : Command) : SubscribesLast [cmd] := by
  intro l r h
  cases l with
  | nil => exact (List.cons.inj h).2.symm
  | cons _ l => exact absurd (List.cons.inj h).2.symm (by simp)

end Ipc

/-! ### The bytes written on one connection -/

namespace Daemon

variable {ω ρ : Type} {R : DnsRedirector ω ρ} {l : Label ω} {d e : Daemon ρ}

/-- A connection that is open goes on and writes nothing. -/
theorem set_written {conns : List Conn} {i j : Nat} {c x x' : Conn} (hx : conns[j]? = some x)
    (hc : conns[i]? = some c) (hopen : x.phase ≠ .closed) (hw : x'.written = x.written) :
    ∃ c', (conns.set j x')[i]? = some c' ∧ c'.written = c.written ∧ (c.phase = .closed → c' = c) := by
  by_cases hij : j = i
  · subst hij
    obtain rfl := Option.some.inj (hx.symm.trans hc)
    exact ⟨x', List.getElem?_set_self (List.getElem?_eq_some_iff.mp hx).1, hw,
      fun hp => absurd hp hopen⟩
  · exact ⟨c, by rw [List.getElem?_set_ne hij, hc], rfl, fun _ => rfl⟩

/-- Only `write_msg` writes, and a connection that is over stays so. -/
theorem step_written (h : step R l d = some e) (hq : Queued d) {i : Nat} {c : Conn}
    (hc : d.conns[i]? = some c) (hl : ∀ ok, l ≠ .write i ok) :
    ∃ c', e.conns[i]? = some c' ∧ c'.written = c.written ∧ (c.phase = .closed → c' = c) := by
  obtain ⟨hmoves, _⟩ := step_moves h
  cases hmoves with
  | listen | serveError | exit | shutdown | grant | call | releaseMain =>
    exact ⟨c, hc, rfl, fun _ => rfl⟩
  | accept =>
    refine ⟨c, ?_, rfl, fun _ => rfl⟩
    rw [List.getElem?_append_left (List.getElem?_eq_some_iff.mp hc).1, hc]
  | recvNow hx hp _ => exact set_written hx hc (by rw [hp]; simp) rfl
  | recvWait hx hp _ => exact set_written hx hc (by rw [hp]; simp) rfl
  | hangup hx hp => exact set_written hx hc (by rw [hp]; simp) rfl
  | updateValue hx hp _ _ => exact set_written hx hc (by rw [hp]; simp) rfl
  | updateLagged hx hp _ _ => exact set_written hx hc (by rw [hp]; simp) rfl
  | @write j x event ok hx hp =>
    refine ⟨c, ?_, rfl, fun _ => rfl⟩
    rw [List.getElem?_set_ne fun hij => hl ok (by rw [hij]), hc]
  | releaseConn hh _ ht hx =>
    exact set_written hx hc (by rw [hq.holding hh ht hx]; simp) rfl

end Daemon

namespace Wired

open Daemon (Queued Follows Informs Recounts History turnsOf answers latest)
open Broadcast (Delivered)

variable {ω ρ : Type} {commands : Ipc.Codec Command} {events : Ipc.Codec Event}
  {R : DnsRedirector ω ρ} {w v : Wired ρ}

/-- What a step makes of the bytes written on a connection, and of the events they are
the frames of: both grow together, unless a write fails. -/
def Writes (events : Ipc.Codec Event) (p : Pipe) (c : Conn) (p' : Pipe) (c' : Conn) : Prop :=
  (c'.written = c.written ∧ p'.output = p.output ∧ (c.phase = .closed → c' = c)) ∨
  ∃ event, c.phase = .writing event ∧
    (c' = c.wrote event true ∧ p'.output = p.output ++ events.wire event ∨
      ∃ n, c' = c.wrote event false ∧ p'.output = p.output ++ (events.wire event).take n)

theorem Moves.writes {s : Signal ω} (h : Moves commands events R w s v) (hq : Queued w.daemon)
    {i : Nat} {p : Pipe} {c : Conn} (hp : w.pipes[i]? = some p) (hc : w.daemon.conns[i]? = some c) :
    ∃ p' c', v.pipes[i]? = some p' ∧ v.daemon.conns[i]? = some c' ∧ Writes events p c p' c' := by
  have hlt : i < w.pipes.length := (List.getElem?_eq_some_iff.mp hp).1
  -- a pipe that is set with the same output
  have hset : ∀ {j : Nat} {x : Pipe} (x' : Pipe), w.pipes[j]? = some x → x'.output = x.output →
      ∃ p', (w.pipes.set j x')[i]? = some p' ∧ p'.output = p.output := by
    intro j x x' hx ho
    by_cases hij : j = i
    · subst hij
      obtain rfl := Option.some.inj (hx.symm.trans hp)
      exact ⟨x', List.getElem?_set_self hlt, ho⟩
    · exact ⟨p, by rw [List.getElem?_set_ne hij, hp], rfl⟩
  -- and a step of the daemon that is not a write here
  have hquiet : ∀ {pipes : List Pipe} {l : Daemon.Label ω} {d : Daemon ρ},
      (∃ p', pipes[i]? = some p' ∧ p'.output = p.output) → Daemon.step R l w.daemon = some d →
      (∀ ok, l ≠ .write i ok) →
      ∃ p' c', pipes[i]? = some p' ∧ d.conns[i]? = some c' ∧ Writes events p c p' c' := by
    intro pipes l d ⟨p', hp', ho⟩ hd hl
    obtain ⟨c', hc', hw, hcl⟩ := Daemon.step_written hd hq hc hl
    exact ⟨p', c', hp', hc', .inl ⟨hw, ho, hcl⟩⟩
  cases h with
  | @arrive j n x hx =>
    obtain ⟨p', hp', ho⟩ := hset (x.arrive n) hx rfl
    exact ⟨p', c, hp', hc, .inl ⟨rfl, ho, fun _ => rfl⟩⟩
  | @hold j _ x held rest _ hx _ _ =>
    obtain ⟨p', hp', ho⟩ := hset { x with held := held, input := rest } hx rfl
    exact ⟨p', c, hp', hc, .inl ⟨rfl, ho, fun _ => rfl⟩⟩
  | accept bytes hd =>
    exact hquiet ⟨p, by rw [List.getElem?_append_left hlt, hp], rfl⟩ hd (by simp)
  | poll _ hx _ _ hd =>
    refine hquiet (hset _ hx rfl) hd fun ok => ?_
    cases commands.decode _ <;> simp [heard]
  | update hx hd => exact hquiet (hset _ hx rfl) hd (by simp)
  | hangup _ _ _ hd => exact hquiet ⟨p, hp, rfl⟩ hd (by simp)
  | fail hd => exact hquiet ⟨p, hp, rfl⟩ hd (by simp)
  | other hl hd =>
    refine hquiet ⟨p, hp, rfl⟩ hd ?_
    rintro ok rfl
    exact absurd hl (by simp [inner])
  | @write j cj x event d ok n hcj hx hphase hd =>
    by_cases hij : j = i
    · subst hij
      obtain rfl := Option.some.inj (hp.symm.trans hx)
      obtain rfl := Option.some.inj (hc.symm.trans hcj)
      obtain ⟨hmoves, _⟩ := Daemon.step_moves hd
      cases hmoves with
      | @write _ y event' _ hy hp' =>
        obtain rfl := Option.some.inj (hc.symm.trans hy)
        obtain rfl := Phase.writing.inj (hphase.symm.trans hp')
        refine ⟨_, _, List.getElem?_set_self hlt,
          List.getElem?_set_self (List.getElem?_eq_some_iff.mp hc).1, .inr ⟨event, hphase, ?_⟩⟩
        cases ok with
        | true => exact .inl ⟨rfl, rfl⟩
        | false => exact .inr ⟨n, rfl, rfl⟩
    · refine hquiet ⟨p, by rw [List.getElem?_set_ne hij, hp], rfl⟩ hd fun ok' he => hij ?_
      exact (Daemon.Label.write.inj he).1

/-- What has been written to a client: the frames of what its handler has written, as long
as it is open; replies only, unless it has subscribed; and if it has done no more than
that, the status it found and those its receiver was sent. -/
structure Wrote (events : Ipc.Codec Event) (turns : List Daemon.Turn) (sent : List Status) (i : Nat)
    (p : Pipe) (c : Conn) : Prop where
  whole : c.phase ≠ .closed → p.output = c.written.flatMap events.wire
  replies : c.subscription = none → p.output <+: (answers (turnsOf i turns)).flatMap events.wire
  statuses : c.handled = [.subscribe] → ∃ rx got, c.subscription = some rx ∧ Delivered sent rx got ∧
    p.output <+: ((latest (sent.take rx.start) :: got).map Event.status).flatMap events.wire

namespace Wrote

variable {turns later : List Daemon.Turn} {sent : List Status} {i : Nat} {p p' : Pipe} {c c' : Conn}

/-- A list of statuses, as events. -/
theorem map_statuses : ∀ {es : List Event}, (∀ e ∈ es, ∃ s, e = .status s) →
    es = (es.filterMap Daemon.statusOf).map Event.status := by
  intro es
  induction es with
  | nil => intro _; rfl
  | cons e es ih =>
    intro h
    obtain ⟨⟨s, rfl⟩, hes⟩ := List.forall_mem_cons.mp h
    exact congrArg (Event.status s :: ·) (ih hes)

/-- What is said, written out to the end. -/
theorem of_events (hr : Recounts (turnsOf i turns) c) (hf : Follows sent c) (hi : Informs c)
    (hsub : c'.subscription = c.subscription) (hh : c'.handled = c.handled)
    (ho : p.output <+: (Daemon.events c).flatMap events.wire)
    (hw : c'.phase ≠ .closed → p.output = c'.written.flatMap events.wire) :
    Wrote events turns sent i p c' where
  whole := hw
  replies hn := ho.trans ((hr.only (hsub ▸ hn)).flatMap _)
  statuses honly := by
    rw [hh] at honly
    obtain ⟨rx, got, hrx, hgot, hpre, _⟩ := hf.only honly
    refine ⟨rx, got, hsub.trans hrx, hgot, ho.trans (List.IsPrefix.flatMap ?_ _)⟩
    have hstatuses := hi (by rw [honly]; simp)
    have hsaid : Daemon.said c = (Daemon.events c).filterMap Daemon.statusOf := by
      unfold Daemon.said Daemon.events
      rw [List.filterMap_append]
      cases c.phase with
      | writing event => cases hs : Daemon.statusOf event <;> simp [Daemon.statuses, hs]
      | select | dispatching | closed => simp [Daemon.statuses]
    rw [map_statuses hstatuses, ← hsaid]
    exact hpre.map _

/-- All that is written is there. -/
theorem of_written (hr : Recounts (turnsOf i turns) c) (hf : Follows sent c) (hi : Informs c)
    (ho : p.output = c.written.flatMap events.wire) : Wrote events turns sent i p c :=
  of_events hr hf hi rfl rfl
    (by rw [ho]; exact List.IsPrefix.flatMap (List.prefix_append _ _) _) fun _ => ho

/-- What goes on elsewhere does not matter to one that is over. -/
theorem grow (h : Wrote events turns sent i p c) (hclosed : c.phase = .closed) {sent' : List Status}
    (hsent : sent' = sent ∨ ∃ status, sent' = sent ++ [status]) :
    Wrote events (turns ++ later) sent' i p c where
  whole hn := absurd hclosed hn
  replies hn := by
    rw [Daemon.turnsOf_append, Daemon.answers_append, List.flatMap_append]
    exact (h.replies hn).trans (List.prefix_append _ _)
  statuses honly := by
    obtain ⟨rx, got, hrx, hgot, hpre⟩ := h.statuses honly
    rcases hsent with rfl | ⟨status, rfl⟩
    · exact ⟨rx, got, hrx, hgot, hpre⟩
    · refine ⟨rx, got, hrx, hgot.send status, ?_⟩
      rw [List.take_append_of_le_length (hgot.start_le.trans hgot.next_le)]
      exact hpre

end Wrote

/-- **Over whole runs** there is a history, and each client has been written what it says. -/
theorem reach_wrote [Inhabited ω] {port : UInt16} {redirector : ρ}
    (h : Reach (step commands events R) (fun _ _ => True) (new port redirector) w) :
    ∃ turns, History R (.new port redirector) turns w.daemon ∧
      ∀ i p c, w.pipes[i]? = some p → w.daemon.conns[i]? = some c →
        Wrote events turns w.daemon.controller.sent i p c := by
  induction h with
  | init => exact ⟨[], Daemon.new_history port redirector, fun i p c hp => absurd hp (by simp [new])⟩
  | @next w v s hr _ hs ih =>
    obtain ⟨turns, hturns, hwrote⟩ := ih
    have hmoves := step_moves hs
    have hlen := (reach_apart hr).1
    obtain ⟨hq, _⟩ := Daemon.reach_any (reach_daemon hr)
    have htold := Daemon.reach_told (reach_daemon hr)
    have hinformed := Daemon.reach_informed (reach_daemon hr)
    have hr' := reach_daemon (hr.next s trivial hs)
    have htold' := Daemon.reach_told hr'
    have hinformed' := Daemon.reach_informed hr'
    obtain ⟨later, hlater⟩ : ∃ later, History R (.new port redirector) (turns ++ later) v.daemon := by
      rcases hmoves.daemon with hd | ⟨l, hl⟩
      · exact ⟨[], by rw [hd, List.append_nil]; exact hturns⟩
      · exact hturns.step hq hl
    have hsent : v.daemon.controller.sent = w.daemon.controller.sent ∨
        ∃ status, v.daemon.controller.sent = w.daemon.controller.sent ++ [status] := by
      rcases hmoves.daemon with hd | ⟨l, hl⟩
      · exact .inl (by rw [hd])
      · rcases Daemon.step_sent hl with ⟨_, hsame⟩ | ⟨status, _, hset⟩
        · exact .inl hsame
        · exact .inr ⟨status, hset⟩
    refine ⟨turns ++ later, hlater, fun i p' c' hp' hc' => ?_⟩
    have hmem := List.mem_of_getElem? hc'
    have hwritten : p'.output = c'.written.flatMap events.wire →
        Wrote events (turns ++ later) v.daemon.controller.sent i p' c' :=
      .of_written (hlater.conns i c' hc') (htold'.follows c' hmem) (hinformed'.conns c' hmem)
    rcases Nat.lt_or_ge i w.pipes.length with hi | hi
    · have hp := List.getElem?_eq_getElem hi
      have hc := List.getElem?_eq_getElem (hlen ▸ hi)
      have hold := hwrote i _ _ hp hc
      have hmemc := List.mem_of_getElem? hc
      obtain ⟨p'', c'', hp'', hc'', hwrites⟩ := hmoves.writes hq hp hc
      obtain rfl := Option.some.inj (hp''.symm.trans hp')
      obtain rfl := Option.some.inj (hc''.symm.trans hc')
      rcases hwrites with ⟨hw, ho, hcl⟩ | ⟨event, hphase, ⟨rfl, ho⟩ | ⟨n, rfl, ho⟩⟩
      · by_cases hclosed : w.daemon.conns[i].phase = .closed
        · have hgrown : Wrote events (turns ++ later) v.daemon.controller.sent i _ _ :=
            hold.grow hclosed hsent
          rw [hcl hclosed]
          exact ⟨fun hn => absurd hclosed hn, ho ▸ hgrown.replies, ho ▸ hgrown.statuses⟩
        · exact hwritten (by rw [ho, hw, hold.whole hclosed])
      · refine hwritten ?_
        rw [ho, hold.whole (by rw [hphase]; simp)]
        simp [Conn.wrote]
      · -- the stream may have taken all of the frame, but not more
        refine Wrote.grow ?_ rfl hsent
        refine .of_events (hturns.conns i _ hc) (htold.follows _ hmemc) (hinformed.conns _ hmemc) rfl
          rfl ?_ fun hn => absurd rfl hn
        rw [ho, hold.whole (by rw [hphase]; simp), Daemon.events_writing hphase,
          List.flatMap_append, List.flatMap_singleton]
        exact (List.prefix_append_right_inj _).mpr (List.take_prefix _ _)
    · obtain ⟨hnew, rfl⟩ := hmoves.fresh hlen hi hp' hc'
      exact hwritten (by rw [hnew]; rfl)

/-! ### From one end to the other -/

/-- What a handler has handled it has read, and it dispatches at most one command more. -/
theorem Seen.handled_prefix {d : Daemon ρ} {i : Nat} {p : Pipe} {c : Conn} {k : Ipc.Conn}
    (h : Seen d i p c k) (hq : Queued d) (hc : d.conns[i]? = some c) :
    c.handled <+: k.dispatched := by
  by_cases hp : c.phase = .dispatching
  · obtain ⟨cmd, hcmd⟩ : ∃ cmd, d.Runs i cmd := by
      have hin := (hq.conn i).mpr (by rw [Daemon.dispatching, hc, Option.map_some, hp])
      rcases List.mem_append.mp hin with hin | hin
      · obtain ⟨x, hx, ht⟩ : ∃ x, d.holder = some x ∧ x.task = .conn i := by simpa using hin
        exact ⟨x.cmd, .inl ⟨x, hx, ht, rfl⟩⟩
      · obtain ⟨⟨task, cmd⟩, hx, ht⟩ := List.mem_map.mp hin
        obtain rfl : task = .conn i := ht
        exact ⟨cmd, .inr hx⟩
    rw [(h.dispatching hp cmd hcmd).2.1]
    exact List.prefix_append _ _
  · rw [h.handled hp]

/-- A client that sends one command, or the beginning of one: it is handled once or not at
all, and there is a subscription only if it is a `Subscribe`. -/
theorem reach_single {port : UInt16} {redirector : ρ}
    (h : Reach (step commands events R) (fun _ _ => True) (new port redirector) w) {cmd : Command}
    (hc : Ipc.Lawful commands [cmd]) {i : Nat} {p : Pipe} {c : Conn} (hp : w.pipes[i]? = some p)
    (hci : w.daemon.conns[i]? = some c) (hsent : p.sent <+: commands.wire cmd) :
    (c.handled = [] ∨ c.handled = [cmd]) ∧ (cmd ≠ .subscribe → c.subscription = none) := by
  obtain ⟨k, hk, hseen⟩ := (reach_apart h).2 i p c hp hci
  obtain ⟨left, hfed⟩ := Ipc.reach_fed hc (Ipc.subscribesLast_single cmd)
    (by rw [List.flatMap_singleton]; exact hsent) hk
  have hpre : k.dispatched <+: [cmd] := hfed.cmds ▸ List.prefix_append _ _
  have hhandled := (hseen.handled_prefix (Daemon.reach_any (reach_daemon h)).1 hci).trans hpre
  refine ⟨?_, fun hcmd => ?_⟩
  · rcases List.prefix_cons_iff.mp hhandled with hnil | ⟨rest, hrest, hnil⟩
    · exact .inl hnil
    · rw [hrest, List.prefix_nil.mp hnil]
      exact .inr rfl
  · by_contra hn
    have hmem := hpre.subset (hfed.subscribed (hseen.subscribed hn)).1
    exact hcmd (List.mem_singleton.mp hmem).symm

section

variable {serde : Ipc.SerdeJson} {port : UInt16} {redirector : ρ}

/-- What a client of `one_shot` is told by connection `i`. -/
theorem oneShot_answered [Inhabited ω] (hserde : serde.Inverts) (hcut : serde.RejectsCut)
    (h : Reach (step serde.command serde.event R) (fun _ _ => True) (new port redirector) w)
    {turns : List Daemon.Turn} (hturns : History R (.new port redirector) turns w.daemon) {i : Nat}
    {p : Pipe} {c : Conn} (hp : w.pipes[i]? = some p) (hc : w.daemon.conns[i]? = some c)
    (hwrote : Wrote serde.event turns w.daemon.controller.sent i p c) (peer : Ipc.Peer)
    {cmd : Command} {line : Ipc.Line} (hcmd : cmd ≠ .subscribe)
    (hlen : (serde.command.encode cmd).length < 2 ^ 32)
    (hsent : p.sent = (peer.oneShot serde.command serde.event cmd line).1)
    (hin : line.incoming.flatten <+: p.output) :
    (turnsOf i turns = [] ∨ ∃ reply, turnsOf i turns = [⟨.conn i, cmd, reply⟩]) ∧
      ∀ e, (peer.oneShot serde.command serde.event cmd line).2 = .ok e ↔
        line.name = .ok ∧ line.connect = .ok ∧ line.write = .ok ∧
          ∃ reply, turnsOf i turns = [⟨.conn i, cmd, reply⟩] ∧ e = reply.2 ∧
            line.incoming.flatten = serde.event.wire e ∧ Ipc.fits serde.event e := by
  have hexact := Ipc.SerdeJson.event_exact hserde hcut
  obtain ⟨hhandled, hsub⟩ := reach_single h (hserde.lawful (by simpa using hlen)) hp hc
    (hsent ▸ Ipc.Peer.oneShot_writes)
  have hreplies := hin.trans (hwrote.replies (hsub hcmd))
  have hcmds := (hturns.conns i c hc).handled
  rcases hhandled with hnone | hone
  · -- its command has not been run
    have hnil : turnsOf i turns = [] := List.map_eq_nil_iff.mp (hcmds ▸ hnone)
    refine ⟨.inl hnil, fun e => ?_⟩
    rw [hnil] at hreplies ⊢
    have hempty : line.incoming.flatten = [] := List.prefix_nil.mp hreplies
    rw [Ipc.Peer.oneShot_iff hexact e (by rw [hempty]; exact List.nil_prefix)]
    refine and_congr_right fun _ => and_congr_right fun _ => and_congr_right fun _ => ?_
    constructor
    · rintro ⟨hwire, _⟩
      have hlen := congrArg List.length (hempty.symm.trans hwire)
      rw [Ipc.Codec.wire, frame_length, List.length_nil] at hlen
      omega
    · rintro ⟨reply, hturn, _⟩
      exact absurd hturn (by simp)
  · obtain ⟨⟨task, cmd', reply⟩, hturn, hcmd'⟩ := List.map_eq_singleton_iff.mp (hcmds ▸ hone)
    obtain rfl : cmd' = cmd := hcmd'
    obtain rfl : task = .conn i := by
      have hmem : (⟨task, cmd', reply⟩ : Daemon.Turn) ∈ turnsOf i turns := by rw [hturn]; simp
      exact of_decide_eq_true (List.mem_filter.mp hmem).2
    refine ⟨.inr ⟨reply, hturn⟩, fun e => ?_⟩
    rw [hturn] at hreplies ⊢
    rw [Ipc.Peer.oneShot_iff hexact reply.2 (by simpa [answers] using hreplies)]
    refine and_congr_right fun _ => and_congr_right fun _ => and_congr_right fun _ => ?_
    constructor
    · rintro ⟨hwire, hfits, rfl⟩
      exact ⟨reply, rfl, rfl, hwire, hfits⟩
    · rintro ⟨reply', hturn', rfl, hwire, hfits⟩
      obtain rfl : reply' = reply := by simpa using hturn'.symm
      exact ⟨hwire, hfits, rfl⟩

/-- There is a connection for each stream. -/
theorem reach_conn
    (h : Reach (step commands events R) (fun _ _ => True) (new port redirector) w) {i : Nat}
    {p : Pipe} (hp : w.pipes[i]? = some p) : ∃ c, w.daemon.conns[i]? = some c := by
  have hi := (List.getElem?_eq_some_iff.mp hp).1
  rw [(reach_apart h).1] at hi
  exact ⟨_, List.getElem?_eq_getElem hi⟩

/-- **A command is run once**, and its client is told the reply or an error.  Whatever the
clients do and wherever the streams break off, the commands that have been run, one after
another, make up what the daemon is; a client of `one_shot` has at most one turn among
them, of its own command; and it returns an event exactly when it has that turn and the
whole frame of the reply, and the event is that reply. -/
theorem one_shot_exact [Inhabited ω] (hserde : serde.Inverts) (hcut : serde.RejectsCut)
    (h : Reach (step serde.command serde.event R) (fun _ _ => True) (new port redirector) w) :
    ∃ turns, History R (.new port redirector) turns w.daemon ∧
      ∀ i p, w.pipes[i]? = some p → ∀ (peer : Ipc.Peer) (cmd : Command) (line : Ipc.Line),
        cmd ≠ .subscribe → (serde.command.encode cmd).length < 2 ^ 32 →
        p.sent = (peer.oneShot serde.command serde.event cmd line).1 →
        line.incoming.flatten <+: p.output →
        (turnsOf i turns = [] ∨ ∃ reply, turnsOf i turns = [⟨.conn i, cmd, reply⟩]) ∧
        ∀ e, (peer.oneShot serde.command serde.event cmd line).2 = .ok e ↔
          line.name = .ok ∧ line.connect = .ok ∧ line.write = .ok ∧
            ∃ reply, turnsOf i turns = [⟨.conn i, cmd, reply⟩] ∧ e = reply.2 ∧
              line.incoming.flatten = serde.event.wire e ∧ Ipc.fits serde.event e := by
  obtain ⟨turns, hturns, hwrote⟩ := reach_wrote h
  refine ⟨turns, hturns, fun i p hp peer cmd line hcmd hlen hsent hin => ?_⟩
  obtain ⟨c, hc⟩ := reach_conn h hp
  exact oneShot_answered hserde hcut h hturns hp hc (hwrote i p c hp hc) peer hcmd hlen hsent hin

/-- The reply to the client of `asked` comes in two pieces. -/
def askedLine : Ipc.Line where
  name := .ok
  connect := .ok
  write := .ok
  taken := 0
  incoming := [(Ipc.jsonText.event.wire (.status .disconnected)).take 7,
    (Ipc.jsonText.event.wire (.status .disconnected)).drop 7]
  broken := none
  eof := "early eof"
  json := "expected value"

theorem one_shot_exact_asked :
    ∃ turns, History plainRedirector (.new 53 ("9.9.9.9", none)) turns asked.daemon ∧
      ∃ reply, turnsOf 0 turns = [⟨.conn 0, .getStatus, reply⟩] ∧
        reply.2 = .status .disconnected := by
  obtain ⟨turns, hturns, hclients⟩ := one_shot_exact (w := asked) Ipc.jsonText_inverts
    Ipc.jsonText_rejectsCut (.of_run (fun _ _ => trivial) _ run_asked)
  obtain ⟨_, hiff⟩ := hclients 0 _ rfl .cli .getStatus askedLine (by simp) (by decide +kernel) rfl
    (List.prefix_refl _)
  obtain ⟨_, _, _, reply, hturn, hreply, _⟩ := (hiff (.status .disconnected)).mp rfl
  exact ⟨turns, hturns, reply, hturn, hreply.symm⟩

/-- **A subscription hears the truth.**  What `subscribe_once` emits is the status the
handler found and then statuses that were set later, in order and each at most once,
however the stream is cut.  And when all that was written has come, and all that was set
has been written, the last of it is the controller's status. -/
theorem subscription_exact [Inhabited ω] (hserde : serde.Inverts) (hcut : serde.RejectsCut)
    (hlen : (serde.command.encode .subscribe).length < 2 ^ 32)
    (h : Reach (step serde.command serde.event R) (fun _ _ => True) (new port redirector) w)
    {i : Nat} {p : Pipe} {c : Conn} (hp : w.pipes[i]? = some p) (hc : w.daemon.conns[i]? = some c)
    (line : Ipc.Line) (hsent : p.sent = (Ipc.Gui.subscribeOnce serde.command serde.event line).1)
    (hin : line.incoming.flatten <+: p.output) :
    ((Ipc.Gui.subscribeOnce serde.command serde.event line).2.1 = [] ∨
      ∃ start later, start ≤ w.daemon.controller.sent.length ∧
        later.Sublist (w.daemon.controller.sent.drop start) ∧
        (Ipc.Gui.subscribeOnce serde.command serde.event line).2.1 =
          latest (w.daemon.controller.sent.take start) :: later) ∧
    (line.name = .ok → line.connect = .ok → line.write = .ok → line.incoming.flatten = p.output →
      (∀ e ∈ c.written, Ipc.fits serde.event e) → c.phase = .select →
      (∃ rx, c.subscription = some rx ∧ rx.next = w.daemon.controller.sent.length) →
      (Ipc.Gui.subscribeOnce serde.command serde.event line).2.1.getLast? =
        some w.daemon.controller.status) := by
  obtain ⟨turns, hturns, hwrote⟩ := reach_wrote h
  have hwrote := hwrote i p c hp hc
  have hexact := Ipc.SerdeJson.event_exact hserde hcut
  have htold := Daemon.reach_told (reach_daemon h)
  have hfollows := htold.follows c (List.mem_of_getElem? hc)
  obtain ⟨hhandled, _⟩ := reach_single h (hserde.lawful (by simpa using hlen)) hp hc
    (hsent ▸ Ipc.Gui.subscribeOnce_writes)
  constructor
  · rcases Ipc.Gui.subscribeOnce_emits serde.command serde.event line with hnone | hemits
    · exact .inl hnone
    · rw [hemits]
      rcases hhandled with hnone | hone
      · -- it has not been read, so nothing has been written
        have hempty := hwrote.replies (hfollows.fresh hnone).1
        have hnil : turnsOf i turns = [] :=
          List.map_eq_nil_iff.mp ((hturns.conns i c hc).handled ▸ hnone)
        rw [hnil] at hempty
        exact .inl (Ipc.emitted_arrived hexact [] (hin.trans hempty))
      · obtain ⟨rx, got, hrx, hgot, hpre⟩ := hwrote.statuses hone
        rw [Ipc.emitted_arrived hexact _ (hin.trans hpre)]
        have harrived := (Ipc.arrived_prefix serde.event
          ((latest (w.daemon.controller.sent.take rx.start) :: got).map Event.status)
          line.incoming.flatten.length).filterMap Daemon.statusOf
        have hstatuses : ∀ ss : List Status, (ss.map Event.status).filterMap Daemon.statusOf = ss := by
          intro ss
          induction ss with
          | nil => rfl
          | cons s ss ih => exact congrArg (s :: ·) ih
        rw [hstatuses] at harrived
        rcases List.prefix_cons_iff.mp harrived with hnil | ⟨later, hlater, hsub⟩
        · exact .inl hnil
        · refine .inr ⟨rx.start, later, hgot.start_le.trans hgot.next_le, ?_, hlater⟩
          exact (hsub.sublist.trans hgot.sublist).trans ((List.take_sublist _ _).drop _)
  · rintro hname hconnect hwrite hall hfits hsel ⟨rx, hrx, hnext⟩
    have hopen : c.phase ≠ .closed := by rw [hsel]; simp
    have hwhole := hwrote.whole hopen
    rw [Ipc.Gui.subscribeOnce_ok hname hconnect hwrite,
      Ipc.emitted_arrived hexact c.written (by rw [hall, hwhole]),
      Ipc.arrived_all hfits (by rw [hall, hwhole]), htold.status]
    have hcurrent := hfollows.current hopen rx hrx hnext
    rw [Daemon.said_eq (by simp [hsel])] at hcurrent
    exact hcurrent

end

/-- A client has subscribed. -/
def subscribed : Wired (String × Option String) where
  daemon := { Daemon.new 53 ("9.9.9.9", none) with
    main := .serving
    conns := [⟨.select, some ⟨0, 0, 0⟩, [.subscribe], [.status .disconnected]⟩] }
  pipes := [⟨Ipc.jsonText.command.wire .subscribe, [], [], [],
    Ipc.jsonText.event.wire (.status .disconnected)⟩]

theorem subscription_exact_subscribed :
    (Ipc.Gui.subscribeOnce Ipc.jsonText.command Ipc.jsonText.event askedLine).2.1.getLast? =
      some .disconnected := by
  have hrun : run (step Ipc.jsonText.command Ipc.jsonText.event plainRedirector)
      [.other .listen, .accept (Ipc.jsonText.command.wire .subscribe), .arrive 0 99, .poll 0,
        .other .grant, .other (.call default), .other (.call default), .other .release,
        .write 0 true 0] (new 53 ("9.9.9.9", none)) = some subscribed := rfl
  refine (subscription_exact (i := 0) Ipc.jsonText_inverts Ipc.jsonText_rejectsCut
    (by decide +kernel) (.of_run (fun _ _ => trivial) _ hrun) rfl rfl askedLine rfl
    (List.prefix_refl _)).2 rfl rfl rfl rfl (fun e he => ?_) rfl ⟨_, rfl, rfl⟩
  rw [List.mem_singleton.mp he]
  decide +kernel

end Wired

end Voidns
