import Voidns.Lib.Framing
import Voidns.Lib.Steps
import Voidns.Proto

/-!
# One connection, byte by byte

`ipc.rs`: `read_msg` and the loop of `handle_conn`.  The loop selects between
reading a command and a status to forward, and `select!` drops the future that
loses.  A `read_msg` under way has already taken bytes off the stream; dropped,
it takes them along (`held`).  The JSON text of a command is left to a `Codec`,
as `serde_json` is a library.

As long as no status is forwarded while bytes are held, nothing is lost: the
frames of the commands dispatched, the bytes held, those in the socket and those
still to arrive make up what the client has written (`Conserved`).
-/

namespace Voidns.Ipc

open Framing Steps

/-- `serde_json::to_vec` and `serde_json::from_slice`. -/
structure Codec (α : Type) where
  encode : α → List UInt8
  decode : List UInt8 → Option α

/-- The bytes `write_msg` writes. -/
def Codec.wire {α : Type} (codec : Codec α) (msg : α) : List UInt8 := frame (codec.encode msg)

/-- What `handle_conn` writes: the reply to a command, or a forwarded status. -/
inductive Written where
  | reply (cmd : Command)
  | update
  deriving DecidableEq

/-- Where `handle_conn` is. -/
inductive Phase where
  | select
  | replying (cmd : Command)
  | closed
  deriving DecidableEq

/-- One connection: the bytes the client has written that have not arrived, those
in the socket, those the `read_msg` under way has taken, and what has come of
them. -/
structure Conn where
  coming : List UInt8
  input : List UInt8
  held : List UInt8
  phase : Phase
  subscribed : Bool
  dispatched : List Command
  written : List Written
  deriving DecidableEq

/-- A connection on which the client writes `cmds`. -/
def Conn.new (codec : Codec Command) (cmds : List Command) : Conn where
  coming := cmds.flatMap codec.wire
  input := []
  held := []
  phase := .select
  subscribed := false
  dispatched := []
  written := []

/-- A connection on which the client writes any bytes. -/
def Conn.reading (bytes : List UInt8) : Conn := ⟨bytes, [], [], .select, false, [], []⟩

/-- The commands replied to. -/
def Conn.replies (c : Conn) : List Command :=
  c.written.filterMap fun
    | .reply cmd => some cmd
    | .update => none

inductive Label where
  /-- The next `n` bytes arrive. -/
  | arrive (n : Nat)
  /-- The branch that reads is polled. -/
  | poll
  /-- `dispatch` is done and its reply is written. -/
  | reply
  /-- The branch that forwards completes, with a status or with a lag error. -/
  | update (status : Bool)
  /-- The client has closed its end, and `read_u32` finds the end of the stream. -/
  | hangup
  /-- A read or a write returns an error. -/
  | fail
  deriving DecidableEq

/-- `read_msg` has returned: dispatch the command, or close on what is none. -/
def Conn.receive (c : Conn) (rest : List UInt8) : Option Command → Conn
  | some cmd =>
    { c with
      input := rest, held := [], phase := .replying cmd
      subscribed := c.subscribed || decide (cmd = .subscribe)
      dispatched := c.dispatched ++ [cmd] }
  | none => { c with input := rest, held := [], phase := .closed }

def step (codec : Codec Command) : Label → Conn → Option Conn
  | .arrive n, c => some { c with coming := c.coming.drop n, input := c.input ++ c.coming.take n }
  | .poll, c =>
    match c.phase with
    | .select =>
      match readFrom c.held c.input with
      | (none, held, rest) => some { c with held := held, input := rest }
      | (some payload, _, rest) => some (c.receive rest (codec.decode payload))
    | _ => none
  | .reply, c =>
    match c.phase with
    | .replying cmd => some { c with phase := .select, written := c.written ++ [.reply cmd] }
    | _ => none
  | .update status, c =>
    match c.phase with
    | .select =>
      if c.subscribed then
        -- the future of `read_msg` is dropped with what it holds
        some { c with held := [], written := c.written ++ if status then [.update] else [] }
      else none
    | _ => none
  | .hangup, c =>
    if c.phase = .select ∧ c.coming = [] ∧ c.input = [] then some { c with phase := .closed }
    else none
  | .fail, c => if c.phase = .closed then none else some { c with phase := .closed }

/-- No status is forwarded while bytes are held, and the stream does not break. -/
def Undisturbed : Label → Conn → Prop
  | .update _, c => c.held = []
  | .fail, _ => False
  | _, _ => True

/-! ### Nothing is lost -/

/-- The commands dispatched and those to come are the commands sent, and the
bytes of those to come are held, in the socket or on their way. -/
structure Conserved (codec : Codec Command) (cmds left : List Command) (c : Conn) : Prop where
  cmds : cmds = c.dispatched ++ left
  bytes : c.held ++ c.input ++ c.coming = left.flatMap codec.wire
  held : ∀ cmd rest, left = cmd :: rest → c.held.length < (codec.wire cmd).length
  replying : ∀ cmd, c.phase = .replying cmd → c.replies ++ [cmd] = c.dispatched
  idle : (∀ cmd, c.phase ≠ .replying cmd) → c.replies = c.dispatched
  closed : c.phase = .closed → left = []

variable {codec : Codec Command} {cmds left : List Command} {c d : Conn}

theorem Conserved.new : Conserved codec cmds cmds (Conn.new codec cmds) where
  cmds := rfl
  bytes := rfl
  held _ _ _ := by
    show 0 < (frame _).length
    rw [frame_length]
    omega
  replying _ h := absurd h (by simp [Conn.new])
  idle _ := rfl
  closed h := absurd h (by simp [Conn.new])

/-- When no byte is left anywhere, no command is. -/
theorem Conserved.done (h : Conserved codec cmds left c) (hc : c.coming = []) (hi : c.input = []) :
    left = [] := by
  cases hl : left with
  | nil => rfl
  | cons cmd rest =>
    have hb := congrArg List.length h.bytes
    have hh := h.held cmd rest hl
    rw [hc, hi, hl, List.append_nil, List.append_nil, List.flatMap_cons, List.length_append] at hb
    omega

/-- What is asked of the JSON library: it reads back the commands sent, and their
texts are not too long for a `u32`. -/
structure Lawful (codec : Codec Command) (cmds : List Command) : Prop where
  decode_encode : ∀ cmd ∈ cmds, codec.decode (codec.encode cmd) = some cmd
  length : ∀ cmd ∈ cmds, (codec.encode cmd).length < 2 ^ 32

/-- A poll dispatches the next command when its frame is there, and holds what
there is of it otherwise. -/
theorem Conserved.poll (hc : Lawful codec cmds) (h : Conserved codec cmds left c)
    (hp : c.phase = .select) : ∃ d left', step codec .poll c = some d ∧
      Conserved codec cmds left' d ∧ d.coming = c.coming ∧
      (c.coming = [] → ∀ cmd rest, left = cmd :: rest →
        left' = rest ∧ d.phase = .replying cmd) := by
  have hstep : step codec .poll c = match readFrom c.held c.input with
      | (none, held, rest) => some { c with held := held, input := rest }
      | (some payload, _, rest) => some (c.receive rest (codec.decode payload)) := by
    rw [step, hp]
  have hidle : c.replies = c.dispatched :=
    h.idle fun cmd hcmd => absurd (hp.symm.trans hcmd) (by simp)
  cases hl : left with
  | nil =>
    subst hl
    have hb := h.bytes
    rw [List.flatMap_nil, List.append_eq_nil_iff, List.append_eq_nil_iff] at hb
    refine ⟨c, [], ?_, h, rfl, fun _ _ _ hn => absurd hn (by simp)⟩
    rw [hstep, hb.1.1, hb.1.2, readFrom_nil]
    obtain ⟨_, _, _⟩ := c
    obtain ⟨⟨rfl, rfl⟩, _⟩ := hb
    rfl
  | cons cmd rest =>
    subst hl
    have hmem : cmd ∈ cmds := by rw [h.cmds]; simp
    have hlt := hc.length cmd hmem
    have hheld := h.held cmd rest rfl
    have hb : c.held ++ c.input ++ c.coming = frame (codec.encode cmd) ++ rest.flatMap codec.wire :=
      h.bytes
    by_cases hshort : (c.held ++ c.input).length < (frame (codec.encode cmd)).length
    · -- only the beginning of the frame is there
      have hpre : c.held ++ c.input <+: frame (codec.encode cmd) :=
        List.prefix_of_prefix_length_le (hb ▸ List.prefix_append _ _) (List.prefix_append _ _)
          (Nat.le_of_lt hshort)
      refine ⟨{ c with held := c.held ++ c.input, input := [] }, cmd :: rest, ?_, ?_, rfl, ?_⟩
      · rw [hstep, readFrom_short hlt c.input c.held hpre hshort]
      · refine ⟨h.cmds, ?_, fun cmd' rest' he => ?_, h.replying, h.idle, h.closed⟩
        · rw [← h.bytes, List.append_nil]
        · rw [← (List.cons.inj he).1]
          exact hshort
      · intro hcoming
        have hlen := congrArg List.length hb
        rw [hcoming, List.append_nil] at hlen
        rw [hlen, List.length_append] at hshort
        omega
    · -- the whole frame is there
      obtain ⟨tail, htail⟩ : frame (codec.encode cmd) <+: c.held ++ c.input :=
        List.prefix_of_prefix_length_le (List.prefix_append _ _) (hb ▸ List.prefix_append _ _)
          (Nat.le_of_not_lt hshort)
      have hrest : tail ++ c.coming = rest.flatMap codec.wire := by
        rw [← htail, List.append_assoc] at hb
        exact List.append_cancel_left hb
      refine ⟨c.receive tail (some cmd), rest, ?_, ?_, rfl, fun _ cmd' rest' he => ?_⟩
      · rw [hstep, readFrom_frame hlt c.input c.held (Nat.le_of_lt hheld) htail.symm]
        show some (c.receive tail (codec.decode (codec.encode cmd))) = _
        rw [hc.decode_encode cmd hmem]
      · refine ⟨?_, hrest, fun cmd' rest' _ => ?_, fun cmd' he => ?_, fun hn => ?_, fun he => ?_⟩
        · show cmds = c.dispatched ++ [cmd] ++ rest
          rw [h.cmds]
          simp
        · show 0 < (frame _).length
          rw [frame_length]
          omega
        · show c.replies ++ [cmd'] = c.dispatched ++ [cmd]
          rw [hidle, ← Phase.replying.inj he]
        · exact absurd rfl (hn cmd)
        · exact absurd he (by simp [Conn.receive])
      · rw [← (List.cons.inj he).1, ← (List.cons.inj he).2]
        exact ⟨rfl, rfl⟩

theorem Conserved.arrive (h : Conserved codec cmds left c) (n : Nat) :
    Conserved codec cmds left
      { c with coming := c.coming.drop n, input := c.input ++ c.coming.take n } := by
  refine ⟨h.cmds, ?_, h.held, h.replying, h.idle, h.closed⟩
  show c.held ++ (c.input ++ c.coming.take n) ++ c.coming.drop n = _
  rw [← h.bytes, List.append_assoc, List.append_assoc, List.take_append_drop, List.append_assoc]

theorem Conserved.reply (h : Conserved codec cmds left c) {cmd : Command}
    (hp : c.phase = .replying cmd) : ∃ d, step codec .reply c = some d ∧
      Conserved codec cmds left d ∧ d.coming = c.coming ∧ d.phase = .select := by
  refine ⟨{ c with phase := .select, written := c.written ++ [.reply cmd] }, ?_, ?_, rfl, rfl⟩
  · rw [step, hp]
  · refine ⟨h.cmds, h.bytes, h.held, fun _ he => absurd he (by simp), fun _ => ?_,
      fun he => absurd he (by simp)⟩
    rw [← h.replying cmd hp]
    simp [Conn.replies]

/-- **Nothing is lost** by any step that leaves held bytes alone. -/
theorem Conserved.step (hc : Lawful codec cmds) (h : Conserved codec cmds left c) {l : Label}
    (hA : Undisturbed l c) (hs : step codec l c = some d) :
    ∃ left', Conserved codec cmds left' d := by
  cases l with
  | arrive n =>
    rw [← Option.some.inj hs]
    exact ⟨left, h.arrive n⟩
  | poll =>
    by_cases hp : c.phase = .select
    · obtain ⟨d', left', hd, hd', _⟩ := h.poll hc hp
      rw [← Option.some.inj (hd.symm.trans hs)]
      exact ⟨left', hd'⟩
    · rw [Ipc.step] at hs
      split at hs
      · exact absurd ‹_› hp
      · exact absurd hs (by simp)
  | reply =>
    cases hp : c.phase with
    | replying cmd =>
      obtain ⟨d', hd, hd', _⟩ := h.reply hp
      rw [← Option.some.inj (hd.symm.trans hs)]
      exact ⟨left, hd'⟩
    | select => rw [Ipc.step, hp] at hs; exact absurd hs (by simp)
    | closed => rw [Ipc.step, hp] at hs; exact absurd hs (by simp)
  | update status =>
    have hheld : c.held = [] := hA
    rw [Ipc.step] at hs
    split at hs
    · rename_i hp
      split at hs
      · rw [← Option.some.inj hs]
        have hr : ({ c with held := [], written := c.written ++ if status then [.update] else [] } :
            Conn).replies = c.replies := by
          cases status <;> simp [Conn.replies]
        refine ⟨left, h.cmds, ?_, fun cmd rest he => ?_, fun cmd he => ?_, fun hn => ?_, h.closed⟩
        · rw [← h.bytes, hheld]
        · have := h.held cmd rest he
          rwa [hheld] at this
        · rw [hr]; exact h.replying cmd he
        · rw [hr]; exact h.idle hn
      · exact absurd hs (by simp)
    · exact absurd hs (by simp)
  | hangup =>
    rw [Ipc.step] at hs
    split at hs
    · rename_i hif
      obtain ⟨hp, hc, hi⟩ := hif
      rw [← Option.some.inj hs]
      have hl := h.done hc hi
      refine ⟨left, h.cmds, h.bytes, h.held, fun cmd he => absurd he (by simp), fun _ => ?_,
        fun _ => hl⟩
      exact h.idle fun cmd hcmd => absurd (hp.symm.trans hcmd) (by simp)
    · exact absurd hs (by simp)
  | fail => exact hA.elim

/-! ### Everything gets there -/

/-- From anywhere the loop gets back to its `select!`, or is over. -/
theorem Conserved.settle (h : Conserved codec cmds left c) :
    ∃ d, Reach (Ipc.step codec) Undisturbed c d ∧ Conserved codec cmds left d ∧
      (d.phase = .select ∨ d.phase = .closed) := by
  cases hp : c.phase with
  | select => exact ⟨c, .init, h, .inl hp⟩
  | closed => exact ⟨c, .init, h, .inr hp⟩
  | replying cmd =>
    obtain ⟨d, hd, hd', _, hsel⟩ := h.reply hp
    exact ⟨d, .next .reply .init trivial hd, hd', .inl hsel⟩

/-- Once all bytes have arrived, one poll and one reply take the next command. -/
theorem Conserved.finish (hc : Lawful codec cmds) : ∀ (left : List Command) {c : Conn},
    Conserved codec cmds left c → ∃ d, Reach (Ipc.step codec) Undisturbed c d ∧
      Conserved codec cmds [] d ∧ (d.phase = .select ∨ d.phase = .closed) := by
  intro left
  induction left with
  | nil => intro c h; exact h.settle
  | cons cmd rest ih =>
    intro c h
    obtain ⟨d, hreach, hd, hsel | hclosed⟩ := h.settle
    · have ha := hd.arrive d.coming.length
      obtain ⟨e, left', he, he', _, hnext⟩ := ha.poll hc hsel
      obtain ⟨rfl, _⟩ := hnext (List.drop_length) cmd rest rfl
      obtain ⟨f, hf, hfin⟩ := ih he'
      have harrive : Reach (Ipc.step codec) Undisturbed d _ :=
        .next (.arrive d.coming.length) .init trivial rfl
      have hpoll : Reach (Ipc.step codec) Undisturbed d e := .next Label.poll harrive trivial he
      exact ⟨f, hreach.trans (hpoll.trans hf), hfin⟩
    · exact absurd (hd.closed hclosed) (by simp)

/-- **Commands arrive exactly**, as long as no status is forwarded in the middle
of a frame: what has been dispatched is a prefix of what was sent, with one reply
for each command, it is all that was sent once the bytes are used up, and from
every state the rest can still get there. -/
theorem commands_exact (hc : Lawful codec cmds)
    (h : Reach (step codec) Undisturbed (Conn.new codec cmds) c) :
    c.dispatched <+: cmds ∧
      (c.replies = c.dispatched ∨
        ∃ cmd, c.phase = .replying cmd ∧ c.replies ++ [cmd] = c.dispatched) ∧
      (c.coming = [] → c.input = [] → c.dispatched = cmds) ∧
      ∃ d, Reach (step codec) Undisturbed c d ∧ d.dispatched = cmds ∧ d.replies = cmds := by
  obtain ⟨left, hleft⟩ : ∃ left, Conserved codec cmds left c :=
    h.invariant (I := fun c => ∃ left, Conserved codec cmds left c) ⟨cmds, .new⟩
      fun l s t hA hs ⟨_, hs'⟩ => hs'.step hc hA hs
  refine ⟨⟨left, hleft.cmds.symm⟩, ?_, fun hco hin => ?_, ?_⟩
  · cases hp : c.phase with
    | replying cmd => exact .inr ⟨cmd, rfl, hleft.replying cmd hp⟩
    | select => exact .inl (hleft.idle fun cmd hcmd => absurd (hp.symm.trans hcmd) (by simp))
    | closed => exact .inl (hleft.idle fun cmd hcmd => absurd (hp.symm.trans hcmd) (by simp))
  · have hall := hleft.cmds
    rw [hleft.done hco hin, List.append_nil] at hall
    exact hall.symm
  · obtain ⟨d, hreach, hd, hsel⟩ := Conserved.finish hc left hleft
    have hall : d.dispatched = cmds := by
      have hcmds := hd.cmds
      rw [List.append_nil] at hcmds
      exact hcmds.symm
    refine ⟨d, hreach, hall, ?_⟩
    rw [← hall]
    refine hd.idle fun cmd hcmd => ?_
    rcases hsel with hs | hs <;> exact absurd (hs.symm.trans hcmd) (by simp)

/-! ### A command lost -/

/-- The JSON of the commands that have no fields. -/
def bareCodec : Codec Command where
  encode := bareText
  decode bytes :=
    [.disconnect, .getStatus, .subscribe, .ping].find? fun cmd => bareText cmd == bytes
where
  bareText (cmd : Command) : List UInt8 :=
    ("\x7b\"type\":\"" ++ tag cmd ++ "\"\x7d").toList.map fun c => UInt8.ofNat c.toNat
  tag : Command → String
    | .connect _ => "connect"
    | .disconnect => "disconnect"
    | .getStatus => "get_status"
    | .subscribe => "subscribe"
    | .ping => "ping"

/-- Six bytes of the first frame are held. -/
theorem commands_exact_held :
    let c : Conn := { Conn.new bareCodec [.subscribe, .ping] with
      coming := ([.subscribe, .ping].flatMap bareCodec.wire).drop 6
      held := (bareCodec.wire .subscribe).take 6 }
    c.dispatched <+: [.subscribe, .ping] ∧
      (c.replies = c.dispatched ∨
        ∃ cmd, c.phase = .replying cmd ∧ c.replies ++ [cmd] = c.dispatched) ∧
      (c.coming = [] → c.input = [] → c.dispatched = [.subscribe, .ping]) ∧
      ∃ d, Reach (step bareCodec) Undisturbed c d ∧ d.dispatched = [.subscribe, .ping] ∧
        d.replies = [.subscribe, .ping] := by
  have hlawful : Lawful bareCodec [.subscribe, .ping] :=
    ⟨by decide +kernel, by decide +kernel⟩
  have harrive : Reach (step bareCodec) Undisturbed (Conn.new bareCodec [.subscribe, .ping]) _ :=
    .next (.arrive 6) .init trivial rfl
  exact commands_exact hlawful (.next .poll harrive trivial (by decide +kernel))

/-- **A status forwarded in the middle of a frame loses the command.**  Two bytes
of the second frame are held when a status is forwarded; what is left of the
frame is then taken for the beginning of one, and the command is never
dispatched. -/
theorem command_lost : Lawful bareCodec [.subscribe, .ping] ∧
    ¬ ∀ c, Reach (step bareCodec) (fun _ _ => True) (Conn.new bareCodec [.subscribe, .ping]) c →
      c.coming = [] → c.input = [] → c.dispatched = [.subscribe, .ping] := by
  refine ⟨⟨by decide +kernel, by decide +kernel⟩, fun hall => ?_⟩
  have hrun : run (step bareCodec)
      [.arrive 26, .poll, .reply, .poll, .update true, .arrive 17, .poll]
      (Conn.new bareCodec [.subscribe, .ping]) = some
        { coming := [], input := [], held := (bareCodec.wire .ping).drop 2, phase := .select
          subscribed := true, dispatched := [.subscribe]
          written := [.reply .subscribe, .update] } := by decide +kernel
  exact absurd (hall _ (.of_run (fun _ _ => trivial) _ hrun) rfl rfl) (by decide)

end Voidns.Ipc
