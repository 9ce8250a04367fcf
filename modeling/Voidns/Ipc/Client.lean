import Voidns.Daemon.Subscribers
import Voidns.Ipc.Truncation

/-!
# The clients

`one_shot` of the service, of the command line client and of the GUI, and the two
subscriptions, `Subscription` and `subscribe_once`.  A client opens a connection, writes
one frame and reads; what it meets is a `Line`.

What comes back is the beginning of the frames the handler has written, in pieces of any
size.  A client returns an event if and only if its whole frame has come (`oneShot_iff`),
and a subscription hands on the statuses of the whole frames, in order, and no other
(`emitted_arrived`).
-/

namespace Voidns.Ipc

open Framing

/-- What a client meets: whether there is an endpoint to connect to and it answers, how
much is written before `write_msg` fails, if it does, the bytes that come back, and the
error with which the stream breaks, if it does not end.  `eof` and `json` are the texts of
the errors of `read_exact` and of `serde_json`. -/
structure Line where
  name : Fate
  connect : Fate
  write : Fate
  taken : Nat
  incoming : List (List UInt8)
  broken : Option String
  eof : String
  json : String

/-- What a `read_msg` returns on the line, with the text of its error.  One that meets the
end of the stream meets the error instead, if the stream breaks. -/
def Line.told {ε : Type} (line : Line) (eof : ε → Bool) :
    Except ε (Option Event) → Except Error (Option Event)
  | .ok (some e) => .ok (some e)
  | .ok none => match line.broken with
    | some cause => .error (.msg cause)
    | none => .ok none
  | .error e => .error (.msg (if eof e then line.broken.getD line.eof else line.json))

/-- Whether `read_exact` has met the end of the stream. -/
def CoreError.isEof : CoreError → Bool
  | .io .unexpectedEof => true
  | _ => false

def IoError.isEof : IoError → Bool
  | .unexpectedEof => true
  | .other => false

section

variable (commands : Codec Command) (events : Codec Event)

/-- What the three `one_shot` share: the bytes written, and what is returned. -/
def oneShot (unreachable : Error → Error) (read : List (List UInt8) → Except Error (Option Event))
    (write : Command → List UInt8) (cmd : Command) (line : Line) : List UInt8 × Except Error Event :=
  match line.name, line.connect, line.write with
  | .fails cause, _, _ => ([], .error (.msg cause))
  | .ok, .fails cause, _ => ([], .error (unreachable (.msg cause)))
  | .ok, .ok, .fails cause => ((write cmd).take line.taken, .error (.msg cause))
  | .ok, .ok, .ok => (write cmd, match read line.incoming with
    | .error e => .error e
    | .ok none => .error (.msg "service closed connection without replying")
    | .ok (some e) => .ok e)

/-! ### The three peers -/

namespace Core

/-- `read_msg::<_, Event>`, as `?` passes on its error. -/
def receive (line : Line) (r : List (List UInt8)) : Except Error (Option Event) × List (List UInt8) :=
  (line.told CoreError.isEof (readMsg events r).1, (readMsg events r).2)

/-- `one_shot` of `voidns-core`. -/
def oneShot (cmd : Command) (line : Line) : List UInt8 × Except Error Event :=
  Ipc.oneShot id (fun r => (receive events line r).1) (writeMsg commands · []) cmd line

end Core

namespace Cli

/-- `read_msg::<_, Event>`, as `?` passes on its error. -/
def receive (line : Line) (r : List (List UInt8)) : Except Error (Option Event) × List (List UInt8) :=
  (line.told IoError.isEof (readMsg events r).1, (readMsg events r).2)

/-- `one_shot` of `voidns-cli`. -/
def oneShot (cmd : Command) (line : Line) : List UInt8 × Except Error Event :=
  Ipc.oneShot (·.context "voidns-service unreachable (is it installed and running?)")
    (fun r => (receive events line r).1) (writeMsg commands · []) cmd line

end Cli

namespace Gui

/-- `read_msg::<_, Event>`, as `?` passes on its error. -/
def receive (line : Line) (r : List (List UInt8)) : Except Error (Option Event) × List (List UInt8) :=
  (line.told IoError.isEof (readMsg events r).1, (readMsg events r).2)

/-- `one_shot` of the GUI. -/
def oneShot (cmd : Command) (line : Line) : List UInt8 × Except Error Event :=
  Ipc.oneShot id (fun r => (receive events line r).1) (writeMsg commands · []) cmd line

end Gui

namespace Peer

def receive (line : Line) (r : List (List UInt8)) :
    Peer → Except Error (Option Event) × List (List UInt8)
  | core => Core.receive events line r
  | cli => Cli.receive events line r
  | gui => Gui.receive events line r

def oneShot (cmd : Command) (line : Line) : Peer → List UInt8 × Except Error Event
  | core => Core.oneShot commands events cmd line
  | cli => Cli.oneShot commands events cmd line
  | gui => Gui.oneShot commands events cmd line

end Peer

/-! ### What a client reads -/

variable {commands events} {line : Line}

theorem told_ok {ε : Type} {eof : ε → Bool} {read : Except ε (Option Event)} {e : Event} :
    line.told eof read = .ok (some e) ↔ read.toOption = some (some e) := by
  cases read with
  | error err => simp [Line.told, Except.toOption]
  | ok found =>
    cases found with
    | some e' => simp [Line.told, Except.toOption]
    | none => cases hb : line.broken <;> simp [Line.told, Except.toOption, hb]

namespace Peer

variable {peer : Peer} {r left : List (List UInt8)} {e : Event}

/-- What a client reads is what `read_msg` has read, whatever the line adds. -/
theorem receive_ok : peer.receive events line r = (.ok (some e), left) ↔
    peer.readMsg events r = (some (some e), left) := by
  cases peer <;> simp only [receive, readMsg, Core.receive, Cli.receive, Gui.receive,
    Prod.mk.injEq, told_ok]

theorem receive_none (peer : Peer) (h : (peer.readMsg events r).1 ≠ some (some e)) :
    (peer.receive events line r).1 ≠ .ok (some e) := fun hr =>
  h (congrArg Prod.fst (receive_ok.mp (Prod.ext hr rfl)))

/-- A message that has been read is off the stream. -/
theorem readMsg_lt {α : Type} {codec : Codec α} {msg : α}
    (h : peer.readMsg codec r = (some (some msg), left)) : left.flatten.length < r.flatten.length := by
  rw [readMsg_eq, Ipc.readMsg] at h
  split at h
  · exact absurd (Prod.mk.inj h).1 (by simp [Except.toOption])
  · rename_i len after hlen
    split at h
    · exact absurd (Prod.mk.inj h).1 (by simp [Except.toOption])
    · rename_i buf after' hbuf
      obtain ⟨h4, hr⟩ := readExact_some _ hlen
      obtain ⟨_, hafter⟩ := readExact_some _ hbuf
      have hleft : left = after' := by
        split at h <;> exact (Prod.mk.inj h).2.symm
      rw [hr, hafter, hleft]
      simp only [List.length_append]
      omega

theorem receive_lt (peer : Peer) (h : peer.receive events line r = (.ok (some e), left)) :
    left.flatten.length < r.flatten.length := readMsg_lt (receive_ok.mp h)

end Peer

end

/-! ### The subscriptions -/

section

variable (commands : Codec Command) (events : Codec Event)

/-- `Subscription::next`. -/
def Core.next (line : Line) (r : List (List UInt8)) :
    Except Error (Option Status) × List (List UInt8) :=
  match _h : Core.receive events line r with
  | (.ok (some (.status s)), left) => (.ok (some s), left)
  | (.ok (some _), left) => next line left
  | (.ok none, left) => (.ok none, left)
  | (.error e, left) => (.error e, left)
termination_by r.flatten.length
decreasing_by exact Peer.receive_lt .core _h

/-- The loop of `subscribe_once`: the statuses emitted, and what is returned. -/
def Gui.emitted (line : Line) (r : List (List UInt8)) : List Status × Except Error Unit :=
  match _h : Gui.receive events line r with
  | (.ok (some (.status status)), left) =>
    let rest := emitted line left
    (status :: rest.1, rest.2)
  | (.ok (some _), left) => emitted line left
  | (.ok none, _) => ([], .ok ())
  | (.error e, _) => ([], .error e)
termination_by r.flatten.length
decreasing_by all_goals exact Peer.receive_lt .gui _h

/-- `subscribe_once`: the bytes written, the statuses emitted, and what is returned. -/
def Gui.subscribeOnce (line : Line) : List UInt8 × List Status × Except Error Unit :=
  match line.name, line.connect, line.write with
  | .fails cause, _, _ | .ok, .fails cause, _ => ([], [], .error (.msg cause))
  | .ok, .ok, .fails cause =>
    ((Gui.writeMsg commands .subscribe []).take line.taken, [], .error (.msg cause))
  | .ok, .ok, .ok => (Gui.writeMsg commands .subscribe [], Gui.emitted events line line.incoming)

/-! ### What comes of it -/

variable {commands events} {line : Line} {r : List (List UInt8)}

/-- The texts that have a length. -/
def fits (events : Codec Event) (e : Event) : Bool := decide ((events.encode e).length < 2 ^ 32)

/-- The next frame is there and has a length: it is read. -/
theorem readMsg_whole (hc : events.Exact) (peer : Peer) {e : Event} {rest : List UInt8}
    (hpre : r.flatten <+: events.wire e ++ rest) (hle : (events.wire e).length ≤ r.flatten.length)
    (hfits : fits events e) : ∃ left, peer.readMsg events r = (some (some e), left) ∧
      r.flatten = events.wire e ++ left.flatten ∧ left.flatten <+: rest := by
  obtain ⟨tail, htail⟩ := List.prefix_of_prefix_length_le (List.prefix_append _ _) hpre hle
  obtain ⟨left, hread, hleft⟩ :=
    peer.readMsg_frame (of_decide_eq_true hfits) (hc.decode_encode e) htail.symm
  refine ⟨left, hread, by rw [hleft, htail], ?_⟩
  rw [← htail] at hpre
  rw [hleft]
  exact (List.prefix_append_right_inj _).mp hpre

/-- The next frame is not there, or it has no length: nothing is read. -/
theorem readMsg_part (hc : events.Exact) (peer : Peer) {e : Event} {rest : List UInt8}
    (hpre : r.flatten <+: events.wire e ++ rest)
    (hn : ¬((events.wire e).length ≤ r.flatten.length ∧ fits events e)) (e' : Event) :
    (peer.readMsg events r).1 ≠ some (some e') := by
  by_cases hle : (events.wire e).length ≤ r.flatten.length
  · obtain ⟨tail, htail⟩ := List.prefix_of_prefix_length_le (List.prefix_append _ _) hpre hle
    have hlong : ¬(events.encode e).length < 2 ^ 32 := fun hlt => hn ⟨hle, decide_eq_true hlt⟩
    obtain ⟨left, hread⟩ := hc.readMsg_long peer hlong htail.symm
    rw [hread]
    simp
  · have hlt := Nat.lt_of_not_le hle
    have hframe : r.flatten <+: events.wire e :=
      List.prefix_of_prefix_length_le hpre (List.prefix_append _ _) (Nat.le_of_lt hlt)
    rcases Nat.lt_or_ge r.flatten.length 4 with h4 | h4
    · obtain ⟨left, hread, _⟩ := peer.readMsg_end events h4
      rw [hread]
      simp
    · obtain ⟨left, hread⟩ := hc.readMsg_cut peer hframe h4 hlt
      rw [hread]
      simp

namespace Peer

variable {peer : Peer} {cmd : Command} {e : Event}

/-- A client writes the beginning of its frame. -/
theorem oneShot_writes : (peer.oneShot commands events cmd line).1 <+: commands.wire cmd := by
  have hwrite : writeMsg peer commands cmd [] = commands.wire cmd := by cases peer <;> rfl
  have hshared : ∀ unreachable read write, write cmd = commands.wire cmd →
      (Ipc.oneShot unreachable read write cmd line).1 <+: commands.wire cmd := by
    intro unreachable read write hw
    unfold Ipc.oneShot
    split
    · exact List.nil_prefix
    · exact List.nil_prefix
    · rw [hw]
      exact List.take_prefix _ _
    · rw [hw]
  cases peer <;> exact hshared _ _ _ hwrite

/-- A client returns what it reads, once it has written. -/
theorem oneShot_ok : (peer.oneShot commands events cmd line).2 = .ok e ↔
    line.name = .ok ∧ line.connect = .ok ∧ line.write = .ok ∧
      (peer.receive events line line.incoming).1 = .ok (some e) := by
  have hshared : ∀ unreachable read write,
      (Ipc.oneShot unreachable read write cmd line).2 = .ok e ↔
        line.name = .ok ∧ line.connect = .ok ∧ line.write = .ok ∧
          read line.incoming = .ok (some e) := by
    intro unreachable read write
    unfold Ipc.oneShot
    cases line.name <;> cases line.connect <;> cases line.write <;> simp
    rcases read line.incoming with _ | _ | _ <;> simp
  cases peer <;> exact hshared _ _ _

/-- **A client returns an event when its frame has come**, all of it. -/
theorem oneShot_iff (hc : events.Exact) (e' : Event)
    (hpre : line.incoming.flatten <+: events.wire e') :
    (peer.oneShot commands events cmd line).2 = .ok e ↔
      line.name = .ok ∧ line.connect = .ok ∧ line.write = .ok ∧
        line.incoming.flatten = events.wire e' ∧ fits events e' ∧ e = e' := by
  have hpre' : line.incoming.flatten <+: events.wire e' ++ [] := by rw [List.append_nil]; exact hpre
  rw [oneShot_ok]
  refine and_congr_right fun _ => and_congr_right fun _ => and_congr_right fun _ => ?_
  by_cases hall : (events.wire e').length ≤ line.incoming.flatten.length ∧ fits events e'
  · obtain ⟨left, hread, hbytes, hrest⟩ := readMsg_whole hc peer hpre' hall.1 hall.2
    rw [receive_ok.mpr hread]
    rw [List.prefix_nil.mp hrest, List.append_nil] at hbytes
    simp only [Except.ok.injEq, Option.some.injEq]
    exact ⟨fun he => ⟨hbytes, hall.2, he.symm⟩, fun h => h.2.2.symm⟩
  · have hnone : (peer.receive events line line.incoming).1 ≠ .ok (some e) :=
      peer.receive_none (readMsg_part hc peer hpre' hall e)
    refine ⟨fun h => absurd h hnone, fun h => absurd ⟨?_, h.2.1⟩ hall⟩
    rw [h.1]

end Peer

/-! ### What a subscription hears -/

/-- The events whose frames are there, up to the first that is not or has no length. -/
def arrived (events : Codec Event) : List Event → Nat → List Event
  | [], _ => []
  | e :: es, n =>
    if (events.wire e).length ≤ n ∧ fits events e then
      e :: arrived events es (n - (events.wire e).length)
    else []

variable (events) in
theorem arrived_prefix : ∀ (es : List Event) (n : Nat), arrived events es n <+: es := by
  intro es
  induction es with
  | nil => intro n; exact List.prefix_refl _
  | cons e es ih =>
    intro n
    rw [arrived]
    split
    · exact (List.prefix_cons_inj e).mpr (ih _)
    · exact List.nil_prefix

theorem arrived_all : ∀ {es : List Event}, (∀ e ∈ es, fits events e) → ∀ {n : Nat},
    (es.flatMap events.wire).length ≤ n → arrived events es n = es := by
  intro es
  induction es with
  | nil => intro _ n _; rfl
  | cons e es ih =>
    intro hfits n hn
    rw [List.flatMap_cons, List.length_append] at hn
    obtain ⟨he, hes⟩ := List.forall_mem_cons.mp hfits
    rw [arrived, if_pos ⟨by omega, he⟩, ih hes (by omega)]

theorem emitted_event {left : List (List UInt8)} {e : Event}
    (h : Gui.receive events line r = (.ok (some e), left)) :
    (Gui.emitted events line r).1 =
      (Daemon.statusOf e).toList ++ (Gui.emitted events line left).1 := by
  rw [Gui.emitted]
  split
  · rename_i status left' hr
    obtain ⟨he, rfl⟩ := Prod.mk.inj (h.symm.trans hr)
    obtain rfl := Option.some.inj (Except.ok.inj he)
    rfl
  · rename_i e' left' hnot hr
    obtain ⟨he, rfl⟩ := Prod.mk.inj (h.symm.trans hr)
    obtain rfl := Option.some.inj (Except.ok.inj he)
    cases e with
    | status s => exact absurd rfl (hnot s)
    | pong | error => rfl
  · rename_i hr
    exact absurd (Prod.mk.inj (h.symm.trans hr)).1 (by simp)
  · rename_i hr
    exact absurd (Prod.mk.inj (h.symm.trans hr)).1 (by simp)

theorem emitted_none (h : ∀ e, (Gui.receive events line r).1 ≠ .ok (some e)) :
    (Gui.emitted events line r).1 = [] := by
  rw [Gui.emitted]
  split
  · rename_i hr
    exact absurd (congrArg Prod.fst hr) (h _)
  · rename_i hr
    exact absurd (congrArg Prod.fst hr) (h _)
  · rfl
  · rfl

/-- **A subscription hears the statuses whose frames have come**, in order.  The induction
is on the events; each step takes a whole frame or stops in the one that is not there. -/
theorem emitted_arrived (hc : events.Exact) : ∀ (es : List Event) {r : List (List UInt8)},
    r.flatten <+: es.flatMap events.wire →
      (Gui.emitted events line r).1 =
        (arrived events es r.flatten.length).filterMap Daemon.statusOf := by
  intro es
  induction es with
  | nil =>
    intro r hpre
    refine emitted_none fun e he => ?_
    obtain ⟨left, hread, _⟩ := Peer.readMsg_end .gui events (r := r) (by
      rw [List.prefix_nil.mp hpre]
      decide)
    exact Peer.receive_none .gui (by rw [hread]; simp) he
  | cons e es ih =>
    intro r hpre
    rw [List.flatMap_cons] at hpre
    by_cases hall : (events.wire e).length ≤ r.flatten.length ∧ fits events e
    · obtain ⟨left, hread, hbytes, hrest⟩ := readMsg_whole hc .gui hpre hall.1 hall.2
      have hlen : r.flatten.length - (events.wire e).length = left.flatten.length := by
        rw [hbytes, List.length_append]
        omega
      rw [arrived, if_pos hall, hlen, emitted_event (Peer.receive_ok.mpr hread), ih hrest,
        List.filterMap_cons]
      cases Daemon.statusOf e <;> rfl
    · rw [arrived, if_neg hall]
      exact emitted_none fun e' =>
        Peer.receive_none .gui (readMsg_part hc .gui hpre hall e')

/-- The errors of the service and of the GUI read the same. -/
theorem receive_core (r : List (List UInt8)) :
    Core.receive events line r = Gui.receive events line r := by
  unfold Core.receive Gui.receive Core.readMsg Gui.readMsg Ipc.readMsg
  split
  · rfl
  · split
    · rfl
    · split <;> rfl

/-- **The two subscriptions hear the same**: `next`, called until it is done, returns what
`subscribe_once` emits. -/
theorem emitted_next (line : Line) (r : List (List UInt8)) :
    Gui.emitted events line r = match Core.next events line r with
      | (.ok (some status), left) =>
        (status :: (Gui.emitted events line left).1, (Gui.emitted events line left).2)
      | (.ok none, _) => ([], .ok ())
      | (.error e, _) => ([], .error e) := by
  induction hn : r.flatten.length using Nat.strongRecOn generalizing r with
  | ind n ih =>
    rw [Gui.emitted, Core.next, receive_core]
    split
    · rfl
    · rename_i hr
      exact ih _ (hn ▸ Peer.receive_lt .gui hr) _ rfl
    · rfl
    · rfl

variable (commands events) in
/-- The three clients differ in the errors they return, and in nothing else. -/
theorem Peer.oneShot_same (peer peer' : Peer) (cmd : Command) (line : Line) :
    (peer.oneShot commands events cmd line).1 = (peer'.oneShot commands events cmd line).1 ∧
      ∀ e, (peer.oneShot commands events cmd line).2 = .ok e ↔
        (peer'.oneShot commands events cmd line).2 = .ok e := by
  have hreceive : ∀ peer : Peer, peer.receive events line line.incoming =
      Gui.receive events line line.incoming := by
    intro peer
    cases peer with
    | core => exact receive_core _
    | cli | gui => rfl
  constructor
  · have hshared : ∀ unreachable unreachable' read read' write,
        (Ipc.oneShot unreachable read write cmd line).1 =
          (Ipc.oneShot unreachable' read' write cmd line).1 := by
      intro unreachable unreachable' read read' write
      unfold Ipc.oneShot
      cases line.name <;> cases line.connect <;> cases line.write <;> rfl
    cases peer <;> cases peer' <;> exact hshared _ _ _ _ _
  · intro e
    rw [oneShot_ok, oneShot_ok, hreceive, hreceive]

variable (commands events line) in
/-- `subscribe_once` emits nothing, or what its loop does. -/
theorem Gui.subscribeOnce_emits : (Gui.subscribeOnce commands events line).2.1 = [] ∨
    (Gui.subscribeOnce commands events line).2.1 = (Gui.emitted events line line.incoming).1 := by
  unfold Gui.subscribeOnce
  split
  · exact .inl rfl
  · exact .inl rfl
  · exact .inl rfl
  · exact .inr rfl

theorem Gui.subscribeOnce_ok (hname : line.name = .ok) (hconnect : line.connect = .ok)
    (hwrite : line.write = .ok) :
    (Gui.subscribeOnce commands events line).2.1 = (Gui.emitted events line line.incoming).1 := by
  unfold Gui.subscribeOnce
  rw [hname, hconnect, hwrite]

/-- It writes the beginning of its frame. -/
theorem Gui.subscribeOnce_writes :
    (Gui.subscribeOnce commands events line).1 <+: commands.wire .subscribe := by
  unfold Gui.subscribeOnce
  split
  · exact List.nil_prefix
  · exact List.nil_prefix
  · exact List.take_prefix _ _
  · exact List.prefix_refl _

end

end Voidns.Ipc
