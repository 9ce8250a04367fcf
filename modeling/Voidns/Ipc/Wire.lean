import Voidns.Ipc.Conn
import Voidns.Ipc.Serde

/-!
# What is written is read

`write_msg` and `read_msg`: there are three of each, in the service, in the
command line client and in the GUI, which differ in the type of their errors
only.  A stream comes in chunks, cut anywhere, and then ends.

Any of the three reads back, message by message, what any of the three has
written, and then the end of the stream.  Of `serde_json` this takes that it
reads the values it writes (`SerdeJson.Inverts`): those of the commands and of the
events, as it gives up on a value that is nested too deep.
-/

namespace Voidns.Ipc

open Framing Serde

/-- The kind of an `io::Error`. -/
inductive IoError where
  | unexpectedEof
  | other
  deriving DecidableEq

/-- The `anyhow` error of the service. -/
inductive CoreError where
  | io (e : IoError)
  | json
  deriving DecidableEq

/-- The values that are written: those of a command and of an event. -/
inductive Protocol : Json → Prop where
  | command (cmd : Command) : Protocol cmd.serialize
  | event (e : Event) : Protocol e.serialize

/-- `serde_json`: the text of a value, and the value of a text. -/
structure SerdeJson where
  toVec : Json → List UInt8
  fromSlice : List UInt8 → Option Json

namespace SerdeJson

/-- It reads the text it writes of this value. -/
def Reads (serde : SerdeJson) (v : Json) : Prop := serde.fromSlice (serde.toVec v) = some v

/-- It reads the values it writes. -/
def Inverts (serde : SerdeJson) : Prop := ∀ v, Protocol v → serde.Reads v

/-- The `Command`s in JSON. -/
def command (serde : SerdeJson) : Codec Command where
  encode cmd := serde.toVec cmd.serialize
  decode buf := (serde.fromSlice buf).bind Command.deserialize

/-- The `Event`s in JSON. -/
def event (serde : SerdeJson) : Codec Event where
  encode e := serde.toVec e.serialize
  decode buf := (serde.fromSlice buf).bind Event.deserialize

theorem Inverts.command {serde : SerdeJson} (h : serde.Inverts) (cmd : Command) :
    serde.command.decode (serde.command.encode cmd) = some cmd := by
  show (serde.fromSlice (serde.toVec cmd.serialize)).bind Command.deserialize = _
  rw [h _ (.command cmd), Option.bind_some, Command.deserialize_serialize]

theorem Inverts.event {serde : SerdeJson} (h : serde.Inverts) (e : Event) :
    serde.event.decode (serde.event.encode e) = some e := by
  show (serde.fromSlice (serde.toVec e.serialize)).bind Event.deserialize = _
  rw [h _ (.event e), Option.bind_some, Event.deserialize_serialize]

/-- What a connection asks of the texts of the commands. -/
theorem Inverts.lawful {serde : SerdeJson} (h : serde.Inverts) {cmds : List Command}
    (hlen : ∀ cmd ∈ cmds, (serde.command.encode cmd).length < 2 ^ 32) : Lawful serde.command cmds :=
  ⟨fun cmd _ => h.command cmd, hlen⟩

end SerdeJson

section

variable {α ε : Type}

/-- What the three `write_msg` share: `w` is what has been written so far, and
takes the bytes.  `to_vec` does not fail on a `Command` or an `Event`. -/
def writeMsg (codec : Codec α) (msg : α) (w : List UInt8) : List UInt8 :=
  let buf := codec.encode msg
  w ++ be32 buf.length ++ buf

/-- What the three `read_msg` share: their errors are `io` and `json`. -/
def readMsg (io : IoError → ε) (json : ε) (codec : Codec α) (r : List (List UInt8)) :
    Except ε (Option α) × List (List UInt8) :=
  match readExact 4 r with
  -- `read_u32` meets the end of the stream, before the length or inside it
  | (none, r) => (.ok none, r)
  | (some len, r) =>
    match readExact (fromBe len) r with
    | (none, r) => (.error (io .unexpectedEof), r)
    | (some buf, r) =>
      match codec.decode buf with
      | none => (.error json, r)
      | some msg => (.ok (some msg), r)

/-- The reader of a connection reads as `read_msg` does, once the frame is there. -/
theorem readMsg_readFrom (io : IoError → ε) (json : ε) {codec : Codec α} {msg : α}
    {buf held rest : List UInt8} {r : List (List UInt8)}
    (hfrom : readFrom [] r.flatten = (some buf, held, rest)) (hdecode : codec.decode buf = some msg) :
    ∃ left, readMsg io json codec r = (.ok (some msg), left) ∧ left.flatten = rest := by
  obtain ⟨len, hbytes, h4, hlen⟩ := readFrom_some _ _ hfrom
  obtain ⟨after, hprefix, hafter⟩ := readExact_append r len (buf ++ rest) hbytes
  obtain ⟨left, hbuf, hleft⟩ := readExact_append after buf rest hafter
  rw [h4] at hprefix
  refine ⟨left, ?_, hleft⟩
  simp only [readMsg, hprefix, hlen, hbuf, hdecode]

theorem readMsg_frame (io : IoError → ε) (json : ε) {codec : Codec α} {msg : α}
    {buf rest : List UInt8} {r : List (List UInt8)} (hlen : buf.length < 2 ^ 32)
    (hdecode : codec.decode buf = some msg) (h : r.flatten = frame buf ++ rest) :
    ∃ left, readMsg io json codec r = (.ok (some msg), left) ∧ left.flatten = rest :=
  readMsg_readFrom io json (readFrom_frame hlen _ [] (Nat.zero_le _) h) hdecode

/-- The stream ends before the length is there. -/
theorem readMsg_end (codec : Codec α) (io : IoError → ε) (json : ε) {r : List (List UInt8)}
    (h : r.flatten.length < 4) :
    ∃ left, readMsg io json codec r = (.ok none, left) ∧ left.flatten = [] := by
  obtain ⟨left, hread, hleft⟩ := readExact_short r 4 h
  exact ⟨left, by simp only [readMsg, hread], hleft⟩

/-- There is a length, and then not as many bytes, or no message in them. -/
theorem readMsg_fails (codec : Codec α) (io : IoError → ε) (json : ε) {n : Nat} {bytes : List UInt8}
    {r : List (List UInt8)} (h : r.flatten = be32 n ++ bytes)
    (hbad : bytes.length < n % 2 ^ 32 ∨ codec.decode (bytes.take (n % 2 ^ 32)) = none) :
    ∃ e left, readMsg io json codec r = (.error e, left) := by
  obtain ⟨after, hlen, hafter⟩ := readExact_append r (be32 n) bytes h
  rw [be32_length] at hlen
  rcases Nat.lt_or_ge bytes.length (n % 2 ^ 32) with hshort | hlong
  · obtain ⟨left, hread, _⟩ := readExact_short after (n % 2 ^ 32) (by rw [hafter]; exact hshort)
    exact ⟨_, left, by simp only [readMsg, hlen, fromBe_be32_mod, hread]; rfl⟩
  · obtain ⟨left, hread, _⟩ := readExact_append after (bytes.take (n % 2 ^ 32))
      (bytes.drop (n % 2 ^ 32)) (by rw [hafter, List.take_append_drop])
    rw [List.length_take_of_le hlong] at hread
    have hnone := hbad.resolve_left (Nat.not_lt.mpr hlong)
    exact ⟨_, left, by simp only [readMsg, hlen, fromBe_be32_mod, hread, hnone]; rfl⟩

/-- What an error is made of does not matter for what is read. -/
theorem readMsg_toOption {ε' : Type} (io : IoError → ε) (json : ε) (io' : IoError → ε') (json' : ε')
    (codec : Codec α) (r : List (List UInt8)) :
    ((readMsg io json codec r).1.toOption, (readMsg io json codec r).2) =
      ((readMsg io' json' codec r).1.toOption, (readMsg io' json' codec r).2) := by
  unfold readMsg
  split
  · rfl
  · split
    · rfl
    · split <;> rfl

end

/-! ### The three peers -/

namespace Core

variable {α : Type}

/-- `write_msg` of `voidns-core`. -/
def writeMsg (codec : Codec α) (msg : α) (w : List UInt8) : List UInt8 := Ipc.writeMsg codec msg w

/-- `read_msg` of `voidns-core`. -/
def readMsg (codec : Codec α) (r : List (List UInt8)) :
    Except CoreError (Option α) × List (List UInt8) := Ipc.readMsg .io .json codec r

end Core

namespace Cli

variable {α : Type}

/-- `write_msg` of `voidns-cli`. -/
def writeMsg (codec : Codec α) (msg : α) (w : List UInt8) : List UInt8 := Ipc.writeMsg codec msg w

/-- `read_msg` of `voidns-cli`; `io::Error::other` wraps what `serde_json` says. -/
def readMsg (codec : Codec α) (r : List (List UInt8)) :
    Except IoError (Option α) × List (List UInt8) := Ipc.readMsg id .other codec r

end Cli

namespace Gui

variable {α : Type}

/-- `write_msg` of the GUI. -/
def writeMsg (codec : Codec α) (msg : α) (w : List UInt8) : List UInt8 := Ipc.writeMsg codec msg w

/-- `read_msg` of the GUI. -/
def readMsg (codec : Codec α) (r : List (List UInt8)) :
    Except IoError (Option α) × List (List UInt8) := Ipc.readMsg id .other codec r

end Gui

inductive Peer where
  | core
  | cli
  | gui
  deriving DecidableEq

namespace Peer

variable {α : Type} {codec : Codec α}

def writeMsg : Peer → Codec α → α → List UInt8 → List UInt8
  | core => Core.writeMsg
  | cli => Cli.writeMsg
  | gui => Gui.writeMsg

/-- What `read_msg` returns if it is `Ok`, and the stream left. -/
def readMsg (peer : Peer) (codec : Codec α) (r : List (List UInt8)) :
    Option (Option α) × List (List UInt8) :=
  match peer with
  | core => ((Core.readMsg codec r).1.toOption, (Core.readMsg codec r).2)
  | cli => ((Cli.readMsg codec r).1.toOption, (Cli.readMsg codec r).2)
  | gui => ((Gui.readMsg codec r).1.toOption, (Gui.readMsg codec r).2)

/-- The bytes of messages written one after another, each by any peer. -/
def written (codec : Codec α) (sent : List (Peer × α)) : List UInt8 :=
  sent.foldl (fun w m => m.1.writeMsg codec m.2 w) []

/-- What `read_msg` returns, called by one peer after another. -/
def received (codec : Codec α) : List Peer → List (List UInt8) → List (Option (Option α))
  | [], _ => []
  | peer :: peers, r => (peer.readMsg codec r).1 :: received codec peers (peer.readMsg codec r).2

theorem written_eq (sent : List (Peer × α)) :
    written codec sent = sent.flatMap fun m => codec.wire m.2 := by
  have hfold : ∀ (sent : List (Peer × α)) (w : List UInt8),
      sent.foldl (fun w m => m.1.writeMsg codec m.2 w) w = w ++ sent.flatMap fun m => codec.wire m.2 := by
    intro sent
    induction sent with
    | nil => intro w; exact (List.append_nil w).symm
    | cons m sent ih =>
      intro w
      have hm : m.1.writeMsg codec m.2 w = w ++ codec.wire m.2 := by
        cases m.1 <;> exact List.append_assoc _ _ _
      rw [List.foldl_cons, hm, ih, List.flatMap_cons, List.append_assoc]
  exact hfold sent []

theorem readMsg_eq (peer : Peer) (codec : Codec α) (r : List (List UInt8)) :
    peer.readMsg codec r =
      ((Ipc.readMsg id .other codec r).1.toOption, (Ipc.readMsg id .other codec r).2) := by
  cases peer with
  | core => exact readMsg_toOption _ _ _ _ codec r
  | cli => rfl
  | gui => rfl

theorem readMsg_frame (peer : Peer) {msg : α} {buf rest : List UInt8} {r : List (List UInt8)}
    (hlen : buf.length < 2 ^ 32) (hdecode : codec.decode buf = some msg)
    (h : r.flatten = frame buf ++ rest) :
    ∃ left, peer.readMsg codec r = (some (some msg), left) ∧ left.flatten = rest := by
  obtain ⟨left, hread, hleft⟩ := Ipc.readMsg_frame id IoError.other hlen hdecode h
  exact ⟨left, by rw [readMsg_eq, hread]; rfl, hleft⟩

theorem readMsg_end (peer : Peer) (codec : Codec α) {r : List (List UInt8)} (h : r.flatten.length < 4) :
    ∃ left, peer.readMsg codec r = (some none, left) ∧ left.flatten = [] := by
  obtain ⟨left, hread, hleft⟩ := Ipc.readMsg_end codec id IoError.other h
  exact ⟨left, by rw [readMsg_eq, hread]; rfl, hleft⟩

theorem readMsg_fails (peer : Peer) (codec : Codec α) {n : Nat} {bytes : List UInt8}
    {r : List (List UInt8)} (h : r.flatten = be32 n ++ bytes)
    (hbad : bytes.length < n % 2 ^ 32 ∨ codec.decode (bytes.take (n % 2 ^ 32)) = none) :
    ∃ left, peer.readMsg codec r = (none, left) := by
  obtain ⟨e, left, hread⟩ := Ipc.readMsg_fails codec id IoError.other h hbad
  exact ⟨left, by rw [readMsg_eq, hread]; rfl⟩

/-- After the last message there are only ends of the stream. -/
theorem received_end : ∀ (readers : List Peer) (r : List (List UInt8)), r.flatten = [] →
    received codec readers r = List.replicate readers.length (some none) := by
  intro readers
  induction readers with
  | nil => intro r _; rfl
  | cons peer readers ih =>
    intro r h
    obtain ⟨left, hread, hleft⟩ := readMsg_end peer codec (by rw [h]; decide)
    rw [received, hread, ih left hleft]
    rfl

end Peer

/-- What the peers write in turn, other peers read in turn, and then the end of
the stream, however the stream is cut. -/
def RoundTrips {α : Type} (codec : Codec α) : Prop :=
  ∀ (sent : List (Peer × α)) (readers : List Peer) (chunks : List (List UInt8)),
    (∀ m ∈ sent, (codec.encode m.2).length < 2 ^ 32) → chunks.flatten = Peer.written codec sent →
    sent.length < readers.length →
    Peer.received codec readers chunks =
      sent.map (fun m => some (some m.2)) ++ List.replicate (readers.length - sent.length) (some none)

theorem roundTrips {α : Type} {codec : Codec α}
    (hcodec : ∀ msg, codec.decode (codec.encode msg) = some msg) : RoundTrips codec := by
  intro sent
  induction sent with
  | nil => intro readers chunks _ h _; exact Peer.received_end readers chunks h
  | cons m sent ih =>
    intro readers chunks hlen h hcount
    rw [Peer.written_eq, List.flatMap_cons, ← Peer.written_eq] at h
    cases readers with
    | nil => exact absurd hcount (by simp)
    | cons peer readers =>
      obtain ⟨left, hread, hleft⟩ :=
        peer.readMsg_frame (hlen m List.mem_cons_self) (hcodec m.2) h
      have hrest := ih readers left (fun m hm => hlen m (List.mem_cons_of_mem _ hm)) hleft
        (by simpa using hcount)
      rw [Peer.received, hread, hrest, List.length_cons, List.length_cons, Nat.add_sub_add_right]
      rfl

/-! ### The JSON protocol -/

/-- A `Connect` object whose `Custom` upstream has no `port`.  The members are in
any order, and there may be others. -/
structure Portless (outer inner : List (String × Json)) (ip hostname path : String) : Prop where
  type : required outer "type" = some (.str "connect")
  upstream : required outer "upstream" = some (.obj inner)
  kind : required inner "kind" = some (.str "custom")
  ip : required inner "ip" = some (.str ip)
  hostname : required inner "hostname" = some (.str hostname)
  path : required inner "path" = some (.str path)
  port : named inner "port" = []

theorem Portless.deserialize {outer inner : List (String × Json)} {ip hostname path : String}
    (h : Portless outer inner ip hostname path) :
    Command.deserialize (.obj outer) = some (.connect (.custom ip hostname path defaultDohPort)) := by
  refine Command.deserialize_connect h.type h.upstream
    (UpstreamSel.deserialize_custom h.kind h.ip h.hostname h.path ?_)
  rw [withDefault, h.port]

/-- **Any peer reads what any peer has written.**  A list of commands or of events
comes out as it went in, whoever writes and reads each of them and however the
stream is cut, and then comes the end of the stream.  A `Connect` frame without a
`port`, if `serde_json` reads it, is read as one with port 443. -/
theorem wire_round_trip {serde : SerdeJson} (h : serde.Inverts) :
    RoundTrips serde.command ∧ RoundTrips serde.event ∧
    ∀ (peer : Peer) (outer inner : List (String × Json)) (ip hostname path : String)
      (chunks : List (List UInt8)) (rest : List UInt8),
      Portless outer inner ip hostname path → serde.Reads (.obj outer) →
      (serde.toVec (.obj outer)).length < 2 ^ 32 →
      chunks.flatten = frame (serde.toVec (.obj outer)) ++ rest →
      ∃ left, peer.readMsg serde.command chunks =
        (some (some (.connect (.custom ip hostname path 443))), left) ∧ left.flatten = rest := by
  refine ⟨roundTrips h.command, roundTrips h.event, ?_⟩
  intro peer outer inner ip hostname path chunks rest hport hreads hlen hchunks
  have hdecode : serde.command.decode (serde.toVec (.obj outer)) =
      some (.connect (.custom ip hostname path 443)) := by
    show (serde.fromSlice _).bind Command.deserialize = _
    rw [hreads, Option.bind_some, hport.deserialize, defaultDohPort]
  exact peer.readMsg_frame hlen hdecode hchunks

/-- `SerdeJson`, as `Json` has it. -/
def jsonText : SerdeJson := ⟨Json.toVec, Json.fromSlice⟩

theorem jsonText_inverts : jsonText.Inverts := fun v _ => Json.fromSlice_toVec v

/-- Byte by byte, with a name that has to be escaped and is not ASCII. -/
theorem wire_round_trip_bytewise :
    (let sent : List (Peer × Command) :=
      [(.gui, .connect (.custom "9.9.9.9" "\"é\\漢\n" "/dns-query" 8443)), (.cli, .getStatus)]
    Peer.received jsonText.command [.core, .core, .cli]
      ((Peer.written jsonText.command sent).map fun b => [b]) =
        sent.map (fun m => some (some m.2)) ++ [some none]) ∧
    (let sent : List (Peer × Event) :=
      [(.core, .status ⟨.error, none, some "127.0.0.1", some "😀"⟩), (.core, .pong)]
    Peer.received jsonText.event [.gui, .cli, .gui]
      ((Peer.written jsonText.event sent).map fun b => [b]) =
        sent.map (fun m => some (some m.2)) ++ [some none]) ∧
    (let inner : List (String × Json) :=
      [("path", .str "/"), ("kind", .str "custom"), ("hostname", .str "h"), ("ip", .str "1.1.1.1")]
    let outer : List (String × Json) := [("upstream", .obj inner), ("type", .str "connect")]
    ∃ left, Peer.core.readMsg jsonText.command [frame (jsonText.toVec (.obj outer))] =
      (some (some (.connect (.custom "1.1.1.1" "h" "/" 443))), left) ∧ left.flatten = []) := by
  have hround := wire_round_trip jsonText_inverts
  refine ⟨hround.1 _ _ _ (by decide +kernel) (List.flatMap_singleton' _) (by decide),
    hround.2.1 _ _ _ (by decide +kernel) (List.flatMap_singleton' _) (by decide), ?_⟩
  intro inner outer
  refine hround.2.2 .core outer inner _ _ _ _ [] ⟨rfl, rfl, rfl, rfl, rfl, rfl, rfl⟩
    (Json.fromSlice_toVec _) (by decide +kernel) ?_
  rw [List.flatten_singleton, List.append_nil]

end Voidns.Ipc
