import Voidns.Ipc.Wire

/-!
# A stream that breaks off

A peer that dies leaves a stream that ends anywhere: between two frames, inside
the length of one, or inside its text.  `read_msg` is to tell the first case,
`Ok(None)`, from the others, an error.

Inside a text it does, as `serde_json` does not read a text that is cut short.
But `read_u32` says the same of a length that is not there and of one that is not
all there, so after one to three bytes of a length the stream passes for closed
(`truncation_iff`).
-/

namespace Voidns.Ipc

open Framing Serde

/-- What a reader of frames asks of the texts: a text is read back, and no text cut
short is. -/
structure Codec.Exact {α : Type} (codec : Codec α) : Prop where
  decode_encode : ∀ msg, codec.decode (codec.encode msg) = some msg
  decode_cut : ∀ msg bytes t, codec.encode msg = bytes ++ t → t ≠ [] → codec.decode bytes = none

section

variable {α : Type} {codec : Codec α}

/-- The messages whose frames lie wholly in the first `n` bytes. -/
def whole (codec : Codec α) : List (Peer × α) → Nat → List α
  | [], _ => []
  | m :: sent, n =>
    if (codec.wire m.2).length ≤ n then m.2 :: whole codec sent (n - (codec.wire m.2).length) else []

/-- How many bytes there are after the last of these frames. -/
def leftover (codec : Codec α) : List (Peer × α) → Nat → Nat
  | [], n => n
  | m :: sent, n =>
    if (codec.wire m.2).length ≤ n then leftover codec sent (n - (codec.wire m.2).length) else n

/-- All whole frames are read, and then the end if there is nothing more, or else an
error. -/
def Told (codec : Codec α) (sent : List (Peer × α)) (readers : List Peer) (chunks : List (List UInt8)) :
    Prop :=
  Peer.received codec readers chunks =
    (whole codec sent chunks.flatten.length).map (fun msg => some (some msg)) ++
      [if leftover codec sent chunks.flatten.length = 0 then some none else none]

/-- A stream breaks off, and the peers read on as long as there are whole frames, and
once more.  All is told exactly when no whole frame has a text too long for its
length, and what is left is not a part of a length. -/
def Truncation (codec : Codec α) : Prop :=
  ∀ (sent : List (Peer × α)) (readers : List Peer) (chunks : List (List UInt8)),
    chunks.flatten <+: Peer.written codec sent →
    readers.length = (whole codec sent chunks.flatten.length).length + 1 →
    (Told codec sent readers chunks ↔
      (∀ msg ∈ whole codec sent chunks.flatten.length, (codec.encode msg).length < 2 ^ 32) ∧
        ¬(0 < leftover codec sent chunks.flatten.length ∧
          leftover codec sent chunks.flatten.length < 4))

/-! ### One frame -/

/-- A frame with a text too long for its length is not read as what it is. -/
theorem Codec.Exact.readMsg_long (hc : codec.Exact) (peer : Peer) {msg : α} {rest : List UInt8}
    {r : List (List UInt8)} (hlong : ¬(codec.encode msg).length < 2 ^ 32)
    (h : r.flatten = codec.wire msg ++ rest) : ∃ left, peer.readMsg codec r = (none, left) := by
  have hmod : (codec.encode msg).length % 2 ^ 32 < (codec.encode msg).length :=
    lt_of_lt_of_le (Nat.mod_lt _ (by decide)) (not_lt.mp hlong)
  rw [Codec.wire, frame, List.append_assoc] at h
  refine peer.readMsg_fails codec h (.inr ?_)
  rw [List.take_append_of_le_length (Nat.le_of_lt hmod)]
  refine hc.decode_cut msg _ _ (List.take_append_drop _ _).symm fun hd => ?_
  exact absurd (List.drop_eq_nil_iff.mp hd) (by omega)

/-- **A frame cut short** after its length. -/
theorem Codec.Exact.readMsg_cut (hc : codec.Exact) (peer : Peer) {msg : α} {r : List (List UInt8)}
    (hpre : r.flatten <+: codec.wire msg) (h4 : 4 ≤ r.flatten.length)
    (hlt : r.flatten.length < (codec.wire msg).length) :
    ∃ left, peer.readMsg codec r = (none, left) := by
  have hlen : be32 (codec.encode msg).length <+: codec.wire msg := List.prefix_append _ _
  obtain ⟨part, hpart⟩ := List.prefix_of_prefix_length_le hlen hpre (by rw [be32_length]; exact h4)
  obtain ⟨t, ht⟩ := hpre
  have htext : codec.encode msg = part ++ t := by
    rw [← hpart, List.append_assoc, Codec.wire, frame] at ht
    exact (List.append_cancel_left ht).symm
  have hne : t ≠ [] := fun he => by
    rw [he, List.append_nil] at ht
    exact absurd hlt (by rw [ht]; exact lt_irrefl _)
  -- the length may ask for less than there is, but not for the whole text
  have hcut : ∀ k, codec.decode (part.take k) = none := fun k => by
    refine hc.decode_cut msg (part.take k) (part.drop k ++ t) ?_ ?_
    · rw [← List.append_assoc, List.take_append_drop, htext]
    · exact fun he => hne (List.append_eq_nil_iff.mp he).2
  exact peer.readMsg_fails codec hpart.symm (.inr (hcut _))

/-! ### Every frame -/

theorem received_single (peer : Peer) {r left : List (List UInt8)} {answer : Option (Option α)}
    (h : peer.readMsg codec r = (answer, left)) : Peer.received codec [peer] r = [answer] := by
  rw [Peer.received, h]
  rfl

/-- The stream breaks off inside the next frame, or before it. -/
theorem told_cut (hc : codec.Exact) (peer : Peer) {msg : α} {r : List (List UInt8)}
    (hpre : r.flatten <+: codec.wire msg) (hlt : r.flatten.length < (codec.wire msg).length) :
    Peer.received codec [peer] r = [if r.flatten.length = 0 then some none else none] ↔
      ¬(0 < r.flatten.length ∧ r.flatten.length < 4) := by
  rcases Nat.lt_or_ge r.flatten.length 4 with h4 | h4
  · obtain ⟨left, hread, _⟩ := peer.readMsg_end codec h4
    rw [received_single peer hread]
    by_cases h0 : r.flatten.length = 0
    · rw [if_pos h0]
      exact ⟨fun _ h => absurd h0 (by omega), fun _ => rfl⟩
    · rw [if_neg h0]
      exact ⟨fun h => absurd h (by simp), fun h => absurd ⟨Nat.pos_of_ne_zero h0, h4⟩ h⟩
  · obtain ⟨left, hread⟩ := hc.readMsg_cut peer hpre h4 hlt
    rw [received_single peer hread, if_neg (by omega)]
    exact ⟨fun _ h => absurd h.2 (by omega), fun _ => rfl⟩

/-- **What a reader learns** from a stream that breaks off.  The induction is on the
messages; each step takes a whole frame or stops in the frame that is cut. -/
theorem Codec.Exact.truncation (hc : codec.Exact) : Truncation codec := by
  intro sent
  induction sent with
  | nil =>
    intro readers chunks hpre hcount
    have hnil : chunks.flatten = [] := List.prefix_nil.mp hpre
    obtain ⟨peer, rfl⟩ := List.length_eq_one_iff.mp hcount
    obtain ⟨left, hread, _⟩ := peer.readMsg_end codec (r := chunks) (by rw [hnil]; decide)
    rw [Told, received_single peer hread, hnil]
    exact ⟨fun _ => ⟨fun _ h => absurd h (by simp [whole]), fun h => absurd h.1 (by simp [leftover])⟩,
      fun _ => rfl⟩
  | cons m sent ih =>
    intro readers chunks hpre hcount
    rw [Peer.written_eq, List.flatMap_cons, ← Peer.written_eq] at hpre
    rw [Told]
    by_cases hle : (codec.wire m.2).length ≤ chunks.flatten.length
    · -- the frame of `m` is whole
      obtain ⟨rest, hrest⟩ := List.prefix_of_prefix_length_le (List.prefix_append _ _) hpre hle
      have hn : chunks.flatten.length - (codec.wire m.2).length = rest.length := by
        rw [← hrest, List.length_append]
        omega
      have hpre : rest <+: Peer.written codec sent := by
        rw [← hrest] at hpre
        exact (List.prefix_append_right_inj _).mp hpre
      rw [whole, if_pos hle, hn, List.length_cons] at hcount
      rw [whole, leftover, if_pos hle, if_pos hle, hn, List.map_cons, List.cons_append,
        List.forall_mem_cons]
      obtain ⟨peer, readers, rfl⟩ := List.exists_cons_of_length_eq_add_one hcount
      rw [List.length_cons, Nat.add_right_cancel_iff] at hcount
      by_cases hfit : (codec.encode m.2).length < 2 ^ 32
      · obtain ⟨left, hread, hleft⟩ := peer.readMsg_frame hfit (hc.decode_encode m.2) hrest.symm
        have hrec := ih readers left (by rw [hleft]; exact hpre) (by rw [hleft]; exact hcount)
        rw [Told, hleft] at hrec
        rw [Peer.received, hread, List.cons_inj_right, hrec]
        exact ⟨fun h => ⟨⟨hfit, h.1⟩, h.2⟩, fun h => ⟨h.1.2, h.2⟩⟩
      · obtain ⟨left, hread⟩ := hc.readMsg_long peer hfit hrest.symm
        rw [Peer.received, hread]
        exact ⟨fun h => absurd (List.cons.inj h).1 (by simp), fun h => absurd h.1.1 hfit⟩
    · -- the stream ends inside the frame of `m`
      have hlt := Nat.lt_of_not_le hle
      have hframe : chunks.flatten <+: codec.wire m.2 :=
        List.prefix_of_prefix_length_le hpre (List.prefix_append _ _) (Nat.le_of_lt hlt)
      rw [whole, if_neg hle] at hcount
      obtain ⟨peer, rfl⟩ := List.length_eq_one_iff.mp hcount
      rw [whole, leftover, if_neg hle, if_neg hle, List.map_nil, List.nil_append,
        told_cut hc peer hframe hlt]
      exact ⟨fun h => ⟨fun _ h => absurd h (by simp), h⟩, fun h => h.2⟩

end

/-! ### The JSON protocol -/

/-- `serde_json` does not read the text of a command or an event that is cut short. -/
def SerdeJson.RejectsCut (serde : SerdeJson) : Prop :=
  ∀ v bytes t, Protocol v → serde.toVec v = bytes ++ t → t ≠ [] → serde.fromSlice bytes = none

namespace SerdeJson

theorem command_exact {serde : SerdeJson} (h : serde.Inverts) (hcut : serde.RejectsCut) :
    serde.command.Exact where
  decode_encode := h.command
  decode_cut cmd bytes t hbytes ht := by
    show (serde.fromSlice bytes).bind Command.deserialize = none
    rw [hcut _ bytes t (.command cmd) hbytes ht]
    rfl

theorem event_exact {serde : SerdeJson} (h : serde.Inverts) (hcut : serde.RejectsCut) :
    serde.event.Exact where
  decode_encode := h.event
  decode_cut e bytes t hbytes ht := by
    show (serde.fromSlice bytes).bind Event.deserialize = none
    rw [hcut _ bytes t (.event e) hbytes ht]
    rfl

end SerdeJson

/-- **When a broken stream is told from a closed one**, with commands and with events. -/
theorem truncation_iff {serde : SerdeJson} (h : serde.Inverts) (hcut : serde.RejectsCut) :
    Truncation serde.command ∧ Truncation serde.event :=
  ⟨(serde.command_exact h hcut).truncation, (serde.event_exact h hcut).truncation⟩

theorem jsonText_rejectsCut : jsonText.RejectsCut := by
  intro v bytes t hv h ht
  -- both are objects, whose text closes with the last byte only
  obtain ⟨members, rfl⟩ : ∃ members, v = .obj members := by
    cases hv with
    | command cmd => exact cmd.serialize_obj
    | event e => exact e.serialize_obj
  exact Json.fromSlice_cut h ht

/-- Two commands. -/
def connectAndAsk : List (Peer × Command) :=
  [(.gui, .connect (.custom "9.9.9.9" "é" "/dns-query" 443)), (.gui, .getStatus)]

/-- Two events. -/
def pongAndError : List (Peer × Event) := [(.core, .pong), (.core, .error "refused")]

/-- The stream breaks off inside the text of the second command, and between the two
events. -/
theorem truncation_told :
    Told jsonText.command connectAndAsk [.core, .core]
        [(Peer.written jsonText.command connectAndAsk).dropLast] ∧
      Told jsonText.event pongAndError [.cli, .gui] [jsonText.event.wire .pong] := by
  have h := truncation_iff jsonText_inverts jsonText_rejectsCut
  constructor
  · refine (h.1 _ _ _ ?_ (by decide +kernel)).mpr (by decide +kernel)
    rw [List.flatten_singleton]
    exact List.dropLast_prefix _
  · refine (h.2 _ _ _ ?_ (by decide +kernel)).mpr (by decide +kernel)
    rw [List.flatten_singleton, Peer.written_eq]
    exact List.prefix_append _ _

/-- **Half a length passes for the end**: the client has died two bytes into a frame. -/
theorem truncation_hidden :
    let sent : List (Peer × Command) := [(.cli, .disconnect)]
    let chunks := [(Peer.written jsonText.command sent).take 2]
    chunks.flatten <+: Peer.written jsonText.command sent ∧
      whole jsonText.command sent chunks.flatten.length = [] ∧
      leftover jsonText.command sent chunks.flatten.length = 2 ∧
      Peer.received jsonText.command [.core] chunks = [some none] := by decide +kernel

end Voidns.Ipc
