import Mathlib.Tactic.Common

/-!
# A bounded broadcast channel

Every message sent goes to every receiver, but only the last `cap` are retained.
A receiver is a position in the list of all messages sent.  One that has fallen
behind what is retained gets one lag error, and resumes at the oldest message
that is.

`Delivered` ties what a receiver has got to the messages sent: they came in
order, each at most once, and with those it was told it missed they are all the
messages between its start and its position.
-/

namespace Broadcast

variable {α : Type}

/-- A receiver: how many messages had been sent when it was made, the next one it
reads, and how many it has missed. -/
structure Receiver where
  start : Nat
  next : Nat
  missed : Nat
  deriving DecidableEq, Repr

/-- A receiver of what is sent after the first `n` messages. -/
def Receiver.new (n : Nat) : Receiver := ⟨n, n, 0⟩

inductive Recv (α : Type) where
  | value (a : α) (r : Receiver)
  | lagged (r : Receiver)
  | empty

/-- `recv`, which waits where this is `empty`. -/
def Receiver.recv (cap : Nat) (sent : List α) (r : Receiver) : Recv α :=
  if r.next + cap < sent.length then
    .lagged { r with next := sent.length - cap, missed := r.missed + (sent.length - cap - r.next) }
  else match sent[r.next]? with
    | some a => .value a { r with next := r.next + 1 }
    | none => .empty

/-- What a receiver has got so far. -/
structure Delivered (sent : List α) (r : Receiver) (got : List α) : Prop where
  start_le : r.start ≤ r.next
  next_le : r.next ≤ sent.length
  sublist : got.Sublist ((sent.take r.next).drop r.start)
  count : got.length + r.missed = r.next - r.start

variable {cap : Nat} {sent : List α} {r r' : Receiver} {got : List α} {a : α}

theorem recv_value (h : r.recv cap sent = .value a r') :
    sent[r.next]? = some a ∧ r' = { r with next := r.next + 1 } := by
  rw [Receiver.recv] at h
  split at h
  · exact absurd h (by simp)
  · split at h
    · rename_i hb
      obtain ⟨rfl, rfl⟩ := Recv.value.inj h
      exact ⟨hb, rfl⟩
    · exact absurd h (by simp)

theorem recv_lagged (h : r.recv cap sent = .lagged r') :
    r.next + cap < sent.length ∧
      r' = { r with next := sent.length - cap
                    missed := r.missed + (sent.length - cap - r.next) } := by
  rw [Receiver.recv] at h
  split at h
  · exact ⟨‹_›, (Recv.lagged.inj h).symm⟩
  · split at h <;> exact absurd h (by simp)

namespace Delivered

theorem new : Delivered sent (.new sent.length) [] where
  start_le := Nat.le_refl _
  next_le := Nat.le_refl _
  sublist := List.nil_sublist _
  count := by simp [Receiver.new]

/-- Sending leaves what has been delivered. -/
theorem send (h : Delivered sent r got) (a : α) : Delivered (sent ++ [a]) r got where
  start_le := h.start_le
  next_le := by
    rw [List.length_append]
    have := h.next_le
    omega
  sublist := by
    rw [List.take_append_of_le_length h.next_le]
    exact h.sublist
  count := h.count

theorem value (h : Delivered sent r got) (hr : r.recv cap sent = .value a r') :
    Delivered sent r' (got ++ [a]) := by
  obtain ⟨ha, rfl⟩ := recv_value hr
  have hlt : r.next < sent.length := (List.getElem?_eq_some_iff.mp ha).1
  have hle := h.start_le
  refine ⟨by show r.start ≤ r.next + 1; omega, hlt, ?_, ?_⟩
  · have htake : sent.take (r.next + 1) = sent.take r.next ++ [a] := by
      rw [List.take_add_one, ha]
      rfl
    show (got ++ [a]).Sublist ((sent.take (r.next + 1)).drop r.start)
    rw [htake, List.drop_append_of_le_length (by rw [List.length_take]; omega)]
    exact h.sublist.append (List.Sublist.refl _)
  · have := h.count
    show (got ++ [a]).length + r.missed = r.next + 1 - r.start
    rw [List.length_append, List.length_singleton]
    omega

theorem lagged (h : Delivered sent r got) (hr : r.recv cap sent = .lagged r') :
    Delivered sent r' got := by
  obtain ⟨hlt, rfl⟩ := recv_lagged hr
  have hle := h.start_le
  refine ⟨by show r.start ≤ sent.length - cap; omega,
    by show sent.length - cap ≤ sent.length; omega, ?_, ?_⟩
  · refine h.sublist.trans ?_
    show ((sent.take r.next).drop r.start).Sublist ((sent.take (sent.length - cap)).drop r.start)
    have htake : sent.take r.next = (sent.take (sent.length - cap)).take r.next := by
      rw [List.take_take, Nat.min_eq_left (by omega)]
    rw [htake]
    exact (List.take_sublist _ _).drop _
  · have := h.count
    show got.length + (r.missed + (sent.length - cap - r.next)) = sent.length - cap - r.start
    omega

/-- **Nothing missed, nothing lost.** -/
theorem all (h : Delivered sent r got) (hm : r.missed = 0) :
    got = (sent.take r.next).drop r.start := by
  refine h.sublist.eq_of_length ?_
  have hc := h.count
  have hn := h.next_le
  rw [List.length_drop, List.length_take]
  omega

end Delivered

/-- **No lag** for a receiver that is not behind what is retained. -/
theorem recv_near (h : sent.length ≤ r.next + cap) : r.recv cap sent ≠ .lagged r' := by
  intro hr
  have := (recv_lagged hr).1
  omega

end Broadcast
