import Mathlib.Algebra.Ring.Nat
import Mathlib.Tactic.Common

/-!
# Length-prefixed frames

A frame is a payload after its length, in four bytes, most significant first.  A
reader takes bytes off its input until it holds a whole frame; what it holds so
far is `acc`, and it can be stopped and resumed with it.  Two facts say all
about a reader that holds the beginning of a frame: when the rest of the frame is
there it returns the payload and leaves what follows (`readFrom_frame`), and
when it is not it takes all there is and waits (`readFrom_short`).

The length is taken modulo `2 ^ 32`, so both need a payload shorter than that.

`readExact` is the same on a stream that comes in chunks and then ends: what it
returns depends on the bytes only, not on how they are cut (`readExact_append`).
-/

namespace Framing

/-- `n` as a `u32`, big-endian. -/
def be32 (n : Nat) : List UInt8 :=
  [UInt8.ofNat (n / 2 ^ 24), UInt8.ofNat (n / 2 ^ 16), UInt8.ofNat (n / 2 ^ 8), UInt8.ofNat n]

def fromBe (bytes : List UInt8) : Nat := bytes.foldl (fun n b => n * 256 + b.toNat) 0

/-- A payload after its length. -/
def frame (payload : List UInt8) : List UInt8 := be32 payload.length ++ payload

/-- Whether these bytes are a frame. -/
def isFrame (acc : List UInt8) : Bool := 4 ≤ acc.length && acc.length == 4 + fromBe (acc.take 4)

/-- Take bytes until they make a frame: the payload if they do, the bytes held
otherwise, and the bytes left. -/
def readFrom (acc : List UInt8) : List UInt8 → Option (List UInt8) × List UInt8 × List UInt8
  | [] => if isFrame acc then (some (acc.drop 4), [], []) else (none, acc, [])
  | b :: bs => if isFrame acc then (some (acc.drop 4), [], b :: bs) else readFrom (acc ++ [b]) bs

@[simp] theorem be32_length (n : Nat) : (be32 n).length = 4 := rfl

@[simp] theorem frame_length (p : List UInt8) : (frame p).length = 4 + p.length := by
  rw [frame, List.length_append, be32_length]

theorem fromBe_be32_mod (n : Nat) : fromBe (be32 n) = n % 2 ^ 32 := by
  simp only [fromBe, be32, List.foldl_cons, List.foldl_nil, UInt8.toNat_ofNat']
  omega

theorem fromBe_be32 {n : Nat} (h : n < 2 ^ 32) : fromBe (be32 n) = n := by
  rw [fromBe_be32_mod, Nat.mod_eq_of_lt h]

/-- What a reader that has the first four bytes of a frame knows. -/
theorem fromBe_take {p acc : List UInt8} (hp : p.length < 2 ^ 32) (h : acc <+: frame p)
    (h4 : 4 ≤ acc.length) : fromBe (acc.take 4) = p.length := by
  obtain ⟨tail, ht⟩ := h
  have htake : acc.take 4 = be32 p.length := by
    have h1 : (acc ++ tail).take 4 = acc.take 4 := List.take_append_of_le_length h4
    have h2 : (frame p).take 4 = be32 p.length := List.take_left' (be32_length _)
    rw [← h1, ht, h2]
  rw [htake, fromBe_be32 hp]

theorem isFrame_short {p acc : List UInt8} (hp : p.length < 2 ^ 32) (h : acc <+: frame p)
    (hlt : acc.length < (frame p).length) : isFrame acc = false := by
  by_cases h4 : 4 ≤ acc.length
  · have hlen := fromBe_take hp h h4
    rw [frame_length] at hlt
    simp only [isFrame, hlen, Bool.and_eq_false_iff, beq_eq_false_iff_ne]
    exact Or.inr (by omega)
  · simp [isFrame, h4]

theorem isFrame_frame {p : List UInt8} (hp : p.length < 2 ^ 32) : isFrame (frame p) = true := by
  have hlen := fromBe_take hp (List.prefix_refl _) (by rw [frame_length]; omega)
  simp only [isFrame, hlen, frame_length, Bool.and_eq_true, decide_eq_true_eq, beq_self_eq_true,
    and_true]
  omega

/-- **A reader waits** for the rest of a frame it holds the beginning of. -/
theorem readFrom_short {p : List UInt8} (hp : p.length < 2 ^ 32) : ∀ (input acc : List UInt8),
    acc ++ input <+: frame p → (acc ++ input).length < (frame p).length →
      readFrom acc input = (none, acc ++ input, []) := by
  intro input
  induction input with
  | nil =>
    intro acc h hlt
    rw [List.append_nil] at h hlt ⊢
    rw [readFrom, isFrame_short hp h hlt]
    rfl
  | cons b bs ih =>
    intro acc h hlt
    have hacc : acc <+: frame p := (List.prefix_append _ _).trans h
    have hacclt : acc.length < (frame p).length := by
      rw [List.length_append] at hlt
      omega
    rw [readFrom, isFrame_short hp hacc hacclt]
    have hassoc : acc ++ b :: bs = acc ++ [b] ++ bs := by simp
    rw [hassoc] at h hlt ⊢
    exact ih (acc ++ [b]) h hlt

/-- **A reader finds the frame** it holds the beginning of, and takes no more. -/
theorem readFrom_frame {p rest : List UInt8} (hp : p.length < 2 ^ 32) :
    ∀ (input acc : List UInt8), acc.length ≤ (frame p).length →
      acc ++ input = frame p ++ rest → readFrom acc input = (some p, [], rest) := by
  have hdone : ∀ input acc : List UInt8, acc.length = (frame p).length →
      acc ++ input = frame p ++ rest → readFrom acc input = (some p, [], rest) := by
    intro input acc hl h
    obtain ⟨rfl, rfl⟩ := List.append_inj h hl
    have hdrop : (frame p).drop 4 = p := List.drop_left' (be32_length _)
    cases input with
    | nil => rw [readFrom, isFrame_frame hp, hdrop]; rfl
    | cons b bs => rw [readFrom, isFrame_frame hp, hdrop]; rfl
  intro input
  induction input with
  | nil =>
    intro acc hl h
    have hle : (frame p).length ≤ acc.length := by
      rw [List.append_nil] at h
      rw [h, List.length_append]
      omega
    exact hdone [] acc (by omega) h
  | cons b bs ih =>
    intro acc hl h
    by_cases hlt : acc.length < (frame p).length
    · have hacc : acc <+: frame p :=
        List.prefix_of_prefix_length_le (h ▸ List.prefix_append _ _) (List.prefix_append _ _) hl
      rw [readFrom, isFrame_short hp hacc hlt]
      refine ih (acc ++ [b]) ?_ (by rw [← h]; simp)
      rw [List.length_append, List.length_singleton]
      omega
    · exact hdone (b :: bs) acc (by omega) h

theorem isFrame_iff {acc : List UInt8} : isFrame acc = true ↔
    ∃ len payload, acc = len ++ payload ∧ len.length = 4 ∧ fromBe len = payload.length := by
  constructor
  · intro h
    obtain ⟨h4, hlen⟩ := Bool.and_eq_true_iff.mp h
    have h4 := of_decide_eq_true h4
    have hlen := eq_of_beq hlen
    refine ⟨acc.take 4, acc.drop 4, (List.take_append_drop 4 acc).symm, ?_, ?_⟩
    · rw [List.length_take]
      omega
    · rw [List.length_drop]
      omega
  · rintro ⟨len, payload, rfl, h4, hlen⟩
    rw [isFrame, List.take_left' h4, List.length_append, h4, hlen]
    simp

/-- What a reader returns is a payload after its length. -/
theorem readFrom_some {payload held rest : List UInt8} : ∀ (input acc : List UInt8),
    readFrom acc input = (some payload, held, rest) →
      ∃ len, acc ++ input = len ++ (payload ++ rest) ∧ len.length = 4 ∧ fromBe len = payload.length := by
  intro input
  induction input with
  | nil =>
    intro acc h
    rw [readFrom] at h
    split at h
    · rename_i hframe
      obtain ⟨len, p, rfl, h4, hlen⟩ := isFrame_iff.mp hframe
      rw [List.drop_left' h4] at h
      obtain ⟨rfl, rfl, rfl⟩ : p = payload ∧ [] = held ∧ [] = rest := by simpa using h
      exact ⟨len, by simp, h4, hlen⟩
    · simp at h
  | cons b bs ih =>
    intro acc h
    rw [readFrom] at h
    split at h
    · rename_i hframe
      obtain ⟨len, p, rfl, h4, hlen⟩ := isFrame_iff.mp hframe
      rw [List.drop_left' h4] at h
      obtain ⟨rfl, rfl, rfl⟩ : p = payload ∧ [] = held ∧ b :: bs = rest := by simpa using h
      exact ⟨len, by simp, h4, hlen⟩
    · obtain ⟨len, hbytes, hlen⟩ := ih _ h
      exact ⟨len, by rw [← hbytes]; simp, hlen⟩

/-- With nothing to read, a reader waits. -/
@[simp] theorem readFrom_nil : readFrom [] [] = (none, [], []) := rfl

/-- **A reader of what may be cut** waits, or finds the frame; `more` is still to come. -/
theorem readFrom_prefix {p acc input more rest : List UInt8} (hp : p.length < 2 ^ 32)
    (hacc : acc.length < (frame p).length) (h : acc ++ input ++ more <+: frame p ++ rest) :
    readFrom acc input = (none, acc ++ input, []) ∧ (acc ++ input).length < (frame p).length ∨
      ∃ tail, readFrom acc input = (some p, [], tail) ∧ tail ++ more <+: rest := by
  have hpre : acc ++ input <+: frame p ++ rest := (List.prefix_append _ _).trans h
  by_cases hlt : (acc ++ input).length < (frame p).length
  · have hshort := List.prefix_of_prefix_length_le hpre (List.prefix_append _ _) (Nat.le_of_lt hlt)
    exact .inl ⟨readFrom_short hp input acc hshort hlt, hlt⟩
  · obtain ⟨tail, htail⟩ :=
      List.prefix_of_prefix_length_le (List.prefix_append _ _) hpre (Nat.le_of_not_lt hlt)
    refine .inr ⟨tail, readFrom_frame hp input acc (Nat.le_of_lt hacc) htail.symm, ?_⟩
    rw [← htail, List.append_assoc] at h
    exact (List.prefix_append_right_inj _).mp h

/-! ### A stream in chunks -/

/-- Take `n` bytes off a stream, or what there is if it ends before: the bytes
if they are all there, and the stream left. -/
def readExact (n : Nat) : List (List UInt8) → Option (List UInt8) × List (List UInt8)
  | [] => (if n = 0 then some [] else none, [])
  | c :: cs =>
    if n ≤ c.length then (some (c.take n), c.drop n :: cs)
    else
      let r := readExact (n - c.length) cs
      (r.1.map (c ++ ·), r.2)

theorem readExact_append : ∀ (chunks : List (List UInt8)) (a b : List UInt8), chunks.flatten = a ++ b →
    ∃ left, readExact a.length chunks = (some a, left) ∧ left.flatten = b := by
  intro chunks
  induction chunks with
  | nil =>
    intro a b h
    obtain ⟨rfl, rfl⟩ := List.append_eq_nil_iff.mp h.symm
    exact ⟨[], rfl, rfl⟩
  | cons c cs ih =>
    intro a b h
    rw [List.flatten_cons] at h
    by_cases hle : a.length ≤ c.length
    · obtain ⟨tail, rfl⟩ := List.prefix_of_prefix_length_le (h ▸ List.prefix_append a b)
        (List.prefix_append c cs.flatten) hle
      refine ⟨tail :: cs, ?_, ?_⟩
      · rw [readExact, if_pos hle, List.take_left' rfl, List.drop_left' rfl]
      · rw [List.append_assoc] at h
        exact List.append_cancel_left h
    · obtain ⟨rest, rfl⟩ := List.prefix_of_prefix_length_le (List.prefix_append c cs.flatten)
        (h ▸ List.prefix_append a b) (by omega)
      have hlen : (c ++ rest).length - c.length = rest.length := by
        rw [List.length_append]
        omega
      rw [List.append_assoc] at h
      obtain ⟨left, hread, hleft⟩ := ih rest b (List.append_cancel_left h)
      refine ⟨left, ?_, hleft⟩
      rw [readExact, if_neg hle, hlen, hread]
      rfl

/-- A stream that ends before. -/
theorem readExact_short : ∀ (chunks : List (List UInt8)) (n : Nat), chunks.flatten.length < n →
    ∃ left, readExact n chunks = (none, left) ∧ left.flatten = [] := by
  intro chunks
  induction chunks with
  | nil =>
    intro n h
    exact ⟨[], by rw [readExact, if_neg (by simp at h; omega)], rfl⟩
  | cons c cs ih =>
    intro n h
    rw [List.flatten_cons, List.length_append] at h
    obtain ⟨left, hread, hleft⟩ := ih (n - c.length) (by omega)
    refine ⟨left, ?_, hleft⟩
    rw [readExact, if_neg (by omega), hread]
    rfl

/-- What is read is taken off the stream. -/
theorem readExact_some : ∀ (chunks : List (List UInt8)) {n : Nat} {a : List UInt8}
    {left : List (List UInt8)}, readExact n chunks = (some a, left) →
      a.length = n ∧ chunks.flatten = a ++ left.flatten := by
  intro chunks n a left h
  rcases Nat.lt_or_ge chunks.flatten.length n with hlt | hge
  · obtain ⟨left', hread, _⟩ := readExact_short chunks n hlt
    rw [hread] at h
    exact absurd (Prod.mk.inj h).1 (by simp)
  · have hlen : (chunks.flatten.take n).length = n := List.length_take_of_le hge
    obtain ⟨left', hread, hleft⟩ :=
      readExact_append chunks _ _ (List.take_append_drop n chunks.flatten).symm
    rw [hlen, h] at hread
    obtain ⟨ha, rfl⟩ := Prod.mk.inj hread
    rw [Option.some.inj ha, hleft]
    exact ⟨hlen, (List.take_append_drop n chunks.flatten).symm⟩

end Framing
