import Voidns.Base.Text

/-!
# Numbers

`str::parse::<u16>`, which reads the ports of the command lines and of `VOIDNS_PORT`: a
sign `+` may stand before the digits, leading zeros are read, and a digit that is none
comes before the overflow it stands behind.
-/

namespace Voidns

open Text

/-- `IntErrorKind`, as far as a `u16` meets it. -/
inductive IntErrorKind where
  | empty
  | invalidDigit
  | posOverflow
  deriving DecidableEq, Repr

/-- `Display` of a `ParseIntError`. -/
def IntErrorKind.text : IntErrorKind → String
  | empty => "cannot parse integer from empty string"
  | invalidDigit => "invalid digit found in string"
  | posOverflow => "number too large to fit in target type"

/-- The digits after those that make up `n`. -/
def readU16 : Nat → List Char → Except IntErrorKind Nat
  | n, [] => .ok n
  | n, c :: cs =>
    match toDigit 10 c with
    | none => .error .invalidDigit
    | some d => if n * 10 + d < UInt16.size then readU16 (n * 10 + d) cs else .error .posOverflow

/-- `u16::from_str`. -/
def parseU16 (s : String) : Except IntErrorKind UInt16 :=
  match s.toList with
  | [] => .error .empty
  | ['+'] | ['-'] => .error .invalidDigit
  | '+' :: cs | cs => (readU16 0 cs).map UInt16.ofNat

example : ["443", "+0053", "65535", "65536x", "+", "-1", "4 3", ""].map parseU16 =
    [.ok 443, .ok 53, .ok 65535, .error .posOverflow, .error .invalidDigit, .error .invalidDigit,
      .error .invalidDigit, .error .empty] := by decide

theorem toDigit_digit {c : Char} (h : c.isDigit = true) : toDigit 10 c = some (c.toNat - 48) := by
  obtain ⟨hlo, hhi⟩ := Char.isDigit_iff_toNat.mp h
  have hlo : 48 ≤ c.toNat := hlo
  have hhi : c.toNat ≤ 57 := hhi
  unfold toDigit
  rw [if_pos ⟨Char.le_def.mpr (UInt32.le_iff_toNat_le.mpr hlo),
    Char.le_def.mpr (UInt32.le_iff_toNat_le.mpr hhi)⟩]
  have h10 : c.toNat - 48 < 10 := by omega
  simp [h10]

theorem toDigit_none {c : Char} (h : c.isDigit = false) : toDigit 10 c = none := by
  have hnot : ¬('0' ≤ c ∧ c ≤ '9') := fun hc => by
    have hdigit : c.isDigit = true := Char.isDigit_iff_toNat.mpr
      ⟨UInt32.le_iff_toNat_le.mp (Char.le_def.mp hc.1), UInt32.le_iff_toNat_le.mp (Char.le_def.mp hc.2)⟩
    exact absurd (h.symm.trans hdigit) (by simp)
  unfold toDigit
  rw [if_neg hnot]
  -- a letter stands for ten or more
  split
  · simp
  · split
    · simp
    · rfl

theorem readU16_ok : ∀ (cs : List Char) {n m : Nat}, n < UInt16.size →
    (readU16 n cs = .ok m ↔
      (∀ c ∈ cs, c.isDigit = true) ∧ Nat.ofDigitChars 10 cs n = m ∧ m < UInt16.size) := by
  intro cs
  induction cs with
  | nil =>
    intro n m hn
    rw [readU16, Nat.ofDigitChars_nil]
    exact ⟨fun h => ⟨fun c hc => absurd hc (by simp), Except.ok.inj h, Except.ok.inj h ▸ hn⟩,
      fun h => congrArg Except.ok h.2.1⟩
  | cons c cs ih =>
    intro n m hn
    cases hc : c.isDigit with
    | false =>
      rw [readU16, toDigit_none hc]
      exact ⟨fun h => absurd h (by simp),
        fun h => absurd (hc.symm.trans (h.1 c List.mem_cons_self)) (by simp)⟩
    | true =>
      have hvalue : Nat.ofDigitChars 10 (c :: cs) n = Nat.ofDigitChars 10 cs (n * 10 + (c.toNat - 48)) := by
        rw [Nat.ofDigitChars_cons, Nat.mul_comm]
        rfl
      rw [readU16, toDigit_digit hc, hvalue, List.forall_mem_cons]
      by_cases hlt : n * 10 + (c.toNat - 48) < UInt16.size
      · simp only [if_pos hlt, ih hlt, hc, true_and]
      · -- the digits to come make it no smaller
        have hge : n * 10 + (c.toNat - 48) ≤ Nat.ofDigitChars 10 cs (n * 10 + (c.toNat - 48)) := by
          rw [Nat.ofDigitChars_eq_ofDigitChars_zero]
          exact (Nat.le_mul_of_pos_left _ (Nat.pow_pos (by decide))).trans (Nat.le_add_right _ _)
        simp only [if_neg hlt]
        exact ⟨fun h => absurd h (by simp), fun h => absurd (h.2.1 ▸ hge) (by omega)⟩

/-- **A port is read** from decimal digits of a value below `2 ^ 16`, which may stand
behind a `+` and have leading zeros, and from nothing else. -/
theorem parseU16_ok {s : String} {n : UInt16} : parseU16 s = .ok n ↔
    ∃ cs, (s.toList = cs ∨ s.toList = '+' :: cs) ∧ cs ≠ [] ∧ (∀ c ∈ cs, c.isDigit = true) ∧
      Nat.ofDigitChars 10 cs 0 = n.toNat := by
  have hread : ∀ cs, (readU16 0 cs).map UInt16.ofNat = .ok n ↔
      (∀ c ∈ cs, c.isDigit = true) ∧ Nat.ofDigitChars 10 cs 0 = n.toNat := by
    intro cs
    cases hr : readU16 0 cs with
    | error e =>
      refine ⟨fun h => absurd h (by simp [Except.map]), fun h => ?_⟩
      have hok := (readU16_ok cs (by decide)).mpr ⟨h.1, h.2, n.toNat_lt⟩
      exact absurd (hr.symm.trans hok) (by simp)
    | ok m =>
      obtain ⟨hdigits, hvalue, hlt⟩ := (readU16_ok cs (by decide)).mp hr
      simp only [Except.map, Except.ok.injEq]
      constructor
      · rintro rfl
        exact ⟨hdigits, by rw [hvalue, UInt16.toNat_ofNat', Nat.mod_eq_of_lt hlt]⟩
      · rintro ⟨_, hn⟩
        rw [← hvalue, hn, UInt16.ofNat_toNat]
  have hplus : ('+' : Char).isDigit = false := by decide
  unfold parseU16
  split
  · rename_i hs
    refine ⟨fun h => absurd h (by simp), ?_⟩
    rintro ⟨cs, hcs | hcs, hne, _⟩
    · exact absurd (hcs.symm.trans hs) hne
    · exact absurd (hcs.symm.trans hs) (by simp)
  · rename_i hs
    refine ⟨fun h => absurd h (by simp), ?_⟩
    rintro ⟨cs, hcs | hcs, hne, hd, _⟩
    · exact absurd (hd '+' (by rw [← hcs, hs]; simp)) (by simp [hplus])
    · exact absurd (List.cons.inj (hcs.symm.trans hs)).2 hne
  · rename_i hs
    refine ⟨fun h => absurd h (by simp), ?_⟩
    rintro ⟨cs, hcs | hcs, hne, hd, _⟩
    · exact absurd (hd '-' (by rw [← hcs, hs]; simp)) (by decide)
    · exact absurd (List.cons.inj (hcs.symm.trans hs)).1 (by decide)
  · rename_i cs hne hs
    rw [hread]
    constructor
    · rintro ⟨hd, hv⟩
      exact ⟨cs, .inr hs, fun he => hne (by rw [he]), hd, hv⟩
    · rintro ⟨cs', hcs | hcs, _, hd, hv⟩
      · exact absurd (hd '+' (by rw [← hcs, hs]; simp)) (by simp [hplus])
      · rw [(List.cons.inj (hcs.symm.trans hs)).2] at hd hv
        exact ⟨hd, hv⟩
  · rename_i cs hempty _ _ hnotplus
    rw [hread]
    constructor
    · rintro ⟨hd, hv⟩
      exact ⟨_, .inl rfl, hempty, hd, hv⟩
    · rintro ⟨cs', hcs | hcs, _, hd, hv⟩
      · rw [hcs]
        exact ⟨hd, hv⟩
      · exact absurd hcs (hnotplus cs')

/-- A port that is printed is read. -/
theorem parseU16_toString (n : UInt16) : parseU16 (toString n.toNat) = .ok n := by
  have hchars : (toString n.toNat).toList = Nat.toDigits 10 n.toNat := by
    rw [Nat.toString_eq_ofList_toDigits, String.toList_ofList]
  refine parseU16_ok.mpr ⟨_, .inl hchars, Nat.toDigits_ne_nil, fun c hc => ?_,
    Nat.ofDigitChars_ten_toDigits⟩
  exact Nat.isDigit_of_mem_toDigits (by decide) (by decide) hc

end Voidns
