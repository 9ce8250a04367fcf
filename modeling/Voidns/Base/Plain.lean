import Voidns.Base.Text

/-!
# Plain text

A character is plain when it is neither white space nor an apostrophe.  Every
character of an IP address is plain (`plain_of_isIpAddr`): each reader of
`isIpAddr` consumes plain characters only (`Reads`).
-/

namespace Voidns.Text

def Plain (c : Char) : Prop := isWhitespace c = false ∧ c ≠ '\''

/-- `rest` is `s` with some plain characters taken off its front. -/
def Reads (s rest : List Char) : Prop := ∃ ds, s = ds ++ rest ∧ ∀ c ∈ ds, Plain c

namespace Reads

variable {s t u : List Char} {c : Char}

theorem refl : Reads s s := ⟨[], rfl, fun _ h => absurd h (by simp)⟩

theorem trans (h : Reads s t) (h' : Reads t u) : Reads s u := by
  obtain ⟨ds, rfl, hds⟩ := h
  obtain ⟨es, rfl, hes⟩ := h'
  refine ⟨ds ++ es, (List.append_assoc _ _ _).symm, fun c hc => ?_⟩
  rcases List.mem_append.mp hc with hc | hc
  · exact hds c hc
  · exact hes c hc

theorem cons (hc : Plain c) (h : Reads s t) : Reads (c :: s) t := by
  obtain ⟨ds, rfl, hds⟩ := h
  refine ⟨c :: ds, rfl, fun d hd => ?_⟩
  rcases List.mem_cons.mp hd with rfl | hd
  · exact hc
  · exact hds d hd

end Reads

/-! ### Each reader reads plain characters -/

theorem plain_of_toNat {c : Char} (h : 40 ≤ c.toNat) (h' : c.toNat ≤ 122) : Plain c := by
  constructor
  · simp only [isWhitespace, Bool.or_eq_false_iff, Bool.and_eq_false_iff, decide_eq_false_iff_not,
      beq_eq_false_iff_ne]
    omega
  · rintro rfl
    exact absurd h (by decide)

theorem plain_of_toDigit {radix d : Nat} {c : Char} (h : toDigit radix c = some d) : Plain c := by
  have hle : ∀ a : Char, a ≤ c → a.toNat ≤ c.toNat := fun a ha => ha
  have hge : ∀ a : Char, c ≤ a → c.toNat ≤ a.toNat := fun a ha => ha
  by_cases h0 : '0' ≤ c ∧ c ≤ '9'
  · have h1 := hle _ h0.1
    have h2 := hge _ h0.2
    exact plain_of_toNat (le_trans (by decide) h1) (le_trans h2 (by decide))
  by_cases ha : 'a' ≤ c ∧ c ≤ 'z'
  · have h1 := hle _ ha.1
    have h2 := hge _ ha.2
    exact plain_of_toNat (le_trans (by decide) h1) (le_trans h2 (by decide))
  by_cases hA : 'A' ≤ c ∧ c ≤ 'Z'
  · have h1 := hle _ hA.1
    have h2 := hge _ hA.2
    exact plain_of_toNat (le_trans (by decide) h1) (le_trans h2 (by decide))
  · rw [toDigit, if_neg h0, if_neg ha, if_neg hA] at h
    exact absurd h (by simp)

theorem readDigits_reads (radix : Nat) : ∀ (s : List Char) (value count : Nat),
    Reads s (readDigits radix s value count).2.2 := by
  intro s
  induction s with
  | nil => intro value count; exact .refl
  | cons c cs ih =>
    intro value count
    rw [readDigits]
    cases hd : toDigit radix c with
    | none => exact .refl
    | some d => exact (ih _ _).cons (plain_of_toDigit hd)

theorem readNumber_reads {radix maxDigits bound : Nat} {allowZeroPrefix : Bool}
    {s rest : List Char} (h : readNumber radix maxDigits bound allowZeroPrefix s = some rest) :
    Reads s rest := by
  have hd := readDigits_reads radix s 0 0
  unfold readNumber at h
  split at h
  rename_i hread
  rw [hread] at hd
  split at h
  · exact absurd h (by simp)
  split at h
  · exact absurd h (by simp)
  split at h
  · exact absurd h (by simp)
  · rwa [← Option.some.inj h]

theorem readGivenChar_reads {c : Char} (hc : Plain c) {s rest : List Char}
    (h : readGivenChar c s = some rest) : Reads s rest := by
  cases s with
  | nil => exact absurd h (by simp [readGivenChar])
  | cons d cs =>
    by_cases hd : d = c
    · rw [readGivenChar, if_pos hd] at h
      rw [← Option.some.inj h, hd]
      exact Reads.refl.cons hc
    · rw [readGivenChar, if_neg hd] at h
      exact absurd h (by simp)

/-- An item reader that reads plain characters. -/
def ReadsPlain (item : List Char → Option (List Char)) : Prop :=
  ∀ s rest, item s = some rest → Reads s rest

theorem ReadsPlain.bind {f g : List Char → Option (List Char)} (hf : ReadsPlain f)
    (hg : ReadsPlain g) : ReadsPlain fun s => (f s).bind g := by
  intro s rest h
  obtain ⟨t, ht, hr⟩ := Option.bind_eq_some_iff.mp h
  exact (hf s t ht).trans (hg t rest hr)

theorem readSeparator_reads {sep : Char} (hc : Plain sep) (index : Nat)
    {item : List Char → Option (List Char)} (hi : ReadsPlain item) :
    ReadsPlain (readSeparator sep index item) := by
  intro s rest h
  rw [readSeparator] at h
  split at h
  · obtain ⟨t, ht, hr⟩ := Option.bind_eq_some_iff.mp h
    exact (readGivenChar_reads hc ht).trans (hi t rest hr)
  · exact hi s rest h

theorem plain_dot : Plain '.' := plain_of_toNat (by decide) (by decide)

theorem plain_colon : Plain ':' := plain_of_toNat (by decide) (by decide)

theorem readIpv4Addr_reads : ReadsPlain readIpv4Addr := by
  have hoctet : ∀ i, ReadsPlain (readSeparator '.' i (readNumber 10 3 255 false)) :=
    fun i => readSeparator_reads plain_dot i fun _ _ => readNumber_reads
  exact (((hoctet 0).bind (hoctet 1)).bind (hoctet 2)).bind (hoctet 3)

theorem readGroups_reads (limit : Nat) : ∀ (left : Nat) (s : List Char),
    Reads s (readGroups limit left s).2.2 := by
  intro left
  induction left with
  | zero => intro s; exact .refl
  | succ left ih =>
    intro s
    have h4 := readSeparator_reads plain_colon (limit - (left + 1)) readIpv4Addr_reads
    have h6 : ReadsPlain (readSeparator ':' (limit - (left + 1)) (readNumber 16 4 0xffff true)) :=
      readSeparator_reads plain_colon _ fun _ _ => readNumber_reads
    rw [readGroups]
    split
    · rename_i rest hrest
      split at hrest
      · exact h4 s rest hrest
      · exact absurd hrest (by simp)
    · split
      · rename_i rest hrest
        exact (h6 s rest hrest).trans (ih rest)
      · exact .refl

theorem readIpv6Addr_reads : ReadsPlain readIpv6Addr := by
  intro s rest h
  have hhead := readGroups_reads 8 8 s
  have hcolon : ReadsPlain (readGivenChar ':') := fun _ _ => readGivenChar_reads plain_colon
  unfold readIpv6Addr at h
  split at h
  rename_i headSize headIpv4 t ht
  rw [ht] at hhead
  split at h
  · rwa [← Option.some.inj h]
  split at h
  · exact absurd h (by simp)
  · obtain ⟨u, hu, rfl⟩ := Option.map_eq_some_iff.mp h
    exact hhead.trans (((hcolon.bind hcolon) t u hu).trans (readGroups_reads _ _ u))

/-- **An IP address is plain text.** -/
theorem plain_of_isIpAddr {s : List Char} (h : isIpAddr s = true) : ∀ c ∈ s, Plain c := by
  have hr : Reads s [] := by
    rw [isIpAddr, beq_iff_eq, Option.or_eq_some_iff] at h
    rcases h with h | ⟨_, h⟩
    · exact readIpv4Addr_reads s [] h
    · exact readIpv6Addr_reads s [] h
  obtain ⟨ds, rfl, hds⟩ := hr
  rwa [List.append_nil]

end Voidns.Text
