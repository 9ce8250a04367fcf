import Mathlib.Data.List.Chain
import Voidns.Base.Plain

/-!
# Printed text

What a program prints, line by line and word by word, and what `lines`, `trim`
and `split_whitespace` make of it.  A line may end in `\n` or `\r\n`, the last one
also without (`Printed`); words stand apart by any white space.  Plain text goes
through `lines` and `trim` unchanged.

Words joined with single blanks are a text again, but not always the one they
were split from: `intercalate_splitWhitespace_iff`.
-/

namespace Voidns.Text

/-! ### Lines -/

/-- The text prints these lines. -/
inductive Printed : List (List Char) → List Char → Prop
  | nil : Printed [] []
  /-- The last line may lack its end. -/
  | last {l : List Char} : l ≠ [] → Printed [l] l
  | lf (l : List Char) {ls : List (List Char)} {t : List Char} : Printed ls t →
      Printed (l :: ls) (l ++ '\n' :: t)
  | crlf (l : List Char) {ls : List (List Char)} {t : List Char} : Printed ls t →
      Printed (l :: ls) (l ++ '\r' :: '\n' :: t)

theorem printed_flatMap (ls : List (List Char)) : Printed ls (ls.flatMap (· ++ ['\n'])) := by
  induction ls with
  | nil => exact .nil
  | cons l ls ih =>
    rw [List.flatMap_cons, List.append_assoc]
    exact .lf l ih

theorem Printed.forall {p : Char → Prop} {ls : List (List Char)} {t : List Char} (h : Printed ls t)
    (hlf : p '\n') (hcr : p '\r') : (∀ l ∈ ls, ∀ c ∈ l, p c) → ∀ c ∈ t, p c := by
  induction h with
  | nil => exact fun _ _ hc => absurd hc (by simp)
  | last _ => exact fun hl => hl _ List.mem_cons_self
  | lf l _ ih =>
    intro hl
    have hrest := ih fun k hk => hl k (List.mem_cons_of_mem _ hk)
    exact List.forall_mem_append.mpr ⟨hl l List.mem_cons_self, List.forall_mem_cons.mpr ⟨hlf, hrest⟩⟩
  | crlf l _ ih =>
    intro hl
    have hrest := ih fun k hk => hl k (List.mem_cons_of_mem _ hk)
    exact List.forall_mem_append.mpr ⟨hl l List.mem_cons_self,
      List.forall_mem_cons.mpr ⟨hcr, List.forall_mem_cons.mpr ⟨hlf, hrest⟩⟩⟩

theorem Printed.isInfix {ls : List (List Char)} {t : List Char} (h : Printed ls t) :
    ∀ l ∈ ls, l <:+: t := by
  induction h with
  | nil => exact fun _ h => absurd h (by simp)
  | last _ => exact List.forall_mem_singleton.mpr List.infix_rfl
  | @lf l ls t _ ih =>
    refine List.forall_mem_cons.mpr ⟨(List.prefix_append _ _).isInfix, fun k hk => ?_⟩
    exact (ih k hk).trans ((List.suffix_cons '\n' t).trans (List.suffix_append l _)).isInfix
  | @crlf l ls t _ ih =>
    refine List.forall_mem_cons.mpr ⟨(List.prefix_append _ _).isInfix, fun k hk => ?_⟩
    have htail : t <:+ '\r' :: '\n' :: t := ⟨['\r', '\n'], rfl⟩
    exact (ih k hk).trans (htail.trans (List.suffix_append l _)).isInfix

theorem linesFrom_append : ∀ (l cs cur : List Char), '\n' ∉ l →
    linesFrom (l ++ '\n' :: cs) cur = stripCr (l.reverse ++ cur) :: linesFrom cs [] := by
  intro l
  induction l with
  | nil => intro cs cur _; rfl
  | cons c l ih =>
    intro cs cur hn
    have hc : c ≠ '\n' := fun h => hn (by rw [h]; exact List.mem_cons_self)
    have hl : '\n' ∉ l := fun h => hn (List.mem_cons_of_mem _ h)
    rw [List.cons_append, linesFrom, ih cs _ hl, List.reverse_cons, List.append_assoc]
    · rfl
    · exact hc

theorem linesFrom_last : ∀ (l cur : List Char), '\n' ∉ l → l.reverse ++ cur ≠ [] →
    linesFrom l cur = [(l.reverse ++ cur).reverse] := by
  intro l
  induction l with
  | nil =>
    intro cur _ hne
    cases cur with
    | nil => exact absurd rfl hne
    | cons c cur => rfl
  | cons c l ih =>
    intro cur hn hne
    have hc : c ≠ '\n' := fun h => hn (by rw [h]; exact List.mem_cons_self)
    have hl : '\n' ∉ l := fun h => hn (List.mem_cons_of_mem _ h)
    rw [List.reverse_cons, List.append_assoc] at hne ⊢
    rw [linesFrom, ih (c :: cur) hl hne]
    · rfl
    · exact hc

/-- A carriage return at the end of a line may be part of the line's end. -/
theorem stripCr_cases (l : List Char) :
    stripCr l.reverse = l ∨ l = stripCr l.reverse ++ ['\r'] := by
  unfold stripCr
  split
  · rename_i cs hcs
    refine .inr ?_
    rw [← List.reverse_reverse l, hcs, List.reverse_cons]
  · exact .inl (List.reverse_reverse l)

/-- **Printed lines are read back**, but for a carriage return at the end of one. -/
theorem lines_printed {ls : List (List Char)} {t : List Char} (h : Printed ls t) :
    (∀ l ∈ ls, '\n' ∉ l) → List.Forall₂ (fun l m => m = l ∨ l = m ++ ['\r']) ls (lines t) := by
  induction h with
  | nil => exact fun _ => .nil
  | @last l hne =>
    intro hn
    have hlast : lines l = [l] := by
      rw [lines, linesFrom_last l [] (hn l List.mem_cons_self) (by simpa using hne), List.append_nil,
        List.reverse_reverse]
    rw [hlast]
    exact .cons (.inl rfl) .nil
  | @lf l ls t _ ih =>
    intro hn
    rw [lines, linesFrom_append l _ _ (hn l List.mem_cons_self), List.append_nil]
    exact .cons (stripCr_cases l) (ih fun m hm => hn m (List.mem_cons_of_mem _ hm))
  | @crlf l ls t _ ih =>
    intro hn
    have hcr : '\n' ∉ l ++ ['\r'] := fun h => by
      rcases List.mem_append.mp h with h | h
      · exact hn l List.mem_cons_self h
      · exact absurd (List.mem_singleton.mp h) (by decide)
    have hsplit : l ++ '\r' :: '\n' :: t = l ++ ['\r'] ++ '\n' :: t := by simp
    have hstrip : stripCr ((l ++ ['\r']).reverse ++ []) = l := by
      rw [List.append_nil, List.reverse_append]
      exact List.reverse_reverse l
    rw [hsplit, lines, linesFrom_append _ _ _ hcr, hstrip]
    exact .cons (.inl rfl) (ih fun m hm => hn m (List.mem_cons_of_mem _ hm))

/-- A line with no line break in it and none to mistake at its end. -/
def OneLine (l : List Char) : Prop := '\n' ∉ l ∧ l.getLast? ≠ some '\r'

instance (l : List Char) : Decidable (OneLine l) := inferInstanceAs (Decidable (_ ∧ _))

theorem read_oneLine {ls ms : List (List Char)}
    (h : List.Forall₂ (fun l m => m = l ∨ l = m ++ ['\r']) ls ms) :
    (∀ l ∈ ls, OneLine l) → ms = ls := by
  induction h with
  | nil => exact fun _ => rfl
  | @cons l m ls ms hm _ ih =>
    intro hl
    have hcr : l ≠ m ++ ['\r'] := fun he =>
      (hl l List.mem_cons_self).2 (by rw [he, List.getLast?_concat])
    rw [hm.resolve_right hcr, ih fun k hk => hl k (List.mem_cons_of_mem _ hk)]

theorem lines_eq {ls : List (List Char)} {t : List Char} (h : Printed ls t)
    (hl : ∀ l ∈ ls, OneLine l) : lines t = ls :=
  read_oneLine (lines_printed h fun l hm => (hl l hm).1) hl

/-- The lines after a heading. -/
theorem lines_drop_one {l : List Char} {ls : List (List Char)} {t : List Char}
    (h : Printed (l :: ls) t) (hn : '\n' ∉ l) (hl : ∀ k ∈ ls, OneLine k) :
    (lines t).drop 1 = ls := by
  have hread := lines_printed h fun k hk => by
    rcases List.mem_cons.mp hk with rfl | hk
    · exact hn
    · exact (hl k hk).1
  obtain ⟨m, ms, _, hms, heq⟩ := List.forall₂_cons_left_iff.mp hread
  rw [heq, List.drop_one, List.tail_cons, read_oneLine hms hl]

/-! ### White space at the ends -/

/-- No leading or trailing white space. -/
def Trimmed (s : List Char) : Prop :=
  (∀ c ∈ s.head?, isWhitespace c = false) ∧ ∀ c ∈ s.getLast?, isWhitespace c = false

instance (s : List Char) : Decidable (Trimmed s) :=
  have (o : Option Char) : Decidable (∀ c ∈ o, isWhitespace c = false) := Option.decidableForallMem o
  inferInstanceAs (Decidable (_ ∧ _))

theorem dropWhile_head {s : List Char} (h : ∀ c ∈ s.head?, isWhitespace c = false) :
    s.dropWhile isWhitespace = s := by
  cases s with
  | nil => rfl
  | cons c s => exact List.dropWhile_cons_of_neg (by rw [h c rfl]; simp)

theorem dropWhile_gap {gap s : List Char} (h : ∀ c ∈ gap, isWhitespace c = true) :
    (gap ++ s).dropWhile isWhitespace = s.dropWhile isWhitespace := by
  induction gap with
  | nil => rfl
  | cons c gap ih =>
    rw [List.cons_append, List.dropWhile_cons_of_pos (h c List.mem_cons_self),
      ih fun d hd => h d (List.mem_cons_of_mem _ hd)]

/-- **Trimming takes off** what is around a trimmed text. -/
theorem trim_around {l s r : List Char} (hs : Trimmed s) (hne : s ≠ [])
    (hl : ∀ c ∈ l, isWhitespace c = true) (hr : ∀ c ∈ r, isWhitespace c = true) :
    trim (l ++ s ++ r) = s := by
  have hfront : (l ++ s ++ r).dropWhile isWhitespace = s ++ r := by
    rw [List.append_assoc, dropWhile_gap hl]
    refine dropWhile_head fun c hc => hs.1 c ?_
    rwa [List.head?_append_of_ne_nil s hne] at hc
  have hback : (s ++ r).reverse.dropWhile isWhitespace = s.reverse := by
    rw [List.reverse_append, dropWhile_gap fun c hc => hr c (List.mem_reverse.mp hc)]
    refine dropWhile_head fun c hc => hs.2 c ?_
    rwa [List.head?_reverse] at hc
  rw [trim, hfront, hback, List.reverse_reverse]

theorem Trimmed.oneLine {s : List Char} (h : Trimmed s) (hn : '\n' ∉ s) : OneLine s :=
  ⟨hn, fun hr => absurd (h.2 '\r' hr) (by decide)⟩

/-! ### Plain text -/

/-- Trimmed text stays as it is. -/
theorem trim_eq {s : List Char} (h : Trimmed s) : trim s = s := by
  have hback : ∀ c ∈ s.reverse.head?, isWhitespace c = false := by
    rw [List.head?_reverse]
    exact h.2
  rw [trim, dropWhile_head h.1, dropWhile_head hback, List.reverse_reverse]

theorem trimmed_plain {l : List Char} (h : ∀ c ∈ l, Plain c) : Trimmed l :=
  ⟨fun c hc => (h c (List.mem_of_head? hc)).1, fun c hc => (h c (List.mem_of_getLast? hc)).1⟩

/-- **Lines of plain text** are read back as they were printed. -/
theorem lines_flatMap {ls : List (List Char)} (h : ∀ l ∈ ls, ∀ c ∈ l, Plain c) :
    lines (ls.flatMap (· ++ ['\n'])) = ls := by
  refine lines_eq (printed_flatMap ls) fun l hl => (trimmed_plain (h l hl)).oneLine fun hn => ?_
  exact absurd (h l hl _ hn).1 (by decide)

/-! ### Words -/

/-- A text without white space. -/
def IsWord (w : List Char) : Prop := w ≠ [] ∧ ∀ c ∈ w, isWhitespace c = false

instance (w : List Char) : Decidable (IsWord w) :=
  have : Decidable (∀ c ∈ w, isWhitespace c = false) := List.decidableBAll _ w
  inferInstanceAs (Decidable (_ ∧ _))

theorem wordsFrom_append : ∀ (w s cur : List Char), (∀ c ∈ w, isWhitespace c = false) →
    wordsFrom (w ++ s) cur = wordsFrom s (w.reverse ++ cur) := by
  intro w
  induction w with
  | nil => intro s cur _; rfl
  | cons c w ih =>
    intro s cur h
    rw [List.cons_append, wordsFrom, h c List.mem_cons_self, if_neg (by simp),
      ih s _ fun d hd => h d (List.mem_cons_of_mem _ hd), List.reverse_cons, List.append_assoc]
    rfl

theorem wordsFrom_gap : ∀ (gap s : List Char), (∀ c ∈ gap, isWhitespace c = true) →
    wordsFrom (gap ++ s) [] = wordsFrom s [] := by
  intro gap
  induction gap with
  | nil => intro s _; rfl
  | cons c gap ih =>
    intro s h
    rw [List.cons_append, wordsFrom, if_pos (h c List.mem_cons_self), if_pos rfl,
      ih s fun d hd => h d (List.mem_cons_of_mem _ hd)]

/-- **A word before white space** is the first word. -/
theorem splitWhitespace_word {w gap : List Char} (s : List Char) (hw : IsWord w) (hne : gap ≠ [])
    (hgap : ∀ c ∈ gap, isWhitespace c = true) :
    splitWhitespace (w ++ (gap ++ s)) = w :: splitWhitespace s := by
  cases gap with
  | nil => exact absurd rfl hne
  | cons c gap =>
    have hrev : w.reverse ≠ [] := fun h => hw.1 (List.reverse_eq_nil_iff.mp h)
    rw [splitWhitespace, wordsFrom_append w _ _ hw.2, List.append_nil, List.cons_append, wordsFrom,
      if_pos (hgap c List.mem_cons_self), if_neg hrev, List.reverse_reverse,
      wordsFrom_gap gap s fun d hd => hgap d (List.mem_cons_of_mem _ hd)]
    rfl

theorem IsWord.trimmed {w : List Char} (h : IsWord w) : Trimmed w :=
  ⟨fun c hc => h.2 c (List.mem_of_mem_head? hc), fun c hc => h.2 c (List.mem_of_mem_getLast? hc)⟩

theorem IsWord.oneLine {w : List Char} (h : IsWord w) : OneLine w :=
  h.trimmed.oneLine fun hn => absurd (h.2 _ hn) (by decide)

theorem IsWord.splitWhitespace_eq {w : List Char} (h : IsWord w) : splitWhitespace w = [w] := by
  have hne : w.reverse ≠ [] := fun hr => h.1 (List.reverse_eq_nil_iff.mp hr)
  have hscan := wordsFrom_append w [] [] h.2
  rw [List.append_nil, List.append_nil] at hscan
  rw [splitWhitespace, hscan, wordsFrom, List.reverse_reverse]
  exact hne

/-- Words are words. -/
theorem isWord_of_mem_wordsFrom : ∀ (s cur : List Char), (∀ c ∈ cur, isWhitespace c = false) →
    ∀ w ∈ wordsFrom s cur, IsWord w := by
  intro s
  induction s with
  | nil =>
    intro cur hcur w hw
    cases cur with
    | nil => exact absurd hw (by simp [wordsFrom])
    | cons c cur =>
      rw [wordsFrom, List.mem_singleton] at hw
      · rw [hw]
        exact ⟨by simp, fun d hd => hcur d (List.mem_reverse.mp hd)⟩
      · simp
  | cons c s ih =>
    intro cur hcur w hw
    rw [wordsFrom] at hw
    split at hw
    · split at hw
      · exact ih [] (by simp) w hw
      · rename_i hne
        rcases List.mem_cons.mp hw with rfl | hw
        · exact ⟨fun h => hne (List.reverse_eq_nil_iff.mp h), fun d hd => hcur d (List.mem_reverse.mp hd)⟩
        · exact ih [] (by simp) w hw
    · rename_i hc
      refine ih (c :: cur) (fun d hd => ?_) w hw
      rcases List.mem_cons.mp hd with rfl | hd
      · simpa using hc
      · exact hcur d hd

theorem wordsFrom_ne_nil : ∀ (s cur : List Char), cur ≠ [] → wordsFrom s cur ≠ [] := by
  intro s
  induction s with
  | nil =>
    intro cur h
    cases cur with
    | nil => exact absurd rfl h
    | cons c cur => simp [wordsFrom]
  | cons c s ih =>
    intro cur h
    rw [wordsFrom]
    split
    · exact List.cons_ne_nil _ _
    · exact ih _ (List.cons_ne_nil _ _)

theorem splitWhitespace_ne_nil {s : List Char} (h : Trimmed s) (hne : s ≠ []) :
    splitWhitespace s ≠ [] := by
  cases s with
  | nil => exact absurd rfl hne
  | cons c s =>
    rw [splitWhitespace, wordsFrom, h.1 c rfl, if_neg (by simp)]
    exact wordsFrom_ne_nil s _ (List.cons_ne_nil _ _)

/-- Every white space in it is one blank. -/
def SingleSpaced (s : List Char) : Prop :=
  (∀ c ∈ s, isWhitespace c = true → c = ' ') ∧
    s.IsChain fun a b => isWhitespace a = false ∨ isWhitespace b = false

instance (s : List Char) : Decidable (SingleSpaced s) :=
  have : Decidable (∀ c ∈ s, isWhitespace c = true → c = ' ') := List.decidableBAll _ s
  inferInstanceAs (Decidable (_ ∧ _))

theorem SingleSpaced.tail {c : Char} {s : List Char} (h : SingleSpaced (c :: s)) :
    SingleSpaced s :=
  ⟨fun d hd => h.1 d (List.mem_cons_of_mem _ hd), (List.isChain_cons.mp h.2).2⟩

theorem IsWord.singleSpaced {w : List Char} (h : IsWord w) : SingleSpaced w :=
  ⟨fun c hc hwhite => absurd hwhite (by rw [h.2 c hc]; simp),
    (List.pairwise_of_forall_mem_list fun a ha _ _ => .inl (h.2 a ha)).isChain⟩

theorem head?_intercalate {ws : List (List Char)} (h : ∀ w ∈ ws, IsWord w) :
    ∀ c ∈ ([' '].intercalate ws).head?, isWhitespace c = false := by
  intro c hc
  cases ws with
  | nil => exact absurd hc (by simp)
  | cons w ws =>
    have hw := h w List.mem_cons_self
    have hfront : ∃ rest, [' '].intercalate (w :: ws) = w ++ rest := by
      by_cases hne : ws = []
      · exact ⟨[], by rw [hne, List.intercalate_singleton, List.append_nil]⟩
      · exact ⟨_, by rw [List.intercalate_cons_of_ne_nil hne, List.append_assoc]⟩
    obtain ⟨rest, hrest⟩ := hfront
    rw [hrest, List.head?_append_of_ne_nil w hw.1] at hc
    exact hw.2 c (List.mem_of_mem_head? hc)

/-- Words joined with single blanks are single-spaced. -/
theorem singleSpaced_intercalate : ∀ {ws : List (List Char)}, (∀ w ∈ ws, IsWord w) →
    SingleSpaced ([' '].intercalate ws) := by
  intro ws
  induction ws with
  | nil => exact fun _ => ⟨fun _ h => absurd h (by simp), .nil⟩
  | cons w ws ih =>
    intro h
    have hw := h w List.mem_cons_self
    have hws : ∀ v ∈ ws, IsWord v := fun v hv => h v (List.mem_cons_of_mem _ hv)
    by_cases hne : ws = []
    · rw [hne, List.intercalate_singleton]
      exact hw.singleSpaced
    · rw [List.intercalate_cons_of_ne_nil hne, List.append_assoc]
      refine ⟨fun c hc hwhite => ?_, hw.singleSpaced.2.append ?_ fun c hc _ _ => ?_⟩
      · rcases List.mem_append.mp hc with hc | hc
        · exact hw.singleSpaced.1 c hc hwhite
        rcases List.mem_append.mp hc with hc | hc
        · exact List.mem_singleton.mp hc
        · exact (ih hws).1 c hc hwhite
      · exact List.isChain_cons.mpr ⟨fun c hc => .inr (head?_intercalate hws c hc), (ih hws).2⟩
      · exact .inl (hw.2 c (List.mem_of_mem_getLast? hc))

/-- The blanks between the words are found again: the scan stands in a word whose
characters so far are `cur`. -/
theorem intercalate_wordsFrom : ∀ (s cur : List Char),
    (cur = [] → ∀ c ∈ s.head?, isWhitespace c = false) →
    (∀ c ∈ s.getLast?, isWhitespace c = false) → SingleSpaced s →
    [' '].intercalate (wordsFrom s cur) = cur.reverse ++ s := by
  intro s
  induction s with
  | nil =>
    intro cur _ _ _
    cases cur with
    | nil => rfl
    | cons c cur => rw [wordsFrom, List.intercalate_singleton, List.append_nil]; simp
  | cons c s ih =>
    intro cur hhead hlast hs
    have htail : ∀ d ∈ s.getLast?, isWhitespace d = false := fun d hd => hlast d (by
      rw [List.getLast?_cons, Option.mem_def.mp hd]; rfl)
    rw [wordsFrom]
    by_cases hc : isWhitespace c = true
    · have hcur : cur ≠ [] := fun h => absurd hc (by rw [hhead h c rfl]; simp)
      have hblank : c = ' ' := hs.1 c List.mem_cons_self hc
      have hnext : ∀ d ∈ s.head?, isWhitespace d = false := fun d hd =>
        ((List.isChain_cons.mp hs.2).1 d hd).resolve_left (by rw [hc]; simp)
      have hne : s ≠ [] := fun h => absurd hc (by rw [hlast c (by rw [h]; rfl)]; simp)
      have hrest := ih [] (fun _ => hnext) htail hs.tail
      have hwords : wordsFrom s [] ≠ [] := fun h => hne (by
        rw [h] at hrest
        exact hrest.symm)
      rw [if_pos hc, if_neg hcur, List.intercalate_cons_of_ne_nil hwords, hrest, hblank]
      simp
    · rw [if_neg hc, ih (c :: cur) (by simp) htail hs.tail, List.reverse_cons, List.append_assoc]
      rfl

/-- **A trimmed text comes back** from its words exactly when it is single-spaced. -/
theorem intercalate_splitWhitespace_iff {s : List Char} (h : Trimmed s) :
    [' '].intercalate (splitWhitespace s) = s ↔ SingleSpaced s := by
  constructor
  · intro he
    rw [← he]
    exact singleSpaced_intercalate (isWord_of_mem_wordsFrom s [] (by simp))
  · exact intercalate_wordsFrom s [] (fun _ => h.1) h.2

theorem intercalate_ofList (ws : List (List Char)) :
    " ".intercalate (ws.map String.ofList) = String.ofList ([' '].intercalate ws) := by
  have hsame : ∀ w : List Char, (String.toList ∘ String.ofList) w = id w := fun _ => String.toList_ofList
  rw [← String.toList_inj, String.toList_intercalate, List.map_map,
    List.map_congr_left fun w _ => hsame w, List.map_id]
  exact String.toList_ofList.symm

end Voidns.Text
