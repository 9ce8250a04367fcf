import Mathlib.Tactic.Common

/-!
# JSON values and their compact text

A value is what JSON can say, with whole numbers only.  `text` writes it without
spaces and escapes what a string has to escape; `parse` reads such a text back
(`parse_text`), and does not read the text of an object that is cut short
(`parse_cut`).  `toVec` and `fromSlice` are the same in UTF-8.

The reader takes one step of `fuel` for each level and each element, and the
length of the text is enough of it.  A number is the one value that does not
say where it ends, so what follows a value must not begin with a digit (`Stops`).
-/

inductive Json where
  | null
  | bool (b : Bool)
  | num (n : Int)
  | str (s : String)
  | arr (items : List Json)
  | obj (members : List (String × Json))

namespace Json

/-! ### Writing -/

/-- A character inside a string. -/
def escape (c : Char) : List Char :=
  match c with
  | '"' => ['\\', '"']
  | '\\' => ['\\', '\\']
  | '\n' => ['\\', 'n']
  | '\r' => ['\\', 'r']
  | '\t' => ['\\', 't']
  | '\x08' => ['\\', 'b']
  | '\x0c' => ['\\', 'f']
  | c =>
    if c.toNat < 32 then
      ['\\', 'u', '0', '0', Nat.digitChar (c.toNat / 16), Nat.digitChar (c.toNat % 16)]
    else [c]

def quote (s : String) : List Char := '"' :: (s.toList.flatMap escape ++ ['"'])

def number (n : Int) : List Char :=
  if n < 0 then '-' :: Nat.toDigits 10 n.natAbs else Nat.toDigits 10 n.natAbs

/-- The texts of the elements, with commas between them, and the bracket that
closes them. -/
def separate (close : Char) : List (List Char) → List Char
  | [] => [close]
  | t :: ts => t ++ (ts.flatMap (',' :: ·) ++ [close])

mutual

def text : Json → List Char
  | null => ['n', 'u', 'l', 'l']
  | bool true => ['t', 'r', 'u', 'e']
  | bool false => ['f', 'a', 'l', 's', 'e']
  | num n => number n
  | str s => quote s
  | arr items => '[' :: separate ']' (texts items)
  | obj members => '{' :: separate '}' (memberTexts members)

def texts : List Json → List (List Char)
  | [] => []
  | v :: vs => text v :: texts vs

def memberTexts : List (String × Json) → List (List Char)
  | [] => []
  | (k, v) :: ms => (quote k ++ ':' :: text v) :: memberTexts ms

end

/-! ### Reading -/

/-- The value of a hexadecimal digit. -/
def hexDigit (c : Char) : Option Nat :=
  if c.isDigit then some (c.toNat - 48)
  else if 97 ≤ c.toNat ∧ c.toNat ≤ 102 then some (c.toNat - 87)
  else none

/-- The character a one-letter escape stands for. -/
def unescape : Char → Option Char
  | '"' => some '"'
  | '\\' => some '\\'
  | 'n' => some '\n'
  | 'r' => some '\r'
  | 't' => some '\t'
  | 'b' => some '\x08'
  | 'f' => some '\x0c'
  | _ => none

/-- The rest of a string, after its opening quote. -/
def chars : List Char → Option (List Char × List Char)
  | '"' :: r => some ([], r)
  | '\\' :: 'u' :: a :: b :: c :: d :: r => do
    let n := (← hexDigit a) * 4096 + (← hexDigit b) * 256 + (← hexDigit c) * 16 + (← hexDigit d)
    let (s, r) ← chars r
    some (Char.ofNat n :: s, r)
  | '\\' :: c :: r => do
    let c ← unescape c
    let (s, r) ← chars r
    some (c :: s, r)
  | c :: r => do
    let (s, r) ← chars r
    some (c :: s, r)
  | [] => none

def nat (cs : List Char) : Option (Nat × List Char) :=
  if cs.takeWhile Char.isDigit = [] then none
  else some (Nat.ofDigitChars 10 (cs.takeWhile Char.isDigit) 0, cs.dropWhile Char.isDigit)

section

variable {α : Type}

/-- The elements after the first. -/
def tail (close : Char) (p : List Char → Option (α × List Char)) :
    Nat → List Char → Option (List α × List Char)
  | 0, _ => none
  | _ + 1, [] => none
  | n + 1, c :: cs =>
    if c = ',' then do
      let (x, r) ← p cs
      let (xs, r) ← tail close p n r
      some (x :: xs, r)
    else if c = close then some ([], cs)
    else none

/-- The elements between brackets, after the opening one. -/
def list (close : Char) (p : List Char → Option (α × List Char)) (n : Nat) (cs : List Char) :
    Option (List α × List Char) :=
  match p cs with
  | some (x, r) => do
    let (xs, r) ← tail close p n r
    some (x :: xs, r)
  | none =>
    match cs with
    | c :: cs => if c = close then some ([], cs) else none
    | [] => none

end

def member (p : List Char → Option (Json × List Char)) :
    List Char → Option ((String × Json) × List Char)
  | '"' :: cs => do
    match ← chars cs with
    | (k, ':' :: r) =>
      let (v, r) ← p r
      some ((String.ofList k, v), r)
    | _ => none
  | _ => none

def value : Nat → List Char → Option (Json × List Char)
  | 0, _ => none
  | _ + 1, '"' :: cs => (chars cs).map fun (s, r) => (str (String.ofList s), r)
  | n + 1, '[' :: cs => (list ']' (value n) n cs).map fun (items, r) => (arr items, r)
  | n + 1, '{' :: cs => (list '}' (member (value n)) n cs).map fun (ms, r) => (obj ms, r)
  | _ + 1, 'n' :: 'u' :: 'l' :: 'l' :: cs => some (null, cs)
  | _ + 1, 't' :: 'r' :: 'u' :: 'e' :: cs => some (bool true, cs)
  | _ + 1, 'f' :: 'a' :: 'l' :: 's' :: 'e' :: cs => some (bool false, cs)
  | _ + 1, '-' :: cs => (nat cs).map fun (n, r) => (num (-n), r)
  | _ + 1, cs => (nat cs).map fun (n, r) => (num n, r)

/-- Read a value that is all of the text. -/
def parse (cs : List Char) : Option Json :=
  match value cs.length cs with
  | some (v, []) => some v
  | _ => none

/-- The text in UTF-8. -/
def toVec (v : Json) : List UInt8 := v.text.flatMap String.utf8EncodeChar

def fromSlice (bytes : List UInt8) : Option Json :=
  bytes.toByteArray.utf8Decode?.bind fun cs => parse cs.toList

/-! ### What is written is read -/

/-- The end of the text, or a character that is no digit. -/
def Stops (r : List Char) : Prop := ∀ c ∈ r.head?, c.isDigit = false

@[simp] theorem stops_nil : Stops [] := fun _ h => absurd h (by simp)

@[simp] theorem stops_cons {c : Char} {r : List Char} : Stops (c :: r) ↔ c.isDigit = false := by
  simp [Stops]

theorem hexDigit_digitChar : ∀ d < 16, hexDigit (Nat.digitChar d) = some d := by decide

theorem chars_escape (c : Char) (r : List Char) :
    chars (escape c ++ r) = (chars r).map fun sr => (c :: sr.1, sr.2) := by
  unfold escape
  split
  iterate 7
    rw [List.cons_append, List.cons_append, List.nil_append, chars]
    · cases chars r <;> rfl
    · simp
  rename_i hquote hslash hn hr ht hb hf
  split
  · rename_i hlt
    have hhigh := hexDigit_digitChar (c.toNat / 16) (by omega)
    have hlow := hexDigit_digitChar (c.toNat % 16) (by omega)
    have hzero : hexDigit '0' = some 0 := by decide
    have hc : Char.ofNat (0 * 4096 + 0 * 256 + c.toNat / 16 * 16 + c.toNat % 16) = c := by
      have hn : 0 * 4096 + 0 * 256 + c.toNat / 16 * 16 + c.toNat % 16 = c.toNat := by omega
      rw [hn, Char.ofNat_toNat]
    simp only [List.cons_append, List.nil_append, chars, hhigh, hlow, hzero, Option.bind_eq_bind,
      Option.bind_some, hc]
    cases chars r <;> rfl
  · rw [List.singleton_append, chars.eq_def]
    split
    · simp_all
    · simp_all
    · simp_all
    · rename_i h
      obtain ⟨rfl, rfl⟩ := List.cons.inj h
      cases chars _ <;> rfl
    · simp_all

/-- **A string is read back**, whatever characters are in it. -/
theorem chars_quote (s r : List Char) : chars (s.flatMap escape ++ '"' :: r) = some (s, r) := by
  induction s with
  | nil => rfl
  | cons c s ih => rw [List.flatMap_cons, List.append_assoc, chars_escape, ih]; rfl

theorem nat_toDigits (n : Nat) {r : List Char} (hr : Stops r) :
    nat (Nat.toDigits 10 n ++ r) = some (n, r) := by
  have hdigits : ∀ c ∈ Nat.toDigits 10 n, c.isDigit = true := fun c hc =>
    Nat.isDigit_of_mem_toDigits (by decide) (by decide) hc
  have htake : (Nat.toDigits 10 n ++ r).takeWhile Char.isDigit = Nat.toDigits 10 n := by
    rw [List.takeWhile_append_of_pos hdigits]
    cases r with
    | nil => simp
    | cons c r => rw [List.takeWhile_cons_of_neg (by simp [stops_cons.mp hr]), List.append_nil]
  have hdrop : (Nat.toDigits 10 n ++ r).dropWhile Char.isDigit = r := by
    rw [List.dropWhile_append_of_pos hdigits]
    cases r with
    | nil => rfl
    | cons c r => exact List.dropWhile_cons_of_neg (by simp [stops_cons.mp hr])
  rw [nat, htake, hdrop, if_neg Nat.toDigits_ne_nil, Nat.ofDigitChars_ten_toDigits]

theorem value_number (n : Int) (fuel : Nat) {r : List Char} (hr : Stops r) :
    value (fuel + 1) (number n ++ r) = some (num n, r) := by
  unfold number
  split
  · rename_i hn
    rw [List.cons_append, value, nat_toDigits _ hr]
    have hneg : -(n.natAbs : Int) = n := by omega
    exact congrArg (fun m => some (num m, r)) hneg
  · rename_i hn
    have hpos : (n.natAbs : Int) = n := by omega
    cases hd : Nat.toDigits 10 n.natAbs with
    | nil => exact absurd hd Nat.toDigits_ne_nil
    | cons c cs =>
      have hc : c.isDigit = true :=
        Nat.isDigit_of_mem_toDigits (b := 10) (n := n.natAbs) (by decide) (by decide)
          (hd ▸ List.mem_cons_self)
      rw [List.cons_append, value, ← List.cons_append, ← hd, nat_toDigits _ hr]
      · exact congrArg (fun m => some (num m, r)) hpos
      -- a digit is the beginning of nothing else
      all_goals
        intro cs' h
        obtain rfl := (List.cons.inj h).1
        exact absurd hc (by decide)

section

variable {α : Type} {close : Char} {p : List Char → Option (α × List Char)} {pr : α → List Char}

theorem stops_separate (hclose : close.isDigit = false) (ts : List (List Char)) (r : List Char) :
    Stops (ts.flatMap (',' :: ·) ++ close :: r) := by
  cases ts with
  | nil => exact stops_cons.mpr hclose
  | cons t ts => exact stops_cons.mpr (by decide)

theorem tail_separate (hcomma : close ≠ ',') (hclose : close.isDigit = false) (r : List Char) :
    ∀ (xs : List α) (n : Nat), xs.length < n →
      (∀ x ∈ xs, ∀ r, Stops r → p (pr x ++ r) = some (x, r)) →
      tail close p n ((xs.map pr).flatMap (',' :: ·) ++ close :: r) = some (xs, r) := by
  intro xs
  induction xs with
  | nil =>
    intro n hn _
    cases n with
    | zero => exact absurd hn (by simp)
    | succ n =>
      show (if close = ',' then _ else if close = close then some ([], r) else none) = _
      rw [if_neg hcomma, if_pos rfl]
  | cons x xs ih =>
    intro n hn hp
    cases n with
    | zero => exact absurd hn (by simp)
    | succ n =>
      have hx := hp x List.mem_cons_self _ (stops_separate hclose (xs.map pr) r)
      have hxs := ih n (by simpa using hn) fun y hy => hp y (List.mem_cons_of_mem _ hy)
      rw [List.map_cons, List.flatMap_cons, List.cons_append, List.cons_append, tail, if_pos rfl,
        List.append_assoc, hx]
      show (tail close p n _).bind _ = _
      rw [hxs]
      rfl

/-- **A bracketed list is read back** when each of its elements is. -/
theorem list_separate (close : Char) (hcomma : close ≠ ',') (hclose : close.isDigit = false)
    (hnone : ∀ r, p (close :: r) = none) (r : List Char) (xs : List α) (n : Nat) (hn : xs.length ≤ n)
    (hp : ∀ x ∈ xs, ∀ r, Stops r → p (pr x ++ r) = some (x, r)) :
    list close p n (separate close (xs.map pr) ++ r) = some (xs, r) := by
  cases xs with
  | nil =>
    show list close p n (close :: r) = _
    rw [list, hnone]
    exact if_pos rfl
  | cons x xs =>
    have hx := hp x List.mem_cons_self _ (stops_separate hclose (xs.map pr) r)
    have hxs := tail_separate hcomma hclose r xs n hn fun y hy => hp y (List.mem_cons_of_mem _ hy)
    rw [List.map_cons, separate, List.append_assoc, List.append_assoc, List.singleton_append]
    unfold list
    rw [hx]
    show (tail close p n _).bind _ = _
    rw [hxs]
    rfl

/-- An element is shorter than the list it is in. -/
theorem length_lt_separate (close : Char) {t : List Char} : ∀ {ts : List (List Char)}, t ∈ ts →
    t.length < (separate close ts).length := by
  intro ts ht
  cases ts with
  | nil => exact absurd ht (by simp)
  | cons u ts =>
    rw [separate, List.length_append, List.length_append, List.length_singleton]
    rcases List.mem_cons.mp ht with rfl | ht
    · omega
    · have hle : (',' :: t).length ≤ (ts.flatMap (',' :: ·)).length :=
        (List.sublist_flatten_of_mem (List.mem_map_of_mem ht)).length_le
      rw [List.length_cons] at hle
      omega

theorem length_le_separate (close : Char) (ts : List (List Char)) : ts.length ≤ (separate close ts).length := by
  have htail : ∀ ts : List (List Char), ts.length ≤ (ts.flatMap (',' :: ·)).length := by
    intro ts
    induction ts with
    | nil => simp
    | cons t ts ih =>
      rw [List.flatMap_cons, List.length_append, List.length_cons, List.length_cons]
      omega
  cases ts with
  | nil => simp
  | cons t ts =>
    rw [separate, List.length_append, List.length_append, List.length_cons, List.length_singleton]
    have := htail ts
    omega

end

theorem texts_eq : ∀ vs : List Json, texts vs = vs.map text := by
  intro vs
  induction vs with
  | nil => rfl
  | cons v vs ih => rw [texts, ih, List.map_cons]

theorem memberTexts_eq : ∀ ms : List (String × Json),
    memberTexts ms = ms.map fun m => quote m.1 ++ ':' :: text m.2 := by
  intro ms
  induction ms with
  | nil => rfl
  | cons m ms ih => rw [memberTexts, ih, List.map_cons]

theorem text_ne_nil (v : Json) : v.text ≠ [] := by
  cases v with
  | null => simp [text]
  | bool b => cases b <;> simp [text]
  | num n =>
    rw [text, number]
    split
    · simp
    · exact Nat.toDigits_ne_nil
  | str s => simp [text, quote]
  | arr items => simp [text]
  | obj members => simp [text]

theorem member_text {p : List Char → Option (Json × List Char)} {m : String × Json} {r : List Char}
    (hp : p (m.2.text ++ r) = some (m.2, r)) :
    member p (quote m.1 ++ ':' :: m.2.text ++ r) = some (m, r) := by
  have hquote : quote m.1 ++ ':' :: m.2.text ++ r =
      '"' :: (m.1.toList.flatMap escape ++ '"' :: ':' :: (m.2.text ++ r)) := by
    simp [quote]
  rw [hquote, member, chars_quote]
  show (p (m.2.text ++ r)).bind (fun vr => some ((String.ofList m.1.toList, vr.1), vr.2)) = _
  rw [hp, String.ofList_toList]
  rfl

/-- **A value is read back.**  The induction is on the fuel: an element has a
shorter text than the value it is in. -/
theorem value_text : ∀ (n : Nat) (v : Json) (r : List Char), v.text.length ≤ n → Stops r →
    value n (v.text ++ r) = some (v, r) := by
  intro n
  induction n with
  | zero =>
    intro v r hn _
    exact absurd (List.length_eq_zero_iff.mp (Nat.le_zero.mp hn)) v.text_ne_nil
  | succ n ih =>
    intro v r hn hr
    cases v with
    | null => rfl
    | bool b => cases b <;> rfl
    | num m => exact value_number m n hr
    | str s =>
      rw [text, quote, List.cons_append, List.append_assoc, List.singleton_append, value, chars_quote]
      show some (str (String.ofList s.toList), r) = _
      rw [String.ofList_toList]
    | arr items =>
      rw [text, texts_eq, List.length_cons] at hn
      have hcount := length_le_separate ']' (items.map text)
      rw [List.length_map] at hcount
      have hitems : ∀ v ∈ items, ∀ r, Stops r → value n (v.text ++ r) = some (v, r) := by
        intro v hv r hr
        have hlt := length_lt_separate ']' (List.mem_map_of_mem (f := text) hv)
        exact ih v r (by omega) hr
      have hlist := list_separate ']' (by decide) (by decide) (fun _ => by cases n <;> rfl)
        r items n (by omega) hitems
      rw [text, texts_eq, List.cons_append, value, hlist]
      rfl
    | obj members =>
      rw [text, memberTexts_eq, List.length_cons] at hn
      have hcount := length_le_separate '}' (members.map fun m => quote m.1 ++ ':' :: m.2.text)
      rw [List.length_map] at hcount
      have hmembers : ∀ m ∈ members, ∀ r, Stops r →
          member (value n) (quote m.1 ++ ':' :: m.2.text ++ r) = some (m, r) := by
        intro m hm r hr
        have hlt := length_lt_separate '}'
          (List.mem_map_of_mem (f := fun m : String × Json => quote m.1 ++ ':' :: m.2.text) hm)
        rw [List.length_append, List.length_cons] at hlt
        exact member_text (ih m.2 r (by omega) hr)
      have hlist := list_separate (p := member (value n)) '}' (by decide) (by decide)
        (fun _ => rfl) r members n (by omega) hmembers
      rw [text, memberTexts_eq, List.cons_append, value, hlist]
      rfl

/-- **A text is read back.** -/
theorem parse_text (v : Json) : parse v.text = some v := by
  have hv := value_text v.text.length v [] (Nat.le_refl _) stops_nil
  rw [List.append_nil] at hv
  rw [parse, hv]

/-- **And so it is in UTF-8.** -/
theorem fromSlice_toVec (v : Json) : fromSlice v.toVec = some v := by
  have hutf8 : v.toVec.toByteArray = v.text.utf8Encode := rfl
  rw [fromSlice, hutf8, List.utf8Decode?_utf8Encode]
  exact parse_text v

/-! ### More text behind -/

theorem chars_extend (t : List Char) : ∀ (cs s r : List Char), chars cs = some (s, r) →
    chars (cs ++ t) = some (s, r ++ t) := by
  intro cs
  induction cs using chars.induct with
  | case1 r =>
    intro s r' h
    obtain ⟨rfl, rfl⟩ : [] = s ∧ r = r' := by simpa [chars] using h
    rfl
  | case2 a b c d r ih =>
    intro s r' h
    simp only [chars, Option.bind_eq_bind, Option.bind_eq_some_iff] at h
    obtain ⟨a', ha, b', hb, c', hc, d', hd, ⟨s₁, r₁⟩, hr, he⟩ := h
    obtain ⟨rfl, rfl⟩ := Prod.mk.inj (Option.some.inj he)
    simp only [List.cons_append, chars, ha, hb, hc, hd, ih _ _ hr, Option.bind_eq_bind, Option.bind_some]
  | case3 c r hu ih =>
    intro s r' h
    rw [chars, Option.bind_eq_bind, Option.bind_eq_some_iff] at h
    · obtain ⟨c', hc, hrest⟩ := h
      simp only [Option.bind_eq_bind, Option.bind_eq_some_iff] at hrest
      obtain ⟨⟨s₁, r₁⟩, hr, he⟩ := hrest
      obtain ⟨rfl, rfl⟩ := Prod.mk.inj (Option.some.inj he)
      have hne : c ≠ 'u' := fun hu => absurd hc (by rw [hu]; simp [unescape])
      rw [List.cons_append, List.cons_append, chars, hc]
      · simp only [ih _ _ hr, Option.bind_eq_bind, Option.bind_some]
      · exact fun _ _ _ _ _ hu _ => hne hu
    · exact hu
  | case4 c r hq hu he ih =>
    intro s r' h
    rw [chars, Option.bind_eq_bind, Option.bind_eq_some_iff] at h
    · obtain ⟨⟨s₁, r₁⟩, hr, heq⟩ := h
      obtain ⟨rfl, rfl⟩ := Prod.mk.inj (Option.some.inj heq)
      have hne : c ≠ '\\' := fun hc => by
        cases r with
        | nil => exact absurd hr (by simp [chars])
        | cons d r => exact he d r hc rfl
      rw [List.cons_append, chars, ih _ _ hr]
      · rfl
      · exact hq
      · exact fun _ _ _ _ _ hc _ => hne hc
      · exact fun _ _ hc _ => hne hc
    · exact hq
    · exact hu
    · exact he
  | case5 => exact fun _ _ h => absurd h (by simp [chars])

theorem nat_extend (t : List Char) {cs r : List Char} {n : Nat} (h : nat cs = some (n, r)) (hr : r ≠ []) :
    nat (cs ++ t) = some (n, r ++ t) := by
  unfold nat at h
  split at h
  · exact absurd h (by simp)
  · rename_i hne
    obtain ⟨rfl, rfl⟩ := Prod.mk.inj (Option.some.inj h)
    have hdrop : (cs ++ t).dropWhile Char.isDigit = cs.dropWhile Char.isDigit ++ t := by
      rw [List.dropWhile_append, if_neg (by simpa using hr)]
    have htake : (cs ++ t).takeWhile Char.isDigit = cs.takeWhile Char.isDigit := by
      have hboth := List.takeWhile_append_dropWhile (p := Char.isDigit) (l := cs ++ t)
      rw [hdrop, ← List.append_assoc] at hboth
      have hcs := List.append_cancel_right hboth
      exact List.append_cancel_right (hcs.trans List.takeWhile_append_dropWhile.symm)
    rw [nat, htake, hdrop, if_neg hne]

section

variable {α : Type} {close : Char} {p q : List Char → Option (α × List Char)}

/-- What `p` reads and leaves something behind, `q` reads with any text behind it. -/
def Extends (p q : List Char → Option (α × List Char)) : Prop :=
  ∀ s x r t, p s = some (x, r) → r ≠ [] → q (s ++ t) = some (x, r ++ t)

theorem tail_extend (h : Extends p q) (t : List Char) : ∀ (n m : Nat) (s : List Char) (xs : List α)
    (r : List Char), n ≤ m → tail close p n s = some (xs, r) →
      tail close q m (s ++ t) = some (xs, r ++ t) := by
  intro n
  induction n with
  | zero => exact fun _ _ _ _ _ h => absurd h (by simp [tail])
  | succ n ih =>
    intro m s xs r hle hread
    obtain ⟨m, rfl⟩ : ∃ k, m = k + 1 := ⟨m - 1, by omega⟩
    cases s with
    | nil => exact absurd hread (by simp [tail])
    | cons c cs =>
      rw [tail] at hread
      rw [List.cons_append, tail]
      by_cases hc : c = ','
      · rw [if_pos hc] at hread ⊢
        simp only [Option.bind_eq_bind, Option.bind_eq_some_iff] at hread
        obtain ⟨⟨x, r₁⟩, hx, ⟨ys, r₂⟩, hys, he⟩ := hread
        obtain ⟨rfl, rfl⟩ := Prod.mk.inj (Option.some.inj he)
        have hne : r₁ ≠ [] := fun hr => absurd hys (by rw [hr]; cases n <;> simp [tail])
        simp only [h _ _ _ t hx hne, ih m _ _ _ (by omega) hys, Option.bind_eq_bind, Option.bind_some]
      · rw [if_neg hc] at hread ⊢
        by_cases hclose : c = close
        · rw [if_pos hclose] at hread ⊢
          obtain ⟨rfl, rfl⟩ := Prod.mk.inj (Option.some.inj hread)
          rfl
        · rw [if_neg hclose] at hread
          exact absurd hread (by simp)

theorem list_extend (h : Extends p q) (hnone : ∀ r, q (close :: r) = none) (t : List Char) {n m : Nat}
    {s : List Char} {xs : List α} {r : List Char} (hle : n ≤ m) (hread : list close p n s = some (xs, r)) :
    list close q m (s ++ t) = some (xs, r ++ t) := by
  unfold list at hread
  split at hread
  · rename_i x r₁ hx
    simp only [Option.bind_eq_bind, Option.bind_eq_some_iff] at hread
    obtain ⟨⟨ys, r₂⟩, hys, he⟩ := hread
    obtain ⟨rfl, rfl⟩ := Prod.mk.inj (Option.some.inj he)
    have hne : r₁ ≠ [] := fun hr => absurd hys (by rw [hr]; cases n <;> simp [tail])
    unfold list
    simp only [h _ _ _ t hx hne, tail_extend h t n m _ _ _ hle hys, Option.bind_eq_bind, Option.bind_some]
  · split at hread
    · rename_i c cs _
      by_cases hclose : c = close
      · rw [if_pos hclose] at hread
        obtain ⟨rfl, rfl⟩ := Prod.mk.inj (Option.some.inj hread)
        rw [hclose, List.cons_append, list, hnone]
        exact if_pos rfl
      · rw [if_neg hclose] at hread
        exact absurd hread (by simp)
    · exact absurd hread (by simp)

end

theorem member_extend {p q : List Char → Option (Json × List Char)} (h : Extends p q) :
    Extends (member p) (member q) := by
  intro s x r t hread hr
  unfold member at hread
  split at hread
  · rename_i cs
    simp only [Option.bind_eq_bind, Option.bind_eq_some_iff] at hread
    obtain ⟨⟨k, r₁⟩, hk, hread⟩ := hread
    split at hread
    · rename_i k' r₂ hkr
      obtain ⟨rfl, rfl⟩ := Prod.mk.inj hkr
      simp only [Option.bind_eq_some_iff] at hread
      obtain ⟨⟨v, r₃⟩, hv, he⟩ := hread
      obtain ⟨rfl, rfl⟩ := Prod.mk.inj (Option.some.inj he)
      have hkey := chars_extend t _ _ _ hk
      simp only [List.cons_append] at hkey
      simp only [List.cons_append, member, hkey, h _ _ _ t hv hr, Option.bind_eq_bind, Option.bind_some]
    · exact absurd hread (by simp)
  · exact absurd hread (by simp)

theorem value_close (n : Nat) {close : Char} (h : close = ']' ∨ close = '}') (r : List Char) :
    value n (close :: r) = none := by
  rcases h with rfl | rfl
  · cases n <;> rfl
  · cases n <;> rfl

theorem value_obj_extend {n m : Nat} (h : Extends (value n) (value m)) (hle : n ≤ m) (t : List Char)
    {cs r : List Char} {x : Json} (hread : value (n + 1) ('{' :: cs) = some (x, r)) :
    value (m + 1) ('{' :: cs ++ t) = some (x, r ++ t) := by
  rw [value] at hread
  obtain ⟨⟨ms, r₁⟩, hms, he⟩ := Option.map_eq_some_iff.mp hread
  obtain ⟨rfl, rfl⟩ := Prod.mk.inj he
  rw [List.cons_append, value, list_extend (member_extend h) (fun _ => rfl) t hle hms]
  rfl

/-- **More text behind a value** does not change how it is read. -/
theorem value_extend : ∀ n m, n ≤ m → Extends (value n) (value m) := by
  intro n
  induction n with
  | zero => exact fun _ _ _ _ _ _ h => absurd h (by simp [value])
  | succ n ih =>
    intro m hle s x r t h hr
    obtain ⟨m, rfl⟩ : ∃ k, m = k + 1 := ⟨m - 1, by omega⟩
    have hle : n ≤ m := by omega
    have hext := ih m hle
    unfold value at h
    split at h
    · exact absurd h (by simp)
    · obtain ⟨⟨cs, r₁⟩, hcs, he⟩ := Option.map_eq_some_iff.mp h
      obtain ⟨rfl, rfl⟩ := Prod.mk.inj he
      rw [List.cons_append, value, chars_extend t _ _ _ hcs]
      rfl
    · rename_i hn
      obtain rfl := Nat.succ.inj hn
      obtain ⟨⟨items, r₁⟩, hitems, he⟩ := Option.map_eq_some_iff.mp h
      obtain ⟨rfl, rfl⟩ := Prod.mk.inj he
      rw [List.cons_append, value, list_extend hext (value_close m (.inl rfl)) t hle hitems]
      rfl
    · rename_i hn
      obtain rfl := Nat.succ.inj hn
      exact value_obj_extend hext hle t (by rw [value]; exact h)
    · obtain ⟨rfl, rfl⟩ := Prod.mk.inj (Option.some.inj h)
      rfl
    · obtain ⟨rfl, rfl⟩ := Prod.mk.inj (Option.some.inj h)
      rfl
    · obtain ⟨rfl, rfl⟩ := Prod.mk.inj (Option.some.inj h)
      rfl
    · obtain ⟨⟨k, r₁⟩, hk, he⟩ := Option.map_eq_some_iff.mp h
      obtain ⟨rfl, rfl⟩ := Prod.mk.inj he
      rw [List.cons_append, value, nat_extend t hk hr]
      rfl
    · rename_i s _ _ _ _ _ _ _ _ _ _ _
      obtain ⟨⟨k, r₁⟩, hk, he⟩ := Option.map_eq_some_iff.mp h
      obtain ⟨rfl, rfl⟩ := Prod.mk.inj he
      have hnat := nat_extend t hk hr
      -- the text begins with a digit, so nothing else is read from it
      cases s with
      | nil => exact absurd hk (by simp [nat])
      | cons c cs =>
        have hdigit : c.isDigit = true := by
          by_contra hc
          exact absurd hk (by simp [nat, hc])
        rw [List.cons_append] at hnat ⊢
        rw [value, hnat]
        · rfl
        all_goals
          intro cs' he
          obtain rfl := (List.cons.inj he).1
          exact absurd hdigit (by decide)

/-- **A text cut short is not read**, if it is an object's. -/
theorem parse_cut {members : List (String × Json)} {cs t : List Char} (h : (obj members).text = cs ++ t)
    (ht : t ≠ []) : parse cs = none := by
  by_contra hne
  obtain ⟨v, hv⟩ := Option.ne_none_iff_exists'.mp hne
  unfold parse at hv
  split at hv
  · rename_i w hread
    cases cs with
    | nil => exact absurd hread (by simp [value])
    | cons c cs =>
      obtain rfl : c = '{' := by
        rw [text] at h
        exact (List.cons.inj h).1.symm
      -- with the rest behind it, the same object would be read, and then the whole text
      have hcut := value_obj_extend (value_extend cs.length (cs.length + t.length) (by omega)) (by omega)
        t hread
      have hwhole := value_text (cs.length + t.length + 1) (obj members) []
        (by rw [h, List.length_append, List.length_cons]; omega) stops_nil
      rw [List.append_nil, h, hcut] at hwhole
      exact ht (Prod.mk.inj (Option.some.inj hwhole)).2
  · exact absurd hv (by simp)

theorem utf8_prefix : ∀ (cs ds : List Char) (t : List UInt8),
    ds.flatMap String.utf8EncodeChar = cs.flatMap String.utf8EncodeChar ++ t → ∃ es, ds = cs ++ es := by
  intro cs
  induction cs with
  | nil => exact fun ds _ _ => ⟨ds, rfl⟩
  | cons c cs ih =>
    intro ds t h
    cases ds with
    | nil =>
      have hlen := congrArg List.length h
      rw [List.flatMap_cons, List.length_append, List.length_append, String.length_utf8EncodeChar] at hlen
      have hsize := c.utf8Size_pos
      simp at hlen
      omega
    | cons d ds =>
      rw [List.flatMap_cons, List.flatMap_cons, List.append_assoc] at h
      have hfirst : ∀ (c : Char) (l : List UInt8),
          (String.utf8EncodeChar c ++ l).toByteArray.utf8DecodeChar? 0 = some c := fun c l => by
        rw [List.toByteArray_append, ByteArray.utf8DecodeChar?_utf8EncodeChar_append]
      have hd := hfirst d (ds.flatMap String.utf8EncodeChar)
      rw [h, hfirst] at hd
      obtain rfl := Option.some.inj hd
      obtain ⟨es, rfl⟩ := ih ds t (List.append_cancel_left h)
      exact ⟨es, rfl⟩

/-- The same in UTF-8. -/
theorem fromSlice_cut {members : List (String × Json)} {bytes t : List UInt8}
    (h : (obj members).toVec = bytes ++ t) (ht : t ≠ []) : fromSlice bytes = none := by
  by_contra hne
  obtain ⟨v, hv⟩ := Option.ne_none_iff_exists'.mp hne
  obtain ⟨cs, hcs, hparse⟩ := Option.bind_eq_some_iff.mp hv
  have hutf8 : cs.toList.utf8Encode = bytes.toByteArray := by
    have hget := ByteArray.utf8Encode_get_utf8Decode? (b := bytes.toByteArray) (h := by rw [hcs]; rfl)
    simpa [hcs] using hget
  have hbytes : bytes = cs.toList.flatMap String.utf8EncodeChar := by
    have hdata := congrArg (·.data.toList) hutf8
    simpa [List.utf8Encode] using hdata.symm
  rw [hbytes] at h
  obtain ⟨es, hes⟩ := utf8_prefix _ _ _ h
  have hne : es ≠ [] := fun he => ht (by
    rw [toVec, hes, he, List.append_nil] at h
    exact List.self_eq_append_right.mp h)
  exact absurd hparse (by rw [parse_cut hes hne]; simp)

end Json
