import Mathlib.Logic.Function.Basic
import Mathlib.Tactic.Common

/-!
# Files and symbolic links

A file system names files and symbolic links.  An operation on a path follows
links to the end of the chain (`final`), and gives up on chains longer than
`maxLinks`.  Three facts carry every proof about it.

* A chain only depends on which paths are links and where they point
  (`resolve_congr`), so writing files, even new ones, moves no chain.
* A chain ends at something that is not a link (`final_not_link`).
* Writing through a path is read back through it (`read_write`), and through
  every path whose chain ends elsewhere nothing changes (`read_write_of_ne`).
-/

namespace FileSystem

/-- What a path names. -/
inductive Node (Path Contents : Type) where
  | file (contents : Contents)
  | link (target : Path)
  deriving DecidableEq

/-- A file system: what each path names, if anything. -/
abbrev Fs (Path Contents : Type) := Path → Option (Node Path Contents)

/-- The longest chain of links that is followed. -/
def maxLinks : Nat := 40

variable {Path Contents : Type}

/-- Follow at most `fuel` links, less one, from a path. -/
def resolve (fs : Fs Path Contents) : Nat → Path → Option Path
  | 0, _ => none
  | fuel + 1, p =>
    match fs p with
    | some (.link t) => resolve fs fuel t
    | _ => some p

/-- The end of the chain of links from a path. -/
def final (fs : Fs Path Contents) (p : Path) : Option Path := resolve fs (maxLinks + 1) p

/-- The contents of the file at the end of the chain. -/
def read (fs : Fs Path Contents) (p : Path) : Option Contents :=
  match (final fs p).bind fs with
  | some (.file c) => some c
  | _ => none

/-- Whether the chain from a path ends at a file. -/
def pathExists (fs : Fs Path Contents) (p : Path) : Bool := (read fs p).isSome

/-- Whether a path is itself a link. -/
def isLink (fs : Fs Path Contents) (p : Path) : Bool :=
  match fs p with
  | some (.link _) => true
  | _ => false

/-! ### Chains -/

theorem isLink_eq_false {fs : Fs Path Contents} {p : Path} :
    isLink fs p = false ↔ ∀ t, fs p ≠ some (.link t) := by
  rw [isLink]
  split
  · rename_i t ht; exact ⟨fun h => absurd h (by simp), fun h => absurd ht (h t)⟩
  · rename_i hn; exact ⟨fun _ t ht => hn t ht, fun _ => rfl⟩

/-- A path that is not a link is the end of its own chain. -/
theorem final_of_not_link {fs : Fs Path Contents} {p : Path} (h : isLink fs p = false) :
    final fs p = some p := by
  cases hn : fs p with
  | none => rw [final, resolve, hn]
  | some node =>
    cases node with
    | file c => rw [final, resolve, hn]
    | link t => exact absurd hn (isLink_eq_false.mp h t)

theorem resolve_not_link {fs : Fs Path Contents} : ∀ (n : Nat) (p q : Path),
    resolve fs n p = some q → isLink fs q = false := by
  intro n
  induction n with
  | zero => intro p q h; exact absurd h (by simp [resolve])
  | succ n ih =>
    intro p q h
    rw [resolve] at h
    split at h
    · exact ih _ _ h
    · rename_i hn
      rw [← Option.some.inj h]
      exact isLink_eq_false.mpr hn

/-- A chain does not end at a link. -/
theorem final_not_link {fs : Fs Path Contents} {p q : Path} (h : final fs p = some q) :
    isLink fs q = false := resolve_not_link _ _ _ h

/-- Two file systems with the same links. -/
def SameLinks (fs fs' : Fs Path Contents) : Prop :=
  ∀ p t, fs' p = some (.link t) ↔ fs p = some (.link t)

/-- **A chain depends on the links alone.** -/
theorem resolve_congr {fs fs' : Fs Path Contents} (h : SameLinks fs fs') : ∀ (n : Nat) (p : Path),
    resolve fs' n p = resolve fs n p := by
  intro n
  induction n with
  | zero => intro p; rfl
  | succ n ih =>
    intro p
    rw [resolve, resolve]
    cases hn : fs p with
    | none =>
      split
      · rename_i t ht; rw [(h p t).mp ht] at hn; exact absurd hn (by simp)
      · rfl
    | some node =>
      cases node with
      | file c =>
        split
        · rename_i t ht; rw [(h p t).mp ht] at hn; exact absurd hn (by simp)
        · rfl
      | link t => rw [(h p t).mpr hn]; exact ih t

theorem final_congr {fs fs' : Fs Path Contents} (h : SameLinks fs fs') (p : Path) :
    final fs' p = final fs p := resolve_congr h _ p

/-- A path that reads does not end at nothing. -/
theorem read_eq_some {fs : Fs Path Contents} {p : Path} {c : Contents} :
    read fs p = some c ↔ ∃ q, final fs p = some q ∧ fs q = some (.file c) := by
  rw [read]
  cases hf : final fs p with
  | none => simp
  | some q =>
    simp only [Option.bind_some]
    cases hq : fs q with
    | none => simp [hq]
    | some node => cases node <;> simp [hq]

/-- Reading a path that is a file. -/
theorem read_of_file {fs : Fs Path Contents} {p : Path} {c : Contents}
    (h : fs p = some (.file c)) : read fs p = some c :=
  read_eq_some.mpr ⟨p, final_of_not_link (by rw [isLink, h]), h⟩

/-- Nothing is read at a path that names nothing. -/
theorem read_of_none {fs : Fs Path Contents} {p : Path} (h : fs p = none) : read fs p = none := by
  rw [read, final_of_not_link (by rw [isLink, h]), Option.bind_some, h]

/-- Two paths to one file read the same. -/
theorem read_of_final_eq {fs : Fs Path Contents} {p q : Path} (h : final fs p = final fs q) :
    read fs p = read fs q := by rw [read, read, h]

theorem pathExists_eq_false {fs : Fs Path Contents} {p : Path} :
    pathExists fs p = false ↔ read fs p = none := by
  rw [pathExists]
  cases read fs p <;> simp

/-! ### Writing -/

variable [DecidableEq Path]

/-- Make the file at the end of the chain, or overwrite it. -/
def write (fs : Fs Path Contents) (p : Path) (c : Contents) : Option (Fs Path Contents) :=
  (final fs p).map fun q => Function.update fs q (some (.file c))

/-- Copy the contents of one file over another.  The target is truncated before
the source is read, so a file copied onto itself is left empty. -/
def copy [Inhabited Contents] (fs : Fs Path Contents) (src dst : Path) :
    Option (Fs Path Contents) :=
  (read fs src).bind fun c =>
    if final fs src = final fs dst then write fs dst default else write fs dst c

/-- Remove the name itself, file or link. -/
def remove (fs : Fs Path Contents) (p : Path) : Option (Fs Path Contents) :=
  (fs p).map fun _ => Function.update fs p none

theorem write_eq_some {fs fs' : Fs Path Contents} {p : Path} {c : Contents} :
    write fs p c = some fs' ↔
      ∃ q, final fs p = some q ∧ fs' = Function.update fs q (some (.file c)) := by
  rw [write]
  cases final fs p with
  | none => simp
  | some q => simp [eq_comm]

theorem sameLinks_update {fs : Fs Path Contents} {q : Path} (h : isLink fs q = false)
    (c : Contents) : SameLinks fs (Function.update fs q (some (.file c))) := by
  intro p t
  by_cases hp : p = q
  · subst hp
    rw [Function.update_self]
    exact ⟨fun ht => absurd ht (by simp), fun ht => absurd ht (isLink_eq_false.mp h t)⟩
  · rw [Function.update_of_ne hp]

/-- Writing moves no chain. -/
theorem final_write {fs fs' : Fs Path Contents} {p : Path} {c : Contents}
    (h : write fs p c = some fs') (r : Path) : final fs' r = final fs r := by
  obtain ⟨q, hq, rfl⟩ := write_eq_some.mp h
  exact final_congr (sameLinks_update (final_not_link hq) c) r

/-- **What is written is read back.** -/
theorem read_write {fs fs' : Fs Path Contents} {p : Path} {c : Contents}
    (h : write fs p c = some fs') : read fs' p = some c := by
  obtain ⟨q, hq, he⟩ := write_eq_some.mp h
  refine read_eq_some.mpr ⟨q, by rw [final_write h, hq], ?_⟩
  rw [he, Function.update_self]

/-- Writing changes only the name at the end of the chain. -/
theorem write_of_ne {fs fs' : Fs Path Contents} {p r : Path} {c : Contents}
    (h : write fs p c = some fs') (hr : final fs p ≠ some r) : fs' r = fs r := by
  obtain ⟨q, hq, rfl⟩ := write_eq_some.mp h
  exact Function.update_of_ne (fun he => hr (by rw [hq, he])) _ _

theorem read_write_of_ne {fs fs' : Fs Path Contents} {p r : Path} {c : Contents}
    (h : write fs p c = some fs') (hr : final fs r ≠ final fs p) : read fs' r = read fs r := by
  rw [read, read, final_write h]
  cases hf : final fs r with
  | none => rfl
  | some q =>
    rw [Option.bind_some, Option.bind_some, write_of_ne h (fun he => hr (hf.trans he.symm))]

/-- Writing through a path that is no link makes that path a file. -/
theorem write_of_not_link {fs fs' : Fs Path Contents} {p : Path} {c : Contents}
    (hp : isLink fs p = false) :
    write fs p c = some fs' ↔ fs' = Function.update fs p (some (.file c)) := by
  rw [write_eq_some, final_of_not_link hp]
  simp

theorem copy_eq_some [Inhabited Contents] {fs fs' : Fs Path Contents} {src dst : Path} :
    copy fs src dst = some fs' ↔ ∃ c, read fs src = some c ∧
      write fs dst (if final fs src = final fs dst then default else c) = some fs' := by
  rw [copy]
  cases read fs src with
  | none => simp
  | some c => by_cases he : final fs src = final fs dst <;> simp [he]

theorem remove_eq_some {fs fs' : Fs Path Contents} {p : Path} :
    remove fs p = some fs' ↔ fs p ≠ none ∧ fs' = Function.update fs p none := by
  rw [remove]
  cases fs p with
  | none => simp
  | some node => simp [eq_comm]

/-- Removing a file moves no chain. -/
theorem final_remove_file {fs : Fs Path Contents} {p r : Path} (hp : isLink fs p = false) :
    final (Function.update fs p none) r = final fs r := by
  refine final_congr (fun x t => ?_) r
  by_cases hx : x = p
  · subst hx
    rw [Function.update_self]
    exact ⟨fun h => absurd h (by simp), fun h => absurd h (isLink_eq_false.mp hp t)⟩
  · rw [Function.update_of_ne hx]

end FileSystem
