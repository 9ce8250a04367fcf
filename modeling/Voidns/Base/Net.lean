import Mathlib.Logic.Basic
import Mathlib.Tactic.Common

/-!
# Addresses and errors

The little of `std::net` and `anyhow` the program prints: IP addresses and
socket addresses with their `Display`, and errors that carry a chain of
contexts, printed by `{e:#}`.  A `Fate` is what the world has decided about
one call into the operating system.
-/

namespace Voidns

/-- An IP address: four octets, or eight segments. -/
inductive IpAddr where
  | v4 (a b c d : UInt8)
  | v6 (segments : Fin 8 → UInt16)

namespace IpAddr

/-- `Ipv4Addr::LOCALHOST`. -/
def localhost : IpAddr := v4 127 0 0 1

/-- The octets in network order, as `SetLinkDNS` takes them. -/
def octets : IpAddr → List UInt8
  | v4 a b c d => [a, b, c, d]
  | v6 s => (List.ofFn s).flatMap fun w : UInt16 => [(w >>> 8).toUInt8, w.toUInt8]

/-- Lower-case hexadecimal without leading zeros. -/
def hex (w : UInt16) : String := String.ofList (Nat.toDigits 16 w.toNat)

/-- The first longest run of zero segments, as its start and its length. -/
def zeroRun (segments : List UInt16) : Nat × Nat :=
  let step := fun (i, cur, longest) (w : UInt16) =>
    if w = 0 then
      let cur' : Nat × Nat := if cur.2 = 0 then (i, 1) else (cur.1, cur.2 + 1)
      (i + 1, cur', if longest.2 < cur'.2 then cur' else longest)
    else (i + 1, (0, 0), longest)
  (segments.foldl step ((0 : Nat), ((0 : Nat), (0 : Nat)), ((0 : Nat), (0 : Nat)))).2.2

/-- `Display`: dotted octets; eight segments with the longest run of at least
two zeros left out, and the octets spelled out in an IPv4-mapped address. -/
def text : IpAddr → String
  | v4 a b c d => s!"{a.toNat}.{b.toNat}.{c.toNat}.{d.toNat}"
  | v6 s =>
    if (List.ofFn s).take 6 = [0, 0, 0, 0, 0, 0xffff] then
      s!"::ffff:{(s 6 >>> 8).toUInt8.toNat}.{(s 6).toUInt8.toNat}.{(s 7 >>> 8).toUInt8.toNat}.{(s 7).toUInt8.toNat}"
    else
      let words := (List.ofFn s).map hex
      let (start, len) := zeroRun (List.ofFn s)
      if 1 < len then
        ":".intercalate (words.take start) ++ "::" ++ ":".intercalate (words.drop (start + len))
      else ":".intercalate words

end IpAddr

example : IpAddr.localhost.text = "127.0.0.1" := by decide

/-- A socket address. -/
structure SocketAddr where
  ip : IpAddr
  port : UInt16

/-- `Display`; an IPv6 address stands in brackets. -/
def SocketAddr.text (a : SocketAddr) : String :=
  match a.ip with
  | .v4 .. => s!"{a.ip.text}:{a.port.toNat}"
  | .v6 .. => s!"[{a.ip.text}]:{a.port.toNat}"

/-- An `anyhow` error: its messages, the outermost context first. -/
structure Error where
  chain : List String
  deriving DecidableEq, Repr

namespace Error

/-- `anyhow!(msg)`. -/
def msg (m : String) : Error := ⟨[m]⟩

/-- `.context(ctx)`. -/
def context (e : Error) (ctx : String) : Error := ⟨ctx :: e.chain⟩

/-- `{e:#}`. -/
def text (e : Error) : String := ": ".intercalate e.chain

end Error

/-- What the world has decided about one call: it succeeds, or fails with a
cause the operating system names. -/
inductive Fate where
  | ok
  | fails (cause : String)
  deriving DecidableEq, Repr

instance : Inhabited Fate := ⟨.ok⟩

/-- What becomes of a call that would yield `a` and leave `s'`, or that the
system refuses in the state it is in. -/
def Fate.attempt {α σ : Type} (w : Fate) (possible : Option (α × σ)) (s : σ) :
    Except Error α × σ :=
  match w, possible with
  | .fails cause, _ => (.error (.msg cause), s)
  | .ok, none => (.error (.msg "refused"), s)
  | .ok, some (a, s') => (.ok a, s')

@[simp] theorem Fate.attempt_fails {α σ : Type} (cause : String) (possible : Option (α × σ))
    (s : σ) : (Fate.fails cause).attempt possible s = (.error (.msg cause), s) := rfl

@[simp] theorem Fate.attempt_some {α σ : Type} (a : α) (s s' : σ) :
    Fate.ok.attempt (some (a, s')) s = (.ok a, s') := rfl

/-- A call that fails leaves the state as it was; one that succeeds was
possible. -/
theorem Fate.attempt_cases {α σ : Type} (w : Fate) (possible : Option (α × σ)) (s : σ) :
    (∃ e, w.attempt possible s = (.error e, s)) ∨
      ∃ a s', w = .ok ∧ possible = some (a, s') ∧ w.attempt possible s = (.ok a, s') := by
  cases w with
  | fails cause => exact Or.inl ⟨_, rfl⟩
  | ok =>
    cases possible with
    | none => exact Or.inl ⟨_, rfl⟩
    | some r => exact Or.inr ⟨r.1, r.2, rfl, rfl, rfl⟩

/-- What a call that may be refused keeps. -/
theorem Fate.attempt_keeps {α σ : Type} {I : σ → Prop} (w : Fate) {possible : Option (α × σ)}
    {s : σ} (hs : I s) (h : ∀ a t, possible = some (a, t) → I t) :
    I (w.attempt possible s).2 := by
  rcases w.attempt_cases possible s with ⟨e, he⟩ | ⟨a, t, _, hp, he⟩
  · rw [he]; exact hs
  · rw [he]; exact h a t hp

/-- A call that only answers. -/
theorem Fate.attempt_same {α σ : Type} (w : Fate) (possible : Option α) (s : σ) :
    (w.attempt (possible.map (·, s)) s).2 = s := by
  refine w.attempt_keeps (I := fun t => t = s) rfl fun a t h => ?_
  obtain ⟨_, _, hx⟩ := Option.map_eq_some_iff.mp h
  exact (Prod.mk.inj hx).2.symm

end Voidns
