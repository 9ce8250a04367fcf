import Voidns.Base.Net
import Voidns.Lib.Prog

/-!
# The redirector

`redirect/mod.rs`: one trait, three OS implementations.  A `DnsRedirector` here
is the trait's three methods as functions on `ρ`, the redirector's own record
together with the system it acts on, under the choices `ω` the world makes
inside one call; `ofProg` makes one of three programs over the calls of an
operating system.

`Contract` is what the controller may count on of any redirector, in terms of
the system DNS alone: `apply` points it at the proxy or leaves it, `restore`
puts the prior DNS back or leaves it.
-/

namespace Voidns

open Effect

/-- `trait DnsRedirector`. -/
structure DnsRedirector (ω ρ : Type) where
  /-- Snapshot current DNS and route all queries to `proxy`. -/
  apply : IpAddr → ω → ρ → Except Error Unit × ρ
  /-- Restore the pre-connect DNS state. -/
  restore : ω → ρ → Except Error Unit × ρ
  /-- Flush the OS DNS cache. -/
  flushCache : ω → ρ → Except Error Unit × ρ

/-- The redirector whose methods are programs. -/
def DnsRedirector.ofProg {E : Sig} {ω ρ : Type} [Inhabited ω] (H : Handler E ω ρ)
    (apply : IpAddr → Prog E (Except Error Unit)) (restore flushCache : Prog E (Except Error Unit)) :
    DnsRedirector (List ω) ρ where
  apply ip ws s := ((exec H (apply ip) ws s).value, (exec H (apply ip) ws s).state)
  restore ws s := ((exec H restore ws s).value, (exec H restore ws s).state)
  flushCache ws s := ((exec H flushCache ws s).value, (exec H flushCache ws s).state)

/-- **The contract of the trait.**  `dns` is the system DNS, `pointsAt ip` the
setting that sends every query to `ip`, and `prior` what a successful `apply`
has replaced and a `restore` owes. -/
structure Contract {ω ρ : Type} (R : DnsRedirector ω ρ) {Dns : Type} (dns : ρ → Dns)
    (pointsAt : IpAddr → Dns) (prior : ρ → Option Dns) : Prop where
  apply_ok : ∀ ip w r, (R.apply ip w r).1 = .ok () → dns (R.apply ip w r).2 = pointsAt ip
  apply_ok_prior : ∀ ip w r, (R.apply ip w r).1 = .ok () → prior r = none →
    prior (R.apply ip w r).2 = some (dns r)
  apply_error : ∀ ip w r e, (R.apply ip w r).1 = .error e →
    dns (R.apply ip w r).2 = dns r ∧ prior (R.apply ip w r).2 = prior r
  restore_ok : ∀ w r, (R.restore w r).1 = .ok () →
    dns (R.restore w r).2 = (prior r).getD (dns r) ∧ prior (R.restore w r).2 = none
  restore_error : ∀ w r e, (R.restore w r).1 = .error e → dns (R.restore w r).2 = dns r ∧
    (prior (R.restore w r).2 = prior r ∨ prior (R.restore w r).2 = none)
  flush : ∀ w r, dns (R.flushCache w r).2 = dns r ∧ prior (R.flushCache w r).2 = prior r

/-- A redirector that does what the contract says and no more, on a DNS setting
and the setting it owes.  As in the three real ones, `restore` takes what is
owed before it can fail. -/
def plainRedirector : DnsRedirector Fate (String × Option String) where
  apply ip w r := w.attempt (some ((), (ip.text, some r.1))) r
  restore w r := ((w.attempt (some ((), r)) r).1, (if w = .ok then r.2.getD r.1 else r.1, none))
  flushCache w r := w.attempt (some ((), r)) r

theorem plainRedirector_contract :
    Contract plainRedirector Prod.fst IpAddr.text Prod.snd where
  apply_ok ip w r h := by
    cases w with
    | ok => rfl
    | fails cause => exact absurd h (by simp [plainRedirector])
  apply_ok_prior ip w r h _ := by
    cases w with
    | ok => rfl
    | fails cause => exact absurd h (by simp [plainRedirector])
  apply_error ip w r e h := by
    cases w with
    | ok => exact absurd h (by simp [plainRedirector])
    | fails cause => exact ⟨rfl, rfl⟩
  restore_ok w r h := by
    cases w with
    | ok => exact ⟨rfl, rfl⟩
    | fails cause => exact absurd h (by simp [plainRedirector])
  restore_error w r e h := by
    cases w with
    | ok => exact absurd h (by simp [plainRedirector])
    | fails cause => exact ⟨rfl, .inr rfl⟩
  flush w r := by cases w <;> exact ⟨rfl, rfl⟩

/-- **What a redirector records.**  It holds a record after a successful
`apply` and none after any `restore`; a failed `apply` leaves it as it was. -/
structure Records {ω ρ : Type} (R : DnsRedirector ω ρ) (idle : ρ → Bool) : Prop where
  apply_ok : ∀ ip w r, (R.apply ip w r).1 = .ok () → idle (R.apply ip w r).2 = false
  apply_error : ∀ ip w r e, (R.apply ip w r).1 = .error e → idle (R.apply ip w r).2 = idle r
  restore : ∀ w r, idle (R.restore w r).2 = true
  flush : ∀ w r, idle (R.flushCache w r).2 = idle r

/-- What an `apply` started in `s` has done to the record where it ends, in `t`. -/
def Recorded {ρ : Type} (idle : ρ → Bool) (s : ρ) (r : Except Error Unit) (t : ρ) : Prop :=
  (r = .ok () → idle t = false) ∧ ∀ e, r = .error e → idle t = idle s

theorem Recorded.ok {ρ : Type} {idle : ρ → Bool} {s t : ρ} (h : idle t = false) :
    Recorded idle s (.ok ()) t := ⟨fun _ => h, fun _ he => absurd he (by simp)⟩

theorem Recorded.error {ρ : Type} {idle : ρ → Bool} {s t : ρ} {e : Error} (h : idle t = idle s) :
    Recorded idle s (.error e) t := ⟨fun he => absurd he (by simp), fun _ _ => h⟩

/-- What a redirector made of programs records is read off the programs. -/
theorem Records.ofProg {E : Sig} {ω ρ : Type} [Inhabited ω] {H : Handler E ω ρ}
    {apply : IpAddr → Prog E (Except Error Unit)} {restore flushCache : Prog E (Except Error Unit)}
    {idle : ρ → Bool}
    (ha : ∀ ip s, Safe H (fun _ => True) (fun _ => True) (Recorded idle s) (apply ip) s)
    (hr : ∀ s, Safe H (fun _ => True) (fun _ => True) (fun _ t => idle t = true) restore s)
    (hf : ∀ s, Safe H (fun _ => True) (fun _ => True) (fun _ t => idle t = idle s) flushCache s) :
    Records (.ofProg H apply restore flushCache) idle where
  apply_ok ip ws s h := ((ha ip s).exec_total ws).2.1 h
  apply_error ip ws s e h := ((ha ip s).exec_total ws).2.2 e h
  restore ws s := ((hr s).exec_total ws).2
  flush ws s := ((hf s).exec_total ws).2

end Voidns
