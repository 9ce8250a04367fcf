import Voidns.Redirect.Linux
import Voidns.Redirect.Macos
import Voidns.Redirect.Windows

/-!
# The restore record

Each redirector keeps one value from a successful `apply` to the next
`restore`: `self.active` on Linux, `self.applied` on macOS and Windows.  Only
the last statement of an `apply` that returns `Ok` assigns it and only the first
of `restore` takes it, so everything between them is framed away: a program
that makes no other call on the record keeps it (`active_keeps`,
`applied_keeps`).
-/

namespace Voidns

open Effect

/-! ### Linux -/

namespace Linux

/-- `Active::Idle`. -/
def idle (s : System) : Bool := decide (s.active = .idle)

/-- The calls that leave `self.active` alone. -/
def Call.recordless : Call → Bool
  | .setActive _ | .takeActive => false
  | _ => true

theorem handler_active {c : Call} (hc : c.recordless = true) (w : Fate) (s : System) :
    (handler c w s).2.active = s.active := by
  have files : ∀ result, (fileCall w result s).2.active = s.active := by
    intro result
    rcases fileCall_cases w result s with ⟨e, he⟩ | ⟨fs, _, _, he⟩ <;> rw [he]
  by_cases hb : c.bus = true
  · obtain ⟨links, he⟩ := handler_bus hb w s
    rw [he]
  · cases c with
    | pathExists p => rfl
    | symlinkMetadata p =>
      rcases symlinkMetadata_cases p w s with ⟨_, e, he⟩ | ⟨_, he⟩ | ⟨_, he⟩ <;> rw [he]
    | copy src dst => exact files _
    | removeFile p => exact files _
    | write p c => exact files _
    | setActive a => exact absurd hc (by simp [Call.recordless])
    | takeActive => exact absurd hc (by simp [Call.recordless])
    | _ => exact absurd rfl hb

theorem active_keeps {α : Type} {p : Prog sig α} (hp : p.Calls fun c : Call => c.recordless = true)
    {s : System} {a : Active} (h : s.active = a) :
    Safe handler (fun _ => True) (fun _ => True) (fun _ t => t.active = a) p s :=
  (safe_frame (I := fun s : System => s.active = a)
    (fun _ w s hc _ hs => by rw [handler_active hc, hs]) hp h).mono
    (fun _ h => h) (fun _ _ => trivial) (fun _ _ h => h)

theorem bus_recordless {c : Call} (h : c.bus = true) : c.recordless = true := by
  cases c <;> first | rfl | exact absurd h (by simp [Call.bus])

theorem fallback_records (proxy : IpAddr) {s t : System} (ht : t.active = s.active) :
    Safe handler (fun _ => True) (fun _ => True) (Recorded idle s) (fallback proxy) t := by
  refine safe_bind.mpr ((active_keeps
    (resolvconfApply_calls proxy (fun _ => rfl) rfl rfl rfl rfl) ht).post fun r u hu => ?_)
  cases r with
  | error e => exact .error (by rw [idle, idle, hu])
  | ok _ => exact fun w _ => ⟨trivial, .ok rfl⟩

theorem apply_records (proxy : IpAddr) (s : System) :
    Safe handler (fun _ => True) (fun _ => True) (Recorded idle s) (apply proxy) s := by
  refine safe_perform.mpr fun w _ => ⟨trivial, ?_⟩
  rcases pathExists_cases resolvedStub w s with ⟨he, _⟩ | ⟨he, _⟩ <;> rw [he]
  · refine safe_bind.mpr ((active_keeps ((applyResolved_bus proxy).mono
      fun _ => bus_recordless) rfl).post fun r t ht => ?_)
    cases r with
    | error e => exact fallback_records proxy ht
    | ok ifindex => exact fun w _ => ⟨trivial, .ok rfl⟩
  · exact fallback_records proxy rfl

theorem restore_records (s : System) :
    Safe handler (fun _ => True) (fun _ => True) (fun _ t => idle t = true) restore s := by
  have hidle : ∀ t : System, t.active = .idle → idle t = true := fun t ht => by
    rw [idle, ht]; rfl
  refine safe_perform.mpr fun w _ => ⟨trivial, ?_⟩
  have he : handler .takeActive w s = (s.active, { s with active := .idle }) := rfl
  rw [he]
  cases s.active with
  | idle => rfl
  | resolvConf =>
    have hs : ({ s with active := .idle } : System).active = .idle := rfl
    exact (active_keeps (resolvconfRestore_calls rfl rfl rfl) hs).post fun _ t => hidle t
  | resolved ifindex =>
    refine safe_bind.mpr ((active_keeps ((managerCall_bus (.revertLink ifindex)).mono
      fun _ => bus_recordless) rfl).post fun r t ht => ?_)
    cases r <;> exact hidle t ht

theorem flushCache_records (s : System) :
    Safe handler (fun _ => True) (fun _ => True) (fun _ t => idle t = idle s) flushCache s :=
  (flushCache_same s).mono (fun _ h => h) (fun _ _ => trivial) fun _ t ht => by rw [ht]

end Linux

theorem LinuxRedirector_records : Records LinuxRedirector Linux.idle :=
  .ofProg Linux.apply_records Linux.restore_records Linux.flushCache_records

/-! ### macOS -/

namespace Macos

/-- `Applied::None`. -/
def idle (s : System) : Bool := decide (s.applied = .none)

/-- The calls that leave `self.applied` alone. -/
def Call.recordless : Call → Bool
  | .setApplied _ | .takeApplied => false
  | _ => true

theorem command_applied (s : System) (cmd : String) (args : List String) :
    (command s cmd args).2.applied = s.applied := by
  unfold command
  split <;> rfl

theorem handler_applied {c : Call} (hc : c.recordless = true) (w : Fate) (s : System) :
    (handler c w s).2.applied = s.applied := by
  cases c with
  | createStore => rfl
  | getKeys pattern => rfl
  | setRaw path value => cases w <;> rfl
  | removeKey path => cases w <;> rfl
  | run cmd args =>
    refine w.attempt_keeps (I := fun t : System => t.applied = s.applied) rfl fun a t h => ?_
    have ht : (command s cmd args).2 = t := congrArg Prod.snd (Option.some.inj h)
    rw [← ht, command_applied]
  | setApplied a => exact absurd hc (by simp [Call.recordless])
  | takeApplied => exact absurd hc (by simp [Call.recordless])

theorem applied_keeps {α : Type} {p : Prog sig α}
    (hp : p.Calls fun c : Call => c.recordless = true) {s : System} {a : Applied}
    (h : s.applied = a) :
    Safe handler (fun _ => True) (fun _ => True) (fun _ t => t.applied = a) p s :=
  (safe_frame (I := fun s : System => s.applied = a)
    (fun _ w s hc _ hs => by rw [handler_applied hc, hs]) hp h).mono
    (fun _ h => h) (fun _ _ => trivial) (fun _ _ h => h)

theorem native_recordless {c : Call} (h : c.native = true) : c.recordless = true := by
  cases c <;> first | rfl | exact absurd h (by simp [Call.native])

theorem shell_recordless {server : String} {c : Call} (h : c.shell server) :
    c.recordless = true := by
  cases c <;> first | rfl | exact h.elim

/-- The end of both paths of `apply`. -/
theorem setApplied_records {s t : System} {a : Applied} (ha : a ≠ .none) :
    Safe handler (fun _ => True) (fun _ => True) (Recorded idle s)
      (do setApplied a; let _ ← flushCache; return .ok ()) t := by
  refine safe_perform.mpr fun w _ => ⟨trivial, ?_⟩
  have hflush := flushCache_same (handler (.setApplied a) w t).2
  refine safe_bind.mpr (hflush.mono (fun _ h => h) (fun _ _ => trivial) fun r u hu => ?_)
  have hidle : idle u = false := by rw [hu]; exact decide_eq_false ha
  exact .ok hidle

theorem apply_records (proxy : IpAddr) (s : System) :
    Safe handler (fun _ => True) (fun _ => True) (Recorded idle s) (apply proxy) s := by
  refine safe_bind.mpr ((applied_keeps ((applyNative_native proxy).mono
    fun _ => native_recordless) rfl).post fun r t ht => ?_)
  cases r with
  | ok paths => exact setApplied_records (a := .native paths) (by simp)
  | error e =>
    refine safe_bind.mpr ((applied_keeps ((applyShell_shell proxy).mono
      fun _ => shell_recordless) ht).post fun r u hu => ?_)
    cases r with
    | error e => exact .error (by rw [idle, idle, hu])
    | ok saved => exact setApplied_records (a := .shell saved) (by simp)

theorem restore_records (s : System) :
    Safe handler (fun _ => True) (fun _ => True) (fun _ t => idle t = true) restore s := by
  have hidle : ∀ t : System, t.applied = .none → idle t = true := fun t ht => by
    rw [idle, ht]; rfl
  refine safe_perform.mpr fun w _ => ⟨trivial, ?_⟩
  have he : handler .takeApplied w s = (s.applied, { s with applied := .none }) := rfl
  have hs : ({ s with applied := .none } : System).applied = .none := rfl
  rw [he]
  cases s.applied with
  | none => rfl
  | native paths =>
    have hremove : (restoreNative paths).Calls fun c : Call => c.recordless = true := by
      refine Prog.calls_perform.mpr ⟨rfl, fun store => ?_⟩
      cases store with
      | false => trivial
      | true =>
        have hpaths : (Prog.each removeKey paths).Calls fun c : Call => c.recordless = true :=
          Prog.Calls.each (fun _ => by exact .perform rfl) paths
        exact hpaths.bind fun _ => by trivial
    exact (applied_keeps hremove hs).post fun _ t => hidle t
  | shell prev =>
    have hset : (restoreShell prev).Calls fun c : Call => c.recordless = true :=
      Prog.Calls.each (fun _ => by exact .perform rfl) prev
    exact safe_bind.mpr ((applied_keeps hset hs).post fun _ t => hidle t)

theorem flushCache_records (s : System) :
    Safe handler (fun _ => True) (fun _ => True) (fun _ t => idle t = idle s) flushCache s :=
  (flushCache_same s).mono (fun _ h => h) (fun _ _ => trivial) fun _ t ht => by rw [ht]

end Macos

theorem MacosRedirector_records : Records MacosRedirector Macos.idle :=
  .ofProg Macos.apply_records Macos.restore_records Macos.flushCache_records

/-! ### Windows -/

namespace Windows

/-- `Applied::None`. -/
def idle (s : System) : Bool := decide (s.applied = .none)

/-- The calls that leave `self.applied` alone. -/
def Call.recordless : Call → Bool
  | .setApplied _ | .takeApplied => false
  | _ => true

theorem command_applied {s t : System} {cmd : String} {args : List String} {out : String}
    (h : command s cmd args = some (out, t)) : t.applied = s.applied := by
  unfold command at h
  split at h
  · obtain ⟨guid, _, hx⟩ := Option.map_eq_some_iff.mp h
    rw [← (Prod.mk.inj hx).2]
    rfl
  · obtain ⟨guid, _, hx⟩ := Option.map_eq_some_iff.mp h
    rw [← (Prod.mk.inj hx).2]
    rfl
  · rw [← (Prod.mk.inj (Option.some.inj h)).2]

theorem handler_applied {c : Call} (hc : c.recordless = true) (w : Fate) (s : System) :
    (handler c w s).2.applied = s.applied := by
  cases c with
  | showInterfaces => exact congrArg _ (w.attempt_same (some s.listing) s)
  | aliasToLuid name => exact congrArg _ (w.attempt_same (s.luid name) s)
  | luidToGuid luid => exact congrArg _ (w.attempt_same (s.guid luid) s)
  | setInterfaceDnsSettings guid settings =>
    refine w.attempt_keeps (I := fun t : System => t.applied = s.applied) rfl fun a t h => ?_
    rw [← (Prod.mk.inj (Option.some.inj h)).2]
  | run cmd args =>
    exact w.attempt_keeps (I := fun t : System => t.applied = s.applied) rfl fun a t h => command_applied h
  | setApplied a => exact absurd hc (by simp [Call.recordless])
  | takeApplied => exact absurd hc (by simp [Call.recordless])

theorem applied_keeps {α : Type} {p : Prog sig α}
    (hp : p.Calls fun c : Call => c.recordless = true) {s : System} {a : Applied}
    (h : s.applied = a) :
    Safe handler (fun _ => True) (fun _ => True) (fun _ t => t.applied = a) p s :=
  (safe_frame (I := fun s : System => s.applied = a)
    (fun _ w s hc _ hs => by rw [handler_applied hc, hs]) hp h).mono
    (fun _ h => h) (fun _ _ => trivial) (fun _ _ h => h)

theorem native_recordless {c : Call} (h : c.native = true) : c.recordless = true := by
  cases c <;> first | rfl | exact absurd h (by simp [Call.native])

theorem netshClear_recordless (name : String) :
    (netshClear name).Calls fun c : Call => c.recordless = true :=
  ⟨rfl, fun r => by cases r <;> trivial⟩

theorem apply_records (proxy : IpAddr) (s : System) :
    Safe handler (fun _ => True) (fun _ => True) (Recorded idle s) (apply proxy) s := by
  have herror : ∀ {e : Error} {t : System}, t.applied = s.applied → Recorded idle s (.error e) t :=
    fun ht => .error (by rw [idle, idle, ht])
  have hlist : connectedInterfaces.Calls fun c : Call => c.recordless = true :=
    ⟨rfl, fun r => by cases r <;> trivial⟩
  refine safe_bind.mpr ((applied_keeps hlist rfl).post fun r t ht => ?_)
  cases r with
  | error e => exact herror ht
  | ok ifaces =>
    cases ifaces with
    | nil => exact herror ht
    | cons name ifaces =>
      refine safe_bind.mpr ((applied_keeps ((setAllNative_native proxy.text
        (name :: ifaces) []).mono fun _ => native_recordless) ht).post fun nativeOk u hu => ?_)
      cases nativeOk with
      | cons n ns => exact fun w _ => ⟨trivial, .ok rfl⟩
      | nil =>
        refine safe_bind.mpr ((applied_keeps ((setAllNetsh_set proxy.text
          (name :: ifaces)).mono fun _ ⟨_, hc⟩ => by rw [hc]; rfl) hu).post fun r v hv => ?_)
        cases r with
        | error e => exact herror hv
        | ok _ => exact fun w _ => ⟨trivial, .ok rfl⟩

theorem restore_records (s : System) :
    Safe handler (fun _ => True) (fun _ => True) (fun _ t => idle t = true) restore s := by
  have hidle : ∀ t : System, t.applied = .none → idle t = true := fun t ht => by
    rw [idle, ht]; rfl
  have hs : ({ s with applied := .none } : System).applied = .none := rfl
  refine safe_perform.mpr fun w _ => ⟨trivial, ?_⟩
  have he : handler .takeApplied w s = (s.applied, { s with applied := .none }) := rfl
  rw [he]
  cases s.applied with
  | none => rfl
  | native names =>
    have hclear : ∀ name, (clearDnsNative name).Calls fun c : Call => c.recordless = true :=
      fun name => (updateDnsNative_native _ _ name).mono fun _ => native_recordless
    exact safe_bind.mpr ((applied_keeps (Prog.Calls.each hclear names) hs).post fun _ t => hidle t)
  | netsh names =>
    exact safe_bind.mpr ((applied_keeps (Prog.Calls.each netshClear_recordless names) hs).post
      fun _ t => hidle t)

theorem flushCache_records (s : System) :
    Safe handler (fun _ => True) (fun _ => True) (fun _ t => idle t = idle s) flushCache s :=
  (flushCache_same s).mono (fun _ h => h) (fun _ _ => trivial) fun _ t ht => by rw [ht]

end Windows

theorem WindowsRedirector_records : Records WindowsRedirector Windows.idle :=
  .ofProg Windows.apply_records Windows.restore_records Windows.flushCache_records

end Voidns
