import Voidns.Controller.Settled
import Voidns.Redirect.ResolvConf

/-!
# What the Linux redirector undoes

One `apply` and one `restore` leave `/etc/resolv.conf` and the links as they were,
on a host whose links have no run-time settings, whichever mechanism `apply` ends
up with, as long as the calls in `Essential` go through.  The others may fail:
the interface table, the servers of a link, the look for a symbolic link, the
removal of the backup.

`Undisturbed` and `Disturbed` are the two states, in between which the redirector
goes back and forth (`keeps_undisturbed`).
-/

namespace Voidns.Linux

open Effect FileSystem

variable {C : String} {L : Int32 → Link} {s : System}

/-- As before the first `apply`, but for a backup that a `restore` may leave. -/
structure Undisturbed (C : String) (L : Int32 → Link) (s : System) : Prop where
  kept : Kept C s
  conf : read s.fs resolvConf = some C
  active : s.active = .idle
  links : s.links = L

/-- Redirected to the proxy, by one mechanism or the other. -/
inductive Disturbed (C : String) (L : Int32 → Link) (s : System) : Prop
  | resolved (i : Int32) : Kept C s → read s.fs resolvConf = some C → s.active = .resolved i →
      s.links = Function.update L i ⟨dnsAddrs .localhost, some true⟩ → Disturbed C L s
  | resolvConf : Kept C s → s.active = .resolvConf → s.fs resolvBackup = some (.file C) →
      read s.fs resolvConf = some (managed .localhost) → s.links = L → Disturbed C L s

/-- The calls a redirect hangs on.  A backup that is cut short would be restored. -/
def Call.essential : Call → Bool
  | .pathExists p => p == resolvConf || p == resolvBackup
  | .removeFile p => p == resolvConf
  | .copy .. | .write .. | .systemBus | .resolve1Proxy => true
  | .busCall (.setLinkDefaultRoute ..) | .busCall (.revertLink _) => true
  | _ => false

/-- They go through. -/
def Essential (e : CallEvent sig Fate System) : Prop := e.call.essential = true → e.choice = .ok

instance : DecidablePred Essential := fun _ => inferInstanceAs (Decidable (_ → _))

/-- A `stat` that goes through finds a file that is there. -/
theorem pathExists_ok {p c : String} (h : read s.fs p = some c) :
    handler (.pathExists p) .ok s = (true, s) := by
  show ((decide (Fate.ok = .ok) && (read s.fs p).isSome : Bool), s) = _
  rw [h]
  rfl

theorem Essential.answers {e : CallEvent sig Fate System} (h : Essential e) : Answers C e :=
  ⟨fun hc => .inl (h (by rw [hc]; decide)), fun hc => .inl (h (by rw [hc]; decide))⟩

/-! ### `apply` -/

/-- With the bus there, only `SetLinkDNS` can fail, and then nothing has changed. -/
theorem managerCall_ok (m : Method) (s : System) :
    Safe handler Essential (fun _ => True)
      (fun r t => (r = .ok () → t = { s with links := m.effect s.links }) ∧
        ∀ e, r = .error e → t = s ∧ (Call.busCall m).essential = false)
      (managerCall m) s := by
  refine safe_perform.mpr fun w hA => ⟨trivial, ?_⟩
  obtain rfl : w = .ok := hA rfl
  refine safe_perform.mpr fun w hA => ⟨trivial, ?_⟩
  obtain rfl : w = .ok := hA rfl
  refine safe_perform.mpr fun w hA => ⟨trivial, ?_⟩
  rcases busCall_cases m w s with ⟨e, he⟩ | ⟨_, he⟩
  · have hne : (Call.busCall m).essential = false := by
      cases hm : (Call.busCall m).essential with
      | false => rfl
      | true =>
        obtain rfl : w = .ok := hA hm
        exact absurd (congrArg Prod.fst he) (by simp [handler, Fate.attempt])
    exact he ▸ ⟨nofun, fun _ _ => ⟨rfl, hne⟩⟩
  · exact he ▸ ⟨fun _ => rfl, nofun⟩

/-- `apply_resolved` gives one link both settings, or changes nothing. -/
theorem applyResolved_ok (proxy : IpAddr) (s : System) :
    Safe handler Essential (fun _ => True)
      (fun r t =>
        (∀ i, r = .ok i →
          t = { s with links := Function.update s.links i ⟨dnsAddrs proxy, some true⟩ }) ∧
        ∀ e, r = .error e → t = s)
      (applyResolved proxy) s := by
  have hlooks : ∀ {w : Fate} {p : String}, (handler (.readToString p) w s).2 = s := fun {w p} =>
    w.attempt_same (FileSystem.read s.fs p) s
  have hindex : ∀ {w : Fate} {name : String}, (handler (.ifNametoindex name) w s).2 = s :=
    fun {w name} => w.attempt_same (s.ifindex name) s
  have hroute : Safe handler Essential (fun _ => True) (fun _ t => t = s) defaultRouteIface s := by
    refine safe_perform.mpr fun w _ => ⟨trivial, ?_⟩
    rw [hlooks]
    cases (handler (.readToString "/proc/net/route") w s).1 <;> exact rfl
  refine safe_bind.mpr (hroute.post fun iface t ht => ?_)
  subst ht
  cases iface with
  | none => exact ⟨nofun, fun _ _ => rfl⟩
  | some iface =>
    refine safe_perform.mpr fun w _ => ⟨trivial, ?_⟩
    rw [hindex]
    cases (handler (.ifNametoindex iface) w t).1 with
    | error e => exact ⟨nofun, fun _ _ => rfl⟩
    | ok index =>
      refine safe_bind.mpr ((managerCall_ok (.setLinkDns index.toInt32 (dnsAddrs proxy)) t).post
        fun r u ⟨hok, herr⟩ => ?_)
      cases r with
      | error e => exact ⟨nofun, fun _ _ => (herr e rfl).1⟩
      | ok _ =>
        obtain rfl := hok rfl
        refine safe_bind.mpr ((managerCall_ok (.setLinkDefaultRoute index.toInt32 true) _).post
          fun r v ⟨hok, herr⟩ => ?_)
        cases r with
        | error e => exact absurd (herr e rfl).2 (by simp [Call.essential])
        | ok _ =>
          refine ⟨fun i hi => ?_, nofun⟩
          rw [hok rfl, ← Except.ok.inj hi]
          simp [Method.effect]

/-- `/etc/resolv.conf` is backed up, or nothing has changed. -/
theorem backupStep_ok (h : Undisturbed C L s) :
    Safe handler Essential (fun _ => True)
      (fun r t => (r = .ok () → Undisturbed C L t ∧ t.fs resolvBackup = some (.file C)) ∧
        ∀ e, r = .error e → t = s)
      backupStep s := by
  refine safe_perform.mpr fun w hA => ⟨trivial, ?_⟩
  obtain rfl : w = .ok := hA rfl
  rw [pathExists_ok h.conf]
  refine safe_perform.mpr fun w hA => ⟨trivial, ?_⟩
  obtain rfl : w = .ok := hA rfl
  rcases h.kept.contents with ⟨hn, _⟩ | ⟨hb, _⟩
  · have he : handler (.pathExists resolvBackup) .ok s = (false, s) := by
      show ((decide (Fate.ok = .ok) && FileSystem.pathExists s.fs resolvBackup : Bool), s) = _
      rw [pathExists_eq_false.mpr (read_of_none hn)]
      rfl
    rw [he]
    refine safe_perform.mpr fun w _ => ⟨trivial, ?_⟩
    rcases copy_cases resolvConf resolvBackup w s with ⟨e, he⟩ | ⟨fs, rfl, hfs, he⟩
    · rw [he]
      exact ⟨nofun, fun _ _ => rfl⟩
    · rw [he]
      obtain ⟨hk, hb⟩ := h.kept.copy h.conf hfs
      have hr : read fs resolvConf = some C := by
        obtain ⟨_, _, hw⟩ := copy_eq_some.mp hfs
        rw [read_write_of_ne hw, h.conf]
        rw [final_of_not_link h.kept.backup_not_link]
        exact h.kept.final_ne
      exact ⟨fun _ => ⟨⟨hk, hr, h.active, h.links⟩, hb⟩, nofun⟩
  · rw [pathExists_ok (read_of_file hb)]
    exact ⟨fun _ => ⟨h, hb⟩, nofun⟩

/-- The rest of `resolvconf_apply`, once there is a backup. -/
theorem unlinkStep_ok (h : Undisturbed C L s) (hb : s.fs resolvBackup = some (.file C)) :
    Safe handler Essential (fun _ => True)
      (fun r t => r = .ok () ∧ Kept C t ∧ t.fs resolvBackup = some (.file C) ∧
        (∃ q, final t.fs resolvConf = some q) ∧ t.active = s.active ∧ t.links = s.links)
      unlinkStep s := by
  have hfinal : ∃ q, final s.fs resolvConf = some q := by
    obtain ⟨q, hq, _⟩ := read_eq_some.mp h.conf
    exact ⟨q, hq⟩
  refine safe_perform.mpr fun w _ => ⟨trivial, ?_⟩
  rcases symlinkMetadata_cases resolvConf w s with ⟨_, e, he⟩ | ⟨_, he⟩ | ⟨hl, he⟩
  · rw [he]
    exact ⟨rfl, h.kept, hb, hfinal, rfl, rfl⟩
  · rw [he]
    exact ⟨rfl, h.kept, hb, hfinal, rfl, rfl⟩
  · rw [he]
    refine safe_perform.mpr fun w hA => ⟨trivial, ?_⟩
    obtain rfl : w = .ok := hA rfl
    have hne : s.fs resolvConf ≠ none := by
      intro hn
      rw [isLink, hn] at hl
      exact absurd hl (by simp)
    have hfs := remove_eq_some.mpr ⟨hne, rfl⟩
    have he : handler (.removeFile resolvConf) .ok s =
        (.ok (), { s with fs := Function.update s.fs resolvConf none }) := by
      show fileCall .ok (FileSystem.remove s.fs resolvConf) s = _
      rw [hfs]
      rfl
    rw [he]
    obtain ⟨hk, hb'⟩ := Kept.remove hb hfs
    refine ⟨rfl, hk, hb', ⟨resolvConf, final_of_not_link ?_⟩, rfl, rfl⟩
    exact isLink_eq_false.mpr fun t ht => by simp at ht

theorem fallback_ok (h : Undisturbed C L s) :
    Safe handler Essential (fun _ => True)
      (fun r t => (r = .ok () → Disturbed C L t) ∧ ∀ e, r = .error e → Undisturbed C L t)
      (fallback .localhost) s := by
  have hwrites : Safe handler Essential (fun _ => True)
      (fun r t => (r = .ok () → Disturbed C L { t with active := .resolvConf }) ∧
        ∀ e, r = .error e → Undisturbed C L t) (resolvconfApply .localhost) s := by
    refine safe_bind.mpr ((backupStep_ok h).post fun r t ⟨hok, herr⟩ => ?_)
    cases r with
    | error e => exact ⟨nofun, fun _ _ => herr e rfl ▸ h⟩
    | ok _ =>
      obtain ⟨ht, hb⟩ := hok rfl
      refine safe_bind.mpr ((unlinkStep_ok ht hb).post fun r u ⟨hr, hk, hb, ⟨q, hq⟩, _, hl⟩ => ?_)
      subst hr
      refine safe_perform.mpr fun w hA => ⟨trivial, ?_⟩
      obtain rfl : w = .ok := hA rfl
      have hfs := write_eq_some (c := managed .localhost).mpr ⟨q, hq, rfl⟩
      have he : handler (.write resolvConf (managed .localhost)) .ok u =
          (.ok (), { u with fs := Function.update u.fs q (some (.file (managed .localhost))) }) := by
        show fileCall .ok (FileSystem.write u.fs resolvConf _) u = _
        rw [hfs]
        rfl
      rw [he]
      obtain ⟨hk', hb'⟩ := hk.write hb hfs
      refine ⟨fun _ => .resolvConf ⟨hk'.contents, fun _ => hb'⟩ rfl hb' (read_write hfs) ?_, nofun⟩
      exact hl.trans ht.links
  refine safe_bind.mpr (hwrites.post fun r t ⟨hok, herr⟩ => ?_)
  cases r with
  | error e => exact ⟨nofun, fun _ _ => herr e rfl⟩
  | ok _ => exact safe_perform.mpr fun w _ => ⟨trivial, fun _ => hok rfl, nofun⟩

/-- **An `apply`** redirects, or leaves everything as it was. -/
theorem apply_disturbs (h : Undisturbed C L s) :
    Safe handler Essential (fun _ => True)
      (fun r t => (r = .ok () → Disturbed C L t) ∧ ∀ e, r = .error e → Undisturbed C L t)
      (apply .localhost) s := by
  refine safe_perform.mpr fun w _ => ⟨trivial, ?_⟩
  have hs : (handler (.pathExists resolvedStub) w s).2 = s := rfl
  rw [hs]
  cases (handler (.pathExists resolvedStub) w s).1 with
  | false => exact fallback_ok h
  | true =>
    refine safe_bind.mpr ((applyResolved_ok .localhost s).post fun r t ⟨hok, herr⟩ => ?_)
    cases r with
    | error e => exact herr e rfl ▸ fallback_ok h
    | ok i =>
      obtain rfl := hok i rfl
      refine safe_perform.mpr fun w _ => ⟨trivial, fun _ => ?_, nofun⟩
      refine .resolved i ⟨h.kept.contents, nofun⟩ h.conf rfl ?_
      show Function.update s.links i _ = _
      rw [h.links]

/-! ### `restore` -/

/-- With a backup there and `/etc/resolv.conf` to copy it to, the restore succeeds. -/
theorem resolvconfRestore_ok {c : String} (hb : s.fs resolvBackup = some (.file C))
    (hr : read s.fs resolvConf = some c) :
    Safe handler Essential (fun _ => True)
      (fun r t => r = .ok () ∧ t.active = s.active ∧ t.links = s.links) resolvconfRestore s := by
  refine safe_perform.mpr fun w hA => ⟨trivial, ?_⟩
  obtain rfl : w = .ok := hA rfl
  rw [pathExists_ok (read_of_file hb)]
  refine safe_perform.mpr fun w hA => ⟨trivial, ?_⟩
  obtain rfl : w = .ok := hA rfl
  obtain ⟨fs, hfs⟩ : ∃ fs, FileSystem.copy s.fs resolvBackup resolvConf = some fs := by
    obtain ⟨q, hq, _⟩ := read_eq_some.mp hr
    exact ⟨_, copy_eq_some.mpr ⟨C, read_of_file hb, write_eq_some.mpr ⟨q, hq, rfl⟩⟩⟩
  have he : handler (.copy resolvBackup resolvConf) .ok s = (.ok (), { s with fs := fs }) := by
    show fileCall .ok (FileSystem.copy s.fs resolvBackup resolvConf) s = _
    rw [hfs]
    rfl
  rw [he]
  -- the backup is removed or stays
  refine safe_perform.mpr fun w _ => ⟨trivial, ?_⟩
  rcases removeFile_cases resolvBackup w { s with fs := fs } with ⟨e, he⟩ | ⟨fs', _, _, he⟩ <;>
    exact he ▸ ⟨rfl, rfl, rfl⟩

/-- **A `restore`** undoes either mechanism. -/
theorem restore_undoes (hL : ∀ i, L i = .unset) (h : Disturbed C L s ∨ Undisturbed C L s) :
    Safe handler Essential (fun _ => True) (fun _ t => Undisturbed C L t) restore s := by
  refine safe_perform.mpr fun w _ => ⟨trivial, ?_⟩
  have he : handler .takeActive w s = (s.active, { s with active := .idle }) := rfl
  rw [he]
  rcases h with (⟨i, hk, hr, ha, hl⟩ | ⟨hk, ha, hb, hr, hl⟩) | ⟨hk, hr, ha, hl⟩ <;> rw [ha]
  · refine safe_bind.mpr ((managerCall_ok (.revertLink i) _).post fun r t ⟨hok, herr⟩ => ?_)
    cases r with
    | error e => exact absurd (herr e rfl).2 (by simp [Call.essential])
    | ok _ =>
      obtain rfl := hok rfl
      refine ⟨⟨hk.contents, nofun⟩, hr, rfl, ?_⟩
      show Function.update s.links i .unset = L
      rw [hl, Function.update_idem, Function.update_eq_self_iff, hL]
  · have hk' : Kept C { s with active := .idle } := ⟨hk.contents, nofun⟩
    have hcontents := (resolvconfRestore_safe hk' rfl hb).mono (fun _ => Essential.answers)
      (fun _ _ => trivial) fun _ _ h => h
    refine (hcontents.and (resolvconfRestore_ok hb hr)).mono (fun _ h => h) (fun _ _ => trivial) ?_
    exact fun r t ⟨⟨hk, hr⟩, hok, ha, hl'⟩ => ⟨hk, hr hok, ha, hl'.trans hl⟩
  · exact ⟨⟨hk.contents, nofun⟩, hr, rfl, hl⟩

/-! ### Under the controller -/

/-- The calls of the redirector that matter go through. -/
def OsWorks (e : CallEvent Controller.sig (Controller.Choice (List Fate)) (Controller System)) :
    Prop :=
  match e.call with
  | .apply ip => ∀ x ∈ (exec handler (apply ip) e.choice.os e.before.redirector).events, Essential x
  | .restore => ∀ x ∈ (exec handler restore e.choice.os e.before.redirector).events, Essential x
  | _ => True

instance : DecidablePred OsWorks
  | ⟨.apply ip, w, c, _⟩ =>
    inferInstanceAs (Decidable (∀ x ∈ (exec handler (apply ip) w.os c.redirector).events, _))
  | ⟨.restore, w, c, _⟩ =>
    inferInstanceAs (Decidable (∀ x ∈ (exec handler restore w.os c.redirector).events, _))
  | ⟨.status, _, _, _⟩ | ⟨.set _, _, _, _⟩ | ⟨.port, _, _, _⟩ | ⟨.start .., _, _, _⟩
  | ⟨.stop _, _, _, _⟩ | ⟨.putProxy _, _, _, _⟩ | ⟨.takeProxy, _, _, _⟩ | ⟨.flushCache, _, _, _⟩
  | ⟨.subscribe, _, _, _⟩ => isTrue trivial

theorem keeps_undisturbed (C : String) (hL : ∀ i, L i = .unset) :
    Controller.Keeps LinuxRedirector OsWorks (Disturbed C L) (Undisturbed C L) where
  apply w c hA h := ((apply_disturbs h).exec w.os hA).2
  restore w c hA h := ((restore_undoes hL h).exec w.os hA).2
  flush w s := by
    have hs : (LinuxRedirector.flushCache w s).2 = s := ((flushCache_same s).exec_total w).2
    rw [hs]
    exact ⟨id, id⟩

end Voidns.Linux
