import Voidns.Lib.Crash
import Voidns.Redirect.Linux

/-!
# The contents of `/etc/resolv.conf`

The first `resolvconf_apply` copies `/etc/resolv.conf` to a backup before it
overwrites it, and leaves a backup that is there alone.  So the user's contents
are in `/etc/resolv.conf` until there is a backup, and in the backup from then on
(`Kept`): every operation keeps this, and so does a crash between two of them.
What it hangs on is `Path::exists`, which takes a `stat` that fails for a file
that is not there.

The second half is about one session, an apply and a restore that succeed.
-/

namespace Voidns.Linux

open Effect FileSystem

variable {C : String} {s : System}

/-- The contents `C` are safe: in `/etc/resolv.conf` as long as there is no
backup, in the backup from then on. -/
structure Kept (C : String) (s : System) : Prop where
  contents : (s.fs resolvBackup = none ∧ read s.fs resolvConf = some C) ∨
    (s.fs resolvBackup = some (.file C) ∧ final s.fs resolvConf ≠ some resolvBackup)
  record : s.active = .resolvConf → s.fs resolvBackup = some (.file C)

/-- **The existence checks that matter answer truthfully.**  A failed `stat` of
`/etc/resolv.conf` is harmless once there is a backup, and one of the backup is
harmless as long as `/etc/resolv.conf` still reads `C`. -/
def Answers (C : String) (e : CallEvent sig Fate System) : Prop :=
  (e.call = .pathExists resolvConf → e.choice = .ok ∨ e.before.fs resolvBackup ≠ none) ∧
  (e.call = .pathExists resolvBackup → e.choice = .ok ∨ e.before.fs resolvBackup = none ∨
    read e.before.fs resolvConf = some C)

instance (C : String) : DecidablePred (Answers C) := fun _ => inferInstanceAs (Decidable (_ ∧ _))

theorem resolvConf_ne_resolvBackup : resolvConf ≠ resolvBackup := by decide

namespace Kept

theorem backup_not_link (h : Kept C s) : isLink s.fs resolvBackup = false := by
  refine isLink_eq_false.mpr fun t ht => ?_
  rcases h.contents with ⟨hb, _⟩ | ⟨hb, _⟩ <;> rw [hb] at ht <;> exact absurd ht (by simp)

/-- The chain from `/etc/resolv.conf` never ends at the backup. -/
theorem final_ne (h : Kept C s) : final s.fs resolvConf ≠ some resolvBackup := by
  rcases h.contents with ⟨hb, hr⟩ | ⟨_, hf⟩
  · intro hf
    obtain ⟨q, hq, hc⟩ := read_eq_some.mp hr
    rw [hq] at hf
    rw [Option.some.inj hf, hb] at hc
    exact absurd hc (by simp)
  · exact hf

/-- With a backup there, the contents are in it. -/
theorem backup_of_ne (h : Kept C s) (hb : s.fs resolvBackup ≠ none) :
    s.fs resolvBackup = some (.file C) := by
  rcases h.contents with ⟨hn, _⟩ | ⟨hf, _⟩
  · exact absurd hn hb
  · exact hf

theorem of_backup (hb : s.fs resolvBackup = some (.file C))
    (hf : final s.fs resolvConf ≠ some resolvBackup) : Kept C s := ⟨Or.inr ⟨hb, hf⟩, fun _ => hb⟩

/-- Writing through `/etc/resolv.conf` leaves the backup alone. -/
theorem write (h : Kept C s) (hb : s.fs resolvBackup = some (.file C)) {c : String}
    {fs : Fs String String} (hw : FileSystem.write s.fs resolvConf c = some fs) :
    Kept C { s with fs := fs } ∧ fs resolvBackup = some (.file C) := by
  have hb' : fs resolvBackup = some (.file C) := by rw [write_of_ne hw h.final_ne, hb]
  exact ⟨of_backup hb' (by rw [final_write hw]; exact h.final_ne), hb'⟩

/-- Unlinking `/etc/resolv.conf` leaves the backup alone. -/
theorem remove (hb : s.fs resolvBackup = some (.file C)) {fs : Fs String String}
    (hr : FileSystem.remove s.fs resolvConf = some fs) :
    Kept C { s with fs := fs } ∧ fs resolvBackup = some (.file C) := by
  obtain ⟨_, rfl⟩ := remove_eq_some.mp hr
  have hb' : Function.update s.fs resolvConf none resolvBackup = some (.file C) := by
    rw [Function.update_of_ne resolvConf_ne_resolvBackup.symm, hb]
  refine ⟨of_backup hb' ?_, hb'⟩
  have hf : final (Function.update s.fs resolvConf none) resolvConf = some resolvConf :=
    final_of_not_link (isLink_eq_false.mpr fun t ht => by simp at ht)
  rw [hf]
  exact fun he => resolvConf_ne_resolvBackup (Option.some.inj he)

/-- Backing up a `/etc/resolv.conf` that reads `C`. -/
theorem copy (h : Kept C s) (hr : read s.fs resolvConf = some C) {fs : Fs String String}
    (hc : FileSystem.copy s.fs resolvConf resolvBackup = some fs) :
    Kept C { s with fs := fs } ∧ fs resolvBackup = some (.file C) := by
  obtain ⟨c, hrc, hw⟩ := copy_eq_some.mp hc
  obtain rfl : C = c := Option.some.inj (hr.symm.trans hrc)
  have hfb : final s.fs resolvBackup = some resolvBackup := final_of_not_link h.backup_not_link
  rw [hfb, if_neg h.final_ne] at hw
  have hb' : fs resolvBackup = some (.file C) := by
    rw [(write_of_not_link h.backup_not_link).mp hw, Function.update_self]
  exact ⟨of_backup hb' (by rw [final_write hw]; exact h.final_ne), hb'⟩

/-- Copying the backup back. -/
theorem copyBack (h : Kept C s) (hb : s.fs resolvBackup = some (.file C)) {fs : Fs String String}
    (hc : FileSystem.copy s.fs resolvBackup resolvConf = some fs) :
    Kept C { s with fs := fs } ∧ fs resolvBackup = some (.file C) ∧
      read fs resolvConf = some C := by
  obtain ⟨c, hrc, hw⟩ := copy_eq_some.mp hc
  obtain rfl : C = c := Option.some.inj ((read_of_file hb).symm.trans hrc)
  have hne : final s.fs resolvBackup ≠ final s.fs resolvConf := by
    rw [final_of_not_link h.backup_not_link]
    exact fun he => h.final_ne he.symm
  rw [if_neg hne] at hw
  exact ⟨(h.write hb hw).1, (h.write hb hw).2, read_write hw⟩

end Kept

/-! ### The two jobs keep the contents -/

theorem backupStep_safe (h : Kept C s) :
    Safe handler (Answers C) (fun e => Kept C e.after)
      (fun r t => Kept C t ∧ (r = .ok () → t.fs resolvBackup = some (.file C))) backupStep s := by
  refine safe_perform.mpr fun w hA => ?_
  rcases pathExists_cases resolvConf w s with ⟨he, _⟩ | ⟨he, hc⟩
  · rw [he]
    refine ⟨h, safe_perform.mpr fun w hA => ?_⟩
    rcases pathExists_cases resolvBackup w s with ⟨he, hb⟩ | ⟨he, hb⟩
    · rw [he]
      refine ⟨h, h, fun _ => h.backup_of_ne fun hn => ?_⟩
      rw [FileSystem.pathExists, read_of_none hn] at hb
      exact absurd hb (by simp)
    · rw [he]
      refine ⟨h, safe_perform.mpr fun w _ => ?_⟩
      rcases copy_cases resolvConf resolvBackup w s with ⟨e, he⟩ | ⟨fs, rfl, hfs, he⟩
      · rw [he]
        exact ⟨h, h, fun hr => absurd hr (by simp)⟩
      · -- the copy runs only when there is no backup or `stat` of it has failed harmlessly
        have hr : read s.fs resolvConf = some C := by
          rcases h.contents with ⟨_, hr⟩ | ⟨hf, _⟩
          · exact hr
          · rcases hA.2 rfl with hw | hn | hr
            · exact absurd ((read_of_file hf).symm.trans (pathExists_eq_false.mp (hb hw))) (by simp)
            · exact absurd (hf.symm.trans hn) (by simp)
            · exact hr
        rw [he]
        obtain ⟨hk, hb'⟩ := h.copy hr hfs
        exact ⟨hk, hk, fun _ => hb'⟩
  · rw [he]
    refine ⟨h, h, fun _ => h.backup_of_ne fun hn => ?_⟩
    rcases hA.1 rfl with hw | hb
    · rcases h.contents with ⟨_, hr⟩ | ⟨hf, _⟩
      · exact absurd (hr.symm.trans (pathExists_eq_false.mp (hc hw))) (by simp)
      · exact absurd (hf.symm.trans hn) (by simp)
    · exact hb hn

theorem unlinkStep_safe (h : Kept C s) (hb : s.fs resolvBackup = some (.file C)) :
    Safe handler (Answers C) (fun e => Kept C e.after)
      (fun _ t => Kept C t ∧ t.fs resolvBackup = some (.file C)) unlinkStep s := by
  refine safe_perform.mpr fun w _ => ?_
  rcases symlinkMetadata_cases resolvConf w s with ⟨_, e, he⟩ | ⟨_, he⟩ | ⟨_, he⟩
  · rw [he]
    exact ⟨h, h, hb⟩
  · rw [he]
    exact ⟨h, h, hb⟩
  · rw [he]
    refine ⟨h, safe_perform.mpr fun w _ => ?_⟩
    rcases removeFile_cases resolvConf w s with ⟨e, he⟩ | ⟨fs, rfl, hfs, he⟩
    · rw [he]
      exact ⟨h, h, hb⟩
    · rw [he]
      exact ⟨(Kept.remove hb hfs).1, Kept.remove hb hfs⟩

theorem writeStep_safe (proxy : IpAddr) (h : Kept C s)
    (hb : s.fs resolvBackup = some (.file C)) :
    Safe handler (Answers C) (fun e => Kept C e.after)
      (fun _ t => Kept C t ∧ t.fs resolvBackup = some (.file C)) (writeStep proxy) s := by
  refine safe_perform.mpr fun w _ => ?_
  rcases write_cases resolvConf (managed proxy) w s with ⟨e, he⟩ | ⟨fs, rfl, hfs, he⟩
  · rw [he]
    exact ⟨h, h, hb⟩
  · rw [he]
    exact ⟨(h.write hb hfs).1, h.write hb hfs⟩

theorem resolvconfApply_safe (proxy : IpAddr) (h : Kept C s) :
    Safe handler (Answers C) (fun e => Kept C e.after)
      (fun r t => Kept C t ∧ (r = .ok () → t.fs resolvBackup = some (.file C)))
      (resolvconfApply proxy) s := by
  refine safe_bind.mpr ((backupStep_safe h).post fun r t ht => ?_)
  cases r with
  | error e => exact ⟨ht.1, fun hr => absurd hr (by simp)⟩
  | ok _ =>
    refine safe_bind.mpr ((unlinkStep_safe ht.1 (ht.2 rfl)).post fun r u hu => ?_)
    cases r with
    | error e => exact ⟨hu.1, fun hr => absurd hr (by simp)⟩
    | ok _ => exact (writeStep_safe proxy hu.1 hu.2).post fun r v hv => ⟨hv.1, fun _ => hv.2⟩

theorem fallback_safe (proxy : IpAddr) (h : Kept C s) :
    Safe handler (Answers C) (fun e => Kept C e.after) (fun _ t => Kept C t) (fallback proxy) s := by
  refine safe_bind.mpr ((resolvconfApply_safe proxy h).post fun r t ht => ?_)
  cases r with
  | error e => exact ht.1
  | ok _ =>
    have hk : Kept C { t with active := .resolvConf } :=
      ⟨ht.1.contents, fun _ => ht.2 rfl⟩
    exact safe_perform.mpr fun w _ => ⟨hk, hk⟩

theorem apply_safe (proxy : IpAddr) (h : Kept C s) :
    Safe handler (Answers C) (fun e => Kept C e.after) (fun _ t => Kept C t) (apply proxy) s := by
  refine safe_perform.mpr fun w _ => ?_
  rcases pathExists_cases resolvedStub w s with ⟨he, _⟩ | ⟨he, _⟩
  · rw [he]
    refine ⟨h, safe_bind.mpr ((bus_keeps (applyResolved_bus proxy)
      (fun s links hk => ⟨hk.contents, hk.record⟩) h).post fun r t ht => ?_)⟩
    cases r with
    | error e => exact fallback_safe proxy ht
    | ok ifindex =>
      have hk : Kept C { t with active := .resolved ifindex } :=
        ⟨ht.contents, fun ha => absurd ha (by simp)⟩
      exact safe_perform.mpr fun w _ => ⟨hk, hk⟩
  · rw [he]
    exact ⟨h, fallback_safe proxy h⟩

/-- `resolvconf_restore`, entered with the contents in the backup. -/
theorem resolvconfRestore_safe (h : Kept C s) (hi : s.active = .idle)
    (hb : s.fs resolvBackup = some (.file C)) :
    Safe handler (Answers C) (fun e => Kept C e.after)
      (fun r t => Kept C t ∧ (r = .ok () → read t.fs resolvConf = some C)) resolvconfRestore s := by
  refine safe_perform.mpr fun w hA => ?_
  rcases pathExists_cases resolvBackup w s with ⟨he, _⟩ | ⟨he, hno⟩
  · rw [he]
    refine ⟨h, safe_perform.mpr fun w _ => ?_⟩
    rcases copy_cases resolvBackup resolvConf w s with ⟨e, he⟩ | ⟨fs, rfl, hfs, he⟩
    · rw [he]
      exact ⟨h, h, fun hr => absurd hr (by simp)⟩
    · rw [he]
      obtain ⟨hk, hb', hr⟩ := h.copyBack hb hfs
      refine ⟨hk, safe_perform.mpr fun w _ => ?_⟩
      rcases removeFile_cases resolvBackup w { s with fs := fs } with ⟨e, he⟩ | ⟨fs', rfl, hfs', he⟩
      · rw [he]
        exact ⟨hk, hk, fun _ => hr⟩
      · -- with the backup gone the contents are in `/etc/resolv.conf`
        obtain ⟨_, rfl⟩ := remove_eq_some.mp hfs'
        have hr' : read (Function.update fs resolvBackup none) resolvConf = some C := by
          obtain ⟨q, hq, hc⟩ := read_eq_some.mp hr
          refine read_eq_some.mpr ⟨q, ?_, ?_⟩
          · rw [final_remove_file hk.backup_not_link, hq]
          · rw [Function.update_of_ne (fun hqb => hk.final_ne (by rw [← hqb]; exact hq)), hc]
        have hk' : Kept C { s with fs := Function.update fs resolvBackup none } :=
          ⟨Or.inl ⟨Function.update_self resolvBackup none fs, hr'⟩,
    fun ha => absurd (hi.symm.trans ha) (by simp)⟩
        rw [he]
        exact ⟨hk', hk', fun _ => hr'⟩
  · rw [he]
    refine ⟨h, h, fun _ => ?_⟩
    rcases hA.2 rfl with hw | hn | hr
    · exact absurd ((read_of_file hb).symm.trans (pathExists_eq_false.mp (hno hw))) (by simp)
    · exact absurd (hb.symm.trans hn) (by simp)
    · exact hr

theorem restore_safe (h : Kept C s) :
    Safe handler (Answers C) (fun e => Kept C e.after)
      (fun r t => Kept C t ∧
        (s.active = .resolvConf → r = .ok () → read t.fs resolvConf = some C)) restore s := by
  have hk : Kept C { s with active := .idle } := ⟨h.contents, fun ha => absurd ha (by simp)⟩
  refine safe_perform.mpr fun w _ => ⟨hk, ?_⟩
  have he : handler .takeActive w s = (s.active, { s with active := .idle }) := rfl
  rw [he]
  cases ha : s.active with
  | idle => exact ⟨hk, fun hc => absurd hc (by simp)⟩
  | resolvConf =>
    exact (resolvconfRestore_safe hk rfl (h.record ha)).post fun r t ht => ⟨ht.1, fun _ => ht.2⟩
  | resolved ifindex =>
    refine safe_bind.mpr ((bus_keeps (managerCall_bus _)
      (fun s links hk => ⟨hk.contents, hk.record⟩) hk).post fun r t ht => ?_)
    cases r <;> exact ⟨ht, fun hc => absurd hc (by simp)⟩

/-! ### Runs with crashes -/

/-- What the daemon asks of the redirector. -/
inductive Job where
  | apply (proxy : IpAddr)
  | restore

def Job.body : Job → Prog sig (Except Error Unit)
  | apply proxy => Linux.apply proxy
  | restore => Linux.restore

/-- A new process: the files are as they were left, the record is not. -/
def reboot (s : System) : System := { s with active := .idle }

/-- The call by which systemd-resolved takes a redirect for good. -/
def Call.redirects : Call → Bool
  | .busCall (.setLinkDefaultRoute ..) => true
  | _ => false

/-- The run takes the `resolv.conf` path: `apply_resolved` never succeeds. -/
def ResolvConfPath (e : CallEvent sig Fate System) : Prop :=
  e.call.redirects = true → e.choice ≠ .ok

instance : DecidablePred ResolvConfPath := fun _ => inferInstanceAs (Decidable (_ → _))

/-- Nothing of `C` is lost at a point of a run. -/
structure ContentsKept (C : String) (f : Option (Frame Job sig System (Except Error Unit)))
    (s : System) : Prop where
  somewhere : read s.fs resolvConf = some C ∨ read s.fs resolvBackup = some C
  backup : s.fs resolvBackup ≠ none → read s.fs resolvBackup = some C
  restored : ∀ t, f = some ⟨.restore, t, .ret (.ok ())⟩ → t.active = .resolvConf →
    read s.fs resolvConf = some C

theorem Kept.initial (hr : read s.fs resolvConf = some C) (hb : s.fs resolvBackup = none)
    (hi : s.active = .idle) : Kept C s :=
  ⟨Or.inl ⟨hb, hr⟩, fun ha => absurd (hi.symm.trans ha) (by simp)⟩

theorem Kept.reboot (h : Kept C s) : Kept C (reboot s) :=
  ⟨h.contents, fun ha => absurd ha (by simp [Linux.reboot])⟩

theorem job_safe (j : Job) (h : Kept C s) :
    Safe handler (Answers C) (fun e => Kept C e.after)
      (fun r t => Kept C t ∧ (j = .restore → s.active = .resolvConf → r = .ok () →
        read t.fs resolvConf = some C)) j.body s := by
  cases j with
  | apply proxy => exact (apply_safe proxy h).post fun r t ht => ⟨ht, fun hj => absurd hj (by simp)⟩
  | restore => exact (restore_safe h).post fun r t ht => ⟨ht.1, fun _ => ht.2⟩

/-- **No crash loses the contents of `/etc/resolv.conf`.**  At every point of
every run of `apply` and `restore`, killed and started again anywhere, they are
in the file or in the backup, and a restore that says it restored did, as long
as no existence check that matters answers `false` of a file that is there. -/
theorem contents_survive_crashes {C : String} {s₀ s : System}
    {f : Option (Frame Job sig System (Except Error Unit))}
    (hr : read s₀.fs resolvConf = some C) (hb : s₀.fs resolvBackup = none)
    (hi : s₀.active = .idle) (h : Reach handler (Answers C) Job.body reboot s₀ f s) :
    ContentsKept C f s := by
  have h₀ : Kept C s₀ := Kept.initial hr hb hi
  have hk : Kept C s := (h.invariant h₀ (fun _ hs => hs.reboot) fun j _ hs => job_safe j hs).1
  refine ⟨?_, fun hne => read_of_file (hk.backup_of_ne hne), fun t hf ha => ?_⟩
  · rcases hk.contents with ⟨_, hc⟩ | ⟨hc, _⟩
    · exact Or.inl hc
    · exact Or.inr (read_of_file hc)
  · subst hf
    exact Reach.post h₀ (fun _ hs => hs.reboot) (fun j _ hs => job_safe j hs) h rfl ha rfl

/-- The contents survive an `apply` whose calls all succeed and a crash after
it. -/
theorem contents_survive_crashes_plainHost :
    ContentsKept "nameserver 9.9.9.9\n" none
      (reboot (exec handler (apply .localhost) ([] : List Fate) plainHost).state) :=
  contents_survive_crashes (C := "nameserver 9.9.9.9\n") (by decide) (by decide) rfl
    (.kill (.runs (apply .localhost) [] (.start (Job.apply .localhost) .init) (by decide)))

/-- **A failed `stat` loses them.**  When `stat` of `/etc/resolv.conf` fails in
the first `apply`, `Path::exists` answers `false`, nothing is backed up, and the
file is overwritten. -/
theorem contents_lost_to_failed_stat :
    ∃ f s, Reach handler ResolvConfPath Job.body reboot plainHost f s ∧
      read plainHost.fs resolvConf = some "nameserver 9.9.9.9\n" ∧
      plainHost.fs resolvBackup = none ∧ plainHost.active = .idle ∧
      ¬ ContentsKept "nameserver 9.9.9.9\n" f s := by
  refine ⟨_, _, .runs (apply .localhost) [.ok, .fails "stat"]
    (.start (Job.apply .localhost) .init) (by decide), by decide, by decide, rfl, ?_⟩
  intro h
  rcases h.somewhere with hc | hc
  · exact absurd hc (by decide)
  · exact absurd hc (by decide)

/-! ### One session -/

/-- `resolvconf_apply`, and `resolvconf_restore` after it. -/
def session (proxy : IpAddr) : Prog sig (Except Error Unit × Except Error Unit) := do
  let applied ← resolvconfApply proxy
  let restored ← resolvconfRestore
  return (applied, restored)

/-- The calls that only look at a path. -/
def Call.looks : Call → Bool
  | .pathExists _ | .symlinkMetadata _ => true
  | _ => false

/-- Looking at a path does not fail. -/
def Looks (e : CallEvent sig Fate System) : Prop := e.call.looks = true → e.choice = .ok

instance : DecidablePred Looks := fun _ => inferInstanceAs (Decidable (_ → _))

/-- What a session puts back: a backup left over from an earlier one, and
otherwise what `/etc/resolv.conf` reads. -/
def saved (fs : Fs String String) : Option String :=
  match fs resolvBackup with
  | some (.file B) => some B
  | _ => read fs resolvConf

/-- A backup that is there is what is put back. -/
theorem saved_of_backup (hl : isLink s.fs resolvBackup = false) (hb : s.fs resolvBackup ≠ none) :
    s.fs resolvBackup = (saved s.fs).map .file := by
  cases hn : s.fs resolvBackup with
  | none => exact absurd hn hb
  | some node =>
    cases node with
    | link t => exact absurd hn (isLink_eq_false.mp hl t)
    | file B => rw [saved, hn]; rfl

theorem backupStep_saves (hl : isLink s.fs resolvBackup = false) :
    Safe handler Looks (fun _ => True) (fun r t => r = .ok () →
      t.fs resolvBackup = (saved s.fs).map .file) backupStep s := by
  have hfresh : s.fs resolvBackup = none → saved s.fs = read s.fs resolvConf := by
    intro hb
    rw [saved, hb]
  refine safe_perform.mpr fun w hA => ?_
  rcases pathExists_cases resolvConf w s with ⟨he, _⟩ | ⟨he, hc⟩
  · rw [he]
    refine ⟨trivial, safe_perform.mpr fun w hA => ?_⟩
    rcases pathExists_cases resolvBackup w s with ⟨he, hb⟩ | ⟨he, hb⟩
    · rw [he]
      refine ⟨trivial, fun _ => saved_of_backup hl fun hn => ?_⟩
      rw [FileSystem.pathExists, read_of_none hn] at hb
      exact absurd hb (by simp)
    · rw [he]
      refine ⟨trivial, safe_perform.mpr fun w _ => ?_⟩
      rcases copy_cases resolvConf resolvBackup w s with ⟨e, he⟩ | ⟨fs, rfl, hfs, he⟩
      · rw [he]
        exact ⟨trivial, fun hr => absurd hr (by simp)⟩
      · rw [he]
        refine ⟨trivial, fun _ => ?_⟩
        have hn : s.fs resolvBackup = none := by
          cases hf : s.fs resolvBackup with
          | none => rfl
          | some node =>
            cases node with
            | link t => exact absurd hf (isLink_eq_false.mp hl t)
            | file B =>
              have hno := pathExists_eq_false.mp (hb (hA rfl))
              exact absurd ((read_of_file hf).symm.trans hno) (by simp)
        obtain ⟨c, hrc, hw⟩ := copy_eq_some.mp hfs
        have hne : final s.fs resolvConf ≠ final s.fs resolvBackup := by
          rw [final_of_not_link hl]
          intro hf
          obtain ⟨q, hq, hq'⟩ := read_eq_some.mp hrc
          rw [hq] at hf
          rw [Option.some.inj hf, hn] at hq'
          exact absurd hq' (by simp)
        rw [if_neg hne, write_of_not_link hl] at hw
        rw [hfresh hn, hrc]
        show fs resolvBackup = some (.file c)
        rw [hw, Function.update_self]
  · rw [he]
    refine ⟨trivial, fun _ => ?_⟩
    have hno := pathExists_eq_false.mp (hc (hA rfl))
    by_cases hb : s.fs resolvBackup = none
    · rw [hfresh hb, hno]
      exact hb
    · exact saved_of_backup hl hb

theorem unlinkStep_unlinks :
    Safe handler Looks (fun _ => True) (fun r t => r = .ok () →
      t.fs resolvBackup = s.fs resolvBackup ∧ isLink t.fs resolvConf = false) unlinkStep s := by
  refine safe_perform.mpr fun w hA => ?_
  rcases symlinkMetadata_cases resolvConf w s with ⟨hn, e, he⟩ | ⟨hl, he⟩ | ⟨_, he⟩
  · rw [he]
    exact ⟨trivial, fun _ => ⟨rfl, isLink_eq_false.mpr fun t ht =>
      absurd ((hn (hA rfl)).symm.trans ht) (by simp)⟩⟩
  · rw [he]
    exact ⟨trivial, fun _ => ⟨rfl, hl⟩⟩
  · rw [he]
    refine ⟨trivial, safe_perform.mpr fun w _ => ?_⟩
    rcases removeFile_cases resolvConf w s with ⟨e, he⟩ | ⟨fs, rfl, hfs, he⟩
    · rw [he]
      exact ⟨trivial, fun hr => absurd hr (by simp)⟩
    · rw [he]
      obtain ⟨_, rfl⟩ := remove_eq_some.mp hfs
      refine ⟨trivial, fun _ => ⟨?_, isLink_eq_false.mpr fun t ht => by simp at ht⟩⟩
      show Function.update s.fs resolvConf none resolvBackup = _
      rw [Function.update_of_ne resolvConf_ne_resolvBackup.symm]

theorem writeStep_writes (proxy : IpAddr) (hl : isLink s.fs resolvConf = false) :
    Safe handler Looks (fun _ => True) (fun r t => r = .ok () →
      t.fs resolvBackup = s.fs resolvBackup ∧ t.fs resolvConf = some (.file (managed proxy)))
      (writeStep proxy) s := by
  refine safe_perform.mpr fun w _ => ?_
  rcases write_cases resolvConf (managed proxy) w s with ⟨e, he⟩ | ⟨fs, rfl, hfs, he⟩
  · rw [he]
    exact ⟨trivial, fun hr => absurd hr (by simp)⟩
  · rw [he]
    obtain rfl := (write_of_not_link hl).mp hfs
    refine ⟨trivial, fun _ => ⟨?_, ?_⟩⟩
    · show Function.update s.fs resolvConf (some (.file (managed proxy))) resolvBackup = _
      rw [Function.update_of_ne resolvConf_ne_resolvBackup.symm]
    · show Function.update s.fs resolvConf (some (.file (managed proxy))) resolvConf = _
      rw [Function.update_self]

/-- A restore puts the backup back; without one it does nothing. -/
theorem resolvconfRestore_restores {C : String} {b : Option String}
    (hb : s.fs resolvBackup = b.map .file) (hc : s.fs resolvConf = some (.file C)) :
    Safe handler Looks (fun _ => True) (fun r t => r = .ok () →
      t.fs resolvConf = some (.file (b.getD C))) resolvconfRestore s := by
  refine safe_perform.mpr fun w hA => ?_
  cases b with
  | none =>
    rcases pathExists_cases resolvBackup w s with ⟨_, hex⟩ | ⟨he, _⟩
    · rw [FileSystem.pathExists, read_of_none hb] at hex
      exact absurd hex (by simp)
    · rw [he]
      exact ⟨trivial, fun _ => hc⟩
  | some D =>
    have hbf : s.fs resolvBackup = some (.file D) := hb
    rcases pathExists_cases resolvBackup w s with ⟨he, _⟩ | ⟨he, hno⟩
    · rw [he]
      refine ⟨trivial, safe_perform.mpr fun w _ => ?_⟩
      rcases copy_cases resolvBackup resolvConf w s with ⟨e, he⟩ | ⟨fs, rfl, hfs, he⟩
      · rw [he]
        exact ⟨trivial, fun hr => absurd hr (by simp)⟩
      · rw [he]
        have hconf : fs resolvConf = some (.file D) := by
          obtain ⟨c, hrc, hw⟩ := copy_eq_some.mp hfs
          obtain rfl : D = c := Option.some.inj ((read_of_file hbf).symm.trans hrc)
          have hlb : isLink s.fs resolvBackup = false :=
            isLink_eq_false.mpr fun t ht => absurd (hbf.symm.trans ht) (by simp)
          have hlc : isLink s.fs resolvConf = false :=
            isLink_eq_false.mpr fun t ht => absurd (hc.symm.trans ht) (by simp)
          have hne : final s.fs resolvBackup ≠ final s.fs resolvConf := by
            rw [final_of_not_link hlb, final_of_not_link hlc]
            exact fun he => resolvConf_ne_resolvBackup (Option.some.inj he).symm
          rw [if_neg hne, write_of_not_link hlc] at hw
          rw [hw, Function.update_self]
        refine ⟨trivial, safe_perform.mpr fun w _ => ?_⟩
        -- the backup is removed or stays; either way `/etc/resolv.conf` is back
        rcases removeFile_cases resolvBackup w { s with fs := fs } with
          ⟨e, he⟩ | ⟨fs', rfl, hfs', he⟩
        · rw [he]
          exact ⟨trivial, fun _ => hconf⟩
        · rw [he]
          obtain ⟨_, rfl⟩ := remove_eq_some.mp hfs'
          refine ⟨trivial, fun _ => ?_⟩
          show Function.update fs resolvBackup none resolvConf = some (.file D)
          rw [Function.update_of_ne resolvConf_ne_resolvBackup, hconf]
    · rw [he]
      have hno := pathExists_eq_false.mp (hno (hA rfl))
      exact absurd ((read_of_file hbf).symm.trans hno) (by simp)

theorem resolvconfApply_saves (proxy : IpAddr) (hl : isLink s.fs resolvBackup = false) :
    Safe handler Looks (fun _ => True) (fun r t => r = .ok () →
      t.fs resolvBackup = (saved s.fs).map .file ∧ t.fs resolvConf = some (.file (managed proxy)))
      (resolvconfApply proxy) s := by
  refine safe_bind.mpr ((backupStep_saves hl).post fun r t ht => ?_)
  cases r with
  | error e => exact fun hr => absurd hr (by simp)
  | ok _ =>
    refine safe_bind.mpr (unlinkStep_unlinks.post fun r u hu => ?_)
    cases r with
    | error e => exact fun hr => absurd hr (by simp)
    | ok _ =>
      refine (writeStep_writes proxy (hu rfl).2).post fun r v hv hr => ?_
      rw [(hv hr).1, (hu rfl).1]
      exact ⟨ht rfl, (hv hr).2⟩

theorem session_safe (proxy : IpAddr) (hl : isLink s.fs resolvBackup = false) :
    Safe handler Looks (fun _ => True) (fun r t => r = (.ok (), .ok ()) →
      t.fs resolvConf = some (.file ((saved s.fs).getD (managed proxy)))) (session proxy) s := by
  refine safe_bind.mpr ((resolvconfApply_saves proxy hl).post fun r t ht => ?_)
  cases r with
  | error e =>
    -- a session whose `apply` has failed is none of ours
    refine safe_bind.mpr ((safe_trivial _ t).post fun r u _ hr => ?_)
    exact absurd (Prod.mk.inj hr).1 (by simp)
  | ok _ =>
    refine safe_bind.mpr ((resolvconfRestore_restores (ht rfl).1 (ht rfl).2).post fun r u hu => ?_)
    exact fun hr => hu (Prod.mk.inj hr).2

/-- **What a session puts back.**  A backup left over from an earlier session
wins; without one, `/etc/resolv.conf` comes back as a regular file with the
contents it resolved to, so a regular file comes back as it was.  Where it
resolved to nothing, the file the session wrote is left. -/
theorem session_restores (proxy : IpAddr) (s : System) (ws : List Fate)
    (hl : isLink s.fs resolvBackup = false)
    (hlook : ∀ e ∈ (exec handler (session proxy) ws s).events, Looks e)
    (hok : (exec handler (session proxy) ws s).value = (.ok (), .ok ())) :
    (∀ B, s.fs resolvBackup = some (.file B) →
      (exec handler (session proxy) ws s).state.fs resolvConf = some (.file B)) ∧
    (s.fs resolvBackup = none → ∀ C, read s.fs resolvConf = some C →
      (exec handler (session proxy) ws s).state.fs resolvConf = some (.file C)) ∧
    (s.fs resolvBackup = none → ∀ C, s.fs resolvConf = some (.file C) →
      (exec handler (session proxy) ws s).state.fs resolvConf = s.fs resolvConf) ∧
    (s.fs resolvBackup = none → read s.fs resolvConf = none →
      (exec handler (session proxy) ws s).state.fs resolvConf = some (.file (managed proxy))) := by
  have key := ((session_safe proxy hl).exec ws hlook).2 hok
  have hfresh : s.fs resolvBackup = none → saved s.fs = read s.fs resolvConf := by
    intro hb
    rw [saved, hb]
  refine ⟨fun B hB => ?_, fun hn C hC => ?_, fun hn C hC => ?_, fun hn hno => ?_⟩
  · rw [key, saved, hB]
    rfl
  · rw [key, hfresh hn, hC]
    rfl
  · rw [key, hfresh hn, read_of_file hC, hC]
    rfl
  · rw [key, hfresh hn, hno]
    rfl

theorem session_restores_plainHost :
    (exec handler (session .localhost) ([] : List Fate) plainHost).state.fs resolvConf =
      plainHost.fs resolvConf :=
  (session_restores .localhost plainHost [] (by decide) (by decide) (by decide)).2.2.1 (by decide)
    "nameserver 9.9.9.9\n" (by decide)

/-- A host whose `/etc/resolv.conf` is a link. -/
def linkedHost : System :=
  { plainHost with fs := fun p =>
      if p = resolvConf then some (.link "/run/resolv.conf")
      else if p = "/run/resolv.conf" then some (.file "nameserver 9.9.9.9\n") else none }

/-- A host without `/etc/resolv.conf`. -/
def bareHost : System := { plainHost with fs := fun _ => none }

/-- A host with a backup left over from an earlier session. -/
def staleHost : System :=
  { plainHost with
    fs := Function.update plainHost.fs resolvBackup (some (.file "nameserver 1.1.1.1\n")) }

/-- Apply and restore have succeeded, and `/etc/resolv.conf` is not what it was. -/
def Inexact (ws : List Fate) (s : System) : Prop :=
  (exec handler (session .localhost) ws s).value = (.ok (), .ok ()) ∧
    (exec handler (session .localhost) ws s).state.fs resolvConf ≠ s.fs resolvConf

instance (ws : List Fate) (s : System) : Decidable (Inexact ws s) :=
  inferInstanceAs (Decidable (_ ∧ _))

/-- **Not every session is exact.**  With every call succeeding, a link comes
back as a regular file, where there was nothing the file the session wrote is
left, and a stale backup wins; and a `stat` that fails in `apply` leaves no
backup to put back. -/
theorem session_not_exact : Inexact [] linkedHost ∧ Inexact [] bareHost ∧ Inexact [] staleHost ∧
    Inexact [.fails "stat"] plainHost := by decide

end Voidns.Linux
