import Voidns.Redirect.ResolvConf

/-!
# What the Linux redirector leaves alone

Every path but `/etc/resolv.conf` and its backup names what it named, and every
link but that of the default route has the settings it had, at every point of
every run, killed and started again anywhere.  A write goes through symbolic
links, so this takes that the backup is no link to begin with, and that `apply`
sees that `/etc/resolv.conf` is one before it overwrites it: a failed look would
have it write to the file the link names.
-/

namespace Voidns.Linux

open Effect FileSystem

/-- The table `default_route_iface` reads. -/
def routeTable : String := "/proc/net/route"

/-- Link `i` is that of the default route. -/
def System.routesBy (s : System) (i : Int32) : Prop :=
  ∃ name index, (read s.fs routeTable).bind Parse.parseDefaultRouteIface = some name ∧
    s.ifindex name = some index ∧ index.toInt32 = i

/-- `s` differs from `s₀` where the redirector may change something. -/
structure Framed (s₀ s : System) : Prop where
  files : ∀ p, p ≠ resolvConf → p ≠ resolvBackup → s.fs p = s₀.fs p
  links : ∀ i, s.links i ≠ s₀.links i → s₀.routesBy i
  backup : isLink s.fs resolvBackup = false
  ifindex : s.ifindex = s₀.ifindex
  record : s.active = .resolvConf → isLink s.fs resolvConf = false
  reverts : ∀ i, s.active = .resolved i → s₀.routesBy i

/-- `symlink_metadata` finds a link that is there. -/
def LinkSeen (e : CallEvent sig Fate System) : Prop :=
  e.call = .symlinkMetadata resolvConf → isLink e.before.fs resolvConf = true → e.choice = .ok

instance : DecidablePred LinkSeen := fun _ => inferInstanceAs (Decidable (_ → _ → _))

namespace Framed

variable {s₀ s : System}

/-- A file at one of the two paths, which is no link. -/
theorem update (h : Framed s₀ s) {p : String} (hp : p = resolvConf ∨ p = resolvBackup)
    {node : Option (Node String String)} (hn : ∀ t, node ≠ some (.link t)) :
    Framed s₀ { s with fs := Function.update s.fs p node } := by
  have hlink : ∀ {q : String}, isLink s.fs q = false →
      isLink (Function.update s.fs p node) q = false := by
    intro q hq
    by_cases hqp : q = p
    · subst hqp
      refine isLink_eq_false.mpr fun t ht => hn t ?_
      rwa [Function.update_self] at ht
    · rw [isLink, Function.update_of_ne hqp]
      exact hq
  refine ⟨fun q hc hb => ?_, h.links, hlink h.backup, h.ifindex, fun ha => hlink (h.record ha),
    h.reverts⟩
  have hq : q ≠ p := by rcases hp with rfl | rfl <;> assumption
  rw [← h.files q hc hb]
  exact Function.update_of_ne hq _ _

theorem write (h : Framed s₀ s) {p c : String} (hp : p = resolvConf ∨ p = resolvBackup)
    (hl : isLink s.fs p = false) {fs : Fs String String} (hw : FileSystem.write s.fs p c = some fs) :
    Framed s₀ { s with fs := fs } ∧ isLink fs p = false := by
  obtain rfl := (write_of_not_link hl).mp hw
  refine ⟨h.update hp (by simp), isLink_eq_false.mpr fun t ht => ?_⟩
  rw [Function.update_self] at ht
  exact absurd ht (by simp)

theorem remove (h : Framed s₀ s) {p : String} (hp : p = resolvConf ∨ p = resolvBackup)
    {fs : Fs String String} (hr : FileSystem.remove s.fs p = some fs) :
    Framed s₀ { s with fs := fs } ∧ isLink fs p = false := by
  obtain ⟨_, rfl⟩ := remove_eq_some.mp hr
  refine ⟨h.update hp (by simp), isLink_eq_false.mpr fun t ht => ?_⟩
  rw [Function.update_self] at ht
  exact absurd ht (by simp)

theorem setActive (h : Framed s₀ s) {a : Active} (hc : a = .resolvConf → isLink s.fs resolvConf = false)
    (hr : ∀ i, a = .resolved i → s₀.routesBy i) : Framed s₀ { s with active := a } :=
  ⟨h.files, h.links, h.backup, h.ifindex, hc, hr⟩

/-- A method call on the link of the default route. -/
theorem effect (h : Framed s₀ s) {m : Method} {i : Int32} (hi : s₀.routesBy i)
    (hm : ∀ j, j ≠ i → m.effect s.links j = s.links j) :
    Framed s₀ { s with links := m.effect s.links } := by
  refine ⟨h.files, fun j hj => ?_, h.backup, h.ifindex, h.record, h.reverts⟩
  by_cases hji : j = i
  · rw [hji]; exact hi
  · exact h.links j (by rw [← hm j hji]; exact hj)

/-- The table of routes is not touched. -/
theorem routes (h : Framed s₀ s) (hl : isLink s₀.fs routeTable = false) :
    read s.fs routeTable = read s₀.fs routeTable := by
  have hf : s.fs routeTable = s₀.fs routeTable := h.files _ (by decide) (by decide)
  have hl' : isLink s.fs routeTable = false := by rw [isLink, hf]; exact hl
  rw [FileSystem.read, FileSystem.read, final_of_not_link hl, final_of_not_link hl', Option.bind_some, Option.bind_some, hf]

end Framed

section Jobs

variable {s₀ s : System}

theorem managerCall_framed (h : Framed s₀ s) {m : Method} {i : Int32} (hi : s₀.routesBy i)
    (hm : ∀ links j, j ≠ i → m.effect links j = links j) :
    Safe handler LinkSeen (fun e => Framed s₀ e.after) (fun _ t => Framed s₀ t) (managerCall m) s := by
  refine safe_frame (K := fun c : Call => c = .systemBus ∨ c = .resolve1Proxy ∨ c = .busCall m)
    (fun c w s hc _ hs => ?_)
    (managerCall_calls m (.inl rfl) (.inr (.inl rfl)) (.inr (.inr rfl))) h
  rcases hc with rfl | rfl | rfl
  · rw [show (handler .systemBus w s).2 = s from w.attempt_same (some ()) s]
    exact hs
  · rw [show (handler .resolve1Proxy w s).2 = s from w.attempt_same (some ()) s]
    exact hs
  · rcases busCall_cases m w s with ⟨e, he⟩ | ⟨_, he⟩ <;> rw [he]
    · exact hs
    · exact hs.effect hi (hm s.links)

/-- `apply_resolved` takes the link of the default route, and changes no other. -/
theorem applyResolved_framed (hl : isLink s₀.fs routeTable = false) (proxy : IpAddr)
    (h : Framed s₀ s) :
    Safe handler LinkSeen (fun e => Framed s₀ e.after)
      (fun r t => Framed s₀ t ∧ ∀ i, r = .ok i → s₀.routesBy i) (applyResolved proxy) s := by
  have hroute : Safe handler LinkSeen (fun e => Framed s₀ e.after)
      (fun r t => t = s ∧ ∀ name, r = some name →
        (read s₀.fs routeTable).bind Parse.parseDefaultRouteIface = some name)
      defaultRouteIface s := by
    refine safe_perform.mpr fun w _ => ?_
    rcases w.attempt_cases ((FileSystem.read s.fs routeTable).map (·, s)) s with
      ⟨e, he⟩ | ⟨table, _, _, hp, he⟩
    · rw [show handler (.readToString "/proc/net/route") w s = (.error e, s) from he]
      exact ⟨h, rfl, nofun⟩
    · obtain ⟨table', hread, heq⟩ := Option.map_eq_some_iff.mp hp
      obtain ⟨rfl, rfl⟩ := Prod.mk.inj heq
      rw [show handler (.readToString "/proc/net/route") w s = (.ok table', s) from he]
      refine ⟨h, rfl, fun name hn => ?_⟩
      rw [← h.routes hl, hread]
      exact hn
  refine safe_bind.mpr (hroute.post fun iface t ⟨ht, hname⟩ => ?_)
  subst ht
  cases iface with
  | none => exact ⟨h, nofun⟩
  | some name =>
    refine safe_perform.mpr fun w _ => ?_
    rcases w.attempt_cases ((t.ifindex name).map (·, t)) t with ⟨e, he⟩ | ⟨index, _, _, hp, he⟩
    · rw [show handler (.ifNametoindex name) w t = (.error e, t) from he]
      exact ⟨h, h, nofun⟩
    · obtain ⟨index', hindex, heq⟩ := Option.map_eq_some_iff.mp hp
      obtain ⟨rfl, rfl⟩ := Prod.mk.inj heq
      rw [show handler (.ifNametoindex name) w t = (.ok index', t) from he]
      have hi : s₀.routesBy index'.toInt32 :=
        ⟨name, index', hname name rfl, by rw [← h.ifindex, hindex], rfl⟩
      refine ⟨h, safe_bind.mpr ((managerCall_framed h hi ?_).post fun r u hu => ?_)⟩
      · exact fun links j hj => Function.update_of_ne hj _ _
      cases r with
      | error e => exact ⟨hu, nofun⟩
      | ok _ =>
        refine safe_bind.mpr ((managerCall_framed hu hi ?_).post fun r v hv => ?_)
        · exact fun links j hj => Function.update_of_ne hj _ _
        cases r with
        | error e => exact ⟨hv, nofun⟩
        | ok _ => exact ⟨hv, fun i he => by rw [← Except.ok.inj he]; exact hi⟩

theorem backupStep_framed (h : Framed s₀ s) :
    Safe handler LinkSeen (fun e => Framed s₀ e.after) (fun _ t => Framed s₀ t) backupStep s := by
  refine safe_perform.mpr fun w _ => ⟨h, ?_⟩
  have hs : ∀ p, (handler (.pathExists p) w s).2 = s := fun _ => rfl
  rw [hs]
  cases (handler (.pathExists resolvConf) w s).1 with
  | false => exact h
  | true =>
    refine safe_perform.mpr fun w _ => ⟨h, ?_⟩
    have hs : (handler (.pathExists resolvBackup) w s).2 = s := rfl
    rw [hs]
    cases (handler (.pathExists resolvBackup) w s).1 with
    | true => exact h
    | false =>
      refine safe_perform.mpr fun w _ => ?_
      rcases copy_cases resolvConf resolvBackup w s with ⟨e, he⟩ | ⟨fs, _, hfs, he⟩ <;> rw [he]
      · exact ⟨h, h⟩
      · obtain ⟨_, _, hw⟩ := copy_eq_some.mp hfs
        have hf := (h.write (.inr rfl) h.backup hw).1
        exact ⟨hf, hf⟩

/-- After it `/etc/resolv.conf` is no link. -/
theorem unlinkStep_framed (h : Framed s₀ s) :
    Safe handler LinkSeen (fun e => Framed s₀ e.after)
      (fun r t => Framed s₀ t ∧ (r = .ok () → isLink t.fs resolvConf = false)) unlinkStep s := by
  refine safe_perform.mpr fun w hA => ?_
  rcases symlinkMetadata_cases resolvConf w s with ⟨hn, e, he⟩ | ⟨hl, he⟩ | ⟨_, he⟩ <;> rw [he]
  · refine ⟨h, h, fun _ => ?_⟩
    cases hl : isLink s.fs resolvConf with
    | false => rfl
    | true =>
      rw [isLink, hn (hA rfl hl)] at hl
      exact absurd hl (by simp)
  · exact ⟨h, h, fun _ => hl⟩
  · refine ⟨h, safe_perform.mpr fun w _ => ?_⟩
    rcases removeFile_cases resolvConf w s with ⟨e, he⟩ | ⟨fs, _, hfs, he⟩ <;> rw [he]
    · exact ⟨h, h, fun hok => absurd hok (by simp)⟩
    · obtain ⟨hf, hl⟩ := h.remove (.inl rfl) hfs
      exact ⟨hf, hf, fun _ => hl⟩

theorem fallback_framed (proxy : IpAddr) (h : Framed s₀ s) :
    Safe handler LinkSeen (fun e => Framed s₀ e.after) (fun _ t => Framed s₀ t) (fallback proxy) s := by
  have happly : Safe handler LinkSeen (fun e => Framed s₀ e.after)
      (fun r t => Framed s₀ t ∧ (r = .ok () → isLink t.fs resolvConf = false))
      (resolvconfApply proxy) s := by
    refine safe_bind.mpr ((backupStep_framed h).post fun r t ht => ?_)
    cases r with
    | error e => exact ⟨ht, nofun⟩
    | ok _ =>
      refine safe_bind.mpr ((unlinkStep_framed ht).post fun r u ⟨hu, hl⟩ => ?_)
      cases r with
      | error e => exact ⟨hu, nofun⟩
      | ok _ =>
        refine safe_perform.mpr fun w _ => ?_
        rcases write_cases resolvConf (managed proxy) w u with ⟨e, he⟩ | ⟨fs, _, hfs, he⟩ <;> rw [he]
        · exact ⟨hu, hu, nofun⟩
        · obtain ⟨hf, hl⟩ := hu.write (.inl rfl) (hl rfl) hfs
          exact ⟨hf, hf, fun _ => hl⟩
  refine safe_bind.mpr (happly.post fun r t ⟨ht, hl⟩ => ?_)
  cases r with
  | error e => exact ht
  | ok _ =>
    have hf := ht.setActive (a := .resolvConf) (fun _ => hl rfl) nofun
    exact safe_perform.mpr fun w _ => ⟨hf, hf⟩

theorem resolvconfRestore_framed (h : Framed s₀ s) (hl : isLink s.fs resolvConf = false) :
    Safe handler LinkSeen (fun e => Framed s₀ e.after) (fun _ t => Framed s₀ t)
      resolvconfRestore s := by
  refine safe_perform.mpr fun w _ => ⟨h, ?_⟩
  have hs : (handler (.pathExists resolvBackup) w s).2 = s := rfl
  rw [hs]
  cases (handler (.pathExists resolvBackup) w s).1 with
  | false => exact h
  | true =>
    refine safe_perform.mpr fun w _ => ?_
    rcases copy_cases resolvBackup resolvConf w s with ⟨e, he⟩ | ⟨fs, _, hfs, he⟩ <;> rw [he]
    · exact ⟨h, h⟩
    · obtain ⟨_, _, hw⟩ := copy_eq_some.mp hfs
      have hf := (h.write (.inl rfl) hl hw).1
      refine ⟨hf, safe_perform.mpr fun w _ => ?_⟩
      rcases removeFile_cases resolvBackup w { s with fs := fs } with ⟨e, he⟩ | ⟨fs', _, hfs, he⟩ <;>
        rw [he]
      · exact ⟨hf, hf⟩
      · have hf' := (hf.remove (.inr rfl) hfs).1
        exact ⟨hf', hf'⟩

/-- **A job keeps the frame.** -/
theorem job_framed (hl : isLink s₀.fs routeTable = false) (j : Job) (h : Framed s₀ s) :
    Safe handler LinkSeen (fun e => Framed s₀ e.after) (fun _ t => Framed s₀ t) j.body s := by
  cases j with
  | apply proxy =>
    refine safe_perform.mpr fun w _ => ⟨h, ?_⟩
    have hs : (handler (.pathExists resolvedStub) w s).2 = s := rfl
    rw [hs]
    cases (handler (.pathExists resolvedStub) w s).1 with
    | false => exact fallback_framed proxy h
    | true =>
      refine safe_bind.mpr ((applyResolved_framed hl proxy h).post fun r t ⟨ht, hi⟩ => ?_)
      cases r with
      | error e => exact fallback_framed proxy ht
      | ok i =>
        have hf := ht.setActive (a := .resolved i) nofun fun j hj => by
          rw [← Active.resolved.inj hj]
          exact hi i rfl
        exact safe_perform.mpr fun w _ => ⟨hf, hf⟩
  | restore =>
    have hf := h.setActive (a := .idle) nofun nofun
    refine safe_perform.mpr fun w _ => ⟨hf, ?_⟩
    have he : handler .takeActive w s = (s.active, { s with active := .idle }) := rfl
    rw [he]
    cases ha : s.active with
    | idle => exact hf
    | resolvConf => exact resolvconfRestore_framed hf (h.record ha)
    | resolved i =>
      refine safe_bind.mpr ((managerCall_framed hf (h.reverts i ha) ?_).post fun r t ht => ?_)
      · exact fun links j hj => Function.update_of_ne hj _ _
      · cases r <;> exact ht

end Jobs

/-- A failed look has `apply` write to the file the link names. -/
example : (exec handler (apply .localhost) [.ok, .ok, .ok, .ok, .fails "lstat"]
    linkedHost).state.fs "/run/resolv.conf" = some (.file (managed .localhost)) := by decide

end Voidns.Linux
