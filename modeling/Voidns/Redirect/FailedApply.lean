import Voidns.Redirect.Linux
import Voidns.Redirect.Macos
import Voidns.Redirect.Windows

/-!
# What a failed `apply` leaves behind

When `apply` returns an error the record that could undo its work is lost: it
is assigned by the last statement only.  So the DNS configuration is what it was
exactly when no call that succeeded before the failing one overwrote anything,
and which calls overwrite is said for each system: setting a service or an
interface that had other servers, `SetLinkDNS` on a link that had others, and on
the `resolv.conf` path unlinking the file, or backing it up onto itself.

A path that only ever moves a setting to one value never moves it back
(`Overwritten`); the proofs follow the paths and compose it.
-/

namespace Voidns

open Effect

/-! ### Settings that only move one way -/

/-- `d'` is `d` with some values overwritten by `f`, none of them exactly when
`clean`. -/
structure Overwritten {K V : Type} (f : V → V) (d d' : K → V) (clean : Prop) : Prop where
  each : ∀ k, d' k = d k ∨ d' k = f (d k)
  unchanged : d' = d ↔ clean

namespace Overwritten

variable {K V : Type} {f : V → V} {d d' d'' : K → V} {P Q : Prop}

theorem refl (h : P) : Overwritten f d d P := ⟨fun _ => .inl rfl, fun _ => h, fun _ => rfl⟩

/-- **What has been overwritten stays overwritten.** -/
theorem trans (h : Overwritten f d d' P) (h' : Overwritten f d' d'' Q) (hf : ∀ v, f (f v) = f v) :
    Overwritten f d d'' (P ∧ Q) := by
  refine ⟨fun k => ?_, fun he => ?_, fun ⟨hP, hQ⟩ => ?_⟩
  · rcases h'.each k with h2 | h2 <;> rcases h.each k with h1 | h1 <;> rw [h2, h1]
    · exact .inl rfl
    · exact .inr rfl
    · exact .inr rfl
    · exact .inr (hf _)
  · have h1 : d' = d := by
      funext k
      rcases h.each k with h1 | h1
      · exact h1
      · have h2 : d'' k = f (d k) := by
          rcases h'.each k with h2 | h2 <;> rw [h2, h1]
          exact hf _
        rw [h1, ← h2, he]
    exact ⟨h.unchanged.mp h1, h'.unchanged.mp (he.trans h1.symm)⟩
  · rw [h'.unchanged.mpr hQ, h.unchanged.mpr hP]

theorem update [DecidableEq K] (k : K) :
    Overwritten f d (Function.update d k (f (d k))) (f (d k) = d k) := by
  refine ⟨fun j => ?_, fun he => ?_, fun he => ?_⟩
  · by_cases hj : j = k
    · subst hj; exact .inr (Function.update_self _ _ _)
    · exact .inl (Function.update_of_ne hj _ _)
  · have hk := congrFun he k
    rw [Function.update_self] at hk
    exact hk
  · rw [he, Function.update_eq_self]

theorem iff (h : Overwritten f d d' P) (hPQ : P ↔ Q) : Overwritten f d d' Q :=
  ⟨h.each, h.unchanged.trans hPQ⟩

end Overwritten

/-! ### Linux -/

namespace Linux

open FileSystem

/-- The links, and `/etc/resolv.conf` and what it resolves to. -/
def SameDns (s t : System) : Prop :=
  t.links = s.links ∧ t.fs resolvConf = s.fs resolvConf ∧
    read t.fs resolvConf = read s.fs resolvConf

/-- The calls that would overwrite a setting: `SetLinkDNS` on a link with other
servers, unlinking `/etc/resolv.conf`, and copying it onto itself. -/
@[simp] def Call.overwrites (s : System) : Call → Prop
  | .busCall (.setLinkDns i addrs) => (s.links i).servers ≠ addrs
  | .removeFile p => p = resolvConf ∧ s.fs p ≠ none
  | .copy src dst => src = resolvConf ∧ final s.fs src = final s.fs dst ∧
      read s.fs src ≠ none ∧ read s.fs src ≠ some ""
  | _ => False

instance (s : System) : DecidablePred (Call.overwrites s)
  | .busCall (.setLinkDns ..) => inferInstanceAs (Decidable (_ ≠ _))
  | .removeFile _ => inferInstanceAs (Decidable (_ ∧ _))
  | .copy .. => inferInstanceAs (Decidable (_ ∧ _ ∧ _ ∧ _))
  | .busCall (.setLinkDefaultRoute ..) | .busCall (.revertLink _) | .busCall .flushCaches
  | .pathExists _ | .symlinkMetadata _ | .readToString _ | .write .. | .ifNametoindex _ | .systemBus
  | .resolve1Proxy | .setActive _ | .takeActive => inferInstanceAs (Decidable False)

/-- One of them has succeeded. -/
def Overwrites (e : CallEvent sig Fate System) : Prop :=
  e.choice = .ok ∧ e.call.overwrites e.before

instance : DecidablePred Overwrites := fun _ => inferInstanceAs (Decidable (_ ∧ _))

@[simp] theorem overwrites_mk {c : Call} {w : Fate} {s t : System} :
    Overwrites ⟨c, w, s, t⟩ ↔ w = .ok ∧ c.overwrites s := Iff.rfl

/-- No call of the trace overwrites a setting. -/
def Clean (es : List (CallEvent sig Fate System)) : Prop := ∀ e ∈ es, ¬ Overwrites e

@[simp] theorem clean_nil : Clean [] := fun _ h => absurd h (by simp)

@[simp] theorem clean_cons {e : CallEvent sig Fate System} {es : List (CallEvent sig Fate System)} :
    Clean (e :: es) ↔ ¬ Overwrites e ∧ Clean es := List.forall_mem_cons

@[simp] theorem clean_append {es es' : List (CallEvent sig Fate System)} :
    Clean (es ++ es') ↔ Clean es ∧ Clean es' := List.forall_mem_append

/-- A method call that fails has done nothing, and one that succeeds is the
only event that counts. -/
theorem managerCall_ends (m : Method) (s : System) :
    Ends handler (fun es r t =>
      (∀ e, r = .error e → t = s ∧ Clean es) ∧
      (r = .ok () → t = { s with links := m.effect s.links } ∧
        (Clean es ↔ ¬ (Call.busCall m).overwrites s))) (managerCall m) s := by
  refine ends_perform.mpr fun w => ?_
  rcases systemBus_cases w s with ⟨e, he⟩ | he <;> rw [he]
  · exact ⟨fun _ _ => ⟨rfl, by simp⟩, fun h => absurd h (by simp)⟩
  refine ends_perform.mpr fun w' => ?_
  rcases resolve1Proxy_cases w' s with ⟨e, he⟩ | he <;> rw [he]
  · exact ⟨fun _ _ => ⟨rfl, by simp⟩, fun h => absurd h (by simp)⟩
  refine ends_perform.mpr fun w'' => ?_
  cases w'' with
  | fails cause => exact ⟨fun _ _ => ⟨rfl, by simp⟩, fun h => absurd h (by simp)⟩
  | ok => exact ⟨fun _ h => absurd h (by simp), fun _ => ⟨rfl, by simp⟩⟩

/-- The targeted link keeps its servers exactly when `SetLinkDNS` has not
overwritten others. -/
theorem applyResolved_fails (proxy : IpAddr) (s : System) :
    Ends handler (fun es r t => ∀ e, r = .error e →
      t.fs = s.fs ∧ (t.links = s.links ↔ Clean es)) (applyResolved proxy) s := by
  have hroute : Ends handler (fun es _ t => t = s ∧ Clean es) defaultRouteIface s := by
    refine ends_perform.mpr fun w => ?_
    have hs : (handler (.readToString "/proc/net/route") w s).2 = s :=
      w.attempt_same (FileSystem.read s.fs "/proc/net/route") s
    rw [hs]
    cases (handler (.readToString "/proc/net/route") w s).1 <;> exact ⟨rfl, by simp⟩
  refine ends_bind.mpr (hroute.post fun es iface t ⟨ht, hes⟩ => ?_)
  subst ht
  cases iface with
  | none => exact fun _ _ => ⟨rfl, by simp [hes]⟩
  | some iface =>
    refine ends_perform.mpr fun w => ?_
    have hs : (handler (.ifNametoindex iface) w t).2 = t := w.attempt_same (t.ifindex iface) t
    rw [hs]
    cases (handler (.ifNametoindex iface) w t).1 with
    | error e => exact fun _ _ => ⟨rfl, by simp [hes]⟩
    | ok index =>
      refine ends_bind.mpr ((managerCall_ends _ t).post fun es' r u ⟨herr, hok⟩ => ?_)
      cases r with
      | error e =>
        obtain ⟨hu, hes'⟩ := herr e rfl
        exact fun _ _ => ⟨by rw [hu], by simp [hu, hes, hes']⟩
      | ok _ =>
        obtain ⟨hu, hes'⟩ := hok rfl
        refine ends_bind.mpr ((managerCall_ends _ u).post fun es'' r v ⟨herr, _⟩ => ?_)
        cases r with
        | ok _ => exact fun _ h => absurd h (by simp)
        | error e =>
          obtain ⟨hv, hes''⟩ := herr e rfl
          intro _ _
          rw [hv]
          have hlinks : u.links = t.links ↔ Clean es' := by
            rw [hes', Call.overwrites, not_not, hu]
            exact setServers_eq_iff
          exact ⟨by rw [hu], by simp [hes, hes'', hlinks]⟩

/-- `/etc/resolv.conf` and what it resolves to. -/
def SameFile (s t : System) : Prop :=
  t.fs resolvConf = s.fs resolvConf ∧ read t.fs resolvConf = read s.fs resolvConf

theorem exists_of_read {fs : Fs String String} {p c : String} (h : read fs p = some c) :
    fs p ≠ none := fun hn => absurd ((read_of_none hn).symm.trans h) (by simp)

/-- Backing up leaves `/etc/resolv.conf` as it was, or empty. -/
theorem copy_ends {s : System} {fs : Fs String String}
    (hfs : FileSystem.copy s.fs resolvConf resolvBackup = some fs) :
    (SameFile s { s with fs := fs } ∧ ¬ (Call.copy resolvConf resolvBackup).overwrites s) ∨
    ((∃ c, read s.fs resolvConf = some c ∧ c ≠ "" ∧ read fs resolvConf = some "") ∧
      (Call.copy resolvConf resolvBackup).overwrites s) := by
  obtain ⟨c, hr, hw⟩ := copy_eq_some.mp hfs
  by_cases hf : final s.fs resolvConf = final s.fs resolvBackup
  · rw [if_pos hf] at hw
    -- onto itself: the file is left empty
    have hr' : read fs resolvConf = some "" := by
      have hf' : final fs resolvConf = final fs resolvBackup := by
        rw [final_write hw, final_write hw, hf]
      rw [read_of_final_eq hf', read_write hw]
      rfl
    by_cases hc : c = ""
    · obtain ⟨q, hq, rfl⟩ := write_eq_some.mp hw
      obtain ⟨q', hq', hfile⟩ := read_eq_some.mp hr
      obtain rfl : q' = q := Option.some.inj (hq'.symm.trans (hf.trans hq))
      have hsame : Function.update s.fs q' (some (.file default)) = s.fs := by
        rw [Function.update_eq_self_iff, hfile, hc]
        rfl
      refine .inl ⟨⟨congrFun hsame _, by rw [hr', hr, hc]⟩, fun ⟨_, _, _, hne⟩ => hne ?_⟩
      rw [hr, hc]
    · exact .inr ⟨⟨c, hr, hc, hr'⟩, rfl, hf, by simp [hr], by simp [hr, hc]⟩
  · rw [if_neg hf] at hw
    have hne : final s.fs resolvBackup ≠ some resolvConf := fun hb =>
      hf ((final_of_not_link (final_not_link hb)).trans hb.symm)
    exact .inl ⟨⟨write_of_ne hw hne, read_write_of_ne hw hf⟩, fun h => hf h.2.1⟩

theorem copy_refused {s : System}
    (hfs : FileSystem.copy s.fs resolvConf resolvBackup = none) :
    ¬ (Call.copy resolvConf resolvBackup).overwrites s := by
  intro ⟨_, hf, hsome, _⟩
  obtain ⟨c, hr⟩ := Option.ne_none_iff_exists'.mp hsome
  obtain ⟨q, hq, _⟩ := read_eq_some.mp hr
  obtain ⟨fs, hw⟩ : ∃ fs, FileSystem.write s.fs resolvBackup default = some fs :=
    ⟨_, write_eq_some.mpr ⟨q, hf.symm.trans hq, rfl⟩⟩
  exact absurd (hfs.symm.trans (copy_eq_some.mpr ⟨c, hr, by rw [if_pos hf]; exact hw⟩)) (by simp)

theorem backupStep_ends (s : System) :
    Ends handler (fun es _ t => t.links = s.links ∧ ((SameFile s t ∧ Clean es) ∨
      ((∃ c, read s.fs resolvConf = some c ∧ c ≠ "" ∧ read t.fs resolvConf = some "") ∧
        ¬ Clean es))) backupStep s := by
  have same : SameFile s s := ⟨rfl, rfl⟩
  refine ends_perform.mpr fun w => ?_
  have hs : (handler (.pathExists resolvConf) w s).2 = s := rfl
  rw [hs]
  cases (handler (.pathExists resolvConf) w s).1 with
  | false => exact ⟨rfl, .inl ⟨same, by simp⟩⟩
  | true =>
    refine ends_perform.mpr fun w' => ?_
    have hs : (handler (.pathExists resolvBackup) w' s).2 = s := rfl
    rw [hs]
    cases (handler (.pathExists resolvBackup) w' s).1 with
    | true => exact ⟨rfl, .inl ⟨same, by simp⟩⟩
    | false =>
      refine ends_perform.mpr fun w'' => ?_
      cases w'' with
      | fails cause => exact ⟨rfl, .inl ⟨same, by simp⟩⟩
      | ok =>
        have he : handler (.copy resolvConf resolvBackup) .ok s =
          fileCall .ok (FileSystem.copy s.fs resolvConf resolvBackup) s := rfl
        cases hfs : FileSystem.copy s.fs resolvConf resolvBackup with
        | none =>
          rw [he, hfs]
          exact ⟨rfl, .inl ⟨same, by simpa using copy_refused hfs⟩⟩
        | some fs =>
          rw [he, hfs]
          refine ⟨rfl, ?_⟩
          rcases copy_ends hfs with ⟨h, hno⟩ | ⟨h, ho⟩
          · exact .inl ⟨h, by simpa using hno⟩
          · exact .inr ⟨h, by simpa using ho⟩

theorem unlinkStep_ends (s : System) :
    Ends handler (fun es _ t => t.links = s.links ∧ ((t = s ∧ Clean es) ∨
      (s.fs resolvConf ≠ none ∧ t.fs resolvConf = none ∧ ¬ Clean es))) unlinkStep s := by
  refine ends_perform.mpr fun w => ?_
  rcases symlinkMetadata_cases resolvConf w s with ⟨_, e, he⟩ | ⟨_, he⟩ | ⟨_, he⟩
  · rw [he]
    exact ⟨rfl, .inl ⟨rfl, by simp⟩⟩
  · rw [he]
    exact ⟨rfl, .inl ⟨rfl, by simp⟩⟩
  · rw [he]
    refine ends_perform.mpr fun w' => ?_
    cases w' with
    | fails cause => exact ⟨rfl, .inl ⟨rfl, by simp⟩⟩
    | ok =>
      have he : handler (.removeFile resolvConf) .ok s =
        fileCall .ok (FileSystem.remove s.fs resolvConf) s := rfl
      cases hfs : FileSystem.remove s.fs resolvConf with
      | none =>
        have hn : s.fs resolvConf = none := by
          by_contra hne
          exact absurd (hfs.symm.trans (remove_eq_some.mpr ⟨hne, rfl⟩)) (by simp)
        rw [he, hfs]
        exact ⟨rfl, .inl ⟨rfl, by simp [hn]⟩⟩
      | some fs =>
        obtain ⟨hne, rfl⟩ := remove_eq_some.mp hfs
        rw [he, hfs]
        have hgone : Function.update s.fs resolvConf none resolvConf = none :=
          Function.update_self _ _ _
        exact ⟨rfl, .inr ⟨hne, hgone, by simp [hne]⟩⟩

theorem writeStep_fails (proxy : IpAddr) (s : System) :
    Ends handler (fun es r t => Clean es ∧ ∀ e, r = .error e → t = s) (writeStep proxy) s := by
  refine ends_perform.mpr fun w => ?_
  rcases write_cases resolvConf (managed proxy) w s with ⟨e, he⟩ | ⟨fs, _, _, he⟩
  · rw [he]
    exact ⟨by simp, fun _ _ => rfl⟩
  · rw [he]
    exact ⟨by simp, fun _ h => absurd h (by simp)⟩

/-- What the first two steps of `resolvconf_apply` have done to
`/etc/resolv.conf` is still there when the third fails. -/
theorem resolvconfApply_fails (proxy : IpAddr) (s : System) :
    Ends handler (fun es r t => ∀ e, r = .error e → t.links = s.links ∧
      (SameFile s t ↔ Clean es)) (resolvconfApply proxy) s := by
  refine ends_bind.mpr ((backupStep_ends s).post fun es r t ⟨hlt, ht⟩ => ?_)
  have hbackup : SameFile s t ↔ Clean es := by
    rcases ht with ⟨h, hes⟩ | ⟨⟨c, hc, hne, he⟩, hes⟩
    · exact iff_of_true h hes
    · refine iff_of_false (fun h => hne ?_) hes
      exact Option.some.inj (hc.symm.trans (h.2.symm.trans he))
  cases r with
  | error e => exact fun _ _ => ⟨hlt, by rw [hbackup]; simp⟩
  | ok _ =>
    refine ends_bind.mpr ((unlinkStep_ends t).post fun es' r u ⟨hlu, hu⟩ => ?_)
    have hunlink : SameFile s u ↔ Clean (es ++ es') := by
      rw [clean_append]
      rcases hu with ⟨rfl, hes'⟩ | ⟨hne, hn, hes'⟩
      · exact hbackup.trans (iff_self_and.mpr fun _ => hes')
      · -- the file is gone, and it was there before
        refine iff_of_false (fun h => ?_) fun h => hes' h.2
        rcases ht with ⟨hst, _⟩ | ⟨⟨c, hc, _⟩, _⟩
        · exact hne (hst.1.trans (h.1.symm.trans hn))
        · exact exists_of_read hc (h.1.symm.trans hn)
    cases r with
    | error e => exact fun _ _ => ⟨hlu.trans hlt, by rw [hunlink]; simp⟩
    | ok _ =>
      refine (writeStep_fails proxy u).post fun es'' r v ⟨hes'', hv⟩ e he => ?_
      rw [hv e he]
      exact ⟨hlu.trans hlt, by rw [hunlink]; simp [hes'']⟩

theorem apply_fails (proxy : IpAddr) (s : System) :
    Ends handler (fun es r t => ∀ e, r = .error e → (SameDns s t ↔ Clean es)) (apply proxy) s := by
  have hfallback : ∀ (t : System) (es : List (CallEvent sig Fate System)), t.fs = s.fs →
      (t.links = s.links ↔ Clean es) →
      Ends handler (fun es' r u => ∀ e, r = .error e → (SameDns s u ↔ Clean (es ++ es')))
        (fallback proxy) t := by
    intro t es hfs hlinks
    refine ends_bind.mpr ((resolvconfApply_fails proxy t).post fun es' r u hu => ?_)
    cases r with
    | ok _ => exact ends_perform.mpr fun w _ h => absurd h (by simp)
    | error e =>
      intro _ _
      obtain ⟨hl, hf⟩ := hu e rfl
      rw [SameDns, hl, hlinks, List.append_nil, clean_append, ← hf, SameFile, hfs]
  refine ends_perform.mpr fun w => ?_
  have hs : (handler (.pathExists resolvedStub) w s).2 = s := rfl
  rw [hs]
  cases (handler (.pathExists resolvedStub) w s).1 with
  | false => exact (hfallback s [⟨_, w, s, s⟩] rfl (by simp)).post fun _ _ _ h => h
  | true =>
    refine ends_bind.mpr ((applyResolved_fails proxy s).post fun es r t ht => ?_)
    cases r with
    | ok ifindex => exact ends_perform.mpr fun w _ h => absurd h (by simp)
    | error e =>
      refine (hfallback t (⟨_, w, s, s⟩ :: es) (ht e rfl).1 ?_).post fun _ _ _ h => h
      rw [(ht e rfl).2, clean_cons]
      simp

end Linux

/-! ### macOS -/

namespace Macos

/-- A successful `-setdnsservers` on a service that had other servers. -/
def Overwrites (server : String) (e : CallEvent sig Fate System) : Prop :=
  e.choice = .ok ∧ ∃ svc, e.call = .run "networksetup" ["-setdnsservers", svc, server] ∧
    e.before.dns svc ≠ setTo [server]

/-- What a command of the fallback does to the services. -/
theorem shell_cases {server : String} {c : Call} (hc : c.shell server) (w : Fate) (s : System) :
    (∃ svc, c = .run "networksetup" ["-setdnsservers", svc, server] ∧ w = .ok ∧
      (handler c w s).2 = { s with dns := Function.update s.dns svc (setTo [server]) }) ∨
    ((∀ svc, c = .run "networksetup" ["-setdnsservers", svc, server] → w ≠ .ok) ∧
      (handler c w s).2 = s) := by
  cases c with
  | run cmd args =>
    cases w with
    | fails cause => exact .inr ⟨fun _ _ h => absurd h (by simp), rfl⟩
    | ok =>
      have he : (handler (.run cmd args) .ok s).2 = (command s cmd args).2 := rfl
      rw [he]
      unfold command
      split
      · exact .inr ⟨fun _ h => absurd h (by simp), rfl⟩
      · exact .inr ⟨fun _ h => absurd h (by simp), rfl⟩
      · rename_i svc servers
        have hs : servers = [server] := hc
        subst hs
        exact .inl ⟨svc, rfl, rfl, rfl⟩
      · rename_i hne
        refine .inr ⟨fun svc h => ?_, rfl⟩
        obtain ⟨rfl, rfl⟩ := Call.run.inj h
        exact absurd rfl (hne svc [server] rfl)
  | _ => exact hc.elim

/-- The fallback moves services to the proxy and nothing else. -/
theorem shell_overwritten {server : String} {α : Type} {p : Prog sig α}
    (hp : p.Calls (Call.shell server)) (s : System) :
    Ends handler (fun es _ t => Overwritten (fun _ => setTo [server]) s.dns t.dns
      (∀ e ∈ es, ¬ Overwrites server e) ∧ t.store = s.store) p s := by
  refine ends_frame (T := fun s es t => Overwritten (fun _ => setTo [server]) s.dns t.dns
    (∀ e ∈ es, ¬ Overwrites server e) ∧ t.store = s.store)
    (fun s => ⟨.refl (by simp), rfl⟩) (fun c w s es t hc h => ?_) hp s
  rcases shell_cases hc w s with ⟨svc, rfl, rfl, he⟩ | ⟨hno, he⟩ <;> rw [he] at h ⊢
  · refine ⟨(((Overwritten.update (f := fun _ => setTo [server]) svc).trans
      h.1 fun _ => rfl).iff ?_), h.2⟩
    rw [List.forall_mem_cons]
    refine and_congr_left fun _ => ⟨fun hs ⟨_, svc', hc', hne⟩ => ?_, fun hn => ?_⟩
    · obtain rfl : svc = svc' := by simpa using hc'
      exact hne hs.symm
    · by_contra hs
      exact hn ⟨rfl, svc, rfl, fun h => hs h.symm⟩
  · refine ⟨h.1.iff ?_, h.2⟩
    rw [List.forall_mem_cons, iff_and_self]
    exact fun _ ⟨hw, svc, hc', _⟩ => hno svc hc' hw

/-- The dynamic store is left as it was when no key could be set. -/
theorem setAll_fails (proxy : IpAddr) {d : String → List String} {st : String → Option Plist} :
    ∀ (keys applied : List String) {s : System}, s.dns = d → (applied = [] → s.store = st) →
      Safe handler (fun _ => True) (fun _ => True)
        (fun applied t => t.dns = d ∧ (applied = [] → t.store = st)) (setAll proxy keys applied) s := by
  intro keys
  induction keys with
  | nil => intro applied s hd hs; exact ⟨hd, hs⟩
  | cons k keys ih =>
    intro applied s hd hs
    refine safe_perform.mpr fun w _ => ⟨trivial, ?_⟩
    cases w with
    | ok => exact ih _ hd fun h => absurd h (by simp)
    | fails cause => exact ih _ hd hs

theorem applyNative_fails (proxy : IpAddr) (s : System) :
    Safe handler (fun _ => True) (fun _ => True)
      (fun r t => t.dns = s.dns ∧ ∀ e, r = .error e → t.store = s.store) (applyNative proxy) s := by
  refine safe_perform.mpr fun w _ => ⟨trivial, ?_⟩
  cases w with
  | fails cause => exact ⟨rfl, fun _ _ => rfl⟩
  | ok =>
    refine safe_perform.mpr fun w _ => ⟨trivial, ?_⟩
    cases w with
    | fails cause => exact ⟨rfl, fun _ _ => rfl⟩
    | ok =>
      refine safe_bind.mpr ((setAll_fails proxy s.setupKeys [] rfl fun _ => rfl).post ?_)
      intro applied t ht
      cases applied with
      | nil => exact ⟨ht.1, fun _ _ => ht.2 rfl⟩
      | cons path paths => exact ⟨ht.1, fun _ h => absurd h (by simp)⟩

theorem apply_fails (proxy : IpAddr) (s : System) :
    Ends handler (fun es r t => ∀ e, r = .error e →
      ((t.dns = s.dns ∧ t.store = s.store) ↔ ∀ ev ∈ es, ¬ Overwrites proxy.text ev))
      (apply proxy) s := by
  refine ends_bind.mpr (((applyNative_native proxy).ends s).and (applyNative_fails proxy s).ends
    |>.post fun es r t ⟨hcalls, _, hd, hs⟩ => ?_)
  have hnative : ∀ ev ∈ es, ¬ Overwrites proxy.text ev := by
    intro ev hev ⟨_, svc, hc, _⟩
    have := hcalls ev hev
    rw [hc] at this
    exact absurd this (by simp [Call.native])
  cases r with
  | ok paths =>
    exact ends_perform.mpr fun w => ends_bind.mpr ((ends_trivial _ _).post
      fun _ _ _ _ e h => absurd h (by simp))
  | error e =>
    refine ends_bind.mpr ((shell_overwritten (applyShell_shell proxy) t).post ?_)
    intro es' r u ⟨ho, hstore⟩
    cases r with
    | ok saved =>
      exact ends_perform.mpr fun w => ends_bind.mpr ((ends_trivial _ _).post
        fun _ _ _ _ e h => absurd h (by simp))
    | error e' =>
      intro _ _
      have hes : (∀ ev ∈ es ++ (es' ++ []), ¬ Overwrites proxy.text ev) ↔
          ∀ ev ∈ es', ¬ Overwrites proxy.text ev := by
        rw [List.append_nil, List.forall_mem_append]
        exact and_iff_right hnative
      rw [hes, ← ho.unchanged, hd, hstore, hs e rfl]
      exact and_iff_left rfl

end Macos

/-! ### Windows -/

namespace Windows

/-- A successful `netsh_set` of an interface that had another name server. -/
def Overwrites (server : String) (e : CallEvent sig Fate System) : Prop :=
  e.choice = .ok ∧ ∃ name guid, e.call = .run "netsh" (setArgs name server) ∧
    e.before.named s!"name={name}" = some guid ∧ (e.before.dns guid).nameServer ≠ server

theorem netshSet_handler (name server : String) (w : Fate) (s : System) :
    (∃ guid, s.named s!"name={name}" = some guid ∧ w = .ok ∧
      (handler (.run "netsh" (setArgs name server)) w s).2 = s.setNameServer guid server) ∨
    ((w = .ok → s.named s!"name={name}" = none) ∧
      (handler (.run "netsh" (setArgs name server)) w s).2 = s) := by
  have he : handler (.run "netsh" (setArgs name server)) w s = w.attempt
      ((s.named s!"name={name}").map fun guid => ("", s.setNameServer guid server)) s := rfl
  rw [he]
  cases w with
  | fails cause => exact .inr ⟨fun h => absurd h (by simp), rfl⟩
  | ok =>
    cases s.named s!"name={name}" with
    | none => exact .inr ⟨fun _ => rfl, rfl⟩
    | some guid => exact .inl ⟨guid, rfl, rfl, rfl⟩

/-- The fallback moves name servers to the proxy and nothing else. -/
theorem netsh_overwritten {server : String} {α : Type} {p : Prog sig α}
    (hp : p.Calls fun c : Call => ∃ name, c = .run "netsh" (setArgs name server)) (s : System) :
    Ends handler (fun es _ t => Overwritten (fun v => { v with nameServer := server }) s.dns t.dns
      (∀ e ∈ es, ¬ Overwrites server e)) p s := by
  refine ends_frame (T := fun s es t => Overwritten (fun v => { v with nameServer := server })
    s.dns t.dns (∀ e ∈ es, ¬ Overwrites server e))
    (fun s => .refl (by simp)) (fun c w s es t ⟨name, hc⟩ h => ?_) hp s
  subst hc
  have hname : ∀ other, Call.run "netsh" (setArgs name server) = .run "netsh" (setArgs other server) →
      s!"name={name}" = s!"name={other}" := by
    intro other h
    simpa [setArgs] using h
  rcases netshSet_handler name server w s with ⟨guid, hg, rfl, he⟩ | ⟨hno, he⟩ <;> rw [he] at h ⊢
  · refine ((Overwritten.update (f := fun v : DnsInterfaceSettings => { v with nameServer := server })
      guid).trans h fun _ => rfl).iff ?_
    rw [List.forall_mem_cons]
    refine and_congr_left fun _ => ⟨fun hs ⟨_, other, guid', hc', hg', hne⟩ => ?_, fun hn => ?_⟩
    · rw [← hname other hc', hg] at hg'
      obtain rfl := Option.some.inj hg'
      exact hne (congrArg DnsInterfaceSettings.nameServer hs).symm
    · by_contra hs
      refine hn ⟨rfl, name, guid, rfl, hg, fun h => hs ?_⟩
      rw [← h]
  · refine h.iff ?_
    rw [List.forall_mem_cons, iff_and_self]
    intro _ ⟨hw, other, guid, hc', hg', _⟩
    rw [← hname other hc', hno hw] at hg'
    exact absurd hg' (by simp)

theorem updateDnsNative_fails (settings : DnsInterfaceSettings) (what name : String)
    {d : Nat → DnsInterfaceSettings} {s : System} (hd : s.dns = d) :
    Safe handler (fun _ => True) (fun _ => True) (fun r t => ∀ e, r = .error e → t.dns = d)
      (updateDnsNative settings what name) s := by
  have hguid : Safe handler (fun _ => True) (fun _ => True) (fun _ t => t = s)
      (aliasToGuid name) s := by
    refine safe_perform.mpr fun w _ => ⟨trivial, ?_⟩
    have h1 : (handler (.aliasToLuid name) w s).2 = s := w.attempt_same (s.luid name) s
    rw [h1]
    cases (handler (.aliasToLuid name) w s).1 with
    | error rc => exact rfl
    | ok luid =>
      refine safe_perform.mpr fun w _ => ⟨trivial, ?_⟩
      have h2 : (handler (.luidToGuid luid) w s).2 = s := w.attempt_same (s.guid luid) s
      rw [h2]
      cases (handler (.luidToGuid luid) w s).1 <;> exact rfl
  refine safe_bind.mpr (hguid.post fun r t ht => ?_)
  subst ht
  cases r with
  | error e => exact fun _ _ => hd
  | ok guid =>
    refine safe_perform.mpr fun w _ => ⟨trivial, ?_⟩
    cases w with
    | ok => exact fun _ h => absurd h (by simp)
    | fails cause => exact fun _ _ => hd

/-- Every interface is left as it was when none could be set. -/
theorem setAllNative_fails (server : String) {d : Nat → DnsInterfaceSettings} :
    ∀ (ifaces nativeOk : List String) {s : System}, (nativeOk = [] → s.dns = d) →
      Safe handler (fun _ => True) (fun _ => True) (fun nativeOk t => nativeOk = [] → t.dns = d)
        (setAllNative server ifaces nativeOk) s := by
  intro ifaces
  induction ifaces with
  | nil => intro nativeOk s hd; exact hd
  | cons name ifaces ih =>
    intro nativeOk s hd
    by_cases hok : nativeOk = []
    · refine safe_bind.mpr ((updateDnsNative_fails _ _ name (hd hok)).post fun r t ht => ?_)
      cases r with
      | ok _ => exact ih _ fun h => absurd h (by simp)
      | error e => exact ih _ fun _ => ht e rfl
    · refine safe_bind.mpr ((safe_trivial _ s).post fun r t _ => ?_)
      cases r with
      | ok _ => exact ih _ fun h => absurd h (by simp)
      | error e => exact ih _ fun h => absurd h hok

theorem apply_fails (proxy : IpAddr) (s : System) :
    Ends handler (fun es r t => ∀ e, r = .error e →
      (t.dns = s.dns ↔ ∀ ev ∈ es, ¬ Overwrites proxy.text ev)) (apply proxy) s := by
  have hlist : Ends handler (fun es _ t => t.dns = s.dns ∧
      ∀ ev ∈ es, ¬ Overwrites proxy.text ev) connectedInterfaces s := by
    refine ends_perform.mpr fun w => ?_
    have hs : (handler .showInterfaces w s).2 = s := by cases w <;> rfl
    have hev : ∀ ev ∈ [(⟨.showInterfaces, w, s, s⟩ : CallEvent sig Fate System)],
        ¬ Overwrites proxy.text ev := by
      intro ev hev ⟨_, _, _, hc, _⟩
      rw [List.mem_singleton.mp hev] at hc
      exact absurd hc (by simp)
    rw [hs]
    cases (handler .showInterfaces w s).1 <;> exact ⟨rfl, hev⟩
  refine ends_bind.mpr (hlist.post fun es r t ⟨hd, hes⟩ => ?_)
  cases r with
  | error e => exact fun _ _ => by rw [List.append_nil]; exact ⟨fun _ => hes, fun _ => hd⟩
  | ok ifaces =>
    cases ifaces with
    | nil => exact fun _ _ => by rw [List.append_nil]; exact ⟨fun _ => hes, fun _ => hd⟩
    | cons name ifaces =>
      refine ends_bind.mpr (((setAllNative_native proxy.text (name :: ifaces) []).ends t).and
        (setAllNative_fails proxy.text (name :: ifaces) [] fun _ => hd).ends
        |>.post fun es' nativeOk u ⟨hcalls, _, hu⟩ => ?_)
      cases nativeOk with
      | cons n ns => exact ends_perform.mpr fun w _ h => absurd h (by simp)
      | nil =>
        refine ends_bind.mpr ((netsh_overwritten (setAllNetsh_set proxy.text (name :: ifaces)) u).post
          fun es'' r v ho => ?_)
        cases r with
        | ok _ => exact ends_perform.mpr fun w _ h => absurd h (by simp)
        | error e =>
          intro _ _
          have hnative : ∀ ev ∈ es', ¬ Overwrites proxy.text ev := by
            intro ev hev ⟨_, _, _, hc, _⟩
            have := hcalls ev hev
            rw [hc] at this
            exact absurd this (by simp [Call.native])
          have hall : (∀ ev ∈ es ++ (es' ++ (es'' ++ [])), ¬ Overwrites proxy.text ev) ↔
              ∀ ev ∈ es'', ¬ Overwrites proxy.text ev := by
            rw [List.append_nil, List.forall_mem_append, List.forall_mem_append]
            exact (and_iff_right hes).trans (and_iff_right hnative)
          rw [hall, ← ho.unchanged, hu rfl]

end Windows

/-! ### The three together -/

/-- **What a failed `apply` changes.**  On each system, whatever has failed in
it, an `apply` that returns an error leaves the DNS configuration as it was
exactly when no call that succeeded overwrote a setting. -/
theorem failed_apply_unchanged_iff (proxy : IpAddr) (ws : List Fate) :
    (∀ (s : Linux.System) (e : Error), (LinuxRedirector.apply proxy ws s).1 = .error e →
      (Linux.SameDns s (LinuxRedirector.apply proxy ws s).2 ↔
        ∀ ev ∈ (exec Linux.handler (Linux.apply proxy) ws s).events, ¬ Linux.Overwrites ev)) ∧
    (∀ (s : Macos.System) (e : Error), (MacosRedirector.apply proxy ws s).1 = .error e →
      (((MacosRedirector.apply proxy ws s).2.dns = s.dns ∧
          (MacosRedirector.apply proxy ws s).2.store = s.store) ↔
        ∀ ev ∈ (exec Macos.handler (Macos.apply proxy) ws s).events,
          ¬ Macos.Overwrites proxy.text ev)) ∧
    (∀ (s : Windows.System) (e : Error), (WindowsRedirector.apply proxy ws s).1 = .error e →
      ((WindowsRedirector.apply proxy ws s).2.dns = s.dns ↔
        ∀ ev ∈ (exec Windows.handler (Windows.apply proxy) ws s).events,
          ¬ Windows.Overwrites proxy.text ev)) :=
  ⟨fun s e h => (Linux.apply_fails proxy s).exec ws e h,
    fun s e h => (Macos.apply_fails proxy s).exec ws e h,
    fun s e h => (Windows.apply_fails proxy s).exec ws e h⟩

/-- A `resolv.conf` that cannot be written is left as it was. -/
theorem failed_apply_unchanged_readOnly :
    Linux.SameDns Linux.plainHost (LinuxRedirector.apply .localhost
      [.ok, .ok, .ok, .ok, .ok, .fails "read-only file system"] Linux.plainHost).2 := by
  have herr : (LinuxRedirector.apply .localhost
      [.ok, .ok, .ok, .ok, .ok, .fails "read-only file system"] Linux.plainHost).1 =
      .error (.context (.msg "read-only file system") "write resolv.conf") := by decide +kernel
  have hclean : ∀ ev ∈ (exec Linux.handler (Linux.apply .localhost)
      [.ok, .ok, .ok, .ok, .ok, .fails "read-only file system"] Linux.plainHost).events,
      ¬ Linux.Overwrites ev := by decide +kernel
  exact ((failed_apply_unchanged_iff .localhost _).1 Linux.plainHost _ herr).mpr hclean

/-- **Each `apply` can fail half-way**: with `SetLinkDNS` done and
`SetLinkDefaultRoute` refused, and with the first of two services, and of two
interfaces, set and the second refused. -/
theorem failed_apply_changes :
    (let r := LinuxRedirector.apply .localhost
      (List.replicate 8 .ok ++ [.fails "denied", .ok, .ok, .fails "denied"]) Linux.stubHost
    r.1 ≠ .ok () ∧ r.2.links 2 ≠ Linux.stubHost.links 2) ∧
    (let r := MacosRedirector.apply .localhost
      [.fails "no session", .ok, .ok, .ok, .ok, .fails "denied"] Macos.twoServices
    r.1 ≠ .ok () ∧ r.2.dns "Wi-Fi" ≠ Macos.twoServices.dns "Wi-Fi") ∧
    (let r := WindowsRedirector.apply .localhost
      [.ok, .fails "50", .fails "50", .ok, .fails "denied"] Windows.twoInterfaces
    r.1 ≠ .ok () ∧ r.2.dns 1 ≠ Windows.twoInterfaces.dns 1) := by decide +kernel

end Voidns
