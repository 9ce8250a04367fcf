import Voidns.Controller.Settled
import Voidns.Lib.Inline
import Voidns.Redirect.ResolvConf

/-!
# After a crash

The daemon on Linux, its controller and its redirector as one program
(`Request.linuxBody`), killed between any two of its calls and started again any
number of times.  What a `disconnect` has to undo is recorded in memory (`Active`)
and kept on disk (the backup).  A new process has no record: its `disconnect`
leaves `/etc/resolv.conf` as it is, and says that it is disconnected.

So `/etc/resolv.conf` reads after a `disconnect` what the backup does if there are
both a record and a backup, and otherwise what it did (`restores`).
-/

namespace Voidns

open Effect FileSystem

namespace Linux

variable {s : System}

/-! ### The backup and `/etc/resolv.conf` are two files -/

/-- The backup is no link, and `/etc/resolv.conf` does not lead to it. -/
structure Apart (s : System) : Prop where
  backup : isLink s.fs resolvBackup = false
  conf : final s.fs resolvConf ≠ some resolvBackup

/-- The calls remove no other files. -/
def Call.removesOwn : Call → Prop
  | .removeFile p => p = resolvConf ∨ p = resolvBackup
  | _ => True

theorem Apart.write (h : Apart s) {p c : String} {fs : Fs String String}
    (hw : FileSystem.write s.fs p c = some fs) : Apart { s with fs := fs } := by
  have hb : final fs resolvBackup = some resolvBackup :=
    (final_write hw _).trans (final_of_not_link h.backup)
  exact ⟨final_not_link hb, by rw [final_write hw]; exact h.conf⟩

theorem Apart.remove (h : Apart s) {p : String} (hp : p = resolvConf ∨ p = resolvBackup)
    {fs : Fs String String} (hr : FileSystem.remove s.fs p = some fs) :
    Apart { s with fs := fs } := by
  obtain ⟨_, rfl⟩ := remove_eq_some.mp hr
  rcases hp with rfl | rfl
  · have hl : isLink (Function.update s.fs resolvConf none) resolvConf = false :=
      isLink_eq_false.mpr fun t ht => by simp at ht
    refine ⟨?_, ?_⟩
    · show isLink (Function.update s.fs resolvConf none) resolvBackup = false
      rw [isLink, Function.update_of_ne resolvConf_ne_resolvBackup.symm]
      exact h.backup
    · show final (Function.update s.fs resolvConf none) resolvConf ≠ _
      rw [final_of_not_link hl]
      exact fun he => resolvConf_ne_resolvBackup (Option.some.inj he)
  · refine ⟨isLink_eq_false.mpr fun t ht => by simp at ht, ?_⟩
    show final (Function.update s.fs resolvBackup none) resolvConf ≠ _
    rw [final_remove_file h.backup]
    exact h.conf

theorem handler_apart {c : Call} (hc : c.removesOwn) (w : Fate) (h : Apart s) :
    Apart (handler c w s).2 := by
  by_cases hbus : c.bus = true
  · obtain ⟨links, he⟩ := handler_bus hbus w s
    rw [he]
    exact ⟨h.backup, h.conf⟩
  cases c with
  | copy src dst =>
    rcases copy_cases src dst w s with ⟨e, he⟩ | ⟨fs, _, hfs, he⟩ <;> rw [he]
    · exact h
    · obtain ⟨_, _, hw⟩ := copy_eq_some.mp hfs
      exact h.write hw
  | removeFile p =>
    rcases removeFile_cases p w s with ⟨e, he⟩ | ⟨fs, _, hfs, he⟩ <;> rw [he]
    · exact h
    · exact h.remove hc hfs
  | write p text =>
    rcases write_cases p text w s with ⟨e, he⟩ | ⟨fs, _, hfs, he⟩ <;> rw [he]
    · exact h
    · exact h.write hfs
  | pathExists | setActive | takeActive => exact ⟨h.backup, h.conf⟩
  | symlinkMetadata p =>
    rcases symlinkMetadata_cases p w s with ⟨_, e, he⟩ | ⟨_, he⟩ | ⟨_, he⟩ <;> rw [he] <;> exact h
  | readToString | ifNametoindex | systemBus | resolve1Proxy | busCall => exact absurd rfl hbus

theorem Call.removesOwn_of_bus {c : Call} (h : c.bus = true) : c.removesOwn := by
  cases c with
  | removeFile p => exact absurd h (by simp [Call.bus])
  | _ => trivial

theorem fallback_own (proxy : IpAddr) : (fallback proxy).Calls Call.removesOwn := by
  refine (resolvconfApply_calls proxy (fun _ => trivial) trivial trivial (.inl rfl) trivial).bind
    fun r => ?_
  cases r with
  | error e => trivial
  | ok _ => exact ⟨trivial, fun _ => trivial⟩

theorem apply_own (proxy : IpAddr) : (apply proxy).Calls Call.removesOwn := by
  refine Prog.calls_perform.mpr ⟨trivial, fun active => ?_⟩
  cases active with
  | false => exact fallback_own proxy
  | true =>
    refine ((applyResolved_bus proxy).mono fun c hc => Call.removesOwn_of_bus hc).bind fun r => ?_
    cases r with
    | error e => exact fallback_own proxy
    | ok ifindex => exact ⟨trivial, fun _ => trivial⟩

theorem restore_own : restore.Calls Call.removesOwn := by
  refine Prog.calls_perform.mpr ⟨trivial, fun active => ?_⟩
  cases active with
  | idle => trivial
  | resolved ifindex =>
    refine ((managerCall_bus _).mono fun c hc => Call.removesOwn_of_bus hc).bind fun r => ?_
    cases r <;> trivial
  | resolvConf => exact resolvconfRestore_calls trivial trivial (.inr rfl)

/-- The calls of a flush look at a path, or talk to systemd-resolved. -/
theorem flushCache_looks : flushCache.Calls fun c : Call => c.bus = true ∨ c.looks = true := by
  refine Prog.calls_perform.mpr ⟨.inr rfl, fun active => ?_⟩
  cases active with
  | false => trivial
  | true => exact ((managerCall_bus _).mono fun _ hc => .inl hc).bind fun _ => trivial

/-! ### What a restore leaves -/

/-- A call on files succeeds. -/
def FileOk (e : CallEvent sig Fate System) : Prop :=
  match e.call with
  | .pathExists _ | .symlinkMetadata _ | .readToString _ | .removeFile _ | .write .. =>
    e.choice = .ok
  | .copy src dst => e.choice = .ok ∧ (FileSystem.copy e.before.fs src dst).isSome = true
  | _ => True

instance : DecidablePred FileOk := fun e =>
  match e with
  | ⟨.pathExists _, _, _, _⟩ | ⟨.symlinkMetadata _, _, _, _⟩ | ⟨.readToString _, _, _, _⟩
  | ⟨.removeFile _, _, _, _⟩ | ⟨.write .., _, _, _⟩ => inferInstanceAs (Decidable (_ = _))
  | ⟨.copy .., _, _, _⟩ => inferInstanceAs (Decidable (_ ∧ _))
  | ⟨.ifNametoindex _, _, _, _⟩ | ⟨.systemBus, _, _, _⟩ | ⟨.resolve1Proxy, _, _, _⟩
  | ⟨.busCall _, _, _, _⟩ | ⟨.setActive _, _, _, _⟩ | ⟨.takeActive, _, _, _⟩ => isTrue trivial

/-- What `/etc/resolv.conf` reads after a restore: what the backup does, if the
record says so and there is one. -/
def restores (s : System) : Option String :=
  if s.active = .resolvConf ∧ s.fs resolvBackup ≠ none then read s.fs resolvBackup
  else read s.fs resolvConf

/-- A file that is there reads. -/
theorem Apart.read_backup (h : Apart s) (hb : s.fs resolvBackup ≠ none) :
    ∃ B, s.fs resolvBackup = some (.file B) := by
  cases hn : s.fs resolvBackup with
  | none => exact absurd hn hb
  | some node =>
    cases node with
    | file B => exact ⟨B, rfl⟩
    | link t => exact absurd hn (isLink_eq_false.mp h.backup t)

theorem resolvconfRestore_reads (h : Apart s) :
    Safe handler FileOk (fun _ => True) (fun _ t => read t.fs resolvConf =
      if s.fs resolvBackup ≠ none then read s.fs resolvBackup else read s.fs resolvConf)
      resolvconfRestore s := by
  refine safe_perform.mpr fun w hA => ⟨trivial, ?_⟩
  obtain rfl : w = .ok := hA
  rcases pathExists_cases resolvBackup .ok s with ⟨he, hex⟩ | ⟨he, hno⟩ <;> rw [he]
  · have hb : s.fs resolvBackup ≠ none := by
      intro hn
      rw [FileSystem.pathExists, read_of_none hn] at hex
      exact absurd hex (by simp)
    obtain ⟨B, hB⟩ := h.read_backup hb
    rw [if_pos hb, read_of_file hB]
    refine safe_perform.mpr fun w hA => ⟨trivial, ?_⟩
    obtain ⟨rfl, hsome⟩ : w = .ok ∧ (FileSystem.copy s.fs resolvBackup resolvConf).isSome := hA
    obtain ⟨fs, hfs⟩ := Option.isSome_iff_exists.mp hsome
    have hcopy : handler (.copy resolvBackup resolvConf) .ok s = (.ok (), { s with fs := fs }) := by
      show fileCall .ok _ s = _
      rw [hfs]
      rfl
    rw [hcopy]
    obtain ⟨c, hrc, hw⟩ := copy_eq_some.mp hfs
    obtain rfl : B = c := Option.some.inj ((read_of_file hB).symm.trans hrc)
    have hne : final s.fs resolvBackup ≠ final s.fs resolvConf := by
      rw [final_of_not_link h.backup]
      exact fun he => h.conf he.symm
    rw [if_neg hne] at hw
    have hread : read fs resolvConf = some B := read_write hw
    refine safe_perform.mpr fun w _ => ⟨trivial, ?_⟩
    rcases removeFile_cases resolvBackup w { s with fs := fs } with ⟨e, he⟩ | ⟨fs', _, hfs', he⟩ <;>
      rw [he]
    · exact hread
    · obtain ⟨_, rfl⟩ := remove_eq_some.mp hfs'
      have hk := h.write hw
      obtain ⟨q, hq, hc⟩ := read_eq_some.mp hread
      refine read_eq_some.mpr ⟨q, (final_remove_file hk.backup).trans hq, ?_⟩
      show Function.update fs resolvBackup none q = _
      rw [Function.update_of_ne (fun hqb => hk.conf (hq.trans (congrArg some hqb))), hc]
  · have hb : s.fs resolvBackup = none := by
      by_contra hb
      obtain ⟨B, hB⟩ := h.read_backup hb
      exact absurd ((read_of_file hB).symm.trans (pathExists_eq_false.mp (hno rfl))) (by simp)
    rw [if_neg (not_not.mpr hb)]
    exact rfl

/-- **What a restore leaves in `/etc/resolv.conf`**, when no call on files fails. -/
theorem restore_reads (h : Apart s) :
    Safe handler FileOk (fun _ => True) (fun _ t => read t.fs resolvConf = restores s) restore s := by
  refine safe_perform.mpr fun w _ => ⟨trivial, ?_⟩
  have he : handler .takeActive w s = (s.active, { s with active := .idle }) := rfl
  rw [he]
  cases ha : s.active with
  | idle =>
    show read s.fs resolvConf = restores s
    rw [restores, if_neg (by simp [ha])]
  | resolvConf =>
    have hidle : Apart { s with active := .idle } := ⟨h.backup, h.conf⟩
    refine (resolvconfRestore_reads hidle).post fun _ t ht => ht.trans ?_
    show (if s.fs resolvBackup ≠ none then _ else _) = _
    by_cases hb : s.fs resolvBackup ≠ none
    · rw [if_pos hb, restores, if_pos ⟨ha, hb⟩]
    · rw [if_neg hb, restores, if_neg fun h => hb h.2]
  | resolved ifindex =>
    have hr : restores s = read s.fs resolvConf := by rw [restores, if_neg (by simp [ha])]
    rw [hr]
    refine safe_bind.mpr ((bus_keeps (I := fun t => read t.fs resolvConf = read s.fs resolvConf)
      (s := { s with active := .idle }) (managerCall_bus _) (fun _ _ hI => hI) rfl).mono
      (fun _ h => h) (fun _ _ => trivial) fun r t ht => ?_)
    cases r <;> exact ht

/-- Looking at a path, and talking to systemd-resolved, changes no file. -/
theorem handler_fs {c : Call} (hc : c.bus = true ∨ c.looks = true) (w : Fate) (s : System) :
    (handler c w s).2.fs = s.fs := by
  rcases hc with hc | hc
  · obtain ⟨links, he⟩ := handler_bus hc w s
    rw [he]
  · cases c with
    | pathExists p => rfl
    | symlinkMetadata p =>
      rcases symlinkMetadata_cases p w s with ⟨_, e, he⟩ | ⟨_, he⟩ | ⟨_, he⟩ <;> rw [he]
    | _ => exact absurd hc (by simp [Call.looks])

end Linux

namespace Controller

open Linux (System Apart FileOk restores resolvConf resolvBackup)

/-! ### The daemon as one program -/

/-- The redirector, as a part of the controller. -/
def redirectorPart (ρ : Type) : Part (Controller ρ) ρ where
  get c := c.redirector
  set c r := { c with redirector := r }
  get_set _ _ := rfl
  set_get _ := rfl
  set_set _ _ _ := rfl

/-- The calls on the redirector, as `LinuxRedirector` makes them. -/
def linuxMethod : ∀ c : Call, Option (Prog Linux.sig (Reply c))
  | .apply ip => some (Linux.apply ip)
  | .restore => some Linux.restore
  | .flushCache => some Linux.flushCache
  | .status | .set _ | .port | .start .. | .stop _ | .putProxy _ | .takeProxy | .subscribe => none

/-- The calls of the controller and those of its redirector. -/
abbrev linuxSig : Sig := sig.sum Linux.sig

def linuxHandler : Handler linuxSig Fate (Controller System) :=
  (redirectorPart System).handler (fun c w s => handler LinuxRedirector c ⟨w, []⟩ s) Linux.handler

/-- A command, call by call. -/
def Request.linuxBody (request : Request) : Prog linuxSig Status :=
  request.body.inline linuxMethod

/-- A new process: what is on disk stays. -/
def reboot (c : Controller System) : Controller System := new c.port (Linux.reboot c.redirector)

/-- **Call by call or in one step**, a command does the same. -/
theorem linuxBody_exec (request : Request) (ws : List Fate) (c : Controller System) :
    ∃ ws' : List (Choice (List Fate)),
      (exec linuxHandler request.linuxBody ws c).value =
        (exec (handler LinuxRedirector) request.body ws' c).value ∧
      (exec linuxHandler request.linuxBody ws c).state =
        (exec (handler LinuxRedirector) request.body ws' c).state := by
  refine exec_inline (fun c w s _ => ⟨⟨w, []⟩, rfl⟩) (fun c q ws s hq => ⟨⟨.ok, ws⟩, ?_⟩)
    request.body ws c
  cases c with
  | apply | restore | flushCache =>
    obtain rfl := Option.some.inj hq
    rfl
  | status | set | port | start | stop | putProxy | takeProxy | subscribe =>
    exact absurd hq (by simp [linuxMethod])

/-- A call that is none of the redirector's methods leaves it alone. -/
theorem linuxMethod_none {c : Call} (h : linuxMethod c = none) (w : Choice (List Fate))
    (s : Controller System) : (handler LinuxRedirector c w s).2.redirector = s.redirector := by
  cases c with
  | start listen upstream =>
    rcases start_cases LinuxRedirector w s listen upstream with ⟨e, he⟩ | he <;> rw [he]
  | apply | restore | flushCache => exact absurd h (by simp [linuxMethod])
  | status | set | port | stop | putProxy | takeProxy | subscribe => rfl

/-- **Every point of every run with crashes** keeps what the redirector's methods
keep between any two calls. -/
theorem reach_linux {I : System → Prop} {A : CallEvent Linux.sig Fate System → Prop}
    {A' : CallEvent linuxSig Fate (Controller System) → Prop}
    (hA : ∀ c w s, A' ⟨.inr c, w, s, { s with redirector := (Linux.handler c w s.redirector).2 }⟩ →
      A ⟨c, w, s.redirector, (Linux.handler c w s.redirector).2⟩)
    (hmethod : ∀ c q t, linuxMethod c = some q → I t →
      Safe Linux.handler A (fun e => I e.after) (fun _ t => I t) q t)
    (hreboot : ∀ s, I s → I (Linux.reboot s)) {port : UInt16} {s₀ : System} (h₀ : I s₀)
    {f : Option (Frame Request linuxSig (Controller System) Status)} {c : Controller System}
    (h : Reach linuxHandler A' Request.linuxBody reboot (new port s₀) f c) : I c.redirector := by
  refine (h.invariant (I := fun c => I c.redirector) (Q := fun _ _ _ _ => True) h₀
    (fun c hc => hreboot _ hc) fun request c hc => ?_).1
  exact (safe_inline (P := redirectorPart System) hA
    (fun c w s hc => linuxMethod_none hc ⟨w, []⟩ s)
    (fun c q t _ hq ht => hmethod c q t hq ht) (Prog.calls_any _) hc).post fun _ _ ht => ⟨ht, trivial⟩

theorem linuxMethod_apart {c : Call} {q : Prog Linux.sig (Reply c)} (hq : linuxMethod c = some q)
    {A : CallEvent Linux.sig Fate System → Prop} {s : System} (h : Apart s) :
    Safe Linux.handler A (fun e => Apart e.after) (fun _ t => Apart t) q s := by
  have hstep : ∀ (c : Linux.Call) (w : Fate) (s : System), c.removesOwn →
      A ⟨c, w, s, (Linux.handler c w s).2⟩ → Apart s → Apart (Linux.handler c w s).2 :=
    fun c w s hc _ hs => Linux.handler_apart hc w hs
  cases c with
  | apply ip =>
    obtain rfl := Option.some.inj hq
    exact safe_frame hstep (Linux.apply_own ip) h
  | restore =>
    obtain rfl := Option.some.inj hq
    exact safe_frame hstep Linux.restore_own h
  | flushCache =>
    obtain rfl := Option.some.inj hq
    refine safe_frame hstep (Linux.flushCache_looks.mono fun c hc => ?_) h
    rcases hc with hc | hc
    · exact Linux.Call.removesOwn_of_bus hc
    · cases c with
      | removeFile p => exact absurd hc (by simp [Linux.Call.looks])
      | _ => trivial
  | status | set | port | start | stop | putProxy | takeProxy | subscribe =>
    exact absurd hq (by simp [linuxMethod])

/-! ### What a disconnect recovers -/

/-- A call on files succeeds. -/
def FilesOk (e : CallEvent linuxSig Fate (Controller System)) : Prop :=
  match e.call with
  | .inl _ => True
  | .inr c => FileOk ⟨c, e.choice, e.before.redirector, e.after.redirector⟩

instance : DecidablePred FilesOk := fun e =>
  match e with
  | ⟨.inl _, _, _, _⟩ => isTrue trivial
  | ⟨.inr c, w, s, t⟩ => inferInstanceAs (Decidable (FileOk ⟨c, w, s.redirector, t.redirector⟩))

/-- After `restore` no file changes. -/
theorem killProxy_fs (c : Controller System) :
    Safe linuxHandler FilesOk (fun e => e.after.redirector.fs = c.redirector.fs)
      (fun _ t => t.redirector.fs = c.redirector.fs) (killProxy.inline linuxMethod) c := by
  refine safe_inline (P := redirectorPart System) (A := fun _ => True)
    (I := fun t => t.fs = c.redirector.fs) (fun _ _ _ _ => trivial)
    (fun c w s hc => linuxMethod_none hc ⟨w, []⟩ s) (fun call q t hcall hq ht => ?_)
    killProxy_afterRestore rfl
  cases call with
  | flushCache =>
    obtain rfl := Option.some.inj hq
    exact safe_frame (fun c w s hc _ hs => (Linux.handler_fs hc w s).trans hs)
      Linux.flushCache_looks ht
  | apply | restore => exact absurd hcall (by simp [Call.afterRestore])
  | status | set | port | start | stop | putProxy | takeProxy | subscribe =>
    exact absurd hq (by simp [linuxMethod])

theorem disconnect_reads {c : Controller System} (h : Apart c.redirector) :
    Safe linuxHandler FilesOk (fun _ => True)
      (fun _ t => read t.redirector.fs resolvConf = restores c.redirector)
      Request.disconnect.linuxBody c := by
  show Safe linuxHandler FilesOk _ _ ((Prog.lift Linux.restore : Prog linuxSig _) >>= fun _ =>
    killProxy.inline linuxMethod) c
  refine safe_bind.mpr ((safe_lift (P := redirectorPart System) (A := FileOk)
    (B := fun _ => True) (fun _ _ _ ha => ha) (fun _ _ _ _ => trivial)
    (Linux.restore_reads h)).post fun _ t ht => ?_)
  refine (killProxy_fs t).mono (fun _ h => h) (fun _ _ => trivial) fun _ u hu => ?_
  rw [hu]
  exact ht.2

/-- **What a disconnect recovers.**  At every point between two commands of every
run, killed and started again anywhere, a `disconnect` whose calls on files all
succeed reports disconnected; and `/etc/resolv.conf` reads what it did before the
first `connect` exactly when what the disconnect restores is that. -/
theorem disconnect_recovers {port : UInt16} {s₀ : System} (h₀ : Apart s₀) {c : Controller System}
    (h : Reach linuxHandler (fun _ => True) Request.linuxBody reboot (new port s₀) none c)
    (ws : List Fate)
    (hfiles : ∀ e ∈ (exec linuxHandler Request.disconnect.linuxBody ws c).events, FilesOk e) :
    (exec linuxHandler Request.disconnect.linuxBody ws c).value = .disconnected ∧
      (read (exec linuxHandler Request.disconnect.linuxBody ws c).state.redirector.fs resolvConf =
          read s₀.fs resolvConf ↔ restores c.redirector = read s₀.fs resolvConf) := by
  have hapart : Apart c.redirector :=
    reach_linux (A := fun _ => True) (fun _ _ _ _ => trivial)
      (fun _ _ _ hq ht => linuxMethod_apart hq ht) (fun _ hs => ⟨hs.backup, hs.conf⟩) h₀ h
  constructor
  · obtain ⟨ws', hv, _⟩ := linuxBody_exec .disconnect ws c
    rw [hv]
    exact ((disconnect_ends LinuxRedirector c).exec_total ws').2.1
  · rw [((disconnect_reads hapart).exec ws hfiles).2]

/-- A host that has connected, by commands in which nothing fails. -/
def connectedHost : Controller System :=
  (exec linuxHandler (Request.connect .cloudflare).linuxBody [] (new 53 Linux.plainHost)).state

theorem reach_connectedHost {A : CallEvent linuxSig Fate (Controller System) → Prop}
    (hA : ∀ e ∈ (exec linuxHandler (Request.connect .cloudflare).linuxBody []
      (new 53 Linux.plainHost)).events, A e) :
    Reach linuxHandler A Request.linuxBody reboot (new 53 Linux.plainHost) none connectedHost :=
  .finish (.runs _ [] (.start (Request.connect .cloudflare) .init) hA)

theorem plainHost_apart : Apart Linux.plainHost := ⟨by decide, by decide⟩

/-- The process that connected disconnects. -/
theorem disconnect_recovers_connectedHost :
    read (exec linuxHandler Request.disconnect.linuxBody [] connectedHost).state.redirector.fs
      resolvConf = read Linux.plainHost.fs resolvConf :=
  (disconnect_recovers plainHost_apart (reach_connectedHost fun _ _ => trivial) []
    (by decide +kernel)).2.mpr (by decide +kernel)

/-- The run takes the `resolv.conf` path. -/
def OnResolvConf (e : CallEvent linuxSig Fate (Controller System)) : Prop :=
  match e.call with
  | .inl _ => True
  | .inr c => c.redirects = true → e.choice ≠ .ok

instance : DecidablePred OnResolvConf := fun e =>
  match e with
  | ⟨.inl _, _, _, _⟩ => isTrue trivial
  | ⟨.inr _, _, _, _⟩ => inferInstanceAs (Decidable (_ → _ ≠ _))

/-- **Another process does not.**  It is killed once it has connected; the next one
has no record, and its disconnect restores nothing. -/
theorem crash_loses_record : ¬ ∀ (c : Controller System) (ws : List Fate),
    Reach linuxHandler OnResolvConf Request.linuxBody reboot (new 53 Linux.plainHost) none c →
    (∀ e ∈ (exec linuxHandler Request.disconnect.linuxBody ws c).events, FilesOk e) →
    (exec linuxHandler Request.disconnect.linuxBody ws c).value = .disconnected →
    read (exec linuxHandler Request.disconnect.linuxBody ws c).state.redirector.fs resolvConf =
      read Linux.plainHost.fs resolvConf := by
  intro hall
  have hreach := (reach_connectedHost (A := OnResolvConf) (by decide +kernel)).kill
  have hleft := hall _ [] hreach (by decide +kernel) (by decide +kernel)
  have hmanaged : read (exec linuxHandler Request.disconnect.linuxBody []
      (reboot connectedHost)).state.redirector.fs resolvConf =
      some "# voidns managed\nnameserver 127.0.0.1\n" := by decide +kernel
  rw [hmanaged] at hleft
  exact absurd hleft (by decide)

/-! ### When nothing is lost -/

/-- The existence checks that matter answer truthfully. -/
def Answered (C : String) (e : CallEvent linuxSig Fate (Controller System)) : Prop :=
  match e.call with
  | .inl _ => True
  | .inr c => Linux.Answers C ⟨c, e.choice, e.before.redirector, e.after.redirector⟩

/-- **The record is what matters**, when the existence checks do not lie: of all
processes only one with a record restores, and what it restores are the contents
`/etc/resolv.conf` had at first. -/
theorem record_recovers {C : String} {port : UInt16} {s₀ : System}
    (hr : read s₀.fs resolvConf = some C) (hb : s₀.fs resolvBackup = none)
    (hi : s₀.active = .idle) {c : Controller System}
    (h : Reach linuxHandler (Answered C) Request.linuxBody reboot (new port s₀) none c) :
    restores c.redirector = some C ↔
      c.redirector.active = .resolvConf ∨ read c.redirector.fs resolvConf = some C := by
  have hk : Linux.Kept C c.redirector := by
    refine reach_linux (A := Linux.Answers C) (fun _ _ _ ha => ha) (fun call q t hq ht => ?_)
      (fun _ hs => hs.reboot) (Linux.Kept.initial hr hb hi) h
    cases call with
    | apply ip =>
      obtain rfl := Option.some.inj hq
      exact Linux.apply_safe ip ht
    | restore =>
      obtain rfl := Option.some.inj hq
      exact (Linux.restore_safe ht).post fun _ _ h => h.1
    | flushCache =>
      obtain rfl := Option.some.inj hq
      refine (Linux.flushCache_same t).mono (fun _ _ => trivial) (fun e he => ?_) fun _ u hu => ?_
      · rw [he]; exact ht
      · rw [hu]; exact ht
    | status | set | port | start | stop | putProxy | takeProxy | subscribe =>
      exact absurd hq (by simp [linuxMethod])
  by_cases ha : c.redirector.active = .resolvConf
  · have hfile := hk.record ha
    rw [restores, if_pos ⟨ha, by simp [hfile]⟩, read_of_file hfile]
    simp [ha]
  · rw [restores, if_neg fun h => ha h.1]
    simp [ha]

end Controller

end Voidns
