import Mathlib.Data.List.Perm.Basic
import Voidns.Gui.World

/-!
# The token gate

VoidNS needs a token, so `toggle` and `selectProvider` show the gate instead of
connecting while it is selected without one.  `reconnectFor` looks at `providerId`
once more when its `disconnect` has been answered, and there the gate is not
checked: the user may have gone back to VoidNS meanwhile.

`Window` is the window by itself, whatever the service answers and in whatever
order: the functions suspended are a list, from which any may be resumed with any
reply.  `invoked` are the commands it has sent, each with the token of that moment.
A run sends no `Connect` to VoidNS without a token exactly when no `disconnect` of
a `reconnectFor` is answered while the gate is due (`token_gated_iff`).
The window of the `World` runs as one of these (`reach_window`).
-/

namespace Voidns.Gui

open Steps

/-- The gate is due: VoidNS is selected, and there is no token. -/
def App.barred (a : App) : Prop := a.providerId = "voidns" ∧ a.token = ""

instance (a : App) : Decidable a.barred := inferInstanceAs (Decidable (_ ∧ _))

/-- A command sent, with the token of that moment. -/
structure Invocation where
  cmd : Command
  token : String
  deriving DecidableEq

/-- The window, the functions that await a reply, and all it has sent. -/
structure Window where
  app : App
  mount : Mount
  suspended : List Await
  invoked : List Invocation
  deriving DecidableEq

namespace Window

def new : Window where
  app := .new
  mount := .registering
  suspended := []
  invoked := []

inductive Label where
  | user (a : Action)
  | tick
  /-- The listener is registered. -/
  | register
  /-- `listen` returns to `onMount`. -/
  | mounted
  /-- A reply, or the error of a call that failed, resumes one of the functions. -/
  | resume (aw : Await) (r : Except String Status)
  /-- An event of the subscription. -/
  | hear (s : Status)
  /-- The GUI is closed and opened again. -/
  | restart

/-- What a function leaves. -/
def next (w : Window) (n : App.Next) : Window :=
  { w with
    app := n.1
    suspended := w.suspended ++ (n.2.map Prod.fst).toList
    invoked := w.invoked ++ (n.2.map fun sent => ⟨sent.2, n.1.token⟩).toList }

def step : Label → Window → Option Window
  | .user a, w => some (w.next (w.app.act a))
  | .tick, w =>
    if w.app.ticking then some { w with app := { w.app with elapsed := w.app.elapsed + 1 } }
    else none
  | .register, w => if w.mount = .registering then some { w with mount := .registered } else none
  | .mounted, w =>
    if w.mount = .registered then some ({ w with mount := .mounted }.next w.app.onMount) else none
  | .resume aw r, w =>
    if aw ∈ w.suspended then
      some ({ w with suspended := w.suspended.erase aw }.next (w.app.resume aw r))
    else none
  | .hear s, w =>
    if w.mount = .registering then none else some { w with app := w.app.applyStatus s }
  | .restart, w => some { w with app := .new, mount := .registering, suspended := [] }

/-- Every step, with what makes it possible. -/
inductive Moves (w : Window) : Label → Window → Prop
  | user (a : Action) : Moves w (.user a) (w.next (w.app.act a))
  | tick : w.app.ticking = true →
      Moves w .tick { w with app := { w.app with elapsed := w.app.elapsed + 1 } }
  | register : w.mount = .registering → Moves w .register { w with mount := .registered }
  | mounted : w.mount = .registered →
      Moves w .mounted ({ w with mount := .mounted }.next w.app.onMount)
  | resume {aw : Await} (r : Except String Status) : aw ∈ w.suspended →
      Moves w (.resume aw r)
        ({ w with suspended := w.suspended.erase aw }.next (w.app.resume aw r))
  | hear (s : Status) : w.mount ≠ .registering →
      Moves w (.hear s) { w with app := w.app.applyStatus s }
  | restart : Moves w .restart { w with app := .new, mount := .registering, suspended := [] }

/-- **A step is one of these.** -/
theorem step_moves {l : Label} {w w' : Window} (h : step l w = some w') : Moves w l w' := by
  cases l with
  | user a => obtain rfl := Option.some.inj h; exact .user a
  | tick =>
    obtain ⟨ht, rfl⟩ : w.app.ticking = true ∧ _ = w' := by simpa [step] using h
    exact .tick ht
  | register =>
    obtain ⟨hm, rfl⟩ : w.mount = .registering ∧ _ = w' := by simpa [step] using h
    exact .register hm
  | mounted =>
    obtain ⟨hm, rfl⟩ : w.mount = .registered ∧ _ = w' := by simpa [step] using h
    exact .mounted hm
  | resume aw r =>
    obtain ⟨hin, rfl⟩ : aw ∈ w.suspended ∧ _ = w' := by simpa [step] using h
    exact .resume r hin
  | hear s =>
    obtain ⟨hm, rfl⟩ : w.mount ≠ .registering ∧ _ = w' := by simpa [step] using h
    exact .hear s hm
  | restart => obtain rfl := Option.some.inj h; exact .restart

/-! ### What is sent without a token -/

/-- No `Connect` to VoidNS was sent without a token. -/
def TokenGated (w : Window) : Prop := ∀ x ∈ w.invoked, x.cmd = .connect .voidns → x.token ≠ ""

instance : DecidablePred TokenGated :=
  fun w => inferInstanceAs (Decidable (∀ x ∈ w.invoked, _ → _))

/-- No `disconnect` of a `reconnectFor` is answered while the gate is due. -/
def GateChecked : Label → Window → Prop
  | .resume .reconnectDisconnect _, w => ¬ w.app.barred
  | _, _ => True

instance : ∀ (l : Label) (w : Window), Decidable (GateChecked l w)
  | .resume .reconnectDisconnect _, w => inferInstanceAs (Decidable ¬ w.app.barred)
  | .resume .onMount _, _ | .resume .realConnect _, _ | .resume .realDisconnect _, _
  | .resume .reconnectConnect _, _ => isTrue trivial
  | .user _, _ | .tick, _ | .register, _ | .mounted, _ | .hear _, _ | .restart, _ => isTrue trivial

end Window

namespace App

/-- Only VoidNS itself has its upstream. -/
theorem upstreamFor_eq_voidns {id : String} : upstreamFor id = .voidns ↔ id = "voidns" := by
  unfold upstreamFor
  split <;> simp_all

/-- The function ends by sending a `Connect` to VoidNS without a token. -/
def Next.Untokened (n : Next) : Prop := ∃ aw, n.2 = some (aw, .connect .voidns) ∧ n.1.token = ""

theorem Next.not_untokened_none (a : App) : ¬ Next.Untokened (a, none) := by
  rintro ⟨aw, h, _⟩
  exact absurd h (by simp)

/-- A function that ends with `connect(upstreamFor(providerId))`. -/
theorem Next.untokened_connect (a : App) (aw : Await) :
    Next.Untokened (a, some (aw, .connect (upstreamFor a.providerId))) ↔ a.barred := by
  constructor
  · rintro ⟨_, h, ht⟩
    have hup : upstreamFor a.providerId = .voidns :=
      Command.connect.inj (Prod.mk.inj (Option.some.inj h)).2
    exact ⟨upstreamFor_eq_voidns.mp hup, ht⟩
  · rintro ⟨hid, ht⟩
    refine ⟨aw, ?_, ht⟩
    rw [upstreamFor_eq_voidns.mpr hid]

theorem Next.not_untokened_disconnect (a : App) (aw : Await) :
    ¬ Next.Untokened (a, some (aw, .disconnect)) := by
  rintro ⟨_, h, _⟩
  exact absurd h (by simp)

/-- **The actions check the gate.** -/
theorem act_tokened (a : App) (action : Action) : ¬ Next.Untokened (a.act action) := by
  have h := a.act_acts action
  generalize a.act action = n at h ⊢
  cases h with
  | connect _ hgate => exact fun h => hgate ((Next.untokened_connect _ _).mp h)
  | disconnect => exact Next.not_untokened_disconnect _ _
  | reconnect => exact Next.not_untokened_disconnect _ _
  | barred | same | gated | select | blank | activate | revive | toggleOpen | typeToken | skipGate
  | openGate => exact Next.not_untokened_none _

/-- Only `reconnectFor` has a second `await`. -/
theorem resume_snd (a : App) {aw : Await} (r : Except String Status)
    (h : aw ≠ .reconnectDisconnect) : (a.resume aw r).2 = none := by
  cases aw with
  | reconnectDisconnect => exact absurd rfl h
  | onMount | realConnect | realDisconnect | reconnectConnect => cases r <;> rfl

/-- **Of what follows an `await`, only `reconnectFor` can go past the gate**, and
does when it is due. -/
theorem resume_untokened (a : App) (aw : Await) (r : Except String Status) :
    Next.Untokened (a.resume aw r) ↔ aw = .reconnectDisconnect ∧ a.barred := by
  by_cases haw : aw = .reconnectDisconnect
  · subst haw
    have h : a.resume .reconnectDisconnect r = a.reconnect := by cases r <;> rfl
    rw [h, and_iff_right rfl]
    exact Next.untokened_connect _ _
  · refine iff_of_false ?_ fun hb => haw hb.1
    rintro ⟨_, hs, _⟩
    exact absurd ((a.resume_snd r haw).symm.trans hs) (by simp)

/-- Only `selectProvider` makes the gate due. -/
theorem act_barred {a : App} {action : Action} (hbar : (a.act action).1.barred) :
    a.barred ∨ ∃ id, action = .selectProvider id ∧ a.gated id := by
  have h := a.act_acts action
  generalize a.act action = n at h hbar
  cases h with
  | gated hgate => exact .inr ⟨_, rfl, hgate⟩
  | reconnect hid hgate _ => exact absurd ⟨hid, hbar⟩ hgate
  | select hid hgate _ => exact absurd ⟨hid, hbar⟩ hgate
  | activate ht _ => exact absurd hbar.2 ht
  | revive ht _ => exact absurd hbar.2 ht
  | barred | connect | disconnect | same | blank | toggleOpen | typeToken | skipGate | openGate =>
    exact .inl hbar

/-- A `reconnectFor` starts past the gate. -/
theorem act_reconnects {a : App} {action : Action} {cmd : Command}
    (hsent : (a.act action).2 = some (.reconnectDisconnect, cmd)) : ¬ (a.act action).1.barred := by
  have h := a.act_acts action
  generalize a.act action = n at h hsent ⊢
  cases h with
  | reconnect hid hgate _ => exact fun hbar => hgate ⟨hid, hbar⟩
  | barred | connect | disconnect | same | gated | select | blank | activate | revive | toggleOpen
  | typeToken | skipGate | openGate =>
    exact absurd hsent (by simp [realConnect, realDisconnect])

theorem resume_barred (a : App) (aw : Await) (r : Except String Status) :
    (a.resume aw r).1.barred ↔ a.barred := by
  rw [barred, resume_providerId, resume_token, barred]

end App

namespace Window

variable {w w' : Window}

theorem new_tokenGated : TokenGated new := fun _ h => absurd h (by simp [new])

/-- A function of the window has run. -/
theorem tokenGated_next (n : App.Next) : (w.next n).TokenGated ↔ w.TokenGated ∧ ¬ n.Untokened := by
  have hsent : (∀ x ∈ (n.2.map fun sent => (⟨sent.2, n.1.token⟩ : Invocation)).toList,
      x.cmd = .connect .voidns → x.token ≠ "") ↔ ¬ n.Untokened := by
    constructor
    · rintro h ⟨aw, hs, ht⟩
      refine h ⟨.connect .voidns, n.1.token⟩ ?_ rfl ht
      rw [hs]
      exact List.mem_singleton_self _
    · rintro h x hx hcmd ht
      obtain ⟨⟨aw, cmd⟩, hs, rfl⟩ := Option.map_eq_some_iff.mp (Option.mem_toList.mp hx)
      obtain rfl : cmd = .connect .voidns := hcmd
      exact h ⟨aw, hs, ht⟩
  rw [TokenGated, next, List.forall_mem_append, hsent, TokenGated]

/-- **One step.** -/
theorem step_tokenGated {l : Label} (h : step l w = some w') :
    w'.TokenGated ↔ w.TokenGated ∧ GateChecked l w := by
  cases step_moves h with
  | user a =>
    rw [tokenGated_next]
    exact and_congr_right fun _ => iff_of_true (App.act_tokened _ a) trivial
  | mounted =>
    rw [tokenGated_next]
    refine and_congr_right fun _ => iff_of_true ?_ trivial
    rintro ⟨_, hs, _⟩
    exact absurd hs (by simp [App.onMount])
  | @resume aw r =>
    rw [tokenGated_next, App.resume_untokened]
    refine and_congr_right fun _ => ?_
    cases aw with
    | reconnectDisconnect => rw [and_iff_right rfl]; rfl
    | onMount | realConnect | realDisconnect | reconnectConnect =>
      exact iff_of_true (fun hb => absurd hb.1 (by simp)) trivial
  | tick | register | hear | restart => exact (and_iff_left trivial).symm

/-- **The token gate.**  A run sends no `Connect` to VoidNS without a token exactly
when no `disconnect` of a `reconnectFor` in it is answered while the gate is due. -/
theorem token_gated_iff (ls : List Label) (w : Window) (h : run step ls new = some w) :
    (∀ x ∈ w.invoked, x.cmd = .connect .voidns → x.token ≠ "") ↔
      Allowed step GateChecked ls new :=
  (run_iff_allowed (fun _ _ _ hs => step_tokenGated hs) ls h).trans (and_iff_right new_tokenGated)

/-- The window opens, and the user connects to the provider shown. -/
def connected : List Label :=
  [.register, .mounted, .resume .onMount (.ok .disconnected), .user .toggle,
    .resume .realConnect (.ok ⟨.connected, some "Cloudflare", some "127.0.0.1:53", none⟩)]

/-- The token is entered while the `disconnect` of the change to Quad9 is awaited. -/
theorem token_gated_activated : ∃ w : Window,
    (∀ x ∈ w.invoked, x.cmd = .connect .voidns → x.token ≠ "") ∧
      ⟨.connect .voidns, "vdn"⟩ ∈ w.invoked := by
  have hrun : ∃ w ∈ run step
      (connected ++ [.user (.selectProvider "quad9"), .user (.typeToken "vdn"), .user .activateToken,
        .resume .reconnectDisconnect (.ok .disconnected)]) new,
      ⟨.connect .voidns, "vdn"⟩ ∈ w.invoked := by decide +kernel
  obtain ⟨w, hw, hin⟩ := hrun
  exact ⟨w, (token_gated_iff _ w hw).mpr (by decide +kernel), hin⟩

/-- **Past the gate.**  The user changes from Cloudflare to Quad9 and, before the
`disconnect` is answered, on to VoidNS. -/
theorem gate_passed : ¬ ∀ (ls : List Label) (w : Window), run step ls new = some w →
    ∀ x ∈ w.invoked, x.cmd = .connect .voidns → x.token ≠ "" := by
  intro hall
  have hrun : ∃ w ∈ run step
      (connected ++ [.user (.selectProvider "quad9"), .user (.selectProvider "voidns"),
        .resume .reconnectDisconnect (.ok .disconnected)]) new,
      (⟨.connect .voidns, ""⟩ : Invocation) ∈ w.invoked := by decide +kernel
  obtain ⟨w, hw, hin⟩ := hrun
  exact hall _ w hw _ hin rfl rfl

/-! ### A user who waits -/

/-- The user does not go to VoidNS without a token while a `reconnectFor` awaits
its `disconnect`. -/
def Patient : Label → Window → Prop
  | .user (.selectProvider id), w => .reconnectDisconnect ∈ w.suspended → ¬ w.app.gated id
  | _, _ => True

theorem mem_next {n : App.Next} {aw : Await} (h : aw ∈ (w.next n).suspended) :
    aw ∈ w.suspended ∨ ∃ cmd, n.2 = some (aw, cmd) := by
  rcases List.mem_append.mp h with h | h
  · exact .inl h
  · obtain ⟨⟨_, cmd⟩, hs, rfl⟩ := Option.map_eq_some_iff.mp (Option.mem_toList.mp h)
    exact .inr ⟨cmd, hs⟩

/-- No `reconnectFor` awaits its `disconnect` while the gate is due. -/
def Held (w : Window) : Prop := .reconnectDisconnect ∈ w.suspended → ¬ w.app.barred

theorem Held.step {l : Label} (h : Held w) (hl : Patient l w) (hs : step l w = some w') :
    Held w' := by
  cases step_moves hs with
  | user a =>
    intro hin hbar
    rcases mem_next hin with hold | ⟨cmd, hsent⟩
    · rcases App.act_barred hbar with hbar' | ⟨id, rfl, hgated⟩
      · exact h hold hbar'
      · exact hl hold hgated
    · exact App.act_reconnects hsent hbar
  | mounted =>
    intro hin
    rcases mem_next hin with hold | ⟨cmd, hsent⟩
    · exact h hold
    · exact absurd hsent (by simp [App.onMount])
  | @resume aw r =>
    intro hin hbar
    rcases mem_next hin with hold | ⟨cmd, hsent⟩
    · exact h (List.mem_of_mem_erase hold) ((w.app.resume_barred aw r).mp hbar)
    · by_cases haw : aw = .reconnectDisconnect
      · subst haw
        cases r <;> exact absurd hsent (by simp [App.resume, App.reconnect])
      · exact absurd ((w.app.resume_snd r haw).symm.trans hsent) (by simp)
  | hear s =>
    show _ → ¬ (w.app.applyStatus s).barred
    rw [App.barred, App.applyStatus_providerId, App.applyStatus_token]
    exact h
  | restart => exact fun hin => absurd hin (by simp)
  | tick | register => exact h

theorem gateChecked_resume {aw : Await} {r : Except String Status}
    (h : aw = .reconnectDisconnect → ¬ w.app.barred) : GateChecked (.resume aw r) w := by
  cases aw with
  | reconnectDisconnect => exact h rfl
  | onMount | realConnect | realDisconnect | reconnectConnect => trivial

/-- **Nothing goes past the gate while the user is patient.** -/
theorem reach_patient (h : Reach step Patient new w) : w.TokenGated := by
  suffices hboth : w.Held ∧ w.TokenGated from hboth.2
  have hnew : new.Held := fun hin => absurd hin (by simp [new])
  refine h.invariant (I := fun w => w.Held ∧ w.TokenGated) ⟨hnew, new_tokenGated⟩
    fun l v v' hl hs hv => ⟨hv.1.step hl hs, (step_tokenGated hs).mpr ⟨hv.2, ?_⟩⟩
  cases step_moves hs with
  | resume r hin => exact gateChecked_resume fun haw => hv.1 (haw ▸ hin)
  | user | tick | register | mounted | hear | restart => trivial

end Window

/-! ### The window of the world -/

namespace World

variable {ω ρ : Type}

/-- The functions that await a reply. -/
def awaits (rs : List Request) : List Await := rs.filterMap Request.await

/-- `v` is the window of `w`: what is suspended are the awaits of the requests, and
all these have been sent. -/
structure Shows (w : World ρ) (v : Window) : Prop where
  app : v.app = w.app
  mount : v.mount = w.mount
  suspended : v.suspended.Perm (awaits w.requests)
  invoked : ∀ r ∈ w.requests, ∃ x ∈ v.invoked, x.cmd = r.cmd

theorem awaits_cons (r : Request) (rs : List Request) :
    awaits (r :: rs) = r.await.toList ++ awaits rs := by
  unfold awaits
  rw [List.filterMap_cons]
  cases r.await <;> rfl

theorem awaits_append (rs qs : List Request) : awaits (rs ++ qs) = awaits rs ++ awaits qs :=
  List.filterMap_append

/-- Request `k` put first. -/
theorem awaits_pick {rs : List Request} {k : Nat} {r : Request} (h : rs[k]? = some r) :
    (awaits rs).Perm (r.await.toList ++ awaits (rs.eraseIdx k)) := by
  obtain ⟨hk, rfl⟩ := List.getElem?_eq_some_iff.mp h
  rw [← awaits_cons]
  exact (List.getElem_cons_eraseIdx_perm hk).symm.filterMap _

theorem awaits_set {rs : List Request} {k : Nat} {r q : Request} (h : rs[k]? = some r) :
    (awaits (rs.set k q)).Perm (q.await.toList ++ awaits (rs.eraseIdx k)) := by
  obtain ⟨hk, _⟩ := List.getElem?_eq_some_iff.mp h
  rw [← awaits_cons]
  exact (List.set_perm_cons_eraseIdx hk q).filterMap _

theorem awaits_take (rs : List Request) (i : Nat) : awaits (rs.map (Request.take i)) = awaits rs := by
  unfold awaits
  rw [List.filterMap_map]
  refine List.filterMap_congr fun r _ => ?_
  show (r.take i).await = r.await
  unfold Request.take
  split <;> rfl

theorem awaits_orphans (rs : List Request) : awaits (rs.map Request.orphan) = [] := by
  unfold awaits
  rw [List.filterMap_map]
  exact List.filterMap_eq_nil_iff.mpr fun _ _ => rfl

/-- A request that resumes a function goes. -/
theorem awaits_answered {rs : List Request} {k : Nat} {r : Request} {aw : Await}
    {suspended : List Await} (h : suspended.Perm (awaits rs)) (hr : rs[k]? = some r)
    (haw : r.await = some aw) :
    aw ∈ suspended ∧ (suspended.erase aw).Perm (awaits (rs.eraseIdx k)) := by
  have hpick : suspended.Perm (aw :: awaits (rs.eraseIdx k)) := by
    have := h.trans (awaits_pick hr)
    rw [haw] at this
    exact this
  refine ⟨hpick.mem_iff.mpr List.mem_cons_self, ?_⟩
  have := hpick.erase aw
  rw [List.erase_cons_head] at this
  exact this

/-- A function of the window has run. -/
theorem Shows.next {w : World ρ} {v : Window} (h : Shows w v) (n : App.Next) :
    Shows (w.next n) (v.next n) where
  app := rfl
  mount := h.mount
  suspended := by
    show List.Perm (_ ++ _) (awaits (_ ++ _))
    rw [awaits_append]
    refine h.suspended.append (.of_eq ?_)
    cases n.2 <;> rfl
  invoked r hr := by
    rcases List.mem_append.mp hr with hr | hr
    · obtain ⟨x, hx, he⟩ := h.invoked r hr
      exact ⟨x, List.mem_append_left _ hx, he⟩
    · obtain ⟨sent, hs, rfl⟩ := Option.map_eq_some_iff.mp (Option.mem_toList.mp hr)
      refine ⟨⟨sent.2, n.1.token⟩, List.mem_append_right _ ?_, rfl⟩
      rw [hs]
      exact List.mem_singleton_self _

/-- What happens beside the window. -/
theorem Shows.aside {w w' : World ρ} {v : Window} (h : Shows w v) (happ : w'.app = w.app)
    (hmount : w'.mount = w.mount) (haw : (awaits w'.requests).Perm (awaits w.requests))
    (hcmd : ∀ r ∈ w'.requests, ∃ q ∈ w.requests, q.cmd = r.cmd) : Shows w' v where
  app := h.app.trans happ.symm
  mount := h.mount.trans hmount.symm
  suspended := h.suspended.trans haw.symm
  invoked r hr := by
    obtain ⟨q, hq, he⟩ := hcmd r hr
    rw [← he]
    exact h.invoked q hq

/-- The gate is checked in the world as in its window. -/
def GateChecked : Label ω → World ρ → Prop
  | .resolve k, w | .reject k _, w =>
    ∀ r ∈ w.requests[k]?, r.await = some .reconnectDisconnect → ¬ w.app.barred
  | _, _ => True

/-- What the window makes of a step of the world. -/
def Shown (l : Label ω) (w : World ρ) (v v' : Window) : Prop :=
  v' = v ∨ ∃ m, (GateChecked l w → Window.GateChecked m v) ∧ Window.step m v = some v'

/-- A reply, or an error, resumes the function that awaits it. -/
theorem Shows.resume {w : World ρ} {v : Window} {l : Label ω} {k : Nat} {r : Request} {aw : Await}
    {rs : List Request} (reply : Except String Status) (h : Shows w v)
    (hr : w.requests[k]? = some r) (haw : r.await = some aw)
    (hgate : GateChecked l w → r.await = some .reconnectDisconnect → ¬ w.app.barred)
    (hrs : (awaits rs).Perm (awaits (w.requests.eraseIdx k)))
    (hcmd : ∀ q ∈ rs, ∃ p ∈ w.requests, p.cmd = q.cmd) :
    ∃ v', Shown l w v v' ∧ Shows ({ w with requests := rs }.next (w.app.resume aw reply)) v' := by
  obtain ⟨hin, herase⟩ := awaits_answered h.suspended hr haw
  have herased : Shows { w with requests := rs } { v with suspended := v.suspended.erase aw } := by
    refine ⟨h.app, h.mount, herase.trans hrs.symm, fun q hq => ?_⟩
    obtain ⟨p, hp, he⟩ := hcmd q hq
    rw [← he]
    exact h.invoked p hp
  refine ⟨_, .inr ⟨.resume aw reply, fun hl => Window.gateChecked_resume fun he => ?_, if_pos hin⟩,
    ?_⟩
  · rw [h.app]
    exact hgate hl (he ▸ haw)
  · rw [h.app]
    exact herased.next _

/-- **A step of the world is one of its window, or none.** -/
theorem Shows.step {R : DnsRedirector ω ρ} {l : Label ω} {w w' : World ρ} {v : Window}
    (h : Shows w v) (hs : step R l w = some w') : ∃ v', Shown l w v v' ∧ Shows w' v' := by
  have herased : ∀ k, ∀ q ∈ w.requests.eraseIdx k, ∃ p ∈ w.requests, p.cmd = q.cmd :=
    fun k q hq => ⟨q, (List.eraseIdx_sublist _ _).subset hq, rfl⟩
  have hset : ∀ {k : Nat} {r q : Request}, w.requests[k]? = some r → q.cmd = r.cmd →
      ∀ x ∈ w.requests.set k q, ∃ p ∈ w.requests, p.cmd = x.cmd := by
    intro k r q hr hcmd x hx
    rcases List.mem_or_eq_of_mem_set hx with hx | rfl
    · exact ⟨x, hx, rfl⟩
    · exact ⟨r, List.mem_of_getElem? hr, hcmd.symm⟩
  have hsame : ∀ q ∈ w.requests, ∃ p ∈ w.requests, p.cmd = q.cmd := fun q hq => ⟨q, hq, rfl⟩
  cases step_moves hs with
  | user a =>
    refine ⟨_, .inr ⟨.user a, fun _ => trivial, rfl⟩, ?_⟩
    rw [h.app]
    exact h.next _
  | tick =>
    have ht : w.app.ticking = true := by simpa [World.step] using hs
    rw [← h.app] at ht ⊢
    exact ⟨_, .inr ⟨.tick, fun _ => trivial, if_pos ht⟩, rfl, h.mount, h.suspended, h.invoked⟩
  | register hm =>
    exact ⟨_, .inr ⟨.register, fun _ => trivial, if_pos (h.mount.trans hm)⟩, h.app, rfl,
      h.suspended, h.invoked⟩
  | mounted hm =>
    refine ⟨_, .inr ⟨.mounted, fun _ => trivial, if_pos (h.mount.trans hm)⟩, ?_⟩
    have hmounted : Shows { w with mount := .mounted } { v with mount := .mounted } :=
      ⟨h.app, rfl, h.suspended, h.invoked⟩
    rw [h.app]
    exact hmounted.next _
  | @dial k r d hr _ _ =>
    refine ⟨v, .inl rfl, h.aside rfl rfl ?_ (hset hr rfl)⟩
    exact (awaits_set hr).trans (awaits_pick hr).symm
  | resolve hr haw _ => exact h.resume _ hr haw (fun hl => hl _ hr) (.refl _) (herased _)
  | @reject k r aw e hr haw =>
    refine h.resume _ hr haw (fun hl => hl _ hr) ?_ ?_ <;> unfold requestsFailed <;> split
    · exact awaits_set hr
    · exact .refl _
    · exact hset hr rfl
    · exact herased _
  | subscribe _ _ => exact ⟨v, .inl rfl, h.aside rfl rfl (.refl _) hsame⟩
  | @emit e _ =>
    unfold hear
    split
    · exact ⟨v, .inl rfl, h.aside rfl rfl (.refl _) hsame⟩
    · rename_i s hm _
      refine ⟨_, .inr ⟨.hear s, fun _ => trivial,
        if_neg fun hreg => hm (h.mount.symm.trans hreg)⟩, ?_⟩
      rw [h.app]
      exact ⟨rfl, h.mount, h.suspended, h.invoked⟩
    · exact ⟨v, .inl rfl, h.aside rfl rfl (.refl _) hsame⟩
  | unsubscribe => exact ⟨v, .inl rfl, h.aside rfl rfl (.refl _) hsame⟩
  | restart =>
    refine ⟨_, .inr ⟨.restart, fun _ => trivial, rfl⟩, rfl, rfl, ?_, fun r hr => ?_⟩
    · rw [awaits_orphans]
    · obtain ⟨q, hq, rfl⟩ := List.mem_map.mp hr
      exact h.invoked q (List.mem_filter.mp hq).1
  | @service m d _ _ =>
    have htake : ∀ i,
        Shows { w with daemon := d, requests := w.requests.map (Request.take i) } v := by
      intro i
      refine h.aside rfl rfl (.of_eq (awaits_take _ i)) fun r hr => ?_
      obtain ⟨q, hq, rfl⟩ := List.mem_map.mp hr
      refine ⟨q, hq, ?_⟩
      unfold Request.take
      split <;> rfl
    refine ⟨v, .inl rfl, ?_⟩
    cases m with
    | recv i cmd => exact htake i
    | hangup i => exact htake i
    | _ => exact h.aside rfl rfl (.refl _) hsame

theorem new_shows (port : UInt16) (redirector : ρ) : Shows (new port redirector) Window.new :=
  ⟨rfl, rfl, .refl _, fun r hr => absurd hr (by simp [new])⟩

/-- **The window of the world runs as a window does.** -/
theorem reach_window {R : DnsRedirector ω ρ} {A : Label ω → World ρ → Prop} {port : UInt16}
    {redirector : ρ} {w : World ρ} (h : Reach (World.step R) A (new port redirector) w) :
    ∃ v, Reach Window.step (fun _ _ => True) Window.new v ∧ Shows w v := by
  refine h.simulated (new_shows port redirector) fun l u u' v _ hs hv => ?_
  obtain ⟨v', hsame | ⟨m, _, hm⟩, hv'⟩ := hv.step hs
  · exact ⟨v', .inl hsame, hv'⟩
  · exact ⟨v', .inr ⟨m, trivial, hm⟩, hv'⟩

/-- While the gate is checked, a `Connect` to VoidNS is on its way only when it was
sent with a token. -/
theorem reach_tokened {R : DnsRedirector ω ρ} {port : UInt16} {redirector : ρ} {w : World ρ}
    (h : Reach (World.step R) GateChecked (new port redirector) w) :
    ∃ v, Shows w v ∧ v.TokenGated := by
  have hrun : ∃ v, Reach Window.step Window.GateChecked Window.new v ∧ Shows w v := by
    refine h.simulated (new_shows port redirector) fun l u u' v hl hs hv => ?_
    obtain ⟨v', hsame | ⟨m, hm, hstep⟩, hv'⟩ := hv.step hs
    · exact ⟨v', .inl hsame, hv'⟩
    · exact ⟨v', .inr ⟨m, hm hl, hstep⟩, hv'⟩
  obtain ⟨v, hv, hshows⟩ := hrun
  exact ⟨v, hshows, hv.invariant Window.new_tokenGated
    fun l u u' hl hs hu => (Window.step_tokenGated hs).mpr ⟨hu, hl⟩⟩

end World

end Voidns.Gui
