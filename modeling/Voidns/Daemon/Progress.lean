import Voidns.Daemon.Mutex

/-!
# Everyone gets a turn

No command makes more than nine calls on the controller (`dispatch_within`), so a
turn with the mutex takes eleven steps: to get it, the calls, and to give it up.  The
queue is first come, first served, so a command that waits behind `k` others is
answered within eleven steps for each of them (`waits_bounded`), however many
commands come after it and however slow their clients are.

The one who has the mutex waits for no client: some step of a turn is possible
whenever someone has the mutex or waits for it, whatever the world decides about the
call that comes next.  So the queue can be worked off with no client doing anything
(`never_stuck`).
-/

namespace Voidns.Daemon

open Effect Steps Controller

variable {ω ρ : Type}

/-- The steps of whoever has the mutex, or gets it. -/
def Label.isTurn : Label ω → Bool
  | .grant | .call _ | .release => true
  | _ => false

/-- How many of these steps are part of a turn. -/
def turnSteps (ls : List (Label ω)) : Nat := (ls.filter Label.isTurn).length

@[simp] theorem turnSteps_nil : turnSteps ([] : List (Label ω)) = 0 := rfl

theorem turnSteps_turn {l : Label ω} (h : l.isTurn = true) (ls : List (Label ω)) :
    turnSteps (l :: ls) = turnSteps ls + 1 := by
  rw [turnSteps, List.filter_cons_of_pos h]
  rfl

theorem turnSteps_other {l : Label ω} (h : l.isTurn = false) (ls : List (Label ω)) :
    turnSteps (l :: ls) = turnSteps ls := by
  rw [turnSteps, List.filter_cons_of_neg (by simp [h])]
  rfl

/-! ### A turn is short -/

theorem connect_within (upstream : UpstreamSel) : (connect upstream).Within 9 := by
  refine Prog.within_perform.mpr fun status => ?_
  split
  · exact Prog.within_ret _ _
  · refine fun _ port => Prog.within_perform.mpr fun started => ?_
    cases started with
    | error e => exact fun _ _ => Prog.within_ret _ _
    | ok proxy =>
      refine Prog.within_perform.mpr fun applied => ?_
      cases applied with
      | error e => exact fun _ _ _ => Prog.within_ret _ _
      | ok _ => exact fun _ _ _ _ => trivial

theorem disconnect_within : disconnect.Within 6 := by
  refine fun _ => Prog.within_perform.mpr fun proxy => ?_
  cases proxy with
  | none => exact fun _ _ _ => Prog.within_ret _ _
  | some proxy => exact fun _ _ _ _ => trivial

/-- **No command makes more than nine calls.** -/
theorem dispatch_within (cmd : Command) : (dispatch cmd).Within 9 := by
  cases cmd with
  | ping => exact Prog.within_ret _ _
  | getStatus => exact fun _ => Prog.within_ret _ _
  | subscribe => exact fun _ _ => Prog.within_ret _ _
  | connect upstream => exact (connect_within upstream).bind (m := 0) fun _ => Prog.within_ret _ _
  | disconnect =>
    have hnine : disconnect.Within 9 := disconnect_within.mono (by decide)
    exact hnine.bind (m := 0) fun _ => Prog.within_ret _ _

/-- The holder has at most nine calls left. -/
def Brief (d : Daemon ρ) : Prop := ∀ x, d.holder = some x → x.rest.Within 9

theorem Brief.step {R : DnsRedirector ω ρ} {l : Label ω} {d e : Daemon ρ} (h : Brief d)
    (hs : step R l d = some e) : Brief e := by
  obtain ⟨hmoves, _⟩ := step_moves hs
  cases hmoves with
  | listen | serveError | exit | accept | shutdown | recvNow | recvWait | hangup | updateValue
    | updateLagged | write => exact h
  | grant _ _ =>
    intro x hx
    rw [← Option.some.inj hx]
    exact dispatch_within _
  | @call x c k w hx hr =>
    intro y hy
    have hrest := h x hx
    rw [hr] at hrest
    obtain ⟨m, hm, hk⟩ := hrest.pos
    rw [← Option.some.inj hy]
    exact (hk _).mono (by omega)
  | releaseMain | releaseConn => exact fun x hx => absurd hx (by simp)

theorem reach_brief {R : DnsRedirector ω ρ} {A : Label ω → Daemon ρ → Prop} {port : UInt16}
    {redirector : ρ} {d : Daemon ρ} (h : Reach (step R) A (new port redirector) d) : Brief d :=
  h.invariant (I := Brief) (fun x hx => absurd hx (by simp [new])) fun _ _ _ _ hs hI => hI.step hs

/-! ### One who waits -/

/-- The turn of `w` is over after at most `n` more steps of turns. -/
inductive Due (d : Daemon ρ) (w : Waiter) : Nat → Prop
  | held {x : Holder ρ} {n : Nat} : d.holder = some x → x.task = w.task → x.cmd = w.cmd →
      x.rest.Within n → Due d w (n + 1)
  | behind {x : Holder ρ} {n : Nat} {before after : List Waiter} : d.holder = some x →
      x.rest.Within n → d.queue = before ++ w :: after → Due d w (n + 1 + 11 * (before.length + 1))
  | next {before after : List Waiter} : d.holder = none → d.queue = before ++ w :: after →
      Due d w (11 * (before.length + 1))

namespace Due

variable {R : DnsRedirector ω ρ} {d e : Daemon ρ} {w : Waiter} {n : Nat}

theorem pos (h : Due d w n) : 0 < n := by cases h <;> omega

/-- Someone joins the queue, or nobody. -/
theorem join (h : Due d w n) (hh : e.holder = d.holder) (hq : ∃ more, e.queue = d.queue ++ more) :
    Due e w n := by
  obtain ⟨more, hq⟩ := hq
  cases h with
  | held hx ht hc hn => exact .held (hh.trans hx) ht hc hn
  | behind hx hn hd => exact .behind (hh.trans hx) hn (by rw [hq, hd, List.append_assoc]; rfl)
  | next hx hd => exact .next (hh.trans hx) (by rw [hq, hd, List.append_assoc]; rfl)

/-- **A step brings the turn nearer**, if it is part of a turn, and never puts it off. -/
theorem step {l : Label ω} (h : Due d w n) (hs : step R l d = some e) :
    (l.isTurn = false ∧ Due e w n) ∨ (l.isTurn = true ∧ ∃ m < n, Due e w m) ∨
      l = .release ∧ ∃ x, d.holder = some x ∧ x.task = w.task ∧ x.cmd = w.cmd := by
  -- what giving up the mutex does for those in the queue
  have hrelease : ∀ {x : Holder ρ} {e : Daemon ρ}, d.holder = some x → e.holder = none →
      e.queue = d.queue → (∃ m < n, Due e w m) ∨ x.task = w.task ∧ x.cmd = w.cmd := by
    intro x e hx hn hq
    cases h with
    | held hy ht hc _ =>
      rw [Option.some.inj (hx.symm.trans hy)]
      exact .inr ⟨ht, hc⟩
    | behind _ _ hd => exact .inl ⟨_, by omega, .next hn (hq.trans hd)⟩
    | next hy _ => exact absurd (hx.symm.trans hy) (by simp)
  obtain ⟨hmoves, _⟩ := step_moves hs
  cases hmoves with
  | listen | serveError | exit | accept | recvNow | hangup | updateValue | updateLagged | write =>
    exact .inl ⟨rfl, h.join rfl ⟨[], (List.append_nil _).symm⟩⟩
  | shutdown | recvWait => exact .inl ⟨rfl, h.join rfl ⟨_, rfl⟩⟩
  | @grant waiter queue hh hq =>
    refine .inr (.inl ⟨rfl, ?_⟩)
    cases h with
    | held hx | behind hx => exact absurd (hx.symm.trans hh) (by simp)
    | @next before after _ hd =>
      have hqd := hq.symm.trans hd
      cases before with
      | nil =>
        obtain ⟨rfl, _⟩ := List.cons.inj hqd
        exact ⟨10, by simp, .held rfl rfl rfl (dispatch_within _)⟩
      | cons b bs =>
        obtain ⟨_, hqueue⟩ := List.cons.inj hqd
        exact ⟨_, by rw [List.length_cons]; omega, .behind rfl (dispatch_within _) hqueue⟩
  | @call x c k world hx hr =>
    refine .inr (.inl ⟨rfl, ?_⟩)
    cases h with
    | held hy ht hc hn =>
      obtain rfl := Option.some.inj (hx.symm.trans hy)
      rw [hr] at hn
      obtain ⟨m, rfl, hk⟩ := hn.pos
      exact ⟨m + 1, by omega, .held rfl ht hc (hk _)⟩
    | behind hy hn hd =>
      obtain rfl := Option.some.inj (hx.symm.trans hy)
      rw [hr] at hn
      obtain ⟨m, rfl, hk⟩ := hn.pos
      exact ⟨_, by omega, .behind rfl (hk _) hd⟩
    | next hy _ => exact absurd (hx.symm.trans hy) (by simp)
  | @releaseMain x _ hx =>
    rcases hrelease (e := { d with holder := none, main := .returned (.ok ()) }) hx rfl rfl with h | h
    · exact .inr (.inl ⟨rfl, h⟩)
    · exact .inr (.inr ⟨rfl, x, hx, h⟩)
  | @releaseConn x reply i c hx =>
    rcases hrelease (e := { d with holder := none, conns := d.conns.set i (c.answer x.cmd reply) })
      hx rfl rfl with h | h
    · exact .inr (.inl ⟨rfl, h⟩)
    · exact .inr (.inr ⟨rfl, x, hx, h⟩)

/-- With enough steps of turns, its own has come to its end. -/
theorem run : ∀ (ls : List (Label ω)) {d : Daemon ρ} {n : Nat}, Due d w n →
    run (Daemon.step R) ls d = some e → n ≤ turnSteps ls →
    ∃ before after d' x, ls = before ++ .release :: after ∧
      Steps.run (Daemon.step R) before d = some d' ∧ d'.holder = some x ∧ x.task = w.task ∧
      x.cmd = w.cmd := by
  intro ls
  induction ls with
  | nil =>
    intro d n h _ hlen
    have := h.pos
    rw [turnSteps_nil] at hlen
    omega
  | cons l ls ih =>
    intro d n h hrun hlen
    obtain ⟨u, hu, he⟩ := Option.bind_eq_some_iff.mp hrun
    have hcons : ∀ {m : Nat}, Due u w m → m ≤ turnSteps ls →
        ∃ before after d' x, l :: ls = before ++ .release :: after ∧
          Steps.run (Daemon.step R) before d = some d' ∧ d'.holder = some x ∧ x.task = w.task ∧
          x.cmd = w.cmd := by
      intro m hm hle
      obtain ⟨before, after, d', x, rfl, hbefore, hx⟩ := ih hm he hle
      exact ⟨l :: before, after, d', x, rfl, by rw [Steps.run, hu]; exact hbefore, hx⟩
    rcases h.step hu with ⟨hl, hm⟩ | ⟨hl, m, hlt, hm⟩ | ⟨rfl, x, hx⟩
    · rw [turnSteps_other hl] at hlen
      exact hcons hm hlen
    · rw [turnSteps_turn hl] at hlen
      exact hcons hm (by omega)
    · exact ⟨[], ls, d, x, rfl, rfl, hx⟩

end Due

/-- **No one waits for ever.**  From any state reached, whatever the tasks and clients
do, the command at place `k` of the queue has its turn and is about to give the mutex
up, before those who have the mutex have made `11 * (k + 2)` steps. -/
theorem waits_bounded {R : DnsRedirector ω ρ} {port : UInt16} {redirector : ρ} {d e : Daemon ρ}
    (h : Reach (step R) (fun _ _ => True) (new port redirector) d) {k : Nat} {w : Waiter}
    (hw : d.queue[k]? = some w) {ls : List (Label ω)} (hrun : run (step R) ls d = some e)
    (hlong : 11 * (k + 2) ≤ turnSteps ls) :
    ∃ before after d' x, ls = before ++ .release :: after ∧ run (step R) before d = some d' ∧
      d'.holder = some x ∧ x.task = w.task ∧ x.cmd = w.cmd := by
  obtain ⟨hlt, hget⟩ := List.getElem?_eq_some_iff.mp hw
  have hqueue : d.queue = d.queue.take k ++ w :: d.queue.drop (k + 1) := by
    rw [← hget, List.getElem_cons_drop, List.take_append_drop]
  have hlen : (d.queue.take k).length = k := List.length_take_of_le (Nat.le_of_lt hlt)
  cases hh : d.holder with
  | none => exact (Due.next hh hqueue).run ls hrun (by rw [hlen]; omega)
  | some x => exact (Due.behind hh (reach_brief h x hh) hqueue).run ls hrun (by rw [hlen]; omega)

/-- A client has the mutex to connect, and another waits to disconnect. -/
def crowded : List (Label Fate) :=
  [.listen, .accept, .accept, .recv 0 (.connect .cloudflare), .grant, .recv 1 .disconnect]

/-- They have their turns, and one of them asks again and again. -/
def busy : List (Label Fate) :=
  List.replicate 9 (.call default) ++ [.release, .grant] ++ List.replicate 6 (.call default) ++
    [.release, .write 0 true, .recv 0 .getStatus, .grant, .call default, .release, .write 0 true,
      .recv 0 .getStatus, .grant, .call default, .release]

theorem waits_bounded_disconnect : ∃ d e : Daemon (String × Option String),
    d.queue[0]? = some ⟨.conn 1, .disconnect⟩ ∧ run (step plainRedirector) busy d = some e ∧
      ∃ before after d' x, busy = before ++ .release :: after ∧
        run (step plainRedirector) before d = some d' ∧ d'.holder = some x ∧ x.task = .conn 1 ∧
        x.cmd = .disconnect := by
  have hA : Allowed (step plainRedirector) (fun _ _ => True) crowded (new 53 ("9.9.9.9", none)) := by
    decide +kernel
  obtain ⟨d, hd, hw, hrun⟩ := Reach.exists_of_allowed
    (P := fun d => d.queue[0]? = some ⟨.conn 1, .disconnect⟩ ∧
      (run (step plainRedirector) busy d).isSome = true) hA (by decide +kernel)
  obtain ⟨e, he⟩ := Option.isSome_iff_exists.mp hrun
  exact ⟨d, e, hw, he, waits_bounded hd hw he (by decide)⟩

/-! ### All who wait -/

/-- A turn can go on, whatever the world decides. -/
theorem turn_possible {R : DnsRedirector ω ρ} {port : UInt16} {redirector : ρ} {d : Daemon ρ}
    (h : Reach (step R) (fun _ _ => True) (new port redirector) d)
    (hrun : ∀ result, d.main ≠ .exited result) (hbusy : d.holder ≠ none ∨ d.queue ≠ [])
    (world : Choice ω) :
    ∃ l e, l.isTurn = true ∧ (∀ w, l = .call w → w = world) ∧ step R l d = some e := by
  have hact : ∀ l, step R l d = d.act R l := by
    intro l
    unfold step
    split
    · exact absurd ‹_› (hrun _)
    · rfl
  cases hh : d.holder with
  | none =>
    cases hq : d.queue with
    | nil => rcases hbusy with hb | hb <;> exact absurd ‹_› hb
    | cons waiter queue =>
      exact ⟨.grant, _, rfl, by simp, by rw [hact, act, hh, hq]⟩
  | some x =>
    cases hr : x.rest with
    | call c k => exact ⟨.call world, _, rfl, fun w hw => by cases hw; rfl, by
        rw [hact, act, hh]; dsimp only; rw [hr]⟩
    | ret reply =>
      cases ht : x.task with
      | main => exact ⟨.release, _, rfl, by simp, by
          rw [hact, act, hh]; dsimp only; rw [hr]; dsimp only; rw [release, ht]⟩
      | conn i =>
        -- the handler that has the mutex is there
        have hdisp := ((reach_any h).1.conn i).mp (by simp [tasks, hh, ht])
        obtain ⟨c, hc, _⟩ := Option.map_eq_some_iff.mp hdisp
        exact ⟨.release, _, rfl, by simp, by
          rw [hact, act, hh]; dsimp only; rw [hr]; dsimp only; rw [release, ht]; dsimp only
          rw [hc]⟩

/-- All the turns asked for are over after at most `n` more steps of turns. -/
inductive Load (d : Daemon ρ) : Nat → Prop
  | held {x : Holder ρ} {n : Nat} : d.holder = some x → x.rest.Within n →
      Load d (n + 1 + 11 * d.queue.length)
  | free : d.holder = none → Load d (11 * d.queue.length)

theorem exists_load {R : DnsRedirector ω ρ} {A : Label ω → Daemon ρ → Prop} {port : UInt16}
    {redirector : ρ} {d : Daemon ρ} (h : Reach (step R) A (new port redirector) d) :
    ∃ n ≤ 11 * (d.queue.length + 1), Load d n := by
  cases hh : d.holder with
  | none => exact ⟨_, by omega, .free hh⟩
  | some x => exact ⟨_, by omega, .held hh (reach_brief h x hh)⟩

theorem Load.step {R : DnsRedirector ω ρ} {l : Label ω} {d e : Daemon ρ} {n : Nat} (h : Load d n)
    (hl : l.isTurn = true) (hs : Daemon.step R l d = some e) : ∃ m < n, Load e m := by
  obtain ⟨hmoves, _⟩ := step_moves hs
  cases hmoves with
  | listen | serveError | exit | accept | shutdown | recvNow | recvWait | hangup | updateValue
    | updateLagged | write => exact absurd hl (by simp [Label.isTurn])
  | grant hh hq =>
    cases h with
    | held hx _ => exact absurd (hx.symm.trans hh) (by simp)
    | free _ =>
      rw [hq, List.length_cons]
      exact ⟨_, by dsimp only; omega, .held rfl (dispatch_within _)⟩
  | call w hx hr =>
    cases h with
    | held hy hn =>
      obtain rfl := Option.some.inj (hx.symm.trans hy)
      rw [hr] at hn
      obtain ⟨m, rfl, hk⟩ := hn.pos
      exact ⟨_, by dsimp only; omega, .held rfl (hk _)⟩
    | free hy => exact absurd (hx.symm.trans hy) (by simp)
  | releaseMain hx | releaseConn hx =>
    cases h with
    | held _ _ => exact ⟨_, by dsimp only; omega, .free rfl⟩
    | free hy => exact absurd (hx.symm.trans hy) (by simp)

/-- Of the main task a turn can only end the shutdown branch. -/
theorem turn_main {R : DnsRedirector ω ρ} {l : Label ω} {d e : Daemon ρ} (hl : l.isTurn = true)
    (hs : step R l d = some e) : e.main = d.main ∨ e.main = .returned (.ok ()) := by
  obtain ⟨hmoves, _⟩ := step_moves hs
  cases hmoves with
  | listen | serveError | exit | accept | shutdown | recvNow | recvWait | hangup | updateValue
    | updateLagged | write => exact absurd hl (by simp [Label.isTurn])
  | grant | call | releaseConn => exact .inl rfl
  | releaseMain => exact .inr rfl

/-- The turns that are asked for, one after another. -/
theorem worked_off {R : DnsRedirector ω ρ} {port : UInt16} {redirector : ρ} {d : Daemon ρ}
    (h : Reach (step R) (fun _ _ => True) (new port redirector) d)
    (hrun : ∀ result, d.main ≠ .exited result) (world : Daemon ρ → Choice ω) :
    ∃ ls e, ls.length ≤ 11 * (d.queue.length + 1) ∧
      Allowed (step R) (fun l d => l.isTurn = true ∧ ∀ w, l = .call w → w = world d) ls d ∧
      run (step R) ls d = some e ∧ (e.holder = none ∧ e.queue = []) ∧
      Reach (step R) (fun _ _ => True) (new port redirector) e ∧
      (e.main = d.main ∨ e.main = .returned (.ok ())) := by
  obtain ⟨n, hn, hload⟩ := exists_load h
  obtain ⟨ls, e, hlen, hallowed, hls, hfree, hreach⟩ := exists_run_of_measure
    (step R) (A := fun l d => l.isTurn = true ∧ ∀ w, l = .call w → w = world d)
    (M := fun e n => (Reach (step R) (fun _ _ => True) (new port redirector) e ∧
      (e.main = d.main ∨ e.main = .returned (.ok ()))) ∧ Load e n)
    (P := fun e => (e.holder = none ∧ e.queue = []) ∧
      Reach (step R) (fun _ _ => True) (new port redirector) e ∧
      (e.main = d.main ∨ e.main = .returned (.ok ())))
    (fun e n hM hP => by
      have hbusy : e.holder ≠ none ∨ e.queue ≠ [] := by
        refine Classical.or_iff_not_imp_left.mpr fun hh hq => hP ⟨⟨?_, hq⟩, hM.1⟩
        exact Classical.not_not.mp hh
      have hruns : ∀ result, e.main ≠ .exited result := by
        intro result he
        rcases hM.1.2 with hmain | hmain
        · exact hrun result (hmain.symm.trans he)
        · exact absurd (hmain.symm.trans he) (by simp)
      obtain ⟨l, t, hl, hw, hs⟩ := turn_possible hM.1.1 hruns hbusy (world e)
      obtain ⟨m, hlt, hm⟩ := hM.2.step hl hs
      refine ⟨l, t, m, ⟨hl, hw⟩, hs, ⟨⟨hM.1.1.next l trivial hs, ?_⟩, hm⟩, hlt⟩
      rcases turn_main hl hs with hmain | hmain
      · rw [hmain]
        exact hM.1.2
      · exact .inr hmain)
    n d ⟨⟨h, .inl rfl⟩, hload⟩
  exact ⟨ls, e, by omega, hallowed, hls, hfree, hreach⟩

/-- **The queue can be worked off** with steps of turns only: no client has to do
anything, and the world may decide about each call as it likes.  Then the mutex is free
and nobody waits for it. -/
theorem never_stuck {R : DnsRedirector ω ρ} {port : UInt16} {redirector : ρ} {d : Daemon ρ}
    (h : Reach (step R) (fun _ _ => True) (new port redirector) d)
    (hrun : ∀ result, d.main ≠ .exited result) (world : Daemon ρ → Choice ω) :
    ∃ ls e, ls.length ≤ 11 * (d.queue.length + 1) ∧
      Allowed (step R) (fun l d => l.isTurn = true ∧ ∀ w, l = .call w → w = world d) ls d ∧
      run (step R) ls d = some e ∧ e.holder = none ∧ e.queue = [] ∧
      ∀ i, ¬ dispatching e.conns i := by
  obtain ⟨ls, e, hlen, hallowed, hls, ⟨hfree, hempty⟩, hreach, _⟩ := worked_off h hrun world
  refine ⟨ls, e, hlen, hallowed, hls, hfree, hempty, fun i hi => ?_⟩
  have hin := ((reach_any hreach).1.conn i).mpr hi
  exact absurd hin (by simp [tasks, hfree, hempty])

theorem never_stuck_crowded : ∃ d : Daemon (String × Option String), d.holder.isSome = true ∧
    d.queue ≠ [] ∧ ∃ ls e, ls.length ≤ 11 * (d.queue.length + 1) ∧
      Allowed (step plainRedirector)
        (fun l _ => l.isTurn = true ∧ ∀ w, l = .call w → w = ⟨.fails "timed out", .ok⟩) ls d ∧
      run (step plainRedirector) ls d = some e ∧ e.holder = none ∧ e.queue = [] ∧
      ∀ i, ¬ dispatching e.conns i := by
  have hA : Allowed (step plainRedirector) (fun _ _ => True) crowded (new 53 ("9.9.9.9", none)) := by
    decide +kernel
  obtain ⟨d, hd, hh, hq, hm⟩ := Reach.exists_of_allowed
    (P := fun d => d.holder.isSome = true ∧ d.queue ≠ [] ∧ d.main = .serving) hA
    (by decide +kernel)
  exact ⟨d, hh, hq, never_stuck hd (fun _ => by rw [hm]; simp) fun _ => ⟨.fails "timed out", .ok⟩⟩

end Voidns.Daemon
