import Voidns.Daemon.Subscribers

/-!
# One command after another

The tasks take turns on the mutex, and while one has it the others read, queue up
and write.  What the clients can tell of all this is as if there were no such thing:
some order of the commands, run one after another and each from its beginning to
its end, gives the controller and every reply (`History`).  The order of one
connection's commands is the order in which they were read, and a command that has
been answered stands before every command that is read later, as the history only
grows at its end.

A `Ping` takes no turn with the mutex, and leaves the controller alone; it stands
where it was answered.
-/

namespace Voidns.Daemon

open Effect Steps Controller

variable {ω ρ : Type}

/-- A command that has been run, by whose task, and the reply. -/
structure Turn where
  task : Task
  cmd : Command
  reply : Option Nat × Event

/-- The turns of connection `i`. -/
def turnsOf (i : Nat) (turns : List Turn) : List Turn := turns.filter fun turn => turn.task = .conn i

/-- What these turns told the client. -/
def answers (turns : List Turn) : List Event := turns.map fun turn => turn.reply.2

/-- From `c` on, the commands run one after another, each from beginning to end. -/
inductive Sequential [Inhabited ω] (R : DnsRedirector ω ρ) (c : Controller ρ) :
    List Turn → Controller ρ → Prop
  | nil : Sequential R c [] c
  | snoc {turns : List Turn} {t : Controller ρ} (task : Task) (cmd : Command)
      (ws : List (Choice ω)) : Sequential R c turns t →
      Sequential R c (turns ++ [⟨task, cmd, (exec (handler R) (dispatch cmd) ws t).value⟩])
        (exec (handler R) (dispatch cmd) ws t).state

/-- What a connection has to do with its turns: they are the commands it has handled,
it has told the client the replies, and nothing else unless it is subscribed. -/
structure Recounts (turns : List Turn) (c : Conn) : Prop where
  handled : c.handled = turns.map Turn.cmd
  told : c.phase ≠ .closed → (answers turns).Sublist (events c)
  only : c.subscription = none → events c <+: answers turns

/-- The turns so far amount to what is there: the controller is where they lead, or the
holder of the mutex has got somewhere from there. -/
structure History [Inhabited ω] (R : DnsRedirector ω ρ) (c₀ : Controller ρ) (turns : List Turn)
    (d : Daemon ρ) : Prop where
  free : d.holder = none → Sequential R c₀ turns d.controller
  held : ∀ x, d.holder = some x → Sequential R c₀ turns x.entry ∧
    GetsTo (handler R) (dispatch x.cmd) x.entry x.rest d.controller
  bound : ∀ turn ∈ turns, ∀ i, turn.task = .conn i → i < d.conns.length
  conns : ∀ i c, d.conns[i]? = some c → Recounts (turnsOf i turns) c

/-! ### One connection -/

@[simp] theorem answers_append (ts us : List Turn) : answers (ts ++ us) = answers ts ++ answers us :=
  List.map_append

theorem turnsOf_append (i : Nat) (ts us : List Turn) :
    turnsOf i (ts ++ us) = turnsOf i ts ++ turnsOf i us := List.filter_append ..

theorem turnsOf_single {i : Nat} {turn : Turn} (h : turn.task = .conn i) :
    turnsOf i [turn] = [turn] := by
  simp [turnsOf, h]

theorem turnsOf_other {i : Nat} {turn : Turn} (h : turn.task ≠ .conn i) : turnsOf i [turn] = [] := by
  simp [turnsOf, h]

namespace Recounts

variable {turns : List Turn} {c c' : Conn}

theorem new : Recounts [] .new where
  handled := rfl
  told _ := List.nil_sublist _
  only _ := List.prefix_refl _

/-- The handler goes on without saying anything new. -/
theorem same (h : Recounts turns c) (hh : c'.handled = c.handled)
    (hsub : c'.subscription = c.subscription) (he : events c' = events c)
    (hp : c.phase ≠ .closed) : Recounts turns c' where
  handled := hh.trans h.handled
  told _ := by rw [he]; exact h.told hp
  only hn := by rw [he]; exact h.only (hsub ▸ hn)

/-- The handler leaves its loop; what it was writing may be lost. -/
theorem closed (h : Recounts turns c) : Recounts turns { c with phase := .closed } where
  handled := h.handled
  told hn := absurd rfl hn
  only hn := by
    rw [events_eq (by simp)]
    exact (List.prefix_append _ _).trans (h.only hn)

theorem wrote (h : Recounts turns c) {event : Event} (hp : c.phase = .writing event) (ok : Bool) :
    Recounts turns (c.wrote event ok) := by
  cases ok with
  | false => exact h.closed
  | true =>
    refine h.same rfl rfl ?_ (by rw [hp]; simp)
    rw [events_writing hp, events_eq (by simp [Conn.wrote])]
    rfl

/-- The subscription delivers a status. -/
theorem value (h : Recounts turns c) (hp : c.phase = .select) (status : Status)
    (rx : Broadcast.Receiver) :
    Recounts turns { c with phase := .writing (.status status), subscription := some rx } where
  handled := h.handled
  told _ := by
    rw [events_writing rfl]
    have htold := h.told (by rw [hp]; simp)
    rw [events_eq (by simp [hp])] at htold
    exact htold.trans (List.sublist_append_left _ _)
  only hn := absurd hn (by simp)

/-- A command has been dispatched. -/
theorem answer (h : Recounts turns c) (hp : c.phase = .select ∨ c.phase = .dispatching)
    {turn : Turn} : Recounts (turns ++ [turn]) (c.answer turn.cmd turn.reply) := by
  have hopen : c.phase ≠ .closed := by rcases hp with hp | hp <;> rw [hp] <;> simp
  have hold : events c = c.written := events_eq (by rcases hp with hp | hp <;> simp [hp])
  have he : events (c.answer turn.cmd turn.reply) = c.written ++ [turn.reply.2] :=
    events_writing rfl
  refine ⟨?_, fun _ => ?_, fun hn => ?_⟩
  · rw [List.map_append, ← h.handled]
    rfl
  · have htold := h.told hopen
    rw [hold] at htold
    rw [he, answers_append]
    exact htold.append (List.Sublist.refl _)
  · -- an unsubscribed connection has told its replies, and nothing is lost while it is open
    have hnone : c.subscription = none := (Option.or_eq_none_iff.mp hn).2
    have heq : c.written = answers turns := by
      rw [← hold]
      exact (h.only hnone).eq_of_length_le (h.told hopen).length_le
    rw [he, answers_append, heq]
    exact List.prefix_refl _

end Recounts

/-! ### Over whole runs -/

theorem forall_conns_set {P : Nat → Conn → Prop} {conns : List Conn} {j : Nat} {c' : Conn}
    (h : ∀ i c, conns[i]? = some c → P i c) (hc' : P j c') :
    ∀ i c, (conns.set j c')[i]? = some c → P i c := by
  intro i c hc
  by_cases hij : j = i
  · subst hij
    have hlt : j < conns.length :=
      Nat.lt_of_lt_of_eq (List.getElem?_eq_some_iff.mp hc).1 List.length_set
    rw [List.getElem?_set_self hlt] at hc
    rw [← Option.some.inj hc]
    exact hc'
  · rw [List.getElem?_set_ne hij] at hc
    exact h i c hc

section Run

variable [Inhabited ω] {R : DnsRedirector ω ρ} {c₀ : Controller ρ} {turns : List Turn}
  {d e : Daemon ρ}

theorem new_history (port : UInt16) (redirector : ρ) :
    History R (.new port redirector) [] (new port redirector) where
  free _ := .nil
  held _ hx := absurd hx (by simp [new])
  bound _ h := absurd h (by simp)
  conns _ _ hc := absurd hc (by simp [new])

namespace History

/-- Nothing has happened to the controller, and one connection goes on. -/
theorem set (h : History R c₀ turns d) {i : Nat} {c : Conn} (hc : Recounts (turnsOf i turns) c) :
    History R c₀ turns { d with conns := d.conns.set i c } where
  free := h.free
  held := h.held
  bound turn hin j hj := by
    rw [List.length_set]
    exact h.bound turn hin j hj
  conns := forall_conns_set h.conns hc

/-- A turn of connection `i` is over. -/
theorem turn (h : History R c₀ turns d) {i : Nat} {c : Conn} (hc : d.conns[i]? = some c)
    (hp : c.phase = .select ∨ c.phase = .dispatching) (turn : Turn) (ht : turn.task = .conn i) :
    (∀ t ∈ turns ++ [turn], ∀ j, t.task = .conn j →
      j < (d.conns.set i (c.answer turn.cmd turn.reply)).length) ∧
    ∀ j x, (d.conns.set i (c.answer turn.cmd turn.reply))[j]? = some x →
      Recounts (turnsOf j (turns ++ [turn])) x := by
  have hlt : i < d.conns.length := (List.getElem?_eq_some_iff.mp hc).1
  constructor
  · intro t hin j hj
    rw [List.length_set]
    rcases List.mem_append.mp hin with hin | hin
    · exact h.bound t hin j hj
    · rw [List.mem_singleton.mp hin, ht] at hj
      rw [← Task.conn.inj hj]
      exact hlt
  · intro j x hx
    rw [turnsOf_append]
    by_cases hij : i = j
    · subst hij
      rw [List.getElem?_set_self hlt] at hx
      rw [← Option.some.inj hx, turnsOf_single ht]
      exact (h.conns i c hc).answer hp
    · rw [List.getElem?_set_ne hij] at hx
      rw [turnsOf_other (by rw [ht]; simpa using hij), List.append_nil]
      exact h.conns j x hx

/-- **The history grows at its end.** -/
theorem step (h : History R c₀ turns d) (hq : Queued d) {l : Label ω} (hs : step R l d = some e) :
    ∃ later, History R c₀ (turns ++ later) e := by
  obtain ⟨hmoves, _⟩ := step_moves hs
  -- the steps that are not the end of a turn
  have hnone : ∀ {e : Daemon ρ}, History R c₀ turns e → ∃ later, History R c₀ (turns ++ later) e :=
    fun h => ⟨[], by rw [List.append_nil]; exact h⟩
  cases hmoves with
  | listen | serveError | exit | shutdown => exact hnone ⟨h.free, h.held, h.bound, h.conns⟩
  | accept _ =>
    refine hnone ⟨h.free, h.held, fun turn hin j hj => ?_, fun j x hx => ?_⟩
    · have := h.bound turn hin j hj
      rw [List.length_append]
      omega
    · rw [List.getElem?_append] at hx
      split at hx
      · exact h.conns j x hx
      · rename_i hge
        -- no turn is that of a connection not there yet
        have hnil : turnsOf j turns = [] := by
          refine List.filter_eq_nil_iff.mpr fun turn hin ht => hge ?_
          exact h.bound turn hin j (of_decide_eq_true ht)
        rw [List.mem_singleton.mp (List.mem_of_getElem? hx), hnil]
        exact .new
  | @recvNow i c cmd reply hc hp hret =>
    obtain ⟨rfl, rfl⟩ := dispatch_ret hret
    obtain ⟨hbound, hconns⟩ := h.turn hc (.inl hp) ⟨.conn i, .ping, (none, .pong)⟩ rfl
    refine ⟨[⟨.conn i, .ping, (none, .pong)⟩], fun hfree => ?_, fun x hx => ?_, hbound, hconns⟩
    · exact .snoc (.conn i) .ping [] (h.free hfree)
    · exact ⟨.snoc (.conn i) .ping [] (h.held x hx).1, (h.held x hx).2⟩
  | @recvWait i c cmd _ _ hc hp _ =>
    have hsame : Recounts (turnsOf i turns) { c with phase := .dispatching } :=
      (h.conns i c hc).same rfl rfl (by rw [events_eq (by simp), events_eq (by simp [hp])])
        (by rw [hp]; simp)
    have hset := h.set hsame
    exact hnone ⟨hset.free, hset.held, hset.bound, hset.conns⟩
  | hangup hc _ => exact hnone (h.set (h.conns _ _ hc).closed)
  | updateValue hc hp _ _ => exact hnone (h.set ((h.conns _ _ hc).value hp _ _))
  | @updateLagged i c rx rx' hc hp hsub hr =>
    refine hnone (h.set ⟨(h.conns i c hc).handled, (h.conns i c hc).told, fun hn => ?_⟩)
    exact absurd hn (by simp)
  | write ok hc hp => exact hnone (h.set ((h.conns _ _ hc).wrote hp ok))
  | grant hh hq =>
    refine hnone ⟨fun hn => absurd hn (by simp), fun x hx => ?_, h.bound, h.conns⟩
    rw [← Option.some.inj hx]
    exact ⟨h.free hh, .start⟩
  | @call x c k w hx hr =>
    refine hnone ⟨fun hn => absurd hn (by simp), fun y hy => ?_, h.bound, h.conns⟩
    obtain ⟨hseq, hgets⟩ := h.held x hx
    rw [hr] at hgets
    rw [← Option.some.inj hy]
    exact ⟨hseq, hgets.call w⟩
  | @releaseMain x reply hx hr ht =>
    obtain ⟨hseq, hgets⟩ := h.held x hx
    rw [hr] at hgets
    obtain ⟨ws, hv, hst⟩ := hgets.done
    refine ⟨[⟨.main, x.cmd, reply⟩], fun _ => ?_, fun y hy => absurd hy (by simp), ?_, ?_⟩
    · have hsnoc := hseq.snoc .main x.cmd ws
      rw [hv, hst] at hsnoc
      exact hsnoc
    · intro t hin i hi
      rcases List.mem_append.mp hin with hin | hin
      · exact h.bound t hin i hi
      · rw [List.mem_singleton.mp hin] at hi
        exact absurd hi (by simp)
    · intro i c hc
      rw [turnsOf_append, turnsOf_other (by simp), List.append_nil]
      exact h.conns i c hc
  | @releaseConn x reply i c hx hr ht hc =>
    obtain ⟨hseq, hgets⟩ := h.held x hx
    rw [hr] at hgets
    obtain ⟨ws, hv, hst⟩ := hgets.done
    obtain ⟨hbound, hconns⟩ :=
      h.turn hc (.inr (hq.holding hx ht hc)) ⟨.conn i, x.cmd, reply⟩ rfl
    refine ⟨[⟨.conn i, x.cmd, reply⟩], fun _ => ?_, fun y hy => absurd hy (by simp), hbound, hconns⟩
    have hsnoc := hseq.snoc (.conn i) x.cmd ws
    rw [hv, hst] at hsnoc
    exact hsnoc

theorem reach (h : History R c₀ turns d) (hq : Queued d)
    (hr : Reach (Daemon.step R) (fun _ _ => True) d e) :
    ∃ later, History R c₀ (turns ++ later) e := by
  have hboth : Queued e ∧ ∃ later, History R c₀ (turns ++ later) e := by
    induction hr with
    | init => exact ⟨hq, [], by rw [List.append_nil]; exact h⟩
    | next l _ _ hs ih =>
      obtain ⟨hq, later, h⟩ := ih
      obtain ⟨more, h⟩ := h.step hq hs
      exact ⟨hq.step hs, later ++ more, by rw [← List.append_assoc]; exact h⟩
  exact hboth.2

end History

theorem reach_history {port : UInt16} {redirector : ρ}
    (h : Reach (step R) (fun _ _ => True) (new port redirector) d) :
    ∃ turns, History R (.new port redirector) turns d := by
  obtain ⟨turns, hturns⟩ := (new_history port redirector).reach (new_queued port redirector) h
  exact ⟨turns, hturns⟩

/-- Somewhere the turns lead to. -/
theorem History.sequential (h : History R c₀ turns d) : ∃ s, Sequential R c₀ turns s := by
  cases hx : d.holder with
  | none => exact ⟨_, h.free hx⟩
  | some x => exact ⟨_, (h.held x hx).1⟩

namespace Sequential

variable {before after : List Turn} {turn : Turn} {t : Controller ρ}

/-- The run of one turn among the others. -/
theorem split (h : Sequential R c₀ turns t) : ∀ {after : List Turn}, turns = before ++ turn :: after →
    ∃ s ws, Sequential R c₀ before s ∧
      turn.reply = (exec (handler R) (dispatch turn.cmd) ws s).value := by
  induction h with
  | nil => exact fun he => absurd he (by simp)
  | @snoc turns s task cmd ws hs ih =>
    intro after he
    rcases List.eq_nil_or_concat after with rfl | ⟨after, last, rfl⟩
    · obtain ⟨rfl, hturn⟩ := List.append_inj' he rfl
      rw [← (List.cons.inj hturn).1]
      exact ⟨s, ws, hs, rfl⟩
    · rw [List.concat_eq_append, ← List.cons_append, ← List.append_assoc] at he
      exact ih (List.append_inj' he rfl).1

theorem settled (h : Sequential R c₀ turns t)
    (h₀ : Settled (fun _ => True) (fun _ => True) c₀) :
    Settled (fun _ => True) (fun _ => True) t := by
  induction h with
  | nil => exact h₀
  | snoc task cmd ws _ ih => exact ((dispatch_safe (keeps_trivial R) cmd ih).exec_total ws).2.1

end Sequential

/-- **The service is linearizable.**  In every state that any interleaving leads to
there is a history: the commands answered so far, one after another, give the
controller and every reply.  Whatever happens later comes behind it, so a command
answered by now stands before every command not yet read. -/
theorem linearizable {port : UInt16} {redirector : ρ}
    (h : Reach (step R) (fun _ _ => True) (new port redirector) d) :
    ∃ turns, History R (.new port redirector) turns d ∧
      ∀ e, Reach (step R) (fun _ _ => True) d e →
        ∃ later, History R (.new port redirector) (turns ++ later) e := by
  obtain ⟨turns, hturns⟩ := reach_history h
  exact ⟨turns, hturns, fun e he => hturns.reach (reach_any h).1 he⟩

end Run

/-- A client has subscribed, and another has connected meanwhile. -/
theorem linearizable_watched : ∃ turns, History plainRedirector fresh turns watched ∧
    ∀ e, Reach (step plainRedirector) (fun _ _ => True) watched e →
      ∃ later, History plainRedirector fresh (turns ++ later) e := by
  have hrun : run (step plainRedirector)
      ([.listen, .accept, .accept, .recv 0 .subscribe, .grant, .recv 1 (.connect .cloudflare),
        .call default, .call default, .release, .write 0 true, .grant] ++
        List.replicate 9 (.call default) ++
        [.release, .write 1 true, .update 0, .write 0 true, .update 0, .write 0 true])
      (new 53 ("9.9.9.9", none)) = some watched := rfl
  exact linearizable (.of_run (fun _ _ => trivial) _ hrun)

end Voidns.Daemon
