import Mathlib.Computability.RegularExpressions
import Voidns.Daemon.Subscribers

/-!
# The statuses that are sent

Every command sends its statuses in one block: a `connect` that finds the
controller idle sends `Connecting` and then `Connected` or `Error`, a `disconnect`
sends `Disconnected`, and nothing else sends anything.  `Trace` puts such blocks one
after another, with what they leave the controller in; `Shape` is what a reader of
the channel can rely on.

A command that is under way may have sent the first half of its block
(`Underway`).
-/

namespace Voidns.Daemon

open Effect Steps Controller

variable {ω ρ : Type}

/-- What `connect` sends first. -/
def connectingStatus (label : String) : Status := ⟨.connecting, some label, none, none⟩

/-- Blocks of statuses, and whether the last of them leaves the controller connected. -/
inductive Trace : Bool → List Status → Prop
  | nil : Trace false []
  | up {ts : List Status} (label : String) (listen : SocketAddr) : Trace false ts →
      Trace true (ts ++ [connectingStatus label, connectedStatus label listen])
  | failed {ts : List Status} (label : String) (e : Error) : Trace false ts →
      Trace false (ts ++ [connectingStatus label, errorStatus e])
  | down {ts : List Status} {connected : Bool} : Trace connected ts →
      Trace false (ts ++ [.disconnected])

/-! ### The shape -/

open RegularExpression in
/-- `(Connecting (Connected | Error)) | Disconnected` -/
def block : RegularExpression ConnState :=
  char .connecting * (char .connected + char .error) + char .disconnected

/-- The shape of a trace, and of what stands in it. -/
structure Shape (ts : List Status) : Prop where
  word : ts.map Status.state ∈ (RegularExpression.star block).matches'
  /-- A `Connecting` after a `Connected` has a `Disconnected` between them. -/
  between : ∀ (i j : Nat) (s t : Status), i < j → ts[i]? = some s → s.state = .connected → ts[j]? = some t →
    t.state = .connecting → ∃ k, ∃ u : Status, i < k ∧ k < j ∧ ts[k]? = some u ∧ u.state = .disconnected
  /-- A `Connecting` is followed by its own `Connected`, or by an `Error`. -/
  answered : ∀ (i : Nat) (s : Status), ts[i]? = some s → s.state = .connecting → ∃ t, ts[i + 1]? = some t ∧
    (t.state = .connected ∧ t.upstream = s.upstream ∨ t.state = .error)

theorem word_append {xs ys : List ConnState} (hxs : xs ∈ (RegularExpression.star block).matches')
    (hys : ys ∈ block.matches') : xs ++ ys ∈ (RegularExpression.star block).matches' :=
  Set.mem_of_mem_of_subset (Language.append_mem_mul hxs hys) (kstar_mul_le_kstar (a := block.matches'))

theorem getElem?_append_some {α : Type} {xs : List α} (ys : List α) {i : Nat} {x : α}
    (h : xs[i]? = some x) : (xs ++ ys)[i]? = some x := by
  rw [List.getElem?_append_left (List.getElem?_eq_some_iff.mp h).1, h]

theorem getElem?_append_cases {α : Type} {xs ys : List α} {i : Nat} {x : α}
    (h : (xs ++ ys)[i]? = some x) : xs[i]? = some x ∨ ∃ j, i = xs.length + j ∧ ys[j]? = some x := by
  rcases Nat.lt_or_ge i xs.length with hlt | hge
  · rw [List.getElem?_append_left hlt] at h
    exact .inl h
  · rw [List.getElem?_append_right hge] at h
    exact .inr ⟨i - xs.length, by omega, h⟩

/-- With the controller idle, every `Connected` is over. -/
theorem Trace.over {connected : Bool} {ts : List Status} (h : Trace connected ts) :
    connected = false → ∀ (i : Nat) (s : Status), ts[i]? = some s → s.state = .connected →
      ∃ k, ∃ u : Status, i < k ∧ ts[k]? = some u ∧ u.state = .disconnected := by
  induction h with
  | nil => exact fun _ _ _ h => absurd h (by simp)
  | up _ _ _ _ => exact fun h => absurd h (by simp)
  | @failed ts label e _ ih =>
    intro _ i s hi hs
    rcases getElem?_append_cases hi with hi | ⟨j, rfl, hj⟩
    · obtain ⟨k, u, hik, hk, hu⟩ := ih rfl i s hi hs
      exact ⟨k, u, hik, getElem?_append_some _ hk, hu⟩
    · -- neither status of the block is a `Connected`
      have hmem := List.mem_of_getElem? hj
      simp only [List.mem_cons, List.not_mem_nil, or_false] at hmem
      rcases hmem with rfl | rfl <;> exact absurd hs (by simp [connectingStatus, errorStatus])
  | @down ts _ _ _ =>
    intro _ i s hi hs
    rcases getElem?_append_cases hi with hi | ⟨j, rfl, hj⟩
    · refine ⟨ts.length, .disconnected, (List.getElem?_eq_some_iff.mp hi).1, ?_, rfl⟩
      rw [List.getElem?_append_right (Nat.le_refl _), Nat.sub_self]
      rfl
    · rw [List.mem_singleton.mp (List.mem_of_getElem? hj)] at hs
      exact absurd hs (by simp [Status.disconnected])

/-- A block that begins with `Connecting`, behind a trace in which all is over. -/
theorem Shape.attempt {ts : List Status} (h : Shape ts) (hts : Trace false ts) {label : String}
    {answer : Status}
    (hanswer : answer.state = .connected ∧ answer.upstream = some label ∨ answer.state = .error) :
    Shape (ts ++ [connectingStatus label, answer]) where
  word := by
    have hblock : [.connecting, answer.state] ∈ block.matches' := by
      rcases hanswer with ⟨h, _⟩ | h <;> rw [h] <;> decide
    rw [List.map_append]
    exact word_append h.word hblock
  between i j s t hij hi hs hj ht := by
    rcases getElem?_append_cases hi with hi | ⟨a, rfl, ha⟩
    · rcases getElem?_append_cases hj with hj | ⟨b, rfl, hb⟩
      · obtain ⟨k, u, hik, hkj, hk, hu⟩ := h.between i j s t hij hi hs hj ht
        exact ⟨k, u, hik, hkj, getElem?_append_some _ hk, hu⟩
      · obtain ⟨k, u, hik, hk, hu⟩ := hts.over rfl i s hi hs
        have hlt := (List.getElem?_eq_some_iff.mp hk).1
        exact ⟨k, u, hik, by omega, getElem?_append_some _ hk, hu⟩
    · -- a `Connected` of the block is its end
      have hlen := (List.getElem?_eq_some_iff.mp hj).1
      rw [List.length_append, List.length_cons, List.length_singleton] at hlen
      obtain rfl : a = 0 := by omega
      rw [← Option.some.inj ha] at hs
      exact absurd hs (by simp [connectingStatus])
  answered i s hi hs := by
    rcases getElem?_append_cases hi with hi | ⟨a, rfl, ha⟩
    · obtain ⟨t, ht, hown⟩ := h.answered i s hi hs
      exact ⟨t, getElem?_append_some _ ht, hown⟩
    · have hlt := (List.getElem?_eq_some_iff.mp ha).1
      rw [List.length_cons, List.length_singleton] at hlt
      rcases (by omega : a = 0 ∨ a = 1) with rfl | rfl
      · rw [← Option.some.inj ha]
        refine ⟨answer, ?_, hanswer⟩
        rw [List.getElem?_append_right (by omega)]
        simp
      · rw [← Option.some.inj ha] at hs
        rcases hanswer with ⟨h, _⟩ | h <;> exact absurd (h.symm.trans hs) (by simp)

theorem Shape.disconnected {ts : List Status} (h : Shape ts) : Shape (ts ++ [.disconnected]) where
  word := by
    rw [List.map_append]
    exact word_append h.word (by decide)
  between i j s t hij hi hs hj ht := by
    rcases getElem?_append_cases hj with hj | ⟨b, rfl, hb⟩
    · rcases getElem?_append_cases hi with hi | ⟨a, rfl, _⟩
      · obtain ⟨k, u, hik, hkj, hk, hu⟩ := h.between i j s t hij hi hs hj ht
        exact ⟨k, u, hik, hkj, getElem?_append_some _ hk, hu⟩
      · exact absurd (List.getElem?_eq_some_iff.mp hj).1 (by omega)
    · rw [List.mem_singleton.mp (List.mem_of_getElem? hb)] at ht
      exact absurd ht (by simp [Status.disconnected])
  answered i s hi hs := by
    rcases getElem?_append_cases hi with hi | ⟨a, rfl, ha⟩
    · obtain ⟨t, ht, hown⟩ := h.answered i s hi hs
      exact ⟨t, getElem?_append_some _ ht, hown⟩
    · rw [List.mem_singleton.mp (List.mem_of_getElem? ha)] at hs
      exact absurd hs (by simp [Status.disconnected])

theorem Trace.shape {connected : Bool} {ts : List Status} (h : Trace connected ts) : Shape ts := by
  induction h with
  | nil =>
    exact ⟨Language.nil_mem_kstar _, fun _ _ _ _ _ h => absurd h (by simp),
      fun _ _ h => absurd h (by simp)⟩
  | up label listen hts ih => exact ih.attempt hts (.inl ⟨rfl, rfl⟩)
  | failed label e hts ih => exact ih.attempt hts (.inr rfl)
  | down _ ih => exact ih.disconnected

/-! ### What a turn sends -/

/-- The controller between two turns. -/
structure Calm (c : Controller ρ) : Prop where
  trace : Trace (decide (c.status.state = .connected)) c.sent
  idle : c.status.state ≠ .connecting

/-- A trace, or one with the first half of a block behind it. -/
def Underway (sent : List Status) : Prop :=
  ∃ connected ts, Trace connected ts ∧ (sent = ts ∨ ∃ label, sent = ts ++ [connectingStatus label])

/-- `connect` is between its `Connecting` and its answer. -/
def Pending (label : String) (c : Controller ρ) : Prop :=
  ∃ ts, Trace false ts ∧ c.sent = ts ++ [connectingStatus label]

namespace Pending

variable {label : String} {c : Controller ρ}

theorem underway (h : Pending label c) : Underway c.sent := by
  obtain ⟨ts, hts, hsent⟩ := h
  exact ⟨_, ts, hts, .inr ⟨label, hsent⟩⟩

theorem connected (h : Pending label c) (listen : SocketAddr) :
    Calm { c with
      status := connectedStatus label listen, sent := c.sent ++ [connectedStatus label listen] } := by
  obtain ⟨ts, hts, hsent⟩ := h
  have hblock := Trace.up label listen hts
  refine ⟨?_, by simp [connectedStatus]⟩
  show Trace true (c.sent ++ [connectedStatus label listen])
  rw [hsent, List.append_assoc]
  exact hblock

theorem failed (h : Pending label c) (e : Error) :
    Calm { c with status := errorStatus e, sent := c.sent ++ [errorStatus e] } := by
  obtain ⟨ts, hts, hsent⟩ := h
  have hblock := Trace.failed label e hts
  refine ⟨?_, by simp [errorStatus]⟩
  show Trace false (c.sent ++ [errorStatus e])
  rw [hsent, List.append_assoc]
  exact hblock

end Pending

theorem Trace.underway {connected : Bool} {ts : List Status} (h : Trace connected ts) : Underway ts :=
  ⟨connected, ts, h, .inl rfl⟩

section Turns

variable (R : DnsRedirector ω ρ)

/-- Only `set` sends. -/
theorem handler_sent_eq {call : Call} (hcall : ∀ status, call ≠ .set status) (w : Choice ω)
    (c : Controller ρ) : (handler R call w c).2.sent = c.sent := by
  cases call with
  | set status => exact absurd rfl (hcall status)
  | start listen upstream =>
    rcases start_cases R w c listen upstream with ⟨err, h⟩ | h <;> rw [h]
  | status | port | stop | putProxy | takeProxy | apply | restore | flushCache | subscribe => rfl

theorem Pending.call {label : String} {c : Controller ρ} (h : Pending label c) (call : Call)
    (hcall : ∀ status, call ≠ .set status) (w : Choice ω) :
    Pending label (handler R call w c).2 := by
  obtain ⟨ts, hts, hsent⟩ := h
  exact ⟨ts, hts, (handler_sent_eq R hcall w c).trans hsent⟩

/-- The branches of `connect` that have failed. -/
theorem fail_trace {label : String} {c : Controller ρ} (h : Pending label c) (e : Error) :
    Safe (handler R) (fun _ => True) (fun e => Underway e.after.sent) (fun _ t => Calm t)
      (do set (errorStatus e); readStatus) c := by
  have hcalm := h.failed e
  exact safe_perform.mpr fun w _ => ⟨hcalm.trace.underway, fun w _ => ⟨hcalm.trace.underway, hcalm⟩⟩

theorem redirectTo_trace (upstream : UpstreamSel) (listen : SocketAddr) (proxy : DohProxy)
    {c : Controller ρ} (h : Pending upstream.label c) :
    Safe (handler R) (fun _ => True) (fun e => Underway e.after.sent) (fun _ t => Calm t)
      (redirectTo upstream listen proxy) c := by
  refine safe_perform.mpr fun w _ => ?_
  have happly := h.call R (.apply listen.ip) (by simp) w
  refine ⟨happly.underway, ?_⟩
  cases (handler R (.apply listen.ip) w c).1 with
  | error e =>
    refine safe_perform.mpr fun w _ => ?_
    have hstop := happly.call R (.stop proxy) (by simp) w
    exact ⟨hstop.underway, fail_trace R hstop e⟩
  | ok _ =>
    refine safe_perform.mpr fun w _ => ?_
    have hflush := happly.call R .flushCache (by simp) w
    refine ⟨hflush.underway, safe_perform.mpr fun w _ => ?_⟩
    have hput := hflush.call R (.putProxy proxy) (by simp) w
    have hcalm := hput.connected listen
    refine ⟨hput.underway, safe_perform.mpr fun w _ => ⟨hcalm.trace.underway, ?_⟩⟩
    exact fun w _ => ⟨hcalm.trace.underway, hcalm⟩

theorem connect_trace (upstream : UpstreamSel) {c : Controller ρ} (h : Calm c) :
    Safe (handler R) (fun _ => True) (fun e => Underway e.after.sent) (fun _ t => Calm t)
      (connect upstream) c := by
  refine safe_perform.mpr fun w _ => ⟨h.trace.underway, ?_⟩
  rw [handler_status]
  by_cases hup : c.status.state = .connected
  · rw [if_pos (.inl hup)]
    exact h
  · rw [if_neg (not_or.mpr ⟨hup, h.idle⟩)]
    have hpending : Pending upstream.label
        { c with status := connectingStatus upstream.label
                 sent := c.sent ++ [connectingStatus upstream.label] } :=
      ⟨c.sent, by simpa [hup] using h.trace, rfl⟩
    refine safe_perform.mpr fun w _ => ⟨hpending.underway, ?_⟩
    rw [handler_set]
    refine safe_perform.mpr fun w _ => ⟨hpending.underway, ?_⟩
    rw [handler_port]
    refine safe_perform.mpr fun w _ => ?_
    rcases start_cases R w _ ⟨.localhost, c.port⟩ upstream with ⟨e, he⟩ | he
    · rw [he]
      exact ⟨hpending.underway, fail_trace R hpending e⟩
    · rw [he]
      exact ⟨hpending.underway, redirectTo_trace R upstream _ _ hpending⟩

theorem finishDisconnect_trace {connected : Bool} {c : Controller ρ} (h : Trace connected c.sent) :
    Safe (handler R) (fun _ => True) (fun e => Underway e.after.sent) (fun _ t => Calm t)
      finishDisconnect c := by
  refine safe_perform.mpr fun w _ => ⟨h.underway, ?_⟩
  have hcalm : Calm { (handler R .flushCache w c).2 with
      status := Status.disconnected, sent := c.sent ++ [.disconnected] } :=
    ⟨h.down, by simp [Status.disconnected]⟩
  refine safe_perform.mpr fun w _ => ⟨hcalm.trace.underway, ?_⟩
  exact fun w _ => ⟨hcalm.trace.underway, hcalm⟩

theorem disconnect_trace {c : Controller ρ} (h : Calm c) :
    Safe (handler R) (fun _ => True) (fun e => Underway e.after.sent) (fun _ t => Calm t)
      disconnect c := by
  refine safe_perform.mpr fun w _ => ⟨h.trace.underway, ?_⟩
  refine safe_perform.mpr fun w' _ => ⟨h.trace.underway, ?_⟩
  rw [handler_takeProxy]
  cases (handler R .restore w c).2.proxy with
  | none => exact finishDisconnect_trace R h.trace
  | some proxy =>
    refine safe_perform.mpr fun w _ => ⟨h.trace.underway, ?_⟩
    exact finishDisconnect_trace R h.trace

/-- **What a turn sends** is a block, or nothing. -/
theorem dispatch_trace (cmd : Command) {c : Controller ρ} (h : Calm c) :
    Safe (handler R) (fun _ => True) (fun e => Underway e.after.sent) (fun _ t => Calm t)
      (dispatch cmd) c := by
  cases cmd with
  | ping => exact h
  | getStatus => exact safe_perform.mpr fun w _ => ⟨h.trace.underway, h⟩
  | subscribe =>
    refine safe_perform.mpr fun w _ => ⟨h.trace.underway, ?_⟩
    exact safe_perform.mpr fun w _ => ⟨h.trace.underway, h⟩
  | connect upstream => exact safe_bind.mpr ((connect_trace R upstream h).post fun _ _ ht => ht)
  | disconnect => exact safe_bind.mpr ((disconnect_trace R h).post fun _ _ ht => ht)

end Turns

/-! ### Over whole runs -/

/-- **The shape of the status trace**, for any clients, any interleaving and any
failures.  Between two turns everything sent has the shape; during a turn a
`Connecting` may stand behind it that is not answered yet; and the controller's
status is always the last status sent. -/
theorem trace_shaped {R : DnsRedirector ω ρ} {port : UInt16} {redirector : ρ} {d : Daemon ρ}
    (h : Reach (step R) (fun _ _ => True) (new port redirector) d) :
    (d.holder = none → Shape d.controller.sent) ∧
      (∃ ts, Shape ts ∧ (d.controller.sent = ts ∨
        ∃ label, d.controller.sent = ts ++ [connectingStatus label])) ∧
      d.controller.status = latest d.controller.sent := by
  have hturn : ∀ cmd (c : Controller ρ), Calm c → Safe (handler R) (fun _ => True)
      (fun e => Underway e.after.sent) (fun _ t => Calm t ∧ True) (dispatch cmd) c :=
    fun cmd c hc => (dispatch_trace R cmd hc).post fun _ _ ht => ⟨ht, trivial⟩
  have hnew : Calm (.new port redirector : Controller ρ) := ⟨.nil, by simp [Controller.new, Status.disconnected]⟩
  have hrun : Reach (step R) (CallsKeep R fun _ => True) (new port redirector) d :=
    h.mono fun _ _ _ _ _ => trivial
  have hturns : Turns R (fun _ => True) Calm (fun _ e => Underway e.after.sent) (fun _ _ _ _ => True) d :=
    reach_turns hturn hnew hrun
  obtain ⟨connected, ts, hts, hsent⟩ : Underway d.controller.sent :=
    reach_always (I := Calm) (B := fun _ e => Underway e.after.sent) (Q := fun _ _ _ _ => True)
      (P := fun c => Underway c.sent) hturn (fun _ hc => hc.trace.underway) (fun _ _ h => h) hnew hrun
  exact ⟨fun hfree => (hturns.free hfree).trace.shape, ⟨ts, hts.shape, hsent⟩, (reach_told h).status⟩

/-- One `connect` in which nothing fails. -/
theorem trace_shaped_cloudflare : Shape cloudflare.sent := by
  have hrun : run (step plainRedirector) ([.listen, .accept] ++ connecting 0 .cloudflare ++ [.release])
      (new 53 ("9.9.9.9", none)) = some
        { controller := cloudflare, holder := none, queue := [], main := .serving
          conns := [⟨.writing (.status cloudflare.status), none, [.connect .cloudflare], []⟩] } := rfl
  exact (trace_shaped (.of_run (fun _ _ => trivial) _ hrun)).1 rfl

end Voidns.Daemon
