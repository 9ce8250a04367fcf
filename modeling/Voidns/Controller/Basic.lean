import Voidns.Proto
import Voidns.Redirect.Basic

/-!
# The controller

`controller.rs`: the Connect/Disconnect state machine, which owns the proxy and
the redirector and broadcasts every status.  `connect` and `disconnect` are
programs over the steps that may fail (`DohProxy::start`, `stop`, and the three
methods of the redirector) and over the fields they assign, so that what holds
between two steps can be said.

Next to the fields of the `Controller` stand the proxies that are running.  A
proxy leaves them when it is stopped, whether or not `stop` returns `Ok`, and
when it is dropped: `stop` takes it by value.
-/

namespace Voidns

open Effect

/-- `DohProxy`: one that has been started, told apart by the order of starts. -/
structure DohProxy where
  id : Nat
  listen : SocketAddr
  upstream : UpstreamSel

/-- `Controller`, with the statuses sent on `tx` so far and the proxies that are
running. -/
structure Controller (ρ : Type) where
  status : Status
  proxy : Option DohProxy
  redirector : ρ
  port : UInt16
  sent : List Status
  running : List DohProxy
  started : Nat

namespace Controller

variable {ω ρ : Type}

/-- `Controller::new`, around a new redirector. -/
def new (port : UInt16) (redirector : ρ) : Controller ρ :=
  ⟨.disconnected, none, redirector, port, [], [], 0⟩

/-! ### Calls -/

inductive Call where
  | status
  | set (status : Status)
  | port
  | start (listen : SocketAddr) (upstream : UpstreamSel)
  | stop (proxy : DohProxy)
  | putProxy (proxy : DohProxy)
  | takeProxy
  | apply (ip : IpAddr)
  | restore
  | flushCache
  | subscribe

def Call.isRestore : Call → Bool
  | .restore => true
  | _ => false

def Call.isApply : Call → Bool
  | .apply _ => true
  | _ => false

/-- The calls a `disconnect` makes after its `restore`. -/
def Call.afterRestore : Call → Bool
  | .takeProxy | .stop _ | .flushCache | .set _ | .status => true
  | _ => false

@[reducible] def Reply : Call → Type
  | .status => Status
  | .set _ | .putProxy _ => Unit
  | .port => UInt16
  | .start .. => Except Error DohProxy
  | .stop _ | .apply _ | .restore | .flushCache => Except Error Unit
  | .takeProxy => Option DohProxy
  | .subscribe => Nat

abbrev sig : Sig := ⟨Call, Reply⟩

/-- `self.status.clone()`. -/
def readStatus : Prog sig Status := .perform (E := sig) .status
/-- `set`: store the status and broadcast it. -/
def set (status : Status) : Prog sig Unit := .perform (E := sig) (.set status)
def readPort : Prog sig UInt16 := .perform (E := sig) .port
/-- `DohProxy::start`. -/
def start (listen : SocketAddr) (upstream : UpstreamSel) : Prog sig (Except Error DohProxy) :=
  .perform (E := sig) (.start listen upstream)
/-- `DohProxy::stop`. -/
def stop (proxy : DohProxy) : Prog sig (Except Error Unit) := .perform (E := sig) (.stop proxy)
/-- `self.proxy = Some(proxy)`. -/
def putProxy (proxy : DohProxy) : Prog sig Unit := .perform (E := sig) (.putProxy proxy)
/-- `self.proxy.take()`. -/
def takeProxy : Prog sig (Option DohProxy) := .perform (E := sig) .takeProxy
def apply (ip : IpAddr) : Prog sig (Except Error Unit) := .perform (E := sig) (.apply ip)
def restore : Prog sig (Except Error Unit) := .perform (E := sig) .restore
def flushCache : Prog sig (Except Error Unit) := .perform (E := sig) .flushCache

/-- `subscribe`: a receiver that starts at the next status sent. -/
def subscribe : Prog sig Nat := .perform (E := sig) .subscribe

/-! ### The commands -/

/-- `error_status`. -/
def errorStatus (e : Error) : Status := ⟨.error, none, none, some e.text⟩

/-- The status `connect` ends with when every step has succeeded. -/
def connectedStatus (label : String) (listen : SocketAddr) : Status :=
  ⟨.connected, some label, some listen.text, none⟩

/-- `connect` once the proxy has started: redirect system DNS to it. -/
def redirectTo (upstream : UpstreamSel) (listen : SocketAddr) (proxy : DohProxy) :
    Prog sig Status := do
  match ← apply listen.ip with
  | .error e =>
    let _ ← stop proxy
    set (errorStatus e)
    readStatus
  | .ok () =>
    let _ ← flushCache
    putProxy proxy
    set (connectedStatus upstream.label listen)
    readStatus

/-- `Controller::connect`. -/
def connect (upstream : UpstreamSel) : Prog sig Status := do
  let status ← readStatus
  if status.state = .connected ∨ status.state = .connecting then return status
  else
    set ⟨.connecting, some upstream.label, none, none⟩
    let port ← readPort
    match ← start ⟨.localhost, port⟩ upstream with
    | .error e =>
      set (errorStatus e)
      readStatus
    | .ok proxy => redirectTo upstream ⟨.localhost, port⟩ proxy

/-- `disconnect` after the proxy is gone. -/
def finishDisconnect : Prog sig Status := do
  let _ ← flushCache
  set .disconnected
  readStatus

/-- `disconnect` after `restore`, whose result it discards. -/
def killProxy : Prog sig Status := do
  match ← takeProxy with
  | some proxy =>
    let _ ← stop proxy
    finishDisconnect
  | none => finishDisconnect

theorem killProxy_afterRestore : killProxy.Calls fun c : Call => c.afterRestore = true := by
  have hfinish : finishDisconnect.Calls fun c : Call => c.afterRestore = true :=
    ⟨rfl, fun _ => ⟨rfl, fun _ => .perform rfl⟩⟩
  refine Prog.calls_perform.mpr ⟨rfl, fun proxy => ?_⟩
  cases proxy with
  | none => exact hfinish
  | some proxy => exact Prog.calls_perform.mpr ⟨rfl, fun _ => hfinish⟩

/-- `Controller::disconnect`: DNS is restored before the proxy is killed. -/
def disconnect : Prog sig Status := do
  let _ ← restore
  killProxy

/-- The commands that change the controller. -/
inductive Request where
  | connect (upstream : UpstreamSel)
  | disconnect

def Request.body : Request → Prog sig Status
  | connect upstream => Controller.connect upstream
  | disconnect => Controller.disconnect

/-- Any commands, one after another. -/
def session (requests : List Request) : Prog sig Unit := Prog.each Request.body requests

/-! ### What each step does -/

/-- The world's choice for one step: the fate of a step on the proxy, and what
a method of the redirector meets. -/
structure Choice (ω : Type) where
  fate : Fate
  os : ω

instance [Inhabited ω] : Inhabited (Choice ω) := ⟨⟨default, default⟩⟩

/-- A proxy is stopped or dropped. -/
def gone (c : Controller ρ) (proxy : DohProxy) : List DohProxy :=
  c.running.filter fun q => q.id != proxy.id

def handler (R : DnsRedirector ω ρ) : Handler sig (Choice ω) (Controller ρ)
  | .status, _, c => (c.status, c)
  | .set status, _, c => ((), { c with status := status, sent := c.sent ++ [status] })
  | .port, _, c => (c.port, c)
  | .start listen upstream, w, c =>
    let proxy : DohProxy := ⟨c.started, listen, upstream⟩
    w.fate.attempt
      (some (proxy, { c with running := c.running ++ [proxy], started := c.started + 1 })) c
  | .stop proxy, w, c => ((w.fate.attempt (some ((), c)) c).1, { c with running := c.gone proxy })
  | .putProxy proxy, _, c =>
    -- the proxy it overwrites is dropped
    ((), { c with proxy := some proxy, running := c.proxy.elim c.running c.gone })
  | .takeProxy, _, c => (c.proxy, { c with proxy := none })
  | .apply ip, w, c =>
    ((R.apply ip w.os c.redirector).1, { c with redirector := (R.apply ip w.os c.redirector).2 })
  | .restore, w, c =>
    ((R.restore w.os c.redirector).1, { c with redirector := (R.restore w.os c.redirector).2 })
  | .flushCache, w, c =>
    ((R.flushCache w.os c.redirector).1,
      { c with redirector := (R.flushCache w.os c.redirector).2 })
  | .subscribe, _, c => (c.sent.length, c)

section Steps

variable (R : DnsRedirector ω ρ) (w : Choice ω) (c : Controller ρ)

@[simp] theorem handler_status : handler R .status w c = (c.status, c) := rfl

@[simp] theorem handler_set (status : Status) : handler R (.set status) w c =
    ((), { c with status := status, sent := c.sent ++ [status] }) := rfl

@[simp] theorem handler_port : handler R .port w c = (c.port, c) := rfl

@[simp] theorem handler_takeProxy :
    handler R .takeProxy w c = (c.proxy, { c with proxy := none }) := rfl

/-- With no proxy there, none is dropped. -/
theorem handler_putProxy {c : Controller ρ} (h : c.proxy = none) (proxy : DohProxy) :
    handler R (.putProxy proxy) w c = ((), { c with proxy := some proxy }) := by
  have hrun : c.proxy.elim c.running c.gone = c.running := by rw [h]; rfl
  show ((), { c with proxy := some proxy, running := c.proxy.elim c.running c.gone }) = _
  rw [hrun]

theorem start_cases (listen : SocketAddr) (upstream : UpstreamSel) :
    (∃ e, handler R (.start listen upstream) w c = (.error e, c)) ∨
      handler R (.start listen upstream) w c = (.ok ⟨c.started, listen, upstream⟩,
        { c with running := c.running ++ [⟨c.started, listen, upstream⟩],
                 started := c.started + 1 }) := by
  obtain ⟨fate, os⟩ := w
  cases fate with
  | ok => exact Or.inr rfl
  | fails cause => exact Or.inl ⟨_, rfl⟩

/-- What a step does to the field `proxy`. -/
theorem handler_proxy (call : Call) : (handler R call w c).2.proxy = c.proxy ∨
    (handler R call w c).2.proxy = none ∨
      ∃ p, call = .putProxy p ∧ (handler R call w c).2.proxy = some p := by
  cases call with
  | takeProxy => exact .inr (.inl rfl)
  | putProxy p => exact .inr (.inr ⟨p, rfl, rfl⟩)
  | start listen upstream =>
    rcases start_cases R w c listen upstream with ⟨e, h⟩ | h <;> rw [h] <;> exact .inl rfl
  | status | set | port | stop | apply | restore | flushCache | subscribe => exact .inl rfl

end Steps

end Controller

end Voidns
