import Voidns.Base.Text
import Voidns.Proto

/-!
# The window

`App.svelte` as it runs inside Tauri, where `usesBackend()` holds; the simulation
for a browser preview is left out.  A handler runs without interruption until it
awaits a reply of the service, so each function is a function on the state `App`
that may end by sending a command (`Next`), and `resume` is what follows each
`await`.

`upstreamFor(providerId)` is read when `connect` is called, in a `reconnectFor`
only after its `disconnect` has been answered.
-/

namespace Voidns.Gui

/-! ### Text -/

/-- The ends of lines, which `.` of a regular expression does not match. -/
def isLineTerminator (c : Char) : Bool :=
  c = '\n' || c = '\r' || c.toNat = 0x2028 || c.toNat = 0x2029

/-- White space and ends of lines, as `trim` strips them. -/
def isSpace (c : Char) : Bool :=
  (Text.isWhitespace c && c.toNat != 0x85) || c.toNat = 0xFEFF

/-- `String.prototype.trim`. -/
def trim (s : String) : String :=
  String.ofList ((s.toList.dropWhile isSpace).reverse.dropWhile isSpace).reverse

/-- `String.prototype.toLowerCase`, as far as it yields ASCII: beside the ASCII
letters, the Kelvin sign and the dotted capital I do. -/
def toLowerCase (s : String) : List Char :=
  s.toList.flatMap fun c =>
    if c.toNat = 0x212A then ['k'] else if c.toNat = 0x130 then ['i', Char.ofNat 0x307] else [c.toLower]

/-- `/address.*in use/`. -/
def addressInUse (m : List Char) : Bool :=
  m.tails.any fun t => "address".toList.isPrefixOf t &&
    Text.contains ((t.drop 7).takeWhile (!isLineTerminator ·)) "in use".toList

/-- `humanizeError`. -/
def humanizeError (msg : String) : String :=
  let m := toLowerCase msg
  let has (words : List String) : Bool := words.any fun word => Text.contains m word.toList
  if has ["unreachable", "refused", "no such file", "not found", "enoent", "cannot connect"] then
    "NO SERVICE"
  else if has ["authoriz", "denied", "permission", "privileg", "not permitted", "eperm"] then
    "NEEDS ROOT"
  else if addressInUse m || has ["already in use", "eaddrinuse", "bind"] then "PORT IN USE"
  else "ERROR"

/-! ### State -/

/-- `upstreamFor`.  The custom ones leave the port to its default. -/
def upstreamFor (id : String) : UpstreamSel :=
  match id with
  | "voidns" => .voidns
  | "cloudflare" => .cloudflare
  | "google" => .google
  | "quad9" => .quad9
  | "adguard" => .custom "94.140.14.14" "dns.adguard-dns.com" "/dns-query" 443
  | "mullvad" => .custom "194.242.2.2" "dns.mullvad.net" "/dns-query" 443
  | "nextdns" => .custom "45.90.28.0" "dns.nextdns.io" "/dns-query" 443
  | _ => .cloudflare

/-- The reactive state; `ticking` says that `tickTimer` is set. -/
structure App where
  status : ConnState
  providerId : String
  isOpen : Bool
  elapsed : Nat
  token : String
  tokenInput : String
  showTokenGate : Bool
  connError : Option String
  errorDetail : Option String
  ticking : Bool
  deriving DecidableEq

/-- An `await` of a reply, by the function it stands in. -/
inductive Await where
  | onMount
  | realConnect
  | realDisconnect
  /-- The `disconnect` of `reconnectFor`. -/
  | reconnectDisconnect
  /-- The `connect` of `reconnectFor`. -/
  | reconnectConnect
  deriving DecidableEq

namespace App

/-- The state of a window just opened. -/
def new : App where
  status := .disconnected
  providerId := "cloudflare"
  isOpen := false
  elapsed := 0
  token := ""
  tokenInput := ""
  showTokenGate := true
  connError := none
  errorDetail := none
  ticking := false

/-- What a function does up to its next `await`: the state it leaves, and the
command whose reply it awaits, if any. -/
abbrev Next := App × Option (Await × Command)

/-- `clearTimers`. -/
def clearTimers (a : App) : App := { a with ticking := false }

/-- `applyStatus`. -/
def applyStatus (a : App) (s : Status) : App :=
  match s.state with
  | .connected =>
    let a := if a.status = .connected then a else { a with elapsed := 0, ticking := true }
    { a with status := .connected, connError := none }
  | .connecting => { a with status := .connecting }
  | .error =>
    let a := { a.clearTimers with status := .error }
    match s.error with
    | some m =>
      -- an empty message is falsy
      if m = "" then a else { a with errorDetail := some m, connError := some (humanizeError m) }
    | none => a
  | .disconnected => { a.clearTimers with status := .disconnected, elapsed := 0 }

/-- `realConnect`. -/
def realConnect (a : App) : Next :=
  ({ a.clearTimers with
      status := .connecting, elapsed := 0, connError := none, errorDetail := none },
    some (.realConnect, .connect (upstreamFor a.providerId)))

/-- `realDisconnect`. -/
def realDisconnect (a : App) : Next := (a.clearTimers, some (.realDisconnect, .disconnect))

/-- `reconnectFor`. -/
def reconnectFor (a : App) : Next :=
  if a.status = .disconnected then (a, none)
  else (a.clearTimers, some (.reconnectDisconnect, .disconnect))

/-- `reconnectFor` once its `disconnect` has been answered, whatever the answer. -/
def reconnect (a : App) : Next :=
  ({ a with status := .connecting, elapsed := 0, connError := none },
    some (.reconnectConnect, .connect (upstreamFor a.providerId)))

/-- What follows each `await`, with the reply or the error the call was rejected
with. -/
def resume (a : App) : Await → Except String Status → Next
  | .onMount, .ok s => (a.applyStatus s, none)
  | .onMount, .error _ => (a, none)
  | .realConnect, .ok s => (a.applyStatus s, none)
  | .realConnect, .error e =>
    ({ a with errorDetail := some e, connError := some (humanizeError e), status := .error }, none)
  | .realDisconnect, .ok s => (a.applyStatus s, none)
  | .realDisconnect, .error _ => ({ a with status := .disconnected, elapsed := 0 }, none)
  | .reconnectDisconnect, _ => a.reconnect
  | .reconnectConnect, .ok s => (a.applyStatus s, none)
  | .reconnectConnect, .error _ =>
    ({ a with connError := some "CONNECT FAILED", status := .error }, none)

/-! ### Actions -/

/-- `toggle`. -/
def toggle (a : App) : Next :=
  if a.status = .disconnected ∨ a.status = .error then
    if a.providerId = "voidns" ∧ a.token = "" then
      ({ a.clearTimers with
          status := .error, connError := none, isOpen := false, showTokenGate := true }, none)
    else realConnect { a with connError := none }
  else realDisconnect a

/-- Whether `selectProvider(id)` ends at the token gate. -/
def gated (a : App) (id : String) : Prop := id ≠ a.providerId ∧ id = "voidns" ∧ a.token = ""

instance (a : App) (id : String) : Decidable (a.gated id) := inferInstanceAs (Decidable (_ ∧ _ ∧ _))

/-- `selectProvider`. -/
def selectProvider (a : App) (id : String) : Next :=
  let wasConnected := a.status = .connected ∨ a.status = .connecting
  let b := { a with providerId := id, isOpen := false }
  if id = a.providerId then (b, none)
  else if id = "voidns" ∧ a.token = "" then
    ({ b.clearTimers with status := .error, connError := none, showTokenGate := true }, none)
  else if wasConnected then b.reconnectFor
  else (b, none)

/-- `toggleOpen`. -/
def toggleOpen (a : App) : App := { a with isOpen := !a.isOpen }

/-- `activateToken`. -/
def activateToken (a : App) : App :=
  let t := trim a.tokenInput
  if t = "" then a
  else
    let a := { a with token := t, showTokenGate := false, providerId := "voidns" }
    if a.status = .error then { a with status := .disconnected, connError := none } else a

/-- `skipGate`. -/
def skipGate (a : App) : App := { a with showTokenGate := false }

/-- `openGate`. -/
def openGate (a : App) : App := { a with isOpen := false, showTokenGate := true }

end App

/-- What the user can do; `typeToken` is the field bound to `tokenInput`. -/
inductive Action where
  | toggle
  | selectProvider (id : String)
  | toggleOpen
  | typeToken (text : String)
  | activateToken
  | skipGate
  | openGate
  deriving DecidableEq

namespace App

def act (a : App) : Action → Next
  | .toggle => a.toggle
  | .selectProvider id => a.selectProvider id
  | .toggleOpen => (a.toggleOpen, none)
  | .typeToken text => ({ a with tokenInput := text }, none)
  | .activateToken => (a.activateToken, none)
  | .skipGate => (a.skipGate, none)
  | .openGate => (a.openGate, none)

/-- `onMount` once the listener is registered. -/
def onMount (a : App) : Next := (a, some (.onMount, .getStatus))

/-! ### What the functions do -/

/-- What an action does, with what makes it do so. -/
inductive Acts (a : App) : Action → Next → Prop
  | barred : a.status = .disconnected ∨ a.status = .error →
      a.providerId = "voidns" ∧ a.token = "" →
      Acts a .toggle
        ({ a.clearTimers with
            status := .error, connError := none, isOpen := false, showTokenGate := true }, none)
  | connect : a.status = .disconnected ∨ a.status = .error →
      ¬ (a.providerId = "voidns" ∧ a.token = "") →
      Acts a .toggle (realConnect { a with connError := none })
  | disconnect : ¬ (a.status = .disconnected ∨ a.status = .error) → Acts a .toggle a.realDisconnect
  | same : Acts a (.selectProvider a.providerId) ({ a with isOpen := false }, none)
  | gated {id : String} : a.gated id →
      Acts a (.selectProvider id)
        ({ a.clearTimers with
            providerId := id, isOpen := false, status := .error, connError := none
            showTokenGate := true }, none)
  | reconnect {id : String} : id ≠ a.providerId → ¬ a.gated id →
      a.status = .connected ∨ a.status = .connecting →
      Acts a (.selectProvider id)
        ({ a.clearTimers with providerId := id, isOpen := false },
          some (.reconnectDisconnect, .disconnect))
  | select {id : String} : id ≠ a.providerId → ¬ a.gated id →
      ¬ (a.status = .connected ∨ a.status = .connecting) →
      Acts a (.selectProvider id) ({ a with providerId := id, isOpen := false }, none)
  | blank : trim a.tokenInput = "" → Acts a .activateToken (a, none)
  | activate : trim a.tokenInput ≠ "" → a.status ≠ .error →
      Acts a .activateToken
        ({ a with token := trim a.tokenInput, showTokenGate := false, providerId := "voidns" }, none)
  | revive : trim a.tokenInput ≠ "" → a.status = .error →
      Acts a .activateToken
        ({ a with
            token := trim a.tokenInput, showTokenGate := false, providerId := "voidns"
            status := .disconnected, connError := none }, none)
  | toggleOpen : Acts a .toggleOpen (a.toggleOpen, none)
  | typeToken (text : String) : Acts a (.typeToken text) ({ a with tokenInput := text }, none)
  | skipGate : Acts a .skipGate (a.skipGate, none)
  | openGate : Acts a .openGate (a.openGate, none)

/-- **An action does one of these.** -/
theorem act_acts (a : App) (action : Action) : Acts a action (a.act action) := by
  cases action with
  | toggle =>
    show Acts a .toggle a.toggle
    unfold toggle
    split
    · split
      · exact .barred ‹_› ‹_›
      · exact .connect ‹_› ‹_›
    · exact .disconnect ‹_›
  | selectProvider id =>
    show Acts a (.selectProvider id) (a.selectProvider id)
    by_cases hid : id = a.providerId
    · subst hid
      rw [selectProvider, if_pos rfl]
      exact .same
    · by_cases hgate : id = "voidns" ∧ a.token = ""
      · rw [selectProvider, if_neg hid, if_pos hgate]
        exact .gated ⟨hid, hgate⟩
      · have hgated : ¬ a.gated id := fun h => hgate h.2
        by_cases hst : a.status = .connected ∨ a.status = .connecting
        · have hne : a.status ≠ .disconnected := by rcases hst with hst | hst <;> rw [hst] <;> simp
          rw [selectProvider, if_neg hid, if_neg hgate, if_pos hst, reconnectFor, if_neg hne]
          exact .reconnect hid hgated hst
        · rw [selectProvider, if_neg hid, if_neg hgate, if_neg hst]
          exact .select hid hgated hst
  | activateToken =>
    show Acts a .activateToken (a.activateToken, none)
    unfold activateToken
    dsimp only
    split
    · exact .blank ‹_›
    · split
      · exact .revive ‹_› ‹_›
      · exact .activate ‹_› ‹_›
  | toggleOpen => exact .toggleOpen
  | typeToken text => exact .typeToken text
  | skipGate => exact .skipGate
  | openGate => exact .openGate

/-- Applying a status shows its state, and leaves the provider, the token and the gate. -/
theorem applyStatus_eq (a : App) (s : Status) : ∃ elapsed ticking connError errorDetail,
    a.applyStatus s = { a with
      status := s.state, elapsed := elapsed, ticking := ticking, connError := connError
      errorDetail := errorDetail } := by
  unfold applyStatus
  split <;> rename_i h <;> rw [h]
  · split <;> exact ⟨_, _, _, _, rfl⟩
  · exact ⟨_, _, _, _, rfl⟩
  · split
    · split <;> exact ⟨_, _, _, _, rfl⟩
    · exact ⟨_, _, _, _, rfl⟩
  · exact ⟨_, _, _, _, rfl⟩

@[simp] theorem applyStatus_status (a : App) (s : Status) : (a.applyStatus s).status = s.state := by
  obtain ⟨_, _, _, _, h⟩ := a.applyStatus_eq s
  rw [h]

@[simp] theorem applyStatus_providerId (a : App) (s : Status) :
    (a.applyStatus s).providerId = a.providerId := by
  obtain ⟨_, _, _, _, h⟩ := a.applyStatus_eq s
  rw [h]

@[simp] theorem applyStatus_token (a : App) (s : Status) : (a.applyStatus s).token = a.token := by
  obtain ⟨_, _, _, _, h⟩ := a.applyStatus_eq s
  rw [h]

/-- What an action makes of the provider. -/
theorem act_providerId (a : App) (action : Action) :
    (a.act action).1.providerId = a.providerId ∨
      (∃ id, action = .selectProvider id ∧ id ≠ a.providerId ∧
        (a.act action).1.providerId = id) ∨
      action = .activateToken ∧ trim a.tokenInput ≠ "" ∧
        (a.act action).1.providerId = "voidns" := by
  have h := a.act_acts action
  generalize a.act action = n at h
  cases h with
  | gated h => exact .inr (.inl ⟨_, rfl, h.1, rfl⟩)
  | reconnect hid _ _ => exact .inr (.inl ⟨_, rfl, hid, rfl⟩)
  | select hid _ _ => exact .inr (.inl ⟨_, rfl, hid, rfl⟩)
  | activate ht _ => exact .inr (.inr ⟨rfl, ht, rfl⟩)
  | revive ht _ => exact .inr (.inr ⟨rfl, ht, rfl⟩)
  | barred | connect | disconnect | same | blank | toggleOpen | typeToken | skipGate | openGate =>
    exact .inl rfl

theorem resume_providerId (a : App) (aw : Await) (r : Except String Status) :
    (a.resume aw r).1.providerId = a.providerId := by
  cases aw <;> cases r <;>
    first
    | rfl
    | exact applyStatus_providerId _ _

theorem resume_token (a : App) (aw : Await) (r : Except String Status) :
    (a.resume aw r).1.token = a.token := by
  cases aw <;> cases r <;>
    first
    | rfl
    | exact applyStatus_token _ _

/-- The commands the window sends. -/
def Sends : Command → Prop
  | .connect _ | .disconnect | .getStatus => True
  | .subscribe | .ping => False

/-- What `f` leaves sends one of them, if any. -/
def Next.Ok (next : Next) : Prop := ∀ aw cmd, next.2 = some (aw, cmd) → Sends cmd

theorem act_ok (a : App) (action : Action) : Next.Ok (a.act action) := by
  have h := a.act_acts action
  generalize a.act action = n at h
  cases h with
  | connect | disconnect | reconnect =>
    rintro aw cmd ⟨⟩
    trivial
  | barred | same | gated | select | blank | activate | revive | toggleOpen | typeToken | skipGate
  | openGate => exact fun _ _ h => absurd h (by simp)

theorem resume_ok (a : App) (aw : Await) (r : Except String Status) : Next.Ok (a.resume aw r) := by
  cases aw <;> cases r <;> rintro aw cmd ⟨⟩ <;> trivial

end App

end Voidns.Gui
