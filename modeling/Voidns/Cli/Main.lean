import Voidns.Base.Number
import Voidns.Ipc.Client

/-!
# The command lines

`main` of `voidns-cli`, and that of `voidns-service` as far as it does not become the
daemon: `voidns connect`, `disconnect`, `status` and `ping`, and `voidns-service connect`,
`disconnect` and `status`.  Both read their arguments, send one command over a connection
of their own, print the reply and turn it into an exit code that scripts can gate on.
-/

namespace Voidns

/-- What a process leaves: the lines it prints, the error it reports, and its exit code. -/
structure Outcome where
  stdout : List String
  error : Option Error
  code : Nat
  deriving DecidableEq

/-- `{:?}` of a `ConnState`. -/
def ConnState.debug : ConnState → String
  | disconnected => "Disconnected"
  | connecting => "Connecting"
  | connected => "Connected"
  | error => "Error"

/-- The line both programs print for a status. -/
def Status.line (s : Status) : String :=
  let upstream := s.upstream.getD "-"
  let listen := s.listen.getD "-"
  let error := s.error.getD "-"
  s!"state={s.state.debug} upstream={upstream} listen={listen} error={error}"

def Command.isConnect : Command → Bool
  | .connect _ => true
  | _ => false

/-- What both programs take for a failure: an error, or a `connect` that has not reached
`Connected`. -/
def Status.bad (cmd : Command) (s : Status) : Bool :=
  s.state == .error || (cmd.isConnect && s.state != .connected)

/-- What both programs make of a reply. -/
def report (cmd : Command) : Except Error Event → Outcome
  | .error e => ⟨[], some e, 1⟩
  | .ok (.status s) => ⟨[s.line], none, if s.bad cmd then 1 else 0⟩
  | .ok .pong => ⟨["pong"], none, 0⟩
  | .ok (.error message) => ⟨[], some (.msg message), 1⟩

/-- What the two `parse_upstream` share. -/
def parseUpstream (usage : Error) (args : List String) : Except Error UpstreamSel :=
  match args.head? with
  | some "cloudflare" => .ok .cloudflare
  | some "google" => .ok .google
  | some "quad9" => .ok .quad9
  | some "voidns" => .ok .voidns
  | some "custom" =>
    match args[1]?, args[2]?, args[3]?, args[4]? with
    | none, _, _, _ => .error (.msg "custom: missing <ip>")
    | _, none, _, _ => .error (.msg "custom: missing <hostname>")
    | _, _, none, _ => .error (.msg "custom: missing <path>")
    | _, _, _, none => .error (.msg "custom: missing <port>")
    | some ip, some hostname, some path, some port =>
      match parseU16 port with
      | .error e => .error ((Error.msg e.text).context "custom: invalid <port>")
      | .ok port => .ok (.custom ip hostname path port)
  | _ => .error usage

section

variable (commands : Ipc.Codec Command) (events : Ipc.Codec Event)

namespace Cli

/-- `USAGE`. -/
def usage : String :=
  "usage:\n  voidns connect <cloudflare|google|quad9|voidns|custom <ip> <hostname> <path> <port>>\n" ++
    "  voidns disconnect\n  voidns status\n  voidns ping"

/-- `parse_upstream` of `voidns-cli`. -/
def parseUpstream (args : List String) : Except Error UpstreamSel :=
  Voidns.parseUpstream (.msg ("connect: missing upstream\n\n" ++ usage)) args

/-- The command that `dispatch` sends, or none when it prints the usage. -/
def dispatch (args : List String) : Except Error (Option Command) :=
  match args[1]? with
  | some "connect" => (parseUpstream (args.drop 2)).map fun upstream => some (.connect upstream)
  | some "disconnect" => .ok (some .disconnect)
  | some "status" => .ok (some .getStatus)
  | some "ping" => .ok (some .ping)
  | some "-h" | some "--help" | some "help" | none => .ok none
  | some other => .error (.msg ("unknown command `" ++ other ++ "`\n\n" ++ usage))

/-- `run`. -/
def run (cmd : Command) (line : Ipc.Line) : List UInt8 × Outcome :=
  let (sent, reply) := Ipc.Cli.oneShot commands events cmd line
  (sent, report cmd reply)

/-- `main` of `voidns-cli`: the bytes written, and what the process leaves. -/
def main (args : List String) (line : Ipc.Line) : List UInt8 × Outcome :=
  match dispatch args with
  | .error e => ([], ⟨[], some e, 1⟩)
  | .ok none => ([], ⟨[usage], none, 0⟩)
  | .ok (some cmd) => run commands events cmd line

end Cli

namespace Service

/-- `parse_upstream` of `voidns-service`. -/
def parseUpstream (args : List String) : Except Error UpstreamSel :=
  Voidns.parseUpstream (.msg ("usage: voidns-service connect " ++
    "<cloudflare|google|quad9|voidns|custom <ip> <hostname> <path> <port>>")) args

/-- `ctl`. -/
def ctl (cmd : Command) (line : Ipc.Line) : List UInt8 × Outcome :=
  let (sent, reply) := Ipc.Core.oneShot commands events cmd line
  (sent, report cmd reply)

/-- The command that `main` controls the daemon with, or none when it becomes the daemon. -/
def control (args : List String) : Except Error (Option Command) :=
  match args[1]? with
  | some "connect" => (parseUpstream (args.drop 2)).map fun upstream => some (.connect upstream)
  | some "disconnect" => .ok (some .disconnect)
  | some "status" => .ok (some .getStatus)
  | _ => .ok none

/-- `main` of `voidns-service`, unless it becomes the daemon. -/
def main (args : List String) (line : Ipc.Line) : Option (List UInt8 × Outcome) :=
  match control args with
  | .error e => some ([], ⟨[], some e, 1⟩)
  | .ok none => none
  | .ok (some cmd) => some (ctl commands events cmd line)

/-- `VOIDNS_PORT`, or the default. -/
def port (var : Option String) : UInt16 :=
  (var.bind fun s => (parseU16 s).toOption).getD defaultProxyPort
where
  defaultProxyPort : UInt16 := 53

end Service

/-- The two programs. -/
inductive Program where
  | cli
  | service
  deriving DecidableEq

namespace Program

/-- The command a program sends. -/
def command (args : List String) : Program → Except Error (Option Command)
  | cli => Cli.dispatch args
  | service => Service.control args

/-- The `one_shot` it sends it with. -/
def peer : Program → Ipc.Peer
  | cli => .cli
  | service => .core

def main (args : List String) (line : Ipc.Line) : Program → Option (List UInt8 × Outcome)
  | cli => some (Cli.main commands events args line)
  | service => Service.main commands events args line

end Program

variable {commands events}

namespace Program

variable {program : Program} {args : List String} {line : Ipc.Line} {cmd : Command}

/-- A program that sends a command reports what it is told. -/
theorem main_command (h : program.command args = .ok (some cmd)) :
    program.main commands events args line =
      some ((program.peer.oneShot commands events cmd line).1,
        report cmd (program.peer.oneShot commands events cmd line).2) := by
  cases program with
  | cli =>
    have h : Cli.dispatch args = .ok (some cmd) := h
    simp only [main, Cli.main, h, Cli.run, peer, Ipc.Peer.oneShot]
  | service =>
    have h : Service.control args = .ok (some cmd) := h
    simp only [main, Service.main, h, Service.ctl, peer, Ipc.Peer.oneShot]

/-- No program subscribes. -/
theorem command_ne (h : program.command args = .ok (some cmd)) : cmd ≠ .subscribe := by
  rintro rfl
  have hmap : ∀ read : Except Error UpstreamSel,
      (read.map fun upstream => some (Command.connect upstream)) ≠ .ok (some .subscribe) := by
    intro read
    cases read <;> simp [Except.map]
  cases program with
  | cli =>
    have h : Cli.dispatch args = .ok (some .subscribe) := h
    unfold Cli.dispatch at h
    split at h
    · exact hmap _ h
    all_goals simp at h
  | service =>
    have h : Service.control args = .ok (some .subscribe) := h
    unfold Service.control at h
    split at h
    · exact hmap _ h
    all_goals simp at h

end Program

/-! ### Arguments -/

/-- How an upstream is spelled, with anything behind it: a custom one with a decimal port,
which may have a `+` and leading zeros. -/
inductive Spelled : List String → UpstreamSel → Prop
  | cloudflare (more : List String) : Spelled ("cloudflare" :: more) .cloudflare
  | google (more : List String) : Spelled ("google" :: more) .google
  | quad9 (more : List String) : Spelled ("quad9" :: more) .quad9
  | voidns (more : List String) : Spelled ("voidns" :: more) .voidns
  | custom (ip hostname path : String) {text : String} {digits : List Char} {port : UInt16}
      (more : List String) : text.toList = digits ∨ text.toList = '+' :: digits → digits ≠ [] →
      (∀ c ∈ digits, c.isDigit = true) → Nat.ofDigitChars 10 digits 0 = port.toNat →
      Spelled ("custom" :: ip :: hostname :: path :: text :: more) (.custom ip hostname path port)

/-- **What `parse_upstream` accepts.** -/
theorem parseUpstream_ok {usage : Error} {args : List String} {upstream : UpstreamSel} :
    parseUpstream usage args = .ok upstream ↔ Spelled args upstream := by
  constructor
  · intro h
    unfold parseUpstream at h
    split at h
    all_goals try
      obtain rfl := Except.ok.inj h
    · rename_i hhead
      obtain ⟨more, rfl⟩ := List.head?_eq_some_iff.mp hhead
      exact .cloudflare more
    · rename_i hhead
      obtain ⟨more, rfl⟩ := List.head?_eq_some_iff.mp hhead
      exact .google more
    · rename_i hhead
      obtain ⟨more, rfl⟩ := List.head?_eq_some_iff.mp hhead
      exact .quad9 more
    · rename_i hhead
      obtain ⟨more, rfl⟩ := List.head?_eq_some_iff.mp hhead
      exact .voidns more
    · rename_i hhead
      obtain ⟨more, rfl⟩ := List.head?_eq_some_iff.mp hhead
      split at h
      · exact absurd h (by simp)
      · exact absurd h (by simp)
      · exact absurd h (by simp)
      · exact absurd h (by simp)
      · rename_i ip hostname path text h1 h2 h3 h4
        split at h
        · exact absurd h (by simp)
        · rename_i port hport
          obtain rfl := Except.ok.inj h
          obtain ⟨digits, htext, hne, hdigits, hvalue⟩ := parseU16_ok.mp hport
          match more, h1, h2, h3, h4 with
          | a :: b :: c :: d :: more, h1, h2, h3, h4 =>
            obtain rfl : a = ip := by simpa using h1
            obtain rfl : b = hostname := by simpa using h2
            obtain rfl : c = path := by simpa using h3
            obtain rfl : d = text := by simpa using h4
            exact .custom a b c more htext hne hdigits hvalue
    · exact absurd h (by simp)
  · intro h
    cases h with
    | cloudflare | google | quad9 | voidns => rfl
    | custom ip hostname path more htext hne hdigits hvalue =>
      have hport := parseU16_ok.mpr ⟨_, htext, hne, hdigits, hvalue⟩
      simp [parseUpstream, hport]

/-! ### The two programs -/

theorem toOption_eq {ε ε' α : Type} {x : Except ε α} {y : Except ε' α}
    (h : ∀ a, x = .ok a ↔ y = .ok a) : x.toOption = y.toOption := by
  cases x with
  | ok a => rw [(h a).mp rfl]; rfl
  | error e =>
    cases y with
    | ok a => exact absurd ((h a).mpr rfl) (by simp)
    | error e' => rfl

theorem toOption_map {ε α β : Type} (f : α → β) (x : Except ε α) :
    (x.map f).toOption = x.toOption.map f := by cases x <;> rfl

/-- The subcommands that both programs have. -/
def Shared (args : List String) : Prop :=
  args[1]? = some "connect" ∨ args[1]? = some "disconnect" ∨ args[1]? = some "status"

/-- Both programs read them alike. -/
theorem command_same {args : List String} (h : Shared args) :
    (Cli.dispatch args).toOption = (Service.control args).toOption ∧
      Service.control args ≠ .ok none := by
  have hparse : (Cli.parseUpstream (args.drop 2)).toOption =
      (Service.parseUpstream (args.drop 2)).toOption :=
    toOption_eq fun _ => parseUpstream_ok.trans parseUpstream_ok.symm
  rcases h with h | h | h
  · constructor
    · simp only [Cli.dispatch, Service.control, h, toOption_map, hparse]
    · simp only [Service.control, h]
      cases Service.parseUpstream (args.drop 2) <;> simp [Except.map]
  · simp [Cli.dispatch, Service.control, h, Except.toOption]
  · simp [Cli.dispatch, Service.control, h, Except.toOption]

/-- Of an error, a process prints nothing on `stdout` and exits with 1. -/
theorem report_same (cmd : Command) {x y : Except Error Event} (h : ∀ e, x = .ok e ↔ y = .ok e) :
    (report cmd x).stdout = (report cmd y).stdout ∧ (report cmd x).code = (report cmd y).code := by
  cases x with
  | ok e => rw [(h e).mp rfl]; exact ⟨rfl, rfl⟩
  | error e =>
    cases y with
    | ok e' => exact absurd ((h e').mpr rfl) (by simp)
    | error e' => exact ⟨rfl, rfl⟩

/-- **The two programs agree.**  Whatever their arguments and whatever they meet, for the
subcommands both have they write the same bytes, print the same lines and exit with the
same code. -/
theorem programs_agree (args : List String) (line : Ipc.Line) (h : Shared args) :
    ∃ out, Service.main commands events args line = some out ∧
      (Cli.main commands events args line).1 = out.1 ∧
      (Cli.main commands events args line).2.stdout = out.2.stdout ∧
      (Cli.main commands events args line).2.code = out.2.code := by
  obtain ⟨hsame, hnone⟩ := command_same h
  unfold Service.main Cli.main
  cases hservice : Service.control args with
  | error e =>
    rw [hservice] at hsame
    cases hcli : Cli.dispatch args with
    | error e' => exact ⟨_, rfl, rfl, rfl, rfl⟩
    | ok read =>
      rw [hcli] at hsame
      exact absurd hsame (by simp [Except.toOption])
  | ok read =>
    cases read with
    | none => exact absurd hservice hnone
    | some cmd =>
      rw [hservice] at hsame
      obtain hcli : Cli.dispatch args = .ok (some cmd) := by
        cases hcli : Cli.dispatch args with
        | error e => rw [hcli] at hsame; exact absurd hsame (by simp [Except.toOption])
        | ok read => rw [hcli] at hsame; exact congrArg Except.ok (Option.some.inj hsame)
      rw [hcli]
      obtain ⟨hsent, hreply⟩ := Ipc.Peer.oneShot_same commands events .cli .core cmd line
      obtain ⟨hout, hcode⟩ := report_same cmd hreply
      exact ⟨_, rfl, hsent, hout, hcode⟩

end

/-- Nobody answers, and the port is spelled with a sign. -/
theorem programs_agree_unanswered :
    let args := ["voidns", "connect", "custom", "9.9.9.9", "dns.quad9.net", "/dns-query", "+0443"]
    let line : Ipc.Line := ⟨.ok, .ok, .ok, 0, [], none, "early eof", "expected value"⟩
    ∃ out, Service.main Ipc.jsonText.command Ipc.jsonText.event args line = some out ∧
      (Cli.main Ipc.jsonText.command Ipc.jsonText.event args line).1 = out.1 ∧
      (Cli.main Ipc.jsonText.command Ipc.jsonText.event args line).2.stdout = out.2.stdout ∧
      (Cli.main Ipc.jsonText.command Ipc.jsonText.event args line).2.code = out.2.code :=
  programs_agree _ _ (.inl rfl)

end Voidns
