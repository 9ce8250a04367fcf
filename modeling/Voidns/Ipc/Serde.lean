import Voidns.Lib.Json
import Voidns.Proto

/-!
# The protocol as JSON values

What the `serde` attributes of `voidns-proto` make of its types.  `UpstreamSel`,
`Command` and `Event` are internally tagged: an object whose member `kind` or
`type` names the variant in snake case, with the variant's fields next to it, and
for `Event::Status` those of the `Status`.  An absent `Option` is written as
`null`, and read as absent also where there is no member.

Reading goes by the members' names, in any order, and passes over those it does
not know.  A member that is there twice is refused (`required`, `withDefault`).

Nothing writes it, but a sequence is read too, with the tag first and the fields
after it in the order of the source.  Below the outermost value, which is read from
`serde`'s own `Content`, a variant may go by its number (`variant`), and a
`ConnState` be an object with that one member (`externallyTagged`).
-/

namespace Voidns

namespace Serde

/-- The values of the members of a name. -/
def named (members : List (String × Json)) (name : String) : List Json :=
  (members.filter fun m => m.1 = name).map Prod.snd

/-- A member that has to be there. -/
def required (members : List (String × Json)) (name : String) : Option Json :=
  match named members name with
  | [v] => some v
  | _ => none

/-- A member that stands for `default` where it is left out. -/
def withDefault {α : Type} (read : Json → Option α) (default : α) (members : List (String × Json))
    (name : String) : Option α :=
  match named members name with
  | [] => some default
  | [v] => read v
  | _ => none

/-- `String`. -/
def string : Json → Option String
  | .str s => some s
  | _ => none

/-- `u16`. -/
def u16 : Json → Option UInt16
  | .num n => if 0 ≤ n ∧ n < 65536 then some (UInt16.ofNat n.toNat) else none
  | _ => none

/-- `Option<String>`. -/
def optionString : Json → Option (Option String)
  | .null => some none
  | .str s => some (some s)
  | _ => none

def ofOption : Option String → Json
  | none => .null
  | some s => .str s

/-- The name of one of these variants, or its number. -/
def variant (names : List String) : Json → Option String
  | .str s => some s
  | .num n => if 0 ≤ n then names[n.toNat]? else none
  | _ => none

/-- `#[serde(tag = "…")]`: the variant's name, and the content besides the tag. -/
def tagged (identifier : Json → Option String) (tag : String) : Json → Option (String × Json)
  | .obj members => do
    let name ← identifier (← required members tag)
    some (name, .obj (members.filter fun m => m.1 ≠ tag))
  | .arr (v :: items) => do
    let name ← identifier v
    some (name, .arr items)
  | _ => none

/-- A variant that has no fields and no tag besides its name. -/
def externallyTagged : Json → Option String
  | .str s => some s
  | .obj [(s, .null)] => some s
  | .obj [(s, .obj [])] => some s
  | _ => none

/-- The members of a struct.  Of the fields that a sequence stands for it may leave
out the last ones, where they have a default: `least` are those that have to be there. -/
def fields (names : List String) (least : Nat) : Json → Option (List (String × Json))
  | .obj members => some members
  | .arr items =>
    if least ≤ items.length ∧ items.length ≤ names.length then some (names.zip items) else none
  | _ => none

/-- A variant without fields. -/
def unit {α : Type} (a : α) : Json → Option α
  | .obj _ => some a
  | .arr [] => some a
  | _ => none

@[simp] theorem string_str (s : String) : string (.str s) = some s := rfl

@[simp] theorem variant_str (names : List String) (s : String) : variant names (.str s) = some s :=
  rfl

@[simp] theorem u16_toNat (n : UInt16) : u16 (.num n.toNat) = some n := by
  have hn : n.toNat < 65536 := n.toNat_lt
  rw [u16, if_pos ⟨by omega, by omega⟩, Int.toNat_natCast, UInt16.ofNat_toNat]

@[simp] theorem optionString_ofOption (o : Option String) : optionString (ofOption o) = some o := by
  cases o <;> rfl

/-- Taking the tag out takes no other member out. -/
theorem named_filter {tag name : String} (h : name ≠ tag) (members : List (String × Json)) :
    named (members.filter fun m => m.1 ≠ tag) name = named members name := by
  rw [named, List.filter_filter]
  refine congrArg (List.map Prod.snd) (List.filter_congr fun m _ => ?_)
  by_cases hm : m.1 = name
  · simp [hm, h]
  · simp [hm]

/-- The fields of a variant are among the members of the whole object. -/
theorem tagged_obj {identifier : Json → Option String} {tag name : String} {v : Json}
    {members : List (String × Json)} (hv : required members tag = some v)
    (hname : identifier v = some name) :
    ∃ rest, tagged identifier tag (.obj members) = some (name, .obj rest) ∧
      (∀ field, field ≠ tag → required rest field = required members field) ∧
      ∀ (α : Type) (read : Json → Option α) (default : α) (field : String), field ≠ tag →
        withDefault read default rest field = withDefault read default members field := by
  refine ⟨members.filter fun m => m.1 ≠ tag, ?_, ?_, ?_⟩
  · simp only [tagged, hv, hname, Option.bind_eq_bind, Option.bind_some]
  · intro field h
    rw [required, named_filter h]
    rfl
  · intro α read default field h
    rw [withDefault, named_filter h]
    rfl

end Serde

open Serde

/-- `default_doh_port`. -/
def defaultDohPort : UInt16 := 443

namespace UpstreamSel

/-- `#[derive(Serialize)]` -/
def serialize : UpstreamSel → Json
  | voidns => .obj [("kind", .str "voidns")]
  | cloudflare => .obj [("kind", .str "cloudflare")]
  | google => .obj [("kind", .str "google")]
  | quad9 => .obj [("kind", .str "quad9")]
  | custom ip hostname path port =>
    .obj [("kind", .str "custom"), ("ip", .str ip), ("hostname", .str hostname), ("path", .str path),
      ("port", .num port.toNat)]

/-- The names of the variants, in the order of their numbers. -/
def kinds : List String := ["voidns", "cloudflare", "google", "quad9", "custom"]

/-- `#[derive(Deserialize)]` -/
def deserialize (v : Json) : Option UpstreamSel := do
  let (kind, content) ← tagged (variant kinds) "kind" v
  if kind = "voidns" then unit voidns content
  else if kind = "cloudflare" then unit cloudflare content
  else if kind = "google" then unit google content
  else if kind = "quad9" then unit quad9 content
  else if kind = "custom" then do
    let members ← fields ["ip", "hostname", "path", "port"] 3 content
    let ip ← string (← required members "ip")
    let hostname ← string (← required members "hostname")
    let path ← string (← required members "path")
    let port ← withDefault u16 defaultDohPort members "port"
    some (custom ip hostname path port)
  else none

theorem deserialize_custom {members : List (String × Json)} {ip hostname path : String}
    {port : UInt16} (hkind : required members "kind" = some (.str "custom"))
    (hip : required members "ip" = some (.str ip))
    (hhostname : required members "hostname" = some (.str hostname))
    (hpath : required members "path" = some (.str path))
    (hport : withDefault u16 defaultDohPort members "port" = some port) :
    deserialize (.obj members) = some (custom ip hostname path port) := by
  obtain ⟨rest, htagged, hrequired, hdefault⟩ := tagged_obj hkind (variant_str kinds _)
  simp [deserialize, htagged, fields, hrequired, hdefault, hip, hhostname, hpath, hport]

theorem deserialize_serialize (u : UpstreamSel) : deserialize u.serialize = some u := by
  cases u with
  | custom ip hostname path port => exact deserialize_custom rfl rfl rfl rfl (u16_toNat port)
  | _ => rfl

end UpstreamSel

namespace Command

/-- `#[derive(Serialize)]` -/
def serialize : Command → Json
  | connect upstream => .obj [("type", .str "connect"), ("upstream", upstream.serialize)]
  | disconnect => .obj [("type", .str "disconnect")]
  | getStatus => .obj [("type", .str "get_status")]
  | subscribe => .obj [("type", .str "subscribe")]
  | ping => .obj [("type", .str "ping")]

/-- `#[derive(Deserialize)]` -/
def deserialize (v : Json) : Option Command := do
  let (type, content) ← tagged string "type" v
  if type = "connect" then do
    let members ← fields ["upstream"] 1 content
    let upstream ← UpstreamSel.deserialize (← required members "upstream")
    some (connect upstream)
  else if type = "disconnect" then unit disconnect content
  else if type = "get_status" then unit getStatus content
  else if type = "subscribe" then unit subscribe content
  else if type = "ping" then unit ping content
  else none

theorem deserialize_connect {members : List (String × Json)} {inner : Json} {upstream : UpstreamSel}
    (htype : required members "type" = some (.str "connect"))
    (hinner : required members "upstream" = some inner)
    (hupstream : UpstreamSel.deserialize inner = some upstream) :
    deserialize (.obj members) = some (connect upstream) := by
  obtain ⟨rest, htagged, hrequired, _⟩ := tagged_obj htype (string_str _)
  simp [deserialize, htagged, fields, hrequired, hinner, hupstream]

theorem serialize_obj (cmd : Command) : ∃ members, cmd.serialize = .obj members := by
  cases cmd <;> exact ⟨_, rfl⟩

theorem deserialize_serialize (cmd : Command) : deserialize cmd.serialize = some cmd := by
  cases cmd with
  | connect upstream => exact deserialize_connect rfl rfl upstream.deserialize_serialize
  | _ => rfl

/-- A sequence, with a number inside it, says it too. -/
example : deserialize (.arr [.str "connect", .arr [.num 4, .str "9.9.9.9", .str "dns", .str "/"]]) =
    some (connect (.custom "9.9.9.9" "dns" "/" 443)) := rfl

end Command

namespace ConnState

/-- `#[derive(Serialize)]` -/
def serialize : ConnState → Json
  | disconnected => .str "disconnected"
  | connecting => .str "connecting"
  | connected => .str "connected"
  | error => .str "error"

/-- `#[derive(Deserialize)]` -/
def deserialize (v : Json) : Option ConnState := do
  let state ← externallyTagged v
  if state = "disconnected" then some disconnected
  else if state = "connecting" then some connecting
  else if state = "connected" then some connected
  else if state = "error" then some error
  else none

theorem deserialize_serialize (state : ConnState) : deserialize state.serialize = some state := by
  cases state <;> rfl

end ConnState

namespace Status

/-- The members of `#[derive(Serialize)]`. -/
def members (s : Status) : List (String × Json) :=
  [("state", s.state.serialize), ("upstream", ofOption s.upstream), ("listen", ofOption s.listen),
    ("error", ofOption s.error)]

/-- `#[derive(Deserialize)]` -/
def deserialize (v : Json) : Option Status := do
  -- a sequence has to have all four, as the `Option`s have no default
  let members ← fields ["state", "upstream", "listen", "error"] 4 v
  let state ← ConnState.deserialize (← required members "state")
  let upstream ← withDefault optionString none members "upstream"
  let listen ← withDefault optionString none members "listen"
  let error ← withDefault optionString none members "error"
  some ⟨state, upstream, listen, error⟩

theorem deserialize_members (s : Status) : deserialize (.obj s.members) = some s := by
  simp [deserialize, fields, members, required, withDefault, named, ConnState.deserialize_serialize]

end Status

namespace Event

/-- `#[derive(Serialize)]` -/
def serialize : Event → Json
  | status s => .obj (("type", .str "status") :: s.members)
  | pong => .obj [("type", .str "pong")]
  | error message => .obj [("type", .str "error"), ("message", .str message)]

/-- `#[derive(Deserialize)]` -/
def deserialize (v : Json) : Option Event := do
  let (type, content) ← tagged string "type" v
  if type = "status" then do
    let s ← Status.deserialize content
    some (status s)
  else if type = "pong" then unit pong content
  else if type = "error" then do
    let members ← fields ["message"] 1 content
    let message ← string (← required members "message")
    some (error message)
  else none

theorem serialize_obj (e : Event) : ∃ members, e.serialize = .obj members := by
  cases e <;> exact ⟨_, rfl⟩

theorem deserialize_serialize (e : Event) : deserialize e.serialize = some e := by
  cases e with
  | status s =>
    have htag : tagged string "type" (serialize (status s)) = some ("status", .obj s.members) := rfl
    simp [deserialize, htag, Status.deserialize_members]
  | pong => rfl
  | error message => rfl

end Event

end Voidns
