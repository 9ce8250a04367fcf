import Voidns.Redirect.Retry

/-!
# What is recorded is reset, and nothing else

On Windows and macOS an `apply` passes over what it cannot set, takes a second
mechanism when the first has set nothing, and records a list; `restore` goes
through that list and passes over what it cannot reset.  `Accounted` says that
these fit together: the record lists what has been changed, each by the mechanism
that has changed it; the `restore` goes through the record once, in order, and
stays with it; and restores after that find no record and call nobody.

What is changed is read off the calls: `Call.place` is the setting a call is
about, and `changes` are the places of the calls that went through.  Between an
`apply` and its `restore`, and between restores, anything may happen to the system
beside the record (`Since`).
-/

namespace Voidns

open Effect

/-- What may come after a `restore` and before the next `apply`: the system changes,
though not the record, or there is another `restore`. -/
inductive Since {E : Sig} {σ A : Type} (H : Handler E Fate σ)
    (restore : Prog E (Except Error Unit)) (record : σ → A) (s : σ) : σ → Prop
  | refl : Since H restore record s s
  | system {t u : σ} : Since H restore record s t → record u = record t → Since H restore record s u
  | restore {t : σ} (ws : List Fate) : Since H restore record s t →
      Since H restore record s (exec H restore ws t).state

/-- No record, and none comes of a `restore`. -/
theorem Since.record_eq {E : Sig} {σ A : Type} {H : Handler E Fate σ}
    {restore : Prog E (Except Error Unit)} {record : σ → A} {a : A} {s t : σ}
    (hrestore : ∀ ws t, record (exec H restore ws t).state = a) (hs : record s = a)
    (h : Since H restore record s t) : record t = a := by
  induction h with
  | refl => exact hs
  | system _ he ih => exact he.trans ih
  | restore ws _ _ => exact hrestore ws _

/-! ### What a run has changed -/

section

variable {E : Sig} {σ P K α : Type} {H : Handler E Fate σ} (place : σ → E.Call → Option P)

/-- What a call has changed: its place, if it went through. -/
def changedPlace (e : CallEvent E Fate σ) : Option P :=
  if e.choice = .ok then place e.before e.call else none

/-- What a run has changed, in order. -/
def changedPlaces (es : List (CallEvent E Fate σ)) : List P := es.filterMap (changedPlace place)

variable {place} in
theorem exists_of_changedPlaces {es : List (CallEvent E Fate σ)} {p : P}
    (h : p ∈ changedPlaces place es) : ∃ e ∈ es, place e.before e.call = some p := by
  obtain ⟨e, he, hchanged⟩ := List.mem_filterMap.mp h
  refine ⟨e, he, ?_⟩
  unfold changedPlace at hchanged
  split at hchanged
  · exact hchanged
  · exact absurd hchanged (by simp)

/-- **All but what is changed stays as it was**, for any program, when each call leaves
all but its place.  `S k` says so of the setting `k`, and `key` is the setting a place
is of. -/
theorem changedPlaces_frame {S : K → σ → σ → Prop} (key : P → K) (refl : ∀ k s, S k s s)
    (trans : ∀ k s t u, S k s t → S k t u → S k s u)
    (hstep : ∀ c w s k, (∀ p ∈ changedPlace place ⟨c, w, s, (H c w s).2⟩, key p ≠ k) →
      S k s (H c w s).2) (p : Prog E α) (s : σ) :
    Ends H (fun es _ t => ∀ k, (∀ p ∈ changedPlaces place es, key p ≠ k) → S k s t) p s := by
  refine ends_frame (T := fun s es t => ∀ k, (∀ p ∈ changedPlaces place es, key p ≠ k) → S k s t)
    (fun s k _ => refl k s) (fun c w s es t _ ht k hk => ?_) (Prog.calls_any p) s
  have hcall : S k s (H c w s).2 :=
    hstep c w s k fun p hp => hk p (List.mem_filterMap.mpr ⟨_, List.mem_cons_self, hp⟩)
  have htail := (List.sublist_cons_self ⟨c, w, s, (H c w s).2⟩ es).filterMap (changedPlace place)
  exact trans k _ _ _ hcall (ht k fun p hp => hk p (htail.subset hp))

end

/-! ### Windows -/

namespace Windows

/-- The settings of an interface, by the mechanism that changes them. -/
inductive Place where
  | native (guid : Nat)
  | netsh (guid : Nat)
  deriving DecidableEq

def Place.guid : Place → Nat
  | .native guid | .netsh guid => guid

/-- What a call changes when it goes through. -/
def Call.place (s : System) : Call → Option Place
  | .setInterfaceDnsSettings guid _ => some (.native guid)
  | .run "netsh" ["interface", "ipv4", "set", "dnsservers", arg, "static", _, "primary"] =>
    (s.named arg).map .netsh
  | .run "netsh" ["interface", "ipv4", "set", "dnsservers", arg, "dhcp"] => (s.named arg).map .netsh
  | _ => none

/-- What a call has changed. -/
def changed (e : CallEvent sig Fate System) : Option Place := changedPlace (E := sig) Call.place e

/-- What a run has changed, in order. -/
def changes (es : List (CallEvent sig Fate System)) : List Place :=
  changedPlaces (E := sig) Call.place es

/-- What an entry of the record stands for. -/
def System.place (s : System) : Item → Option Place
  | .native name => (s.guidOf name).map .native
  | .netsh name => (s.guidOf name).map .netsh

/-- The calls of the reset that matches the mechanism.  An interface that was set natively is
looked up by its name, and where it is found its settings are cleared, whether or not that
goes through; one that `netsh` has set is set to `dhcp` by `netsh`. -/
inductive Attempt : Item → List (CallEvent sig Fate System) → Prop
  | unknown {name : String} {w : Fate} {s t : System} {e : Error} :
      (handler (.aliasToLuid name) w s).1 = .error e →
      Attempt (.native name) [⟨.aliasToLuid name, w, s, t⟩]
  | unidentified {name : String} {luid : UInt64} {w w' : Fate} {s s' t t' : System} {e : Error} :
      (handler (.aliasToLuid name) w s).1 = .ok luid →
      (handler (.luidToGuid luid) w' s').1 = .error e →
      Attempt (.native name) [⟨.aliasToLuid name, w, s, t⟩, ⟨.luidToGuid luid, w', s', t'⟩]
  | native {name : String} {luid : UInt64} {guid : Nat} {w w' w'' : Fate}
      {s s' s'' t t' t'' : System} :
      (handler (.aliasToLuid name) w s).1 = .ok luid →
      (handler (.luidToGuid luid) w' s').1 = .ok guid → s''.guidOf name = some guid →
      Attempt (.native name) [⟨.aliasToLuid name, w, s, t⟩, ⟨.luidToGuid luid, w', s', t'⟩,
        ⟨.setInterfaceDnsSettings guid ⟨"", ""⟩, w'', s'', t''⟩]
  | netsh {name : String} {w : Fate} {s t : System} :
      Attempt (.netsh name)
        [⟨.run "netsh" ["interface", "ipv4", "set", "dnsservers", s!"name={name}", "dhcp"], w, s, t⟩]

/-- A call of the operating system, not a field of the redirector. -/
def Call.os : Call → Bool
  | .setApplied _ | .takeApplied => false
  | _ => true

/-- **The record accounts for an `apply`** whose calls were `es`, from `s` to `t`. -/
structure Accounted (s : System) (es : List (CallEvent sig Fate System)) (t : System) : Prop where
  /-- The record is what has been changed, in order. -/
  recorded : t.applied.items.map s.place = (changes es).map some
  /-- The rest is as it was. -/
  unlisted : ∀ guid, (∀ p ∈ changes es, p.guid ≠ guid) → t.dns guid = s.dns guid
  /-- The `restore` takes the record, attempts the matching reset of each entry once, in
  order, and makes no other call. -/
  attempted : ∀ (u : System) (ws : List Fate), u.applied = t.applied →
    ∃ e parts, e.call = .takeApplied ∧ (exec handler restore ws u).events = e :: parts.flatten ∧
      List.Forall₂ Attempt t.applied.items parts
  /-- It makes no call on any other interface. -/
  others : ∀ (u : System) (ws : List Fate), u.applied = t.applied →
    ∀ e ∈ (exec handler restore ws u).events, ∀ p ∈ e.call.place e.before,
      some p ∈ t.applied.items.map u.place
  untouched : ∀ (u : System) (ws : List Fate), u.applied = t.applied →
    ∀ guid, (∀ i ∈ t.applied.items, ∀ p ∈ u.place i, p.guid ≠ guid) →
      (exec handler restore ws u).state.dns guid = u.dns guid
  /-- A later `restore` calls nobody. -/
  further : ∀ (u : System) (ws : List Fate), u.applied = t.applied →
    ∀ v, Since handler restore System.applied (exec handler restore ws u).state v →
      ∀ ws', ∀ e ∈ (exec handler restore ws' v).events, e.call.os = false

@[simp] theorem changes_append (es es' : List (CallEvent sig Fate System)) :
    changes (es ++ es') = changes es ++ changes es' := List.filterMap_append

/-- Native calls change what `setGuids` reads off them. -/
theorem changes_native {es : List (CallEvent sig Fate System)}
    (h : ∀ e ∈ es, e.call.native = true) : changes es = (setGuids es).map .native := by
  rw [changes, setGuids, List.map_filterMap]
  refine List.filterMap_congr fun ⟨c, w, s, t⟩ he => ?_
  cases c with
  | setInterfaceDnsSettings guid settings => cases w <;> rfl
  | aliasToLuid | luidToGuid => cases w <;> rfl
  | showInterfaces | run | setApplied | takeApplied => exact absurd (h _ he) (by simp [Call.native])

/-- A command line sets the name server of the place it is about, or changes
nothing. -/
theorem command_cases (s : System) (cmd : String) (args : List String) :
    (∃ arg server, Call.place s (.run cmd args) = (s.named arg).map .netsh ∧
      command s cmd args = (s.named arg).map fun guid => ("", s.setNameServer guid server)) ∨
    Call.place s (.run cmd args) = none ∧ command s cmd args = some ("", s) := by
  unfold command
  split
  · exact .inl ⟨_, _, rfl, rfl⟩
  · exact .inl ⟨_, _, rfl, rfl⟩
  · rename_i hstatic hdhcp
    refine .inr ⟨?_, rfl⟩
    unfold Call.place
    split <;> simp_all

/-- A call leaves all but its place as it was. -/
theorem handler_dns {c : Call} {w : Fate} {s : System} {guid : Nat}
    (h : ∀ p ∈ changed ⟨c, w, s, (handler c w s).2⟩, p.guid ≠ guid) :
    (handler c w s).2.dns guid = s.dns guid := by
  cases w with
  | fails cause => cases c <;> rfl
  | ok =>
    cases c with
    | setInterfaceDnsSettings g settings =>
      have hne : g ≠ guid := h (.native g) rfl
      exact Function.update_of_ne (Ne.symm hne) _ _
    | run cmd args =>
      show (Fate.ok.attempt (command s cmd args) s).2.dns guid = s.dns guid
      have hplace : ∀ p ∈ Call.place s (.run cmd args), p.guid ≠ guid := h
      rcases command_cases s cmd args with ⟨arg, server, hp, hc⟩ | ⟨_, hc⟩ <;> rw [hc]
      · rw [hp] at hplace
        cases hn : s.named arg with
        | none => rfl
        | some g =>
          rw [hn] at hplace
          exact Function.update_of_ne (Ne.symm (hplace _ rfl)) _ _
      · rfl
    | showInterfaces | setApplied | takeApplied => rfl
    | aliasToLuid name => exact congrArg (fun t => t.dns guid) (Fate.ok.attempt_same (s.luid name) s)
    | luidToGuid luid => exact congrArg (fun t => t.dns guid) (Fate.ok.attempt_same (s.guid luid) s)

/-- All but what is changed stays as it was. -/
theorem dns_frame {α : Type} (p : Prog sig α) (s : System) :
    Ends handler (fun es _ t => ∀ guid, (∀ q ∈ changes es, q.guid ≠ guid) →
      t.dns guid = s.dns guid) p s :=
  changedPlaces_frame (E := sig) (S := fun guid s t => t.dns guid = s.dns guid) Call.place
    Place.guid (fun _ _ => rfl) (fun _ _ _ _ h h' => h'.trans h) (fun _ _ _ _ => handler_dns) p s

/-- The names of the interfaces never change. -/
theorem handler_guidOf (c : Call) (w : Fate) (s : System) : (handler c w s).2.guidOf = s.guidOf := by
  cases w with
  | fails cause => cases c <;> rfl
  | ok =>
    cases c with
    | run cmd args =>
      show (Fate.ok.attempt (command s cmd args) s).2.guidOf = s.guidOf
      rcases command_cases s cmd args with ⟨arg, server, _, hc⟩ | ⟨_, hc⟩ <;> rw [hc]
      · cases s.named arg <;> rfl
      · rfl
    | aliasToLuid name => exact congrArg System.guidOf (Fate.ok.attempt_same (s.luid name) s)
    | luidToGuid luid => exact congrArg System.guidOf (Fate.ok.attempt_same (s.guid luid) s)
    | showInterfaces | setInterfaceDnsSettings | setApplied | takeApplied => rfl

theorem guidOf_keeps {α : Type} (p : Prog sig α) (s : System) :
    Safe handler (fun _ => True) (fun e => e.after.guidOf = s.guidOf) (fun _ t => t.guidOf = s.guidOf)
      p s :=
  safe_frame (I := fun t => t.guidOf = s.guidOf)
    (fun c w t _ _ ht => (handler_guidOf c w t).trans ht) (Prog.calls_any p) rfl

theorem place_congr {s t : System} (h : t.guidOf = s.guidOf) : t.place = s.place := by
  funext i
  cases i with
  | native name => exact congrArg (fun g => (g name).map Place.native) h
  | netsh name => exact congrArg (fun g => (g name).map Place.netsh) h

/-! #### What `apply` records -/

/-- `netsh` on an interface. -/
theorem place_netsh (s : System) (name server : String) :
    Call.place s (.run "netsh" (setArgs name server)) = s.place (.netsh name) :=
  congrArg (Option.map Place.netsh) (s.named_name name)

/-- The `netsh` loop changes every interface, or fails. -/
theorem setAllNetsh_changes (server : String) : ∀ (ifaces : List String) (s : System),
    Ends handler (fun es r _ => r = .ok () →
      (ifaces.map .netsh).map s.place = (changes es).map some) (setAllNetsh server ifaces) s := by
  intro ifaces
  induction ifaces with
  | nil => intro s _; rfl
  | cons name ifaces ih =>
    intro s
    have hset : Ends handler (fun es r t => t.guidOf = s.guidOf ∧ (r = .ok () →
        [s.place (.netsh name)] = (changes es).map some)) (netshSet name server) s := by
      refine ((guidOf_keeps (netshSet name server) s).ends.and ?_).post fun _ _ _ h => ⟨h.1.2, h.2⟩
      refine ends_perform.mpr fun w => ?_
      have he : handler (.run "netsh" (setArgs name server)) w s = w.attempt
          ((s.named s!"name={name}").map fun guid => ("", s.setNameServer guid server)) s := rfl
      rw [he]
      rcases w.attempt_cases ((s.named s!"name={name}").map fun guid =>
        ("", s.setNameServer guid server)) s with ⟨e, ha⟩ | ⟨_, _, rfl, hn, ha⟩ <;> rw [ha]
      · exact fun h => absurd h (by simp)
      · intro _
        obtain ⟨guid, hguid, _⟩ := Option.map_eq_some_iff.mp hn
        have hplace : s.place (.netsh name) = some (.netsh guid) :=
          congrArg (Option.map Place.netsh) ((s.named_name name).symm.trans hguid)
        have hchanged : ∀ t, changed ⟨.run "netsh" (setArgs name server), .ok, s, t⟩ =
            some (.netsh guid) := fun t => (place_netsh s name server).trans hplace
        show _ = (List.filterMap changed [_]).map some
        rw [List.filterMap_cons, hchanged, hplace]
        rfl
    refine ends_bind.mpr (hset.post fun es r t ⟨hg, ht⟩ => ?_)
    cases r with
    | error e => exact fun h => absurd h (by simp)
    | ok _ =>
      refine (ih t).post fun es' r u hu hr => ?_
      rw [place_congr hg] at hu
      rw [changes_append, List.map_append, ← ht rfl, ← hu hr]
      rfl

/-- Interfaces set natively, as the record names them. -/
theorem place_native {s : System} {names : List String} {guids : List Nat}
    (h : names.map s.guidOf = guids.map some) :
    (names.map .native).map s.place = (guids.map Place.native).map some := by
  have hplaces : (names.map .native).map s.place = (names.map s.guidOf).map (Option.map .native) := by
    rw [List.map_map, List.map_map]
    rfl
  rw [hplaces, h, List.map_map, List.map_map]
  rfl

/-- **The record is what `apply` has changed.** -/
theorem apply_recorded (proxy : IpAddr) (s : System) :
    Ends handler (fun es r t => r = .ok () → t.applied.items.map s.place = (changes es).map some)
      (apply proxy) s := by
  have hlist : Ends handler (fun es _ t => t = s ∧ changes es = []) connectedInterfaces s := by
    refine ends_perform.mpr fun w => ?_
    cases w <;> exact ⟨rfl, rfl⟩
  refine ends_bind.mpr (hlist.post fun es r t ⟨ht, hes⟩ => ?_)
  subst ht
  cases r with
  | error e => exact fun h => absurd h (by simp)
  | ok ifaces =>
    cases ifaces with
    | nil => exact fun h => absurd h (by simp)
    | cons name ifaces =>
      refine ends_bind.mpr (((setAllNative_ends proxy.text (name :: ifaces) [] t).and
        ((setAllNative_native proxy.text (name :: ifaces) []).ends t)).post ?_)
      intro es' nativeOk u ⟨⟨hu, added, hadded, hguids⟩, hnative⟩
      rw [List.nil_append] at hadded
      subst hadded
      have hes' := changes_native hnative
      have hset : ∀ (a : Applied) (w : Fate) (u v : System),
          changes [⟨.setApplied a, w, u, v⟩] = [] := fun _ w _ _ => by cases w <;> rfl
      cases nativeOk with
      | cons n ns =>
        refine ends_perform.mpr fun w _ => ?_
        show ((n :: ns).map Item.native).map t.place =
          (changes (es ++ (es' ++ [⟨.setApplied (.native (n :: ns)), w, u, _⟩]))).map some
        rw [changes_append, changes_append, hes, hes', hset, List.nil_append, List.append_nil]
        exact place_native hguids
      | nil =>
        have hnone : setGuids es' = [] := List.map_eq_nil_iff.mp hguids.symm
        rw [hnone, System.mapDns_nil] at hu
        subst hu
        refine ends_bind.mpr ((setAllNetsh_changes proxy.text (name :: ifaces) u).post ?_)
        intro es'' r v hv
        cases r with
        | error e => exact fun h => absurd h (by simp)
        | ok _ =>
          refine ends_perform.mpr fun w _ => ?_
          show ((name :: ifaces).map Item.netsh).map u.place = (changes (es ++ (es' ++ (es'' ++
            [⟨.setApplied (.netsh (name :: ifaces)), w, v, _⟩])))).map some
          rw [changes_append, changes_append, changes_append, hes, hes', hnone, hset,
            List.append_nil, hv rfl]
          rfl

/-! #### What `restore` resets -/

/-- The reset of an entry. -/
def Item.reset : Item → Prog sig (Except Error Unit)
  | .native name => clearDnsNative name
  | .netsh name => netshClear name

/-- A native reset, with the interface still to be found. -/
theorem aliasToGuid_attempt (name : String) (s : System) :
    Ends handler (fun es r t => (∀ e, r = .error e → Attempt (.native name) es) ∧
      ∀ guid, r = .ok guid → ∀ w u, t.guidOf name = some guid →
        Attempt (.native name) (es ++ [⟨.setInterfaceDnsSettings guid ⟨"", ""⟩, w, t, u⟩]))
      (aliasToGuid name) s := by
  refine ends_perform.mpr fun w => ?_
  cases hluid : (handler (.aliasToLuid name) w s).1 with
  | error e => exact ⟨fun _ _ => .unknown hluid, fun _ h => absurd h (by simp)⟩
  | ok luid =>
    refine ends_perform.mpr fun w' => ?_
    cases hguid : (handler (.luidToGuid luid) w' (handler (.aliasToLuid name) w s).2).1 with
    | error e => exact ⟨fun _ _ => .unidentified hluid hguid, fun _ h => absurd h (by simp)⟩
    | ok guid =>
      refine ⟨fun _ h => absurd h (by simp), fun guid' h w'' u hfound => ?_⟩
      obtain rfl := Except.ok.inj h
      exact .native hluid hguid hfound

/-- The reset of an entry makes the calls that match its mechanism. -/
theorem reset_attempt (i : Item) (s : System) :
    Ends handler (fun es _ _ => Attempt i es) i.reset s := by
  cases i with
  | netsh name =>
    refine ends_perform.mpr fun w => ?_
    split <;> exact .netsh
  | native name =>
    have hfound := (aliasToGuid_safe (B := fun _ => True) name s (fun _ _ => trivial)
      fun _ _ _ => trivial).ends
    refine ends_bind.mpr (((aliasToGuid_attempt name s).and hfound).post
      fun es r t ⟨⟨herror, hok⟩, _, ht, hguid⟩ => ?_)
    subst ht
    cases r with
    | error e => simpa using herror e rfl
    | ok guid =>
      refine ends_perform.mpr fun w => ?_
      split <;> exact hok guid rfl w _ (hguid guid rfl)

/-- `restore` goes through the record. -/
theorem restore_rounds (s : System) :
    Ends handler (fun es _ t => ∃ w es', es = ⟨.takeApplied, w, s, { s with applied := .none }⟩ :: es' ∧
      Rounds handler Item.reset s.applied.items { s with applied := .none } es' t) restore s := by
  refine ends_perform.mpr fun w => ?_
  have he : handler .takeApplied w s = (s.applied, { s with applied := .none }) := rfl
  rw [he]
  cases s.applied with
  | none => exact ⟨w, [], rfl, .nil _⟩
  | native names =>
    refine ends_bind.mpr ((ends_each clearDnsNative names _).post fun es _ t h => ?_)
    exact ⟨w, es, congrArg _ (List.append_nil es), h.map fun _ => rfl⟩
  | netsh names =>
    refine ends_bind.mpr ((ends_each netshClear names _).post fun es _ t h => ?_)
    exact ⟨w, es, congrArg _ (List.append_nil es), h.map fun _ => rfl⟩

/-- A reset is about its entry. -/
theorem reset_place (i : Item) (s : System) :
    Safe handler (fun _ => True) (fun e => ∀ p ∈ e.call.place e.before, s.place i = some p)
      (fun _ _ => True) i.reset s := by
  cases i with
  | netsh name =>
    refine safe_perform.mpr fun w _ => ⟨fun p hp => ?_, ?_⟩
    · exact (congrArg (Option.map Place.netsh) (s.named_name name)).symm.trans hp
    · split <;> trivial
  | native name =>
    refine safe_bind.mpr ((aliasToGuid_safe name s (fun _ _ p hp => absurd hp (by simp [Call.place]))
      fun _ _ _ p hp => absurd hp (by simp [Call.place])).post fun r t ⟨ht, hguid⟩ => ?_)
    subst ht
    cases r with
    | error e => trivial
    | ok guid =>
      refine safe_perform.mpr fun w _ => ⟨fun p hp => ?_, ?_⟩
      · rw [← Option.some.inj hp]
        exact congrArg (Option.map Place.native) (hguid guid rfl)
      · split <;> trivial

/-- **`restore` stays with the record.** -/
theorem restore_place (s : System) :
    Ends handler (fun es _ _ => ∀ e ∈ es, ∀ p ∈ e.call.place e.before,
      some p ∈ s.applied.items.map s.place) restore s := by
  refine (restore_rounds s).post fun es _ t ⟨w, es', hes, hrounds⟩ => ?_
  have hsafe := hrounds.safe (I := fun u => u.guidOf = s.guidOf)
    (B := fun e : CallEvent sig Fate System =>
      ∀ p ∈ e.call.place e.before, some p ∈ s.applied.items.map s.place)
    (fun i hi u hu => ?_) rfl
  · rw [hes]
    exact List.forall_mem_cons.mpr ⟨fun p hp => absurd hp (by simp [Call.place]), hsafe.1⟩
  · refine ((reset_place i u).and (guidOf_keeps i.reset u)).mono (fun _ h => h)
      (fun e he p hp => ?_) fun _ v hv => hv.2.trans hu
    rw [← he.1 p hp, place_congr hu]
    exact List.mem_map_of_mem hi

/-- A `restore` leaves the settings of the others. -/
theorem restore_untouched (s : System) :
    Ends handler (fun _ _ t => ∀ guid, (∀ i ∈ s.applied.items, ∀ p ∈ s.place i, p.guid ≠ guid) →
      t.dns guid = s.dns guid) restore s := by
  refine ((dns_frame restore s).and (restore_place s)).post fun es _ t ⟨hframe, hplace⟩ guid hg => ?_
  refine hframe guid fun p hp => ?_
  obtain ⟨e, he, hp⟩ := exists_of_changedPlaces hp
  obtain ⟨i, hi, hpi⟩ := List.mem_map.mp (hplace e he p hp)
  exact hg i hi p hpi

/-- **No orphan, no collateral reset.** -/
theorem apply_accounted (proxy : IpAddr) (ws : List Fate) (s : System)
    (happly : (WindowsRedirector.apply proxy ws s).1 = .ok ()) :
    Accounted s (exec handler (apply proxy) ws s).events (WindowsRedirector.apply proxy ws s).2 where
  recorded := (apply_recorded proxy s).exec ws happly
  unlisted := (dns_frame (apply proxy) s).exec ws
  attempted u ws' hu := by
    obtain ⟨w, es, hes, hrounds⟩ := (restore_rounds u).exec ws'
    obtain ⟨parts, rfl, hparts⟩ := hrounds.parts reset_attempt
    rw [hu] at hparts
    exact ⟨_, parts, rfl, hes, hparts⟩
  others u ws' hu := by
    rw [← hu]
    exact (restore_place u).exec ws'
  untouched u ws' hu := by
    rw [← hu]
    exact (restore_untouched u).exec ws'
  further u ws' _ v hv ws'' e he := by
    have hidle : ∀ ws t, System.applied (exec handler restore ws t).state = .none := fun ws t =>
      of_decide_eq_true (WindowsRedirector_records.restore ws t)
    rw [restore_idle (decide_eq_true (hv.record_eq hidle (hidle ws' u))) ws'' e he]
    rfl

end Windows

/-! ### macOS -/

namespace Macos

/-- What an entry of the record stands for: a path of the dynamic store, or the
servers of a service. -/
inductive Place where
  | path (path : String)
  | service (svc : String)
  deriving DecidableEq

/-- What a call changes when it goes through. -/
def Call.place : Call → Option Place
  | .setRaw path _ | .removeKey path => some (.path path)
  | .run "networksetup" ("-setdnsservers" :: svc :: _) => some (.service svc)
  | _ => none

/-- What a call has changed. -/
def changed (e : CallEvent sig Fate System) : Option Place :=
  changedPlace (E := sig) (fun _ c => Call.place c) e

/-- What a run has changed, in order. -/
def changes (es : List (CallEvent sig Fate System)) : List Place :=
  changedPlaces (E := sig) (fun _ c => Call.place c) es

/-- A place is as it was. -/
def Same : Place → System → System → Prop
  | .path path, s, t => t.store path = s.store path
  | .service svc, s, t => t.dns svc = s.dns svc

/-- What an entry of the record stands for. -/
def Item.place : Item → Place
  | .path p => .path p
  | .service svc _ => .service svc

/-- How a `restore` begins. -/
def Applied.opening : Applied → List Call
  | .native _ => [.takeApplied, .createStore]
  | .none | .shell _ => [.takeApplied]

/-- A call of the operating system, not a field of the redirector. -/
def Call.os : Call → Bool
  | .setApplied _ | .takeApplied => false
  | _ => true

/-- **The record accounts for an `apply`** whose calls were `es`, from `s` to `t`. -/
structure Accounted (s : System) (es : List (CallEvent sig Fate System)) (t : System) : Prop where
  /-- The record is what has been changed, in order. -/
  recorded : t.applied.items.map Item.place = changes es
  /-- The rest is as it was. -/
  unlisted : ∀ p, p ∉ changes es → Same p s t
  /-- The `restore` attempts the matching reset of each entry once, in order, if the
  session with the store opens. -/
  attempted : ∀ (u : System) (ws : List Fate), u.applied = t.applied →
    (∀ e ∈ (exec handler restore ws u).events, e.call = .createStore → e.choice = .ok) →
      (exec handler restore ws u).events.map CallEvent.call =
        t.applied.opening ++ t.applied.items.map Item.reset
  /-- It makes no call on any other path or service. -/
  others : ∀ (u : System) (ws : List Fate), u.applied = t.applied →
    ∀ e ∈ (exec handler restore ws u).events, ∀ p ∈ Call.place e.call,
      p ∈ t.applied.items.map Item.place
  untouched : ∀ (u : System) (ws : List Fate), u.applied = t.applied →
    ∀ p, p ∉ t.applied.items.map Item.place → Same p u (exec handler restore ws u).state
  /-- A later `restore` calls nobody. -/
  further : ∀ (u : System) (ws : List Fate), u.applied = t.applied →
    ∀ v, Since handler restore System.applied (exec handler restore ws u).state v →
      ∀ ws', ∀ e ∈ (exec handler restore ws' v).events, e.call.os = false

@[simp] theorem changes_append (es es' : List (CallEvent sig Fate System)) :
    changes (es ++ es') = changes es ++ changes es' := List.filterMap_append

theorem changes_eq_nil {es : List (CallEvent sig Fate System)}
    (h : ∀ e ∈ es, Call.place e.call = none) : changes es = [] := by
  refine List.filterMap_eq_nil_iff.mpr fun e he => ?_
  show (if e.choice = .ok then Call.place e.call else none) = none
  rw [h e he, ite_self]

/-- A call leaves all but its place as it was. -/
theorem handler_same {c : Call} {w : Fate} {s : System} {p : Place}
    (h : p ∉ changed ⟨c, w, s, (handler c w s).2⟩) : Same p s (handler c w s).2 := by
  cases w with
  | fails cause => cases c <;> cases p <;> rfl
  | ok =>
    have hplace : Call.place c ≠ some p := h
    cases c with
    | setRaw path value =>
      cases p with
      | path q => exact Function.update_of_ne (fun he => hplace (by rw [he]; rfl)) _ _
      | service svc => rfl
    | removeKey path =>
      cases p with
      | path q => exact Function.update_of_ne (fun he => hplace (by rw [he]; rfl)) _ _
      | service svc => rfl
    | run cmd args =>
      show Same p s (command s cmd args).2
      unfold command
      split
      · cases p <;> rfl
      · cases p <;> rfl
      · cases p with
        | path q => rfl
        | service q =>
          exact Function.update_of_ne (fun he => hplace (by rw [he]; rfl)) _ _
      · cases p <;> rfl
    | createStore | getKeys | setApplied | takeApplied => cases p <;> rfl

/-- All but what is changed stays as it was. -/
theorem same_frame {α : Type} (p : Prog sig α) (s : System) :
    Ends handler (fun es _ t => ∀ q, q ∉ changes es → Same q s t) p s := by
  have hframe := changedPlaces_frame (E := sig) (H := handler) (S := Same) (fun _ c => Call.place c)
    id (fun q s => by cases q <;> rfl) (fun q _ _ _ h h' => by cases q <;> exact h'.trans h)
    (fun _ _ _ _ h => handler_same fun hin => h _ hin rfl) p s
  exact hframe.post fun es _ t h q hq => h q fun r hr he => hq (he ▸ hr)

/-! #### What `apply` records -/

/-- The loop of `apply_native` returns what it has changed. -/
theorem setAll_changes (proxy : IpAddr) : ∀ (keys applied : List String) (s : System),
    Ends handler (fun es out _ => out.map Place.path = applied.map .path ++ changes es)
      (setAll proxy keys applied) s := by
  intro keys
  induction keys with
  | nil => intro applied s; exact (List.append_nil _).symm
  | cons k keys ih =>
    intro applied s
    refine ends_perform.mpr fun w => ?_
    cases w with
    | fails cause => exact ih applied s
    | ok =>
      refine (ih (applied ++ [statePath k]) _).post fun es out t ho => ?_
      rw [ho, List.map_append, List.append_assoc]
      rfl

theorem applyNative_changes (proxy : IpAddr) (s : System) :
    Ends handler (fun es r _ => (∀ paths, r = .ok paths → paths.map .path = changes es) ∧
      ∀ e, r = .error e → changes es = []) (applyNative proxy) s := by
  refine ends_perform.mpr fun w => ?_
  cases w with
  | fails cause => exact ⟨fun _ h => absurd h (by simp), fun _ _ => rfl⟩
  | ok =>
    refine ends_perform.mpr fun w => ?_
    cases w with
    | fails cause => exact ⟨fun _ h => absurd h (by simp), fun _ _ => rfl⟩
    | ok =>
      refine ends_bind.mpr ((setAll_changes proxy s.setupKeys [] s).post fun es out t ho => ?_)
      have hes : changes (⟨.createStore, .ok, s, s⟩ :: ⟨.getKeys servicePattern, .ok, s, s⟩ ::
          (es ++ [])) = out.map .path := by
        rw [List.append_nil, ho]
        rfl
      cases out with
      | nil => exact ⟨fun _ h => absurd h (by simp), fun _ _ => hes⟩
      | cons path paths =>
        refine ⟨fun out h => ?_, fun _ h => absurd h (by simp)⟩
        rw [← Except.ok.inj h]
        exact hes.symm

/-- The loop of `apply_shell` saves what it has changed. -/
theorem redirectAll_changes (proxy : IpAddr) :
    ∀ (services : List String) (saved : List (String × List String)) (s : System),
      Ends handler (fun es r _ => ∀ out, r = .ok out →
        out.map (fun v => Place.service v.1) = saved.map (fun v => .service v.1) ++ changes es)
        (redirectAll proxy services saved) s := by
  intro services
  induction services with
  | nil => intro saved s out h; rw [← Except.ok.inj h]; exact (List.append_nil _).symm
  | cons svc services ih =>
    intro saved s
    have hdns : Ends handler (fun es _ _ => changes es = []) (currentDns svc) s := by
      refine ends_perform.mpr fun w => ?_
      cases w <;> rfl
    refine ends_bind.mpr (hdns.post fun es prev t hes => ends_perform.mpr fun w => ?_)
    cases w with
    | fails cause => exact fun _ h => absurd h (by simp)
    | ok =>
      refine (ih (saved ++ [(svc, prev.getD [])]) _).post fun es' r u hu out hout => ?_
      rw [hu out hout, changes_append, hes, List.nil_append, List.map_append, List.append_assoc]
      rfl

/-- **The record is what `apply` has changed.** -/
theorem apply_recorded (proxy : IpAddr) (s : System) :
    Ends handler (fun es r t => r = .ok () → t.applied.items.map Item.place = changes es)
      (apply proxy) s := by
  -- what follows either mechanism changes nothing but the record
  have hfinish : ∀ (a : Applied) (t : System),
      Ends handler (fun es _ u => changes es = [] ∧ u.applied = a)
        (do setApplied a; let _ ← flushCache; return .ok () : Prog sig (Except Error Unit)) t := by
    intro a t
    have hcalls : flushCache.Calls fun c : Call => c.place = none :=
      Prog.calls_perform.mpr ⟨rfl, fun _ => Prog.calls_perform.mpr ⟨rfl, fun _ => trivial⟩⟩
    refine ends_perform.mpr fun w => ends_bind.mpr ?_
    refine (((flushCache_same _).ends).and (hcalls.ends _)).post fun es r u ⟨hu, hnone⟩ => ?_
    refine ⟨changes_eq_nil ?_, by rw [hu.2]; rfl⟩
    rw [List.append_nil]
    exact List.forall_mem_cons.mpr ⟨rfl, hnone⟩
  refine ends_bind.mpr ((applyNative_changes proxy s).post fun es r t ⟨hok, herr⟩ => ?_)
  cases r with
  | ok paths =>
    refine (hfinish _ _).post fun es' r u ⟨hes, hu⟩ _ => ?_
    rw [hu, changes_append, hes, List.append_nil, ← hok paths rfl, Applied.items, List.map_map]
    rfl
  | error e =>
    have hshell : Ends handler (fun es r _ => ∀ saved, r = .ok saved →
        saved.map (fun v => Place.service v.1) = changes es) (applyShell proxy) t := by
      have hlist : Ends handler (fun es _ _ => changes es = []) networkServices t := by
        refine ends_perform.mpr fun w => ?_
        cases w <;> rfl
      refine ends_bind.mpr (hlist.post fun es r u hes => ?_)
      cases r with
      | error e => exact fun _ h => absurd h (by simp)
      | ok services =>
        cases services with
        | nil => exact fun _ h => absurd h (by simp)
        | cons svc services =>
          refine (redirectAll_changes proxy (svc :: services) [] u).post fun es' r v hv saved hs => ?_
          rw [changes_append, hes]
          exact hv saved hs
    refine ends_bind.mpr (hshell.post fun es' r u hu => ?_)
    cases r with
    | error e => exact fun h => absurd h (by simp)
    | ok saved =>
      refine (hfinish (.shell saved) _).post fun es'' r v ⟨hes, hv⟩ _ => ?_
      rw [hv, changes_append, changes_append, herr e rfl, hes, List.append_nil, List.nil_append,
        ← hu saved rfl, Applied.items, List.map_map]
      rfl

/-! #### What `restore` resets -/

/-- `restore` goes through the record, if the session opens; if not, it stops there. -/
theorem restore_calls (s : System) :
    Ends handler (fun es _ _ =>
      ((∀ e ∈ es, e.call = .createStore → e.choice = .ok) →
        es.map CallEvent.call = s.applied.opening ++ s.applied.items.map Item.reset) ∧
      es.map CallEvent.call <+: s.applied.opening ++ s.applied.items.map Item.reset) restore s := by
  have hall : ∀ {P : Prop} {calls calls' : List Call}, calls = calls' →
      (P → calls = calls') ∧ calls <+: calls' := fun h => ⟨fun _ => h, h ▸ List.prefix_rfl⟩
  refine ends_perform.mpr fun w => ?_
  have he : handler .takeApplied w s = (s.applied, { s with applied := .none }) := rfl
  rw [he]
  cases s.applied with
  | none => exact hall rfl
  | shell saved =>
    refine ends_bind.mpr ((ends_each _ saved _).post fun es _ t h => hall ?_)
    have hcalls := h.calls (c := fun v => Call.run "networksetup" (restoreArgs v.1 v.2))
      fun _ _ _ => rfl
    rw [List.append_nil, List.map_cons, hcalls, Applied.items, List.map_map]
    rfl
  | native paths =>
    refine ends_perform.mpr fun w => ?_
    cases w with
    | fails cause =>
      refine ⟨fun h => ?_, List.prefix_append _ _⟩
      exact absurd (h _ (List.mem_cons_of_mem _ List.mem_cons_self) rfl) (by simp)
    | ok =>
      refine ends_bind.mpr ((ends_each removeKey paths _).post fun es _ t h => hall ?_)
      have hcalls := h.calls (c := Call.removeKey) fun _ _ _ => rfl
      rw [List.append_nil, List.map_cons, List.map_cons, hcalls, Applied.items, List.map_map]
      rfl

/-- **`restore` stays with the record.** -/
theorem restore_place (s : System) :
    Ends handler (fun es _ _ => ∀ e ∈ es, ∀ p ∈ Call.place e.call,
      p ∈ s.applied.items.map Item.place) restore s := by
  refine (restore_calls s).post fun es _ _ ⟨_, hpre⟩ e he p hp => ?_
  have hreset : ∀ i : Item, Call.place i.reset = some i.place := fun i => by cases i <;> rfl
  rcases List.mem_append.mp (hpre.subset (List.mem_map_of_mem he)) with hc | hc
  · have hnone : ∀ c ∈ s.applied.opening, Call.place c = none := by
      cases s.applied <;> simp [Applied.opening, Call.place]
    exact absurd ((hnone _ hc).symm.trans hp) (by simp)
  · obtain ⟨i, hi, hc⟩ := List.mem_map.mp hc
    rw [← hc, hreset] at hp
    rw [← Option.some.inj hp]
    exact List.mem_map_of_mem hi

/-- A `restore` leaves the others as they were. -/
theorem restore_untouched (s : System) :
    Ends handler (fun _ _ t => ∀ p, p ∉ s.applied.items.map Item.place → Same p s t) restore s := by
  refine ((same_frame restore s).and (restore_place s)).post fun es _ t ⟨hframe, hplace⟩ p hp => ?_
  refine hframe p fun hin => hp ?_
  obtain ⟨e, he, hp⟩ := exists_of_changedPlaces hin
  exact hplace e he p hp

/-- **No orphan, no collateral reset.** -/
theorem apply_accounted (proxy : IpAddr) (ws : List Fate) (s : System)
    (happly : (MacosRedirector.apply proxy ws s).1 = .ok ()) :
    Accounted s (exec handler (apply proxy) ws s).events (MacosRedirector.apply proxy ws s).2 where
  recorded := (apply_recorded proxy s).exec ws happly
  unlisted := (same_frame (apply proxy) s).exec ws
  attempted u ws' hu := by
    rw [← hu]
    exact ((restore_calls u).exec ws').1
  others u ws' hu := by
    rw [← hu]
    exact (restore_place u).exec ws'
  untouched u ws' hu := by
    rw [← hu]
    exact (restore_untouched u).exec ws'
  further u ws' _ v hv ws'' e he := by
    have hidle : ∀ ws t, System.applied (exec handler restore ws t).state = .none := fun ws t =>
      of_decide_eq_true (MacosRedirector_records.restore ws t)
    rw [restore_idle (decide_eq_true (hv.record_eq hidle (hidle ws' u))) ws'' e he]
    rfl

end Macos

/-! ### Both -/

/-- **What is changed is recorded, and what is recorded is reset once.** -/
theorem resets_accounted (proxy : IpAddr) (ws : List Fate) :
    (∀ s : Windows.System, (WindowsRedirector.apply proxy ws s).1 = .ok () →
      Windows.Accounted s (exec Windows.handler (Windows.apply proxy) ws s).events
        (WindowsRedirector.apply proxy ws s).2) ∧
    (∀ s : Macos.System, (MacosRedirector.apply proxy ws s).1 = .ok () →
      Macos.Accounted s (exec Macos.handler (Macos.apply proxy) ws s).events
        (MacosRedirector.apply proxy ws s).2) :=
  ⟨Windows.apply_accounted proxy ws, Macos.apply_accounted proxy ws⟩

/-- The native call on Ethernet, or the second path, fails; the rest goes through. -/
theorem resets_accounted_partly :
    let ws : List Fate := [.ok, .ok, .ok, .fails "5"]
    Windows.Accounted Windows.twoInterfaces
        (exec Windows.handler (Windows.apply .localhost) ws Windows.twoInterfaces).events
        (WindowsRedirector.apply .localhost ws Windows.twoInterfaces).2 ∧
      Macos.Accounted Macos.twoKeys
        (exec Macos.handler (Macos.apply .localhost) ws Macos.twoKeys).events
        (MacosRedirector.apply .localhost ws Macos.twoKeys).2 :=
  have h := resets_accounted .localhost [.ok, .ok, .ok, .fails "5"]
  ⟨h.1 _ (by decide +kernel), h.2 _ (by decide +kernel)⟩

end Voidns
