import Voidns.Base.Printed
import Voidns.Redirect.Macos

/-!
# What `networksetup` is told and what it tells

The fallback on macOS reads the servers of a service from the text of
`-getdnsservers` and writes them back as arguments of `-setdnsservers`.
Addresses go both ways unchanged (`parseDnsServers_print`, `setTo_restoreArgs`),
and so does "none".

With that, `apply_snapshots` says that an `apply` over services with their own
servers either records just these, or fails with nothing changed, and
`restore_undoes` that `restore` puts them back, for as long as the commands that
fail are ones whose failure does no harm (`Careful`).
-/

namespace Voidns.Macos

open Effect Text

/-! ### Text -/

theorem contains_none (svc : String) : contains (printDnsServers svc []).toList
    "aren't any DNS Servers".toList = true := by
  refine decide_eq_true ⟨"There ".toList, " set on ".toList ++ svc.toList ++ ".\n".toList, ?_⟩
  have hsplit : "There aren't any DNS Servers set on ".toList =
      "There ".toList ++ "aren't any DNS Servers".toList ++ " set on ".toList := by decide
  show _ = ("There aren't any DNS Servers set on " ++ svc ++ ".\n").toList
  rw [String.toList_append, String.toList_append, hsplit]
  simp only [List.append_assoc]

theorem printDnsServers_toList (svc : String) {servers : List String} (h : servers ≠ []) :
    (printDnsServers svc servers).toList = (servers.map String.toList).flatMap (· ++ ['\n']) := by
  have hne : servers.isEmpty = false := by simpa using h
  rw [printDnsServers, hne]
  simp only [Bool.false_eq_true, if_false, String.toList_join, List.flatMap_map]
  refine List.flatMap_congr fun server _ => ?_
  rw [String.toList_append]
  rfl

/-- **`-getdnsservers` is read back.** -/
theorem parseDnsServers_print (svc : String) {servers : List String}
    (h : ∀ server ∈ servers, isIpAddr server.toList = true) :
    Parse.parseDnsServers (printDnsServers svc servers) = servers := by
  by_cases hne : servers = []
  · rw [hne, Parse.parseDnsServers, if_pos (contains_none svc)]
  · have hplain : ∀ l ∈ servers.map String.toList, ∀ c ∈ l, Plain c := by
      intro l hl
      obtain ⟨server, hs, rfl⟩ := List.mem_map.mp hl
      exact plain_of_isIpAddr (h server hs)
    have hcontains : contains (printDnsServers svc servers).toList
        "aren't any DNS Servers".toList = false := by
      refine decide_eq_false fun hin => ?_
      rw [printDnsServers_toList svc hne] at hin
      have hq : '\'' ∈ (servers.map String.toList).flatMap (· ++ ['\n']) :=
        hin.subset (by decide)
      obtain ⟨l, hl, hc⟩ := List.mem_flatMap.mp hq
      rcases List.mem_append.mp hc with hc | hc
      · exact (hplain l hl _ hc).2 rfl
      · exact absurd hc (by decide)
    rw [Parse.parseDnsServers, hcontains, printDnsServers_toList svc hne, lines_flatMap hplain]
    have htrim : (servers.map String.toList).map trim = servers.map String.toList :=
      List.map_congr_left (fun l hl => trim_eq (trimmed_plain (hplain l hl))) |>.trans (List.map_id _)
    have hfilter : (servers.map String.toList).filter isIpAddr = servers.map String.toList := by
      refine List.filter_eq_self.mpr fun l hl => ?_
      obtain ⟨server, hs, rfl⟩ := List.mem_map.mp hl
      exact h server hs
    rw [if_neg (by simp), htrim, hfilter, List.map_map]
    simp

/-- **`-setdnsservers` is told them back**, and `Empty` when there were none. -/
theorem setTo_restoreArgs {servers : List String}
    (h : ∀ server ∈ servers, isIpAddr server.toList = true) :
    setTo (if servers.isEmpty then ["Empty"] else servers) = servers := by
  cases servers with
  | nil => rfl
  | cons server servers =>
    have hne : server :: servers ≠ ["Empty"] := by
      intro he
      have hs := h server List.mem_cons_self
      rw [(List.cons.inj he).1] at hs
      exact absurd hs (by decide)
    exact if_neg hne

/-! ### Snapshots -/

/-- The service a command reads. -/
def Call.gets : Call → Option String
  | .run "networksetup" ["-getdnsservers", svc] => some svc
  | _ => none

/-- The service a command sets. -/
def Call.sets : Call → Option String
  | .run "networksetup" ("-setdnsservers" :: svc :: _) => some svc
  | _ => none

def Call.setsKey : Call → Bool
  | .setRaw .. => true
  | _ => false

/-- The dynamic store is out of reach, a service whose servers cannot be read
has none, and a service that cannot be set is one where that does no harm. -/
structure Careful (harmless : String → System → Prop) (ev : CallEvent sig Fate System) : Prop where
  store : ev.call.setsKey = true → ev.choice ≠ .ok
  gets : ∀ svc ∈ ev.call.gets, ev.choice = .ok ∨ ev.before.dns svc = []
  sets : ∀ svc ∈ ev.call.sets, ev.choice = .ok ∨ harmless svc ev.before

/-- Nothing is redirected: every service has its own servers. -/
structure Original (orig : String → List String) (services : List String) (s : System) : Prop where
  listing : Parse.parseNetworkServices s.listing = services
  applied : s.applied = .none
  dns : s.dns = orig

/-- Everything is redirected, and the record says what to put back. -/
structure Snapshot (orig : String → List String) (services : List String) (s : System) : Prop where
  listing : Parse.parseNetworkServices s.listing = services
  applied : s.applied = .shell (services.map fun svc => (svc, orig svc))
  others : ∀ svc, svc ∉ services → s.dns svc = orig svc

variable {orig : String → List String} {services : List String}
  {harmless : String → System → Prop}

/-- With the store out of reach, `apply_native` fails and does nothing. -/
theorem applyNative_unavailable (proxy : IpAddr) (s : System) :
    Safe handler (Careful harmless) (fun _ => True) (fun r t => t = s ∧ ∃ e, r = .error e)
      (applyNative proxy) s := by
  have hset : ∀ keys : List String, Safe handler (Careful harmless) (fun _ => True)
      (fun applied t => t = s ∧ applied = []) (setAll proxy keys []) s := by
    intro keys
    induction keys with
    | nil => exact ⟨rfl, rfl⟩
    | cons k keys ih =>
      refine safe_perform.mpr fun w hA => ⟨trivial, ?_⟩
      cases w with
      | ok => exact absurd rfl (hA.store rfl)
      | fails cause => exact ih
  refine safe_perform.mpr fun w _ => ⟨trivial, ?_⟩
  cases w with
  | fails cause => exact ⟨rfl, _, rfl⟩
  | ok =>
    refine safe_perform.mpr fun w _ => ⟨trivial, ?_⟩
    cases w with
    | fails cause => exact ⟨rfl, _, rfl⟩
    | ok =>
      refine safe_bind.mpr ((hset s.setupKeys).post fun applied t ⟨ht, ha⟩ => ?_)
      subst ha
      exact ⟨ht, _, rfl⟩

/-- The loop of `apply_shell`, with `done` redirected and snapshotted already. -/
theorem redirectAll_snapshots (proxy : IpAddr)
    (hv : ∀ svc, ∀ server ∈ orig svc, isIpAddr server.toList = true) :
    ∀ (rest done : List String) {s : System}, (done ++ rest).Nodup → done ++ rest = services →
      Parse.parseNetworkServices s.listing = services → s.applied = .none →
      (∀ svc, svc ∉ done → s.dns svc = orig svc) →
      Safe handler (Careful fun _ t => ∀ svc ∈ services, t.dns svc = orig svc) (fun _ => True)
        (fun r t => Parse.parseNetworkServices t.listing = services ∧
          (∀ saved, r = .ok saved → saved = services.map (fun svc => (svc, orig svc)) ∧
            ∀ svc, svc ∉ services → t.dns svc = orig svc) ∧
          ∀ e, r = .error e → Original orig services t)
        (redirectAll proxy rest (done.map fun svc => (svc, orig svc))) s := by
  intro rest
  induction rest with
  | nil =>
    intro done s _ hs hl _ hd
    rw [List.append_nil] at hs
    subst hs
    exact ⟨hl, fun saved h => ⟨(Except.ok.inj h).symm, hd⟩, fun _ h => absurd h (by simp)⟩
  | cons svc rest ih =>
    intro done s hn hs hl ha hd
    have hnot : svc ∉ done := fun hm =>
      (List.nodup_append.mp hn).2.2 svc hm svc List.mem_cons_self rfl
    have hdns : Safe handler (Careful fun _ t => ∀ svc ∈ services, t.dns svc = orig svc)
        (fun _ => True) (fun r t => t = s ∧ r.getD [] = orig svc) (currentDns svc) s := by
      refine safe_perform.mpr fun w hA => ⟨trivial, ?_⟩
      cases w with
      | ok =>
        refine ⟨rfl, ?_⟩
        show Parse.parseDnsServers (printDnsServers svc (s.dns svc)) = orig svc
        rw [hd svc hnot, parseDnsServers_print svc (hv svc)]
      | fails cause =>
        rcases hA.gets svc rfl with h | h
        · exact absurd h (by simp)
        · exact ⟨rfl, (h.symm.trans (hd svc hnot)).symm ▸ rfl⟩
    refine safe_bind.mpr (hdns.post fun prev t ⟨ht, hprev⟩ => ?_)
    subst ht
    rw [hprev]
    refine safe_perform.mpr fun w hA => ⟨trivial, ?_⟩
    cases w with
    | fails cause =>
      refine ⟨hl, fun _ h => absurd h (by simp), fun _ _ => ⟨hl, ha, funext fun other => ?_⟩⟩
      rcases hA.sets svc rfl with h | h
      · exact absurd h (by simp)
      · by_cases hm : other ∈ services
        · exact h other hm
        · refine hd other fun hdone => hm ?_
          rw [← hs]
          exact List.mem_append.mpr (.inl hdone)
    | ok =>
      have hsaved : (done.map fun svc => (svc, orig svc)) ++ [(svc, orig svc)] =
          (done ++ [svc]).map fun svc => (svc, orig svc) := by rw [List.map_append]; rfl
      show Safe _ _ _ _ (redirectAll proxy rest
        ((done.map fun svc => (svc, orig svc)) ++ [(svc, orig svc)])) _
      rw [hsaved]
      refine ih (done ++ [svc]) ?_ ?_ hl ha fun other hother => ?_
      · rw [List.append_assoc]; exact hn
      · rw [List.append_assoc]; exact hs
      · have hne : other ≠ svc := fun h => hother (List.mem_append.mpr (.inr (by simp [h])))
        show Function.update t.dns svc (setTo [proxy.text]) other = orig other
        rw [Function.update_of_ne hne]
        exact hd other fun h => hother (List.mem_append.mpr (.inl h))

/-- **An `apply` records what it replaced**, or fails and has replaced nothing. -/
theorem apply_snapshots (proxy : IpAddr)
    (hv : ∀ svc, ∀ server ∈ orig svc, isIpAddr server.toList = true) (hn : services.Nodup)
    {s : System} (h : Original orig services s) :
    Safe handler (Careful fun _ t => ∀ svc ∈ services, t.dns svc = orig svc) (fun _ => True)
      (fun r t => (r = .ok () → Snapshot orig services t) ∧
        ∀ e, r = .error e → Original orig services t) (apply proxy) s := by
  refine safe_bind.mpr ((applyNative_unavailable proxy s).post fun r t ⟨ht, e, hr⟩ => ?_)
  subst ht hr
  have hlist : Safe handler (Careful fun _ t => ∀ svc ∈ services, t.dns svc = orig svc)
      (fun _ => True) (fun r u => u = t ∧ ∀ names, r = .ok names → names = services)
      networkServices t := by
    refine safe_perform.mpr fun w _ => ⟨trivial, ?_⟩
    cases w with
    | ok => exact ⟨rfl, fun names hr => (Except.ok.inj hr).symm.trans h.listing⟩
    | fails cause => exact ⟨rfl, fun _ hr => absurd hr (by simp)⟩
  have hshell : Safe handler (Careful fun _ t => ∀ svc ∈ services, t.dns svc = orig svc)
      (fun _ => True)
      (fun r u => Parse.parseNetworkServices u.listing = services ∧
        (∀ saved, r = .ok saved → saved = services.map (fun svc => (svc, orig svc)) ∧
          ∀ svc, svc ∉ services → u.dns svc = orig svc) ∧
        ∀ e, r = .error e → Original orig services u) (applyShell proxy) t := by
    refine safe_bind.mpr (hlist.post fun r u ⟨hu, hr⟩ => ?_)
    subst hu
    cases r with
    | error e => exact ⟨h.listing, fun _ he => absurd he (by simp), fun _ _ => h⟩
    | ok names =>
      obtain rfl := hr names rfl
      cases names with
      | nil => exact ⟨h.listing, fun _ he => absurd he (by simp), fun _ _ => h⟩
      | cons svc names =>
        exact redirectAll_snapshots proxy hv (svc :: names) [] hn rfl h.listing h.applied
          fun other _ => congrFun h.dns other
  refine safe_bind.mpr (hshell.post fun r u ⟨hl, hok, herr⟩ => ?_)
  cases r with
  | error e => exact ⟨fun he => absurd he (by simp), fun _ _ => herr e rfl⟩
  | ok saved =>
    obtain ⟨rfl, hothers⟩ := hok saved rfl
    refine safe_perform.mpr fun w _ => ⟨trivial, safe_bind.mpr ?_⟩
    refine Safe.mono (fun _ _ => trivial) (fun _ _ => trivial) (fun r v hv' => ?_)
      (flushCache_same _)
    subst hv'
    exact ⟨fun _ => ⟨hl, rfl, hothers⟩, fun _ he => absurd he (by simp)⟩

/-- **A `restore` puts it back.** -/
theorem restore_undoes (hv : ∀ svc, ∀ server ∈ orig svc, isIpAddr server.toList = true)
    {s : System} (h : Snapshot orig services s ∨ Original orig services s) :
    Safe handler (Careful fun svc t => t.dns svc = orig svc) (fun _ => True)
      (fun _ t => Original orig services t) restore s := by
  have hloop : ∀ (rest : List String) {s : System}, Parse.parseNetworkServices s.listing = services →
      s.applied = .none → (∀ svc, svc ∉ rest → s.dns svc = orig svc) →
      Safe handler (Careful fun svc t => t.dns svc = orig svc) (fun _ => True)
        (fun _ t => Original orig services t)
        (restoreShell (rest.map fun svc => (svc, orig svc))) s := by
    intro rest
    induction rest with
    | nil => intro s hl ha hd; exact ⟨hl, ha, funext fun svc => hd svc (by simp)⟩
    | cons svc rest ih =>
      intro s hl ha hd
      refine safe_perform.mpr fun w hA => ⟨trivial, ?_⟩
      have hrest : ∀ other, other ≠ svc → other ∉ rest → s.dns other = orig other := by
        intro other hne hnot
        exact hd other fun hm => by
          rcases List.mem_cons.mp hm with h | h
          · exact hne h
          · exact hnot h
      cases w with
      | fails cause =>
        refine ih hl ha fun other hnot => ?_
        by_cases hne : other = svc
        · subst hne
          rcases hA.sets other rfl with h | h
          · exact absurd h (by simp)
          · exact h
        · exact hrest other hne hnot
      | ok =>
        refine ih hl ha fun other hnot => ?_
        show Function.update s.dns svc
          (setTo (if (orig svc).isEmpty then ["Empty"] else orig svc)) other = orig other
        by_cases hne : other = svc
        · subst hne
          rw [Function.update_self, setTo_restoreArgs (hv other)]
        · rw [Function.update_of_ne hne]
          exact hrest other hne hnot
  refine safe_perform.mpr fun w _ => ⟨trivial, ?_⟩
  have he : handler .takeApplied w s = (s.applied, { s with applied := .none }) := rfl
  rw [he]
  rcases h with h | h
  · rw [h.applied]
    exact safe_bind.mpr (Safe.post (fun _ t ht => ht)
      (hloop services (s := { s with applied := .none }) h.listing rfl h.others))
  · rw [h.applied]
    exact ⟨h.listing, rfl, h.dns⟩

end Voidns.Macos
