import Voidns.Base.Printed
import Voidns.Redirect.Macos

/-!
# What the parsers read back

Each parser of `redirect/parse.rs` against the text of the tool it is for: what the
tool has to say is given, with any way it may print it, and the parser's answer is
compared with that.

* `parseDefaultRouteIface_iff`: the search for the default route is complete unless
  a line with fewer than two columns stands above it.
* `parseNetshInterfaces_iff`: the connected interfaces come out under their own
  names exactly when these have no white space but single blanks in them.
* `parseNetworkServices_eq`: so do the services whose names do not begin with an
  asterisk.
* `parseDnsServers_eq`: the servers that were set, or none.
-/

namespace Voidns.Parse

open Text

/-! ### `/proc/net/route` -/

/-- The lines below the header. -/
def dataLines (table : String) : List (List Char) := (lines table.toList).drop 1

/-- The interface on a line, if it is a default route's. -/
def routeOf (line : List Char) : Option String :=
  match splitWhitespace line with
  | iface :: dest :: _ => if dest = "00000000".toList then some (String.ofList iface) else none
  | _ => none

/-- If there is a default route, no line above the first one is short. -/
def NoShortLine (data : List (List Char)) : Prop :=
  (∃ line ∈ data, (routeOf line).isSome) →
    ∀ line ∈ data.takeWhile (fun line => (routeOf line).isNone), 2 ≤ (splitWhitespace line).length

theorem defaultRouteIfaceOf_short {line : List Char} (rest : List (List Char))
    (h : (splitWhitespace line).length < 2) : defaultRouteIfaceOf (line :: rest) = none := by
  rw [defaultRouteIfaceOf]
  split
  · rename_i hwords
    rw [hwords] at h
    exact absurd h (by simp)
  · rfl

theorem routeOf_short {line : List Char} (h : (splitWhitespace line).length < 2) :
    routeOf line = none := by
  rw [routeOf]
  split
  · rename_i hwords
    rw [hwords] at h
    exact absurd h (by simp)
  · rfl

theorem defaultRouteIfaceOf_cons {line : List Char} (rest : List (List Char))
    (h : 2 ≤ (splitWhitespace line).length) :
    defaultRouteIfaceOf (line :: rest) = (routeOf line).or (defaultRouteIfaceOf rest) := by
  rcases hwords : splitWhitespace line with _ | ⟨iface, _ | ⟨dest, more⟩⟩
  · rw [hwords] at h
    exact absurd h (by simp)
  · rw [hwords] at h
    exact absurd h (by simp)
  · simp only [defaultRouteIfaceOf, routeOf, hwords]
    split <;> rfl

theorem noShortLine_of_route {line : List Char} (rest : List (List Char))
    (h : (routeOf line).isSome) : NoShortLine (line :: rest) := by
  intro _ l hl
  rw [List.takeWhile_cons_of_neg (by simpa using Option.ne_none_iff_isSome.mpr h)] at hl
  exact absurd hl (by simp)

theorem noShortLine_cons {line : List Char} (rest : List (List Char)) (h : routeOf line = none)
    (hlong : 2 ≤ (splitWhitespace line).length) : NoShortLine (line :: rest) ↔ NoShortLine rest := by
  have htake : (line :: rest).takeWhile (fun l => (routeOf l).isNone) =
      line :: rest.takeWhile fun l => (routeOf l).isNone :=
    List.takeWhile_cons_of_pos (by rw [h]; rfl)
  simp only [NoShortLine, htake, List.exists_mem_cons_iff, List.forall_mem_cons, h]
  simp [hlong]

theorem noShortLine_short {line : List Char} (rest : List (List Char))
    (h : (splitWhitespace line).length < 2) :
    NoShortLine (line :: rest) ↔ ∀ l ∈ rest, routeOf l = none := by
  have hnone := routeOf_short h
  constructor
  · intro hshort l hl
    by_contra hroute
    refine absurd (hshort ⟨l, List.mem_cons_of_mem _ hl, Option.ne_none_iff_isSome.mp hroute⟩ line ?_)
      (by omega)
    rw [List.takeWhile_cons_of_pos (by rw [hnone]; rfl)]
    exact List.mem_cons_self
  · rintro hall ⟨l, hl, hroute⟩
    rcases List.mem_cons.mp hl with rfl | hl
    · exact absurd hroute (by rw [hnone]; simp)
    · exact absurd hroute (by rw [hall l hl]; simp)

/-- **The search is complete** exactly when no short line ends it too early. -/
theorem defaultRouteIfaceOf_iff (data : List (List Char)) :
    defaultRouteIfaceOf data = data.findSome? routeOf ↔ NoShortLine data := by
  induction data with
  | nil => exact ⟨fun _ ⟨_, h, _⟩ => absurd h (by simp), fun _ => rfl⟩
  | cons line rest ih =>
    rcases Nat.lt_or_ge (splitWhitespace line).length 2 with hshort | hlong
    · rw [defaultRouteIfaceOf_short rest hshort, noShortLine_short rest hshort, List.findSome?_cons,
        routeOf_short hshort, eq_comm]
      exact List.findSome?_eq_none_iff
    · rw [defaultRouteIfaceOf_cons rest hlong, List.findSome?_cons]
      cases hroute : routeOf line with
      | some iface => exact ⟨fun _ => noShortLine_of_route rest (by rw [hroute]; rfl), fun _ => rfl⟩
      | none =>
        rw [noShortLine_cons rest hroute hlong, ← ih]
        rfl

theorem parseDefaultRouteIface_iff (table : String) :
    parseDefaultRouteIface table = (dataLines table).findSome? routeOf ↔
      NoShortLine (dataLines table) :=
  defaultRouteIfaceOf_iff _

/-- A blank line above the default route hides it. -/
theorem parseDefaultRouteIface_blank :
    let table := "Iface\tDestination\tGateway\n\neth0\t00000000\t0102A8C0\n"
    (dataLines table).findSome? routeOf = some "eth0" ∧ parseDefaultRouteIface table = none := by
  decide

/-! ### Names -/

/-- A name on a line: not empty, without a line break, and without white space
around it. -/
structure Name where
  text : List Char
  ne : text ≠ []
  oneLine : '\n' ∉ text
  trimmed : Trimmed text

theorem Name.getLast? (n : Name) (l : List Char) : (l ++ n.text).getLast? = n.text.getLast? :=
  List.getLast?_append_of_ne_nil l n.ne

/-- A line that ends with a name. -/
theorem Name.oneLine_append (n : Name) {l : List Char} (h : '\n' ∉ l) : OneLine (l ++ n.text) := by
  refine ⟨fun hn => (List.mem_append.mp hn).elim h n.oneLine, ?_⟩
  rw [n.getLast?]
  exact (n.trimmed.oneLine n.oneLine).2

/-! ### `netsh interface show interface` -/

/-- An interface as `netsh` lists it: three columns of one word each, then its
alias. -/
structure Row where
  admin : List Char
  state : List Char
  kind : List Char
  name : Name
  admin_word : IsWord admin
  state_word : IsWord state
  kind_word : IsWord kind

namespace Row

/-- Connected, in any letter case. -/
def connected (r : Row) : Bool := eqIgnoreAsciiCase r.state "connected".toList

/-- The blanks that fill up a column. -/
def Fill (gap : List Char) : Prop := gap ≠ [] ∧ ∀ c ∈ gap, c = ' '

/-- The row on a line, with columns of any width. -/
inductive Line (r : Row) : List Char → Prop
  | mk (g₁ g₂ g₃ : List Char) : Fill g₁ → Fill g₂ → Fill g₃ →
      Line r (r.admin ++ (g₁ ++ (r.state ++ (g₂ ++ (r.kind ++ (g₃ ++ r.name.text))))))

end Row

/-- The column titles. -/
def titles : List Char := "Admin State    State          Type             Interface Name".toList

/-- What `netsh` prints: blank lines, the titles, a line of dashes, the rows, and
again blank lines. -/
inductive InterfaceTable (rows : List Row) : List Char → Prop
  | mk {ls : List (List Char)} {t : List Char} (above dashes below : Nat) :
      List.Forall₂ Row.Line rows ls →
      Printed (List.replicate above [] ++ titles :: List.replicate (dashes + 1) '-' ::
        (ls ++ List.replicate below [])) t →
      InterfaceTable rows t

/-- The interface on a line, if it is connected. -/
def interfaceOf (line : List Char) : Option String :=
  match splitWhitespace line with
  | _ :: state :: _ :: name :: more =>
    if eqIgnoreAsciiCase state "connected".toList then
      some (" ".intercalate ((name :: more).map String.ofList))
    else none
  | _ => none

theorem parseNetshInterfaces_eq (stdout : String) :
    parseNetshInterfaces stdout = (lines stdout.toList).filterMap interfaceOf := rfl

theorem Row.fill_replicate (n : Nat) : Row.Fill (List.replicate (n + 1) ' ') :=
  ⟨by simp, fun _ hc => List.eq_of_mem_replicate hc⟩

theorem Row.Fill.white {gap : List Char} (h : Row.Fill gap) : ∀ c ∈ gap, isWhitespace c = true :=
  fun c hc => by rw [h.2 c hc]; rfl

theorem Row.Fill.noBreak {gap : List Char} (h : Row.Fill gap) : '\n' ∉ gap :=
  fun hn => absurd (h.2 _ hn) (by decide)

theorem Row.Line.oneLine {r : Row} {l : List Char} (h : r.Line l) : OneLine l := by
  obtain ⟨_, _, _, h₁, h₂, h₃⟩ := h
  simp only [← List.append_assoc]
  refine r.name.oneLine_append fun hn => ?_
  simp only [List.mem_append] at hn
  rcases hn with ((((hn | hn) | hn) | hn) | hn) | hn
  · exact absurd (r.admin_word.2 _ hn) (by decide)
  · exact h₁.noBreak hn
  · exact absurd (r.state_word.2 _ hn) (by decide)
  · exact h₂.noBreak hn
  · exact absurd (r.kind_word.2 _ hn) (by decide)
  · exact h₃.noBreak hn

/-- The alias of a row, put together from its words. -/
def Row.rejoined (r : Row) : String :=
  String.ofList ([' '].intercalate (splitWhitespace r.name.text))

theorem Row.rejoined_eq_iff (r : Row) :
    r.rejoined = String.ofList r.name.text ↔ SingleSpaced r.name.text := by
  rw [← intercalate_splitWhitespace_iff r.name.trimmed]
  exact ⟨fun h => String.ofList_injective h, congrArg String.ofList⟩

/-- What the parser makes of a row. -/
theorem interfaceOf_row {r : Row} {l : List Char} (h : r.Line l) :
    interfaceOf l = if r.connected then some r.rejoined else none := by
  obtain ⟨_, _, _, h₁, h₂, h₃⟩ := h
  have hne : splitWhitespace r.name.text ≠ [] := splitWhitespace_ne_nil r.name.trimmed r.name.ne
  obtain ⟨name, more, hname⟩ := List.exists_cons_of_ne_nil hne
  simp only [interfaceOf, splitWhitespace_word _ r.admin_word h₁.1 h₁.white,
    splitWhitespace_word _ r.state_word h₂.1 h₂.white,
    splitWhitespace_word _ r.kind_word h₃.1 h₃.white, hname]
  rw [intercalate_ofList, ← hname]
  rfl

theorem oneLine_rows {rows : List Row} {ls : List (List Char)} (h : List.Forall₂ Row.Line rows ls) :
    ∀ l ∈ ls, OneLine l := by
  induction h with
  | nil => exact fun _ h => absurd h (by simp)
  | cons hl _ ih => exact List.forall_mem_cons.mpr ⟨hl.oneLine, ih⟩

/-- What the parser makes of the rows. -/
theorem filterMap_rows {rows : List Row} {ls : List (List Char)}
    (h : List.Forall₂ Row.Line rows ls) :
    ls.filterMap interfaceOf = (rows.filter Row.connected).map Row.rejoined := by
  induction h with
  | nil => rfl
  | @cons r l rows ls hl _ ih =>
    rw [List.filterMap_cons, interfaceOf_row hl, ih, List.filter_cons]
    cases r.connected <;> rfl

theorem interfaceOf_word {w : List Char} (h : IsWord w) : interfaceOf w = none := by
  rw [interfaceOf, h.splitWhitespace_eq]

theorem isWord_dashes (n : Nat) : IsWord (List.replicate (n + 1) '-') :=
  ⟨by simp, fun c hc => by rw [List.eq_of_mem_replicate hc]; rfl⟩

/-- Nothing but the rows is an interface. -/
theorem lines_table {rows : List Row} {t : List Char} (h : InterfaceTable rows t) :
    (lines t).filterMap interfaceOf = (rows.filter Row.connected).map Row.rejoined := by
  obtain ⟨above, dashes, below, hrows, ht⟩ := h
  have hblank : ∀ n, (List.replicate n ([] : List Char)).filterMap interfaceOf = [] := fun n =>
    List.filterMap_eq_nil_iff.mpr fun l hl => by rw [List.eq_of_mem_replicate hl]; rfl
  have htitles : interfaceOf titles = none := by decide
  rw [lines_eq ht fun l hl => ?_]
  · rw [List.filterMap_append, hblank, List.nil_append, List.filterMap_cons, htitles,
      List.filterMap_cons, interfaceOf_word (isWord_dashes dashes), List.filterMap_append, hblank,
      List.append_nil]
    exact filterMap_rows hrows
  · have hempty : ∀ n, l ∈ List.replicate n [] → OneLine l := fun n h => by
      rw [List.eq_of_mem_replicate h]
      decide
    rcases List.mem_append.mp hl with hl | hl
    · exact hempty _ hl
    rcases List.mem_cons.mp hl with rfl | hl
    · decide
    rcases List.mem_cons.mp hl with rfl | hl
    · exact (isWord_dashes dashes).oneLine
    rcases List.mem_append.mp hl with hl | hl
    · exact oneLine_rows hrows l hl
    · exact hempty _ hl

/-- **Which interfaces keep their names.**  The aliases of the connected rows are
read back, unchanged and in order, exactly when each of them is single-spaced. -/
theorem parseNetshInterfaces_iff {rows : List Row} {stdout : String}
    (h : InterfaceTable rows stdout.toList) :
    parseNetshInterfaces stdout = (rows.filter Row.connected).map (String.ofList ·.name.text) ↔
      ∀ r ∈ rows, r.connected = true → SingleSpaced r.name.text := by
  rw [parseNetshInterfaces_eq, lines_table h, List.map_inj_left]
  refine ⟨fun hall r hr hc => ?_, fun hall r hr => ?_⟩
  · exact r.rejoined_eq_iff.mp (hall r (List.mem_filter.mpr ⟨hr, hc⟩))
  · have hmem := List.mem_filter.mp hr
    exact r.rejoined_eq_iff.mpr (hall r hmem.1 hmem.2)

/-- A connected interface whose alias has two blanks in a row. -/
def officeLan : Row where
  admin := "Enabled".toList
  state := "Connected".toList
  kind := "Dedicated".toList
  name := ⟨"Office  LAN".toList, by decide, by decide, by decide⟩
  admin_word := by decide
  state_word := by decide
  kind_word := by decide

/-- What `netsh` prints of the row alone. -/
def officeTable : String :=
  "\nAdmin State    State          Type             Interface Name\n" ++
    "-----\nEnabled        Connected      Dedicated        Office  LAN\n"

theorem officeTable_shows : InterfaceTable [officeLan] officeTable.toList := by
  have hline : officeLan.Line "Enabled        Connected      Dedicated        Office  LAN".toList :=
    .mk (List.replicate 8 ' ') (List.replicate 6 ' ') (List.replicate 8 ' ')
      (Row.fill_replicate 7) (Row.fill_replicate 5) (Row.fill_replicate 7)
  have hprint : officeTable.toList = ([] :: titles :: List.replicate 5 '-' ::
      ["Enabled        Connected      Dedicated        Office  LAN".toList]).flatMap (· ++ ['\n']) := by
    decide +kernel
  rw [hprint]
  exact .mk 1 4 0 (.cons hline .nil) (printed_flatMap _)

/-- The alias does not come back. -/
theorem officeLan_not_read :
    parseNetshInterfaces officeTable ≠
      ([officeLan].filter Row.connected).map (String.ofList ·.name.text) := fun h =>
  absurd ((parseNetshInterfaces_iff officeTable_shows).mp h officeLan List.mem_cons_self (by decide))
    (by decide)

/-- **One of the two blanks is lost.** -/
theorem officeLan_renamed :
    InterfaceTable [officeLan] officeTable.toList ∧ officeLan.connected = true ∧
      parseNetshInterfaces officeTable = ["Office LAN"] ∧
      String.ofList officeLan.name.text = "Office  LAN" :=
  ⟨officeTable_shows, by decide, by decide +kernel, rfl⟩

/-! ### `networksetup -listallnetworkservices` -/

/-- A network service. -/
structure Service where
  enabled : Bool
  name : Name

/-- A disabled service has an asterisk before its name. -/
def Service.line (s : Service) : List Char :=
  if s.enabled then s.name.text else '*' :: s.name.text

theorem Service.line_oneLine (s : Service) : OneLine s.line := by
  rw [Service.line]
  split
  · exact s.name.oneLine_append (l := []) (by simp)
  · exact s.name.oneLine_append (l := ['*']) (by decide)

/-- The marker comes off, and nothing but the marker. -/
theorem Service.name_of_line {s : Service} (h : s.name.text.head? ≠ some '*') :
    trim (s.line.dropWhile (· == '*')) = s.name.text := by
  have hname : s.name.text.dropWhile (· == '*') = s.name.text := by
    cases htext : s.name.text with
    | nil => rfl
    | cons c cs =>
      rw [htext] at h
      exact List.dropWhile_cons_of_neg (by simpa using h)
  have hline : s.line.dropWhile (· == '*') = s.name.text := by
    rw [Service.line]
    split
    · exact hname
    · rw [List.dropWhile_cons_of_pos (by rfl), hname]
  have htrim := trim_around (l := []) (r := []) s.name.trimmed s.name.ne (by simp) (by simp)
  rw [List.nil_append, List.append_nil] at htrim
  rw [hline, htrim]

/-- **The services are read back**, enabled or not, when no name begins with an
asterisk itself. -/
theorem parseNetworkServices_eq {header : List Char} {services : List Service} {stdout : String}
    (hheader : '\n' ∉ header) (h : Printed (header :: services.map Service.line) stdout.toList)
    (hstar : ∀ s ∈ services, s.name.text.head? ≠ some '*') :
    parseNetworkServices stdout = services.map (String.ofList ·.name.text) := by
  have hread : (lines stdout.toList).drop 1 = services.map Service.line :=
    lines_drop_one h hheader fun l hl => by
      obtain ⟨s, _, rfl⟩ := List.mem_map.mp hl
      exact s.line_oneLine
  have hnames : (services.map Service.line).map (fun l => String.ofList (trim (l.dropWhile (· == '*')))) =
      services.map (String.ofList ·.name.text) := by
    rw [List.map_map]
    exact List.map_congr_left fun s hs => congrArg String.ofList (Service.name_of_line (hstar s hs))
  rw [parseNetworkServices, hread, hnames]
  refine List.filter_eq_self.mpr fun name hname => ?_
  obtain ⟨s, _, rfl⟩ := List.mem_map.mp hname
  simpa [String.isEmpty_iff] using s.name.ne

/-- The heading of the list. -/
def heading : List Char := "An asterisk (*) denotes that a network service is disabled.".toList

def wifi : Service := ⟨true, "Wi-Fi".toList, by decide, by decide, by decide⟩

def bluetooth : Service := ⟨false, "Bluetooth PAN".toList, by decide, by decide, by decide⟩

theorem parseNetworkServices_wifi :
    parseNetworkServices (String.ofList ((heading :: [wifi, bluetooth].map Service.line).flatMap
      (· ++ ['\n']))) = ["Wi-Fi", "Bluetooth PAN"] := by
  have hheading : '\n' ∉ heading := by decide
  have hstar : ∀ s ∈ [wifi, bluetooth], s.name.text.head? ≠ some '*' := by decide
  refine parseNetworkServices_eq hheading ?_ hstar
  rw [String.toList_ofList]
  exact printed_flatMap _

/-- An enabled service whose name begins with an asterisk prints the same line as
a disabled one without it. -/
theorem starHome_renamed :
    let home : Service := ⟨true, "*Home".toList, by decide, by decide, by decide⟩
    home.line = (Service.mk false ⟨"Home".toList, by decide, by decide, by decide⟩).line ∧
      parseNetworkServices (String.ofList ((heading :: [home.line]).flatMap (· ++ ['\n']))) = ["Home"] ∧
      String.ofList home.name.text = "*Home" := by
  decide +kernel

/-! ### `networksetup -getdnsservers` -/

/-- The sentence for a service without servers. -/
def sentence (svc : String) : List Char :=
  "There aren't any DNS Servers set on ".toList ++ (svc.toList ++ ['.'])

/-- A text on a line, with white space around it. -/
inductive Around (s : List Char) : List Char → Prop
  | mk (l r : List Char) : (∀ c ∈ l, isWhitespace c = true) → (∀ c ∈ r, isWhitespace c = true) →
      '\n' ∉ l ++ r → Around s (l ++ s ++ r)

/-- What `networksetup` prints for the servers of a service: their addresses, one on
each line, or the sentence. -/
inductive DnsServers (svc : String) : List (List Char) → List Char → Prop
  | listed {servers ls : List (List Char)} {t : List Char} : (∀ a ∈ servers, isIpAddr a = true) →
      List.Forall₂ Around servers ls → Printed ls t → DnsServers svc servers t
  | none {t : List Char} : Printed [sentence svc] t → DnsServers svc [] t

theorem ne_nil_of_isIpAddr {s : List Char} (h : isIpAddr s = true) : s ≠ [] :=
  fun hs => absurd h (by rw [hs]; decide)

theorem trimmed_of_isIpAddr {s : List Char} (h : isIpAddr s = true) : Trimmed s :=
  ⟨fun c hc => (plain_of_isIpAddr h c (List.mem_of_mem_head? hc)).1,
    fun c hc => (plain_of_isIpAddr h c (List.mem_of_mem_getLast? hc)).1⟩

theorem Around.plain {s l : List Char} (h : Around s l) (hs : isIpAddr s = true) :
    '\n' ∉ l ∧ '\'' ∉ l := by
  obtain ⟨a, b, ha, hb, hn⟩ := h
  have hplain := plain_of_isIpAddr hs
  simp only [List.mem_append, not_or] at hn ⊢
  refine ⟨⟨⟨hn.1, fun hc => absurd (hplain _ hc).1 (by decide)⟩, hn.2⟩, ⟨?_, ?_⟩, ?_⟩
  · exact fun hc => absurd (ha _ hc) (by decide)
  · exact fun hc => absurd rfl (hplain _ hc).2
  · exact fun hc => absurd (hb _ hc) (by decide)

/-- A carriage return more or less does not matter. -/
theorem Around.trim_read {s l m : List Char} (h : Around s l) (hs : Trimmed s) (hne : s ≠ [])
    (hm : m = l ∨ l = m ++ ['\r']) : trim m = s := by
  obtain ⟨a, b, ha, hb, _⟩ := h
  rcases hm with rfl | hm
  · exact trim_around hs hne ha hb
  · rcases List.eq_nil_or_concat b with rfl | ⟨b, c, rfl⟩
    · -- the text itself does not end with white space
      have hlast : s.getLast? = some '\r' := by
        rw [← List.getLast?_append_of_ne_nil a hne, ← List.append_nil (a ++ s), hm,
          List.getLast?_concat]
      exact absurd (hs.2 _ hlast) (by decide)
    · rw [List.concat_eq_append, ← List.append_assoc] at hm
      rw [← (List.append_inj' hm rfl).1]
      exact trim_around hs hne ha fun d hd => hb d (by simp [hd])

/-- **No list of addresses contains the sentence**: no address has an apostrophe. -/
theorem noSentence_of_listed {servers ls : List (List Char)} {t : List Char}
    (haddr : ∀ a ∈ servers, isIpAddr a = true) (hls : List.Forall₂ Around servers ls)
    (ht : Printed ls t) : contains t "aren't any DNS Servers".toList = false := by
  have hlines : ∀ l ∈ ls, ∀ c ∈ l, c ≠ '\'' := by
    clear ht
    induction hls with
    | nil => exact fun _ h => absurd h (by simp)
    | cons hl _ ih =>
      obtain ⟨ha, haddr⟩ := List.forall_mem_cons.mp haddr
      refine List.forall_mem_cons.mpr ⟨fun c hc h => ?_, ih haddr⟩
      exact (hl.plain ha).2 (h ▸ hc)
  have htext := ht.forall (by decide) (by decide) hlines
  refine decide_eq_false fun hin => ?_
  exact htext '\'' (hin.subset (by decide)) rfl

theorem trim_listed {servers ls ms : List (List Char)} (hls : List.Forall₂ Around servers ls) :
    (∀ a ∈ servers, isIpAddr a = true) →
      List.Forall₂ (fun l m => m = l ∨ l = m ++ ['\r']) ls ms → ms.map trim = servers := by
  induction hls generalizing ms with
  | nil =>
    intro _ h
    cases h
    rfl
  | cons hl _ ih =>
    intro haddr h
    obtain ⟨ha, haddr⟩ := List.forall_mem_cons.mp haddr
    cases h with
    | cons hm hms =>
      rw [List.map_cons, hl.trim_read (trimmed_of_isIpAddr ha) (ne_nil_of_isIpAddr ha) hm,
        ih haddr hms]

theorem parseDnsServers_listed {servers ls : List (List Char)} {stdout : String}
    (haddr : ∀ a ∈ servers, isIpAddr a = true) (hls : List.Forall₂ Around servers ls)
    (ht : Printed ls stdout.toList) : parseDnsServers stdout = servers.map String.ofList := by
  have hbreaks : ∀ l ∈ ls, '\n' ∉ l := by
    clear ht
    induction hls with
    | nil => exact fun _ h => absurd h (by simp)
    | cons hl _ ih =>
      obtain ⟨ha, haddr⟩ := List.forall_mem_cons.mp haddr
      exact List.forall_mem_cons.mpr ⟨(hl.plain ha).1, ih haddr⟩
  rw [parseDnsServers, noSentence_of_listed haddr hls ht, if_neg (by simp),
    trim_listed hls haddr (lines_printed ht hbreaks), List.filter_eq_self.mpr haddr]

theorem parseDnsServers_sentence {svc stdout : String} (h : Printed [sentence svc] stdout.toList) :
    parseDnsServers stdout = [] := by
  have hsplit : "There aren't any DNS Servers set on ".toList =
      "There ".toList ++ "aren't any DNS Servers".toList ++ " set on ".toList := by decide
  have hsentence : "aren't any DNS Servers".toList <:+: sentence svc := by
    refine List.IsInfix.trans ?_ (List.prefix_append _ _).isInfix
    rw [hsplit]
    exact List.infix_append _ _ _
  have hin : "aren't any DNS Servers".toList <:+: stdout.toList :=
    hsentence.trans (h.isInfix (sentence svc) List.mem_cons_self)
  rw [parseDnsServers, contains, decide_eq_true hin, if_pos rfl]

/-- **The servers are read back**, trimmed and in order, and `restore_shell` sets
exactly these again: `Empty` if and only if there was none. -/
theorem parseDnsServers_eq {svc stdout : String} {servers : List (List Char)}
    (h : DnsServers svc servers stdout.toList) :
    parseDnsServers stdout = servers.map String.ofList ∧
      Macos.restoreArgs svc (parseDnsServers stdout) =
        ["-setdnsservers", svc] ++ (if servers = [] then ["Empty"] else servers.map String.ofList) ∧
      (Macos.restoreArgs svc (parseDnsServers stdout) = ["-setdnsservers", svc, "Empty"] ↔
        servers = []) := by
  have haddr : ∀ a ∈ servers, isIpAddr a = true := by
    cases h with
    | listed haddr _ _ => exact haddr
    | none _ => exact fun _ h => absurd h (by simp)
  have hparse : parseDnsServers stdout = servers.map String.ofList := by
    cases h with
    | listed haddr hls ht => exact parseDnsServers_listed haddr hls ht
    | none ht => exact parseDnsServers_sentence ht
  have hargs : Macos.restoreArgs svc (servers.map String.ofList) =
      ["-setdnsservers", svc] ++ (if servers = [] then ["Empty"] else servers.map String.ofList) := by
    rw [Macos.restoreArgs]
    cases servers <;> rfl
  rw [hparse, hargs]
  refine ⟨rfl, rfl, fun he => ?_, fun he => by rw [if_pos he]; rfl⟩
  by_contra hne
  rw [if_neg hne] at he
  -- `Empty` is not an address
  have hempty : servers.map String.ofList = ["Empty"] := List.append_cancel_left he
  obtain ⟨a, ha, hlast⟩ := List.map_eq_singleton_iff.mp hempty
  have hip := haddr a (by rw [ha]; exact List.mem_cons_self)
  rw [← String.toList_ofList (l := a), hlast] at hip
  exact absurd hip (by decide)

/-- Two servers, with blanks around the second and its line ended by CRLF. -/
theorem parseDnsServers_two :
    Macos.restoreArgs "Wi-Fi" (parseDnsServers "1.1.1.1\n ::1 \r\n") =
      ["-setdnsservers", "Wi-Fi", "1.1.1.1", "::1"] := by
  have haddr : ∀ a ∈ ["1.1.1.1".toList, "::1".toList], isIpAddr a = true := by decide
  have hblank : ∀ c ∈ [' '], isWhitespace c = true := List.forall_mem_singleton.mpr rfl
  have hshown : DnsServers "Wi-Fi" ["1.1.1.1".toList, "::1".toList] "1.1.1.1\n ::1 \r\n".toList :=
    .listed haddr (.cons (.mk [] [] (by simp) (by simp) (by simp))
      (.cons (.mk [' '] [' '] hblank hblank (by decide)) .nil)) (.lf _ (.crlf _ .nil))
  exact (parseDnsServers_eq hshown).2.1

end Voidns.Parse
