import Voidns.Base.Text

/-!
# Parsers of what the operating system prints

`redirect/parse.rs`.  Every parser takes the text of a file or of a command's
output.  They are read here on characters (`Text`), with the strings at the
two ends.
-/

namespace Voidns.Parse

open Text

/-- The loop of `parse_default_route_iface` over the data lines.  A line with
fewer than two columns ends the search: both columns are read with `?`. -/
def defaultRouteIfaceOf : List (List Char) → Option String
  | [] => none
  | line :: rest =>
    match splitWhitespace line with
    | iface :: dest :: _ =>
      if dest = "00000000".toList then some (String.ofList iface) else defaultRouteIfaceOf rest
    | _ => none

/-- Linux: the interface owning the default route, from `/proc/net/route`. -/
def parseDefaultRouteIface (table : String) : Option String :=
  defaultRouteIfaceOf ((lines table.toList).drop 1)

/-- Windows: connected interface aliases from `netsh interface show interface`. -/
def parseNetshInterfaces (stdout : String) : List String :=
  (lines stdout.toList).filterMap fun line =>
    match splitWhitespace line with
    | _ :: state :: _ :: name :: more =>
      if eqIgnoreAsciiCase state "connected".toList then
        some (" ".intercalate ((name :: more).map String.ofList))
      else none
    | _ => none

/-- macOS: service names from `networksetup -listallnetworkservices`. -/
def parseNetworkServices (stdout : String) : List String :=
  (((lines stdout.toList).drop 1).map fun l => String.ofList (trim (l.dropWhile (· == '*')))).filter
    fun l => !l.isEmpty

/-- macOS: DNS server addresses from `networksetup -getdnsservers <svc>`. -/
def parseDnsServers (stdout : String) : List String :=
  if contains stdout.toList "aren't any DNS Servers".toList then []
  else (((lines stdout.toList).map trim).filter isIpAddr).map String.ofList

example : parseDefaultRouteIface
    "Iface\tDestination\tGateway\nwlan0\t0002A8C0\t0\neth0\t00000000\t0102A8C0\n" = some "eth0" := by
  decide

end Voidns.Parse
