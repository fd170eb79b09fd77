import Supercli.Hooks.Dispatch

/-!
# `Browser.Loopback` — which addresses browser control connects to

`CdpClient::connect` refuses an endpoint whose host is not loopback, and `WsClient::connect` then looks the host up
again. The two agree only where no name is looked up: the endpoints that stay on loopback under every resolver are
those of `localhost` and of addresses written as such (`loopback_only_iff`).
-/

namespace Supercli.Browser

open Hooks (parseU16)

inductive IpAddr
  | v4 (octets : BitVec 32)
  | v6 (octets : BitVec 128)
deriving DecidableEq

def IpAddr.isLoopback : IpAddr → Bool
  | .v4 octets => octets >>> 24 == 127
  | .v6 octets => octets == 1

structure SocketAddr where
  ip : IpAddr
  port : Nat
deriving DecidableEq

/-- `eq_ignore_ascii_case("localhost")`. -/
def isLocalhost (host : String) : Bool := host.toList.map Char.toLower == "localhost".toList

/-- `format!("{host}:{port}")`. -/
def hostPort (host : String) (port : Nat) : String := host ++ ":" ++ toString port

/-- How the standard library reads addresses. -/
structure AddrLibs where
  /-- `str::parse::<IpAddr>`. -/
  parseIp : String → Option IpAddr
  /-- `str::parse::<SocketAddr>`. -/
  parseSocketAddr : String → Option SocketAddr
  localhost : ∀ host port, isLocalhost host → parseSocketAddr (hostPort host port) = none

/-- What names are answered with, by the number of the lookup. -/
structure Resolver where
  lookup : Nat → String → Except String (List IpAddr)
  localhost : ∀ n host ips, isLocalhost host → lookup n host = .ok ips → ∀ ip ∈ ips, ip.isLoopback

/-- `parse_ws_url`: host, port and path. -/
def parseWsUrl (url : String) : Except String (String × Nat × String) := do
  let some rest := stripPrefix "ws://" url | throw ("only ws:// URLs are supported, got " ++ debugStr url)
  let authority := rest.toList.takeWhile (· != '/')
  let path := if rest.toList.contains '/' then String.ofList (rest.toList.dropWhile (· != '/')) else "/"
  let (host, port) ←
    if authority.contains ':' then
      let digits := (authority.reverse.takeWhile (· != ':')).reverse
      match parseU16 digits with
      | some port => pure (authority.take (authority.length - digits.length - 1), port)
      | none => throw ("bad port in " ++ debugStr url)
    else pure (authority, 80)
  if host = [] then throw ("empty host in " ++ debugStr url)
  pure (String.ofList host, port, path)

/-- The host without the brackets of an IPv6 literal. -/
def bare (host : String) : String :=
  match host.toList with
  | '[' :: rest => if rest.getLast? = some ']' then String.ofList rest.dropLast else host
  | _ => host

section Connect

variable (libs : AddrLibs) (resolver : Resolver)

def isLoopbackHost (host : String) : Bool :=
  if isLocalhost host then true
  else match libs.parseIp (bare host) with
    | some ip => ip.isLoopback
    -- no literal, so `(host, 0)` is looked up
    | none => match resolver.lookup 0 host with
      | .ok ips => ips ≠ [] && ips.all IpAddr.isLoopback
      | .error _ => false

/-- The address a host and port are dialled at. -/
def dial (host : String) (port : Nat) : Except String SocketAddr :=
  match libs.parseSocketAddr (hostPort host port) with
  | some socketAddr => .ok socketAddr
  -- the text is cut at its last colon again, which is the one before the port
  | none => match resolver.lookup 1 host with
    | .error e => .error ("resolve " ++ hostPort host port ++ ": " ++ e)
    | .ok [] => .error ("no address for " ++ hostPort host port)
    | .ok (ip :: _) => .ok ⟨ip, port⟩

/-- `WsClient::connect`, up to the address it dials. -/
def WsClient.connect (url : String) : Except String SocketAddr := do
  let (host, port, _) ← parseWsUrl url
  dial libs resolver host port

/-- `CdpClient::connect`, up to the address it dials. -/
def CdpClient.connect (endpoint : String) : Except String SocketAddr := do
  let (host, _, _) ← parseWsUrl endpoint
  if !isLoopbackHost libs resolver host then
    throw ("CDP endpoint refused: " ++ debugStr host ++ " is not loopback (CDP grants full browser control)")
  WsClient.connect libs resolver endpoint

end Connect

/-- Answers with loopback once, and with another address from then on. -/
def rebinding : Resolver where
  lookup n host := .ok [.v4 (if n = 0 ∨ isLocalhost host then 0x7F000001 else 0x08080808)]
  localhost n host ips hhost hips := by
    obtain rfl := Except.ok.inj hips
    simp [hhost, IpAddr.isLoopback]

theorem dial_localhost (hhost : isLocalhost host) (h : dial libs resolver host port = .ok socketAddr) :
    socketAddr.ip.isLoopback := by
  rw [dial, libs.localhost host port hhost] at h
  dsimp only at h
  split at h
  · cases h
  · cases h
  · rename_i ip ips hlookup
    cases h
    exact resolver.localhost 1 host _ hhost hlookup ip List.mem_cons_self

/-- **Which endpoints stay on loopback**, whatever the resolver: those that cannot be read or are refused, `localhost`,
    and the addresses that are dialled as they are written. -/
theorem loopback_only_iff (libs : AddrLibs) (endpoint : String) :
    (∀ resolver socketAddr, CdpClient.connect libs resolver endpoint = .ok socketAddr → socketAddr.ip.isLoopback) ↔
      ∀ host port path, parseWsUrl endpoint = .ok (host, port, path) →
        isLocalhost host ∨ (libs.parseIp (bare host)).any (!·.isLoopback) ∨
          (libs.parseSocketAddr (hostPort host port)).any (·.ip.isLoopback) := by
  cases hurl : parseWsUrl endpoint with
  | error => simp [CdpClient.connect, hurl, bind, Except.bind]
  | ok parts =>
    obtain ⟨host, port, path⟩ := parts
    have hconnect (resolver : Resolver) (socketAddr : SocketAddr) :
        CdpClient.connect libs resolver endpoint = .ok socketAddr ↔
          isLoopbackHost libs resolver host ∧ dial libs resolver host port = .ok socketAddr := by
      simp only [CdpClient.connect, WsClient.connect, hurl, bind, Except.bind]
      cases isLoopbackHost libs resolver host <;> simp [throw, throwThe, MonadExceptOf.throw]
    simp only [hconnect, Except.ok.injEq, Prod.mk.injEq, and_imp]
    constructor
    · -- the gate lets the host pass, and then the answer is another one
      rintro h _ _ _ rfl rfl -
      by_contra hcond
      simp only [not_or, Bool.not_eq_true] at hcond
      obtain ⟨hname, hip, haddr⟩ := hcond
      have hgate : isLoopbackHost libs rebinding host := by
        cases hparse : libs.parseIp (bare host) <;> simp_all [isLoopbackHost, rebinding, IpAddr.isLoopback]
      cases hparse : libs.parseSocketAddr (hostPort host port) with
      | some socketAddr =>
        have hdial := h rebinding socketAddr hgate (by simp [dial, hparse])
        simp [hparse, hdial] at haddr
      | none =>
        have hdial := h rebinding ⟨.v4 0x08080808, port⟩ hgate (by simp [dial, hparse, rebinding, hname])
        simp [IpAddr.isLoopback] at hdial
    · intro h resolver socketAddr hgate hdial
      by_cases hname : isLocalhost host
      · exact dial_localhost hname hdial
      · rcases h host port path rfl rfl rfl with hlocal | hrefused | hliteral
        · exact absurd hlocal hname
        · obtain ⟨ip, hip, hforeign⟩ := (Option.any_eq_true _ _).mp hrefused
          simp_all [isLoopbackHost]
        · obtain ⟨literal, hparse, hloopback⟩ := (Option.any_eq_true _ _).mp hliteral
          simp_all [dial]

/-- No literals at all. -/
def namesOnly : AddrLibs := ⟨fun _ => none, fun _ => none, fun _ _ _ => rfl⟩

/-- **A name that is answered differently the second time.** -/
theorem rebinding_connects :
    CdpClient.connect namesOnly rebinding "ws://browser.test:9222/devtools" = .ok ⟨.v4 0x08080808, 9222⟩ ∧
      (IpAddr.v4 0x08080808).isLoopback = false := by
  decide +kernel

end Supercli.Browser
