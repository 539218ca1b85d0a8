import Mathlib.Algebra.Group.Nat.Defs
import CodexOctopus.Headers

/-!
# The client address of the API firewall

`resolve_connection_client_ip` of the API firewall takes the address of the socket's
peer, and where that peer is a trusted proxy the address that `X-Forwarded-For` gives:
the chain of the header's entries and the peer is read from the right, past the trusted
proxies, to the first entry that is not one.

Addresses are those of some `IpAddresses`: what `ip_address` accepts, and which
addresses a network holds. `ipv4` is the part of Python's `ipaddress` that reads dotted
quads.
-/

namespace CodexOctopus.Firewall

open List

/-- What the firewall needs of `ipaddress`; the empty text is no address. -/
structure IpAddresses (Address Network : Type) where
  ipAddress : String → Option Address
  contains : Network → Address → Bool
  ipAddress_empty : ipAddress "" = none

section Resolve

variable {Address Network : Type} (ip : IpAddresses Address Network) (networks : List Network)

def isValidIp (value : String) : Bool := (ip.ipAddress value).isSome

def isTrustedProxySource (host : String) : Bool :=
  if networks.isEmpty then false
  else
    match ip.ipAddress host with
    | none => false
    | some source => networks.any fun network => ip.contains network source

def hopsOf (forwardedFor : String) : List String :=
  (forwardedFor.toList.splitOn ',').map fun entry => Python.strip (String.ofList entry)

def resolveChain : String → List String → String
  | _, current :: previous :: rest =>
    if isTrustedProxySource ip networks current then resolveChain previous (previous :: rest)
    else current
  | resolved, _ => resolved

def resolveClientIpFromXffChain (socketIp forwardedFor : String) : Option String :=
  let hops := hopsOf forwardedFor
  if hops.isEmpty then none
  else if hops.any fun entry => !isValidIp ip entry then none
  else some (resolveChain ip networks socketIp (hops ++ [socketIp]).reverse)

def forwardedForHeader : HeaderName := ⟨"x-forwarded-for", by decide +kernel⟩

def resolveConnectionClientIp (headers : Headers) (socketIp : Option String)
    (trustProxyHeaders : Bool) : Option String :=
  match socketIp with
  | none => none
  | some socket =>
    if trustProxyHeaders && socket ≠ "" && isTrustedProxySource ip networks socket then
      match headers.get forwardedForHeader with
      | none => some socket
      | some forwardedFor =>
        if forwardedFor = "" then some socket
        else (resolveClientIpFromXffChain ip networks socket forwardedFor).getD socket
    else some socket

end Resolve

section Spoofing

variable {Address Network : Type} {ip : IpAddresses Address Network} {networks : List Network}
  {socket client left suffix : String} {proxies rest : List String}

def forwarded (left : Option String) (suffix : String) : String :=
  match left with
  | none => suffix
  | some text => text ++ "," ++ suffix

def ValidLeft (ip : IpAddresses Address Network) (left : Option String) : Prop :=
  ∀ text ∈ left, ∀ entry ∈ hopsOf text, isValidIp ip entry = true

instance (left : Option String) : Decidable (ValidLeft ip left) :=
  inferInstanceAs (Decidable (∀ text ∈ left, ∀ entry ∈ hopsOf text, isValidIp ip entry = true))

theorem hopsOf_append_comma (text suffix : String) :
    hopsOf (text ++ "," ++ suffix) = hopsOf text ++ hopsOf suffix := by
  have hchars : (text ++ "," ++ suffix).toList = text.toList ++ ',' :: suffix.toList := by
    rw [String.toList_append, String.toList_append, append_assoc]
    rfl
  have hsplit : (text.toList ++ ',' :: suffix.toList).splitOn ',' =
      text.toList.splitOn ',' ++ suffix.toList.splitOn ',' :=
    splitOnP_append_cons _ _ (beq_self_eq_true ',')
  rw [hopsOf, hchars, hsplit, map_append]
  rfl

theorem hopsOf_forwarded (left : Option String) (suffix : String) :
    hopsOf (forwarded left suffix) = (left.elim [] hopsOf) ++ hopsOf suffix := by
  cases left with
  | none => rfl
  | some text => exact hopsOf_append_comma text suffix

theorem isValidIp_of_trusted {host : String} (h : isTrustedProxySource ip networks host = true) :
    isValidIp ip host = true := by
  unfold isTrustedProxySource at h
  split at h
  · cases h
  · split at h
    · cases h
    · next hsource => rw [isValidIp, hsource, Option.isSome_some]

/-- From the right, the first untrusted entry is the result, whatever follows it. -/
theorem resolveChain_split (hclient : isTrustedProxySource ip networks client = false)
    {trusted : List String} (resolved : String) (hne : trusted ≠ [])
    (htrusted : ∀ host ∈ trusted, isTrustedProxySource ip networks host = true) :
    resolveChain ip networks resolved (trusted ++ client :: rest) = client := by
  induction trusted generalizing resolved with
  | nil => exact absurd rfl hne
  | cons host trusted ih =>
    obtain ⟨hhost, htrusted⟩ := forall_mem_cons.mp htrusted
    cases trusted with
    | nil =>
      rw [singleton_append, resolveChain, if_pos hhost]
      -- the loop stops at the client, or with the client as the leftmost entry
      cases rest with
      | nil => rfl
      | cons previous rest => rw [resolveChain, if_neg (by simp [hclient])]
    | cons next trusted =>
      rw [cons_append, cons_append, resolveChain, if_pos hhost, ← cons_append]
      exact ih next (cons_ne_nil _ _) htrusted

variable {left : Option String}

theorem resolve_forwarded (hleft : ValidLeft ip left)
    (hsocket : isTrustedProxySource ip networks socket = true)
    (hsuffix : hopsOf suffix = client :: proxies) (hvalid : isValidIp ip client = true)
    (hclient : isTrustedProxySource ip networks client = false)
    (hproxies : ∀ proxy ∈ proxies, isTrustedProxySource ip networks proxy = true) :
    resolveClientIpFromXffChain ip networks socket (forwarded left suffix) = some client := by
  set earlier := left.elim [] hopsOf with hearlier
  have hhops : hopsOf (forwarded left suffix) = earlier ++ client :: proxies := by
    rw [hopsOf_forwarded, hsuffix]
  have hearlier_valid : ∀ entry ∈ earlier, isValidIp ip entry = true := by
    cases left with
    | none => simp [hearlier]
    | some text => exact hleft text rfl
  have hall : ∀ entry ∈ earlier ++ client :: proxies, isValidIp ip entry = true := by
    intro entry hentry
    rcases mem_append.mp hentry with hentry | hentry
    · exact hearlier_valid entry hentry
    · rcases mem_cons.mp hentry with rfl | hentry
      · exact hvalid
      · exact isValidIp_of_trusted (hproxies entry hentry)
  have hnone : (earlier ++ client :: proxies).any (fun entry => !isValidIp ip entry) = false := by
    rw [any_eq_false]
    intro entry hentry
    rw [hall entry hentry]
    decide
  have hchain : (earlier ++ client :: proxies ++ [socket]).reverse =
      (socket :: proxies.reverse) ++ client :: earlier.reverse := by
    simp
  have htrusted : ∀ host ∈ socket :: proxies.reverse,
      isTrustedProxySource ip networks host = true := by
    intro host hhost
    rcases mem_cons.mp hhost with rfl | hhost
    · exact hsocket
    · exact hproxies host (mem_reverse.mp hhost)
  have hsome : (earlier ++ client :: proxies).isEmpty = false := by simp
  rw [resolveClientIpFromXffChain, hhops, hsome, hnone, if_neg Bool.false_ne_true, if_neg
    Bool.false_ne_true, hchain,
    resolveChain_split hclient socket (cons_ne_nil _ _) htrusted]

theorem ne_empty_of_valid {text : String} (hvalid : isValidIp ip text = true) : text ≠ "" := by
  rintro rfl
  rw [isValidIp, ip.ipAddress_empty] at hvalid
  cases hvalid

theorem forwarded_ne_empty (hsuffix : hopsOf suffix = client :: proxies)
    (hvalid : isValidIp ip client = true) : forwarded left suffix ≠ "" := by
  cases left with
  | none =>
    rintro rfl
    have hempty : hopsOf "" = [""] := by decide +kernel
    rw [hempty, List.cons.injEq] at hsuffix
    exact ne_empty_of_valid hvalid hsuffix.1.symm
  | some text =>
    intro hnil
    have hchars := congrArg String.toList hnil
    simp [forwarded] at hchars

theorem resolve_request {headers : Headers} (hleft : ValidLeft ip left)
    (hheader : headers.get forwardedForHeader = some (forwarded left suffix))
    (hsocket : isTrustedProxySource ip networks socket = true)
    (hsuffix : hopsOf suffix = client :: proxies) (hvalid : isValidIp ip client = true)
    (hclient : isTrustedProxySource ip networks client = false)
    (hproxies : ∀ proxy ∈ proxies, isTrustedProxySource ip networks proxy = true) :
    resolveConnectionClientIp ip networks headers (some socket) true = some client := by
  have hpeer : (true && decide (socket ≠ "") && isTrustedProxySource ip networks socket) =
    true := by
    simp [hsocket, ne_empty_of_valid (isValidIp_of_trusted hsocket)]
  rw [resolveConnectionClientIp, if_pos hpeer, hheader]
  dsimp only
  rw [if_neg (forwarded_ne_empty hsuffix hvalid),
    resolve_forwarded hleft hsocket hsuffix hvalid hclient hproxies, Option.getD_some]

end Spoofing

def parseOctet (octet : String) : Option ℕ :=
  let chars := octet.toList
  if chars.isEmpty || !chars.all Char.isDigit || 3 < chars.length then none
  else if octet ≠ "0" && chars.head? = some '0' then none
  else
    let value := chars.foldl (fun n c => 10 * n + (c.toNat - '0'.toNat)) 0
    if 255 < value then none else some value

def parseIpv4 (text : String) : Option ℕ := do
  let octets := (text.toList.splitOn '.').map String.ofList
  if octets.length ≠ 4 then none
  else
    let values ← octets.mapM parseOctet
    pure (values.foldl (fun n value => 256 * n + value) 0)

structure Ipv4Network where
  address : ℕ
  prefixLength : ℕ

def ipv4 : IpAddresses ℕ Ipv4Network where
  ipAddress := parseIpv4
  contains network address :=
    address / 2 ^ (32 - network.prefixLength) = network.address / 2 ^ (32 - network.prefixLength)
  ipAddress_empty := by decide +kernel

def privateProxies : List Ipv4Network := [⟨10 * 2 ^ 24, 8⟩]

def forwardedRequest (left : Option String) : Headers :=
  ⟨[("X-Forwarded-For", forwarded left "203.0.113.7, 10.0.0.2")]⟩

end CodexOctopus.Firewall
