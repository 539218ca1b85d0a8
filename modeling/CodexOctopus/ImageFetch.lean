import CodexOctopus.Python
import CodexOctopus.SseSplitting

/-!
# Fetching images

`_fetch_image_data_url` of `app/core/clients/proxy.py` fetches an image that a request names by its
URL. `urllib.parse`, `ipaddress` and the resolver are parameters (`Network`), with what is known of
their texts.
-/

namespace CodexOctopus.ImageFetch

open List Python SseSplitting

structure IpAddress where
  compressed : String
  isGlobal : Bool
  isMulticast : Bool

structure ParseResult where
  scheme : String
  netloc : String
  path : String
  params : String
  query : String
  fragment : String

def hostPort (netloc : List Char) : List Char × List Char :=
  let info := (netloc.reverse.takeWhile (· ≠ '@')).reverse
  if '[' ∈ info then
    let bracketed := (info.dropWhile (· ≠ '[')).tail
    (bracketed.takeWhile (· ≠ ']'),
      ((bracketed.dropWhile (· ≠ ']')).dropWhile (· ≠ ':')).tail)
  else (info.takeWhile (· ≠ ':'), (info.dropWhile (· ≠ ':')).tail)

namespace ParseResult

variable (p : ParseResult)

def hasCredentials : Bool :=
  let userinfo := (p.netloc.toList.reverse.dropWhile (· ≠ '@')).tail.reverse
  userinfo.takeWhile (· ≠ ':') ≠ [] || (userinfo.dropWhile (· ≠ ':')).tail ≠ []

def hostname : String :=
  let host := (hostPort p.netloc.toList).1
  lower (String.ofList (host.takeWhile (· ≠ '%'))) ++ String.ofList (host.dropWhile (· ≠ '%'))

/-- `parsed.port`; `none` is its `ValueError`. -/
def port : Option (Option ℕ) :=
  let digits := (hostPort p.netloc.toList).2
  let n := Nat.ofDigitChars 10 digits 0
  if digits = [] then some none
  else if digits.all Char.isDigit ∧ n ≤ 65535 then some (some n) else none

/-- `urlunparse`, for a `netloc` that is not empty. -/
def urlunparse : String :=
  let url := if p.params = "" then p.path else p.path ++ ";" ++ p.params
  let url := if url ≠ "" ∧ url.toList.head? ≠ some '/' then "/" ++ url else url
  p.scheme ++ "://" ++ p.netloc ++ url ++ (if p.query = "" then "" else "?" ++ p.query) ++
    if p.fragment = "" then "" else "#" ++ p.fragment

def pinnedNetloc (resolvedIp : String) : String :=
  let ipHost := if ':' ∈ resolvedIp.toList then "[" ++ resolvedIp ++ "]" else resolvedIp
  match p.port with
  | some (some port) => ipHost ++ ":" ++ toString port
  | _ => ipHost

def buildPinnedRequestUrl (resolvedIp : String) : String :=
  urlunparse { p with
    path := if p.path = "" then "/" else p.path
    netloc := p.pinnedNetloc resolvedIp }

def host : String :=
  String.ofList ((lower (strip p.hostname)).toList.rdropWhile (· = '.'))

end ParseResult

def delimiters : List Char := ['/', '?', '#', '@', ']']

structure Network where
  imageInlineFetchEnabled : Bool
  imageInlineAllowedHosts : List String
  /-- `urlparse`, unless it raises a `ValueError` -/
  urlparse : String → Option ParseResult
  ipAddress : String → Option IpAddress
  /-- the first fields of the socket addresses that `getaddrinfo` answers -/
  getaddrinfo : String → Option (List (Option String))
  netloc_ends : ∀ {url p}, urlparse url = some p → ∀ c ∈ p.netloc.toList, c ∉ ['/', '?', '#']
  reparsed : ∀ {text ip}, ipAddress text = some ip → ipAddress ip.compressed = some ip
  ipv4_chars : ∀ {text ip}, ipAddress text = some ip → ':' ∉ ip.compressed.toList →
    ∀ c ∈ ip.compressed.toList, c ∉ '[' :: delimiters
  /-- an IPv6 address may have a zone, which is a part of the text -/
  ipv6_chars : ∀ {text ip}, ipAddress text = some ip → ':' ∈ ip.compressed.toList →
    ':' ∈ text.toList ∧ ∀ c ∈ ip.compressed.toList, c ∈ delimiters → c ∈ text.toList
  numeric_hosts : ∀ {host infos addr}, getaddrinfo host = some infos → some addr ∈ infos →
    ∀ c ∈ addr.toList, c ∉ delimiters

def isDisallowedIp (ip : IpAddress) : Bool := ip.isMulticast || !ip.isGlobal

structure SafeImageFetchTarget where
  requestUrls : List String
  hostHeader : String
  serverHostname : String

namespace Network

variable (w : Network)

def globalIps : List (Option String) → List String → Option (List String)
  | [], resolved => some resolved
  | info :: infos, resolved =>
    ((info.bind w.ipAddress).filter (!isDisallowedIp ·)).bind fun ip =>
      globalIps infos (if ip.compressed ∈ resolved then resolved else resolved ++ [ip.compressed])

def resolveGlobalIps (host : String) : Option (List String) :=
  ((w.getaddrinfo host).bind (w.globalIps · [])).filter (· ≠ [])

def resolvedIps (host : String) : Option (List String) :=
  match w.ipAddress host with
  | some ip => if isDisallowedIp ip then none else some [ip.compressed]
  | none => w.resolveGlobalIps host

def resolveSafeImageFetchTarget (url : String) : Option SafeImageFetchTarget := do
  guard w.imageInlineFetchEnabled
  let p ← w.urlparse url
  guard (p.scheme = "https" ∧ p.hasCredentials = false)
  let host := p.host
  guard (host ≠ "" ∧ host ∉ ["localhost", "localhost.localdomain"])
  guard (w.imageInlineAllowedHosts = [] ∨ host ∈ w.imageInlineAllowedHosts)
  let resolvedIps ← w.resolvedIps host
  let port ← p.port
  some ⟨resolvedIps.map p.buildPinnedRequestUrl,
    if port ∈ [none, some 443] then host else host ++ ":" ++ toString (port.getD 0), host⟩

end Network

structure Request where
  url : String
  hostHeader : String
  serverHostname : String
  allowRedirects : Bool

inductive Reply where
  /-- `aiohttp.ClientError` or a timeout -/
  | failed
  | response (status : ℕ) (contentType : Option String) (chunks : List Bytes)

def collect : List Bytes → Bytes → Option Bytes
  | [], data => some data
  | chunk :: chunks, data =>
    if chunk = [] then collect chunks data
    else if 8 * 1024 * 1024 < (data ++ chunk).length then none
    else collect chunks (data ++ chunk)

/-- What a reply makes of the loop: `none` to go on, or the result. -/
def Reply.result (base64 : Bytes → String) : Reply → Option (Option String)
  | .failed => none
  | .response status contentType chunks =>
    if status ≠ 200 then none
    else
      let mime := strip (String.ofList ((contentType.getD "").toList.takeWhile (· ≠ ';')))
      let mime := if mime = "" then "application/octet-stream" else mime
      match collect chunks [] with
      | none => some none
      | some data =>
        if data = [] then none else some (some ("data:" ++ mime ++ ";base64," ++ base64 data))

/-- The loop of `_fetch_image_data_url`: the requests that are made, and the result. -/
def request (base64 : Bytes → String) (reply : Request → Reply) :
    List Request → List Request × Option String
  | [] => ([], none)
  | r :: rs =>
    match (reply r).result base64 with
    | some result => ([r], result)
    | none => (r :: (request base64 reply rs).1, (request base64 reply rs).2)

def fetchImageDataUrl (w : Network) (base64 : Bytes → String) (reply : Request → Reply)
    (url : String) : List Request × Option String :=
  match w.resolveSafeImageFetchTarget url with
  | none => ([], none)
  | some target => request base64 reply (target.requestUrls.map fun requestUrl =>
      ⟨requestUrl, target.hostHeader, target.serverHostname, false⟩)

/-! ## Hosts -/

theorem hostInfo_eq {netloc : List Char} (h : '@' ∉ netloc) :
    (netloc.reverse.takeWhile (· ≠ '@')).reverse = netloc := by
  rw [takeWhile_eq_self_iff.mpr, reverse_reverse]
  exact fun c hc => decide_eq_true fun hat => h (hat ▸ mem_reverse.mp hc)

theorem takeWhile_ne_append {x : Char} {l r : List Char} (h : x ∉ l)
    (hr : r.head? = none ∨ r.head? = some x) : (l ++ r).takeWhile (· ≠ x) = l := by
  have hl : ∀ c ∈ l, decide (c ≠ x) = true := fun c hc => decide_eq_true fun hx => h (hx ▸ hc)
  rw [takeWhile_append_of_pos hl]
  cases r with
  | nil => simp
  | cons c r => simp_all

theorem not_mem_takeWhile_ne {x : Char} {l : List Char} : x ∉ l.takeWhile (· ≠ x) := by
  intro h
  have hne := mem_takeWhile_imp h
  simp at hne

theorem hostPort_bracketed {host rest : List Char} (hat : '@' ∉ '[' :: (host ++ ']' :: rest))
    (h : ']' ∉ host) : (hostPort ('[' :: (host ++ ']' :: rest))).1 = host := by
  rw [hostPort, hostInfo_eq hat]
  simpa using takeWhile_ne_append h (r := ']' :: rest) (.inr rfl)

theorem hostPort_plain {host rest : List Char} (hat : '@' ∉ host ++ rest)
    (hopen : '[' ∉ host ++ rest) (h : ':' ∉ host)
    (hrest : rest.head? = none ∨ rest.head? = some ':') : (hostPort (host ++ rest)).1 = host := by
  rw [hostPort, hostInfo_eq hat]
  simpa only [hopen, if_false] using takeWhile_ne_append h hrest

theorem mem_of_mem_lower {s : String} {c : Char} (h : c ∈ (lower s).toList)
    (hc : c ∈ ':' :: delimiters) : c ∈ s.toList := by
  obtain ⟨x, hx, hmem⟩ := mem_flatMap.mp (String.toList_ofList ▸ h)
  suffices hcx : c = x from hcx ▸ hx
  have hletters : ∀ n < 91, 65 ≤ n → Char.ofNat (n + 32) ∉ ':' :: delimiters := by decide
  rw [lowerChar] at hmem
  split_ifs at hmem with hupper
  · rw [Bool.and_eq_true, decide_eq_true_eq, decide_eq_true_eq] at hupper
    rw [mem_singleton.mp hmem] at hc
    exact absurd hc (hletters _ (Nat.lt_succ_of_le hupper.2) hupper.1)
  · rcases mem_pair.mp hmem with rfl | rfl <;> exact absurd hc (by decide)
  · exact absurd (mem_singleton.mp hmem ▸ hc) (by decide)
  · exact mem_singleton.mp hmem

theorem ParseResult.mem_of_mem_host {p : ParseResult} {c : Char} (h : c ∈ p.host.toList)
    (hc : c ∈ ':' :: delimiters) : c ∈ (hostPort p.netloc.toList).1 := by
  rw [host, String.toList_ofList] at h
  have hstripped := mem_of_mem_lower (( rdropWhile_prefix _ _).subset h) hc
  rw [strip, String.toList_ofList, mem_reverse] at hstripped
  have hname : c ∈ p.hostname.toList := (dropWhile_sublist _).subset
    (mem_reverse.mp ((dropWhile_sublist _).subset hstripped))
  rw [hostname, String.toList_append, mem_append, String.toList_ofList] at hname
  rcases hname with hname | hname
  · have htaken := mem_of_mem_lower hname hc
    rw [String.toList_ofList] at htaken
    exact (takeWhile_sublist _).subset htaken
  · exact (dropWhile_sublist _).subset hname

theorem hostPort_subset {netloc : List Char} {c : Char} (h : c ∈ (hostPort netloc).1) :
    c ∈ netloc ∧ c ≠ '@' := by
  have hinfo : c ∈ (netloc.reverse.takeWhile (· ≠ '@')).reverse := by
    rw [hostPort] at h
    split at h
    · exact (dropWhile_sublist _).subset (mem_of_mem_tail ((takeWhile_sublist _).subset h))
    · exact (takeWhile_sublist _).subset h
  rw [mem_reverse] at hinfo
  refine ⟨mem_reverse.mp ((takeWhile_sublist _).subset hinfo), ?_⟩
  rintro rfl
  exact not_mem_takeWhile_ne hinfo

theorem hostPort_of_colon {netloc : List Char} (h : ':' ∈ (hostPort netloc).1) :
    ']' ∉ (hostPort netloc).1 := by
  intro hclose
  rw [hostPort] at h hclose
  split at h
  · rename_i hopen
    rw [if_pos hopen] at hclose
    exact not_mem_takeWhile_ne hclose
  · exact not_mem_takeWhile_ne h

theorem Network.host_delimiters (w : Network) {url : String} {p : ParseResult}
    (h : w.urlparse url = some p) (hcolon : ':' ∈ p.host.toList) :
    ∀ c ∈ p.host.toList, c ∉ delimiters := by
  intro c hc hdelim
  have hmem := ParseResult.mem_of_mem_host hc (mem_cons_of_mem _ hdelim)
  have hclose := hostPort_of_colon (ParseResult.mem_of_mem_host hcolon mem_cons_self)
  obtain ⟨hnetloc, hat⟩ := hostPort_subset hmem
  have hends := w.netloc_ends h c hnetloc
  simp only [delimiters, mem_cons, not_mem_nil, or_false] at hdelim hends
  rcases hdelim with rfl | rfl | rfl | rfl | rfl <;> simp_all

/-! ## Requests -/

def HttpsTo (host url : String) : Prop :=
  ∃ netloc rest : List Char, url.toList = "https://".toList ++ netloc ++ '/' :: rest ∧
    (∀ c ∈ netloc, c ∉ ['/', '?', '#']) ∧ (hostPort netloc).1 = host.toList

theorem ParseResult.pinnedNetloc_eq (p : ParseResult) (ip : String) : ∃ port : List Char,
    (port.head? = none ∨ port.head? = some ':') ∧ (∀ c ∈ port, c = ':' ∨ c.isDigit = true) ∧
    (p.pinnedNetloc ip).toList = if ':' ∈ ip.toList then '[' :: (ip.toList ++ ']' :: port)
      else ip.toList ++ port := by
  rw [pinnedNetloc]
  split
  · rename_i n _
    refine ⟨':' :: Nat.toDigits 10 n, .inr rfl, ?_, ?_⟩
    · intro c hc
      exact (mem_cons.mp hc).imp id (Nat.isDigit_of_mem_toDigits (by decide) (by decide))
    · rw [Nat.toString_eq_ofList_toDigits]
      split_ifs <;> simp
  · refine ⟨[], .inl rfl, fun c hc => absurd hc not_mem_nil, ?_⟩
    split_ifs <;> simp

theorem ParseResult.urlunparse_eq {p : ParseResult} (h : p.scheme = "https") (hpath : p.path ≠ "") :
    ∃ rest, p.urlunparse.toList = "https://".toList ++ p.netloc.toList ++ '/' :: rest := by
  obtain ⟨url, hurl⟩ : ∃ url, url = if p.params = "" then p.path else p.path ++ ";" ++ p.params :=
    ⟨_, rfl⟩
  have hne : url ≠ "" := by
    rw [hurl]
    split_ifs
    · exact hpath
    · simp [String.append_eq_empty_iff]
  obtain ⟨rest, hrest⟩ : ∃ rest, '/' :: rest =
      (if url ≠ "" ∧ url.toList.head? ≠ some '/' then "/" ++ url else url).toList := by
    by_cases hslash : url.toList.head? = some '/'
    · rw [if_neg fun hif => hif.2 hslash]
      exact ⟨_, cons_head?_tail hslash⟩
    · rw [if_pos ⟨hne, hslash⟩]
      exact ⟨url.toList, by simp⟩
  rw [urlunparse, ← hurl, h]
  simp only [String.toList_append, append_assoc, ← hrest]
  exact ⟨_, rfl⟩

theorem HttpsTo.pinned {p : ParseResult} {ip : String} (hscheme : p.scheme = "https")
    (hip : ∀ c ∈ ip.toList, c ∉ delimiters) (hplain : ':' ∉ ip.toList → '[' ∉ ip.toList) :
    HttpsTo ip (p.buildPinnedRequestUrl ip) := by
  obtain ⟨port, hhead, hport, hnetloc⟩ := p.pinnedNetloc_eq ip
  obtain ⟨rest, hurl⟩ : ∃ rest, (p.buildPinnedRequestUrl ip).toList =
      "https://".toList ++ (p.pinnedNetloc ip).toList ++ '/' :: rest := by
    refine ParseResult.urlunparse_eq hscheme ?_
    change (if p.path = "" then "/" else p.path) ≠ ""
    split_ifs with hpath
    · decide
    · exact hpath
  have hend : ∀ c ∈ '[' :: delimiters, c ∉ port := fun c hc hmem => by
    rcases hport c hmem with rfl | hdigit
    · exact absurd hc (by decide)
    · revert hdigit
      simp only [delimiters, mem_cons, not_mem_nil, or_false] at hc
      rcases hc with rfl | rfl | rfl | rfl | rfl | rfl <;> decide
  have hclean : ∀ c ∈ ['/', '?', '#', '@'], c ∉ (p.pinnedNetloc ip).toList := fun c hc => by
    have hdelim : c ∈ delimiters := mem_append_left [']'] hc
    have hbrackets : c ≠ '[' ∧ c ≠ ']' := by
      constructor <;> (rintro rfl; exact absurd hc (by decide))
    have hipc : c ∉ ip.toList := fun hmem => hip c hmem hdelim
    rw [hnetloc]
    split_ifs <;> simp [hipc, hbrackets, hend c (mem_cons_of_mem _ hdelim)]
  refine ⟨_, rest, hurl, fun c hc hmem => hclean c (by grind) hc, ?_⟩
  have hat := hclean '@' (by decide)
  rw [hnetloc] at hat ⊢
  split_ifs at hat ⊢ with hcolon
  · exact hostPort_bracketed hat fun hclose => hip _ hclose (by decide)
  · refine hostPort_plain hat ?_ hcolon hhead
    exact fun hopen => (mem_append.mp hopen).elim (hplain hcolon) (hend _ mem_cons_self)

/-- The texts that are read as an address for a URL: its host, or what the resolver answers. -/
def Network.Source (w : Network) (p : ParseResult) (text : String) : Prop :=
  text = p.host ∨ w.ipAddress p.host = none ∧
    ∃ infos, w.getaddrinfo p.host = some infos ∧ some text ∈ infos

def Network.External (w : Network) (url : String) (r : Request) : Prop :=
  ∃ p text ip, w.urlparse url = some p ∧ w.Source p text ∧ w.ipAddress text = some ip ∧
    ip.isGlobal = true ∧ ip.isMulticast = false ∧ w.ipAddress ip.compressed = some ip ∧
    HttpsTo ip.compressed r.url ∧ r.serverHostname = p.host ∧ r.allowRedirects = false

def Network.AnswersDisallowed (w : Network) (url : String) : Prop :=
  ∃ p infos text ip, w.urlparse url = some p ∧ w.ipAddress p.host = none ∧
    w.getaddrinfo p.host = some infos ∧ some text ∈ infos ∧ w.ipAddress text = some ip ∧
    isDisallowedIp ip = true

variable {w : Network} {url : String}

theorem globalIps_some {infos : List (Option String)} {resolved ips : List String}
    (h : w.globalIps infos resolved = some ips) :
    (∀ text, some text ∈ infos → ∀ ip, w.ipAddress text = some ip → isDisallowedIp ip = false) ∧
    ∀ s ∈ ips, s ∈ resolved ∨ ∃ text ip, some text ∈ infos ∧ w.ipAddress text = some ip ∧
      ip.compressed = s := by
  induction infos generalizing resolved with
  | nil =>
    obtain rfl := Option.some.inj h
    exact ⟨fun _ hmem => absurd hmem not_mem_nil, fun s hs => .inl hs⟩
  | cons info infos ih =>
    obtain ⟨ip, hip, hrest⟩ := Option.bind_eq_some_iff.mp h
    obtain ⟨hinfo, hallowed⟩ := Option.filter_eq_some_iff.mp hip
    obtain ⟨text, rfl, htext⟩ := Option.bind_eq_some_iff.mp hinfo
    have hallowed : isDisallowedIp ip = false := by simpa using hallowed
    obtain ⟨hall, hips⟩ := ih hrest
    constructor
    · intro other hother ip' hip'
      rcases mem_cons.mp hother with hother | hother
      · obtain rfl := Option.some.inj hother
        rw [htext] at hip'
        exact Option.some.inj hip' ▸ hallowed
      · exact hall other hother ip' hip'
    · intro s hs
      rcases hips s hs with hs | ⟨other, ip', hother, hip'⟩
      · have hs : s ∈ resolved ∨ s = ip.compressed := by
          split_ifs at hs
          · exact .inl hs
          · simpa using hs
        exact hs.imp id fun hs => ⟨text, ip, mem_cons_self, htext, hs.symm⟩
      · exact .inr ⟨other, ip', mem_cons_of_mem _ hother, hip'⟩

theorem requests_subset {base64 : Bytes → String} {reply : Request → Reply} :
    ∀ {rs : List Request}, ∀ r ∈ (request base64 reply rs).1, r ∈ rs
  | [], r, h => absurd h not_mem_nil
  | first :: rs, r, h => by
    rw [request] at h
    split at h
    · exact mem_cons.mpr (.inl (mem_singleton.mp h))
    · exact (mem_cons.mp h).elim (fun h => h ▸ mem_cons_self) fun h =>
        mem_cons_of_mem _ (requests_subset r h)

theorem compressed_https {p : ParseResult} {text : String} {ip : IpAddress}
    (hurl : w.urlparse url = some p) (hscheme : p.scheme = "https") (htext : w.Source p text)
    (hip : w.ipAddress text = some ip) :
    HttpsTo ip.compressed (p.buildPinnedRequestUrl ip.compressed) := by
  by_cases hcolon : ':' ∈ ip.compressed.toList
  · obtain ⟨hcolon', hchars⟩ := w.ipv6_chars hip hcolon
    have hclean : ∀ c ∈ text.toList, c ∉ delimiters := by
      rcases htext with rfl | ⟨_, infos, hinfos, hmem⟩
      · exact w.host_delimiters hurl hcolon'
      · exact w.numeric_hosts hinfos hmem
    refine HttpsTo.pinned hscheme (fun c hc hdelim => ?_) fun h => absurd hcolon h
    exact hclean c (hchars c hc hdelim) hdelim
  · have hchars := w.ipv4_chars hip hcolon
    refine HttpsTo.pinned hscheme (fun c hc hdelim => ?_) fun _ hopen => ?_
    · exact hchars c hc (mem_cons_of_mem _ hdelim)
    · exact hchars _ hopen mem_cons_self

theorem resolvedIps_some {p : ParseResult} {ips : List String} (hurl : w.urlparse url = some p)
    (h : w.resolvedIps p.host = some ips) :
    ¬w.AnswersDisallowed url ∧ ∀ s ∈ ips, ∃ text ip, w.Source p text ∧
      w.ipAddress text = some ip ∧ isDisallowedIp ip = false ∧ ip.compressed = s := by
  rw [Network.resolvedIps] at h
  cases hliteral : w.ipAddress p.host with
  | some ip =>
    rw [hliteral] at h
    obtain ⟨hallowed, hips⟩ := Option.ite_none_left_eq_some.mp h
    obtain rfl := Option.some.inj hips
    constructor
    · rintro ⟨p', infos, text, ip', hurl', hnone, _⟩
      obtain rfl := Option.some.inj (hurl.symm.trans hurl')
      exact absurd (hnone.symm.trans hliteral) nofun
    · intro s hs
      exact ⟨_, ip, .inl rfl, hliteral, by simpa using hallowed, (mem_singleton.mp hs).symm⟩
  | none =>
    rw [hliteral] at h
    obtain ⟨hbind, _⟩ := Option.filter_eq_some_iff.mp h
    obtain ⟨infos, hinfos, hloop⟩ := Option.bind_eq_some_iff.mp hbind
    obtain ⟨hall, hips⟩ := globalIps_some hloop
    constructor
    · rintro ⟨p', infos', text, ip, hurl', _, hinfos', htext, hip, hdisallowed⟩
      obtain rfl := Option.some.inj (hurl.symm.trans hurl')
      obtain rfl := Option.some.inj (hinfos.symm.trans hinfos')
      exact absurd (hall text htext ip hip) (by simp [hdisallowed])
    · intro s hs
      obtain ⟨text, ip, htext, hip, hs⟩ := (hips s hs).resolve_left not_mem_nil
      exact ⟨text, ip, .inr ⟨hliteral, infos, hinfos, htext⟩, hip, hall text htext ip hip, hs⟩

theorem target_some {target : SafeImageFetchTarget}
    (h : w.resolveSafeImageFetchTarget url = some target) :
    ∃ p ips, w.urlparse url = some p ∧ p.scheme = "https" ∧ w.resolvedIps p.host = some ips ∧
      target.serverHostname = p.host ∧ target.requestUrls = ips.map p.buildPinnedRequestUrl := by
  simp only [Network.resolveSafeImageFetchTarget, Option.bind_eq_bind, Option.bind_eq_some_iff] at h
  obtain ⟨_, _, p, hurl, _, hguard, _, _, _, _, ips, hips, port, _, htarget⟩ := h
  obtain rfl := Option.some.inj htarget
  have hscheme : p.scheme = "https" := by
    by_contra hne
    simp [hne] at hguard
  exact ⟨p, ips, hurl, hscheme, hips, rfl, rfl⟩

/-- **Image fetching cannot reach internal hosts**: every request goes to a global address read from
the host or the answer for it; none is made if one of the answer is disallowed. -/
theorem image_fetch_external (w : Network) (base64 : Bytes → String) (reply : Request → Reply)
    (url : String) :
    (∀ r ∈ (fetchImageDataUrl w base64 reply url).1, w.External url r) ∧
    (w.AnswersDisallowed url → (fetchImageDataUrl w base64 reply url).1 = []) := by
  rw [fetchImageDataUrl]
  cases htarget : w.resolveSafeImageFetchTarget url with
  | none => exact ⟨fun r h => absurd h not_mem_nil, fun _ => rfl⟩
  | some target =>
    obtain ⟨p, ips, hurl, hscheme, hips, hname, hurls⟩ := target_some htarget
    obtain ⟨hallowed, hsource⟩ := resolvedIps_some hurl hips
    refine ⟨fun r hr => ?_, fun h => absurd h hallowed⟩
    obtain ⟨requestUrl, hmem, rfl⟩ := mem_map.mp (requests_subset r hr)
    obtain ⟨s, hs, rfl⟩ := mem_map.mp (hurls ▸ hmem)
    obtain ⟨text, ip, htext, hip, hglobal, rfl⟩ := hsource s hs
    obtain ⟨hmulticast, hglobal⟩ : ip.isMulticast = false ∧ ip.isGlobal = true := by
      simpa [isDisallowedIp] using hglobal
    exact ⟨p, text, ip, hurl, htext, hip, hglobal, hmulticast, w.reparsed hip,
      compressed_https hurl hscheme htext hip, hname, rfl⟩

def oneAddress : Network where
  imageInlineFetchEnabled := true
  imageInlineAllowedHosts := []
  urlparse _ := some ⟨"https", "A.com:8443", "", "", "a=1", ""⟩
  ipAddress text := if text = "8.8.8.8" then some ⟨text, true, false⟩ else none
  getaddrinfo _ := some [some "8.8.8.8"]
  netloc_ends h := by
    cases h
    simp
  reparsed h := by
    obtain ⟨rfl, h⟩ := Option.ite_none_right_eq_some.mp h
    cases h
    rfl
  ipv4_chars h _ := by
    obtain ⟨rfl, h⟩ := Option.ite_none_right_eq_some.mp h
    cases h
    simp [delimiters]
  ipv6_chars h hcolon := by
    obtain ⟨rfl, h⟩ := Option.ite_none_right_eq_some.mp h
    cases h
    exact absurd hcolon (by decide)
  numeric_hosts h hmem := by
    cases h
    cases Option.some.inj (mem_singleton.mp hmem)
    simp [delimiters]

example : (fetchImageDataUrl oneAddress (fun _ => "") (fun _ => .failed) "").1.map Request.url =
    ["https://8.8.8.8:8443/?a=1"] := by decide +kernel

end CodexOctopus.ImageFetch
