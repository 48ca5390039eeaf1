import Mathlib
import WorkTicket.Foundation.Fallible
import WorkTicket.Foundation.Urls

/-! The download of a recording by the service that transcribes it: the host of its URL is resolved
and checked, and the request is sent to the address that was checked. -/

namespace WorkTicket.Ai.AudioDownload

open Urls TextSplits

/-! ## Addresses -/

structure Address where
  first : Fin 256
  second : Fin 256
  third : Fin 256
  fourth : Fin 256
  deriving DecidableEq

namespace Address

def value (ip : Address) : ℕ :=
  ((ip.first * 256 + ip.second) * 256 + ip.third) * 256 + ip.fourth

def text (ip : Address) : Text :=
  Nat.toDigits 10 ip.first ++ '.' :: (Nat.toDigits 10 ip.second ++ '.' ::
    (Nat.toDigits 10 ip.third ++ '.' :: Nat.toDigits 10 ip.fourth))

end Address

/-- An `ip_network`. -/
structure Block where
  base : Address
  bits : ℕ

def Block.contains (block : Block) (ip : Address) : Bool :=
  ip.value / 2 ^ (32 - block.bits) = block.base.value / 2 ^ (32 - block.bits)

/-- `_PRIVATE_IP_BLOCKS` without the blocks of IPv6, which have no address of this kind. -/
def privateIpBlocks : List Block :=
  [⟨⟨10, 0, 0, 0⟩, 8⟩, ⟨⟨172, 16, 0, 0⟩, 12⟩, ⟨⟨192, 168, 0, 0⟩, 16⟩, ⟨⟨127, 0, 0, 0⟩, 8⟩,
    ⟨⟨169, 254, 0, 0⟩, 16⟩]

def isPrivate (ip : Address) : Bool := privateIpBlocks.any (·.contains ip)

/-! ## The network -/

/-- The symbols of a URL that no part of it is quoted or bracketed in. -/
def isPlainChar (c : Char) : Bool := c.isAlphanum || "-._~!$&'()*+,;=:/?#@".toList.contains c

def Plain (url : Text) : Prop := ∀ c ∈ url, isPlainChar c = true

def sentSchemes : List Text :=
  ["http".toList, "https".toList, "ws".toList, "wss".toList]

/-- What is used of `getaddrinfo` and of the client that sends the requests. -/
structure Net where
  /-- The address that a host is the text of, for which nothing is looked up. -/
  literal : Text → Option Address
  /-- The host that a request for a URL is sent to. -/
  target : Text → Option Text
  literal_text : ∀ ip : Address, literal ip.text = some ip
  target_scheme : ∀ url host, target url = some host → (splitScheme url).1 ∈ sentSchemes
  target_host : ∀ url host, Plain url → target url = some host → host = hostname url

/-- The names' addresses at one time, or why they have none. -/
abbrev Names := Text → Except Text Address

def getaddrinfo (net : Net) (names : Names) (host : Text) : Except Text Address :=
  match net.literal host with
  | some ip => .ok ip
  | none => names host

/-! ## The service -/

structure HTTPException where
  status : ℕ
  detail : Text
  deriving DecidableEq

inductive Failure
  | http (e : HTTPException)
  | other

structure Request where
  url : Text
  host : Text
  deriving DecidableEq

section
variable (allowedHosts : List Text) (net : Net)

def resolveAndValidate (names : Names) (host : Text) : Except HTTPException Address :=
  if host = [] then .error ⟨400, "URL must include a hostname".toList⟩
  else if allowedHosts ≠ [] ∧ host ∉ allowedHosts then
    .error ⟨400, "Host ".toList ++ host ++ " not in allowlist".toList⟩
  else
    match getaddrinfo net names host with
    | .error e => .error ⟨400, "Failed to resolve URL: ".toList ++ e⟩
    | .ok ip =>
      if isPrivate ip then
        .error ⟨400, "Requests to private IP range (".toList ++ ip.text ++
          ") are blocked for security".toList⟩
      else .ok ip

/-- The checks that both functions make of the URL before its host is resolved. -/
def checkUrl (url : Text) : Except HTTPException Text :=
  if (splitScheme url).1 ∉ ["http".toList, "https".toList] then
    .error ⟨400, "Only http/https URLs are allowed".toList⟩
  else if hostname url = [] then .error ⟨400, "URL must include a hostname".toList⟩
  else .ok (hostname url)

def validateUrl (names : Names) (url : Text) : Except HTTPException Text := do
  let host ← checkUrl url
  let _ ← resolveAndValidate allowedHosts net names host
  return url

/-- The URL with the address for the host, or nothing where the port is none. -/
def safeUrl (url : Text) (ip : Address) : Option Text :=
  let named := replaceOnce (hostname url) ip.text url
  (port url).map fun port =>
    if port.getD 0 = 0 then named else replaceOnce (portText (port.getD 0)) [] named

/-- `_download_audio`, up to the request that it sends. -/
def downloadAudio (names : Names) (url : Text) : Except Failure Request := do
  let host ← (checkUrl url).mapError .http
  let ip ← (resolveAndValidate allowedHosts net names host).mapError .http
  match safeUrl url ip with
  | some safe => .ok ⟨safe, host⟩
  | none => .error .other

/-- `transcribe_url`, up to the request that it sends; names are asked for twice. -/
def transcribeUrl (checked sent : Names) (url : Text) : Except HTTPException Request :=
  match validateUrl allowedHosts net checked url with
  | .error e => .error e
  | .ok _ =>
    match downloadAudio allowedHosts net sent url with
    | .ok request => .ok request
    | .error (.http e) => .error e
    | .error .other => .error ⟨500, "Transcription failed".toList⟩

end

/-! ## A host in small letters -/

theorem toLower_eq_self {c : Char} (h : c.toLower.isAlpha = false) : c.toLower = c := by
  rw [Char.isAlpha_toLower_eq_isAlpha, Char.isAlpha, Bool.or_eq_false_iff] at h
  exact Char.toLower_eq_of_not_isUpper (by simp [h.1])

theorem digit_not_alpha {c : Char} (h : c.isDigit = true) : c.isAlpha = false := by
  simp only [Char.isDigit, Bool.and_eq_true, decide_eq_true_eq, ge_iff_le,
    UInt32.le_iff_toNat_le] at h
  have hrange : 48 ≤ c.toNat ∧ c.toNat ≤ 57 := h
  simp only [Char.isAlpha, Char.isUpper, Char.isLower, Bool.or_eq_false_iff, Bool.and_eq_false_iff,
    decide_eq_false_iff_not, ge_iff_le, UInt32.le_iff_toNat_le]
  refine ⟨fun hupper => ?_, .inl fun hlower => ?_⟩
  · have h65 : 65 ≤ c.toNat := hupper.1
    omega
  · have h97 : 97 ≤ c.toNat := hlower
    omega

/-- A text is in small letters when what it has in small letters is no letter. -/
theorem lower_eq_self {text : Text} (h : ∀ c ∈ lower text, c.isAlpha = false) :
    lower text = text := by
  have hself : ∀ c ∈ text, c.toLower = id c := fun c hc =>
    toLower_eq_self (h _ (List.mem_map_of_mem hc))
  exact (List.map_congr_left hself).trans (List.map_id text)

/-- A symbol that parts a URL is no letter. -/
theorem not_delimiter_of_alpha {c : Char} (h : c.isAlpha = true) :
    isDelimiter c = false ∧ c ≠ '@' ∧ c ≠ ':' := by
  refine ⟨?_, ?_, ?_⟩
  · by_contra hc
    rw [Bool.not_eq_false, isDelimiter, Bool.or_eq_true, Bool.or_eq_true, decide_eq_true_eq,
      decide_eq_true_eq, decide_eq_true_eq] at hc
    rcases hc with (rfl | rfl) | rfl <;> cases h
  · rintro rfl
    cases h
  · rintro rfl
    cases h

namespace Address

variable {ip : Address}

theorem mem_text {c : Char} (hc : c ∈ ip.text) : c.isDigit = true ∨ c = '.' := by
  have hdigit : ∀ {n : ℕ}, c ∈ Nat.toDigits 10 n → c.isDigit = true := fun hn =>
    Nat.isDigit_of_mem_toDigits (by decide) (by decide) hn
  simp only [text, List.mem_append, List.mem_cons] at hc
  rcases hc with hc | hc | hc | hc | hc | hc | hc
  · exact .inl (hdigit hc)
  · exact .inr hc
  · exact .inl (hdigit hc)
  · exact .inr hc
  · exact .inl (hdigit hc)
  · exact .inr hc
  · exact .inl (hdigit hc)

theorem dot_mem_text (ip : Address) : '.' ∈ ip.text :=
  List.mem_append_right _ List.mem_cons_self

theorem text_plain (ip : Address) :
    ∀ c ∈ ip.text, isDelimiter c = false ∧ c ≠ '@' ∧ c ≠ ':' := by
  intro c hc
  rcases mem_text hc with hc | rfl
  · refine ⟨(Parts.isDelimiter_digit hc).1, (Parts.isDelimiter_digit hc).2, ?_⟩
    rintro rfl
    cases hc
  · decide

theorem isPlainChar_of_mem {c : Char} (hc : c ∈ ip.text) : isPlainChar c = true := by
  rcases mem_text hc with hc | rfl
  · rw [isPlainChar, Char.isAlphanum, hc, Bool.or_true, Bool.true_or]
  · decide

theorem lower_text (ip : Address) : lower ip.text = ip.text := by
  refine lower_eq_self fun c hc => ?_
  obtain ⟨d, hd, rfl⟩ := List.mem_map.mp hc
  rw [Char.isAlpha_toLower_eq_isAlpha]
  rcases mem_text hd with hd | rfl
  · exact digit_not_alpha hd
  · rfl

end Address

section
variable {p : Parts}

theorem lower_host_plain (h : p.Proper) :
    ∀ c ∈ lower p.host, isDelimiter c = false ∧ c ≠ '@' ∧ c ≠ ':' := by
  intro c hc
  obtain ⟨d, hd, rfl⟩ := List.mem_map.mp hc
  cases hletter : d.toLower.isAlpha with
  | true => exact not_delimiter_of_alpha hletter
  | false => exact (toLower_eq_self hletter).symm ▸ h.plainHost d hd

theorem zone_not_mem (hplain : Plain p.text) : '%' ∉ p.host := by
  intro hc
  have hmem : '%' ∈ p.text := by simp [Parts.text, hc]
  exact absurd (hplain _ hmem) (by decide)

/-! ## The request -/

/-- The host is in small letters and the address stands nowhere before it. -/
def Replaced (p : Parts) : Prop := lower p.host = p.host ∧ ¬lower p.host <:+: p.user

/-- With the address put in, the URL has it for its host exactly where the host is found first. -/
theorem exists_named (h : p.Proper) (hhost : p.host ≠ []) {n : Option ℕ}
    (hport : port p.text = some n) (hscheme : ¬lower p.host <:+: p.scheme) (ip : Address) :
    ∃ q : Parts, q.Proper ∧ q.place = p.place ∧ replaceOnce (lower p.host) ip.text p.text = q.text ∧
      (Replaced p → q.host = ip.text) ∧ (¬Replaced p → q.host = p.host) := by
  have hword : lower p.host ≠ [] := fun hnil => hhost (List.map_eq_nil_iff.mp hnil)
  have hplain := lower_host_plain h
  have hat : '@' ∉ lower p.host := fun hc => (hplain _ hc).2.1 rfl
  have hcolon : ':' ∉ lower p.host := fun hc => (hplain _ hc).2.2 rfl
  rw [Parts.replaceOnce_text h hword hplain hscheme]
  by_cases huser : lower p.host <:+: p.user
  · rw [if_pos huser]
    refine ⟨_, h.replaceUser hword hat fun c hc => (ip.text_plain c hc).1, rfl, rfl, ?_, ?_⟩
    · exact fun hreplaced => absurd huser hreplaced.2
    · exact fun _ => rfl
  rw [if_neg huser]
  by_cases hlower : lower p.host = p.host
  · refine ⟨{ p with host := ip.text }, { h with plainHost := ip.text_plain }, rfl, ?_, ?_, ?_⟩
    · have hfirst : replaceOnce (lower p.host) ip.text (lower p.host ++ (p.place ++ p.path)) =
          ip.text ++ (p.place ++ p.path) := replaceOnce_prefix hword
      rw [hlower] at hfirst ⊢
      rw [hfirst, Parts.text]
    · exact fun _ => rfl
    · exact fun hnot => absurd ⟨hlower, huser⟩ hnot
  · -- it is found behind the port at the soonest, which has digits only
    have hinHost : ¬lower p.host <:+: p.host := fun hwithin =>
      hlower (hwithin.eq_of_length (List.length_map _))
    have hdelimiter : ∀ c ∈ lower p.host, isDelimiter c = false := fun c hc => (hplain c hc).1
    have hpath : replaceOnce (lower p.host) ip.text (p.host ++ (p.place ++ p.path)) =
        p.host ++ (p.place ++ replaceOnce (lower p.host) ip.text p.path) := by
      rcases h.place with hplace | ⟨digits, hplace⟩
      · rw [hplace]
        exact Parts.replaceOnce_path h hword hdelimiter hinHost
      · have hdigits : ¬lower p.host <:+: digits := by
          intro hwithin
          refine hlower (lower_eq_self fun c hc => digit_not_alpha ?_)
          exact Parts.port_digits h hport c (hplace ▸ hwithin.subset hc)
        rw [hplace, List.cons_append, replaceOnce_append_cons hword hcolon, if_neg hinHost,
          Parts.replaceOnce_path h hword hdelimiter hdigits, List.cons_append]
    refine ⟨{ p with path := replaceOnce (lower p.host) ip.text p.path },
      h.replacePath hword hdelimiter, rfl, ?_, ?_, ?_⟩
    · rw [hpath]
      rfl
    · exact fun hreplaced => absurd hreplaced.1 hlower
    · exact fun _ => rfl

/-- The URL that the request is sent to, where the host does not stand in its scheme. -/
theorem exists_safeUrl (h : p.Proper) (hplain : Plain p.text) (hhost : p.host ≠ [])
    (hscheme : ¬lower p.host <:+: p.scheme) {ip : Address} {safe : Text}
    (hsafe : safeUrl p.text ip = some safe) : ∃ q : Parts, q.Proper ∧ safe = q.text ∧
      (Replaced p → q.host = ip.text) ∧ (¬Replaced p → q.host = p.host) := by
  obtain ⟨n, hport, hsafe⟩ := Option.map_eq_some_iff.mp hsafe
  have hname : hostname p.text = lower p.host := Parts.hostname_text h (zone_not_mem hplain)
  obtain ⟨q, hq, hplace, hnamed, hhosts⟩ := exists_named h hhost hport hscheme ip
  rw [hname, hnamed] at hsafe
  split_ifs at hsafe with hzero
  · exact ⟨q, hq, hsafe.symm, hhosts⟩
  · have hqport : port q.text = some (some (n.getD 0)) := by
      rw [Parts.port_congr h hq hplace, hport]
      cases n with
      | none => exact absurd rfl hzero
      | some n => rfl
    obtain ⟨q', hq', -, hhost', htext⟩ := Parts.exists_removePort hq hzero hqport
    rw [htext] at hsafe
    exact ⟨q', hq', hsafe.symm, hhost'.symm ▸ hhosts⟩

/-- Where the host stands in the scheme, the scheme gets the address and nothing is sent. -/
theorem scheme_safeUrl (h : p.Proper) (hplain : Plain p.text) (hhost : p.host ≠ [])
    (hscheme : lower p.host <:+: p.scheme) {ip : Address} {safe : Text}
    (hsafe : safeUrl p.text ip = some safe) : (splitScheme safe).1 ∉ sentSchemes := by
  have hword : lower p.host ≠ [] := fun hnil => hhost (List.map_eq_nil_iff.mp hnil)
  have hcolon : ':' ∉ lower p.host := fun hc => (lower_host_plain h _ hc).2.2 rfl
  obtain ⟨n, -, hsafe⟩ := Option.map_eq_some_iff.mp hsafe
  have hname : hostname p.text = lower p.host := Parts.hostname_text h (zone_not_mem hplain)
  have hdot : '.' ∈ replaceOnce (lower p.host) ip.text p.scheme :=
    (infix_replaceOnce hscheme).subset ip.dot_mem_text
  have hcolon' : ':' ∉ replaceOnce (lower p.host) ip.text p.scheme := by
    intro hc
    rcases mem_of_mem_replaceOnce hc with hc | hc
    · exact h.colon_not_mem hc
    · exact (ip.text_plain _ hc).2.2 rfl
  rw [hname, Parts.text, replaceOnce_append_cons hword hcolon, if_pos hscheme] at hsafe
  -- the colon of the scheme is still the first one
  obtain ⟨rest, rfl⟩ : ∃ rest,
      safe = replaceOnce (lower p.host) ip.text p.scheme ++ ':' :: rest := by
    split_ifs at hsafe with hzero
    · exact ⟨_, hsafe.symm⟩
    · exact ⟨_, hsafe.symm.trans (Parts.replaceOnce_portText_scheme _ hcolon' _)⟩
  rw [splitScheme, splitOnce_append hcolon']
  intro hsent
  dsimp only at hsent
  split_ifs at hsent with hisScheme
  · have hlower : '.' ∈ lower (replaceOnce (lower p.host) ip.text p.scheme) :=
      List.mem_map.mpr ⟨'.', hdot, rfl⟩
    have hnone : ∀ scheme ∈ sentSchemes, '.' ∉ scheme := by decide
    exact hnone _ hsent hlower
  · have hnone : ([] : Text) ∉ sentSchemes := by decide
    exact hnone hsent

theorem plain_safeUrl {url safe : Text} {ip : Address} (hplain : Plain url)
    (hsafe : safeUrl url ip = some safe) : Plain safe := by
  obtain ⟨n, -, hsafe⟩ := Option.map_eq_some_iff.mp hsafe
  have hnamed : Plain (replaceOnce (hostname url) ip.text url) := by
    intro c hc
    rcases mem_of_mem_replaceOnce hc with hc | hc
    · exact hplain c hc
    · exact Address.isPlainChar_of_mem hc
  split_ifs at hsafe with hzero
  · exact hsafe ▸ hnamed
  · intro c hc
    rw [← hsafe] at hc
    rcases mem_of_mem_replaceOnce hc with hc | hc
    · exact hnamed c hc
    · cases hc

end

section
variable {allowedHosts : List Text} {net : Net} {names checked sent : Names} {url host : Text}
  {ip : Address} {request : Request}

theorem of_resolveAndValidate (h : resolveAndValidate allowedHosts net names host = .ok ip) :
    (allowedHosts = [] ∨ host ∈ allowedHosts) ∧ getaddrinfo net names host = .ok ip ∧
      isPrivate ip = false := by
  unfold resolveAndValidate at h
  split_ifs at h with hempty hallowed
  have hallowed' : allowedHosts = [] ∨ host ∈ allowedHosts := by
    by_contra hnot
    exact hallowed (not_or.mp hnot |>.imp id id)
  split at h
  · cases h
  · rename_i found hfound
    split_ifs at h with hprivate
    obtain rfl := Except.ok.inj h
    exact ⟨hallowed', hfound, Bool.not_eq_true _ ▸ hprivate⟩

theorem of_checkUrl (h : checkUrl url = .ok host) :
    (splitScheme url).1 ∈ ["http".toList, "https".toList] ∧ hostname url ≠ [] ∧
      host = hostname url := by
  unfold checkUrl at h
  split_ifs at h with hscheme hempty
  exact ⟨hscheme, hempty, (Except.ok.inj h).symm⟩

/-- What was checked of a URL for which a request is made. -/
theorem of_downloadAudio (h : downloadAudio allowedHosts net names url = .ok request) :
    (splitScheme url).1 ∈ ["http".toList, "https".toList] ∧ hostname url ≠ [] ∧
      (allowedHosts = [] ∨ hostname url ∈ allowedHosts) ∧ request.host = hostname url ∧
      ∃ ip, getaddrinfo net names (hostname url) = .ok ip ∧ isPrivate ip = false ∧
        safeUrl url ip = some request.url := by
  obtain ⟨host, hurl, h⟩ := Fallible.bind_eq_ok.mp h
  obtain ⟨ip, hip, h⟩ := Fallible.bind_eq_ok.mp h
  obtain ⟨hscheme, hempty, rfl⟩ := of_checkUrl (Fallible.mapError_eq_ok.mp hurl)
  obtain ⟨hallowed, hfound, hprivate⟩ :=
    of_resolveAndValidate (Fallible.mapError_eq_ok.mp hip)
  cases hsafe : safeUrl url ip with
  | none =>
    rw [hsafe] at h
    cases h
  | some safe =>
    rw [hsafe] at h
    obtain rfl := Except.ok.inj h
    exact ⟨hscheme, hempty, hallowed, rfl, ip, hfound, hprivate, hsafe⟩

theorem of_transcribeUrl (h : transcribeUrl allowedHosts net checked sent url = .ok request) :
    downloadAudio allowedHosts net sent url = .ok request := by
  unfold transcribeUrl at h
  split at h
  · cases h
  split at h
  · rename_i made hmade
    exact hmade.trans (congrArg Except.ok (Except.ok.inj h))
  · cases h
  · cases h

/-- Of a URL with a hostname the parts can be told. -/
theorem exists_parts (hscheme : (splitScheme url).1 ∈ ["http".toList, "https".toList])
    (hempty : hostname url ≠ []) : ∃ p : Parts, p.Proper ∧ p.text = url := by
  refine Parts.exists_text ?_ ?_
  · intro hnone
    rw [hnone] at hscheme
    exact absurd hscheme (by decide)
  · intro hnone
    refine hempty ?_
    rw [hostname, hostInfo, hnone]
    rfl

theorem replaced_iff {p : Parts} (h : p.Proper) (hplain : Plain p.text) (hhost : p.host ≠ []) :
    Replaced p ↔ (hostInfo p.text).1 = hostname p.text ∧
      ¬hostname p.text <:+: userinfo p.text := by
  have hat : '@' ∉ lower p.host := fun hc => (lower_host_plain h _ hc).2.1 rfl
  have hword : lower p.host ≠ [] := fun hnil => hhost (List.map_eq_nil_iff.mp hnil)
  rw [Parts.hostname_text h (zone_not_mem hplain), Parts.hostInfo_text h,
    Parts.infix_userinfo_text h hword hat]
  exact and_congr_left' eq_comm

/-- The host that the request is sent to: the address, or the host that was resolved. -/
theorem target_eq {p : Parts} (h : p.Proper) (hplain : Plain p.text) (hhost : p.host ≠ [])
    {safe : Text} (hsafe : safeUrl p.text ip = some safe) (htarget : net.target safe = some host) :
    (Replaced p → host = ip.text) ∧ (¬Replaced p → host = hostname p.text) := by
  have hscheme : ¬lower p.host <:+: p.scheme := fun hwithin =>
    scheme_safeUrl h hplain hhost hwithin hsafe (net.target_scheme _ _ htarget)
  obtain ⟨q, hq, rfl, hreplaced, hkept⟩ := exists_safeUrl h hplain hhost hscheme hsafe
  have hqplain : Plain q.text := plain_safeUrl hplain hsafe
  have hname : host = lower q.host :=
    (net.target_host _ _ hqplain htarget).trans (Parts.hostname_text hq (zone_not_mem hqplain))
  refine ⟨fun hp => ?_, fun hp => ?_⟩
  · rw [hname, hreplaced hp, ip.lower_text]
  · rw [hname, hkept hp, Parts.hostname_text h (zone_not_mem hplain)]

/-- The address that the request goes to, whatever the names are by then, is the one that was
checked, exactly where the host was found first as the host of the URL, or was an address itself. -/
theorem sent_to_checked_iff (hplain : Plain url)
    (hrequest : transcribeUrl allowedHosts net checked sent url = .ok request)
    (htarget : net.target request.url = some host) :
    (allowedHosts = [] ∨ hostname url ∈ allowedHosts) ∧ request.host = hostname url ∧
      ∃ ip, getaddrinfo net sent (hostname url) = .ok ip ∧ isPrivate ip = false ∧
        ((∀ later, getaddrinfo net later host = .ok ip) ↔
          net.literal (hostname url) ≠ none ∨
            (hostInfo url).1 = hostname url ∧ ¬hostname url <:+: userinfo url) := by
  obtain ⟨hscheme, hempty, hallowed, hheader, ip, hip, hprivate, hsafe⟩ :=
    of_downloadAudio (of_transcribeUrl hrequest)
  refine ⟨hallowed, hheader, ip, hip, hprivate, ?_⟩
  obtain ⟨p, hp, rfl⟩ := exists_parts hscheme hempty
  have hhost : p.host ≠ [] := by
    intro hnil
    refine hempty ?_
    rw [Parts.hostname_text hp (zone_not_mem hplain), hnil]
    rfl
  obtain ⟨hreplaced, hkept⟩ := target_eq hp hplain hhost hsafe htarget
  rw [← replaced_iff hp hplain hhost]
  by_cases hp' : Replaced p
  · refine iff_of_true (fun later => ?_) (.inr hp')
    rw [hreplaced hp', getaddrinfo, net.literal_text]
  · rw [hkept hp', or_iff_left hp']
    constructor
    · intro hlater hnone
      have hnames := hlater fun _ => .error []
      rw [getaddrinfo, hnone] at hnames
      cases hnames
    · intro hliteral later
      obtain ⟨own, hown⟩ := Option.ne_none_iff_exists'.mp hliteral
      rw [getaddrinfo, hown] at hip ⊢
      exact hip

end

def readByte (text : Text) : Option (Fin 256) :=
  if h : Nat.ofDigitChars 10 text 0 < 256 then
    if text.all Char.isDigit then some ⟨Nat.ofDigitChars 10 text 0, h⟩ else none
  else none

def readAddress (text : Text) : Option Address := do
  let (first, text) ← splitOnce ['.'] text
  let (second, text) ← splitOnce ['.'] text
  let (third, fourth) ← splitOnce ['.'] text
  return ⟨← readByte first, ← readByte second, ← readByte third, ← readByte fourth⟩

theorem readByte_toDigits (n : Fin 256) : readByte (Nat.toDigits 10 n) = some n := by
  have hall : (Nat.toDigits 10 n).all Char.isDigit = true := List.all_eq_true.mpr fun c hc =>
    Nat.isDigit_of_mem_toDigits (by decide) (by decide) hc
  have hvalue : Nat.ofDigitChars 10 (Nat.toDigits 10 n) 0 = n := Nat.ofDigitChars_ten_toDigits
  simp [readByte, hvalue, hall]

theorem readAddress_text (ip : Address) : readAddress ip.text = some ip := by
  have hdot : ∀ n : ℕ, '.' ∉ Nat.toDigits 10 n := fun n hc =>
    absurd (Nat.isDigit_of_mem_toDigits (by decide) (by decide) hc) (by decide)
  simp only [readAddress, Address.text, splitOnce_append (hdot _), readByte_toDigits,
    Option.bind_eq_bind, Option.bind_some]
  rfl

/-- A network in which a dotted text is an address, and requests are sent to the hostname. -/
def dotted : Net where
  literal := readAddress
  target url := if (splitScheme url).1 ∈ sentSchemes then some (hostname url) else none
  literal_text := readAddress_text
  target_scheme url host h := by
    by_contra hscheme
    rw [if_neg hscheme] at h
    cases h
  target_host url host _ h := by
    split_ifs at h
    exact (Option.some.inj h).symm

def mediaNames (host : Text) : Except Text Address :=
  if host = "media.fm".toList then .ok ⟨203, 0, 113, 7⟩ else .error "unknown".toList

/-- The same name, once it has been given to another machine. -/
def reboundNames (host : Text) : Except Text Address :=
  if host = "media.fm".toList then .ok ⟨10, 0, 0, 7⟩ else .error "unknown".toList

theorem sent_to_checked_iff_media :
    getaddrinfo dotted reboundNames "203.0.113.7".toList = .ok ⟨203, 0, 113, 7⟩ := by
  obtain ⟨-, -, ip, hip, -, hsent⟩ := @sent_to_checked_iff [] dotted mediaNames mediaNames
    "http://a:80@media.fm:80/".toList "203.0.113.7".toList
    ⟨"http://a@203.0.113.7:80/".toList, "media.fm".toList⟩
    (List.all_eq_true.mp (by decide)) (by decide) (by decide)
  have hip' : ip = ⟨203, 0, 113, 7⟩ := (Except.ok.inj hip).symm
  exact hip' ▸ hsent.mpr (.inr (by decide)) reboundNames

end WorkTicket.Ai.AudioDownload
