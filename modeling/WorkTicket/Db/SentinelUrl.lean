import WorkTicket.Foundation.TextSplits
import WorkTicket.Middleware.StreamSanitizer

/-! The URL of a Redis behind sentinels, and the client that is made of it. -/

namespace WorkTicket.Db.SentinelUrl

open WorkTicket.TextSplits
open WorkTicket.Middleware.StreamSanitizer (isSpace)

abbrev Text := List Char

/-- What is used of `int`. -/
structure Python where
  int : Text → Option ℤ
  int_digits : ∀ n : ℕ, int (Nat.toDigits 10 n) = some (n : ℤ)

def sentinelSchemes : List Text := ["sentinel://".toList, "redis+sentinel://".toList]

def nonEmpty (text : Text) : Option Text := if text = [] then none else some text

/-- The name of the master, the hosts and the password. -/
def parseSentinelUrl (url : Text) : Option Text × Option Text × Option Text :=
  if sentinelSchemes.any (· <+: url) then
    let rest := ((splitOnce "://".toList url).map Prod.snd).getD []
    let parts := (splitOnce ['@'] rest).getD ([], rest)
    let places := (splitOnce ['/'] parts.2).getD (parts.2, [])
    let password := if parts.1 = [] then none else some (parts.1.dropWhile (· = ':'))
    (nonEmpty places.2, nonEmpty places.1, password)
  else (none, none, none)

inductive Client
  | plain (url : Text)
  | sentinel (hosts : List (Text × ℤ)) (masterName : Text) (password : Option Text)
  deriving DecidableEq

/-- A host with its port, or with the usual one. -/
def readHost (python : Python) (entry : Text) : Option (Text × ℤ) :=
  let entry := trim isSpace entry
  match splitLast ':' entry with
  | some (host, port) => (python.int port).map (host, ·)
  | none => some (entry, 26379)

/-- `create_redis_from_url`, or nothing where a port is no number. -/
def createRedisFromUrl (python : Python) (url : Text) : Option Client :=
  match parseSentinelUrl url with
  | (some masterName, some hosts, password) =>
    ((hosts.splitOn ',').mapM (readHost python)).map (.sentinel · masterName password)
  | _ => some (.plain url)

/-! ## What the URL is written for -/

structure Config where
  scheme : Text
  hosts : List (Text × ℕ)
  masterName : Text
  password : Option Text

def hostText (h : Text × ℕ) : Text := h.1 ++ ':' :: Nat.toDigits 10 h.2

def Config.places (c : Config) : Text :=
  [','].intercalate (c.hosts.map hostText) ++ '/' :: c.masterName

def Config.auth (c : Config) : Text :=
  match c.password with
  | none => []
  | some password => ':' :: password ++ ['@']

def Config.url (c : Config) : Text := c.scheme ++ c.auth ++ c.places

def Config.client (c : Config) : Client :=
  .sentinel (c.hosts.map fun h => (h.1, (h.2 : ℤ))) c.masterName c.password

/-- No name has a symbol that separates the parts of the URL. -/
structure Config.Plain (c : Config) : Prop where
  scheme : c.scheme ∈ sentinelSchemes
  hosts : c.hosts ≠ []
  host : ∀ h ∈ c.hosts, ∀ char ∈ h.1,
    char ≠ '@' ∧ char ≠ '/' ∧ char ≠ ',' ∧ isSpace char = false
  masterName : c.masterName ≠ [] ∧ '@' ∉ c.masterName

section
variable {python : Python} {c : Config} {url password : Text} {h : Text × ℕ}

theorem head_dropWhile_colon (text : Text) :
    (text.dropWhile (· = ':')).head? ≠ some ':' := by
  intro hcolon
  have hnot := List.head?_dropWhile_not (fun c => decide (c = ':')) text
  rw [hcolon] at hnot
  simp at hnot

/-- A password that is read has no `@` in it and no `:` before it. -/
theorem password_read (hpassword : (parseSentinelUrl url).2.2 = some password) :
    '@' ∉ password ∧ password.head? ≠ some ':' := by
  unfold parseSentinelUrl at hpassword
  split_ifs at hpassword with hscheme
  dsimp only at hpassword
  generalize ((splitOnce "://".toList url).map Prod.snd).getD [] = rest at hpassword
  cases hsplit : splitOnce ['@'] rest with
  | none =>
    rw [hsplit] at hpassword
    cases hpassword
  | some parts =>
    rw [hsplit, Option.getD_some] at hpassword
    split_ifs at hpassword with hauth
    obtain rfl := Option.some.inj hpassword
    refine ⟨fun hmem => not_mem_of_splitOnce hsplit ?_, head_dropWhile_colon _⟩
    exact (List.dropWhile_sublist _).mem hmem

theorem digit_ne {char : Char} {n : ℕ} (hchar : char ∈ Nat.toDigits 10 n) (other : Char)
    (hother : other.isDigit = false) : char ≠ other := by
  rintro rfl
  have hdigit := Nat.isDigit_of_mem_toDigits (by decide) (by decide) hchar
  rw [hother] at hdigit
  cases hdigit

theorem digit_not_space {char : Char} (h : char.isDigit = true) : isSpace char = false := by
  have hrange : 48 ≤ char.toNat ∧ char.toNat ≤ 57 := by
    simp only [Char.isDigit, Bool.and_eq_true, decide_eq_true_eq, ge_iff_le,
      UInt32.le_iff_toNat_le] at h
    exact h
  simp only [isSpace, List.any_cons, List.any_nil, Bool.or_eq_false_iff, Bool.and_eq_false_iff,
    decide_eq_false_iff_not, and_true]
  omega

/-- What an entry of a host can have in it. -/
theorem hostText_clean (hc : c.Plain) (hh : h ∈ c.hosts) : ∀ char ∈ hostText h,
    char ≠ '@' ∧ char ≠ '/' ∧ char ≠ ',' ∧ isSpace char = false := by
  intro char hchar
  rcases List.mem_append.mp hchar with hname | hport
  · exact hc.host h hh char hname
  · rcases List.mem_cons.mp hport with rfl | hdigits
    · decide
    · have hdigit := Nat.isDigit_of_mem_toDigits (by decide) (by decide) hdigits
      exact ⟨digit_ne hdigits '@' rfl, digit_ne hdigits '/' rfl, digit_ne hdigits ',' rfl,
        digit_not_space hdigit⟩

theorem readHost_hostText (hc : c.Plain) (hh : h ∈ c.hosts) :
    readHost python (hostText h) = some (h.1, (h.2 : ℤ)) := by
  have htrim : trim isSpace (hostText h) = hostText h :=
    trim_eq_self fun char hchar => (hostText_clean hc hh char hchar).2.2.2
  have hcolon : ':' ∉ Nat.toDigits 10 h.2 := fun hmem => digit_ne hmem ':' rfl rfl
  unfold readHost
  dsimp only
  rw [htrim, hostText, splitLast_append _ hcolon]
  dsimp only
  rw [python.int_digits, Option.map_some]

theorem readHosts (hc : c.Plain) :
    (([','].intercalate (c.hosts.map hostText)).splitOn ',').mapM (readHost python) =
      some (c.hosts.map fun h => (h.1, (h.2 : ℤ))) := by
  have hsplit : ([','].intercalate (c.hosts.map hostText)).splitOn ',' = c.hosts.map hostText := by
    refine List.splitOn_intercalate ',' ?_ (by simpa using hc.hosts)
    intro entry hentry hmem
    obtain ⟨h, hh, rfl⟩ := List.mem_map.mp hentry
    exact (hostText_clean hc hh ',' hmem).2.2.1 rfl
  have hread : ∀ hosts ⊆ c.hosts, (hosts.map hostText).mapM (readHost python) =
      some (hosts.map fun h => (h.1, (h.2 : ℤ))) := by
    intro hosts hsub
    induction hosts with
    | nil => rfl
    | cons h hosts ih =>
      rw [List.map_cons, List.mapM_cons, readHost_hostText hc (hsub List.mem_cons_self),
        ih fun _ hh => hsub (List.mem_cons_of_mem h hh)]
      rfl
  rw [hsplit, hread c.hosts fun _ hh => hh]

theorem mem_intercalate {separator char : Char} {entries : List Text}
    (h : char ∈ [separator].intercalate entries) :
    char = separator ∨ ∃ entry ∈ entries, char ∈ entry := by
  induction entries with
  | nil => cases h
  | cons entry entries ih =>
    cases entries with
    | nil => exact .inr ⟨entry, List.mem_singleton_self entry, by simpa using h⟩
    | cons next entries =>
      rw [List.intercalate_cons_cons, List.append_assoc, List.mem_append] at h
      rcases h with h | h
      · exact .inr ⟨entry, List.mem_cons_self, h⟩
      · rcases List.mem_append.mp h with h | h
        · exact .inl (List.mem_singleton.mp h)
        · refine (ih h).imp id fun hlater => ?_
          obtain ⟨e, he, hchar⟩ := hlater
          exact ⟨e, List.mem_cons_of_mem entry he, hchar⟩

/-- Of the symbols that separate the parts the hosts have only the comma. -/
theorem hosts_clean (hc : c.Plain) {char : Char}
    (hchar : char ∈ [','].intercalate (c.hosts.map hostText)) : char ≠ '@' ∧ char ≠ '/' := by
  rcases mem_intercalate hchar with rfl | ⟨entry, hentry, hchar⟩
  · decide
  · obtain ⟨h, hh, rfl⟩ := List.mem_map.mp hentry
    obtain ⟨hat, hslash, -⟩ := hostText_clean hc hh char hchar
    exact ⟨hat, hslash⟩

theorem splitOnce_places (hc : c.Plain) : splitOnce ['/'] c.places =
    some ([','].intercalate (c.hosts.map hostText), c.masterName) :=
  splitOnce_append (fun hmem => (hosts_clean hc hmem).2 rfl) c.masterName

theorem not_mem_places (hc : c.Plain) : '@' ∉ c.places := by
  rw [Config.places, List.mem_append, List.mem_cons, not_or, not_or]
  exact ⟨fun hmem => (hosts_clean hc hmem).1 rfl, by decide, hc.masterName.2⟩

theorem hosts_ne_nil (hc : c.Plain) : [','].intercalate (c.hosts.map hostText) ≠ [] := by
  have hne := hc.hosts
  cases hhosts : c.hosts with
  | nil => exact absurd hhosts hne
  | cons h hosts =>
    have hentry : hostText h ≠ [] := by simp [hostText]
    cases hosts with
    | nil => simpa using hentry
    | cons next hosts => simp [List.intercalate_cons_cons, hentry]

theorem afterScheme (hscheme : c.scheme ∈ sentinelSchemes) (rest : Text) :
    sentinelSchemes.any (· <+: c.scheme ++ rest) = true ∧
      (splitOnce "://".toList (c.scheme ++ rest)).map Prod.snd = some rest := by
  constructor
  · rw [List.any_eq_true]
    exact ⟨c.scheme, hscheme, decide_eq_true (List.prefix_append _ _)⟩
  · rcases List.mem_cons.mp hscheme with h | h
    · rw [h]
      simp [splitOnce, List.cons_prefix_cons]
    · rw [List.mem_singleton.mp h]
      simp [splitOnce, List.cons_prefix_cons]

/-- The URL is read as it was written, unless the password hides where it ends or begins. -/
theorem parse_url (hc : c.Plain)
    (hpassword : ∀ password, c.password = some password →
      '@' ∉ password ∧ password.head? ≠ some ':') :
    parseSentinelUrl c.url =
      (some c.masterName, some ([','].intercalate (c.hosts.map hostText)), c.password) := by
  obtain ⟨hany, hrest⟩ := afterScheme hc.scheme (c.auth ++ c.places)
  have hparts : (splitOnce ['@'] (c.auth ++ c.places)).getD ([], c.auth ++ c.places) =
      (c.auth.dropLast, c.places) := by
    cases hp : c.password with
    | none =>
      have hauth : c.auth = [] := by rw [Config.auth, hp]
      rw [hauth, List.nil_append, splitOnce_eq_none (not_mem_places hc)]
      rfl
    | some password =>
      have hauth : c.auth = ':' :: password ++ ['@'] := by rw [Config.auth, hp]
      have hclean : '@' ∉ ':' :: password := by
        rw [List.mem_cons, not_or]
        exact ⟨by decide, (hpassword password hp).1⟩
      rw [hauth, List.append_assoc, List.singleton_append, splitOnce_append hclean,
        List.dropLast_concat]
      rfl
  have hread : (if c.auth.dropLast = [] then none
      else some (c.auth.dropLast.dropWhile (· = ':'))) = c.password := by
    cases hp : c.password with
    | none => rw [Config.auth, hp]; rfl
    | some password =>
      have hauth : c.auth.dropLast = ':' :: password := by
        rw [Config.auth, hp]
        exact List.dropLast_concat
      rw [hauth, if_neg (List.cons_ne_nil _ _), List.dropWhile_cons_of_pos (by simp)]
      have hhead := (hpassword password hp).2
      cases password with
      | nil => rfl
      | cons char password =>
        rw [List.dropWhile_cons_of_neg]
        simpa using hhead
  rw [Config.url, List.append_assoc, parseSentinelUrl, if_pos hany, hrest]
  simp only [Option.getD_some, hparts, splitOnce_places hc, hread, nonEmpty, if_neg hc.masterName.1,
    if_neg (hosts_ne_nil hc)]

theorem password_of_client {hosts : List (Text × ℤ)} {masterName : Text} {p : Option Text}
    (h : createRedisFromUrl python url = some (.sentinel hosts masterName p)) :
    (parseSentinelUrl url).2.2 = p := by
  unfold createRedisFromUrl at h
  split at h
  · rename_i hparse
    obtain ⟨_, -, hclient⟩ := Option.map_eq_some_iff.mp h
    injection hclient with _ _ hp
    rw [hparse, ← hp]
  · cases h

/-- The URL of a configuration makes its client exactly if the password has no `@` in it and no `:`
before it. -/
theorem createRedisFromUrl_url_iff (hc : c.Plain) :
    createRedisFromUrl python c.url = some c.client ↔
      ∀ password, c.password = some password → '@' ∉ password ∧ password.head? ≠ some ':' := by
  constructor
  · intro hclient password hp
    exact password_read ((password_of_client hclient).trans hp)
  · intro hpassword
    rw [createRedisFromUrl, parse_url hc hpassword]
    dsimp only
    rw [readHosts hc, Option.map_some, Config.client]

end

/-! ## Two sentinels -/

def decimal : Python where
  int text :=
    if text ≠ [] ∧ text.all Char.isDigit = true then some (Nat.ofDigitChars 10 text 0 : ℤ) else none
  int_digits n := by
    have hdigits : (Nat.toDigits 10 n).all Char.isDigit = true :=
      List.all_eq_true.mpr fun _ hc => Nat.isDigit_of_mem_toDigits (by decide) (by decide) hc
    rw [if_pos ⟨Nat.toDigits_ne_nil, hdigits⟩,
      Nat.ofDigitChars_toDigits (by decide) (by decide)]

def twoSentinels : Config :=
  ⟨"redis+sentinel://".toList, [(['r', '1'], 26379), (['r', '2'], 26380)], "mymaster".toList,
    some "p@ss".toList⟩

theorem createRedisFromUrl_twoSentinels :
    createRedisFromUrl decimal twoSentinels.url = some twoSentinels.client ↔
      ∀ password, twoSentinels.password = some password →
        '@' ∉ password ∧ password.head? ≠ some ':' := by
  have hhost : ∀ h ∈ twoSentinels.hosts, ∀ char ∈ h.1,
      char ≠ '@' ∧ char ≠ '/' ∧ char ≠ ',' ∧ isSpace char = false := by
    have hchars : ∀ h ∈ [((['r', '1'] : Text), 26379), (['r', '2'], 26380)], ∀ char ∈ h.1,
        char ∈ ['r', '1', '2'] := by simp
    intro h hh char hchar
    have hchar := hchars h hh char hchar
    simp only [List.mem_cons, List.not_mem_nil, or_false] at hchar
    rcases hchar with rfl | rfl | rfl <;> decide
  exact createRedisFromUrl_url_iff
    ⟨List.mem_cons_of_mem _ List.mem_cons_self, List.cons_ne_nil _ _, hhost, by decide⟩

end WorkTicket.Db.SentinelUrl
