/-
# Dayfinch.Agent.Domains -- the host name that is left of a reported location

The browser extension reports the location of the active tab, the agent reduces it to a host name and
the server reduces what the agent sends once more, with a copy of the same function. The text is
stripped and lowered, read as a URL (with `https://` in front where it has no `://`), and of the
host that the URL names the trailing dots and one `www.` are removed; the rest is written in ASCII
and checked: at most 253 characters and no empty label.

The second pass leaves the result alone exactly when the first one gives a plain host name
(`PlainLabels`): another `www.` in front is removed by the second pass, the host of an IP literal
loses its brackets in the first pass and is cut at its colon in the second, and blanks at the ends of
a host survive the first pass and not the second. Where the URL cannot be split both functions
raise `ValueError`.
-/
import Dayfinch.Library.Urls
import Dayfinch.Library.Text

namespace Dayfinch.Agent.Domains

open Library.Idna (Chars Unicode isAscii join labelsOf toASCII encode Folded)
open Library.Urls (SplitResult ValueError urlsplit schemeText Special Address checkNetloc)
open Library.Text (isSpace)

/-! ## The two copies of the function -/

/-- `value.strip()`. -/
def strip (value : Chars) : Chars := (value.dropWhile isSpace).rdropWhile isSpace

/-- `"www."`. -/
def www : Chars := ['w', 'w', 'w', '.']

/-- `host.removeprefix("www.")`. -/
def removeWww (host : Chars) : Chars := if www.isPrefixOf host then host.drop 4 else host

/-- `host.rstrip(".")`. -/
def rstripDots (host : Chars) : Chars := host.rdropWhile (· == '.')

/-- `normalize_domain` of the agent. -/
def WebsiteBridge.normalizeDomain (unicode : Unicode) (isIPv6 : Chars → Bool) (value : Chars) :
    Except ValueError Chars := do
  let candidate := unicode.lower (strip value)
  if candidate = [] then return []
  let parsed ← urlsplit unicode isIPv6
    (if [':', '/', '/'] <:+: candidate then candidate else "https://".toList ++ candidate)
  if parsed.scheme ∉ ["http".toList, "https".toList] then return []
  match parsed.hostname unicode with
  | none => return []
  | some hostname =>
      match encode unicode (removeWww (rstripDots hostname)) with
      | none => return []
      | some host => if host.length > 253 ∨ [] ∈ host.splitOn '.' then return [] else return host

/-- `normalize_domain` of the server. -/
def Privacy.normalizeDomain (unicode : Unicode) (isIPv6 : Chars → Bool) (value : Chars) :
    Except ValueError Chars := do
  let candidate := unicode.lower (strip value)
  if candidate = [] then return []
  let parsed ← urlsplit unicode isIPv6
    (if [':', '/', '/'] <:+: candidate then candidate else "https://".toList ++ candidate)
  if parsed.scheme ∉ ["http".toList, "https".toList] then return []
  match parsed.hostname unicode with
  | none => return []
  | some hostname =>
      match encode unicode (removeWww (rstripDots hostname)) with
      | none => return []
      | some host => if host.length > 253 ∨ [] ∈ host.splitOn '.' then return [] else return host

theorem normalizeDomain_eq : Privacy.normalizeDomain = WebsiteBridge.normalizeDomain := rfl

/-! ## What the function reads -/

/-- The URL that is split. -/
def urlOf (unicode : Unicode) (value : Chars) : Chars :=
  let candidate := unicode.lower (strip value)
  if [':', '/', '/'] <:+: candidate then candidate else "https://".toList ++ candidate

/-- The text names a host by a URL with scheme `http` or `https`. -/
def NamesHost (unicode : Unicode) (isIPv6 : Chars → Bool) (value host : Chars) : Prop :=
  ∃ parsed, urlsplit unicode isIPv6 (urlOf unicode value) = .ok parsed ∧
    parsed.scheme ∈ ["http".toList, "https".toList] ∧ parsed.hostname unicode = some host

/-- At most 253 characters and no empty label. -/
def ValidHost (host : Chars) : Prop := host.length ≤ 253 ∧ [] ∉ host.splitOn '.'

instance (host : Chars) : Decidable (ValidHost host) := inferInstanceAs (Decidable (_ ∧ _))

/-- What is left of a host. -/
def reduced (unicode : Unicode) (host : Chars) : Chars :=
  match encode unicode (removeWww (rstripDots host)) with
  | none => []
  | some host => if host.length > 253 ∨ [] ∈ host.splitOn '.' then [] else host

variable {unicode : Unicode} {isIPv6 : Chars → Bool}

theorem normalizeDomain_of_error {value : Chars} {e : ValueError}
    (h : urlsplit unicode isIPv6 (urlOf unicode value) = .error e)
    (hvalue : unicode.lower (strip value) ≠ []) :
    WebsiteBridge.normalizeDomain unicode isIPv6 value = .error e := by
  unfold WebsiteBridge.normalizeDomain
  unfold urlOf at h
  dsimp only at h ⊢
  rw [if_neg hvalue, h]
  rfl

theorem normalizeDomain_of_host {value host : Chars} (h : NamesHost unicode isIPv6 value host)
    (hvalue : unicode.lower (strip value) ≠ []) :
    WebsiteBridge.normalizeDomain unicode isIPv6 value = .ok (reduced unicode host) := by
  obtain ⟨parsed, hparsed, hscheme, hhost⟩ := h
  unfold WebsiteBridge.normalizeDomain reduced
  unfold urlOf at hparsed
  dsimp only at hparsed ⊢
  rw [if_neg hvalue, hparsed]
  show (if parsed.scheme ∉ ["http".toList, "https".toList] then _ else _) = _
  rw [if_neg (not_not.mpr hscheme), hhost]
  dsimp only
  cases encode unicode (removeWww (rstripDots host)) with
  | none => rfl
  | some ascii =>
    dsimp only
    split <;> rfl

theorem normalizeDomain_of_no_host {value : Chars} {parsed : SplitResult}
    (hparsed : urlsplit unicode isIPv6 (urlOf unicode value) = .ok parsed)
    (h : parsed.scheme ∈ ["http".toList, "https".toList] → parsed.hostname unicode = none) :
    WebsiteBridge.normalizeDomain unicode isIPv6 value = .ok [] := by
  unfold WebsiteBridge.normalizeDomain
  unfold urlOf at hparsed
  dsimp only at hparsed ⊢
  split
  · rfl
  · rw [hparsed]
    show (if parsed.scheme ∉ ["http".toList, "https".toList] then _ else _) = _
    by_cases hscheme : parsed.scheme ∈ ["http".toList, "https".toList]
    · rw [if_neg (not_not.mpr hscheme), h hscheme]
      rfl
    · rw [if_pos hscheme]
      rfl

/-- A text that is empty is read as a URL without a host. -/
theorem urlsplit_https_nil (unicode : Unicode) (isIPv6 : Chars → Bool) :
    ∃ parsed, urlsplit unicode isIPv6 "https://".toList = .ok parsed ∧ parsed.hostname unicode = none := by
  have hurl : "https://".toList = schemeText true ++ ':' :: '/' :: '/' :: [] := rfl
  rw [hurl]
  obtain ⟨parsed, hparsed⟩ : ∃ parsed, urlsplit unicode isIPv6
      (schemeText true ++ ':' :: '/' :: '/' :: []) = .ok parsed := Library.Urls.urlsplit_scheme_ok rfl rfl
  obtain ⟨_, hnetloc, _⟩ := Library.Urls.urlsplit_scheme hparsed
  refine ⟨parsed, hparsed, ?_⟩
  unfold SplitResult.hostname
  rw [hnetloc]
  rfl

theorem urlOf_of_empty {value : Chars} (h : unicode.lower (strip value) = []) :
    urlOf unicode value = "https://".toList := by
  unfold urlOf
  rw [h]
  decide

theorem NamesHost.nonempty {value host : Chars} (h : NamesHost unicode isIPv6 value host) :
    unicode.lower (strip value) ≠ [] := by
  intro hempty
  obtain ⟨parsed, hparsed, _, hhost⟩ := h
  obtain ⟨parsed', hparsed', hnone⟩ := urlsplit_https_nil unicode isIPv6
  rw [urlOf_of_empty hempty, hparsed'] at hparsed
  cases Except.ok.inj hparsed
  rw [hnone] at hhost
  cases hhost

/-- The three ways the function ends. -/
theorem normalizeDomain_cases (unicode : Unicode) (isIPv6 : Chars → Bool) (value : Chars) :
    (∃ e, urlsplit unicode isIPv6 (urlOf unicode value) = .error e ∧
      WebsiteBridge.normalizeDomain unicode isIPv6 value = .error e) ∨
    (∃ parsed, urlsplit unicode isIPv6 (urlOf unicode value) = .ok parsed ∧
      (∀ host, ¬ NamesHost unicode isIPv6 value host) ∧
      WebsiteBridge.normalizeDomain unicode isIPv6 value = .ok []) ∨
    (∃ parsed host, urlsplit unicode isIPv6 (urlOf unicode value) = .ok parsed ∧
      NamesHost unicode isIPv6 value host ∧
      WebsiteBridge.normalizeDomain unicode isIPv6 value = .ok (reduced unicode host)) := by
  cases hsplit : urlsplit unicode isIPv6 (urlOf unicode value) with
  | error e =>
    refine Or.inl ⟨e, rfl, normalizeDomain_of_error hsplit fun hempty => ?_⟩
    obtain ⟨parsed, hparsed, _⟩ := urlsplit_https_nil unicode isIPv6
    rw [urlOf_of_empty hempty, hparsed] at hsplit
    cases hsplit
  | ok parsed =>
    by_cases hhost : ∃ host, NamesHost unicode isIPv6 value host
    · obtain ⟨host, hnames⟩ := hhost
      exact Or.inr (Or.inr ⟨parsed, host, rfl, hnames, normalizeDomain_of_host hnames hnames.nonempty⟩)
    · refine Or.inr (Or.inl ⟨parsed, rfl, fun host h => hhost ⟨host, h⟩, ?_⟩)
      refine normalizeDomain_of_no_host hsplit fun hscheme => ?_
      cases hname : parsed.hostname unicode with
      | none => rfl
      | some host => exact absurd ⟨host, parsed, hsplit, hscheme, hname⟩ hhost

/-! ## The ASCII forms of the labels -/

/-- The ASCII forms of the labels of a host without its trailing dots and one leading `www.`. -/
def labelForms (unicode : Unicode) (host : Chars) : Option (List Chars) :=
  (labelsOf (removeWww (rstripDots host))).mapM (toASCII unicode)

theorem reduced_of_forms {host : Chars} {labels : List Chars} (h : labelForms unicode host = some labels)
    (hvalid : ValidHost (join labels)) : reduced unicode host = join labels := by
  unfold reduced
  rw [Library.Idna.encode_of_labels h]
  dsimp only
  exact if_neg fun hbad => hbad.elim (not_lt.mpr hvalid.1) hvalid.2

theorem forms_of_reduced {host : Chars} (h : reduced unicode host ≠ []) :
    ∃ labels, labelForms unicode host = some labels ∧ ValidHost (join labels) ∧
      reduced unicode host = join labels := by
  unfold reduced at h ⊢
  cases hencode : encode unicode (removeWww (rstripDots host)) with
  | none =>
    rw [hencode] at h
    exact absurd rfl h
  | some ascii =>
    rw [hencode] at h
    dsimp only at h ⊢
    split at h
    next => exact absurd rfl h
    next hgood =>
      rw [not_or, not_lt] at hgood
      obtain ⟨labels, hlabels, rfl⟩ := Library.Idna.labels_of_encode hencode hgood.2
      refine ⟨labels, hlabels, hgood, if_neg ?_⟩
      rw [not_or, not_lt]
      exact hgood

/-! ## Plain host names -/

/-- A host name that the function leaves as it is. -/
structure PlainHost (host : Chars) : Prop where
  marks : ∀ c ∈ host, ¬ Special c
  no_www : ¬ www <+: host
  stripped : strip host = host

theorem map_toLower {s : Chars} (h : Folded s) : s.map Char.toLower = s := by
  refine (List.map_congr_left fun c hc => ?_).trans (List.map_id s)
  have hupper := of_decide_eq_false (h c hc)
  unfold Char.toLower
  rw [dif_neg]
  · rfl
  · intro hrange
    exact hupper hrange

theorem lower_eq_self (hdoc : unicode.Documented) {s : Chars} (hascii : isAscii s = true) (h : Folded s) :
    unicode.lower s = s := by
  rw [hdoc.lower_ascii s hascii, map_toLower h]

theorem removeWww_eq_self {host : Chars} (h : ¬ www <+: host) : removeWww host = host :=
  if_neg fun hlead => h (List.isPrefixOf_iff_prefix.mp hlead)

theorem removeWww_sublist (host : Chars) : (removeWww host).Sublist host := by
  unfold removeWww
  split
  · exact List.drop_sublist _ _
  · exact List.Sublist.refl _

theorem rstripDots_sublist (host : Chars) : (rstripDots host).Sublist host :=
  (List.rdropWhile_prefix _ _).sublist

theorem rstripDots_eq_self {host : Chars} (h : [] ∉ host.splitOn '.') : rstripDots host = host := by
  rw [rstripDots, List.rdropWhile_eq_self_iff]
  intro hne hdot
  have hlast := List.dropLast_concat_getLast hne
  rw [beq_iff_eq] at hdot
  rw [hdot] at hlast
  apply h
  rw [← hlast, List.splitOn_append_cons_self]
  exact List.mem_append_right _ List.mem_cons_self

theorem strip_sublist (value : Chars) : (strip value).Sublist value :=
  (List.rdropWhile_prefix _ _).sublist.trans (List.dropWhile_sublist _)

theorem schemeText_mem (secure : Bool) : schemeText secure ∈ ["http".toList, "https".toList] := by
  cases secure <;> decide

/-- The host that is read from lowered ASCII text stands there as it is. -/
theorem hostname_ascii (hdoc : unicode.Documented) {parsed : SplitResult}
    (hascii : isAscii parsed.netloc = true) (hfolded : Folded parsed.netloc)
    (hne : Library.Urls.rawHost parsed.netloc ≠ []) :
    parsed.hostname unicode = some (Library.Urls.rawHost parsed.netloc) := by
  unfold SplitResult.hostname
  dsimp only
  rw [if_neg hne]
  have hpart : Library.Urls.before '%' (Library.Urls.rawHost parsed.netloc) ⊆ parsed.netloc :=
    ((Library.Urls.before_sublist '%' _).trans (Library.Urls.rawHost_sublist _)).subset
  rw [lower_eq_self hdoc (Library.Idna.isAscii_of_subset hpart hascii) fun c hc => hfolded c (hpart hc)]
  exact congrArg some List.takeWhile_append_dropWhile

/-- A plain host name is read as the address that it is the host of. -/
theorem PlainHost.normalized (hdoc : unicode.Documented) {host : Chars} (hplain : PlainHost host)
    (hascii : isAscii host = true) (hfolded : Folded host) (hne : host ≠ []) (hvalid : ValidHost host)
    (hshort : ∀ label ∈ host.splitOn '.', label.length < 64) :
    WebsiteBridge.normalizeDomain unicode isIPv6 host = .ok host := by
  let address : Address := {
    secure := true, userinfo := none, host, port := none, tail := []
    userinfo_plain := nofun
    host_plain := hplain.marks
    port_plain := nofun
    tail_delimited := nofun }
  have hnetloc : address.netloc = host := List.append_nil host
  have htext : address.text = "https://".toList ++ host := by
    unfold Address.text
    rw [hnetloc]
    exact congrArg ("https://".toList ++ ·) (List.append_nil host)
  have hcolon : ':' ∉ host := fun hmem => hplain.marks ':' hmem (by decide)
  have hurl : urlOf unicode host = address.text := by
    unfold urlOf
    dsimp only
    rw [hplain.stripped, lower_eq_self hdoc hascii hfolded, htext]
    exact if_neg fun hcontained => hcolon (hcontained.subset List.mem_cons_self)
  obtain ⟨parsed, hparsed, hscheme, hlocated⟩ : ∃ parsed, urlsplit unicode isIPv6 address.text = .ok parsed ∧
      parsed.scheme = schemeText address.secure ∧ parsed.netloc = address.netloc :=
    address.urlsplit_text unicode isIPv6 (by rw [hnetloc]; exact if_pos hascii)
  have hnames : NamesHost unicode isIPv6 host host := by
    refine ⟨parsed, hurl ▸ hparsed, hscheme ▸ schemeText_mem true, ?_⟩
    have hraw : Library.Urls.rawHost parsed.netloc = host := by
      rw [hlocated, address.rawHost_netloc]
    rw [hostname_ascii hdoc (by rwa [hlocated, hnetloc]) (by rwa [hlocated, hnetloc]) (by rwa [hraw]), hraw]
  have hcandidate : unicode.lower (strip host) ≠ [] := hnames.nonempty
  rw [normalizeDomain_of_host hnames hcandidate]
  unfold reduced
  rw [rstripDots_eq_self hvalid.2, removeWww_eq_self hplain.no_www, Library.Idna.encode_self hascii fun label hlabel =>
    ⟨fun hnil => hvalid.2 (hnil ▸ hlabel), hshort label hlabel⟩]
  exact congrArg Except.ok (if_neg fun hbad => hbad.elim (not_lt.mpr hvalid.1) hvalid.2)

/-- An ASCII host is cut at its ends only. -/
theorem reduced_ascii {name : Chars} (hascii : isAscii name = true) (h : reduced unicode name ≠ []) :
    reduced unicode name = removeWww (rstripDots name) := by
  have hsub : removeWww (rstripDots name) ⊆ name :=
    ((removeWww_sublist _).trans (rstripDots_sublist name)).subset
  unfold reduced at h ⊢
  cases hencode : encode unicode (removeWww (rstripDots name)) with
  | none =>
    rw [hencode] at h
    exact absurd rfl h
  | some ascii =>
    rw [hencode] at h
    dsimp only at h ⊢
    split at h
    next => exact absurd rfl h
    next hgood =>
      rw [if_neg hgood]
      exact Library.Idna.eq_of_encode (Library.Idna.isAscii_of_subset hsub hascii) hencode

/-- A host of the length of what it is reduced to has no `www.` in front. -/
theorem no_www_of_length {name : Chars} (h : name.length ≤ (removeWww (rstripDots name)).length) :
    ¬ www <+: removeWww (rstripDots name) := by
  intro hlead
  have hdots := (rstripDots_sublist name).length_le
  unfold removeWww at h hlead
  split at h
  next hwww =>
    have hfour : 4 ≤ (rstripDots name).length := (List.isPrefixOf_iff_prefix.mp hwww).length_le
    rw [List.length_drop] at h
    omega
  next hwww =>
    rw [if_neg hwww] at hlead
    exact hwww (List.isPrefixOf_iff_prefix.mpr hlead)

/-- The scheme that is put in front is lowercase ASCII. -/
theorem lowerScheme : ∀ c ∈ "https://".toList, c.toNat < 128 ∧ c.isUpper = false := by
  have hall : "https://".toList.all (fun c => decide (c.toNat < 128) && c.isUpper == false) = true := by decide
  intro c hc
  have hthis := List.all_eq_true.mp hall c hc
  rw [Bool.and_eq_true, decide_eq_true_eq, beq_iff_eq] at hthis
  exact hthis

/-- A host name that the function leaves as it is, is plain: every step of the function can only
shorten ASCII text, so none of them did. -/
theorem plainHost_of_normalized (hdoc : unicode.Documented) {host : Chars}
    (hascii : isAscii host = true) (hfolded : Folded host) (hne : host ≠ [])
    (h : WebsiteBridge.normalizeDomain unicode isIPv6 host = .ok host) : PlainHost host := by
  rcases normalizeDomain_cases unicode isIPv6 host with ⟨e, _, heq⟩ | ⟨_, _, _, heq⟩ |
    ⟨parsed, name, hparsed, hnames, heq⟩
  · rw [heq] at h
    cases h
  · rw [heq] at h
    exact absurd (Except.ok.inj h).symm hne
  rw [heq] at h
  have hreduced : reduced unicode name = host := Except.ok.inj h
  obtain ⟨parsed', hparsed', hscheme, hname⟩ := hnames
  rw [hparsed] at hparsed'
  cases Except.ok.inj hparsed'
  have hsub : strip host ⊆ host := (strip_sublist host).subset
  have hcandidate : unicode.lower (strip host) = strip host :=
    lower_eq_self hdoc (Library.Idna.isAscii_of_subset hsub hascii) fun c hc => hfolded c (hsub hc)
  have hstrip : (strip host).length ≤ host.length := (strip_sublist host).length_le
  have hurl : ∀ c ∈ urlOf unicode host, c.toNat < 128 ∧ c.isUpper = false := by
    intro c hc
    unfold urlOf at hc
    dsimp only at hc
    rw [hcandidate] at hc
    have hplain : ∀ c ∈ strip host, c.toNat < 128 ∧ c.isUpper = false := fun c hc =>
      ⟨Library.Idna.isAscii_iff.mp hascii c (hsub hc), hfolded c (hsub hc)⟩
    split at hc
    · exact hplain c hc
    · rcases List.mem_append.mp hc with hscheme | hmem
      · exact lowerScheme c hscheme
      · exact hplain c hmem
  have hnetloc := (Library.Urls.netloc_sublist hparsed).subset
  have hraw : Library.Urls.rawHost parsed.netloc ≠ [] := by
    intro hnil
    unfold SplitResult.hostname at hname
    rw [hnil] at hname
    cases hname
  have hlocated : isAscii parsed.netloc = true :=
    Library.Idna.isAscii_iff.mpr fun c hc => (hurl c (hnetloc hc)).1
  rw [hostname_ascii hdoc hlocated (fun c hc => (hurl c (hnetloc hc)).2) hraw] at hname
  cases Option.some.inj hname
  -- the lengths of what the steps leave
  have hrawSub := Library.Urls.rawHost_sublist parsed.netloc
  have hcut : host = removeWww (rstripDots (Library.Urls.rawHost parsed.netloc)) := by
    rw [← hreduced]
    refine reduced_ascii (Library.Idna.isAscii_of_subset hrawSub.subset hlocated) ?_
    rw [hreduced]
    exact hne
  have hcutLength : host.length ≤ (Library.Urls.rawHost parsed.netloc).length :=
    hcut ▸ ((removeWww_sublist _).trans (rstripDots_sublist _)).length_le
  have hrawLength := hrawSub.length_le
  unfold urlOf at hparsed
  dsimp only at hparsed
  rw [hcandidate] at hparsed
  split at hparsed
  next =>
    have hlt := Library.Urls.length_netloc_lt hparsed fun hnil => by
      rw [hnil] at hscheme
      exact absurd hscheme (by decide)
    omega
  next =>
    have hsplit : urlsplit unicode isIPv6 (schemeText true ++ ':' :: '/' :: '/' :: strip host) = .ok parsed :=
      hparsed
    obtain ⟨_, hloc, hbrackets⟩ := Library.Urls.urlsplit_scheme hsplit
    rw [hloc] at hbrackets hcutLength hcut
    obtain ⟨hwhole, hmarks⟩ := Library.Urls.plain_of_length_le hbrackets (hstrip.trans hcutLength)
    rw [hwhole] at hcut hcutLength
    have hstripped : strip host = host := (strip_sublist host).eq_of_length_le hcutLength
    rw [hstripped] at hcut hmarks
    refine ⟨hmarks, ?_, hstripped⟩
    rw [hcut]
    exact no_www_of_length (hcut ▸ le_refl _)

/-! ## The same on the labels -/

/-- What the ASCII forms of the labels of a host are when the function keeps the host: no special
character, no `www.` in front, no blank at the ends. -/
structure PlainLabels (labels : List Chars) : Prop where
  marks : ∀ label ∈ labels, ∀ c ∈ label, ¬ Special c
  no_www : ∀ first rest, labels = first :: rest → ¬ www <+: first ∧ (first = ['w', 'w', 'w'] → rest = [])
  front : ∀ first ∈ labels.head?, ∀ c ∈ first.head?, isSpace c = false
  back : ∀ last ∈ labels.getLast?, ∀ c ∈ last.getLast?, isSpace c = false

theorem www_prefix {first : Chars} (h : first ≠ []) (t : Chars) :
    www <+: first ++ '.' :: t ↔ www <+: first ∨ first = ['w', 'w', 'w'] := by
  match first with
  | [] => exact absurd rfl h
  | [a] => simp [www]
  | [a, b] => simp [www]
  | [a, b, c] => simp [www, eq_comm]
  | a :: b :: c :: d :: rest => simp [www]

theorem strip_eq_self {s : Chars} :
    strip s = s ↔ (∀ c ∈ s.head?, isSpace c = false) ∧ ∀ c ∈ s.getLast?, isSpace c = false := by
  have hfront : s.dropWhile isSpace = s ↔ ∀ c ∈ s.head?, isSpace c = false := by
    cases s with
    | nil => simp
    | cons c s => simp [List.dropWhile_eq_self_iff]
  have hback : s.rdropWhile isSpace = s ↔ ∀ c ∈ s.getLast?, isSpace c = false := by
    rw [List.rdropWhile_eq_self_iff]
    rcases List.eq_nil_or_concat s with rfl | ⟨early, final, rfl⟩
    · simp
    · simp
  unfold strip
  constructor
  · intro h
    have hlead := (List.rdropWhile_prefix isSpace (s.dropWhile isSpace)).sublist
    rw [h] at hlead
    have hdrop : s.dropWhile isSpace = s := (List.dropWhile_sublist _).eq_of_length_le hlead.length_le
    rw [hdrop] at h
    exact ⟨hfront.mp hdrop, hback.mp h⟩
  · rintro ⟨hf, hb⟩
    rw [hfront.mpr hf]
    exact hback.mpr hb

theorem head?_join {first : Chars} (h : first ≠ []) (rest : List Chars) :
    (join (first :: rest)).head? = first.head? := by
  by_cases hrest : rest = []
  · rw [hrest, Library.Idna.join_singleton]
  · rw [Library.Idna.join_cons hrest, List.head?_append_of_ne_nil _ h]

theorem getLast?_join {labels : List Chars} (hne : ∀ label ∈ labels, label ≠ []) {last : Chars}
    (h : last ∈ labels.getLast?) : (join labels).getLast? = last.getLast? := by
  obtain ⟨early, rfl⟩ : ∃ early, labels = early ++ [last] := by
    obtain ⟨hnil, rfl⟩ := List.mem_getLast?_eq_getLast h
    exact ⟨_, (List.dropLast_concat_getLast hnil).symm⟩
  have hlast : last ≠ [] := hne last (List.mem_append_right _ List.mem_cons_self)
  clear h hne
  induction early with
  | nil => exact congrArg List.getLast? (Library.Idna.join_singleton last)
  | cons first early ih =>
    have hrest : early ++ [last] ≠ [] := by simp
    have hjoin : join (early ++ [last]) ≠ [] := by
      intro hnil
      rw [hnil] at ih
      exact hlast (List.getLast?_eq_none_iff.mp ih.symm)
    rw [List.cons_append, Library.Idna.join_cons hrest, List.getLast?_append_of_ne_nil _ (by simp),
      List.getLast?_cons_of_ne_nil hjoin, ih]

theorem plainHost_join {labels : List Chars} (hne : ∀ label ∈ labels, label ≠ []) (hlabels : labels ≠ []) :
    PlainHost (join labels) ↔ PlainLabels labels := by
  obtain ⟨first, rest, rfl⟩ := List.exists_cons_of_ne_nil hlabels
  have hfirst : first ≠ [] := hne first List.mem_cons_self
  obtain ⟨last, hlast⟩ : ∃ last, last ∈ (first :: rest).getLast? :=
    ⟨_, List.getLast?_eq_getLast_of_ne_nil hlabels⟩
  have hwww : www <+: join (first :: rest) ↔ www <+: first ∨ (first = ['w', 'w', 'w'] ∧ rest ≠ []) := by
    by_cases hrest : rest = []
    · subst hrest
      simp
    · rw [Library.Idna.join_cons hrest, www_prefix hfirst]
      simp [hrest]
  have hmarks : (∀ c ∈ join (first :: rest), ¬ Special c) ↔
      ∀ label ∈ first :: rest, ∀ c ∈ label, ¬ Special c := by
    constructor
    · intro h label hlabel c hc
      exact h c ((Library.Idna.sublist_join hlabel).subset hc)
    · intro h c hc
      by_cases hdot : c = '.'
      · rw [hdot]
        decide
      · obtain ⟨label, hlabel, hmem⟩ := (Library.Idna.mem_join hdot).mp hc
        exact h label hlabel c hmem
  have hstrip := strip_eq_self (s := join (first :: rest))
  rw [head?_join hfirst, getLast?_join hne hlast] at hstrip
  constructor
  · rintro ⟨hplain, hnowww, hstripped⟩
    rw [hwww, not_or, not_and, not_not] at hnowww
    refine ⟨hmarks.mp hplain, ?_, ?_, ?_⟩
    · intro first' rest' heq
      cases heq
      exact hnowww
    · intro first' hfirst'
      cases hfirst'
      exact (hstrip.mp hstripped).1
    · intro last' hlast'
      rw [hlast] at hlast'
      cases hlast'
      exact (hstrip.mp hstripped).2
  · rintro ⟨hplain, hnowww, hfront, hback⟩
    refine ⟨hmarks.mpr hplain, ?_, hstrip.mpr ⟨hfront first rfl, hback last hlast⟩⟩
    rw [hwww, not_or, not_and, not_not]
    exact hnowww first rest rfl

/-! ## Domains are normalised once -/

/-- Empty, or a dot-separated ASCII host of at most 253 characters without empty labels and without
`www.` in front. -/
def ProperDomain (domain : Chars) : Prop :=
  domain = [] ∨ (isAscii domain = true ∧ ValidHost domain ∧ ¬ www <+: domain)

/-- Both functions reduce the text to the same proper domain, and the server leaves what the agent
sends as it is. -/
def DomainKept (unicode : Unicode) (isIPv6 : Chars → Bool) (value : Chars) : Prop :=
  ∃ domain, WebsiteBridge.normalizeDomain unicode isIPv6 value = .ok domain ∧
    Privacy.normalizeDomain unicode isIPv6 value = .ok domain ∧
    Privacy.normalizeDomain unicode isIPv6 domain = .ok domain ∧ ProperDomain domain

/-- The text can be split as a URL, and the labels of the host that it names, behind one `www.` and
without trailing dots, have plain ASCII forms whenever these make up a valid host. -/
def NamesPlainHost (unicode : Unicode) (isIPv6 : Chars → Bool) (value : Chars) : Prop :=
  (∃ parsed, urlsplit unicode isIPv6 (urlOf unicode value) = .ok parsed) ∧
    ∀ host labels, NamesHost unicode isIPv6 value host → labelForms unicode host = some labels →
      ValidHost (join labels) → PlainLabels labels

/-- What holds of the two functions. -/
structure DomainsNormalised (unicode : Unicode) (isIPv6 : Chars → Bool) : Prop where
  kept : ∀ value, DomainKept unicode isIPv6 value ↔ NamesPlainHost unicode isIPv6 value
  same_host : ∀ value value' host, NamesHost unicode isIPv6 value host →
    NamesHost unicode isIPv6 value' host →
    WebsiteBridge.normalizeDomain unicode isIPv6 value = WebsiteBridge.normalizeDomain unicode isIPv6 value' ∧
      Privacy.normalizeDomain unicode isIPv6 value = Privacy.normalizeDomain unicode isIPv6 value'
  same_address : ∀ value value' (a a' : Address), urlOf unicode value = a.text →
    urlOf unicode value' = a'.text → a.host = a'.host →
    checkNetloc unicode a.netloc = .ok () → checkNetloc unicode a'.netloc = .ok () →
    WebsiteBridge.normalizeDomain unicode isIPv6 value = WebsiteBridge.normalizeDomain unicode isIPv6 value' ∧
      Privacy.normalizeDomain unicode isIPv6 value = Privacy.normalizeDomain unicode isIPv6 value'

theorem same_of_namesHost {value value' host : Chars} (h : NamesHost unicode isIPv6 value host)
    (h' : NamesHost unicode isIPv6 value' host) :
    WebsiteBridge.normalizeDomain unicode isIPv6 value = WebsiteBridge.normalizeDomain unicode isIPv6 value' := by
  rw [normalizeDomain_of_host h h.nonempty, normalizeDomain_of_host h' h'.nonempty]

/-- What an address is read as depends on its host alone. -/
theorem address_read {value : Chars} {a : Address} (hurl : urlOf unicode value = a.text)
    (hnetloc : checkNetloc unicode a.netloc = .ok ()) :
    WebsiteBridge.normalizeDomain unicode isIPv6 value =
      .ok (if a.host = [] then []
        else reduced unicode (unicode.lower (Library.Urls.before '%' a.host) ++ a.host.dropWhile (· != '%'))) := by
  obtain ⟨parsed, hparsed, hscheme, hlocated⟩ := a.urlsplit_text unicode isIPv6 hnetloc
  rw [← hurl] at hparsed
  have hname : parsed.hostname unicode = if a.host = [] then none
      else some (unicode.lower (Library.Urls.before '%' a.host) ++ a.host.dropWhile (· != '%')) := by
    unfold SplitResult.hostname
    rw [hlocated, a.rawHost_netloc]
  split at hname
  next hempty =>
    rw [if_pos hempty]
    exact normalizeDomain_of_no_host hparsed fun _ => hname
  next hhost =>
    have hnames : NamesHost unicode isIPv6 value
        (unicode.lower (Library.Urls.before '%' a.host) ++ a.host.dropWhile (· != '%')) :=
      ⟨parsed, hparsed, hscheme ▸ schemeText_mem a.secure, hname⟩
    rw [if_neg hhost]
    exact normalizeDomain_of_host hnames hnames.nonempty

/-- What is read from a lowered text is lowered. -/
theorem folded_host (hdoc : unicode.Documented) {value host : Chars}
    (h : NamesHost unicode isIPv6 value host) : Folded host := by
  obtain ⟨parsed, hparsed, _, hname⟩ := h
  have hurl : Folded (urlOf unicode value) := by
    intro c hc
    unfold urlOf at hc
    dsimp only at hc
    split at hc
    · exact hdoc.lower_folded _ c hc
    · rcases List.mem_append.mp hc with hscheme | hmem
      · exact (lowerScheme c hscheme).2
      · exact hdoc.lower_folded _ c hmem
  unfold SplitResult.hostname at hname
  dsimp only at hname
  rw [Option.ite_none_left_eq_some] at hname
  cases Option.some.inj hname.2
  intro c hc
  rcases List.mem_append.mp hc with hlow | hzone
  · exact hdoc.lower_folded _ c hlow
  · have hraw := (Library.Urls.rawHost_sublist parsed.netloc).trans (Library.Urls.netloc_sublist hparsed)
    exact hurl c (hraw.subset ((List.dropWhile_sublist _).subset hzone))

/-- The ASCII forms of the labels of a host that is read. -/
theorem labelForms_spec (hdoc : unicode.Documented) {host : Chars} (hfolded : Folded host)
    {labels : List Chars} (h : labelForms unicode host = some labels) :
    labels ≠ [] ∧ ∀ label ∈ labels, isAscii label = true ∧ Folded label ∧ label ≠ [] ∧ label.length < 64 := by
  refine ⟨Library.Idna.ne_nil_of_mapM h (Library.Idna.labelsOf_ne_nil _), fun label hlabel => ?_⟩
  obtain ⟨source, hsource, hform⟩ := Library.Idna.mem_of_mapM h label hlabel
  obtain ⟨hascii, hfold, hpos, hshort⟩ := Library.Idna.toASCII_spec hdoc hform
  have hsub : source ⊆ host := List.Subset.trans (Library.Idna.subset_of_mem_labelsOf hsource)
    ((removeWww_sublist _).trans (rstripDots_sublist host)).subset
  exact ⟨hascii, hfold fun c hc => hfolded c (hsub hc), List.ne_nil_of_length_pos hpos, hshort⟩

/-- What the function gives for valid labels is left alone exactly when they are plain. -/
theorem join_normalized_iff (hdoc : unicode.Documented) {labels : List Chars} (hne : labels ≠ [])
    (hlabels : ∀ label ∈ labels, isAscii label = true ∧ Folded label ∧ label ≠ [] ∧ label.length < 64)
    (hvalid : ValidHost (join labels)) :
    WebsiteBridge.normalizeDomain unicode isIPv6 (join labels) = .ok (join labels) ↔ PlainLabels labels := by
  have hascii := Library.Idna.isAscii_join fun label hlabel => (hlabels label hlabel).1
  have hfolded := Library.Idna.folded_join fun label hlabel => (hlabels label hlabel).2.1
  have hjoin : join labels ≠ [] := by
    intro hnil
    have hempty := hvalid.2
    rw [hnil] at hempty
    exact hempty List.mem_cons_self
  rw [← plainHost_join (fun label hlabel => (hlabels label hlabel).2.2.1) hne]
  constructor
  · exact plainHost_of_normalized hdoc hascii hfolded hjoin
  · intro hplain
    refine hplain.normalized hdoc hascii hfolded hjoin hvalid ?_
    exact Library.Idna.length_lt_of_join hne fun label hlabel => (hlabels label hlabel).2.2.2

theorem normalizeDomain_nil (hdoc : unicode.Documented) :
    WebsiteBridge.normalizeDomain unicode isIPv6 [] = .ok [] := by
  have hempty : unicode.lower (strip []) = [] := hdoc.lower_ascii [] rfl
  unfold WebsiteBridge.normalizeDomain
  dsimp only
  rw [if_pos hempty]
  rfl

/-- **Which domains survive the second pass.** Two texts that name the same host by `http` or `https`
are reduced to the same domain, whatever else they contain; and the server leaves a domain of the
agent alone, and the domain is proper, exactly when the text can be split and names a plain host. -/
theorem domains_normalised (unicode : Unicode) (isIPv6 : Chars → Bool) (hdoc : unicode.Documented) :
    DomainsNormalised unicode isIPv6 := by
  refine ⟨fun value => ⟨?_, ?_⟩, fun value value' host h h' => ?_, fun value value' a a' h h' hhost hok hok' => ?_⟩
  · rintro ⟨domain, hagent, _, hserver, _⟩
    rw [normalizeDomain_eq] at hserver
    refine ⟨?_, fun host labels hnames hforms hvalid => ?_⟩
    · rcases normalizeDomain_cases unicode isIPv6 value with ⟨e, _, heq⟩ | ⟨parsed, hparsed, _⟩ |
        ⟨parsed, _, hparsed, _⟩
      · rw [heq] at hagent
        cases hagent
      · exact ⟨parsed, hparsed⟩
      · exact ⟨parsed, hparsed⟩
    · obtain ⟨hne, hspec⟩ := labelForms_spec hdoc (folded_host hdoc hnames) hforms
      rw [normalizeDomain_of_host hnames hnames.nonempty, reduced_of_forms hforms hvalid] at hagent
      cases Except.ok.inj hagent
      exact (join_normalized_iff hdoc hne hspec hvalid).mp hserver
  · rintro ⟨⟨parsed, hparsed⟩, hplain⟩
    unfold DomainKept
    rw [normalizeDomain_eq]
    have hempty : WebsiteBridge.normalizeDomain unicode isIPv6 [] = .ok [] := normalizeDomain_nil hdoc
    rcases normalizeDomain_cases unicode isIPv6 value with ⟨e, herror, _⟩ | ⟨_, _, _, heq⟩ |
      ⟨_, host, _, hnames, heq⟩
    · rw [hparsed] at herror
      cases herror
    · exact ⟨[], heq, heq, hempty, Or.inl rfl⟩
    · by_cases hreduced : reduced unicode host = []
      · rw [hreduced] at heq
        exact ⟨[], heq, heq, hempty, Or.inl rfl⟩
      · obtain ⟨labels, hforms, hvalid, hjoin⟩ := forms_of_reduced hreduced
        obtain ⟨hne, hspec⟩ := labelForms_spec hdoc (folded_host hdoc hnames) hforms
        have hlabels := hplain host labels hnames hforms hvalid
        have hhost := (plainHost_join (fun label hlabel => (hspec label hlabel).2.2.1) hne).mpr hlabels
        rw [hjoin] at heq
        refine ⟨join labels, heq, heq, (join_normalized_iff hdoc hne hspec hvalid).mpr hlabels, Or.inr ?_⟩
        exact ⟨Library.Idna.isAscii_join fun label hlabel => (hspec label hlabel).1, hvalid, hhost.no_www⟩
  · rw [normalizeDomain_eq]
    exact ⟨same_of_namesHost h h', same_of_namesHost h h'⟩
  · rw [normalizeDomain_eq, address_read h hok, address_read h' hok', hhost]
    exact ⟨rfl, rfl⟩

/-- The string methods and codecs on ASCII text. -/
def asciiUnicode : Unicode where
  lower s := s.map Char.toLower
  nfkc s := s
  nameprep s := some (s.map Char.toLower)
  punycode s := s.filter fun c => c.toNat < 128

theorem folded_map_toLower (s : Chars) : Folded (s.map Char.toLower) := by
  intro c hc
  obtain ⟨c', _, rfl⟩ := List.mem_map.mp hc
  unfold Char.toLower
  split
  next hupper =>
    have hrange : 65 ≤ c'.val.toNat ∧ c'.val.toNat ≤ 90 := hupper
    refine decide_eq_false ?_
    rintro ⟨_, hhigh⟩
    have hle : (c'.val + ('a'.val - 'A'.val)).toNat ≤ 90 := hhigh
    rw [UInt32.toNat_add] at hle
    have hshift : ('a'.val - 'A'.val).toNat = 32 := rfl
    omega
  next hupper =>
    exact decide_eq_false hupper

theorem asciiUnicode_documented : asciiUnicode.Documented where
  lower_ascii _ _ := rfl
  lower_folded := folded_map_toLower
  nameprep_folded _ label h := by
    cases h
    exact folded_map_toLower _
  punycode_ascii s := by
    rw [Library.Idna.isAscii_iff]
    intro c hc
    simpa using (List.mem_filter.mp hc).2
  punycode_folded s h c hc := h c (List.mem_filter.mp hc).1

theorem domains_normalised_github :
    DomainsNormalised asciiUnicode (fun _ => false) ∧
      WebsiteBridge.normalizeDomain asciiUnicode (fun _ => false)
        "https://www.github.com/org/repo?q=secret#part".toList = .ok "github.com".toList :=
  ⟨domains_normalised asciiUnicode _ asciiUnicode_documented, by decide +kernel⟩

/-- The second pass removes a `www.` that the first one has left in front. -/
theorem domain_reduced_twice :
    ¬ DomainKept asciiUnicode (fun _ => false) "www.www.example.com".toList := by
  rintro ⟨domain, hagent, _, hserver, _⟩
  have hfirst : WebsiteBridge.normalizeDomain asciiUnicode (fun _ => false) "www.www.example.com".toList =
      .ok "www.example.com".toList := by decide +kernel
  have hsecond : Privacy.normalizeDomain asciiUnicode (fun _ => false) "www.example.com".toList =
      .ok "example.com".toList := by decide +kernel
  rw [hfirst] at hagent
  cases Except.ok.inj hagent
  rw [hsecond] at hserver
  exact absurd (Except.ok.inj hserver) (by decide)

end Dayfinch.Agent.Domains
