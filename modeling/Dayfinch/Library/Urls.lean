/-
# Dayfinch.Library.Urls -- how the standard library splits a URL

`urlsplit` takes a URL apart into scheme, network location, path, query and fragment, and the result
reads the host name, the user and the password off the network location. Splitting fails on
unbalanced brackets, on brackets around something that is no IP literal, and on a network location
that Unicode normalisation would turn into several parts.

An `Address` is a URL given by its parts. When the parts have none of the characters that end them,
the split gives the host back as it was written (`Address.urlsplit_text`, `Address.rawHost_netloc`).
-/
import Mathlib.Data.List.TakeWhile
import Dayfinch.Library.Idna

namespace Dayfinch.Library.Urls

open Idna (Chars Unicode isAscii)

/-! ## Cutting a text -/

/-- `s.partition(c)[0]`. -/
def before (c : Char) (s : Chars) : Chars := s.takeWhile (· != c)

/-- `s.partition(c)[2]`. -/
def after (c : Char) (s : Chars) : Chars := (s.dropWhile (· != c)).tail

/-! ## What a split result tells -/

structure SplitResult where
  scheme : Chars
  netloc : Chars
  path : Chars
  query : Chars
  fragment : Chars
  deriving DecidableEq, Repr

/-- `netloc.rpartition("@")[2]`. -/
def hostinfo (netloc : Chars) : Chars := netloc.rtakeWhile (· != '@')

/-- The host name of `_hostinfo`. -/
def rawHost (netloc : Chars) : Chars :=
  if '[' ∈ hostinfo netloc then before ']' (after '[' (hostinfo netloc)) else before ':' (hostinfo netloc)

/-- `hostname`: in lower case up to the zone of a scoped address. -/
def SplitResult.hostname (unicode : Unicode) (parsed : SplitResult) : Option Chars :=
  let host := rawHost parsed.netloc
  if host = [] then none else some (unicode.lower (before '%' host) ++ host.dropWhile (· != '%'))

/-- `netloc.rpartition("@")[0]`, where there is an `@`. -/
def SplitResult.userinfo (parsed : SplitResult) : Option Chars :=
  if '@' ∈ parsed.netloc then some (parsed.netloc.rdropWhile (· != '@')).dropLast else none

/-- `username`. -/
def SplitResult.username (parsed : SplitResult) : Option Chars := parsed.userinfo.map (before ':')

/-- `password`. -/
def SplitResult.password (parsed : SplitResult) : Option Chars :=
  parsed.userinfo.bind fun info => if ':' ∈ info then some (after ':' info) else none

/-! ## Splitting -/

/-- The kinds of `ValueError` that splitting raises. -/
inductive ValueError where
  /-- `Invalid IPv6 URL`. -/
  | brackets
  /-- What stands in brackets is neither an IPv6 nor an IPvFuture address. -/
  | literal
  /-- `netloc .. contains invalid characters under NFKC normalization`. -/
  | characters
  deriving DecidableEq, Repr

/-- The URL without leading blanks and control characters and without tabs and line ends. -/
def cleaned (url : Chars) : Chars :=
  (url.dropWhile fun c => c.toNat ≤ 32).filter fun c => c ∉ ['\t', '\r', '\n']

/-- `scheme_chars`. -/
def isSchemeChar (c : Char) : Bool := c.isAlphanum || c ∈ ['+', '-', '.']

/-- The scheme in front of the first colon, and the rest. -/
def splitScheme (url : Chars) : Chars × Chars :=
  let scheme := before ':' url
  if ':' ∈ url ∧ scheme.head?.any Char.isAlpha ∧ scheme.all isSchemeChar
  then (scheme.map Char.toLower, after ':' url)
  else ([], url)

/-- The characters that end a network location. -/
def isDelimiter (c : Char) : Bool := c ∈ ['/', '?', '#']

/-- `_splitnetloc`, where the text starts with two slashes. -/
def splitNetloc (url : Chars) : Chars × Chars :=
  if ['/', '/'].isPrefixOf url
  then ((url.drop 2).takeWhile (!isDelimiter ·), (url.drop 2).dropWhile (!isDelimiter ·))
  else ([], url)

/-- `\Av[a-fA-F0-9]+\..+\Z`. -/
def isIPvFuture (host : Chars) : Bool :=
  let isHex : Char → Bool := fun c => c.isDigit || ('a' ≤ c ∧ c ≤ 'f') || ('A' ≤ c ∧ c ≤ 'F')
  let digits := (host.drop 1).takeWhile isHex
  let rest := (host.drop 1).dropWhile isHex
  host.head? == some 'v' && !digits.isEmpty && rest.head? == some '.' && !rest.tail.isEmpty &&
    '\n' ∉ rest.tail

/-- `_check_bracketed_host`; `isIPv6` tells what `ipaddress` reads as an IPv6 address. -/
def checkBracketedHost (isIPv6 : Chars → Bool) (host : Chars) : Except ValueError Unit :=
  if (if host.head? = some 'v' then isIPvFuture host else isIPv6 host) then .ok () else .error .literal

/-- `_check_bracketed_netloc`. -/
def checkBracketedNetloc (isIPv6 : Chars → Bool) (netloc : Chars) : Except ValueError Unit :=
  let info := hostinfo netloc
  if '[' ∈ info then
    let bracketed := after '[' info
    if before '[' info ≠ [] then .error .brackets
    else if after ']' bracketed ≠ [] ∧ (after ']' bracketed).head? ≠ some ':' then .error .brackets
    else checkBracketedHost isIPv6 (before ']' bracketed)
  else checkBracketedHost isIPv6 (before ':' info)

/-- The checks of `urlsplit` on brackets. -/
def checkBrackets (isIPv6 : Chars → Bool) (netloc : Chars) : Except ValueError Unit :=
  if ('[' ∈ netloc ∧ ']' ∉ netloc) ∨ (']' ∈ netloc ∧ '[' ∉ netloc) then .error .brackets
  else if '[' ∈ netloc then checkBracketedNetloc isIPv6 netloc
  else .ok ()

/-- `_checknetloc`. -/
def checkNetloc (unicode : Unicode) (netloc : Chars) : Except ValueError Unit :=
  if isAscii netloc then .ok ()
  else
    let kept := netloc.filter fun c => c ∉ ['@', ':', '#', '?']
    let normalized := unicode.nfkc kept
    if kept = normalized then .ok ()
    else if ['/', '?', '#', '@', ':'].any (· ∈ normalized) then .error .characters
    else .ok ()

/-- `urlsplit(url)`. -/
def urlsplit (unicode : Unicode) (isIPv6 : Chars → Bool) (url : Chars) : Except ValueError SplitResult := do
  let (scheme, rest) := splitScheme (cleaned url)
  let (netloc, rest) := splitNetloc rest
  checkBrackets isIPv6 netloc
  checkNetloc unicode netloc
  return {
    scheme, netloc
    path := before '?' (before '#' rest)
    query := after '?' (before '#' rest)
    fragment := after '#' rest }

/-! ## Parts of a text -/

theorem before_eq_self {c : Char} {s : Chars} : before c s = s ↔ c ∉ s := by
  rw [before, List.takeWhile_eq_self_iff]
  simp only [bne_iff_ne]
  exact ⟨fun h hmem => h c hmem rfl, fun h x hx heq => h (heq ▸ hx)⟩

theorem differs_of_not_mem {c : Char} {s : Chars} (h : c ∉ s) : ∀ x ∈ s, (x != c) = true := by
  intro x hx
  rw [bne_iff_ne]
  rintro rfl
  exact h hx

theorem before_append {c : Char} {s : Chars} (h : c ∉ s) (t : Chars) : before c (s ++ c :: t) = s := by
  rw [before, List.takeWhile_append_of_pos (differs_of_not_mem h), List.takeWhile_cons_of_neg (by simp),
    List.append_nil]

theorem after_append {c : Char} {s : Chars} (h : c ∉ s) (t : Chars) : after c (s ++ c :: t) = t := by
  rw [after, List.dropWhile_append_of_pos (differs_of_not_mem h), List.dropWhile_cons_of_neg (by simp),
    List.tail_cons]

theorem before_sublist (c : Char) (s : Chars) : (before c s).Sublist s := List.takeWhile_sublist _

theorem after_sublist (c : Char) (s : Chars) : (after c s).Sublist s :=
  (List.tail_sublist _).trans (List.dropWhile_sublist _)

theorem length_after_lt {c : Char} {s : Chars} (h : c ∈ s) : (after c s).length < s.length := by
  have hne : s.dropWhile (· != c) ≠ [] := by
    intro hnil
    have hall := List.dropWhile_eq_nil_iff.mp hnil c h
    simp at hall
  have hle := (List.dropWhile_sublist (l := s) (· != c)).length_le
  have hpos := List.length_pos_of_ne_nil hne
  rw [after, List.length_tail]
  omega

theorem hostinfo_eq_self {s : Chars} : hostinfo s = s ↔ '@' ∉ s := by
  rw [hostinfo, List.rtakeWhile_eq_self_iff]
  simp only [bne_iff_ne]
  exact ⟨fun h hmem => h '@' hmem rfl, fun h x hx heq => h (heq ▸ hx)⟩

theorem hostinfo_append {t : Chars} (h : '@' ∉ t) (s : Chars) : hostinfo (s ++ '@' :: t) = t := by
  have hreverse : (s ++ '@' :: t).reverse = t.reverse ++ '@' :: s.reverse := by simp
  rw [hostinfo, List.rtakeWhile, hreverse]
  show (before '@' (t.reverse ++ '@' :: s.reverse)).reverse = t
  rw [before_append (by simpa using h), List.reverse_reverse]

theorem hostinfo_sublist (s : Chars) : (hostinfo s).Sublist s := (List.rtakeWhile_suffix _ _).sublist

theorem rawHost_sublist_hostinfo (netloc : Chars) : (rawHost netloc).Sublist (hostinfo netloc) := by
  unfold rawHost
  split
  · exact (before_sublist _ _).trans (after_sublist _ _)
  · exact before_sublist _ _

theorem rawHost_sublist (netloc : Chars) : (rawHost netloc).Sublist netloc :=
  (rawHost_sublist_hostinfo netloc).trans (hostinfo_sublist netloc)

/-- The network locations that are a host name and nothing else. -/
theorem rawHost_eq_self {netloc : Chars} :
    rawHost netloc = netloc ↔ '@' ∉ netloc ∧ '[' ∉ netloc ∧ ':' ∉ netloc := by
  constructor
  · intro h
    have hle := (rawHost_sublist_hostinfo netloc).length_le
    rw [h] at hle
    have hinfo : hostinfo netloc = netloc := (hostinfo_sublist netloc).eq_of_length_le hle
    have hopen : '[' ∉ netloc := by
      intro hmem
      unfold rawHost at h
      rw [hinfo, if_pos hmem] at h
      have hshort := length_after_lt hmem
      have hbefore := (before_sublist ']' (after '[' netloc)).length_le
      rw [h] at hbefore
      omega
    refine ⟨hostinfo_eq_self.mp hinfo, hopen, before_eq_self.mp ?_⟩
    unfold rawHost at h
    rwa [hinfo, if_neg hopen] at h
  · rintro ⟨hat, hopen, hcolon⟩
    rw [rawHost, hostinfo_eq_self.mpr hat, if_neg hopen, before_eq_self.mpr hcolon]

/-! ## Splitting a text with a scheme -/

/-- `http` or `https`. -/
def schemeText (secure : Bool) : Chars :=
  if secure then ['h', 't', 't', 'p', 's'] else ['h', 't', 't', 'p']

/-- The text without tabs and line ends. -/
def withoutBreaks (s : Chars) : Chars := s.filter fun c => c ∉ ['\t', '\r', '\n']

theorem cleaned_scheme (secure : Bool) (s : Chars) :
    cleaned (schemeText secure ++ ':' :: '/' :: '/' :: s) =
      schemeText secure ++ ':' :: '/' :: '/' :: withoutBreaks s := by
  cases secure
  · rfl
  · rfl

theorem splitScheme_scheme (secure : Bool) (rest : Chars) :
    splitScheme (schemeText secure ++ ':' :: rest) = (schemeText secure, rest) := by
  have hcolon : ':' ∉ schemeText secure := by cases secure <;> decide
  have hhead : (schemeText secure).head?.any Char.isAlpha = true := by cases secure <;> decide
  have hall : (schemeText secure).all isSchemeChar = true := by cases secure <;> decide
  have hlower : (schemeText secure).map Char.toLower = schemeText secure := by cases secure <;> decide
  unfold splitScheme
  simp only [before_append hcolon, after_append hcolon, hlower]
  exact if_pos ⟨by simp, hhead, hall⟩

/-- The network location in a text behind `scheme://`. -/
def netlocOf (s : Chars) : Chars := s.takeWhile (!isDelimiter ·)

theorem splitNetloc_slashes (s : Chars) :
    splitNetloc ('/' :: '/' :: s) = (netlocOf s, s.dropWhile (!isDelimiter ·)) := rfl

variable {unicode : Unicode} {isIPv6 : Chars → Bool}

/-- What the split gives, and when it fails. -/
theorem urlsplit_eq_ok {url : Chars} {parsed : SplitResult} :
    urlsplit unicode isIPv6 url = .ok parsed ↔
      checkBrackets isIPv6 (splitNetloc (splitScheme (cleaned url)).2).1 = .ok () ∧
        checkNetloc unicode (splitNetloc (splitScheme (cleaned url)).2).1 = .ok () ∧
          parsed = {
            scheme := (splitScheme (cleaned url)).1
            netloc := (splitNetloc (splitScheme (cleaned url)).2).1
            path := before '?' (before '#' (splitNetloc (splitScheme (cleaned url)).2).2)
            query := after '?' (before '#' (splitNetloc (splitScheme (cleaned url)).2).2)
            fragment := after '#' (splitNetloc (splitScheme (cleaned url)).2).2 } := by
  unfold urlsplit
  generalize splitScheme (cleaned url) = schemed
  obtain ⟨scheme, rest⟩ := schemed
  dsimp only
  generalize splitNetloc rest = located
  obtain ⟨netloc, rest⟩ := located
  dsimp only
  cases checkBrackets isIPv6 netloc with
  | error e => exact ⟨(by intro h; cases h), (by rintro ⟨h, _⟩; cases h)⟩
  | ok u =>
    cases checkNetloc unicode netloc with
    | error e => exact ⟨(by intro h; cases h), (by rintro ⟨_, h, _⟩; cases h)⟩
    | ok v => exact ⟨fun h => ⟨rfl, rfl, (Except.ok.inj h).symm⟩, fun h => congrArg _ h.2.2.symm⟩

/-- The split of `http://..` and `https://..`. -/
theorem urlsplit_scheme {secure : Bool} {s : Chars} {parsed : SplitResult}
    (h : urlsplit unicode isIPv6 (schemeText secure ++ ':' :: '/' :: '/' :: s) = .ok parsed) :
    parsed.scheme = schemeText secure ∧ parsed.netloc = netlocOf (withoutBreaks s) ∧
      checkBrackets isIPv6 parsed.netloc = .ok () := by
  obtain ⟨hbrackets, _, rfl⟩ := urlsplit_eq_ok.mp h
  simp only [cleaned_scheme, splitScheme_scheme, splitNetloc_slashes] at hbrackets ⊢
  exact ⟨trivial, trivial, hbrackets⟩

theorem urlsplit_scheme_ok {secure : Bool} {s : Chars}
    (hbrackets : checkBrackets isIPv6 (netlocOf (withoutBreaks s)) = .ok ())
    (hnetloc : checkNetloc unicode (netlocOf (withoutBreaks s)) = .ok ()) :
    ∃ parsed, urlsplit unicode isIPv6 (schemeText secure ++ ':' :: '/' :: '/' :: s) = .ok parsed := by
  refine ⟨_, urlsplit_eq_ok.mpr ⟨?_, ?_, rfl⟩⟩
  · rwa [cleaned_scheme, splitScheme_scheme, splitNetloc_slashes]
  · rwa [cleaned_scheme, splitScheme_scheme, splitNetloc_slashes]

theorem length_splitScheme_lt {url : Chars} (h : (splitScheme url).1 ≠ []) :
    (splitScheme url).2.length < url.length := by
  by_cases hcond : ':' ∈ url ∧ (before ':' url).head?.any Char.isAlpha = true ∧
      (before ':' url).all isSchemeChar = true
  · have hsplit : splitScheme url = ((before ':' url).map Char.toLower, after ':' url) := if_pos hcond
    rw [hsplit]
    exact length_after_lt hcond.1
  · have hsplit : splitScheme url = ([], url) := if_neg hcond
    rw [hsplit] at h
    exact absurd rfl h

theorem netlocOf_sublist (s : Chars) : (netlocOf s).Sublist s := List.takeWhile_sublist _

/-- A network location that follows a scheme is shorter than the URL. -/
theorem length_netloc_lt {url : Chars} {parsed : SplitResult}
    (h : urlsplit unicode isIPv6 url = .ok parsed) (hscheme : parsed.scheme ≠ []) :
    parsed.netloc.length < url.length := by
  obtain ⟨_, _, rfl⟩ := urlsplit_eq_ok.mp h
  have hcleaned : (cleaned url).length ≤ url.length :=
    (List.filter_sublist.trans (List.dropWhile_sublist _)).length_le
  have hrest := length_splitScheme_lt hscheme
  have hnetloc : (splitNetloc (splitScheme (cleaned url)).2).1.length ≤
      (splitScheme (cleaned url)).2.length := by
    unfold splitNetloc
    split
    · exact ((List.takeWhile_sublist _).trans (List.drop_sublist _ _)).length_le
    · exact Nat.zero_le _
  show (splitNetloc (splitScheme (cleaned url)).2).1.length < url.length
  omega

/-- The network location is a part of the URL. -/
theorem netloc_sublist {url : Chars} {parsed : SplitResult}
    (h : urlsplit unicode isIPv6 url = .ok parsed) : parsed.netloc.Sublist url := by
  obtain ⟨_, _, rfl⟩ := urlsplit_eq_ok.mp h
  have hcleaned : (cleaned url).Sublist url := List.filter_sublist.trans (List.dropWhile_sublist _)
  have hrest : (splitScheme (cleaned url)).2.Sublist (cleaned url) := by
    unfold splitScheme
    dsimp only
    split
    · exact after_sublist _ _
    · exact List.Sublist.refl _
  have hnetloc : (splitNetloc (splitScheme (cleaned url)).2).1.Sublist (splitScheme (cleaned url)).2 := by
    unfold splitNetloc
    split
    · exact (List.takeWhile_sublist _).trans (List.drop_sublist _ _)
    · exact List.nil_sublist _
  exact (hnetloc.trans hrest).trans hcleaned

/-! ## Addresses by their parts -/

/-- The characters that have a meaning of their own in a network location or end it, or that the
split takes out. -/
def Special (c : Char) : Prop := c ∈ ['/', '?', '#', '@', ':', '[', ']', '\t', '\r', '\n']

instance (c : Char) : Decidable (Special c) := inferInstanceAs (Decidable (c ∈ _))

/-- A text that is no longer than the host read from it is that host, without special characters. -/
theorem plain_of_length_le {s : Chars} (hbrackets : checkBrackets isIPv6 (netlocOf (withoutBreaks s)) = .ok ())
    (h : s.length ≤ (rawHost (netlocOf (withoutBreaks s))).length) :
    rawHost (netlocOf (withoutBreaks s)) = s ∧ ∀ c ∈ s, ¬ Special c := by
  have hbreaks : (withoutBreaks s).Sublist s := List.filter_sublist
  have hnetloc := netlocOf_sublist (withoutBreaks s)
  have hraw := rawHost_sublist (netlocOf (withoutBreaks s))
  have hle₁ := hbreaks.length_le
  have hle₂ := hnetloc.length_le
  have hle₃ := hraw.length_le
  have heq₃ := hraw.eq_of_length_le (by omega)
  have heq₂ := hnetloc.eq_of_length_le (by omega)
  have heq₁ := hbreaks.eq_of_length_le (by omega)
  rw [heq₂, heq₁] at hbrackets heq₃
  rw [heq₂, heq₁]
  refine ⟨heq₃, ?_⟩
  obtain ⟨hat, hopen, hcolon⟩ := rawHost_eq_self.mp heq₃
  have hclose : ']' ∉ s := by
    intro hmem
    rw [checkBrackets, if_pos (Or.inr ⟨hmem, hopen⟩)] at hbrackets
    cases hbrackets
  have hdelimiters : ∀ c ∈ s, (!isDelimiter c) = true := by
    rw [heq₁] at heq₂
    exact List.takeWhile_eq_self_iff.mp heq₂
  have hkept : ∀ c ∈ s, c ∉ ['\t', '\r', '\n'] := by
    intro c hc
    have hfilter := List.filter_eq_self.mp heq₁ c hc
    rwa [decide_eq_true_eq] at hfilter
  intro c hc hspecial
  simp only [Special, List.mem_cons, List.not_mem_nil, or_false] at hspecial
  rcases hspecial with rfl | rfl | rfl | rfl | rfl | rfl | rfl | rfl | rfl | rfl
  · exact absurd (hdelimiters _ hc) (by decide)
  · exact absurd (hdelimiters _ hc) (by decide)
  · exact absurd (hdelimiters _ hc) (by decide)
  · exact hat hc
  · exact hcolon hc
  · exact hopen hc
  · exact hclose hc
  · exact hkept _ hc (by decide)
  · exact hkept _ hc (by decide)
  · exact hkept _ hc (by decide)

/-- The parts of `scheme://userinfo@host:port/path?query#fragment`; everything behind the network
location is the `tail`. -/
structure Address where
  secure : Bool
  userinfo : Option Chars
  host : Chars
  port : Option Chars
  tail : Chars
  userinfo_plain : ∀ info ∈ userinfo, ∀ c ∈ info, Special c → c = '@' ∨ c = ':'
  host_plain : ∀ c ∈ host, ¬ Special c
  port_plain : ∀ port' ∈ port, ∀ c ∈ port', Special c → c = ':'
  tail_delimited : ∀ c ∈ tail.head?, isDelimiter c = true

namespace Address

/-- The host with its port. -/
def location (a : Address) : Chars := a.host ++ (a.port.elim [] fun port => ':' :: port)

/-- The network location. -/
def netloc (a : Address) : Chars := (a.userinfo.elim [] fun info => info ++ ['@']) ++ a.location

/-- The URL. -/
def text (a : Address) : Chars := schemeText a.secure ++ ':' :: '/' :: '/' :: (a.netloc ++ a.tail)

variable (a : Address)

theorem special_of_mem_location : ∀ c ∈ a.location, Special c → c = ':' := by
  intro c hc hspecial
  rcases List.mem_append.mp hc with hhost | hport
  · exact absurd hspecial (a.host_plain c hhost)
  · cases hp : a.port with
    | none =>
      rw [hp] at hport
      cases hport
    | some port =>
      rw [hp] at hport
      rcases List.mem_cons.mp hport with rfl | hmem
      · rfl
      · exact a.port_plain port hp c hmem hspecial

theorem special_of_mem_netloc : ∀ c ∈ a.netloc, Special c → c = '@' ∨ c = ':' := by
  intro c hc hspecial
  rcases List.mem_append.mp hc with hinfo | hlocation
  · cases hu : a.userinfo with
    | none =>
      rw [hu] at hinfo
      cases hinfo
    | some info =>
      rw [hu] at hinfo
      rcases List.mem_append.mp hinfo with hmem | hat
      · exact a.userinfo_plain info hu c hmem hspecial
      · exact Or.inl (List.mem_singleton.mp hat)
  · exact Or.inr (a.special_of_mem_location c hlocation hspecial)

theorem not_mem_netloc {c : Char} (hspecial : Special c) (hat : c ≠ '@') (hcolon : c ≠ ':') :
    c ∉ a.netloc := by
  intro hmem
  rcases a.special_of_mem_netloc c hmem hspecial with rfl | rfl
  · exact hat rfl
  · exact hcolon rfl

theorem not_delimiter : ∀ c ∈ a.netloc, (!isDelimiter c) = true := by
  intro c hc
  rw [Bool.not_eq_true', Bool.eq_false_iff]
  intro hdelimiter
  rw [isDelimiter, decide_eq_true_eq] at hdelimiter
  have hspecial : Special c := by
    rcases List.mem_cons.mp hdelimiter with rfl | hmem
    · decide
    · rcases List.mem_cons.mp hmem with rfl | hmem
      · decide
      · cases List.mem_singleton.mp hmem
        decide
  rcases a.special_of_mem_netloc c hc hspecial with rfl | rfl
  · exact absurd hdelimiter (by decide)
  · exact absurd hdelimiter (by decide)

/-- The text behind the scheme gives the network location back. -/
theorem netlocOf_text : netlocOf (withoutBreaks (a.netloc ++ a.tail)) = a.netloc := by
  have hnetloc : withoutBreaks a.netloc = a.netloc := by
    rw [withoutBreaks, List.filter_eq_self]
    intro c hc
    rw [decide_eq_true_eq]
    intro hbreak
    rcases List.mem_cons.mp hbreak with rfl | hmem
    · exact a.not_mem_netloc (by decide) (by decide) (by decide) hc
    · rcases List.mem_cons.mp hmem with rfl | hmem
      · exact a.not_mem_netloc (by decide) (by decide) (by decide) hc
      · cases List.mem_singleton.mp hmem
        exact a.not_mem_netloc (by decide) (by decide) (by decide) hc
  have hsplit : withoutBreaks (a.netloc ++ a.tail) = a.netloc ++ withoutBreaks a.tail := by
    rw [withoutBreaks, List.filter_append]
    exact congrArg (· ++ withoutBreaks a.tail) hnetloc
  rw [hsplit, netlocOf, List.takeWhile_append_of_pos a.not_delimiter]
  cases htail : a.tail with
  | nil => simp [withoutBreaks]
  | cons c rest =>
    -- the first character behind the network location ends it
    have hdelimiter : isDelimiter c = true := a.tail_delimited c (by rw [htail]; rfl)
    have hkept : c ∉ ['\t', '\r', '\n'] := by
      intro hbreak
      rcases List.mem_cons.mp hbreak with rfl | hmem
      · exact absurd hdelimiter (by decide)
      · rcases List.mem_cons.mp hmem with rfl | hmem
        · exact absurd hdelimiter (by decide)
        · cases List.mem_singleton.mp hmem
          exact absurd hdelimiter (by decide)
    rw [withoutBreaks, List.filter_cons_of_pos (by simpa using hkept),
      List.takeWhile_cons_of_neg (by simpa using hdelimiter), List.append_nil]

theorem checkBrackets_netloc (isIPv6 : Chars → Bool) : checkBrackets isIPv6 a.netloc = .ok () := by
  have hopen : '[' ∉ a.netloc := a.not_mem_netloc (by decide) (by decide) (by decide)
  have hclose : ']' ∉ a.netloc := a.not_mem_netloc (by decide) (by decide) (by decide)
  rw [checkBrackets, if_neg, if_neg hopen]
  rintro (⟨h, _⟩ | ⟨h, _⟩)
  · exact hopen h
  · exact hclose h

/-- The split of an address fails only where Unicode normalisation would change its parts. -/
theorem urlsplit_text (unicode : Unicode) (isIPv6 : Chars → Bool)
    (hnetloc : checkNetloc unicode a.netloc = .ok ()) :
    ∃ parsed, urlsplit unicode isIPv6 a.text = .ok parsed ∧
      parsed.scheme = schemeText a.secure ∧ parsed.netloc = a.netloc := by
  have hbrackets := a.checkBrackets_netloc isIPv6
  rw [← a.netlocOf_text] at hbrackets hnetloc
  obtain ⟨parsed, hparsed⟩ : ∃ parsed, urlsplit unicode isIPv6 a.text = .ok parsed :=
    urlsplit_scheme_ok hbrackets hnetloc
  obtain ⟨hscheme, hlocated, _⟩ := urlsplit_scheme hparsed
  exact ⟨parsed, hparsed, hscheme, hlocated.trans a.netlocOf_text⟩

/-- The host is read as it was written. -/
theorem rawHost_netloc : rawHost a.netloc = a.host := by
  have hat : '@' ∉ a.location := fun hmem =>
    absurd (a.special_of_mem_location '@' hmem (by decide)) (by decide)
  have hinfo : hostinfo a.netloc = a.location := by
    unfold netloc
    cases a.userinfo with
    | none => exact hostinfo_eq_self.mpr hat
    | some info =>
      rw [Option.elim_some, List.append_assoc]
      exact hostinfo_append hat info
  have hopen : '[' ∉ a.location := fun hmem =>
    absurd (a.special_of_mem_location '[' hmem (by decide)) (by decide)
  have hcolon : ':' ∉ a.host := fun hmem => a.host_plain ':' hmem (by decide)
  rw [rawHost, hinfo, if_neg hopen]
  unfold location
  cases a.port with
  | none =>
    rw [Option.elim_none, List.append_nil]
    exact before_eq_self.mpr hcolon
  | some port => exact before_append hcolon port

end Address

end Dayfinch.Library.Urls
