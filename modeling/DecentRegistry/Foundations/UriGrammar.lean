import DecentRegistry.Foundations.Grammar
import Mathlib.Data.Nat.Notation

/-!
# The grammar of URIs

The productions of RFC 3986 for an absolute URI, with an IP literal that may carry a zone: the
address, `%25`, and at least one unreserved or percent-encoded character. Brackets come only around
an IP literal, and a percent sign in an IP literal only in a zone (`bracket_of_mem_absoluteUri`,
`zone_of_mem_ipLiteralText`). -/

namespace DecentRegistry.UriGrammar

open Grammar Computability

/-! ## Characters -/

/-- The characters from `lo` to `hi`. -/
def between (lo hi c : Char) : Bool := lo.toNat ≤ c.toNat && c.toNat ≤ hi.toNat

def alpha (c : Char) : Bool := between 'a' 'z' c || between 'A' 'Z' c

def digit (c : Char) : Bool := between '0' '9' c

def hexdig (c : Char) : Bool := digit c || between 'a' 'f' c || between 'A' 'F' c

def unreserved (c : Char) : Bool := alpha c || digit c || ['-', '.', '_', '~'].contains c

def subDelims (c : Char) : Bool :=
  ['!', '$', '&', Char.ofNat 39, '(', ')', '*', '+', ',', ';', '='].contains c

/-- The characters of a path segment that stand for themselves. -/
def segmentChar (c : Char) : Bool := unreserved c || subDelims c || c = ':' || c = '@'

/-! ## Components -/

/-- `"%" HEXDIG HEXDIG`. -/
def pctEncoded : Language Char :=
  {s | ∃ a b, hexdig a = true ∧ hexdig b = true ∧ s = ['%', a, b]}

/-- A character of a class, or a percent-encoded one. -/
def encodable (p : Char → Bool) : Language Char := letter p + pctEncoded

def segment : Language Char := (encodable segmentChar)∗

def segmentNz : Language Char := encodable segmentChar * segment

def pathAbempty : Language Char := (exactly ['/'] * segment)∗

def pathAbsolute : Language Char := exactly ['/'] * (1 + segmentNz * pathAbempty)

def pathRootless : Language Char := segmentNz * pathAbempty

def query : Language Char := (encodable fun c => segmentChar c || c = '/' || c = '?')∗

def scheme : Language Char :=
  letter alpha * (letter fun c => alpha c || digit c || ['+', '-', '.'].contains c)∗

/-! ## Addresses -/

def decOctet : Language Char :=
  letter digit + letter (between '1' '9') * letter digit +
    exactly ['1'] * (letter digit * letter digit) +
    exactly ['2'] * (letter (between '0' '4') * letter digit) +
    exactly ['2', '5'] * letter (between '0' '5')

def ipv4address : Language Char :=
  decOctet * exactly ['.'] * decOctet * exactly ['.'] * decOctet * exactly ['.'] * decOctet

/-- `1*4HEXDIG`. -/
def h16 : Language Char := {s | 1 ≤ s.length ∧ s.length ≤ 4 ∧ ∀ c ∈ s, hexdig c = true}

/-- `h16 ":"`. -/
def group : Language Char := h16 * exactly [':']

def ls32 : Language Char := h16 * exactly [':'] * h16 + ipv4address

/-- At most `n` groups before a `"::"`: `[ *( h16 ":" ) h16 ]`. -/
def groupsBefore : ℕ → Language Char
  | 0 => 1
  | n + 1 => 1 + atMost n group * h16

/-- A `"::"` with `n` groups and the last 32 bits behind it. -/
def compressed : Language Char :=
  {s | ∃ n ≤ 5, s ∈ groupsBefore (5 - n) * exactly [':', ':'] * (group ^ n * ls32)}

/-- All eight groups, or a `"::"` with fewer: behind it groups and the last 32 bits, one group, or
none. -/
def ipv6address : Language Char :=
  group ^ 6 * ls32 + compressed +
    groupsBefore 6 * exactly [':', ':'] * h16 +
    groupsBefore 7 * exactly [':', ':']

def ipvFuture : Language Char :=
  letter (fun c => c = 'v' || c = 'V') * (letter hexdig * (letter hexdig)∗) * exactly ['.'] *
    (letter (fun c => unreserved c || subDelims c || c = ':') *
      (letter fun c => unreserved c || subDelims c || c = ':')∗)

def zoneId : Language Char := encodable unreserved * (encodable unreserved)∗

def ipv6addrz : Language Char := ipv6address * exactly ['%', '2', '5'] * zoneId

/-- What stands in the brackets of an IP literal. -/
def ipLiteralText : Language Char := ipv6address + ipv6addrz + ipvFuture

def ipLiteral : Language Char := exactly ['['] * ipLiteralText * exactly [']']

/-! ## URIs -/

def regName : Language Char := (encodable fun c => unreserved c || subDelims c)∗

def host : Language Char := ipLiteral + ipv4address + regName

def port : Language Char := (letter digit)∗

def userinfo : Language Char := (encodable fun c => unreserved c || subDelims c || c = ':')∗

def authority : Language Char :=
  (1 + userinfo * exactly ['@']) * host * (1 + exactly [':'] * port)

def hierPart : Language Char :=
  exactly ['/', '/'] * authority * pathAbempty + pathAbsolute + pathRootless + 1

/-- `scheme ":" hier-part [ "?" query ]`. -/
def absoluteUri : Language Char :=
  scheme * exactly [':'] * hierPart * (1 + exactly ['?'] * query)

/-! ## Delimiters -/

variable {P : Char → Prop} {p : Char → Bool} {s : List Char}

theorem over_encodable (hp : ∀ c, p c = true → P c) (hpercent : P '%')
    (hhex : ∀ c, hexdig c = true → P c) : Over P (encodable p) := by
  apply (over_letter hp).add
  rintro _ ⟨a, b, ha, hb, rfl⟩ c hc
  simp only [List.mem_cons, List.not_mem_nil, or_false] at hc
  rcases hc with rfl | rfl | rfl
  · exact hpercent
  · exact hhex c ha
  · exact hhex c hb

/-- A character outside a class is none of its characters. -/
theorem ne_of_class {d : Char} (h : p d = false) (c : Char) (hc : p c = true) : c ≠ d := by
  rintro rfl
  rw [h] at hc
  cases hc

theorem over_ne_encodable {d : Char} (hp : p d = false) (hpercent : '%' ≠ d)
    (hhex : hexdig d = false) : Over (· ≠ d) (encodable p) :=
  over_encodable (ne_of_class hp) hpercent (ne_of_class hhex)

theorem over_ne_exactly {d : Char} {t : List Char} (h : d ∉ t) : Over (· ≠ d) (exactly t) := by
  apply over_exactly
  rintro c hc rfl
  exact h hc

theorem over_ne_letter {d : Char} (h : p d = false) : Over (· ≠ d) (letter p) :=
  over_letter (ne_of_class h)

theorem not_mem_of_over {d : Char} {l : Language Char} (h : Over (· ≠ d) l) (hs : s ∈ l) :
    d ∉ s := fun hd => h s hs d hd rfl

/-- A delimiter that is no digit and no dot is not in an IPv4 address. -/
theorem over_ne_ipv4address {d : Char} (hdigit : digit d = false) (hdot : d ≠ '.') :
    Over (· ≠ d) ipv4address := by
  have hrange : ∀ lo hi : Char, '0'.toNat ≤ lo.toNat → hi.toNat ≤ '9'.toNat →
      between lo hi d = false := by
    intro lo hi hlo hhi
    simp only [digit, between, Bool.and_eq_false_iff, decide_eq_false_iff_not] at hdigit ⊢
    omega
  have hone : ∀ t : List Char, t.all digit = true → Over (· ≠ d) (exactly t) := by
    intro t ht
    apply over_exactly
    intro c hc
    exact ne_of_class hdigit c (List.all_eq_true.1 ht c hc)
  have hoctet : Over (· ≠ d) decOctet := by
    have h := over_ne_letter hdigit
    have hnonzero := over_ne_letter (hrange '1' '9' (by decide) (by decide))
    have hfour := over_ne_letter (hrange '0' '4' (by decide) (by decide))
    have hfive := over_ne_letter (hrange '0' '5' (by decide) (by decide))
    exact (((h.add (hnonzero.mul h)).add ((hone ['1'] rfl).mul (h.mul h))).add
      ((hone ['2'] rfl).mul (hfour.mul h))).add ((hone ['2', '5'] rfl).mul hfive)
  have hpoint : Over (· ≠ d) (exactly ['.']) := over_ne_exactly (by simpa using hdot)
  exact (((((hoctet.mul hpoint).mul hoctet).mul hpoint).mul hoctet).mul hpoint).mul hoctet

/-- A delimiter that is no hexadecimal digit, no colon and no dot is not in an IPv6 address. -/
theorem over_ne_ipv6address {d : Char} (hhex : hexdig d = false) (hcolon : d ≠ ':')
    (hdot : d ≠ '.') : Over (· ≠ d) ipv6address := by
  have hdigit : digit d = false := by
    rw [hexdig, Bool.or_eq_false_iff, Bool.or_eq_false_iff] at hhex
    exact hhex.1.1
  have hh16 : Over (· ≠ d) h16 := by
    rintro s ⟨-, -, hs⟩ c hc
    exact ne_of_class hhex c (hs c hc)
  have hsep : Over (· ≠ d) (exactly [':']) := over_ne_exactly (by simpa using hcolon)
  have hdouble : Over (· ≠ d) (exactly [':', ':']) := over_ne_exactly (by simpa using hcolon)
  have hgroup : Over (· ≠ d) group := hh16.mul hsep
  have hls : Over (· ≠ d) ls32 := (hgroup.mul hh16).add (over_ne_ipv4address hdigit hdot)
  have hbefore : ∀ n, Over (· ≠ d) (groupsBefore n) := by
    intro n
    cases n with
    | zero => exact over_one
    | succ n => exact over_one.add ((hgroup.atMost n).mul hh16)
  have hcompressed : Over (· ≠ d) compressed := by
    rintro s ⟨n, -, hs⟩
    exact (((hbefore _).mul hdouble).mul ((hgroup.pow n).mul hls)) s hs
  exact ((((hgroup.pow 6).mul hls).add hcompressed).add (((hbefore 6).mul hdouble).mul hh16)).add
    ((hbefore 7).mul hdouble)

/-- Bracket, or percent sign: neither is in an IPvFuture address. -/
theorem over_ne_ipvFuture {d : Char} (h : d ∈ ['[', ']', '%']) : Over (· ≠ d) ipvFuture := by
  simp only [List.mem_cons, List.not_mem_nil, or_false] at h
  have hv : Over (· ≠ d) (letter fun c => c = 'v' || c = 'V') := by
    apply over_ne_letter
    rcases h with rfl | rfl | rfl <;> decide
  have hhex : Over (· ≠ d) (letter hexdig) := by
    apply over_ne_letter
    rcases h with rfl | rfl | rfl <;> decide
  have hdot : Over (· ≠ d) (exactly ['.']) := by
    apply over_ne_exactly
    rcases h with rfl | rfl | rfl <;> decide
  have htext : Over (· ≠ d) (letter fun c => unreserved c || subDelims c || c = ':') := by
    apply over_ne_letter
    rcases h with rfl | rfl | rfl <;> decide
  exact ((hv.mul (hhex.mul hhex.kstar)).mul hdot).mul (htext.mul htext.kstar)

/-- No bracket closes an IP literal before its end. -/
theorem over_ne_ipLiteralText : Over (· ≠ ']') ipLiteralText := by
  have haddress : Over (· ≠ ']') ipv6address :=
    over_ne_ipv6address (by decide) (by decide) (by decide)
  have hescape : Over (· ≠ ']') (exactly ['%', '2', '5']) := over_ne_exactly (by decide)
  have hzone : Over (· ≠ ']') (encodable unreserved) :=
    over_ne_encodable (by decide) (by decide) (by decide)
  exact (haddress.add ((haddress.mul hescape).mul (hzone.mul hzone.kstar))).add
    (over_ne_ipvFuture (by decide))

/-- **A percent sign in an IP literal begins a zone**, and the zone is not empty. -/
theorem zone_of_mem_ipLiteralText (h : s ∈ ipLiteralText) :
    '%' ∉ s ∨ ∃ address zone, s = address ++ (['%', '2', '5'] ++ zone) ∧ '%' ∉ address ∧
      zone ≠ [] := by
  have haddress : Over (· ≠ '%') ipv6address :=
    over_ne_ipv6address (by decide) (by decide) (by decide)
  rcases (Language.mem_add _ _ _).1 h with h | h
  · rcases (Language.mem_add _ _ _).1 h with h | h
    · exact .inl (not_mem_of_over haddress h)
    · right
      obtain ⟨front, hfront, zone, hzone, rfl⟩ := Language.mem_mul.1 h
      obtain ⟨address, ha, escape, hescape, rfl⟩ := Language.mem_mul.1 hfront
      rw [mem_exactly] at hescape
      subst hescape
      refine ⟨address, zone, List.append_assoc _ _ _, not_mem_of_over haddress ha, ?_⟩
      rintro rfl
      obtain ⟨first, hfirst, rest, -, hnil⟩ := Language.mem_mul.1 hzone
      obtain ⟨rfl, rfl⟩ := List.append_eq_nil_iff.1 hnil
      rcases (Language.mem_add _ _ _).1 hfirst with ⟨c, -, hc⟩ | ⟨a, b, -, -, hab⟩
      · cases hc
      · cases hab
  · exact .inl (not_mem_of_over (over_ne_ipvFuture (by decide)) h)

/-- A text without an opening bracket, or whose first one opens an IP literal. -/
def Bracketed (s : List Char) : Prop :=
  '[' ∉ s ∨ ∃ a x b, s = a ++ '[' :: (x ++ ']' :: b) ∧ '[' ∉ a ∧ x ∈ ipLiteralText

theorem Bracketed.append_left {a : List Char} (ha : '[' ∉ a) (hs : Bracketed s) :
    Bracketed (a ++ s) := by
  rcases hs with hs | ⟨front, x, b, rfl, hfront, hx⟩
  · left
    rw [List.mem_append, not_or]
    exact ⟨ha, hs⟩
  · right
    refine ⟨a ++ front, x, b, (List.append_assoc _ _ _).symm, ?_, hx⟩
    rw [List.mem_append, not_or]
    exact ⟨ha, hfront⟩

theorem Bracketed.append_right {b : List Char} (hs : Bracketed s) (hb : '[' ∉ b) :
    Bracketed (s ++ b) := by
  rcases hs with hs | ⟨a, x, back, rfl, ha, hx⟩
  · left
    rw [List.mem_append, not_or]
    exact ⟨hs, hb⟩
  · exact .inr ⟨a, x, back ++ b, by simp, ha, hx⟩

theorem bracketed_of_mem_host (h : s ∈ host) : Bracketed s := by
  rcases (Language.mem_add _ _ _).1 h with h | h
  · rcases (Language.mem_add _ _ _).1 h with h | h
    · right
      obtain ⟨front, hfront, close, hclose, rfl⟩ := Language.mem_mul.1 h
      obtain ⟨opening, hopening, x, hx, rfl⟩ := Language.mem_mul.1 hfront
      rw [mem_exactly] at hopening hclose
      subst hopening hclose
      exact ⟨[], x, [], by simp, by simp, hx⟩
    · exact .inl (not_mem_of_over (over_ne_ipv4address (by decide) (by decide)) h)
  · left
    have hencodable : Over (· ≠ '[') (encodable fun c => unreserved c || subDelims c) :=
      over_ne_encodable (by decide) (by decide) (by decide)
    exact not_mem_of_over hencodable.kstar h

theorem over_ne_userinfo : Over (· ≠ '[') (1 + userinfo * exactly ['@']) := by
  have hencodable : Over (· ≠ '[') (encodable fun c => unreserved c || subDelims c || c = ':') :=
    over_ne_encodable (by decide) (by decide) (by decide)
  exact over_one.add (hencodable.kstar.mul (over_ne_exactly (by decide)))

theorem over_ne_scheme : Over (· ≠ '[') scheme := by
  have hfirst : Over (· ≠ '[') (letter alpha) := over_ne_letter (by decide)
  have hnext : Over (· ≠ '[')
      (letter fun c => alpha c || digit c || ['+', '-', '.'].contains c) :=
    over_ne_letter (by decide)
  exact hfirst.mul hnext.kstar

theorem bracketed_of_mem_authority (h : s ∈ authority) : Bracketed s := by
  have hport : Over (· ≠ '[') (1 + exactly [':'] * port) := by
    have hdigit : Over (· ≠ '[') (letter digit) := over_ne_letter (by decide)
    exact over_one.add ((over_ne_exactly (by decide)).mul hdigit.kstar)
  obtain ⟨front, hfront, suffix, hsuffix, rfl⟩ := Language.mem_mul.1 h
  obtain ⟨user, huser, t, ht, rfl⟩ := Language.mem_mul.1 hfront
  apply Bracketed.append_right _ (not_mem_of_over hport hsuffix)
  exact (bracketed_of_mem_host ht).append_left (not_mem_of_over over_ne_userinfo huser)

/-- **Brackets come only around an IP literal.** -/
theorem bracket_of_mem_absoluteUri (h : s ∈ absoluteUri) : Bracketed s := by
  have hsegment : Over (· ≠ '[') (encodable segmentChar) :=
    over_ne_encodable (by decide) (by decide) (by decide)
  have hslash : Over (· ≠ '[') (exactly ['/']) := over_ne_exactly (by decide)
  have habempty : Over (· ≠ '[') pathAbempty := (hslash.mul hsegment.kstar).kstar
  have hrootless : Over (· ≠ '[') pathRootless := (hsegment.mul hsegment.kstar).mul habempty
  have habsolute : Over (· ≠ '[') pathAbsolute := hslash.mul (over_one.add hrootless)
  have hscheme : Over (· ≠ '[') (scheme * exactly [':']) :=
    over_ne_scheme.mul (over_ne_exactly (by decide))
  have hquery : Over (· ≠ '[') (1 + exactly ['?'] * query) := by
    have hencodable : Over (· ≠ '[') (encodable fun c => segmentChar c || c = '/' || c = '?') :=
      over_ne_encodable (by decide) (by decide) (by decide)
    exact over_one.add ((over_ne_exactly (by decide)).mul hencodable.kstar)
  obtain ⟨front, hfront, q, hq, rfl⟩ := Language.mem_mul.1 h
  obtain ⟨sch, hsch, hier, hhier, rfl⟩ := Language.mem_mul.1 hfront
  apply Bracketed.append_right _ (not_mem_of_over hquery hq)
  apply Bracketed.append_left (not_mem_of_over hscheme hsch)
  rcases (Language.mem_add _ _ _).1 hhier with hhier | hempty
  · rcases (Language.mem_add _ _ _).1 hhier with hhier | hpath
    · rcases (Language.mem_add _ _ _).1 hhier with hhier | hpath
      · obtain ⟨net, hnet, path, hpath, rfl⟩ := Language.mem_mul.1 hhier
        obtain ⟨slashes, hslashes, auth, hauth, rfl⟩ := Language.mem_mul.1 hnet
        apply Bracketed.append_right _ (not_mem_of_over habempty hpath)
        apply (bracketed_of_mem_authority hauth).append_left
        exact not_mem_of_over (over_ne_exactly (by decide)) hslashes
      · exact .inl (not_mem_of_over habsolute hpath)
    · exact .inl (not_mem_of_over hrootless hpath)
  · exact .inl (not_mem_of_over over_one hempty)

end DecentRegistry.UriGrammar
