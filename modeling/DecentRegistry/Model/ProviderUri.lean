import DecentRegistry.Model.Runtime

/-!
# Provider URI locators

`_validate_provider_uri` of `provider_schema.py`, with the standard-library functions it calls:
`urllib.parse.urlsplit`, which splits as RFC 3986 Appendix B and rejects an authority with an
unmatched bracket, and `ipaddress.IPv6Address`. The result of the check is the URI itself.
-/

namespace DecentRegistry.ProviderUri

open Fallible PyValue

/-! ## Text operations -/

/-- `s.partition(sep)`, for a non-empty `sep`: the text before the first `sep`, whether there is
one, and the text after it. -/
def partition (sep : Text) : Text → Text × Bool × Text
  | [] => ([], false, [])
  | c :: s =>
    if sep.isPrefixOf (c :: s) then ([], true, (c :: s).drop sep.length)
    else
      let (before, found, after) := partition sep s
      (c :: before, found, after)

/-- `s.rpartition(c)` for one character: the text before the last `c`, whether there is one, and
the text after it; without a `c` the text before it is empty. -/
def rpartition (c : Char) (s : Text) : Text × Bool × Text :=
  let (after, found, before) := partition [c] s.reverse
  if found then (before.reverse, true, after.reverse) else ([], false, s)

/-- `s.split(c)` for one character. -/
def splitOn (c : Char) : Text → List Text
  | [] => [[]]
  | d :: s =>
    match splitOn c s with
    | [] => [[d]]
    | part :: parts => if d = c then [] :: part :: parts else (d :: part) :: parts

/-- `c.lower()` for ASCII. -/
def toLower (c : Char) : Char := if 'A' ≤ c ∧ c ≤ 'Z' then Char.ofNat (c.toNat + 32) else c

def isAlpha (c : Char) : Bool := ('a' ≤ c ∧ c ≤ 'z') ∨ ('A' ≤ c ∧ c ≤ 'Z')

def isDigit (c : Char) : Bool := '0' ≤ c ∧ c ≤ '9'

/-! ## Character sets -/

/-- `_URI_UNRESERVED`. -/
def uriUnreserved (c : Char) : Bool := isAlpha c || isDigit c || ['-', '.', '_', '~'].contains c

/-- `_URI_SUB_DELIMITERS`. -/
def uriSubDelimiters (c : Char) : Bool :=
  ['!', '$', '&', Char.ofNat 39, '(', ')', '*', '+', ',', ';', '='].contains c

/-- `_URI_PCHAR`. -/
def uriPchar (c : Char) : Bool :=
  uriUnreserved c || uriSubDelimiters c || [':', '@', '%'].contains c

/-- `_URI_ALLOWED`. -/
def uriAllowed (c : Char) : Bool := uriPchar c || ['/', '?', '#', '[', ']'].contains c

/-- `_AUTHORITY_SCHEMES`. -/
def authoritySchemes : List Text :=
  [['h', 't', 't', 'p'], ['h', 't', 't', 'p', 's'], ['f', 't', 'p'], ['w', 's'], ['w', 's', 's']]

/-- `_PORT_RE.fullmatch(s)`. -/
def isPort (s : Text) : Bool := !s.isEmpty && s.all isDigit

/-- The text starts with two hexadecimal digits. -/
def escapeFollows : Text → Bool
  | c :: d :: _ => isHexDigit c && isHexDigit d
  | _ => false

/-- `_BAD_PERCENT_ESCAPE_RE.search(s)`. -/
def badPercentEscape : Text → Bool
  | [] => false
  | c :: s => (c = '%' && !escapeFollows s) || badPercentEscape s

/-- `_valid_uri_component`. -/
def validUriComponent (allowed : Char → Bool) : Text → Bool
  | [] => true
  | c :: s => (allowed c || (c = '%' && escapeFollows s)) && validUriComponent allowed s

/-- `_URI_SCHEME_RE.fullmatch(s)`. -/
def uriScheme (s : Text) : Bool :=
  match s with
  | [] => false
  | c :: rest =>
    isAlpha c && rest.getLast? = some ':' &&
      rest.dropLast.all fun d => isAlpha d || isDigit d || ['+', '.', '-'].contains d

/-- The IPvFuture pattern `[Vv][0-9A-Fa-f]+\.[A-Za-z0-9._~!$&'()*+,;=:-]+`. -/
def ipvFuture (literal : Text) : Bool :=
  match literal with
  | [] => false
  | v :: rest =>
    let (version, dot, address) := partition ['.'] rest
    (v = 'v' || v = 'V') && !version.isEmpty && version.all isHexDigit && dot &&
      !address.isEmpty && address.all fun c => uriUnreserved c || uriSubDelimiters c || c = ':'

/-! ## `ipaddress` -/

/-- One octet of a dotted address: at most three digits, no leading zero, at most 255. -/
def ipv4Octet (s : Text) : Bool :=
  !s.isEmpty && s.all isDigit && s.length ≤ 3 && (s = ['0'] || s.head? ≠ some '0') &&
    s.foldl (fun n c => 10 * n + (c.toNat - '0'.toNat)) 0 ≤ 255

/-- One 16-bit group of an IPv6 address. -/
def hextet (s : Text) : Bool := !s.isEmpty && s.all isHexDigit && s.length ≤ 4

/-- The groups of an IPv6 address, a trailing dotted address standing for two of them. -/
def ipv6Groups (s : Text) : Option (List Text) :=
  let parts := splitOn ':' s
  match parts.getLast? with
  | none => none
  | some last =>
    if last.contains '.' then
      let octets := splitOn '.' last
      if octets.length = 4 ∧ octets.all ipv4Octet then some (parts.dropLast ++ [['0'], ['0']])
      else none
    else some parts

/-- The groups spell an address, at most one `::` standing for the missing ones. -/
def ipv6GroupsValid (parts : List Text) : Bool :=
  let interior := parts.tail.dropLast
  match interior.findIdx? (·.isEmpty) with
  | none => parts.length = 8 && parts.all hextet
  | some i =>
    let hi := parts.take (i + 1)
    let lo := parts.drop (i + 2)
    let hi := if hi.head? = some [] then hi.tail else hi
    let lo := if lo.getLast? = some [] then lo.dropLast else lo
    (interior.filter (·.isEmpty)).length = 1 &&
      (parts.head? ≠ some [] || hi.isEmpty) && (parts.getLast? ≠ some [] || lo.isEmpty) &&
      hi.length + lo.length ≤ 7 && hi.all hextet && lo.all hextet

/-- `ipaddress.IPv6Address(s)` succeeds: an address, optionally followed by `%` and a scope id. -/
def ipv6Address (s : Text) : Bool :=
  let (address, separator, scope) := partition ['%'] s
  (!separator || (!scope.isEmpty && !scope.contains '%')) && !address.contains '/' &&
    3 ≤ (splitOn ':' address).length && (splitOn ':' address).length ≤ 9 &&
    match ipv6Groups address with
    | none => false
    | some parts => parts.length ≤ 9 && ipv6GroupsValid parts

/-! ## `urlsplit` -/

structure SplitUri where
  scheme : Text
  netloc : Text
  path : Text
  query : Text

/-- `urlsplit(uri)` for a URI without a fragment whose scheme has been matched. -/
def urlsplit (uri : Text) : Py SplitUri := do
  let (scheme, _, rest) := partition [':'] uri
  let (hier, _, query) := partition ['?'] rest
  let (netloc, path) :=
    if ['/', '/'].isPrefixOf rest then
      let tail := hier.drop 2
      (tail.takeWhile (· ≠ '/'), tail.dropWhile (· ≠ '/'))
    else ([], hier)
  raiseIf (netloc.contains '[' ≠ netloc.contains ']') (valueError "Invalid IPv6 URL")
  return { scheme := scheme.map toLower, netloc, path, query }

/-! ## The check -/

/-- The content of the brackets of an IP literal. -/
def validateIpLiteral (literal : Text) : Py Unit := do
  if (literal.take 1).map toLower = ['v'] then
    raiseIf (!ipvFuture literal) (valueError "provider URI contains an invalid IP literal")
  else
    let (ipv6Literal, zoneSeparator, zone) := partition ['%', '2', '5'] literal
    raiseIf (!ipv6Address ipv6Literal) (valueError "not an IPv6 address")
    raiseIf (zoneSeparator && !validUriComponent (fun c => uriUnreserved c || c = '%') zone)
      (valueError "provider URI contains an invalid IPv6 zone")

/-- What follows the bracketed literal: nothing, or a colon and an optional port. -/
def validatePortSuffix (suffix : Text) : Py Unit :=
  raiseIf (!suffix.isEmpty &&
    (suffix.head? ≠ some ':' || (!suffix.tail.isEmpty && !isPort suffix.tail)))
    (valueError "provider URI contains an invalid port")

/-- A bracketed host and what follows it. -/
def validateBracketedHost (hostPort : Text) : Py Unit := do
  let (before, closed, suffix) := partition [']'] hostPort
  raiseIf (!closed) (valueError "provider URI contains an invalid IP literal")
  validateIpLiteral before.tail
  validatePortSuffix suffix

/-- `_validate_uri_authority`. -/
def validateUriAuthority (authority : Text) : Py Unit := do
  raiseIf (1 < authority.count '@') (valueError "provider URI contains an invalid authority")
  let (userinfo, separator, hostPort) := rpartition '@' authority
  -- "@", "/", "?" and "#" are taken out of pchar
  raiseIf (separator && !validUriComponent (fun c => uriPchar c && c ≠ '@') userinfo)
    (valueError "provider URI contains an invalid userinfo")
  if hostPort.head? = some '[' then validateBracketedHost hostPort
  else
    raiseIf (hostPort.contains '[' || hostPort.contains ']' || 1 < hostPort.count ':')
      (valueError "provider URI contains an invalid authority")
    let (host, separator, port) := partition [':'] hostPort
    raiseIf (!validUriComponent (fun c => uriUnreserved c || uriSubDelimiters c || c = '%') host)
      (valueError "provider URI contains an invalid registered name")
    raiseIf (separator && !port.isEmpty && !isPort port)
      (valueError "provider URI contains an invalid port")

/-- The part of `_validate_provider_uri` that reads the split URI. -/
def validateSplitUri (uri scheme : Text) : Py Unit := do
  let parsed ← urlsplit uri
  let remainder := uri.drop scheme.length
  if ['/', '/'].isPrefixOf remainder then validateUriAuthority parsed.netloc
  else
    raiseIf (authoritySchemes.contains parsed.scheme && remainder.isEmpty)
      (valueError "provider URI requires an authority")
  -- the authority's host is checked a second time
  let (_, _, authorityTail) := rpartition '@' parsed.netloc
  if authorityTail.head? = some '[' then validateBracketedHost authorityTail
  else if authorityTail.contains ':' then
    let (_, _, authorityPort) := rpartition ':' authorityTail
    raiseIf (!authorityPort.isEmpty && !isPort authorityPort)
      (valueError "provider URI contains an invalid port")
  raiseIf (authoritySchemes.contains parsed.scheme && !parsed.netloc.isEmpty &&
      parsed.path.contains '[')
    (valueError "provider URI contains brackets outside an IP literal")
  raiseIf (authoritySchemes.contains parsed.scheme && !parsed.netloc.isEmpty &&
      !parsed.path.isEmpty && parsed.path.head? ≠ some '/')
    (valueError "provider URI authority path must begin with a slash")
  raiseIf (!validUriComponent (fun c => uriPchar c || c = '/') parsed.path)
    (valueError "provider URI contains invalid path characters")
  raiseIf (!validUriComponent (fun c => uriPchar c || c = '/' || c = '?') parsed.query)
    (valueError "provider URI contains invalid query characters")

/-- `_validate_provider_uri`. -/
def validateProviderUri (uri : Text) : Py Text := do
  raiseIf (uri.isEmpty) (valueError "provider URL must be non-empty")
  raiseIf (uri.any fun c => c.toNat < 0x21 || 0x7E < c.toNat)
    (valueError "provider URL must contain only visible ASCII characters")
  raiseIf (2048 < (utf8 uri).length) (valueError "provider URL max 2048 bytes")
  let (before, colon, _) := partition [':'] uri
  let scheme := before ++ [':']
  raiseIf (!colon || !uriScheme scheme)
    (valueError "provider URL must be an absolute URI with a scheme")
  raiseIf (uri.any fun c => !uriAllowed c)
    (valueError "provider URL contains characters not allowed in a URI")
  raiseIf (badPercentEscape uri) (valueError "provider URL contains an invalid percent escape")
  raiseIf (uri.contains '#') (valueError "provider URL must not contain a fragment")
  if uri = scheme then return uri
  rewrap (validateSplitUri uri scheme) (valueError "provider URL is not a valid absolute URI")
  return uri

end DecentRegistry.ProviderUri
