import DecentRegistry.Wire.IpLiteral

/-!
# Accepted provider URIs

A URI that `_validate_provider_uri` accepts is an absolute URI of the grammar, except in one place:
the check of a zone accepts an empty zone, and `ipaddress` reads a scope id after a percent sign
that does not begin `%25`. An accepted URI is therefore in the grammar if and only if the zone of
its IP literal, when there is one, is complete (`providerUri_grammatical`). -/

namespace DecentRegistry.ProviderUri

open Fallible PyValue Grammar Computability UriGrammar

variable {s t uri uri' : Text}

/-! ## Paths -/

/-- A text of path characters is a segment, and more of them behind slashes. -/
theorem exists_segments (h : Escaped s)
    (hs : ∀ c ∈ s, segmentChar c = true ∨ c = '/' ∨ c = '%') :
    ∃ first ∈ UriGrammar.segment, ∃ rest ∈ pathAbempty, s = first ++ rest := by
  induction h with
  | nil => exact ⟨[], Language.nil_mem_kstar _, [], Language.nil_mem_kstar _, rfl⟩
  | @plain c s hc _ ih =>
    obtain ⟨hchar, hs⟩ := List.forall_mem_cons.1 hs
    obtain ⟨first, hfirst, rest, hrest, rfl⟩ := ih hs
    rcases hchar with hchar | rfl | rfl
    · have hletter : [c] ∈ letter segmentChar := singleton_mem_letter hchar
      exact ⟨c :: first, append_mem_kstar (.inl hletter) hfirst, rest, hrest, rfl⟩
    · have hslash : '/' :: first ∈ exactly ['/'] * UriGrammar.segment := cons_mem_mul hfirst
      exact ⟨[], Language.nil_mem_kstar _, _, append_mem_kstar hslash hrest, rfl⟩
    · exact absurd rfl hc
  | @escape a b s ha hb _ ih =>
    obtain ⟨first, hfirst, rest, hrest, rfl⟩ := ih fun c hc => hs c (by simp [hc])
    have hescape : ['%', a, b] ∈ pctEncoded := ⟨a, b, ha, hb, rfl⟩
    exact ⟨'%' :: a :: b :: first, append_mem_kstar (.inr hescape) hfirst, rest, hrest, rfl⟩

theorem mem_pathAbempty (h : Escaped s)
    (hs : ∀ c ∈ s, segmentChar c = true ∨ c = '/' ∨ c = '%') (hslash : ∀ c ∈ s.head?, c = '/') :
    s ∈ pathAbempty := by
  cases s with
  | nil => exact Language.nil_mem_kstar _
  | cons c s =>
    obtain rfl : c = '/' := hslash c rfl
    obtain ⟨first, hfirst, rest, hrest, rfl⟩ :=
      exists_segments h.of_cons fun d hd => hs d (List.mem_cons_of_mem _ hd)
    have hslash : '/' :: first ∈ exactly ['/'] * UriGrammar.segment := cons_mem_mul hfirst
    exact append_mem_kstar hslash hrest

theorem mem_pathRootless {c : Char} (h : Escaped (c :: s))
    (hs : ∀ d ∈ c :: s, segmentChar d = true ∨ d = '/' ∨ d = '%') (hc : c ≠ '/') :
    c :: s ∈ pathRootless := by
  obtain ⟨first, hfirst, rest, hrest, heq⟩ := exists_segments h hs
  rw [heq]
  apply Language.append_mem_mul _ hrest
  apply mem_mul_kstar hfirst
  rintro rfl
  rw [List.nil_append] at heq
  obtain ⟨slashed, hslashed, _, -, hrest⟩ :=
    Language.mem_mul.1 (mem_mul_kstar hrest (by simp [← heq]))
  obtain ⟨_, rfl, _, -, rfl⟩ := Language.mem_mul.1 hslashed
  rw [← heq] at hrest
  exact hc (List.cons.inj hrest).1.symm

/-- Without an authority. -/
theorem mem_hierPart_of_path (h : Escaped s)
    (hs : ∀ c ∈ s, segmentChar c = true ∨ c = '/' ∨ c = '%') (hslashes : ¬['/', '/'] <+: s) :
    s ∈ hierPart := by
  rcases s with _ | ⟨c, s⟩
  · exact .inr rfl
  · by_cases hc : c = '/'
    · subst hc
      refine .inl (.inl (.inr (cons_mem_mul ?_)))
      cases s with
      | nil => exact .inl rfl
      | cons d s =>
        refine .inr (mem_pathRootless h.of_cons (fun e he => hs e (by simp [he])) ?_)
        rintro rfl
        exact hslashes ⟨s, rfl⟩
    · exact .inl (.inr (mem_pathRootless h hs hc))

/-! ## The authority -/

theorem mem_port (h : isPort s = true) : s ∈ port := by
  rw [isPort, Bool.and_eq_true, List.all_eq_true, isDigit_eq] at h
  exact mem_kstar_of_forall h.2

theorem mem_portSuffix (h : validatePortSuffix s = .ok ()) : s ∈ 1 + exactly [':'] * port := by
  rw [validatePortSuffix, raiseIf_eq_ok] at h
  cases s with
  | nil => exact .inl rfl
  | cons c s =>
    right
    simp only [List.isEmpty_cons, Bool.not_false, Bool.true_and, List.head?_cons, List.tail_cons,
      Bool.or_eq_true, decide_eq_true_eq, not_or, ne_eq, Option.some.injEq, not_not,
      Bool.and_eq_true, Bool.not_eq_true', not_and, Bool.not_eq_false] at h
    obtain ⟨rfl, hport⟩ := h
    apply cons_mem_mul
    cases s with
    | nil => exact Language.nil_mem_kstar _
    | cons d s => exact mem_port (hport rfl)

/-- A bracketed host with its port, around the literal. -/
theorem exists_literal {host : Text} (h : validateBracketedHost host = .ok ())
    (hbracket : host.head? = some '[') :
    ∃ literal suffix, host = '[' :: (literal ++ ']' :: suffix) ∧ ']' ∉ literal ∧
      validateIpLiteral literal = .ok () ∧ suffix ∈ 1 + exactly [':'] * port := by
  rw [validateBracketedHost] at h
  generalize hparts : partition [']'] host = parts at h
  obtain ⟨before, closed, suffix⟩ := parts
  simp only [bind_eq_ok, raiseIf_eq_ok, exists_const, Bool.not_eq_true', Bool.not_eq_false] at h
  obtain ⟨rfl, _, hliteral, hsuffix⟩ := h
  have htext : host = before ++ ']' :: suffix := append_of_partition hparts
  have hbefore : ']' ∉ before := not_mem_of_partition hparts
  cases before with
  | nil =>
    rw [htext] at hbracket
    simp at hbracket
  | cons c literal =>
    rw [htext, List.cons_append, List.head?_cons, Option.some.injEq] at hbracket
    subst hbracket
    rw [List.mem_cons, not_or] at hbefore
    exact ⟨literal, suffix, htext, hbefore.2, hliteral, mem_portSuffix hsuffix⟩

/-- A host without brackets with its port. -/
theorem mem_namedHost {hostPort host portText : Text} {separator : Bool} (h : Escaped hostPort)
    (hparts : partition [':'] hostPort = (host, separator, portText))
    (hhost : validUriComponent (fun c => uriUnreserved c || uriSubDelimiters c || c = '%') host =
      true)
    (hport : separator = true → portText = [] ∨ isPort portText = true) :
    hostPort ∈ UriGrammar.host * (1 + exactly [':'] * port) := by
  have hname : Escaped host → host ∈ UriGrammar.host := by
    intro hescaped
    refine .inr (mem_kstar_of_validUriComponent hescaped hhost ?_)
    intro c hc
    rw [uriUnreserved_eq, uriSubDelimiters_eq, Bool.or_eq_true, decide_eq_true_eq] at hc
    exact hc
  cases separator with
  | false =>
    obtain rfl := (of_partition_not_found hparts).1
    have hs : host ++ [] ∈ UriGrammar.host * (1 + exactly [':'] * port) :=
      Language.append_mem_mul (hname h) (.inl rfl)
    rwa [List.append_nil] at hs
  | true =>
    have htext : hostPort = host ++ ':' :: portText := append_of_partition hparts
    rw [htext] at h ⊢
    have hescaped : Escaped host := by
      apply h.of_append_left
      rintro c hc
      obtain rfl : ':' = c := by simpa using hc
      decide
    apply Language.append_mem_mul (hname hescaped)
    refine .inr (cons_mem_mul ?_)
    rcases hport rfl with rfl | hport
    · exact Language.nil_mem_kstar _
    · exact mem_port hport

/-- **An accepted authority is in the grammar** when the zone of its IP literal is complete. -/
theorem mem_authority (h : validateUriAuthority s = .ok ()) (hescaped : Escaped s)
    (hzone : ∀ a x b, s = a ++ '[' :: (x ++ ']' :: b) → '[' ∉ a → ']' ∉ x → ZoneComplete x) :
    s ∈ authority := by
  rw [validateUriAuthority] at h
  generalize hparts : rpartition '@' s = parts at h
  obtain ⟨user, separator, hostPort⟩ := parts
  obtain ⟨htext, -⟩ := append_of_rpartition hparts
  simp only [bind_eq_ok, raiseIf_eq_ok, exists_const] at h
  obtain ⟨-, huser, h⟩ := h
  have hfront : (if separator then user ++ ['@'] else []) ∈ 1 + userinfo * exactly ['@'] := by
    cases separator with
    | false => exact .inl rfl
    | true =>
      rw [htext, if_pos rfl, List.append_assoc] at hescaped
      have huserescaped : Escaped user := by
        apply hescaped.of_append_left
        rintro c hc
        obtain rfl : '@' = c := by simpa using hc
        decide
      refine .inr (Language.append_mem_mul ?_ rfl)
      apply mem_kstar_of_validUriComponent huserescaped (by simpa using huser)
      intro c hc
      rw [Bool.and_eq_true, uriPchar_eq, segmentChar] at hc
      simp only [Bool.or_eq_true, decide_eq_true_eq] at hc ⊢
      obtain ⟨hc, hat⟩ := hc
      rcases hc with (hc | rfl) | rfl
      · exact .inl hc
      · simp at hat
      · exact .inr rfl
  rw [authority, mul_assoc, htext]
  apply Language.append_mem_mul hfront
  have hhostescaped : Escaped hostPort := by
    rw [htext] at hescaped
    exact hescaped.of_append_right
  split at h
  · next hbracket =>
    obtain ⟨literal, suffix, rfl, hclose, hliteral, hsuffix⟩ := exists_literal h hbracket
    have hliteralEscaped : Escaped literal := by
      apply hhostescaped.of_cons.of_append_left
      rintro c hc
      obtain rfl : ']' = c := by simpa using hc
      decide
    have hcomplete : ZoneComplete literal :=
      hzone _ literal suffix htext (not_mem_of_over over_ne_userinfo hfront) hclose
    have hmem : literal ∈ ipLiteralText := mem_ipLiteralText hliteral hliteralEscaped hcomplete
    have hhost : ['['] ++ literal ++ [']'] ∈ UriGrammar.host :=
      .inl (.inl (Language.append_mem_mul (Language.append_mem_mul rfl hmem) rfl))
    have hs := Language.append_mem_mul hhost hsuffix
    simpa using hs
  · generalize hhostParts : partition [':'] hostPort = hostParts at h
    obtain ⟨hostText, portSeparator, portText⟩ := hostParts
    simp only [bind_eq_ok, raiseIf_eq_ok, exists_const] at h
    obtain ⟨-, hhost, hport⟩ := h
    apply mem_namedHost hhostescaped hhostParts (by simpa using hhost)
    rintro rfl
    simpa [imp_iff_not_or] using hport

/-! ## The URI -/

theorem mem_scheme (h : uriScheme (s ++ [':']) = true) : s ∈ scheme := by
  cases s with
  | nil => cases h
  | cons c s =>
    rw [List.cons_append, uriScheme, List.dropLast_concat, Bool.and_eq_true, Bool.and_eq_true,
      List.all_eq_true, isAlpha_eq, isDigit_eq] at h
    obtain ⟨⟨hc, -⟩, hs⟩ := h
    have hrest : s ∈ (letter fun c => alpha c || digit c || ['+', '-', '.'].contains c)∗ := by
      apply mem_kstar_of_forall
      intro d hd
      have hchar := hs d hd
      simp only [Bool.or_eq_true, List.contains_iff_mem, List.mem_cons, List.not_mem_nil,
        or_false] at hchar ⊢
      tauto
    exact Language.append_mem_mul (singleton_mem_letter hc) hrest

/-- The characters a path component allows. -/
theorem pathChar_of_allowed (h : validUriComponent (fun c => uriPchar c || c = '/') s = true) :
    ∀ c ∈ s, segmentChar c = true ∨ c = '/' ∨ c = '%' := by
  intro c hc
  rcases allowed_of_validUriComponent h hc with hallowed | rfl
  · rw [uriPchar_eq] at hallowed
    simp only [Bool.or_eq_true, decide_eq_true_eq] at hallowed
    tauto
  · exact .inr (.inr rfl)

theorem mem_query (h : Escaped s)
    (hs : validUriComponent (fun c => uriPchar c || c = '/' || c = '?') s = true) :
    s ∈ UriGrammar.query := by
  apply mem_kstar_of_validUriComponent h hs
  intro c hc
  rw [uriPchar_eq] at hc
  simp only [Bool.or_eq_true, decide_eq_true_eq] at hc ⊢
  tauto

/-- The text in the first pair of brackets of a URI. -/
def firstLiteral (uri : Text) : Text := (partition [']'] (partition ['['] uri).2.2).1

theorem firstLiteral_append {a x b : Text} (ha : '[' ∉ a) (hx : ']' ∉ x) :
    firstLiteral (a ++ '[' :: (x ++ ']' :: b)) = x := by
  have hopen : partition ['['] (a ++ '[' :: (x ++ ']' :: b)) = (a, true, x ++ ']' :: b) :=
    partition_append ha
  have hclose : partition [']'] (x ++ ']' :: b) = (x, true, b) := partition_append hx
  rw [firstLiteral, hopen, hclose]

/-- **In the grammar the zone of an IP literal is complete.** -/
theorem zoneComplete_of_mem_absoluteUri (h : uri ∈ absoluteUri) :
    ZoneComplete (firstLiteral uri) := by
  rcases bracket_of_mem_absoluteUri h with hnone | ⟨a, x, b, rfl, ha, hx⟩
  · have hnil : firstLiteral uri = [] := by
      rw [firstLiteral, partition_of_not_mem hnone]
      rfl
    rw [hnil]
    decide
  · rw [firstLiteral_append ha (not_mem_of_over over_ne_ipLiteralText hx)]
    exact zoneComplete_of_mem hx

/-- With an authority: it ends at the first slash. -/
theorem mem_hierPart_of_slashes (hescaped : Escaped s)
    (hauthority : validateUriAuthority (s.takeWhile (· ≠ '/')) = .ok ())
    (hpath : validUriComponent (fun c => uriPchar c || c = '/') (s.dropWhile (· ≠ '/')) = true)
    (hzone : ∀ a x b, s = a ++ '[' :: (x ++ ']' :: b) → '[' ∉ a → ']' ∉ x → ZoneComplete x) :
    '/' :: '/' :: s ∈ hierPart := by
  have hslash : ∀ c ∈ (s.dropWhile (· ≠ '/')).head?, c = '/' := by
    intro c hc
    have hstop := List.head?_dropWhile_not (· ≠ '/') s
    rw [hc] at hstop
    simpa using hstop
  have hs := List.takeWhile_append_dropWhile (p := (· ≠ '/')) (l := s)
  generalize s.takeWhile (· ≠ '/') = net at hs hauthority
  generalize s.dropWhile (· ≠ '/') = path at hs hpath hslash
  subst hs
  have hnet : Escaped net := by
    apply hescaped.of_append_left
    intro c hc
    rw [hslash c hc]
    decide
  have hmem : net ∈ authority := by
    apply mem_authority hauthority hnet
    rintro a x b rfl
    exact hzone a x (b ++ path) (by simp)
  have hpathMem : path ∈ pathAbempty :=
    mem_pathAbempty hescaped.of_append_right (pathChar_of_allowed hpath) hslash
  have hslashes : ['/', '/'] ++ net ∈ exactly ['/', '/'] * authority :=
    Language.append_mem_mul rfl hmem
  exact .inl (.inl (.inl (Language.append_mem_mul hslashes hpathMem)))

/-- **The hierarchical part of an accepted URI**: what the split makes of it. -/
theorem mem_hierPart {before rest hier queryText : Text} {colon found : Bool} {parsed : SplitUri}
    (hrest : partition ['?'] rest = (hier, found, queryText))
    (huri : partition [':'] uri = (before, colon, rest)) (hparsed : urlsplit uri = .ok parsed)
    (hauthority : ['/', '/'] <+: rest → validateUriAuthority parsed.netloc = .ok ())
    (hpath : validUriComponent (fun c => uriPchar c || c = '/') parsed.path = true)
    (hescaped : Escaped hier)
    (hzone : ∀ a x b, hier = a ++ '[' :: (x ++ ']' :: b) → '[' ∉ a → ']' ∉ x → ZoneComplete x) :
    hier ∈ hierPart := by
  simp only [urlsplit, huri, hrest, bind_eq_ok, raiseIf_eq_ok, exists_const, pure_eq_ok] at hparsed
  obtain ⟨-, rfl⟩ := hparsed
  by_cases hslashes : ['/', '/'] <+: rest
  · have hnet := hauthority hslashes
    simp only [List.isPrefixOf_iff_prefix.2 hslashes, if_true] at hnet hpath
    obtain ⟨rest, rfl⟩ := hslashes
    obtain ⟨tail, rfl⟩ : ∃ tail, hier = '/' :: '/' :: tail := by
      have hcut : partition ['?'] ('/' :: '/' :: rest) = _ := hrest
      simp only [partition] at hcut
      exact ⟨_, (congrArg Prod.fst hcut).symm⟩
    apply mem_hierPart_of_slashes hescaped.of_cons.of_cons hnet hpath
    rintro a x b rfl ha
    apply hzone ('/' :: '/' :: a) x b rfl
    simpa using ha
  · have hprefix : ¬['/', '/'].isPrefixOf rest = true := by
      rwa [List.isPrefixOf_iff_prefix]
    simp only [if_neg hprefix] at hpath
    apply mem_hierPart_of_path hescaped (pathChar_of_allowed hpath)
    intro hhier
    apply hslashes
    cases found with
    | false =>
      rw [← (of_partition_not_found hrest).1]
      exact hhier
    | true =>
      rw [append_of_partition hrest]
      exact hhier.trans (List.prefix_append _ _)

/-- What the checks on the split URI let through. -/
theorem of_validateSplitUri {before : Text} (h : validateSplitUri uri before = .ok ()) :
    ∃ parsed, urlsplit uri = .ok parsed ∧
      (['/', '/'].isPrefixOf (uri.drop before.length) = true →
        validateUriAuthority parsed.netloc = .ok ()) ∧
      validUriComponent (fun c => uriPchar c || c = '/') parsed.path = true ∧
      validUriComponent (fun c => uriPchar c || c = '/' || c = '?') parsed.query = true := by
  simp only [validateSplitUri, bind_eq_ok] at h
  obtain ⟨parsed, hparsed, h⟩ := h
  refine ⟨parsed, hparsed, ?_, ?_⟩
  · intro hslashes
    simp only [if_pos hslashes, bind_eq_ok] at h
    obtain ⟨_, hauthority, -⟩ := h
    exact hauthority
  -- whichever host check runs, the same checks come after it
  · split at h
    all_goals
      obtain ⟨_, -, h⟩ := bind_eq_ok.1 h
      split at h
      · simp only [bind_eq_ok, raiseIf_eq_ok, exists_const, Bool.not_eq_true',
          Bool.not_eq_false] at h
        obtain ⟨_, -, -, -, hcomponents⟩ := h
        exact hcomponents
      · split at h
        · simp only [bind_eq_ok, raiseIf_eq_ok, exists_const, Bool.not_eq_true',
            Bool.not_eq_false] at h
          exact h.2.2.2
        · simp only [bind_eq_ok, raiseIf_eq_ok, exists_const, Bool.not_eq_true',
            Bool.not_eq_false] at h
          exact h.2.2

/-- What follows the hierarchical part is nothing, or a question mark and a query. -/
theorem exists_suffix {rest hier queryText : Text} {found : Bool}
    (hrest : partition ['?'] rest = (hier, found, queryText)) (hescaped : Escaped rest)
    (hquery :
      validUriComponent (fun c => uriPchar c || c = '/' || c = '?') queryText = true) :
    ∃ suffix, rest = hier ++ suffix ∧ suffix ∈ 1 + exactly ['?'] * query ∧
      ∀ c ∈ suffix.head?, c = '?' := by
  cases found with
  | false =>
    obtain ⟨rfl, -⟩ := of_partition_not_found hrest
    exact ⟨[], by simp, .inl rfl, by simp⟩
  | true =>
    have hcut : rest = hier ++ '?' :: queryText := append_of_partition hrest
    rw [hcut] at hescaped
    have hmem : queryText ∈ query := mem_query hescaped.of_append_right.of_cons hquery
    exact ⟨'?' :: queryText, hcut, .inr (cons_mem_mul hmem), by simp⟩

/-- **An accepted URI whose IP literal has a complete zone is in the grammar.** -/
theorem mem_absoluteUri (h : validateProviderUri uri = .ok uri')
    (hzone : ZoneComplete (firstLiteral uri)) : uri ∈ absoluteUri := by
  rw [validateProviderUri] at h
  generalize huri : partition [':'] uri = parts at h
  obtain ⟨before, colon, rest⟩ := parts
  simp only [bind_eq_ok, raiseIf_eq_ok, exists_const] at h
  obtain ⟨-, -, -, hscheme, -, hbad, -, h⟩ := h
  simp only [Bool.or_eq_true, Bool.not_eq_true', not_or, Bool.not_eq_false,
    Bool.not_eq_true] at hscheme hbad
  obtain ⟨rfl, hscheme⟩ := hscheme
  have htext : uri = before ++ [':'] ++ rest := by
    rw [append_of_partition huri, List.append_assoc]
  have hbefore : before ++ [':'] ∈ scheme * exactly [':'] :=
    Language.append_mem_mul (mem_scheme hscheme) rfl
  split at h
  · next heq =>
    have hempty : ([] : Text) ∈ hierPart * (1 + exactly ['?'] * query) :=
      Language.mem_mul.2 ⟨[], .inr rfl, [], .inl rfl, rfl⟩
    have hs := Language.append_mem_mul hbefore hempty
    rw [List.append_nil] at hs
    rwa [heq, absoluteUri, mul_assoc _ hierPart]
  · simp only [bind_eq_ok, rewrap_eq_ok] at h
    obtain ⟨_, hsplit, -⟩ := h
    obtain ⟨parsed, hparsed, hauthority, hpath, hquery⟩ := of_validateSplitUri hsplit
    have hdrop : uri.drop (before ++ [':']).length = rest := by
      rw [htext, List.drop_left]
    rw [hdrop, List.isPrefixOf_iff_prefix] at hauthority
    generalize hrest : partition ['?'] rest = parts
    obtain ⟨hier, found, queryText⟩ := parts
    have hqueryText : parsed.query = queryText := by
      simp only [urlsplit, huri, hrest, bind_eq_ok, raiseIf_eq_ok, exists_const,
        pure_eq_ok] at hparsed
      rw [← hparsed.2]
    rw [hqueryText] at hquery
    have hescaped : Escaped rest := by
      have huriEscaped := escaped_of_badPercentEscape hbad
      rw [htext] at huriEscaped
      exact huriEscaped.of_append_right
    -- what follows the hierarchical part
    obtain ⟨suffix, hsuffix, hsuffixMem, hquestion⟩ := exists_suffix hrest hescaped hquery
    have hhier : Escaped hier := by
      rw [hsuffix] at hescaped
      apply hescaped.of_append_left
      intro c hc
      rw [hquestion c hc]
      decide
    have hmem : hier ∈ hierPart := by
      apply mem_hierPart hrest huri hparsed hauthority hpath hhier
      rintro a x b rfl ha hx
      have hfront : '[' ∉ before ++ [':'] ++ a := by
        have hcolon := not_mem_of_over (over_ne_scheme.mul (over_ne_exactly (by decide))) hbefore
        rw [List.mem_append, not_or]
        exact ⟨hcolon, ha⟩
      have hliteral : uri = before ++ [':'] ++ a ++ '[' :: (x ++ ']' :: (b ++ suffix)) := by
        rw [htext, hsuffix]
        simp
      rw [hliteral, firstLiteral_append hfront hx] at hzone
      exact hzone
    rw [htext, hsuffix, absoluteUri, mul_assoc _ hierPart]
    exact Language.append_mem_mul hbefore (Language.append_mem_mul hmem hsuffixMem)

/-- **Exactly the accepted URIs whose IP literal, if any, has a complete zone are grammatical.** -/
theorem providerUri_grammatical (h : validateProviderUri uri = .ok uri') :
    uri ∈ absoluteUri ↔ ZoneComplete (firstLiteral uri) :=
  ⟨zoneComplete_of_mem_absoluteUri, mem_absoluteUri h⟩

/-- An IPv6 address with a zone. -/
theorem zonedUri_grammatical : "http://[fe80::1%25eth0]:8080/r?v=1".toList ∈ absoluteUri := by
  have haccepted : validateProviderUri "http://[fe80::1%25eth0]:8080/r?v=1".toList =
      .ok "http://[fe80::1%25eth0]:8080/r?v=1".toList := by decide +kernel
  exact (providerUri_grammatical haccepted).2 (by decide +kernel)

/-- An empty zone is accepted, and is not in the grammar. -/
theorem emptyZone_accepted :
    validateProviderUri "http://[fe80::1%25]/".toList = .ok "http://[fe80::1%25]/".toList ∧
      "http://[fe80::1%25]/".toList ∉ absoluteUri := by
  refine ⟨by decide +kernel, ?_⟩
  intro h
  have hzone := zoneComplete_of_mem_absoluteUri h
  revert hzone
  decide +kernel

end DecentRegistry.ProviderUri
