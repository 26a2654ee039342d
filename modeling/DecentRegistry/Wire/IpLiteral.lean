import DecentRegistry.Wire.UriText

/-!
# IP literals

What the address checks accept is in the grammar: the octets and the groups of `ipaddress`, with the
one `"::"` that stands for missing groups, are the productions `ipv4address` and `ipv6address`, and
the pattern of a later version is `ipvFuture`. The groups of an address are related to its text by
`Spells`, which the split of the source constructs and the productions are read off.
-/

namespace DecentRegistry.ProviderUri

open Fallible PyValue Grammar Computability UriGrammar

variable {s t : Text} {c : Char} {groups front back : List Text} {n : ℕ}

/-! ## Dotted addresses -/

theorem eq_of_toNat {d : Char} (h : c.toNat = d.toNat) : c = d := by
  rw [← Char.ofNat_toNat c, h, Char.ofNat_toNat]

theorem between_of_toNat {lo hi : Char} (hlo : lo.toNat ≤ c.toNat) (hhi : c.toNat ≤ hi.toNat) :
    between lo hi c = true := by
  rw [between, Bool.and_eq_true, decide_eq_true_eq, decide_eq_true_eq]
  exact ⟨hlo, hhi⟩

/-- An octet, by the number of its digits. -/
theorem mem_decOctet (h : ipv4Octet s = true) : s ∈ decOctet := by
  simp only [ipv4Octet, isDigit_eq, Bool.and_eq_true, List.all_eq_true, decide_eq_true_eq,
    Bool.or_eq_true] at h
  obtain ⟨⟨⟨⟨hne, hdigits⟩, hlength⟩, hzero⟩, hvalue⟩ := h
  have hrange : ∀ c ∈ s, 48 ≤ c.toNat ∧ c.toNat ≤ 57 := by
    intro c hc
    have hdigit : between '0' '9' c = true := hdigits c hc
    simpa [between] using hdigit
  have hfirst : ∀ a b t, s = a :: b :: t → 49 ≤ a.toNat := by
    rintro a b t rfl
    have ha := hrange a (by simp)
    have hne : a.toNat ≠ 48 := by
      intro h48
      have : a = '0' := eq_of_toNat h48
      simp [this] at hzero
    omega
  rcases s with _ | ⟨a, _ | ⟨b, _ | ⟨c, _ | ⟨d, s⟩⟩⟩⟩
  · simp at hne
  · exact .inl (.inl (.inl (.inl ⟨a, hdigits a (by simp), rfl⟩)))
  · have ha : between '1' '9' a = true :=
      between_of_toNat (hfirst a b [] rfl) (hrange a (by simp)).2
    exact .inl (.inl (.inl (.inr ⟨[a], ⟨a, ha, rfl⟩, [b], ⟨b, hdigits b (by simp), rfl⟩, rfl⟩)))
  · have ha := hfirst a b [c] rfl
    have hb := hrange b (by simp)
    have hc := hrange c (by simp)
    have hsum : 10 * (10 * (a.toNat - 48) + (b.toNat - 48)) + (c.toNat - 48) ≤ 255 := by
      simpa using hvalue
    have hcletter : [c] ∈ letter digit := ⟨c, hdigits c (by simp), rfl⟩
    by_cases hone : a.toNat = 49
    · obtain rfl : a = '1' := eq_of_toNat hone
      have hbletter : [b] ∈ letter digit := ⟨b, hdigits b (by simp), rfl⟩
      exact .inl (.inl (.inr ⟨['1'], rfl, [b, c], ⟨[b], hbletter, [c], hcletter, rfl⟩, rfl⟩))
    · obtain rfl : a = '2' := eq_of_toNat (show a.toNat = 50 by omega)
      have htwo : 10 * (10 * 2 + (b.toNat - 48)) + (c.toNat - 48) ≤ 255 := hsum
      by_cases hfour : b.toNat ≤ 52
      · have hbletter : [b] ∈ letter (between '0' '4') := ⟨b, between_of_toNat hb.1 hfour, rfl⟩
        exact .inl (.inr ⟨['2'], rfl, [b, c], ⟨[b], hbletter, [c], hcletter, rfl⟩, rfl⟩)
      · obtain rfl : b = '5' := eq_of_toNat (show b.toNat = 53 by omega)
        have hfive : c.toNat ≤ 53 := by
          have h250 : 10 * (10 * 2 + 5) + (c.toNat - 48) ≤ 255 := htwo
          omega
        exact .inr ⟨['2', '5'], rfl, [c], ⟨c, between_of_toNat hc.1 hfive, rfl⟩, rfl⟩
  · rw [List.length_cons, List.length_cons, List.length_cons, List.length_cons] at hlength
    omega

theorem mem_ipv4address (hlength : (splitOn '.' s).length = 4)
    (hoctets : (splitOn '.' s).all ipv4Octet = true) : s ∈ ipv4address := by
  rw [List.all_eq_true] at hoctets
  obtain ⟨a, b, c, d, hparts⟩ := List.length_eq_four.1 hlength
  have hs : s = [a, b, c].flatMap (· ++ ['.']) ++ d := append_of_splitOn hparts
  rw [hparts] at hoctets
  have hmem : ∀ x ∈ [a, b, c, d], x ∈ decOctet := fun x hx => mem_decOctet (hoctets x hx)
  have hdot : ['.'] ∈ exactly ['.'] := rfl
  have htext : s = a ++ ['.'] ++ b ++ ['.'] ++ c ++ ['.'] ++ d := by
    rw [hs]
    simp
  rw [htext]
  apply Language.append_mem_mul _ (hmem d (by simp))
  apply Language.append_mem_mul _ hdot
  apply Language.append_mem_mul _ (hmem c (by simp))
  apply Language.append_mem_mul _ hdot
  apply Language.append_mem_mul _ (hmem b (by simp))
  exact Language.append_mem_mul (hmem a (by simp)) hdot

/-! ## Groups -/

theorem mem_h16 (h : hextet s = true) : s ∈ h16 := by
  simp only [hextet, isHexDigit_eq, Bool.and_eq_true, List.all_eq_true, decide_eq_true_eq] at h
  obtain ⟨⟨hne, hdigits⟩, hlength⟩ := h
  refine ⟨?_, hlength, hdigits⟩
  cases s with
  | nil => simp at hne
  | cons c s => simp

/-- The groups a text spells: one, the two zero groups a dotted address stands for, or a group, a
colon and more of them. -/
inductive Spells : List Text → Text → Prop
  | one (g : Text) : Spells [g] g
  | dotted {s : Text} (hs : s ∈ ipv4address) : Spells [['0'], ['0']] s
  | cons (g : Text) {groups : List Text} {s : Text} (h : Spells groups s) :
      Spells (g :: groups) (g ++ ':' :: s)

theorem Spells.append (h : Spells groups s) :
    Spells (front ++ groups) (front.flatMap (· ++ [':']) ++ s) := by
  induction front with
  | nil => exact h
  | cons g front ih =>
    have hcons := Spells.cons g ih
    simpa using hcons

/-- The groups of the source spell the address. -/
theorem spells_of_ipv6Groups (h : ipv6Groups s = some groups) : Spells groups s := by
  obtain ⟨parts, last, hsplit⟩ : ∃ parts last, splitOn ':' s = parts ++ [last] :=
    ⟨_, _, (List.dropLast_append_getLast splitOn_ne_nil).symm⟩
  have hs : s = parts.flatMap (· ++ [':']) ++ last := append_of_splitOn hsplit
  simp only [ipv6Groups, hsplit, List.getLast?_concat, List.dropLast_concat] at h
  rw [hs]
  split at h
  · split at h
    · next hoctets =>
      cases h
      exact (Spells.dotted (mem_ipv4address hoctets.1 hoctets.2)).append
    · cases h
  · cases h
    exact (Spells.one last).append

/-- The text behind an empty group. -/
theorem Spells.split (h : Spells (front ++ [] :: back) s) (hback : back ≠ []) :
    ∃ t, Spells back t ∧ s = front.flatMap (· ++ [':']) ++ ':' :: t := by
  generalize hgroups : front ++ [] :: back = groups at h
  induction h generalizing front with
  | one g =>
    have hlength := congrArg List.length hgroups
    have hpos := List.length_pos_iff.2 hback
    simp at hlength
    omega
  | dotted hs =>
    have hmem : [] ∈ front ++ [] :: back := by simp
    rw [hgroups] at hmem
    simp at hmem
  | cons g h ih =>
    cases front with
    | nil =>
      obtain ⟨rfl, rfl⟩ := List.cons.inj hgroups
      exact ⟨_, h, rfl⟩
    | cons g' front =>
      rw [List.cons_append, List.cons.injEq] at hgroups
      obtain ⟨rfl, hgroups⟩ := hgroups
      obtain ⟨t, ht, rfl⟩ := ih hgroups
      exact ⟨t, ht, by simp⟩

theorem Spells.eq_of_one {g : Text} (h : Spells [g] s) : s = g := by
  cases h with
  | one => rfl
  | cons _ h => cases h

/-- The last two groups are the last 32 bits. -/
theorem Spells.mem_pow (h : Spells groups s) (hall : ∀ g ∈ groups, hextet g = true)
    (hlength : groups.length = n + 2) : s ∈ group ^ n * ls32 := by
  induction h generalizing n with
  | one g => simp at hlength
  | dotted hs =>
    obtain rfl : n = 0 := by simpa using hlength.symm
    rw [pow_zero, one_mul]
    exact .inr hs
  | @cons g groups s h ih =>
    obtain ⟨hg, hall⟩ := List.forall_mem_cons.1 hall
    have hgroup : g ++ [':'] ∈ group := Language.append_mem_mul (mem_h16 hg) rfl
    have htext : g ++ ':' :: s = g ++ [':'] ++ s := by simp
    rw [htext]
    cases n with
    | zero =>
      obtain ⟨g', rfl⟩ := List.length_eq_one_iff.1 (show groups.length = 1 by simpa using hlength)
      rw [h.eq_of_one, pow_zero, one_mul]
      have hlast : g' ∈ h16 := mem_h16 (hall g' (by simp))
      exact .inl (Language.append_mem_mul hgroup hlast)
    | succ n =>
      rw [pow_succ', mul_assoc]
      exact Language.append_mem_mul hgroup (ih hall (by simpa using hlength))

theorem flatMap_mem_pow (h : ∀ g ∈ front, hextet g = true) :
    front.flatMap (· ++ [':']) ∈ group ^ front.length := by
  induction front with
  | nil => exact (Language.mem_one _).2 rfl
  | cons g front ih =>
    obtain ⟨hg, hfront⟩ := List.forall_mem_cons.1 h
    have hgroup : g ++ [':'] ∈ group := Language.append_mem_mul (mem_h16 hg) rfl
    rw [List.flatMap_cons, List.length_cons, pow_succ']
    exact Language.append_mem_mul hgroup (ih hfront)

/-! ## The compressed address -/

/-- The groups before the `"::"`: an empty first part stands for none. -/
theorem exists_groupsBefore {hi : List Text}
    (hhi : hi = if front.head? = some [] then front.tail else front) (hfront : front ≠ [])
    (hempty : front.head? = some [] → hi = []) (hall : ∀ g ∈ hi, hextet g = true)
    (hlength : hi.length ≤ n) :
    ∃ t ∈ groupsBefore n, front.flatMap (· ++ [':']) = t ++ [':'] := by
  by_cases hnone : front.head? = some []
  · obtain ⟨g, front, rfl⟩ := List.exists_cons_of_ne_nil hfront
    rw [if_pos hnone, hempty hnone] at hhi
    obtain rfl : g = [] := by simpa using hnone
    obtain rfl : front = [] := hhi.symm
    refine ⟨[], ?_, rfl⟩
    cases n with
    | zero => exact (Language.mem_one _).2 rfl
    | succ n => exact .inl rfl
  · rw [if_neg hnone] at hhi
    subst hhi
    obtain ⟨groups, g, rfl⟩ : ∃ groups g, hi = groups ++ [g] :=
      ⟨_, _, (List.dropLast_append_getLast hfront).symm⟩
    refine ⟨groups.flatMap (· ++ [':']) ++ g, ?_, by simp⟩
    rw [List.length_append, List.length_singleton] at hlength
    obtain ⟨n, rfl⟩ : ∃ m, n = m + 1 := ⟨n - 1, by omega⟩
    have hgroups : groups.flatMap (· ++ [':']) ∈ atMost n group := by
      refine ⟨groups.length, by omega, flatMap_mem_pow ?_⟩
      intro x hx
      exact hall x (by simp [hx])
    exact .inr (Language.append_mem_mul hgroups (mem_h16 (hall g (by simp))))

/-- The empty group in the interior cuts the groups. -/
theorem exists_split {i : ℕ} (h : groups.tail.dropLast.findIdx? (·.isEmpty) = some i) :
    groups = groups.take (i + 1) ++ [] :: groups.drop (i + 2) ∧ i + 2 < groups.length := by
  obtain ⟨hi, hempty, -⟩ := List.findIdx?_eq_some_iff_getElem.1 h
  rw [List.length_dropLast, List.length_tail] at hi
  rw [List.getElem_dropLast, List.getElem_tail, List.isEmpty_iff] at hempty
  refine ⟨?_, by omega⟩
  rw [← hempty, List.getElem_cons_drop, List.take_append_drop]

/-- The text behind the `"::"`, by the number of its groups: an empty last part stands for none. -/
theorem spelled_back {lo : List Text}
    (hlo : lo = if back.getLast? = some [] then back.dropLast else back) (hback : back ≠ [])
    (hempty : back.getLast? = some [] → lo = []) (hall : ∀ g ∈ lo, hextet g = true)
    (ht : Spells back t) :
    t = [] ∨ (lo.length = 1 ∧ t ∈ h16) ∨ ∃ n, lo.length = n + 2 ∧ t ∈ group ^ n * ls32 := by
  by_cases hnone : back.getLast? = some []
  · left
    rw [if_pos hnone, hempty hnone] at hlo
    obtain ⟨parts, last, rfl⟩ : ∃ parts last, back = parts ++ [last] :=
      ⟨_, _, (List.dropLast_append_getLast hback).symm⟩
    rw [List.dropLast_concat] at hlo
    subst hlo
    have hlast : last = [] := by simpa using hnone
    rw [List.nil_append, hlast] at ht
    exact ht.eq_of_one
  · right
    rw [if_neg hnone] at hlo
    subst hlo
    obtain ⟨g, rest, rfl⟩ := List.exists_cons_of_ne_nil hback
    cases rest with
    | nil =>
      left
      rw [ht.eq_of_one]
      exact ⟨rfl, mem_h16 (hall g (by simp))⟩
    | cons g' rest => exact .inr ⟨rest.length, rfl, ht.mem_pow hall rfl⟩

theorem mem_ipv6address_of_groups (hs : Spells groups s) (h : ipv6GroupsValid groups = true) :
    s ∈ ipv6address := by
  rw [ipv6GroupsValid] at h
  split at h
  · simp only [Bool.and_eq_true, decide_eq_true_eq, List.all_eq_true] at h
    exact .inl (.inl (.inl (hs.mem_pow h.2 h.1)))
  · next i hi =>
    obtain ⟨hgroups, hlength⟩ := exists_split hi
    have hfront : groups.take (i + 1) ≠ [] := by
      rw [← List.length_pos_iff, List.length_take]
      omega
    have hback : groups.drop (i + 2) ≠ [] := by
      rw [← List.length_pos_iff, List.length_drop]
      omega
    have hhead : (groups.take (i + 1)).head? = groups.head? := by
      rw [List.head?_take, if_neg (Nat.succ_ne_zero i)]
    have hlast : (groups.drop (i + 2)).getLast? = groups.getLast? := by
      rw [List.getLast?_drop, if_neg (Nat.not_le.2 hlength)]
    generalize groups.take (i + 1) = front at hgroups hfront hhead h
    generalize groups.drop (i + 2) = back at hgroups hback hlast h
    rw [hgroups] at hs
    obtain ⟨t, ht, rfl⟩ := hs.split hback
    simp only [← hhead, ← hlast, Bool.and_eq_true, decide_eq_true_eq, List.all_eq_true,
      Bool.or_eq_true, List.isEmpty_iff, ne_eq, decide_not, Bool.not_eq_true',
      decide_eq_false_iff_not, ← imp_iff_not_or] at h
    obtain ⟨⟨⟨⟨⟨-, hhi⟩, hlo⟩, hcount⟩, hallfront⟩, hallback⟩ := h
    have hbefore : ∀ {n : ℕ}, (if front.head? = some [] then front.tail else front).length ≤ n →
        ∃ f ∈ groupsBefore n, front.flatMap (· ++ [':']) = f ++ [':'] :=
      exists_groupsBefore rfl hfront hhi hallfront
    have hjoin : ∀ f u : Text, f ++ [':'] ++ ':' :: u = f ++ [':', ':'] ++ u := by simp
    rcases spelled_back rfl hback hlo hallback ht with rfl | ⟨hone, ht⟩ | ⟨n, htwo, ht⟩
    · obtain ⟨f, hf, htext⟩ := hbefore (n := 7) (by omega)
      have hs : f ++ [':', ':'] ∈ groupsBefore 7 * exactly [':', ':'] :=
        Language.append_mem_mul hf rfl
      rw [htext, hjoin, List.append_nil]
      exact .inr hs
    · obtain ⟨f, hf, htext⟩ := hbefore (n := 6) (by omega)
      have hs : f ++ [':', ':'] ++ t ∈ groupsBefore 6 * exactly [':', ':'] * h16 :=
        Language.append_mem_mul (Language.append_mem_mul hf rfl) ht
      rw [htext, hjoin]
      exact .inl (.inr hs)
    · obtain ⟨f, hf, htext⟩ := hbefore (n := 5 - n) (by omega)
      have hs : f ++ [':', ':'] ++ t ∈
          groupsBefore (5 - n) * exactly [':', ':'] * (group ^ n * ls32) :=
        Language.append_mem_mul (Language.append_mem_mul hf rfl) ht
      rw [htext, hjoin]
      exact .inl (.inl (.inr ⟨n, by omega, hs⟩))

/-- **An address without a scope id is an IPv6 address of the grammar.** -/
theorem mem_ipv6address (h : ipv6Address s = true) (hscope : '%' ∉ s) : s ∈ ipv6address := by
  rw [ipv6Address, partition_of_not_mem hscope] at h
  simp only [Bool.and_eq_true] at h
  obtain ⟨-, h⟩ := h
  cases hgroups : ipv6Groups s with
  | none =>
    rw [hgroups] at h
    cases h
  | some groups =>
    rw [hgroups, Bool.and_eq_true] at h
    exact mem_ipv6address_of_groups (spells_of_ipv6Groups hgroups) h.2

/-! ## The text in the brackets -/

theorem mem_plus_letter {p : Char → Bool} (hne : s ≠ []) (h : ∀ c ∈ s, p c = true) :
    s ∈ letter p * (letter p)∗ :=
  mem_mul_kstar (mem_kstar_of_forall h) hne

theorem mem_ipvFuture (h : ipvFuture s = true) : s ∈ UriGrammar.ipvFuture := by
  cases s with
  | nil => cases h
  | cons v rest =>
    rw [ipvFuture] at h
    generalize hparts : partition ['.'] rest = parts at h
    obtain ⟨version, dot, address⟩ := parts
    simp only [Bool.and_eq_true, List.all_eq_true, isHexDigit_eq, uriUnreserved_eq,
      uriSubDelimiters_eq] at h
    obtain ⟨⟨⟨⟨⟨hv, hversion⟩, hhex⟩, rfl⟩, haddress⟩, hchars⟩ := h
    have htext : v :: rest = [v] ++ version ++ ['.'] ++ address := by
      rw [append_of_partition hparts]
      simp
    have hv : [v] ∈ letter fun c => c = 'v' || c = 'V' := ⟨v, hv, rfl⟩
    have hversion : version ∈ letter hexdig * (letter hexdig)∗ :=
      mem_plus_letter (by simpa using hversion) hhex
    rw [htext]
    apply Language.append_mem_mul _ (mem_plus_letter (by simpa using haddress) hchars)
    exact Language.append_mem_mul (Language.append_mem_mul hv hversion) rfl

/-- `%25`. -/
def zoneMark : Text := ['%', '2', '5']

/-- The first percent sign of an IP literal begins a `%25` that something follows. -/
def ZoneComplete (literal : Text) : Prop :=
  '%' ∉ (partition zoneMark literal).1 ∧
    ((partition zoneMark literal).2.1 = true → (partition zoneMark literal).2.2 ≠ [])

instance (literal : Text) : Decidable (ZoneComplete literal) :=
  inferInstanceAs (Decidable (_ ∧ _))

/-- **An accepted IP literal with a complete zone is in the grammar.** -/
theorem mem_ipLiteralText (h : validateIpLiteral s = .ok ()) (hescaped : Escaped s)
    (hzone : ZoneComplete s) : s ∈ ipLiteralText := by
  rw [validateIpLiteral] at h
  split at h
  · rw [raiseIf_eq_ok] at h
    exact .inr (mem_ipvFuture (by simpa using h))
  · rw [ZoneComplete, zoneMark] at hzone
    generalize hparts : partition ['%', '2', '5'] s = parts at h hzone
    obtain ⟨address, separator, zone⟩ := parts
    simp only [bind_eq_ok, raiseIf_eq_ok, exists_const] at h
    obtain ⟨haddress, hvalid⟩ := h
    have haddress : address ∈ ipv6address := mem_ipv6address (by simpa using haddress) hzone.1
    cases separator with
    | false =>
      rw [← (of_partition_not_found hparts).1]
      exact .inl (.inl haddress)
    | true =>
      have htext : s = address ++ ['%', '2', '5'] ++ zone := by
        rw [append_of_partition hparts, List.append_assoc]
      rw [htext] at hescaped
      have hvalid : validUriComponent (fun c => uriUnreserved c || c = '%') zone = true := by
        simpa using hvalid
      have hstar : zone ∈ (encodable unreserved)∗ := by
        apply mem_kstar_of_validUriComponent hescaped.of_append_right hvalid
        intro c hc
        rw [uriUnreserved_eq, Bool.or_eq_true, decide_eq_true_eq] at hc
        exact hc
      rw [htext]
      refine .inl (.inr ?_)
      apply Language.append_mem_mul _ (mem_mul_kstar hstar (hzone.2 rfl))
      exact Language.append_mem_mul haddress rfl

/-- An IP literal of the grammar has a complete zone, if any. -/
theorem zoneComplete_of_mem (h : s ∈ ipLiteralText) : ZoneComplete s := by
  rcases zone_of_mem_ipLiteralText h with hnone | ⟨address, zone, rfl, haddress, hzone⟩
  · rw [ZoneComplete, zoneMark, partition_of_not_mem hnone]
    exact ⟨hnone, fun h => by cases h⟩
  · rw [ZoneComplete, zoneMark, partition_append haddress]
    exact ⟨haddress, fun _ => hzone⟩

end DecentRegistry.ProviderUri
