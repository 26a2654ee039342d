import DecentRegistry.Model.ProviderUri
import DecentRegistry.Foundations.UriGrammar

/-!
# The characters and the splits of a URI

What the text operations of the URI check return: `partition` and `rpartition` cut at the first and
at the last separator, `splitOn` at each. The character sets of the source are the classes of the
grammar, and a text of one class without a bad percent escape is a run of plain and percent-encoded
characters (`mem_kstar_encodable`). -/

namespace DecentRegistry.ProviderUri

open Fallible PyValue Grammar Computability UriGrammar

variable {s t before after : Text} {c d : Char} {found : Bool}

/-! ## Partitions -/

theorem append_of_partition {sep : Text} (h : partition sep s = (before, true, after)) :
    s = before ++ (sep ++ after) := by
  induction s generalizing before with
  | nil => cases h
  | cons c s ih =>
    rw [partition] at h
    split at h
    · next hprefix =>
      obtain ⟨rest, hrest⟩ := List.isPrefixOf_iff_prefix.1 hprefix
      simp only [Prod.mk.injEq, true_and] at h
      obtain ⟨rfl, rfl⟩ := h
      rw [← hrest, List.drop_left, List.nil_append]
    · simp only [Prod.mk.injEq] at h
      obtain ⟨rfl, hfound, rfl⟩ := h
      rw [List.cons_append, ← ih (Prod.ext rfl (Prod.ext hfound rfl))]

theorem of_partition_not_found {sep : Text} (h : partition sep s = (before, false, after)) :
    before = s ∧ after = [] := by
  induction s generalizing before with
  | nil =>
    simp only [partition, Prod.mk.injEq, true_and] at h
    exact ⟨h.1.symm, h.2.symm⟩
  | cons c s ih =>
    rw [partition] at h
    split at h
    · simp at h
    · simp only [Prod.mk.injEq] at h
      obtain ⟨rfl, hfound, rfl⟩ := h
      obtain ⟨hbefore, hafter⟩ := ih (Prod.ext rfl (Prod.ext hfound rfl))
      exact ⟨congrArg (c :: ·) hbefore, hafter⟩

/-- The text before the first separator has no separator of one character. -/
theorem not_mem_of_partition (h : partition [c] s = (before, found, after)) : c ∉ before := by
  induction s generalizing before with
  | nil =>
    simp only [partition, Prod.mk.injEq] at h
    rw [← h.1]
    exact List.not_mem_nil
  | cons d s ih =>
    rw [partition] at h
    split at h
    · simp only [Prod.mk.injEq] at h
      rw [← h.1]
      exact List.not_mem_nil
    · next hne =>
      simp only [Prod.mk.injEq] at h
      obtain ⟨rfl, rfl, rfl⟩ := h
      rw [List.mem_cons, not_or]
      refine ⟨?_, ih rfl⟩
      rintro rfl
      simp at hne

/-- The first separator is where its first character first stands. -/
theorem partition_append {sep : Text} (hbefore : c ∉ before) :
    partition (c :: sep) (before ++ (c :: sep ++ after)) = (before, true, after) := by
  induction before with
  | nil =>
    have hprefix : (c :: sep).isPrefixOf (c :: (sep ++ after)) = true :=
      List.isPrefixOf_iff_prefix.2 (List.prefix_append (c :: sep) after)
    rw [List.nil_append, List.cons_append, partition, if_pos hprefix, ← List.cons_append,
      List.drop_left]
  | cons d before ih =>
    rw [List.mem_cons, not_or] at hbefore
    have hprefix : ¬(c :: sep).isPrefixOf (d :: (before ++ (c :: sep ++ after))) = true := by
      rw [List.isPrefixOf_iff_prefix, List.cons_prefix_cons]
      exact fun h => hbefore.1 h.1
    rw [List.cons_append, partition, if_neg hprefix, ih hbefore.2]

theorem partition_of_not_mem {sep : Text} (h : c ∉ s) :
    partition (c :: sep) s = (s, false, []) := by
  induction s with
  | nil => rfl
  | cons d s ih =>
    rw [List.mem_cons, not_or] at h
    have hprefix : ¬(c :: sep).isPrefixOf (d :: s) = true := by
      rw [List.isPrefixOf_iff_prefix, List.cons_prefix_cons]
      exact fun heq => h.1 heq.1
    rw [partition, if_neg hprefix, ih h.2]

/-- The last separator: without one the text before it is empty. -/
theorem append_of_rpartition (h : rpartition c s = (before, found, after)) :
    s = (if found then before ++ [c] else []) ++ after ∧ (found = false → before = []) := by
  rw [rpartition] at h
  generalize hp : partition [c] s.reverse = parts at h
  obtain ⟨last, cut, rest⟩ := parts
  cases cut with
  | false =>
    simp only [Bool.false_eq_true, if_false, Prod.mk.injEq] at h
    obtain ⟨rfl, rfl, rfl⟩ := h
    simp
  | true =>
    simp only [if_true, Prod.mk.injEq] at h
    obtain ⟨rfl, rfl, rfl⟩ := h
    have hs := congrArg List.reverse (append_of_partition hp)
    rw [List.reverse_reverse] at hs
    simp [hs]

theorem splitOn_ne_nil : splitOn c s ≠ [] := by
  cases s with
  | nil => simp [splitOn]
  | cons d s =>
    rw [splitOn]
    split
    · simp
    · split <;> simp

/-- `s.split(c)`, joined again. -/
theorem append_of_splitOn {parts : List Text} {last : Text} (h : splitOn c s = parts ++ [last]) :
    s = parts.flatMap (· ++ [c]) ++ last := by
  induction s generalizing parts last with
  | nil =>
    rw [splitOn] at h
    cases parts with
    | nil => simpa using h
    | cons part parts => simp at h
  | cons d s ih =>
    obtain ⟨part, rest, hs⟩ := List.exists_cons_of_ne_nil (splitOn_ne_nil (c := c) (s := s))
    simp only [splitOn, hs] at h
    split at h
    · next heq =>
      -- the separator ends an empty part
      subst heq
      cases parts with
      | nil => simp at h
      | cons first parts =>
        rw [List.cons_append, List.cons.injEq] at h
        obtain ⟨rfl, h⟩ := h
        rw [ih (hs.trans h)]
        simp
    · cases parts with
      | nil =>
        rw [List.nil_append, List.cons.injEq] at h
        obtain ⟨rfl, rfl⟩ := h
        have hone : splitOn c s = [] ++ [part] := hs
        rw [ih hone]
        simp
      | cons first parts =>
        rw [List.cons_append, List.cons.injEq] at h
        obtain ⟨rfl, rfl⟩ := h
        have hmore : splitOn c s = (part :: parts) ++ [last] := hs
        rw [ih hmore]
        simp

/-! ## Character sets -/

theorem isDigit_eq : isDigit = digit := by
  funext c
  exact Bool.decide_and _ _

theorem isAlpha_eq : isAlpha = alpha := by
  funext c
  rw [isAlpha, Bool.decide_or, Bool.decide_and, Bool.decide_and]
  rfl

theorem isHexDigit_eq : isHexDigit = hexdig := by
  funext c
  have hdigit : digit c = decide ('0' ≤ c ∧ c ≤ '9') := (Bool.decide_and _ _).symm
  have hlower : between 'a' 'f' c = decide ('a' ≤ c ∧ c ≤ 'f') := (Bool.decide_and _ _).symm
  have hupper : between 'A' 'F' c = decide ('A' ≤ c ∧ c ≤ 'F') := (Bool.decide_and _ _).symm
  rw [isHexDigit, hexdig, hdigit, hlower, hupper]
  by_cases hd : '0' ≤ c ∧ c ≤ '9'
  · simp [hexDigit?, hd]
  · by_cases hl : 'a' ≤ c ∧ c ≤ 'f'
    · simp [hexDigit?, hd, hl]
    · by_cases hu : 'A' ≤ c ∧ c ≤ 'F' <;> simp [hexDigit?, hd, hl, hu]

theorem uriUnreserved_eq : uriUnreserved = unreserved := by
  funext c
  rw [uriUnreserved, unreserved, isAlpha_eq, isDigit_eq]

theorem uriSubDelimiters_eq : uriSubDelimiters = subDelims := rfl

theorem uriPchar_eq (c : Char) : uriPchar c = (segmentChar c || c = '%') := by
  rw [uriPchar, segmentChar, uriUnreserved_eq, uriSubDelimiters_eq]
  simp [Bool.or_assoc]

/-! ## Percent escapes -/

/-- A text whose percent signs all begin an escape. -/
inductive Escaped : Text → Prop
  | nil : Escaped []
  | plain {c : Char} {s : Text} (hc : c ≠ '%') (hs : Escaped s) : Escaped (c :: s)
  | escape {a b : Char} {s : Text} (ha : hexdig a = true) (hb : hexdig b = true)
      (hs : Escaped s) : Escaped ('%' :: a :: b :: s)

theorem ne_percent_of_hexdig (h : hexdig c = true) : c ≠ '%' := ne_of_class (by decide) c h

theorem Escaped.of_cons (h : Escaped (c :: s)) : Escaped s := by
  cases h with
  | plain _ hs => exact hs
  | escape ha hb hs => exact .plain (ne_percent_of_hexdig ha) (.plain (ne_percent_of_hexdig hb) hs)

theorem Escaped.of_append_right (h : Escaped (t ++ s)) : Escaped s := by
  induction t with
  | nil => exact h
  | cons c t ih => exact ih h.of_cons

/-- What stands before a text that does not begin with a digit of an escape. -/
theorem Escaped.of_append_left (h : Escaped (t ++ s)) (hs : ∀ c ∈ s.head?, hexdig c = false) :
    Escaped t := by
  generalize heq : t ++ s = u at h
  induction h generalizing t with
  | nil =>
    rw [(List.append_eq_nil_iff.1 heq).1]
    exact .nil
  | plain hc _ ih =>
    cases t with
    | nil => exact .nil
    | cons d t =>
      rw [List.cons_append, List.cons.injEq] at heq
      obtain ⟨rfl, heq⟩ := heq
      exact .plain hc (ih heq)
  | @escape a b u ha hb hu ih =>
    have hhead : ∀ d v, hexdig d = true → s ≠ d :: v := by
      rintro d v hd rfl
      rw [hs d rfl] at hd
      cases hd
    rcases t with _ | ⟨x, _ | ⟨y, _ | ⟨z, t⟩⟩⟩
    · exact .nil
    · exact absurd (List.cons.inj heq).2 (hhead a _ ha)
    · obtain ⟨-, heq⟩ := List.cons.inj heq
      exact absurd (List.cons.inj heq).2 (hhead b _ hb)
    · simp only [List.cons_append, List.cons.injEq] at heq
      obtain ⟨rfl, rfl, rfl, heq⟩ := heq
      exact .escape ha hb (ih heq)

/-- `_BAD_PERCENT_ESCAPE_RE` finds nothing. -/
theorem escaped_of_badPercentEscape (h : badPercentEscape s = false) : Escaped s := by
  induction s with
  | nil => exact .nil
  | cons c s ih =>
    rw [badPercentEscape, Bool.or_eq_false_iff] at h
    obtain ⟨hc, hs⟩ := h
    have hrest : Escaped s := ih hs
    by_cases hpercent : c = '%'
    · subst hpercent
      rcases s with _ | ⟨a, _ | ⟨b, s⟩⟩
      · cases hc
      · cases hc
      · have hhex : hexdig a = true ∧ hexdig b = true := by
          simpa [escapeFollows, isHexDigit_eq] using hc
        exact .escape hhex.1 hhex.2 hrest.of_cons.of_cons
    · exact .plain hpercent hrest

/-! ## Components -/

variable {allowed p : Char → Bool}

theorem allowed_of_validUriComponent (h : validUriComponent allowed s = true) (hc : c ∈ s) :
    allowed c = true ∨ c = '%' := by
  induction s with
  | nil => cases hc
  | cons d s ih =>
    simp only [validUriComponent, Bool.and_eq_true, Bool.or_eq_true, decide_eq_true_eq] at h
    rcases List.mem_cons.1 hc with rfl | hc
    · exact h.1.imp_right And.left
    · exact ih h.2 hc

/-- **A run of plain and percent-encoded characters.** -/
theorem mem_kstar_encodable (h : Escaped s) (hs : ∀ c ∈ s, p c = true ∨ c = '%') :
    s ∈ (encodable p)∗ := by
  induction h with
  | nil => exact Language.nil_mem_kstar _
  | @plain c s hc _ ih =>
    obtain ⟨hp, hs⟩ := List.forall_mem_cons.1 hs
    have hletter : [c] ∈ letter p := singleton_mem_letter (hp.resolve_right hc)
    exact append_mem_kstar (.inl hletter) (ih hs)
  | @escape a b s ha hb _ ih =>
    have hescape : ['%', a, b] ∈ pctEncoded := ⟨a, b, ha, hb, rfl⟩
    apply append_mem_kstar (s := ['%', a, b]) (.inr hescape)
    apply ih
    intro c hc
    exact hs c (List.mem_cons_of_mem _ (List.mem_cons_of_mem _ (List.mem_cons_of_mem _ hc)))

/-- A component whose allowed characters are those of a class and the percent sign. -/
theorem mem_kstar_of_validUriComponent (h : Escaped s) (hs : validUriComponent allowed s = true)
    (hp : ∀ c, allowed c = true → p c = true ∨ c = '%') : s ∈ (encodable p)∗ := by
  apply mem_kstar_encodable h
  intro c hc
  rcases allowed_of_validUriComponent hs hc with hallowed | rfl
  · exact hp c hallowed
  · exact .inr rfl

end DecentRegistry.ProviderUri
