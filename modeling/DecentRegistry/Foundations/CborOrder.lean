import DecentRegistry.Foundations.Cbor
import DecentRegistry.Foundations.DistinctReading
import DecentRegistry.Foundations.OrderedValue

/-!
# Canonical CBOR and the order of entries

The encoding of a value for the wire does not depend on the order in which the entries of its
dictionaries were inserted (`encode_ordered`), and it is decoded with them in the order of their
keys (`decode_encode_ordered`). -/

namespace DecentRegistry.Cbor

open PyValue Sha256 DistinctReading

/-- The encoded entries of a dictionary, entry by entry. -/
theorem encodeEntries_iff {d : Dict} {entries : List (Bytes × Bytes)} :
    encodeEntries d = some entries ↔ List.Forall₂
      (fun e p => encodeAtom e.1 = some p.1 ∧ encode e.2 = some p.2) d entries := by
  induction d generalizing entries with
  | nil => simp [encodeEntries, eq_comm]
  | cons e d ih =>
    obtain ⟨a, v⟩ := e
    simp only [encodeEntries, Option.bind_eq_bind, Option.bind_eq_some_iff, Option.pure_def,
      Option.some.injEq, List.forall₂_cons_left_iff, ih]
    constructor
    · rintro ⟨k, hk, w, hw, rest, hrest, rfl⟩
      exact ⟨(k, w), rest, ⟨hk, hw⟩, hrest, rfl⟩
    · rintro ⟨⟨k, w⟩, rest, ⟨hk, hw⟩, hrest, rfl⟩
      exact ⟨k, hk, w, hw, rest, hrest, rfl⟩

/-- Permuted dictionaries have permuted entries. -/
theorem encodeEntries_perm {d d' : Dict} {entries : List (Bytes × Bytes)} (h : d'.Perm d)
    (hd : encodeEntries d = some entries) :
    ∃ entries', encodeEntries d' = some entries' ∧ entries'.Perm entries := by
  obtain ⟨entries', hentries', hperm⟩ := List.perm_comp_forall₂ h (encodeEntries_iff.1 hd)
  exact ⟨entries', encodeEntries_iff.2 hentries', hperm⟩

theorem natRank_injective : Function.Injective natRank := by
  intro m n h
  rcases Nat.lt_trichotomy m n with hlt | heq | hlt
  · exact absurd h (natRank_lt hlt).ne
  · exact heq
  · exact absurd h (natRank_lt hlt).ne'

/-- Entries under distinct numbers have one canonical order. -/
theorem sortEntries_congr {d : Dict} {entries entries' : List (Bytes × Bytes)} (h : NatKeyed d)
    (hd : encodeEntries d = some entries) (hperm : entries'.Perm entries) :
    sortEntries entries' = sortEntries entries := by
  have hread {p : Bytes × Bytes} (hp : p ∈ entries) : ∃ e ∈ d, ∃ n : ℕ, e.1 = .int n ∧
      keyRank p.1 = natRank n ∧ encodeAtom e.1 = some p.1 ∧ encode e.2 = some p.2 := by
    obtain ⟨e, he, hkey, hvalue⟩ := exists_read (encodeEntries_iff.1 hd) hp
    obtain ⟨n, hn⟩ := h.key e he
    refine ⟨e, he, n, hn, ?_, hkey, hvalue⟩
    rw [hn, encodeAtom, if_pos (Int.natCast_nonneg n), Int.toNat_natCast] at hkey
    exact keyRank_head hkey
  have hsorted (l : List (Bytes × Bytes)) :
      (sortEntries l).Pairwise fun p q => keyRank p.1 ≤ keyRank q.1 :=
    List.pairwise_insertionSort _ l
  have hsame : (sortEntries entries').Perm (sortEntries entries) :=
    (List.perm_insertionSort _ _).trans (hperm.trans (List.perm_insertionSort _ _).symm)
  refine @List.Perm.eq_of_pairwise _ (fun p q => keyRank p.1 ≤ keyRank q.1) _ _ ?_
    (hsorted entries') (hsorted entries) hsame
  intro p q hp hq hle hge
  obtain ⟨e, he, n, hn, hrank, hkey, hvalue⟩ :=
    hread (hperm.mem_iff.1 ((List.perm_insertionSort _ _).mem_iff.1 hp))
  obtain ⟨e', he', n', hn', hrank', hkey', hvalue'⟩ :=
    hread ((List.perm_insertionSort _ _).mem_iff.1 hq)
  have hnumber : n = n' := natRank_injective (by omega)
  obtain rfl : e = e' := h.inj he he' (by rw [keyNumber, keyNumber, hn, hn', hnumber])
  exact Prod.ext (Option.some.inj (hkey.symm.trans hkey'))
    (Option.some.inj (hvalue.symm.trans hvalue'))

/-- Dictionaries with the same entries are encoded alike. -/
theorem encode_dict_perm {d d' : Dict} (h : NatKeyed d) (hperm : d'.Perm d) :
    encode (.dict d') = encode (.dict d) := by
  simp only [encode, hperm.length_eq]
  cases hd : encodeEntries d with
  | some entries =>
    obtain ⟨entries', hd', hentries⟩ := encodeEntries_perm hperm hd
    rw [hd']
    simp only [Option.bind_eq_bind, Option.bind_some, sortEntries_congr h hd hentries]
  | none =>
    have hd' : encodeEntries d' = none := by
      by_contra hne
      obtain ⟨entries', hsome⟩ := Option.ne_none_iff_exists'.1 hne
      obtain ⟨entries, hentries, -⟩ := encodeEntries_perm hperm.symm hsome
      rw [hd] at hentries
      cases hentries
    rw [hd']

theorem encodeList_congr {f : Value → Value} {xs : List Value}
    (h : ∀ v ∈ xs, encode (f v) = encode v) : encodeList (xs.map f) = encodeList xs := by
  induction xs with
  | nil => rfl
  | cons v xs ih =>
    rw [List.map_cons, encodeList, encodeList, h v (by simp), ih fun w hw => h w (by simp [hw])]

theorem encodeEntries_congr {f : Value → Value} {d : Dict}
    (h : ∀ e ∈ d, encode (f e.2) = encode e.2) :
    encodeEntries (d.map fun e => (e.1, f e.2)) = encodeEntries d := by
  induction d with
  | nil => rfl
  | cons e d ih =>
    obtain ⟨a, v⟩ := e
    rw [List.map_cons, encodeEntries, encodeEntries, h (a, v) (by simp),
      ih fun e he => h e (by simp [he])]

/-- **The order of insertion does not matter.** -/
theorem encode_ordered {v : Value} (hv : Wire v) : encode v.ordered = encode v := by
  induction hv with
  | none => rfl
  | int i => rfl
  | float h => rfl
  | bytes b => rfl
  | text t => rfl
  | @list xs _ ih =>
    rw [Value.ordered_list, encode, encode, encodeList_congr ih, List.length_map]
  | @dict d keys _ ih =>
    rw [Value.ordered_dict, encode_dict_perm (keys.map _) (sortByKey_perm _), encode, encode,
      encodeEntries_congr ih, List.length_map]

/-- What can be encoded is plain, once ordered. -/
theorem plain_ordered {v : Value} (hv : Wire v) : ∀ b, encode v = some b → Plain v.ordered := by
  induction hv with
  | none => exact fun _ _ => by simpa using Plain.none
  | int i => exact fun _ _ => by simpa using Plain.int i
  | float h =>
    intro b hb
    simp [encode, encodeAtom] at hb
  | bytes b => exact fun _ _ => by simpa using Plain.bytes b
  | text t => exact fun _ _ => by simpa using Plain.text t
  | @list xs _ ih =>
    intro b hb
    simp only [encode, Option.bind_eq_bind, Option.bind_eq_some_iff, Option.pure_def,
      Option.some.injEq] at hb
    obtain ⟨_, -, bs, hbs, -⟩ := hb
    obtain ⟨items, rfl, -, hitems⟩ := encodeList_eq_some hbs
    rw [Value.ordered_list]
    refine .list fun w hw => ?_
    obtain ⟨v, hv, rfl⟩ := List.mem_map.1 hw
    obtain ⟨item, hitem, rfl⟩ := List.mem_map.1 hv
    exact ih _ hv _ (hitems item hitem)
  | @dict d keys _ ih =>
    intro b hb
    simp only [encode, Option.bind_eq_bind, Option.bind_eq_some_iff, Option.pure_def,
      Option.some.injEq] at hb
    obtain ⟨_, -, entries, hentries, -⟩ := hb
    obtain ⟨items, hd, -, hitems⟩ := encodeEntries_eq_some hentries
    rw [Value.ordered_dict]
    obtain ⟨ns, sorted, hns⟩ := (keys.map Value.ordered).exists_natEntries
    rw [hns]
    refine .dict sorted fun x hx => ?_
    have hmem : (Atom.int x.1, x.2) ∈ sortByKey (d.map fun e => (e.1, e.2.ordered)) :=
      hns ▸ List.mem_map.2 ⟨x, hx, rfl⟩
    obtain ⟨e, he, heq⟩ := List.mem_map.1 (mem_sortByKey.1 hmem)
    obtain ⟨item, hitem, rfl⟩ := List.mem_map.1 (hd ▸ he)
    rw [← (Prod.mk.inj heq).2]
    exact ih _ he _ (hitems item hitem).2

/-- **Reading back what was encoded**, in order. -/
theorem decode_encode_ordered {v : Value} {b : Bytes} (hv : Wire v) (h : encode v = some b) :
    decode b = some v.ordered :=
  decode_encode (plain_ordered hv b h) ((encode_ordered hv).trans h)

end DecentRegistry.Cbor
