import DecentRegistry.Bundle.Finalization
import DecentRegistry.Foundations.SortedInsertion

/-!
# Merging proofs

Proofs are merged one by one. What is accepted (`Mergeable`) and what results (`Merged`) are stated
for all of them at once, and depend on their order in neither case (`mergeProofs_perm`). A bundle is
restored from its wire envelope with all proofs bound to it (`fromCbor_toCbor`), since the envelope
does not say what a proof is bound to.
-/

namespace DecentRegistry

open Fallible PyValue DistinctReading

variable {rt : Runtime}

namespace MultisignatureBundle

variable {b b' : MultisignatureBundle rt}

/-- The bytes of a bundle determine its SignedUpdate. -/
theorem signedUpdate_congr (h : b'.signedUpdateBytes = b.signedUpdateBytes) :
    b'.signedUpdate = b.signedUpdate := by
  have hdecodes := b'.decodes
  rw [h] at hdecodes
  exact Except.ok.inj (hdecodes.symm.trans b.decodes)

theorem authorization_congr (h : b'.signedUpdateBytes = b.signedUpdateBytes) :
    b'.authorization = b.authorization := by
  rw [authorization, authorization, signedUpdate_congr h]

theorem signerSet_congr (h : b'.signedUpdateBytes = b.signedUpdateBytes) :
    b'.signerSet = b.signerSet := by
  rw [signerSet, signerSet, authorization_congr h]

/-- Bundles with the same bytes and the same proofs are equal. -/
theorem eq_of_fields (hbytes : b'.signedUpdateBytes = b.signedUpdateBytes)
    (hproofs : b'.proofs = b.proofs) : b' = b := by
  have hupdate := signedUpdate_congr hbytes
  cases b
  cases b'
  cases hbytes
  cases hproofs
  cases hupdate
  rfl

theorem make_eq_ok {signedUpdateBytes : Bytes} {proofs : List MultisignatureProof} :
    make rt signedUpdateBytes proofs = .ok b ↔ b.signedUpdateBytes = signedUpdateBytes ∧
      b.proofs = sortedBy MultisignatureProof.sortKey proofs := by
  unfold make
  split
  · rename_i e he
    simp only [throw_eq_ok_iff, false_iff]
    rintro ⟨rfl, -⟩
    cases he.symm.trans b.decodes
  · rename_i u hu
    rw [pure_eq_ok]
    constructor
    · rintro rfl
      exact ⟨rfl, rfl⟩
    · rintro ⟨hbytes, hproofs⟩
      exact eq_of_fields hbytes.symm hproofs.symm

/-- The bundle with one more proof. -/
def insertProof (b : MultisignatureBundle rt) (p : MultisignatureProof) : MultisignatureBundle rt :=
  { b with
    proofs := sortedBy MultisignatureProof.sortKey (b.proofs ++ [p])
    sorted := sortedBy_sortedBy _ _ }

@[simp] theorem insertProof_signedUpdateBytes (p : MultisignatureProof) :
    (b.insertProof p).signedUpdateBytes = b.signedUpdateBytes := rfl

theorem insertProof_proofs {p : MultisignatureProof}
    (fresh : ∀ q ∈ b.proofs, q.signerId ≠ p.signerId) :
    (b.insertProof p).proofs = insertBy MultisignatureProof.sortKey b.proofs p :=
  sortedBy_snoc b.sorted fun q hq heq => fresh q hq (utf8_injective heq)

end MultisignatureBundle

/-- What `_validate_proof` checks depends on the SignedUpdate of the bundle only. -/
theorem ValidProof.congr {b b' : MultisignatureBundle rt} {p : MultisignatureProof}
    (h : ValidProof b p) (hbytes : b'.signedUpdateBytes = b.signedUpdateBytes) :
    ValidProof b' p := by
  have hsigners := MultisignatureBundle.signerSet_congr hbytes
  obtain ⟨bound, length, valid⟩ := h
  rw [← hbytes] at bound
  rw [← hbytes, ← hsigners] at valid
  exact ⟨bound, length, valid⟩

theorem mergeProof_eq_ok {b b' : MultisignatureBundle rt} {p : MultisignatureProof} :
    mergeProof b p = .ok b' ↔
      (∀ q ∈ b.proofs, q.signerId ≠ p.signerId) ∧ ValidProof b p ∧ b' = b.insertProof p := by
  simp only [mergeProof, bind_eq_ok, raiseIf_eq_ok, validateProof_eq_ok,
    MultisignatureBundle.make_eq_ok, exists_const, not_exists, not_and]
  have hmade : b'.signedUpdateBytes = b.signedUpdateBytes ∧
      b'.proofs = sortedBy MultisignatureProof.sortKey (b.proofs ++ [p]) ↔
        b' = b.insertProof p := by
    constructor
    · rintro ⟨hbytes, hproofs⟩
      exact MultisignatureBundle.eq_of_fields hbytes hproofs
    · rintro rfl
      exact ⟨rfl, rfl⟩
  rw [hmade]

/-! ## All proofs at once -/

/-- Proofs that can be merged: valid, and of signers that differ and have no proof yet. -/
structure Mergeable (b : MultisignatureBundle rt) (proofs : List MultisignatureProof) : Prop where
  distinct : (proofs.map (·.signerId)).Nodup
  fresh : ∀ p ∈ proofs, ∀ q ∈ b.proofs, q.signerId ≠ p.signerId
  valid : ∀ p ∈ proofs, ValidProof b p

/-- The result of merging proofs: each is at its place. -/
structure Merged (b : MultisignatureBundle rt) (proofs : List MultisignatureProof)
    (merged : MultisignatureBundle rt) : Prop where
  signedUpdateBytes : merged.signedUpdateBytes = b.signedUpdateBytes
  proofs : merged.proofs = insertAll MultisignatureProof.sortKey b.proofs proofs

/-- The first proof is merged before the others. -/
theorem mergeable_cons {b : MultisignatureBundle rt} {p : MultisignatureProof}
    {rest : List MultisignatureProof} :
    Mergeable b (p :: rest) ↔ (∀ q ∈ b.proofs, q.signerId ≠ p.signerId) ∧ ValidProof b p ∧
      Mergeable (b.insertProof p) rest := by
  have hmem (q : MultisignatureProof) : q ∈ (b.insertProof p).proofs ↔ q ∈ b.proofs ∨ q = p := by
    rw [MultisignatureBundle.insertProof, (sortedBy_perm _ _).mem_iff]
    simp
  constructor
  · rintro ⟨distinct, fresh, valid⟩
    rw [List.map_cons, List.nodup_cons] at distinct
    refine ⟨fresh p (by simp), valid p (by simp), distinct.2, ?_, ?_⟩
    · intro q hq r hr
      rcases (hmem r).1 hr with hr | rfl
      · exact fresh q (by simp [hq]) r hr
      · intro heq
        exact distinct.1 (List.mem_map.2 ⟨q, hq, heq.symm⟩)
    · intro q hq
      exact (valid q (by simp [hq])).congr rfl
  · rintro ⟨hfresh, hvalid, distinct, fresh, valid⟩
    refine ⟨?_, ?_, ?_⟩
    · rw [List.map_cons, List.nodup_cons]
      refine ⟨fun hsame => ?_, distinct⟩
      obtain ⟨q, hq, heq⟩ := List.mem_map.1 hsame
      exact fresh q hq p ((hmem p).2 (.inr rfl)) heq.symm
    · intro q hq r hr
      rcases List.mem_cons.1 hq with rfl | hq
      · exact hfresh r hr
      · exact fresh q hq r ((hmem r).2 (.inl hr))
    · intro q hq
      rcases List.mem_cons.1 hq with rfl | hq
      · exact hvalid
      · exact (valid q hq).congr rfl

theorem merged_cons {b merged : MultisignatureBundle rt} {p : MultisignatureProof}
    {rest : List MultisignatureProof} (fresh : ∀ q ∈ b.proofs, q.signerId ≠ p.signerId) :
    Merged b (p :: rest) merged ↔ Merged (b.insertProof p) rest merged := by
  have hproofs := MultisignatureBundle.insertProof_proofs fresh
  constructor
  · rintro ⟨hbytes, h⟩
    exact ⟨hbytes, by rw [h, hproofs, insertAll_cons]⟩
  · rintro ⟨hbytes, h⟩
    exact ⟨hbytes, by rw [h, hproofs, insertAll_cons]⟩

/-- **Merging.** -/
theorem mergeProofs_eq_ok {b merged : MultisignatureBundle rt} {proofs : List MultisignatureProof} :
    mergeProofs b proofs = .ok merged ↔ Mergeable b proofs ∧ Merged b proofs merged := by
  induction proofs generalizing b with
  | nil =>
    have hempty : Mergeable b [] := ⟨List.nodup_nil, by simp, by simp⟩
    rw [mergeProofs, List.foldlM_nil, pure_eq_ok]
    constructor
    · rintro rfl
      exact ⟨hempty, rfl, rfl⟩
    · rintro ⟨-, hbytes, hproofs⟩
      exact (MultisignatureBundle.eq_of_fields hbytes hproofs).symm
  | cons p rest ih =>
    have hstep : mergeProofs b (p :: rest) = .ok merged ↔
        ∃ b', mergeProof b p = .ok b' ∧ mergeProofs b' rest = .ok merged := by
      rw [mergeProofs, List.foldlM_cons, bind_eq_ok]
      rfl
    rw [hstep, mergeable_cons]
    constructor
    · rintro ⟨b', hp, hrest⟩
      obtain ⟨fresh, hvalid, rfl⟩ := mergeProof_eq_ok.1 hp
      obtain ⟨hmergeable, hmerged⟩ := ih.1 hrest
      exact ⟨⟨fresh, hvalid, hmergeable⟩, (merged_cons fresh).2 hmerged⟩
    · rintro ⟨⟨fresh, hvalid, hmergeable⟩, hmerged⟩
      exact ⟨_, mergeProof_eq_ok.2 ⟨fresh, hvalid, rfl⟩,
        ih.2 ⟨hmergeable, (merged_cons fresh).1 hmerged⟩⟩

/-- Proofs that can be merged are merged. -/
theorem exists_merged {b : MultisignatureBundle rt} {proofs : List MultisignatureProof}
    (h : Mergeable b proofs) : ∃ merged, mergeProofs b proofs = .ok merged := by
  have hinserted : ∃ merged, Merged b proofs merged := by
    induction proofs generalizing b with
    | nil => exact ⟨b, rfl, rfl⟩
    | cons p rest ih =>
      obtain ⟨fresh, -, hrest⟩ := mergeable_cons.1 h
      obtain ⟨merged, hmerged⟩ := ih hrest
      exact ⟨merged, (merged_cons fresh).2 hmerged⟩
  obtain ⟨merged, hmerged⟩ := hinserted
  exact ⟨merged, mergeProofs_eq_ok.2 ⟨h, hmerged⟩⟩

/-- Proofs that can be merged in one order can be merged in any other, with the same result. -/
theorem mergeProofs_perm {b merged : MultisignatureBundle rt}
    {proofs proofs' : List MultisignatureProof}
    (h : proofs.Perm proofs') (hmerge : mergeProofs b proofs = .ok merged) :
    mergeProofs b proofs' = .ok merged := by
  obtain ⟨⟨distinct, fresh, valid⟩, hbytes, hproofs⟩ := mergeProofs_eq_ok.1 hmerge
  have hkeys : (proofs.map MultisignatureProof.sortKey).Nodup := by
    have hcomp : proofs.map MultisignatureProof.sortKey = (proofs.map (·.signerId)).map utf8 := by
      rw [List.map_map]
      rfl
    rw [hcomp]
    exact distinct.map utf8_injective
  rw [mergeProofs_eq_ok]
  refine ⟨⟨(h.map _).nodup_iff.1 distinct, ?_, ?_⟩, hbytes, ?_⟩
  · intro p hp
    exact fresh p (h.mem_iff.2 hp)
  · intro p hp
    exact valid p (h.mem_iff.2 hp)
  · rw [hproofs]
    exact insertAll_perm h hkeys _

/-- The proofs of a merged bundle are those it had and the new ones. -/
theorem Merged.perm {b merged : MultisignatureBundle rt} {proofs : List MultisignatureProof}
    (h : Merged b proofs merged) : merged.proofs.Perm (proofs ++ b.proofs) := by
  rw [h.proofs]
  exact insertAll_perm_append _ _

/-! ## Restoring -/

namespace MultisignatureBundle

/-- The bundle with every proof bound to it. -/
def rebound (b : MultisignatureBundle rt) : MultisignatureBundle rt :=
  { b with
    proofs := b.proofs.map fun p => { p with signedUpdateBytes := b.signedUpdateBytes }
    sorted := by
      have hpairwise := pairwise_sortedBy MultisignatureProof.sortKey b.proofs
      rw [b.sorted] at hpairwise
      apply List.Pairwise.insertionSort_eq
      rw [List.pairwise_map]
      exact hpairwise }

theorem rebound_eq_iff {b : MultisignatureBundle rt} : b.rebound = b ↔ b.Bound := by
  constructor
  · intro h p hp
    have hproofs : b.proofs.map (fun p => { p with signedUpdateBytes := b.signedUpdateBytes }) =
        b.proofs := congrArg (·.proofs) h
    rw [← hproofs] at hp
    obtain ⟨q, -, rfl⟩ := List.mem_map.1 hp
    rfl
  · intro h
    refine eq_of_fields rfl ?_
    have hsame : ∀ p ∈ b.proofs,
        ({ p with signedUpdateBytes := b.signedUpdateBytes } : MultisignatureProof) = p := by
      intro p hp
      rw [← h p hp]
    calc b.rebound.proofs = b.proofs.map id := List.map_congr_left hsame
      _ = b.proofs := List.map_id _

/-- **The bundle that is restored from the wire envelope.** -/
theorem fromCbor_toCbor (hrt : rt.Canonical) {b : MultisignatureBundle rt} {e : Bytes}
    (h : b.toCbor = .ok e) : fromCbor rt e = .ok b.rebound := by
  have hmake (p : MultisignatureProof) : MultisignatureProof.make b.signedUpdateBytes
      p.proof.signerId p.proof.signature =
      .ok { p with signedUpdateBytes := b.signedUpdateBytes } := by
    rw [MultisignatureProof.proof_signerId, MultisignatureProof.make, dif_neg p.nonempty]
    rfl
  have hmap (proofs : List MultisignatureProof) :
      (proofs.map (·.proof)).mapM (fun proof =>
        MultisignatureProof.make b.signedUpdateBytes proof.signerId proof.signature) =
      .ok (proofs.map fun p => { p with signedUpdateBytes := b.signedUpdateBytes }) := by
    induction proofs with
    | nil => rfl
    | cons p rest ih =>
      rw [List.map_cons, List.mapM_cons, hmake, ok_bind, ih, ok_bind]
      rfl
  have hproofs := hmap b.proofs
  rw [fromCbor, decode_toCbor hrt h, ok_bind, wireProofs, hproofs, ok_bind, make_eq_ok]
  exact ⟨rfl, b.rebound.sorted.symm⟩

end MultisignatureBundle

/-- A draft has no proofs. -/
theorem draftBundle_proofs {a : DraftArguments} {b : MultisignatureBundle rt}
    (h : draftBundle rt a = .ok b) : b.proofs = [] := by
  rw [draftBundle, bind_eq_ok] at h
  obtain ⟨bytes, -, hmake⟩ := h
  exact (MultisignatureBundle.make_eq_ok.1 hmake).2

theorem draftBundle_bound {a : DraftArguments} {b : MultisignatureBundle rt}
    (h : draftBundle rt a = .ok b) : b.Bound := by
  intro p hp
  rw [draftBundle_proofs h] at hp
  cases hp

/-- Merging keeps a bundle whose proofs are bound to it so. -/
theorem mergeProofs_bound {b merged : MultisignatureBundle rt} {proofs : List MultisignatureProof}
    (h : mergeProofs b proofs = .ok merged) (hbound : b.Bound) : merged.Bound := by
  obtain ⟨hmergeable, hmerged⟩ := mergeProofs_eq_ok.1 h
  intro p hp
  rw [hmerged.perm.mem_iff, List.mem_append] at hp
  rw [hmerged.signedUpdateBytes]
  rcases hp with hp | hp
  · exact (hmergeable.valid p hp).bound
  · exact hbound p hp

/-- **Merging does not depend on the order of the proofs.** Both orders are refused, or they give
one bundle, with one wire envelope. A bundle is restored from its wire envelope exactly when all its
proofs are bound to it. -/
theorem merging_order_independent (hrt : rt.Canonical) (b : MultisignatureBundle rt) :
    (∀ proofs proofs' : List MultisignatureProof, proofs.Perm proofs' →
      (mergeProofs b proofs).isOk = (mergeProofs b proofs').isOk ∧
      ∀ merged merged', mergeProofs b proofs = .ok merged → mergeProofs b proofs' = .ok merged' →
        merged = merged' ∧ merged.toCbor = merged'.toCbor) ∧
    ∀ e, b.toCbor = .ok e → (MultisignatureBundle.fromCbor rt e = .ok b ↔ b.Bound) := by
  constructor
  · intro proofs proofs' h
    constructor
    · have hiff : (∃ m, mergeProofs b proofs = .ok m) ↔ ∃ m, mergeProofs b proofs' = .ok m :=
        ⟨fun ⟨m, hm⟩ => ⟨m, mergeProofs_perm h hm⟩, fun ⟨m, hm⟩ => ⟨m, mergeProofs_perm h.symm hm⟩⟩
      rw [Bool.eq_iff_iff, isOk_iff, isOk_iff]
      exact hiff
    · intro merged merged' hmerge hmerge'
      have hsame : merged = merged' :=
        Except.ok.inj ((mergeProofs_perm h hmerge).symm.trans hmerge')
      exact ⟨hsame, by rw [hsame]⟩
  · intro e he
    rw [MultisignatureBundle.fromCbor_toCbor hrt he, Except.ok.injEq]
    exact MultisignatureBundle.rebound_eq_iff

/-- The two proofs of the genesis of `alice`, merged into its draft in the opposite order. -/
theorem identityGenesis_merged_reversed :
    ∃ draft b : MultisignatureBundle Sample.runtime, draft.proofs = [] ∧ b.proofs.length = 2 ∧
      (mergeProofs draft b.proofs.reverse).isOk = true ∧
      MultisignatureBundle.fromCbor Sample.runtime Sample.identityGenesis = .ok b := by
  have h : ((fun b => decide (b.toCbor = .ok Sample.identityGenesis ∧ b.proofs.length = 2 ∧
      (∀ p ∈ b.proofs, p.signedUpdateBytes = b.signedUpdateBytes) ∧
      (MultisignatureBundle.make Sample.runtime b.signedUpdateBytes [] >>=
        fun draft => mergeProofs draft b.proofs).isOk = true)) <$>
      MultisignatureBundle.fromCbor Sample.runtime Sample.identityGenesis) = .ok true := by
    decide +kernel
  obtain ⟨b, -, hcheck⟩ := map_eq_ok.1 h
  obtain ⟨hcbor, hlength, hbound, hmerge⟩ := of_decide_eq_true hcheck
  obtain ⟨merged, hmerged⟩ := isOk_iff.1 hmerge
  obtain ⟨draft, hdraft, hmerged⟩ := bind_eq_ok.1 hmerged
  have hreversed := (merging_order_independent Sample.runtime_canonical draft).1 b.proofs
    b.proofs.reverse (List.reverse_perm _).symm
  have hrestored := ((merging_order_independent Sample.runtime_canonical b).2 _ hcbor).2 hbound
  refine ⟨draft, b, (MultisignatureBundle.make_eq_ok.1 hdraft).2, hlength, ?_, hrestored⟩
  rw [← hreversed.1]
  exact isOk_iff.2 ⟨merged, hmerged⟩

/-- **A bundle that is not restored.** The genesis of `alice`, constructed directly from proofs that
are bound to other bytes, has a wire envelope that restores another bundle. -/
theorem unboundGenesis_not_restored : ∃ b : MultisignatureBundle Sample.runtime,
    b.toCbor = .ok Sample.identityGenesis ∧
      ∃ restored, MultisignatureBundle.fromCbor Sample.runtime Sample.identityGenesis =
        .ok restored ∧ restored ≠ b := by
  obtain ⟨b, -, -, hcbor, hraises⟩ := Sample.exists_unboundGenesis
  have hfinal : (MultisignatureBundle.fromCbor Sample.runtime Sample.identityGenesis >>=
      finalizeBundle).isOk = true := by decide +kernel
  obtain ⟨e, he⟩ := isOk_iff.1 hfinal
  obtain ⟨restored, hrestored, he⟩ := bind_eq_ok.1 he
  refine ⟨b, hcbor, restored, hrestored, ?_⟩
  rintro rfl
  rw [he] at hraises
  cases hraises

end DecentRegistry
