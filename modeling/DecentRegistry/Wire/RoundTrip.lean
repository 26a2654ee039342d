import DecentRegistry.Foundations.CborOrder
import DecentRegistry.Sample.Records
import DecentRegistry.Wire.Codec

/-!
# Decoding what was encoded

A multisignature SignedUpdate is decoded as it was encoded, with its signers sorted, and a
multisignature envelope with its proofs sorted, null first. Neither depends on the order in which
signers or proofs are given (`multisignatureRecord_roundTrip`).
-/

namespace DecentRegistry

open Fallible PyValue DistinctReading

variable {rt : Runtime}

/-! ## SignedUpdates -/

/-- A SignedUpdate that is encoded is decoded. -/
theorem decode_of_encode_signedUpdate (hrt : rt.Canonical) {recordFields payload : Dict}
    {seq authorization : Value} {b : Bytes} (fieldKeys : (recordFields.map (·.1)).Nodup)
    (payloadKeys : (payload.map (·.1)).Nodup)
    (h : encodeMultisignatureSignedUpdate rt recordFields payload seq authorization = .ok b) :
    ∃ n entries signerSet a, seq = natValue n ∧ authorization = .dict entries ∧
      Authorization.IsRead a entries signerSet ∧
      decodeMultisignatureSignedUpdate rt b =
        .ok ⟨sortByKey recordFields, sortByKey payload, n, a.sorted⟩ := by
  obtain ⟨n, entries, signerSet, a, rfl, rfl, hread, hfields, hpayload, hbinding, hdumps⟩ :=
    encodeMultisignatureSignedUpdate_eq_ok.1 h
  refine ⟨n, entries, signerSet, a, rfl, rfl, hread, ?_⟩
  have hf : NatKeyed recordFields := ⟨hfields, fieldKeys⟩
  have hp : NatKeyed payload := ⟨hpayload, payloadKeys⟩
  have hfperm : recordFields.Perm (sortByKey recordFields) := (sortByKey_perm _).symm
  have hpperm : payload.Perm (sortByKey payload) := (sortByKey_perm _).symm
  obtain ⟨hwire, hordered⟩ := MultisignatureUpdate.ordered_toValue
    ⟨recordFields, payload, n, a.sorted⟩ hf hp hbinding
  obtain ⟨entries', hentries', hread'⟩ := hread.toValue
  refine decodeMultisignatureSignedUpdate_iff.2 ⟨_, hrt.loadsDict hwire hordered hdumps, ?_⟩
  exact
    { keys := rfl
      recordFields := rfl
      payload := rfl
      fieldKeys := (hf.perm hfperm).key
      payloadKeys := (hp.perm hpperm).key
      seq := rfl
      authorization := ⟨entries', _, congrArg some hentries', hread'⟩
      sorted := a.sorted_sorted
      binding := hbinding.perm hf hp hfperm hpperm }

/-! ## Envelopes -/

theorem Proof.inOrder_toValue (proof : Proof) : InOrder proof.toValue := by
  have hdict {id : Atom} (hid : InOrder (.atom id)) :
      InOrder (.dict (natEntries [(1, .atom id), (2, .atom (.bytes proof.signature))])) :=
    .natEntries (by simp) (by simpa using ⟨hid, .atom (.bytes _)⟩)
  refine @hdict _ ?_
  cases proof.signerId with
  | none => exact .atom .none
  | some t => exact .atom (.text t)

/-- Proofs that were read are read back from what is written for them, in any order. -/
theorem ReadsProofs.toValue {list : List Value} {proofs proofs' : List Proof}
    (h : ReadsProofs list proofs) (hperm : proofs'.Perm proofs) :
    ReadsProofs (proofs'.map Proof.toValue) proofs' := by
  refine ⟨?_, hperm.symm.pairwise h.apart fun {a b} hab => hab.symm⟩
  rw [List.forall₂_map_left_iff, List.forall₂_same]
  intro proof hproof
  obtain ⟨_, -, map, -, hread⟩ := exists_read h.reads (hperm.mem_iff.1 hproof)
  exact ⟨_, rfl, rfl, rfl, hread.bounded, rfl, hread.length⟩

/-- The dictionary that is written for an envelope. -/
def MultisignatureEnvelope.toValue (envelope : MultisignatureEnvelope) : Value :=
  .dict [(.int 1, .atom (.int envelope.version)),
    (.int 2, .atom (.bytes envelope.signedUpdateBytes)),
    (.int 3, .list (envelope.proofs.map Proof.toValue))]

theorem MultisignatureEnvelope.inOrder_toValue (envelope : MultisignatureEnvelope) :
    InOrder envelope.toValue := by
  have hproofs : InOrder (.list (envelope.proofs.map Proof.toValue)) := by
    refine .list fun v hv => ?_
    obtain ⟨proof, -, rfl⟩ := List.mem_map.1 hv
    exact proof.inOrder_toValue
  have h := InOrder.natEntries (l := [(1, .atom (.int envelope.version)),
    (2, .atom (.bytes envelope.signedUpdateBytes)),
    (3, .list (envelope.proofs.map Proof.toValue))]) (by simp) ?_
  · exact h
  · simpa using ⟨.atom (.int _), .atom (.bytes _), hproofs⟩

/-- **The encoder of envelopes** writes the proofs it was given, sorted. -/
theorem encodeMultisignatureEnvelope_eq_ok {signedUpdateBytes b : Bytes} {proofs : Value} :
    encodeMultisignatureEnvelope rt signedUpdateBytes proofs = .ok b ↔
      ∃ list read u, proofs = .list list ∧ ReadsProofs list read ∧
        decodeMultisignatureSignedUpdate rt signedUpdateBytes = .ok u ∧
        rt.dumps (MultisignatureEnvelope.toValue
          ⟨1, signedUpdateBytes, sortedBy proofSortKey read⟩) = some b := by
  simp only [encodeMultisignatureEnvelope, bind_eq_ok, canonicalCbor, orRaise_eq_ok,
    show validateProofs proofs true false = validateProofs proofs true (!true) from rfl,
    validateProofs_eq_ok]
  constructor
  · rintro ⟨u, hu, _, ⟨list, read, rfl, hread, rfl, -⟩, hdumps⟩
    exact ⟨list, read, u, rfl, hread, hu, hdumps⟩
  · rintro ⟨list, read, u, rfl, hread, hu, hdumps⟩
    exact ⟨u, hu, _, ⟨list, read, rfl, hread, rfl, by simp⟩, hdumps⟩

/-- An envelope that is encoded is decoded. -/
theorem decode_of_encode_envelope (hrt : rt.Canonical) {signedUpdateBytes b : Bytes}
    {proofs : Value} (h : encodeMultisignatureEnvelope rt signedUpdateBytes proofs = .ok b) :
    ∃ list read, proofs = .list list ∧ ReadsProofs list read ∧
      decodeMultisignatureEnvelope rt b =
        .ok ⟨1, signedUpdateBytes, sortedBy proofSortKey read⟩ := by
  obtain ⟨list, read, u, rfl, hread, hu, hdumps⟩ := encodeMultisignatureEnvelope_eq_ok.1 h
  refine ⟨list, read, rfl, hread, ?_⟩
  have hinOrder := MultisignatureEnvelope.inOrder_toValue
    ⟨1, signedUpdateBytes, sortedBy proofSortKey read⟩
  refine decodeMultisignatureEnvelope_eq_ok.2
    ⟨_, hrt.loadsDict hinOrder.wire hinOrder.ordered hdumps, ?_⟩
  exact
    { keys := rfl
      version := rfl
      supported := rfl
      signedUpdateBytes := rfl
      signedUpdate := ⟨u, hu⟩
      proofs := ⟨_, rfl, hread.toValue (sortedBy_perm proofSortKey read)⟩
      sorted := sortedBy_sortedBy proofSortKey read }

/-! ## Order -/

/-- Signers in another order are read and sorted to the same list. -/
theorem ReadsSigners.perm {list list' : List Value} {signers : List SignerEntry}
    (h : ReadsSigners list signers) (hperm : list'.Perm list) :
    ∃ signers', ReadsSigners list' signers' ∧ signers'.length = signers.length ∧
      sortedBy signerSortKey signers' = sortedBy signerSortKey signers := by
  obtain ⟨signers', hsigners, hreads, hapart⟩ :=
    collect_perm (fun _ _ => SignerEntry.apart_symm) hperm h.reads h.apart
  refine ⟨signers', ⟨hreads, hapart⟩, hsigners.length_eq, sortedBy_congr hsigners ?_⟩
  exact hapart.imp fun hab hkey => hab.1 (utf8_injective hkey)

/-- An authorization map in which the signers are in another order. -/
theorem Authorization.IsRead.perm {a : Authorization} {map : Dict}
    {signerSet signerSet' : List Value}
    (h : a.IsRead map signerSet) (hperm : signerSet'.Perm signerSet) :
    ∃ a', Authorization.IsRead a' (Dict.set map 6 (.list signerSet')) signerSet' ∧
      a'.recordKind = a.recordKind ∧ a'.sorted = a.sorted := by
  obtain ⟨signers', hreads, hlength, hsorted⟩ := h.reads.perm hperm
  have hget (n : Int) (hn : n ≠ 6) : Dict.get? (Dict.set map 6 (.list signerSet')) n = map.get? n :=
    get?_set_of_ne hn
  refine ⟨{ a with signerSet := signers' }, ?_, rfl, ?_⟩
  · exact
      { keys := (keysAre_set map 6 _ _).trans h.keys
        scheme := (hget 1 (by simp)).trans h.scheme
        supported := h.supported
        recordKind := (hget 2 (by simp)).trans h.recordKind
        operation := (hget 3 (by simp)).trans h.operation
        epoch := (hget 4 (by simp)).trans h.epoch
        threshold := (hget 5 (by simp)).trans h.threshold
        signers := get?_set_self h.signers
        nonempty := by
          rintro rfl
          exact h.nonempty hperm.symm.eq_nil
        reads := hreads
        threshold_pos := h.threshold_pos
        threshold_le := hlength ▸ h.threshold_le
        predecessor := (hget 7 (by simp)).trans h.predecessor
        length := h.length }
  · simp [Authorization.sorted, hsorted]

/-- The null identifier, and only it, has the empty key. -/
theorem proofSortKey_eq {map map' : Dict} {p q : Proof} (hp : p.IsRead map) (hq : q.IsRead map')
    (h : proofSortKey p = proofSortKey q) : p.signerId = q.signerId := by
  have hbp := hp.bounded
  have hbq := hq.bounded
  unfold proofSortKey at h
  cases hpid : p.signerId with
  | none =>
    cases hqid : q.signerId with
    | none => rfl
    | some t =>
      simp only [hpid, hqid] at h
      exact absurd h.symm (utf8_ne_nil (hbq t hqid).1)
  | some s =>
    cases hqid : q.signerId with
    | none =>
      simp only [hpid, hqid] at h
      exact absurd h (utf8_ne_nil (hbp s hpid).1)
    | some t =>
      simp only [hpid, hqid] at h
      rw [utf8_injective h]

theorem ReadsProofs.keys_apart {list : List Value} {proofs : List Proof}
    (h : ReadsProofs list proofs) :
    proofs.Pairwise fun p q => proofSortKey p ≠ proofSortKey q := by
  refine h.apart.imp_of_mem fun {p q} hp hq hne hkey => hne ?_
  obtain ⟨_, -, _, -, hpread⟩ := exists_read h.reads hp
  obtain ⟨_, -, _, -, hqread⟩ := exists_read h.reads hq
  exact proofSortKey_eq hpread hqread hkey

/-- Proofs in another order are read and sorted to the same list. -/
theorem ReadsProofs.perm {list list' : List Value} {proofs : List Proof}
    (h : ReadsProofs list proofs) (hperm : list'.Perm list) :
    ∃ proofs', ReadsProofs list' proofs' ∧
      sortedBy proofSortKey proofs' = sortedBy proofSortKey proofs := by
  obtain ⟨proofs', hproofs, hreads, hapart⟩ :=
    collect_perm (fun _ _ hab => hab.symm) hperm h.reads h.apart
  have hread : ReadsProofs list' proofs' := ⟨hreads, hapart⟩
  exact ⟨proofs', hread, sortedBy_congr hproofs hread.keys_apart⟩

/-- The null identifier comes first. -/
theorem ReadsProofs.null_first {list : List Value} {proofs : List Proof}
    (h : ReadsProofs list proofs) :
    ∀ p ∈ (sortedBy proofSortKey proofs).tail, p.signerId ≠ none := by
  have hread := h.toValue (sortedBy_perm proofSortKey proofs)
  have hsorted := pairwise_sortedBy proofSortKey proofs
  have hapart := hread.keys_apart
  cases hproofs : sortedBy proofSortKey proofs with
  | nil => simp
  | cons first rest =>
    intro p hp hnone
    rw [hproofs, List.pairwise_cons] at hsorted hapart
    have hle : proofSortKey first ≤ proofSortKey p := hsorted.1 p hp
    have hempty : proofSortKey p = [] := by simp [proofSortKey, hnone]
    refine hapart.1 p hp (List.le_antisymm hle ?_)
    rw [hempty]
    exact List.nil_le _

/-! ## The round trip -/

/-- **Decoding undoes encoding, and encoding ignores the order** of signers and of proofs. -/
theorem multisignatureRecord_roundTrip (rt : Runtime) (hrt : rt.Canonical) :
    (∀ (recordFields payload : Dict) (seq authorization : Value) (b : Bytes),
      (recordFields.map (·.1)).Nodup → (payload.map (·.1)).Nodup →
      encodeMultisignatureSignedUpdate rt recordFields payload seq authorization = .ok b →
      ∃ recordFields' payload' n entries signerSet a, recordFields'.Perm recordFields ∧
        payload'.Perm payload ∧ seq = natValue n ∧ authorization = .dict entries ∧
        Authorization.IsRead a entries signerSet ∧ decodeMultisignatureSignedUpdate rt b =
          .ok ⟨recordFields', payload', n,
            { a with signerSet := sortedBy signerSortKey a.signerSet }⟩) ∧
    (∀ (signedUpdateBytes : Bytes) (proofs : Value) (b : Bytes),
      encodeMultisignatureEnvelope rt signedUpdateBytes proofs = .ok b →
      ∃ list read, proofs = .list list ∧ ReadsProofs list read ∧
        decodeMultisignatureEnvelope rt b =
          .ok ⟨1, signedUpdateBytes, sortedBy proofSortKey read⟩ ∧
        ∀ p ∈ (sortedBy proofSortKey read).tail, p.signerId ≠ none) ∧
    (∀ (recordFields payload entries : Dict) (seq : Value) (signerSet signerSet' : List Value)
      (b : Bytes), entries.get? 6 = some (.list signerSet) → signerSet'.Perm signerSet →
      encodeMultisignatureSignedUpdate rt recordFields payload seq (.dict entries) = .ok b →
      encodeMultisignatureSignedUpdate rt recordFields payload seq
        (.dict (Dict.set entries 6 (.list signerSet'))) = .ok b) ∧
    ∀ (signedUpdateBytes : Bytes) (proofs proofs' : List Value) (b : Bytes), proofs'.Perm proofs →
      encodeMultisignatureEnvelope rt signedUpdateBytes (.list proofs) = .ok b →
      encodeMultisignatureEnvelope rt signedUpdateBytes (.list proofs') = .ok b := by
  refine ⟨?_, ?_, ?_, ?_⟩
  · intro recordFields payload seq authorization b fieldKeys payloadKeys h
    obtain ⟨n, entries, signerSet, a, hseq, hentries, hread, hdecode⟩ :=
      decode_of_encode_signedUpdate hrt fieldKeys payloadKeys h
    exact ⟨_, _, n, entries, signerSet, a, sortByKey_perm _, sortByKey_perm _, hseq,
      hentries, hread,
      hdecode⟩
  · intro signedUpdateBytes proofs b h
    obtain ⟨list, read, hlist, hread, hdecode⟩ := decode_of_encode_envelope hrt h
    exact ⟨list, read, hlist, hread, hdecode, hread.null_first⟩
  · intro recordFields payload entries seq signerSet signerSet' b hsigners hperm h
    obtain ⟨n, _, signers, a, rfl, hentries, hread, hfields, hpayload, hbinding, hdumps⟩ :=
      encodeMultisignatureSignedUpdate_eq_ok.1 h
    obtain rfl : entries = _ := by simpa using hentries
    obtain rfl : signers = signerSet := by simpa using hread.signers.symm.trans hsigners
    obtain ⟨a', hread', hkind, hsorted⟩ := hread.perm hperm
    exact encodeMultisignatureSignedUpdate_eq_ok.2
      ⟨n, _, _, a', rfl, rfl, hread', hfields, hpayload,
      hkind ▸ hbinding, hsorted ▸ hdumps⟩
  · intro signedUpdateBytes proofs proofs' b hperm h
    obtain ⟨list, read, u, hlist, hread, hu, hdumps⟩ := encodeMultisignatureEnvelope_eq_ok.1 h
    obtain rfl : proofs = list := by simpa using hlist
    obtain ⟨read', hread', hsorted⟩ := hread.perm hperm
    exact encodeMultisignatureEnvelope_eq_ok.2 ⟨_, read', u, rfl, hread', hu, hsorted ▸ hdumps⟩

theorem Sample.runtime_canonical : Sample.runtime.Canonical :=
  ⟨fun _ _ hv h => Cbor.decode_encode_ordered hv h, fun _ hv => Cbor.encode_ordered hv⟩

namespace Sample

/-- The authorization of a genesis with the signers in the given order. -/
def unsortedAuthorization (names : List Char) : Value :=
  (identityAuthorization .genesis 1 names (List.replicate 32 0)).toValue

end Sample

/-- Signers in another than the canonical order, and record fields in descending order. -/
theorem sampleGenesis_roundTrip :
    ∃ b u, encodeMultisignatureSignedUpdate Sample.runtime (Sample.identityFields 'a').reverse []
        (natValue 1) (Sample.unsortedAuthorization ['c', 'a', 'b']) = .ok b ∧
      decodeMultisignatureSignedUpdate Sample.runtime b = .ok u ∧
      u.recordFields.Perm (Sample.identityFields 'a') := by
  have h := eq_ok_valueOf (x := encodeMultisignatureSignedUpdate Sample.runtime
    (Sample.identityFields 'a').reverse [] (natValue 1)
    (Sample.unsortedAuthorization ['c', 'a', 'b'])) (by decide +kernel)
  obtain ⟨fields, payload, n, entries, signerSet, a, hfields, -, -, -, -, hdecode⟩ :=
    (multisignatureRecord_roundTrip Sample.runtime Sample.runtime_canonical).1 _ _ _ _ _
      (by decide) (by decide) h
  exact ⟨_, _, h, hdecode, hfields.trans (List.reverse_perm _)⟩

end DecentRegistry
