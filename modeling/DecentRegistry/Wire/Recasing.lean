import DecentRegistry.Wire.Decoders

/-!
# Object hashes in another letter case

The object hash of a Provider payload is 64 hexadecimal digits of either case. `Recased` relates an
envelope to one with the object hash in another letter case, signed anew with the same keys, on what
`cbor2` loads; the decoders accept the one if they accept the other
(`RecasedUpdate.decode`, `Recased.decodeSignedEnvelope`,
`Recased.decodeMultisignatureEnvelope`).
-/

namespace DecentRegistry

open Fallible PyValue DistinctReading ProviderUri

variable {rt : Runtime}

/-! ## Letter case -/

/-- The texts have the same letters, up to case. -/
def SameLetters (s t : Text) : Prop := s.map toLower = t.map toLower

theorem toLower_of_not_upper {c : Char} (h : ¬ ('A' ≤ c ∧ c ≤ 'Z')) : toLower c = c := if_neg h

/-- The capital letters. -/
theorem exists_upper {P : Char → Prop} (h : ∀ n ∈ List.range 26, P (Char.ofNat (65 + n))) {c : Char}
    (hc : 'A' ≤ c ∧ c ≤ 'Z') : P c := by
  have hlow : 65 ≤ c.toNat := hc.1
  have hhigh : c.toNat ≤ 90 := hc.2
  have hP := h (c.toNat - 65) (List.mem_range.2 (by omega))
  rwa [Nat.add_sub_cancel' hlow, Char.ofNat_toNat] at hP

theorem hexDigit?_toLower (c : Char) : hexDigit? (toLower c) = hexDigit? c := by
  by_cases hc : 'A' ≤ c ∧ c ≤ 'Z'
  · exact exists_upper (P := fun c => hexDigit? (toLower c) = hexDigit? c) (by decide) hc
  · rw [toLower_of_not_upper hc]

theorem isAsciiSpace_toLower (c : Char) : isAsciiSpace (toLower c) = isAsciiSpace c := by
  by_cases hc : 'A' ≤ c ∧ c ≤ 'Z'
  · exact exists_upper (P := fun c => isAsciiSpace (toLower c) = isAsciiSpace c) (by decide) hc
  · rw [toLower_of_not_upper hc]

theorem fromHex?_map_toLower (s : Text) : fromHex? (s.map toLower) = fromHex? s := by
  induction s using fromHex?.induct with
  | case1 => rfl
  | case2 c hspace => simp [fromHex?, isAsciiSpace_toLower, hspace]
  | case3 c hspace => simp [fromHex?, isAsciiSpace_toLower, hspace]
  | case4 c d rest hspace ih =>
    rw [List.map_cons] at ih
    simp [fromHex?, isAsciiSpace_toLower, hspace, ih]
  | case5 c d rest hspace ih =>
    simp [fromHex?, isAsciiSpace_toLower, hexDigit?_toLower, hspace, ih]

theorem all_isHexDigit_map_toLower (s : Text) :
    (s.map toLower).all isHexDigit = s.all isHexDigit := by
  have hdigit : isHexDigit ∘ toLower = isHexDigit := by
    funext c
    simp [isHexDigit, hexDigit?_toLower]
  rw [List.all_map, hdigit]

namespace SameLetters

variable {s t : Text}

theorem length_eq (h : SameLetters s t) : s.length = t.length := by
  simpa using congrArg List.length h

/-- Hexadecimal texts in different letter cases stand for the same bytes. -/
theorem fromHex_eq (h : SameLetters s t) : fromHex s = fromHex t := by
  rw [fromHex, fromHex, ← fromHex?_map_toLower s, h, fromHex?_map_toLower]

theorem isObjectHash_eq (h : SameLetters s t) : isObjectHash s = isObjectHash t := by
  rw [isObjectHash, isObjectHash, h.length_eq, ← all_isHexDigit_map_toLower s, h,
    all_isHexDigit_map_toLower]

end SameLetters

/-! ## Payloads -/

/-- The payload with another object hash. -/
def recase (payload : Dict) (hash : Text) : Dict := payload.set 3 (.atom (.text hash))

/-- The decoded payload with another object hash. -/
def ProviderPayload.withHash (hash : Text) : ProviderPayload → ProviderPayload
  | .active p => .active { p with objectHash := hash }
  | .withdrawn p => .withdrawn { p with objectHash := hash }

@[simp] theorem ProviderPayload.isWithdrawn_withHash (hash : Text) (p : ProviderPayload) :
    (p.withHash hash).isWithdrawn = p.isWithdrawn := by cases p <;> rfl

@[simp] theorem ProviderPayload.objectHash_withHash (hash : Text) (p : ProviderPayload) :
    (p.withHash hash).objectHash = hash := by cases p <;> rfl

/-- Setting a value keeps the keys. -/
theorem any_set (d : Dict) (n : Int) (v : Value) (P : Atom → Bool) :
    (d.set n v).any (fun e => P e.1) = d.any fun e => P e.1 := by
  rw [Dict.set, List.any_map]
  congr 1
  funext e
  dsimp only [Function.comp_apply]
  split <;> rfl

theorem has_set (d : Dict) (n : Int) (v : Value) (m : Int) : (d.set n v).has m = d.has m :=
  any_set d n v (·.isInt m)

theorem validateObjectHash_eq_ok {v : Value} {name : String} {hash : Text} :
    validateObjectHash v name = .ok hash ↔ v = .atom (.text hash) ∧ isObjectHash hash = true := by
  simp only [validateObjectHash, bind_eq_ok, orRaise_eq_ok, raiseIf_eq_ok, pure_eq_ok, exists_const,
    Value.asText?_eq_some]
  constructor
  · rintro ⟨_, rfl, hhash, rfl⟩
    exact ⟨rfl, by simpa using hhash⟩
  · rintro ⟨rfl, hhash⟩
    exact ⟨hash, rfl, by simp [hhash], rfl⟩

section

variable {payload : Dict} {hash hash' : Text}

theorem decodeWithdrawnPayload_recase {p : ProviderWithdrawnPayloadV2} (hs : SameLetters hash hash')
    (hhash : payload.get? 3 = some (.atom (.text hash)))
    (h : decodeWithdrawnPayload payload = .ok p) :
    p.objectHash = hash ∧
      decodeWithdrawnPayload (recase payload hash') = .ok { p with objectHash := hash' } := by
  have hget (n : Int) (hn : n ≠ 3) : (recase payload hash').get? n = payload.get? n :=
    get?_set_of_ne hn
  have hself : (recase payload hash').get? 3 = some (.atom (.text hash')) := get?_set_self hhash
  unfold decodeWithdrawnPayload at h ⊢
  rw [recase, has_set, ← recase]
  cases hreplaced : payload.has 5 with
  | false =>
    simp only [hreplaced, Bool.false_eq_true, if_false, bind_eq_ok, raiseIf_eq_ok, getItem_eq_ok,
      exists_const, pure_eq_ok, validateObjectHash_eq_ok] at h ⊢
    obtain ⟨hkeys, v₁, h₁, alg, halg, v₃, h₃, hash₃, ⟨rfl, hvalid⟩, v₄, h₄, hstatus, _, rfl, rfl⟩ :=
      h
    obtain ⟨⟩ := Option.some.inj (hhash.symm.trans h₃)
    refine ⟨rfl, ?_, v₁, by rwa [hget 1 (by decide)], alg, halg, _, hself, hash',
      ⟨rfl, hs.isObjectHash_eq ▸ hvalid⟩, v₄, by rwa [hget 4 (by decide)], hstatus, _, rfl, rfl⟩
    rwa [recase, keysAre_set, keysAre_set]
  | true =>
    simp only [hreplaced, if_true, bind_eq_ok, raiseIf_eq_ok, getItem_eq_ok,
      exists_const, pure_eq_ok, validateObjectHash_eq_ok] at h ⊢
    obtain ⟨hkeys, v₁, h₁, alg, halg, v₃, h₃, hash₃, ⟨rfl, hvalid⟩, v₄, h₄, hstatus, v₅, h₅,
      replacement, ⟨rfl, hvalid'⟩, bytes, hbytes, bytes', hbytes', hne, _, rfl, rfl⟩ := h
    obtain ⟨⟩ := Option.some.inj (hhash.symm.trans h₃)
    refine ⟨rfl, ?_, v₁, by rwa [hget 1 (by decide)], alg, halg, _, hself, hash',
      ⟨rfl, hs.isObjectHash_eq ▸ hvalid⟩, v₄, by rwa [hget 4 (by decide)], hstatus, _,
      by rwa [hget 5 (by decide)], replacement, ⟨rfl, hvalid'⟩, bytes, hbytes, bytes',
      hs.fromHex_eq ▸ hbytes', hne, _, rfl, rfl⟩
    rwa [recase, keysAre_set, keysAre_set]

theorem decodeActivePayload_recase {p : ProviderPayloadV3} (hs : SameLetters hash hash')
    (hhash : payload.get? 3 = some (.atom (.text hash)))
    (h : decodeActivePayload payload = .ok p) :
    p.objectHash = hash ∧
      decodeActivePayload (recase payload hash') = .ok { p with objectHash := hash' } := by
  have hget (n : Int) (hn : n ≠ 3) : (recase payload hash').get? n = payload.get? n :=
    get?_set_of_ne hn
  have hself : (recase payload hash').get? 3 = some (.atom (.text hash')) := get?_set_self hhash
  simp only [decodeActivePayload, bind_eq_ok, raiseIf_eq_ok, getItem_eq_ok, exists_const,
    pure_eq_ok,
    orRaise_eq_ok, validateObjectHash_eq_ok] at h ⊢
  obtain ⟨hkeys, v₂, h₂, version, hversion, hthree, v₁, h₁, alg, halg, v₅, h₅,
    endpoints, hendpoints,
    valid, hvalid, hsorted, v₄, h₄, urls, hurls, normalized, hnormalized, heq, v₃, h₃, hash₃,
    ⟨rfl, hhash₃⟩, rfl⟩ := h
  obtain ⟨⟩ := Option.some.inj (hhash.symm.trans h₃)
  refine ⟨rfl, ?_, v₂, by rwa [hget 2 (by decide)], version, hversion, hthree, v₁,
    by rwa [hget 1 (by decide)], alg, halg, v₅, by rwa [hget 5 (by decide)], endpoints, hendpoints,
    valid, hvalid, hsorted, v₄, by rwa [hget 4 (by decide)], urls, hurls, normalized, hnormalized,
    heq, _, hself, hash', ⟨rfl, hs.isObjectHash_eq ▸ hhash₃⟩, rfl⟩
  rwa [recase, keysAre_set]

/-- **A payload decodes in either letter case**, to the same but for the object hash. -/
theorem decodeProviderPayloadDict_recase {p : ProviderPayload} (hs : SameLetters hash hash')
    (hhash : payload.get? 3 = some (.atom (.text hash)))
    (h : decodeProviderPayloadDict payload = .ok p) :
    p.objectHash = hash ∧
      decodeProviderPayloadDict (recase payload hash') = .ok (p.withHash hash') := by
  have hversion : isVersion2 (recase payload hash') = isVersion2 payload := by
    rw [isVersion2, isVersion2, recase, get?_set_of_ne (by decide)]
  unfold decodeProviderPayloadDict at h ⊢
  rw [hversion]
  split at h
  · rename_i htwo
    rw [if_pos htwo]
    obtain ⟨p, hp, rfl⟩ := map_eq_ok.1 h
    obtain ⟨hhash, hp'⟩ := decodeWithdrawnPayload_recase hs hhash hp
    exact ⟨hhash, map_eq_ok.2 ⟨_, hp', rfl⟩⟩
  · rename_i htwo
    rw [if_neg htwo]
    obtain ⟨p, hp, rfl⟩ := map_eq_ok.1 h
    obtain ⟨hhash, hp'⟩ := decodeActivePayload_recase hs hhash hp
    exact ⟨hhash, map_eq_ok.2 ⟨_, hp', rfl⟩⟩

end

/-! ## SignedUpdates -/

section

variable {map payload : Dict} {hash hash' : Text}

theorem validateUintKeys_recase (name : String) :
    validateUintKeys (recase payload hash') name = validateUintKeys payload name := by
  rw [validateUintKeys, recase, any_set _ _ _ (!isUint ·)]
  rfl

theorem RecordBinding.recase {recordFields : Dict} {kind : RecordKind} (hs : SameLetters hash hash')
    (hhash : payload.get? 3 = some (.atom (.text hash)))
    (h : RecordBinding recordFields payload kind) :
    RecordBinding recordFields (recase payload hash') kind := by
  cases kind with
  | identity =>
    obtain ⟨-, rfl, -⟩ := h
    cases hhash
  | provider =>
    obtain ⟨hkeys, howner, p, hp⟩ := h
    exact ⟨hkeys, howner, _, (decodeProviderPayloadDict_recase hs hhash hp).2⟩

/-- A decoded SignedUpdate in the other letter case. -/
theorem validateDecodedSignedUpdate_recase {u : SignedUpdate} (hs : SameLetters hash hash')
    (hpayload : map.get? 2 = some (.dict payload))
    (hhash : payload.get? 3 = some (.atom (.text hash)))
    (h : validateDecodedSignedUpdate map = .ok u) :
    u.payload = payload ∧
      validateDecodedSignedUpdate (map.set 2 (.dict (recase payload hash'))) =
        .ok { u with payload := recase payload hash' } := by
  have hget (n : Int) (hn : n ≠ 2) :
      (map.set 2 (.dict (recase payload hash'))).get? n = map.get? n := get?_set_of_ne hn
  have hself : (map.set 2 (.dict (recase payload hash'))).get? 2 =
      some (.dict (recase payload hash')) := get?_set_self hpayload
  unfold validateDecodedSignedUpdate at h ⊢
  rw [hget 4 (by decide), keysAre_set, keysAre_set]
  cases hauthorization : map.get? 4 with
  | none =>
    simp only [hauthorization, bind_eq_ok, raiseIf_eq_ok, getItem_eq_ok, orRaise_eq_ok,
      Value.asDict?_eq_some, exists_const, pure_eq_ok] at h ⊢
    obtain ⟨hkeys, v₁, h₁, fields, rfl, v₂, h₂, payload₂, rfl, _, hfields, _, huint,
      v₃, h₃, seq, hseq,
      rfl⟩ := h
    obtain ⟨⟩ := Option.some.inj (hpayload.symm.trans h₂)
    exact ⟨rfl, hkeys, _, by rwa [hget 1 (by decide)], fields, rfl, _, hself, _, rfl, (), hfields,
      (), by rwa [validateUintKeys_recase], v₃, by rwa [hget 3 (by decide)], seq, hseq, rfl⟩
  | some value =>
    simp only [hauthorization, bind_eq_ok, raiseIf_eq_ok, getItem_eq_ok, orRaise_eq_ok,
      Value.asDict?_eq_some, exists_const, pure_eq_ok, validateRecordKindBinding_eq_ok] at h ⊢
    obtain ⟨hkeys, v₁, h₁, fields, rfl, v₂, h₂, payload₂, rfl, _, hfields, _, huint, v₃,
      h₃, seq, hseq, a,
      ha, hbinding, rfl⟩ := h
    obtain ⟨⟩ := Option.some.inj (hpayload.symm.trans h₂)
    exact ⟨rfl, hkeys, _, by rwa [hget 1 (by decide)], fields, rfl, _, hself, _, rfl, (), hfields,
      (), by rwa [validateUintKeys_recase], v₃, by rwa [hget 3 (by decide)], seq, hseq, a, ha,
      hbinding.recase hs hhash, rfl⟩

end

/-! ## Envelopes -/

/-- The SignedUpdate is that with the object hash in another letter case, in canonical CBOR. -/
structure RecasedUpdate (rt : Runtime) (hash hash' : Text) (u u' : Bytes) : Prop where
  sameLetters : SameLetters hash hash'
  loads : ∃ map payload : Dict, rt.loads u = some (.dict map) ∧
    map.get? 2 = some (.dict payload) ∧ payload.get? 3 = some (.atom (.text hash)) ∧
    LoadsDict rt u' (map.set 2 (.dict (recase payload hash')))

/-- Whose signature of the one SignedUpdate the first is, the second is theirs of the other. -/
structure Resigned (rt : Runtime) (u u' signature signature' : Bytes) : Prop where
  length : signature'.length = signature.length
  keys : ∀ key, verifyEd25519Signature rt key u signature = .ok true →
    verifyEd25519Signature rt key u' signature' = .ok true

/-- A proof, signed anew. -/
def ResignedProof (rt : Runtime) (u u' : Bytes) (v v' : Value) : Prop :=
  ∃ (map : Dict) (signature signature' : Bytes), v = .dict map ∧
    map.get? 2 = some (.atom (.bytes signature)) ∧
      v' = .dict (map.set 2 (.atom (.bytes signature'))) ∧
    Resigned rt u u' signature signature'

/-- **The second envelope is the first with the object hash in another letter case**, signed anew
with the same keys. -/
inductive Recased (rt : Runtime) (hash hash' : Text) (e e' : Bytes) : Prop
  | legacy {map : Dict} {u u' signature signature' : Bytes} (loads : rt.loads e = some (.dict map))
      (keys : map.keysAre [1, 2] = true)
      (signedUpdate : map.get? 1 = some (.atom (.bytes u)))
      (signatureField : map.get? 2 = some (.atom (.bytes signature)))
      (update : RecasedUpdate rt hash hash' u u') (resigned : Resigned rt u u' signature signature')
      (envelope : LoadsDict rt e'
        ((map.set 1 (.atom (.bytes u'))).set 2 (.atom (.bytes signature'))))
  | multisignature {map : Dict} {u u' : Bytes} {proofs proofs' : List Value}
      (loads : rt.loads e = some (.dict map)) (keys : map.keysAre [1, 2, 3] = true)
      (signedUpdate : map.get? 2 = some (.atom (.bytes u)))
      (proofsField : map.get? 3 = some (.list proofs)) (update : RecasedUpdate rt hash hash' u u')
      (resigned : List.Forall₂ (ResignedProof rt u u') proofs proofs')
      (envelope : LoadsDict rt e' ((map.set 2 (.atom (.bytes u'))).set 3 (.list proofs')))

namespace RecasedUpdate

variable {hash hash' : Text} {u u' : Bytes}

/-- **SignedUpdates decode in either letter case.** -/
theorem decode {update : SignedUpdate} (h : RecasedUpdate rt hash hash' u u')
    (hu : decodeCanonicalSignedUpdate rt u = .ok update) :
    update.payload.get? 3 = some (.atom (.text hash)) ∧
      decodeCanonicalSignedUpdate rt u' =
        .ok { update with payload := recase update.payload hash' } := by
  obtain ⟨map, payload, hloads, hpayload, hhash, hloads'⟩ := h.loads
  rw [decodeCanonicalSignedUpdate, loadsDict_iff] at hu ⊢
  obtain ⟨map', ⟨hmap, -⟩, hupdate⟩ := hu
  obtain ⟨⟩ := Option.some.inj (hloads.symm.trans hmap)
  obtain ⟨rfl, hupdate'⟩ := validateDecodedSignedUpdate_recase h.sameLetters hpayload hhash hupdate
  exact ⟨hhash, _, hloads', hupdate'⟩

theorem decodeMultisignature {update : MultisignatureUpdate} (h : RecasedUpdate rt hash hash' u u')
    (hu : decodeMultisignatureSignedUpdate rt u = .ok update) :
    update.payload.get? 3 = some (.atom (.text hash)) ∧
      decodeMultisignatureSignedUpdate rt u' =
        .ok { update with payload := recase update.payload hash' } := by
  obtain ⟨hhash, hu'⟩ := h.decode (decodeMultisignatureSignedUpdate_eq_ok.1 hu)
  exact ⟨hhash, decodeMultisignatureSignedUpdate_eq_ok.2 hu'⟩

theorem carriesAuthorization_eq (h : RecasedUpdate rt hash hash' u u') :
    carriesAuthorization rt u' = carriesAuthorization rt u := by
  obtain ⟨map, payload, hloads, -, -, hloads', -⟩ := h.loads
  simp only [carriesAuthorization, hloads, hloads', has_set]

end RecasedUpdate

namespace Recased

variable {hash hash' : Text} {e e' : Bytes}

theorem isMultisignatureEnvelope_eq (h : Recased rt hash hash' e e') :
    isMultisignatureEnvelope rt e' = isMultisignatureEnvelope rt e := by
  cases h with
  | legacy loads _ _ _ _ _ envelope =>
    simp only [isMultisignatureEnvelope, loads, envelope.1, keysAre_set]
  | multisignature loads _ _ _ _ _ envelope =>
    simp only [isMultisignatureEnvelope, loads, envelope.1, keysAre_set]

/-- **Legacy envelopes decode in either letter case.** -/
theorem decodeSignedEnvelope {u signature : Bytes} (h : Recased rt hash hash' e e')
    (hdecode : decodeSignedEnvelope rt e = .ok (u, signature)) :
    ∃ u' signature', DecentRegistry.decodeSignedEnvelope rt e' = .ok (u', signature') ∧
      RecasedUpdate rt hash hash' u u' ∧ Resigned rt u u' signature signature' := by
  obtain ⟨map, ⟨hloads, -⟩, hkeys, hu, hsignature, hlegacy⟩ := decodeSignedEnvelope_eq_ok.1 hdecode
  cases h with
  | legacy loads keys signedUpdate signatureField update resigned envelope =>
    obtain ⟨⟩ := Option.some.inj (loads.symm.trans hloads)
    obtain ⟨⟩ := Option.some.inj (signedUpdate.symm.trans hu)
    obtain ⟨⟩ := Option.some.inj (signatureField.symm.trans hsignature)
    refine ⟨_, _, decodeSignedEnvelope_eq_ok.2 ⟨_, envelope, ?_, ?_, ?_, ?_⟩, update, resigned⟩
    · rwa [keysAre_set, keysAre_set]
    · rw [get?_set_of_ne (by decide)]
      exact get?_set_self hu
    · exact get?_set_self (by rwa [get?_set_of_ne (by decide)])
    · rwa [update.carriesAuthorization_eq]
  | multisignature loads keys =>
    obtain ⟨⟩ := Option.some.inj (loads.symm.trans hloads)
    rw [keysAre_two_three hkeys] at keys
    cases keys

/-- The proofs, signed anew. -/
abbrev ResignedProofs (rt : Runtime) (u u' : Bytes) (proofs proofs' : List Proof) : Prop :=
  List.Forall₂ (fun p p' => p'.signerId = p.signerId ∧ Resigned rt u u' p.signature p'.signature)
    proofs proofs'

theorem readProofs {u u' : Bytes} {list list' : List Value} {proofs : List Proof}
    (h : List.Forall₂ (ResignedProof rt u u') list list')
    (hread : List.Forall₂
      (fun v proof => ∃ map, v = .dict map ∧ Proof.IsRead proof map) list proofs) :
    ∃ proofs', List.Forall₂ (fun v proof => ∃ map, v = .dict map ∧ Proof.IsRead proof map) list'
      proofs' ∧ ResignedProofs rt u u' proofs proofs' := by
  induction h generalizing proofs with
  | nil =>
    cases hread
    exact ⟨[], .nil, .nil⟩
  | cons hv _ ih =>
    obtain ⟨map, signature, signature', rfl, hsignature, rfl, hresigned⟩ := hv
    cases hread with
    | @cons _ proof _ _ hproof hrest =>
      obtain ⟨_, ⟨⟩, hproof⟩ := hproof
      obtain ⟨⟩ := Option.some.inj (hsignature.symm.trans hproof.signature)
      obtain ⟨proofs', hread', hresigned'⟩ := ih hrest
      refine ⟨⟨proof.signerId, signature'⟩ :: proofs', .cons ⟨_, rfl, ?_⟩ hread',
        .cons ⟨rfl, hresigned⟩ hresigned'⟩
      exact
        { keys := by rw [keysAre_set]; exact hproof.keys
          signerId := by rw [get?_set_of_ne (by decide)]; exact hproof.signerId
          bounded := hproof.bounded
          signature := get?_set_self hsignature
          length := hresigned.length.trans hproof.length }

theorem ResignedProofs.signerIds {u u' : Bytes} {proofs proofs' : List Proof}
    (h : ResignedProofs rt u u' proofs proofs') :
    proofs'.map (·.signerId) = proofs.map (·.signerId) := by
  induction h with
  | nil => rfl
  | cons hp _ ih => simp [hp.1, ih]

/-- Proofs that are sorted stay so. -/
theorem ResignedProofs.sorted {u u' : Bytes} {proofs proofs' : List Proof}
    (h : ResignedProofs rt u u' proofs proofs') (hsorted : sortedBy proofSortKey proofs = proofs) :
    sortedBy proofSortKey proofs' = proofs' := by
  have hkeys : proofs'.map proofSortKey = proofs.map proofSortKey := by
    have hkey : proofSortKey = (fun s => proofSortKey ⟨s, []⟩) ∘ Proof.signerId := rfl
    rw [hkey, ← List.map_map, ← List.map_map, h.signerIds]
  have hpairwise := pairwise_sortedBy proofSortKey proofs
  rw [hsorted, ← List.pairwise_map (f := proofSortKey), ← hkeys, List.pairwise_map] at hpairwise
  exact List.Pairwise.insertionSort_eq hpairwise

/-- **Multisignature envelopes decode in either letter case.** -/
theorem decodeMultisignatureEnvelope {envelope : MultisignatureEnvelope}
    (h : Recased rt hash hash' e e')
    (hdecode : decodeMultisignatureEnvelope rt e = .ok envelope) :
    ∃ envelope', DecentRegistry.decodeMultisignatureEnvelope rt e' = .ok envelope' ∧
      RecasedUpdate rt hash hash' envelope.signedUpdateBytes envelope'.signedUpdateBytes ∧
      ResignedProofs rt envelope.signedUpdateBytes envelope'.signedUpdateBytes envelope.proofs
        envelope'.proofs := by
  obtain ⟨map, ⟨hloads, -⟩, hread⟩ := decodeMultisignatureEnvelope_eq_ok.1 hdecode
  cases h with
  | legacy loads keys =>
    obtain ⟨⟩ := Option.some.inj (loads.symm.trans hloads)
    have := hread.keys
    rw [keysAre_two_three keys] at this
    cases this
  | multisignature loads keys signedUpdate proofsField update resigned hloads' =>
    obtain ⟨⟩ := Option.some.inj (loads.symm.trans hloads)
    obtain ⟨⟩ := Option.some.inj (signedUpdate.symm.trans hread.signedUpdateBytes)
    obtain ⟨list, hlist, hproofs⟩ := hread.proofs
    obtain ⟨⟩ := Option.some.inj (proofsField.symm.trans hlist)
    obtain ⟨proofs', hreads', hresigned⟩ := readProofs resigned hproofs.reads
    obtain ⟨signed, hsigned⟩ := hread.signedUpdate
    refine ⟨⟨envelope.version, _, proofs'⟩, decodeMultisignatureEnvelope_eq_ok.2 ⟨_, hloads', ?_⟩,
      update, hresigned⟩
    have hapart : proofs'.Pairwise fun a b => a.signerId ≠ b.signerId := by
      rw [← List.pairwise_map (f := Proof.signerId) (R := (· ≠ ·)), hresigned.signerIds,
        List.pairwise_map]
      exact hproofs.apart
    exact
      { keys := by rw [keysAre_set, keysAre_set]; exact keys
        version := by
          rw [get?_set_of_ne (by decide), get?_set_of_ne (by decide)]
          exact hread.version
        supported := hread.supported
        signedUpdateBytes := by
          rw [get?_set_of_ne (by decide)]
          exact get?_set_self signedUpdate
        signedUpdate := ⟨_, (update.decodeMultisignature hsigned).2⟩
        proofs := ⟨_, get?_set_self (by rwa [get?_set_of_ne (by decide)]), hreads', hapart⟩
        sorted := hresigned.sorted hread.sorted }

end Recased

end DecentRegistry
