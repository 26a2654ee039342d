import DecentRegistry.Wire.Decoders

/-!
# The dictionaries that are written

What is assumed of `cbor2` in its canonical mode (`Runtime.Canonical`), and that it applies to
everything the encoders write: the dictionary of a signer entry, of an authorization map and of a
proof are in order already, and that of a SignedUpdate is in order once its record fields and its
payload are (`MultisignatureUpdate.ordered_toValue`).
-/

namespace DecentRegistry

open Fallible PyValue DistinctReading

/-- `cbor2` in its canonical mode: a value is decoded as it was, with the entries of dictionaries in
the order of their keys, and the order in which they were inserted does not matter. -/
structure Runtime.Canonical (rt : Runtime) : Prop where
  loads : ∀ v b, Wire v → rt.dumps v = some b → rt.loads b = some v.ordered
  dumps : ∀ v, Wire v → rt.dumps v.ordered = rt.dumps v

variable {rt : Runtime}

theorem Runtime.Canonical.loadsDict (hrt : rt.Canonical) {d d' : Dict} {b : Bytes}
    (hd : Wire (.dict d)) (hd' : (Value.dict d).ordered = .dict d')
    (h : rt.dumps (.dict d) = some b) : LoadsDict rt b d' :=
  ⟨hd' ▸ hrt.loads _ _ hd h, by rw [← hd', hrt.dumps _ hd, h]⟩

/-! ## Signers and authorization maps -/

theorem inOrder_natValue (n : ℕ) : InOrder (natValue n) := .atom (.int n)

theorem SignerEntry.inOrder_toValue (entry : SignerEntry) : InOrder entry.toValue := by
  have h := InOrder.natEntries (l := [(1, .atom (.text entry.signerId)),
    (2, .atom (.bytes entry.publicKey))]) (by simp) ?_
  · exact h
  · simpa using ⟨.atom (.text _), .atom (.bytes _)⟩

theorem Authorization.inOrder_toValue (a : Authorization) : InOrder a.toValue := by
  have hsigners : InOrder (.list (a.signerSet.map SignerEntry.toValue)) := by
    refine .list fun v hv => ?_
    obtain ⟨entry, -, rfl⟩ := List.mem_map.1 hv
    exact entry.inOrder_toValue
  have h := InOrder.natEntries (l := [(1, natValue a.scheme), (2, natValue a.recordKind.code),
    (3, natValue a.operation.code), (4, natValue a.epoch), (5, natValue a.threshold),
    (6, .list (a.signerSet.map SignerEntry.toValue)),
    (7, .atom (.bytes a.predecessorStateHash))]) (by simp) ?_
  · exact h
  · simpa using ⟨inOrder_natValue _, inOrder_natValue _, inOrder_natValue _, inOrder_natValue _,
      inOrder_natValue _, hsigners, .atom (.bytes _)⟩

/-- A signer entry is read off the dictionary that is written for it. -/
theorem SignerEntry.IsRead.toValue {entry : SignerEntry} {map : Dict} (h : entry.IsRead map) :
    readSignerEntry entry.toValue = .ok entry :=
  readSignerEntry_eq_ok.2 ⟨_, rfl, rfl, rfl, h.nonempty, h.bounded, rfl, h.length⟩

theorem SignerEntry.apart_symm {a b : SignerEntry} (h : a.Apart b) : b.Apart a :=
  ⟨h.1.symm, h.2.symm⟩

/-- Signers that were read are read back from what is written for them, in any order. -/
theorem ReadsSigners.toValue {list : List Value} {signers signers' : List SignerEntry}
    (h : ReadsSigners list signers) (hperm : signers'.Perm signers) :
    ReadsSigners (signers'.map SignerEntry.toValue) signers' := by
  have hread : ∀ entry ∈ signers, readSignerEntry entry.toValue = .ok entry := by
    intro entry hentry
    obtain ⟨v, -, hv⟩ := exists_read h.reads hentry
    obtain ⟨map, -, hmap⟩ := readSignerEntry_eq_ok.1 hv
    exact hmap.toValue
  refine ⟨?_, hperm.symm.pairwise h.apart SignerEntry.apart_symm⟩
  rw [List.forall₂_map_left_iff, List.forall₂_same]
  exact fun entry hentry => hread entry (hperm.mem_iff.1 hentry)

theorem Authorization.sorted_sorted (a : Authorization) : a.sorted.sorted = a.sorted := by
  simp [Authorization.sorted, sortedBy_sortedBy]

/-- An authorization that was read is read back, sorted, from what is written for it. -/
theorem Authorization.IsRead.toValue {a : Authorization} {map : Dict} {signerSet : List Value}
    (h : a.IsRead map signerSet) : ∃ map', a.sorted.toValue = .dict map' ∧
      a.sorted.IsRead map' (a.sorted.signerSet.map SignerEntry.toValue) := by
  have hperm := sortedBy_perm signerSortKey a.signerSet
  refine ⟨_, rfl, ?_⟩
  exact
    { keys := rfl
      scheme := rfl
      supported := h.supported
      recordKind := rfl
      operation := rfl
      epoch := rfl
      threshold := rfl
      signers := rfl
      nonempty := by
        have hne : a.signerSet ≠ [] := by
          intro hnil
          have hpos := h.threshold_pos
          have hle := h.threshold_le
          rw [hnil, List.length_nil] at hle
          omega
        have hsorted : sortedBy signerSortKey a.signerSet ≠ [] := by
          intro hnil
          rw [hnil] at hperm
          exact hne hperm.symm.eq_nil
        simpa [Authorization.sorted] using hsorted
      reads := h.reads.toValue hperm
      threshold_pos := h.threshold_pos
      threshold_le := hperm.length_eq ▸ h.threshold_le
      predecessor := rfl
      length := h.length }

/-! ## Record fields and payloads -/

/-- Decoding a payload does not depend on the order of its entries. -/
theorem decodeProviderPayloadDict_perm {payload payload' : Dict} (h : NatKeyed payload)
    (hperm : payload.Perm payload') :
    decodeProviderPayloadDict payload' = decodeProviderPayloadDict payload := by
  have hversion : isVersion2 payload' = isVersion2 payload := by
    simp only [isVersion2, h.get?_perm hperm]
  have hwithdrawn : decodeWithdrawnPayload payload' = decodeWithdrawnPayload payload := by
    simp only [decodeWithdrawnPayload, getItem, h.get?_perm hperm, keysAre_perm hperm,
      has_perm hperm]
  have hactive : decodeActivePayload payload' = decodeActivePayload payload := by
    simp only [decodeActivePayload, getItem, h.get?_perm hperm, keysAre_perm hperm]
  rw [decodeProviderPayloadDict, decodeProviderPayloadDict, hversion, hwithdrawn, hactive]

theorem RecordBinding.perm {fields fields' payload payload' : Dict} {kind : RecordKind}
    (h : RecordBinding fields payload kind) (hfields : NatKeyed fields)
    (hpayload : NatKeyed payload)
    (hf : fields.Perm fields') (hp : payload.Perm payload') :
    RecordBinding fields' payload' kind := by
  cases kind with
  | identity =>
    obtain ⟨hkeys, rfl, hget⟩ := h
    refine ⟨(keysAre_perm hf _).trans hkeys, hp.symm.eq_nil, ?_⟩
    simpa only [hfields.get?_perm hf] using hget
  | provider =>
    obtain ⟨hkeys, hget, hdecode⟩ := h
    refine ⟨(keysAre_perm hf _).trans hkeys, ?_, ?_⟩
    · simpa only [hfields.get?_perm hf] using hget
    · simpa only [decodeProviderPayloadDict_perm hpayload hp] using hdecode

theorem inOrder_of_validateAlg {v : Value} {alg : Text} (h : validateAlg v = .ok alg) :
    InOrder v := by
  simp only [validateAlg, bind_eq_ok, orRaise_eq_ok, Value.asText?_eq_some] at h
  obtain ⟨t, rfl, -⟩ := h
  exact .atom (.text t)

theorem inOrder_of_validateObjectHash {v : Value} {name : String} {hash : Text}
    (h : validateObjectHash v name = .ok hash) : InOrder v := by
  simp only [validateObjectHash, bind_eq_ok, orRaise_eq_ok, Value.asText?_eq_some] at h
  obtain ⟨t, rfl, -⟩ := h
  exact .atom (.text t)

theorem inOrder_of_textList {v : Value} {e : PyError} {texts : List Text}
    (h : textList v e = .ok texts) : InOrder v := by
  simp only [textList, bind_eq_ok, orRaise_eq_ok, Value.asList?_eq_some] at h
  obtain ⟨xs, rfl, hread⟩ := h
  refine .list fun x hx => ?_
  induction xs generalizing texts with
  | nil => cases hx
  | cons y xs ih =>
    simp only [List.mapM_cons, bind_eq_ok, orRaise_eq_ok, Value.asText?_eq_some,
      pure_eq_ok] at hread
    obtain ⟨t, rfl, ts, hts, -⟩ := hread
    rcases List.mem_cons.1 hx with rfl | hx
    · exact .atom (.text t)
    · exact ih hts hx

/-- A version that equals 2 is the integer or the float. -/
theorem inOrder_of_isVersion2 {payload : Dict} {v : Value} (h : isVersion2 payload = true)
    (hv : payload.get? 2 = some v) : InOrder v := by
  simp only [isVersion2, hv] at h
  split at h
  · cases h
  · rename_i w _ hw
    obtain rfl := Option.some.inj hw
    cases v with
    | atom a =>
      simp only [Value.isInt, Atom.isInt, decide_eq_true_eq] at h
      cases a <;> simp [Atom.int?] at h
      · simp_all
      · exact .atom (.int _)
      · exact .atom (.float h)
    | list xs => cases h
    | dict d => cases h
  · cases h

/-- The values of a payload that decodes. -/
theorem inOrder_of_decodeProviderPayloadDict {payload : Dict} {p : ProviderPayload}
    (keys : NatKeyed payload) (h : decodeProviderPayloadDict payload = .ok p) :
    ∀ e ∈ payload, InOrder e.2 := by
  unfold decodeProviderPayloadDict at h
  split at h
  · rename_i hversion
    obtain ⟨w, hw, -⟩ := map_eq_ok.1 h
    simp only [decodeWithdrawnPayload, bind_eq_ok, raiseIf_eq_ok, getItem_eq_ok, not_not,
      Value.asText?_eq_some] at hw
    obtain ⟨-, hkeys, _, h₁, _, halg, _, h₃, _, hhash, _, h₄, -, rfl, hrest⟩ := hw
    have hfive : ∀ v, payload.get? 5 = some v → InOrder v := by
      intro v hv
      rw [if_pos (Dict.has_iff.2 ⟨v, hv⟩)] at hrest
      simp only [bind_eq_ok, getItem_eq_ok] at hrest
      obtain ⟨_, hv', _, hreplacement, -⟩ := hrest
      obtain rfl := Option.some.inj (hv.symm.trans hv')
      exact inOrder_of_validateObjectHash hreplacement
    have hvalues : ∀ n ∈ ([1, 2, 3, 4, 5] : List Int), ∀ v, payload.get? n = some v →
        InOrder v := by
      simp only [List.mem_cons, List.not_mem_nil, or_false, forall_eq_or_imp, forall_eq, h₁, h₃, h₄,
        Option.some.injEq, forall_eq']
      exact ⟨inOrder_of_validateAlg halg, fun v hv => inOrder_of_isVersion2 hversion hv,
        inOrder_of_validateObjectHash hhash, .atom (.text _), hfive⟩
    cases hfour : payload.keysAre [1, 2, 3, 4] with
    | true => exact forall_values_of_keysAre keys hfour fun n hn => hvalues n (by simp_all; omega)
    | false =>
      have hall : payload.keysAre [1, 2, 3, 4, 5] = true := by simpa [hfour] using hkeys
      exact forall_values_of_keysAre keys hall hvalues
  · obtain ⟨a, ha, -⟩ := map_eq_ok.1 h
    simp only [decodeActivePayload, bind_eq_ok, raiseIf_eq_ok, orRaise_eq_ok, getItem_eq_ok,
      Value.asInt?_eq_some] at ha
    obtain ⟨-, hkeys, _, h₂, _, rfl, -, -, _, h₁, _, halg, _, h₅, _, hendpoints, _, -,
      -, -, _, h₄, _,
      hurls, _, -, -, -, _, h₃, _, hhash, -⟩ := ha
    refine forall_values_of_keysAre keys (l := [1, 2, 3, 4, 5]) (by simpa using hkeys) ?_
    simp only [List.mem_cons, List.not_mem_nil, or_false, forall_eq_or_imp, forall_eq, h₁, h₂, h₃,
      h₄, h₅, Option.some.injEq, forall_eq']
    exact ⟨inOrder_of_validateAlg halg, .atom (.int _), inOrder_of_validateObjectHash hhash,
      inOrder_of_textList hurls, inOrder_of_textList hendpoints⟩

/-- The values of a record. -/
theorem RecordBinding.inOrder {fields payload : Dict} {kind : RecordKind}
    (h : RecordBinding fields payload kind) (hfields : NatKeyed fields)
    (hpayload : NatKeyed payload) :
    (∀ e ∈ fields, InOrder e.2) ∧ ∀ e ∈ payload, InOrder e.2 := by
  cases kind with
  | identity =>
    obtain ⟨hkeys, rfl, ownerName, owner, h₁, h₂, -⟩ := h
    refine ⟨forall_values_of_keysAre hfields hkeys ?_, by simp⟩
    simp only [List.mem_cons, List.not_mem_nil, or_false, forall_eq_or_imp, forall_eq, h₁, h₂,
      Option.some.injEq, forall_eq']
    exact ⟨.atom (.bytes _), .atom (.bytes _)⟩
  | provider =>
    obtain ⟨hkeys, ⟨owner, h₁, -⟩, p, hp⟩ := h
    refine ⟨forall_values_of_keysAre hfields hkeys ?_,
      inOrder_of_decodeProviderPayloadDict hpayload hp⟩
    simp only [List.mem_singleton, forall_eq, h₁, Option.some.injEq, forall_eq']
    exact .atom (.bytes _)

/-! ## SignedUpdates -/

/-- What is written for a SignedUpdate, once ordered. -/
theorem MultisignatureUpdate.ordered_toValue (u : MultisignatureUpdate)
    (hfields : NatKeyed u.recordFields) (hpayload : NatKeyed u.payload)
    (hbinding : RecordBinding u.recordFields u.payload u.authorization.recordKind) :
    Wire u.toValue ∧ u.toValue.ordered = MultisignatureUpdate.toValue
      { u with recordFields := sortByKey u.recordFields, payload := sortByKey u.payload } := by
  obtain ⟨hf, hp⟩ := hbinding.inOrder hfields hpayload
  have hentries : u.toValue = .dict (natEntries [(1, .dict u.recordFields), (2, .dict u.payload),
      (3, natValue u.seq), (4, u.authorization.toValue)]) := rfl
  rw [hentries]
  refine ⟨.dict (natKeyed_natEntries (by simp)) ?_, ?_⟩
  · simp only [natEntries, List.map_cons, List.map_nil, List.mem_cons, List.not_mem_nil, or_false,
      forall_eq_or_imp, forall_eq]
    exact ⟨.dict hfields fun e he => (hf e he).wire, .dict hpayload fun e he => (hp e he).wire,
      .int _, u.authorization.inOrder_toValue.wire⟩
  · rw [Value.ordered_dict]
    simp only [natEntries, List.map_cons, List.map_nil, ordered_dict_of_inOrder hf,
      ordered_dict_of_inOrder hp, (inOrder_natValue _).ordered,
      u.authorization.inOrder_toValue.ordered]
    exact congrArg Value.dict (sortByKey_natEntries (l := [(1, .dict (sortByKey u.recordFields)),
      (2, .dict (sortByKey u.payload)), (3, natValue u.seq), (4, u.authorization.toValue)])
      (by simp))

end DecentRegistry
