import DecentRegistry.Sample.Records
import DecentRegistry.Wire.PayloadReading
import DecentRegistry.Wire.RoundTrip

/-!
# Provider payloads as bytes

What is encoded decodes to the same fields, with URLs and endpoints sorted, whatever order they were
given in (`providerPayload_roundTrip`). Accepted bytes are what is encoded for the payload they
decode to exactly when all keys and the version are integers (`providerPayload_unique_iff`). -/

namespace DecentRegistry

open Fallible PyValue

variable {rt : Runtime}

/-! ## Encoders and decoder -/

theorem encodeProviderPayload_eq_ok {alg objectHash : Text} {providerUrls endpoints : List Text}
    {version : Value} {b : Bytes} :
    encodeProviderPayload rt alg objectHash providerUrls endpoints version = .ok b ↔
      version = natValue 3 ∧ ActiveFields alg objectHash providerUrls endpoints ∧
        rt.dumps (.dict (natEntries (activeFields alg objectHash (sortedTexts providerUrls)
          (sortedTexts endpoints)))) = some b := by
  simp only [encodeProviderPayload, bind_eq_ok, buildProviderPayloadDict_eq_ok, canonicalCbor,
    orRaise_eq_ok]
  constructor
  · rintro ⟨_, ⟨hversion, hfields, rfl⟩, hdumps⟩
    exact ⟨hversion, hfields, hdumps⟩
  · rintro ⟨hversion, hfields, hdumps⟩
    exact ⟨_, ⟨hversion, hfields, rfl⟩, hdumps⟩

theorem encodeProviderWithdrawalPayload_eq_ok {alg objectHash : Text} {replacement : Option Text}
    {b : Bytes} :
    encodeProviderWithdrawalPayload rt alg objectHash replacement = .ok b ↔
      WithdrawnFields alg objectHash replacement ∧
        rt.dumps (.dict (natEntries (withdrawnFields alg objectHash replacement))) = some b := by
  simp only [encodeProviderWithdrawalPayload, bind_eq_ok, buildProviderWithdrawalPayloadDict_eq_ok,
    canonicalCbor, orRaise_eq_ok]
  constructor
  · rintro ⟨_, ⟨hfields, rfl⟩, hdumps⟩
    exact ⟨hfields, hdumps⟩
  · rintro ⟨hfields, hdumps⟩
    exact ⟨_, ⟨hfields, rfl⟩, hdumps⟩

theorem decodeProviderPayload_eq_ok {data : Bytes} {p : ProviderPayload} :
    decodeProviderPayload rt data = .ok p ↔
      ∃ map, LoadsDict rt data map ∧ decodeProviderPayloadDict map = .ok p := by
  have h := @loadsDict_iff rt _ data (valueError "non-canonical or invalid CBOR")
    (valueError "provider payload must be a CBOR map") decodeProviderPayloadDict p
  rw [← h]
  simp only [decodeProviderPayload, bind_eq_ok, rewrap_eq_ok]

/-! ## The dictionaries -/

theorem inOrder_textsValue (texts : List Text) : InOrder (textsValue texts) := by
  refine .list fun v hv => ?_
  obtain ⟨t, -, rfl⟩ := List.mem_map.1 hv
  exact .atom (.text t)

theorem inOrder_activeFields (alg objectHash : Text) (providerUrls endpoints : List Text) :
    ∀ e ∈ activeFields alg objectHash providerUrls endpoints, InOrder e.2 := by
  simpa [activeFields] using ⟨.atom (.text _), inOrder_natValue _, .atom (.text _),
    inOrder_textsValue _, inOrder_textsValue _⟩

theorem inOrder_activeEntries (alg objectHash : Text) (providerUrls endpoints : List Text) :
    InOrder (.dict (natEntries (activeFields alg objectHash providerUrls endpoints))) :=
  .natEntries (by simp [activeFields]) (inOrder_activeFields _ _ _ _)

theorem sorted_withdrawnFields (alg objectHash : Text) (replacement : Option Text) :
    ((withdrawnFields alg objectHash replacement).map (·.1)).Pairwise (· < ·) := by
  cases replacement <;> simp [withdrawnFields]

theorem inOrder_withdrawnFields (alg objectHash : Text) (replacement : Option Text) :
    ∀ e ∈ withdrawnFields alg objectHash replacement, InOrder e.2 := by
  have hfour : InOrder (.atom (.text ['w', 'i', 't', 'h', 'd', 'r', 'a', 'w', 'n'])) :=
    .atom (.text _)
  cases replacement with
  | none => simpa [withdrawnFields] using
      ⟨.atom (.text _), inOrder_natValue _, .atom (.text _), hfour⟩
  | some replacement => simpa [withdrawnFields] using
      ⟨.atom (.text _), inOrder_natValue _, .atom (.text _), hfour, .atom (.text _)⟩

theorem inOrder_withdrawnEntries (alg objectHash : Text) (replacement : Option Text) :
    InOrder (.dict (natEntries (withdrawnFields alg objectHash replacement))) :=
  .natEntries (sorted_withdrawnFields _ _ _) (inOrder_withdrawnFields _ _ _)

/-- A dictionary in order is loaded from what is written for it. -/
theorem Runtime.Canonical.loadsDict_of_inOrder (hrt : rt.Canonical) {d : Dict} {b : Bytes}
    (hd : InOrder (.dict d)) (h : rt.dumps (.dict d) = some b) : LoadsDict rt b d :=
  hrt.loadsDict hd.wire hd.ordered h

/-! ## Round trip -/

/-- **The round trip.** An active payload decodes to its fields with the URLs, which are 1 to 32 and
differ, and the endpoints in order; it is encoded to the same bytes whatever order they are given
in. A tombstone decodes to its fields. -/
theorem providerPayload_roundTrip (rt : Runtime) (hrt : rt.Canonical) :
    (∀ alg objectHash providerUrls endpoints version b,
      encodeProviderPayload rt alg objectHash providerUrls endpoints version = .ok b →
        decodeProviderPayload rt b = .ok (.active ⟨alg, 3, objectHash, sortedTexts providerUrls,
          sortedTexts endpoints⟩) ∧
        providerUrls.Nodup ∧ 1 ≤ providerUrls.length ∧ providerUrls.length ≤ 32 ∧
        ∀ providerUrls' endpoints', providerUrls'.Perm providerUrls → endpoints'.Perm endpoints →
          encodeProviderPayload rt alg objectHash providerUrls' endpoints' version = .ok b) ∧
    ∀ alg objectHash replacement b,
      encodeProviderWithdrawalPayload rt alg objectHash replacement = .ok b →
        decodeProviderPayload rt b = .ok (.withdrawn ⟨alg, objectHash, replacement⟩) := by
  constructor
  · intro alg objectHash providerUrls endpoints version b h
    obtain ⟨hversion, hfields, hdumps⟩ := encodeProviderPayload_eq_ok.1 h
    have hload := hrt.loadsDict_of_inOrder (inOrder_activeEntries _ _ _ _) hdumps
    refine ⟨?_, hfields.urls.distinct, hfields.urls.nonempty, hfields.urls.count, ?_⟩
    · refine decodeProviderPayload_eq_ok.2 ⟨_, hload, ?_⟩
      rw [decodeProviderPayloadDict, if_neg (show ¬ isVersion2 (natEntries (activeFields _ _ _ _)) =
        true from Bool.false_ne_true), decodeActivePayload_eq_ok.2 hfields.isRead]
      rfl
    · intro providerUrls' endpoints' hurls hendpoints
      refine encodeProviderPayload_eq_ok.2 ⟨hversion, ?_, ?_⟩
      · exact ⟨hfields.nonempty, hfields.hash, hfields.urls.perm hurls, hfields.eps.perm hendpoints⟩
      · rw [sortedTexts_perm hurls, sortedTexts_perm hendpoints]
        exact hdumps
  · intro alg objectHash replacement b h
    obtain ⟨hfields, hdumps⟩ := encodeProviderWithdrawalPayload_eq_ok.1 h
    have hload := hrt.loadsDict_of_inOrder (inOrder_withdrawnEntries _ _ _) hdumps
    have hread := hfields.isRead
    refine decodeProviderPayload_eq_ok.2 ⟨_, hload, ?_⟩
    rw [decodeProviderPayloadDict, if_pos hread.version,
      (decodeWithdrawnPayload_eq_ok hread.version).2 hread]
    rfl

namespace Sample

def payloadHash : Text := List.replicate 64 'a'

def payloadUrls : List Text := [text "https://b.example/", text "ipfs:a"]

def payloadEndpoints : List Text := [text "/ip4/10.0.0.2", text "/ip4/10.0.0.1"]

end Sample

/-- An active payload is encoded alike with its URLs and endpoints exchanged. -/
theorem samplePayload_roundTrip : ∃ b,
    encodeProviderPayload Sample.runtime (Sample.text "Ed25519") Sample.payloadHash
      Sample.payloadUrls Sample.payloadEndpoints = .ok b ∧
    encodeProviderPayload Sample.runtime (Sample.text "Ed25519") Sample.payloadHash
      Sample.payloadUrls.reverse Sample.payloadEndpoints.reverse = .ok b := by
  have h := eq_ok_valueOf (x := encodeProviderPayload Sample.runtime (Sample.text "Ed25519")
    Sample.payloadHash Sample.payloadUrls Sample.payloadEndpoints) (by decide +kernel)
  obtain ⟨-, -, -, -, horder⟩ :=
    (providerPayload_roundTrip _ Sample.runtime_canonical).1 _ _ _ _ _ _ h
  exact ⟨_, h, horder _ _ (List.reverse_perm _) (List.reverse_perm _)⟩

/-! ## One encoding of each payload -/

/-- The payload encoded again. -/
def ProviderPayload.encode (rt : Runtime) : ProviderPayload → Py Bytes
  | .active p => encodeProviderPayload rt p.alg p.objectHash p.providerUrls p.endpoints
      (.atom (.int p.version))
  | .withdrawn p => encodeProviderWithdrawalPayload rt p.alg p.objectHash p.replacementObjectHash

/-- All keys are integers, and so is the version. -/
structure IntegerFields (payload : Dict) : Prop where
  keys : ∀ e ∈ payload, ∃ i, e.1 = .int i
  version : ∃ i, payload.get? 2 = some (.atom (.int i))

/-- Accepted bytes are what is written for some entries exactly when their keys and the version are
integers, provided that with an integer version they hold these entries. -/
theorem payload_rewritten_iff (hrt : rt.Canonical) {b : Bytes} {map : Dict}
    (hload : LoadsDict rt b map) (hproper : Proper (.dict map)) {l : List (ℕ × Value)}
    (sorted : (l.map (·.1)).Pairwise (· < ·)) (values : ∀ e ∈ l, InOrder e.2)
    (version : ∃ n : ℕ, Dict.get? (natEntries l) 2 = some (natValue n))
    (keys : map.keysAre (l.map fun e => (e.1 : Int)) = true)
    (reads : (∃ i, map.get? 2 = some (.atom (.int i))) → ∀ e ∈ l, map.get? e.1 = some e.2) :
    rt.dumps (.dict (natEntries l)) = some b ↔ IntegerFields map := by
  have hin : InOrder (.dict (natEntries l)) := .natEntries sorted values
  constructor
  · intro hdumps
    have hsame := (hrt.loads _ _ hin.wire hdumps).symm.trans hload.1
    rw [hin.ordered, Option.some.injEq, Value.dict.injEq] at hsame
    subst hsame
    constructor
    · intro e he
      obtain ⟨x, -, rfl⟩ := List.mem_map.1 he
      exact ⟨x.1, rfl⟩
    · obtain ⟨n, hn⟩ := version
      exact ⟨n, hn⟩
  · rintro ⟨hkeys, hversion⟩
    have hkeyed : NatKeyed map := by
      refine natKeyed_of_keysAre (l := l.map (·.1)) ?_ hkeys hproper.distinct
      rw [List.map_map]
      exact keys
    have horders : Orders (.dict map) (.dict (natEntries l)) :=
      .dict sorted keys hkeyed fun e he => ⟨_, reads hversion e he, (values e he).orders⟩
    rw [← horders.eq, hrt.dumps _ horders.wire]
    exact hload.2

/-- **Accepted bytes are the encoding of the payload they decode to** exactly when all keys and the
version are integers. -/
theorem providerPayload_unique_iff (rt : Runtime) (hrt : rt.Canonical) (b : Bytes)
    (hproper : ∀ v, rt.loads b = some v → Proper v) (p : ProviderPayload)
    (h : decodeProviderPayload rt b = .ok p) :
    p.encode rt = .ok b ↔ ∀ map, rt.loads b = some (.dict map) → IntegerFields map := by
  obtain ⟨map, hload, hdecode⟩ := decodeProviderPayload_eq_ok.1 h
  have hmap : (∀ map, rt.loads b = some (.dict map) → IntegerFields map) ↔ IntegerFields map := by
    simp [hload.1]
  rw [hmap]
  unfold decodeProviderPayloadDict at hdecode
  split at hdecode
  · rename_i htwo
    obtain ⟨p, hp, rfl⟩ := map_eq_ok.1 hdecode
    have hread := (decodeWithdrawnPayload_eq_ok htwo).1 hp
    rw [ProviderPayload.encode, encodeProviderWithdrawalPayload_eq_ok, and_iff_right hread.fields]
    refine payload_rewritten_iff hrt hload (hproper _ hload.1) (sorted_withdrawnFields _ _ _)
      (inOrder_withdrawnFields _ _ _) ⟨2, rfl⟩ hread.keys ?_
    rintro ⟨i, hi⟩
    have hversion : i = 2 := by simpa [isVersion2, hi, Value.isInt] using hread.version
    rw [hversion] at hi
    cases hreplacement : p.replacementObjectHash with
    | none => simpa [withdrawnFields] using ⟨hread.alg, hi, hread.objectHash, hread.status⟩
    | some replacement =>
      simpa [withdrawnFields] using ⟨hread.alg, hi, hread.objectHash, hread.status,
        hread.replacement _ hreplacement⟩
  · obtain ⟨p, hp, rfl⟩ := map_eq_ok.1 hdecode
    have hread := decodeActivePayload_eq_ok.1 hp
    have hversion : (Value.atom (.int p.version)) = natValue 3 := by
      rw [hread.three]
      rfl
    rw [ProviderPayload.encode, encodeProviderPayload_eq_ok, and_iff_right hversion,
      and_iff_right hread.fields, hread.urlsSorted, hread.endpointsSorted]
    refine payload_rewritten_iff hrt hload (hproper _ hload.1) (by simp [activeFields])
      (inOrder_activeFields _ _ _ _) ⟨3, rfl⟩ hread.keys fun _ => ?_
    simpa [activeFields] using ⟨hread.alg, hread.version, hread.objectHash, hread.providerUrls,
      hread.endpoints⟩

/-- The active payload of the sample is written as it was read. -/
theorem samplePayload_rewritten : ∃ p b,
    decodeProviderPayload Sample.runtime b = .ok p ∧ p.encode Sample.runtime = .ok b := by
  obtain ⟨b, hb⟩ : ∃ b, encodeProviderPayload Sample.runtime (Sample.text "Ed25519")
      Sample.payloadHash Sample.payloadUrls Sample.payloadEndpoints = .ok b :=
    ⟨_, eq_ok_valueOf (by decide +kernel)⟩
  obtain ⟨-, hfields, hdumps⟩ := encodeProviderPayload_eq_ok.1 hb
  have hin := inOrder_activeEntries (Sample.text "Ed25519") Sample.payloadHash
    (sortedTexts Sample.payloadUrls) (sortedTexts Sample.payloadEndpoints)
  have hload := Sample.runtime_canonical.loadsDict_of_inOrder hin hdumps
  have hdecode := decodeProviderPayload_eq_ok.2
    ⟨_, hload, map_eq_ok.2 ⟨_, decodeActivePayload_eq_ok.2 hfields.isRead, rfl⟩⟩
  have hproper : ∀ v, Sample.runtime.loads b = some v → Proper v := by
    intro v hv
    rw [← Option.some.inj (hload.1.symm.trans hv)]
    exact hin.wire.proper
  refine ⟨_, b, hdecode, (providerPayload_unique_iff _ Sample.runtime_canonical b hproper _
    hdecode).2 fun map hmap => ?_⟩
  have hsame := Value.dict.inj (Option.some.inj (hload.1.symm.trans hmap))
  rw [← hsame]
  constructor
  · simp [natEntries, activeFields]
  · exact ⟨3, rfl⟩

namespace Sample

/-- The active payload with a boolean for the key 1. -/
def booleanPayload : Bytes :=
  cbor (.dict [(.int 2, natValue 3), (.int 3, .atom (.text payloadHash)),
    (.int 4, textsValue payloadUrls), (.int 5, textsValue []), (.bool true, .atom (.text ['a']))])

end Sample

/-- It is accepted as an active payload, which is written otherwise. -/
theorem booleanPayload_accepted : ∃ p b,
    decodeProviderPayload Sample.runtime Sample.booleanPayload = .ok p ∧
      p.encode Sample.runtime = .ok b ∧ b ≠ Sample.booleanPayload := by
  have h := eq_ok_valueOf (x := decodeProviderPayload Sample.runtime Sample.booleanPayload >>=
    fun p => p.encode Sample.runtime) (by decide +kernel)
  obtain ⟨p, hp, hencode⟩ := bind_eq_ok.1 h
  exact ⟨p, _, hp, hencode, by decide +kernel⟩

end DecentRegistry
