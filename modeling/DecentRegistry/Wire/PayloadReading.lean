import DecentRegistry.Model.ProviderEncoding
import DecentRegistry.Wire.Codec
import DecentRegistry.Wire.Recasing

/-!
# Reading and writing provider payloads

What the decoder of provider payloads reads and what the builders write, on each side in the same
terms: the fields of an active record (`ActiveFields`) or of a tombstone (`WithdrawnFields`), and
the dictionary that holds them. The two sides differ in two ways only. The builder sorts URLs and
endpoints where the decoder demands that they are sorted, and the decoder takes other numbers that
equal 2 for the version of a tombstone (`decodeActivePayload_eq_ok`,
`decodeWithdrawnPayload_eq_ok`). -/

namespace DecentRegistry

open Fallible PyValue ProviderUri

/-! ## Texts -/

/-- Sorted texts are determined by which texts there are. -/
theorem sortedTexts_perm {texts texts' : List Text} (h : texts.Perm texts') :
    sortedTexts texts = sortedTexts texts' := by
  have hperm : (sortedTexts texts).Perm (sortedTexts texts') :=
    (List.perm_insertionSort _ _).trans (h.trans (List.perm_insertionSort _ _).symm)
  refine hperm.eq_of_pairwise ?_ (List.pairwise_insertionSort _ _) (List.pairwise_insertionSort _ _)
  intro s t _ _ hle hge
  exact le_antisymm hle hge

theorem sortedTexts_perm_self (texts : List Text) : (sortedTexts texts).Perm texts :=
  List.perm_insertionSort _ _

theorem sortedTexts_sortedTexts (texts : List Text) :
    sortedTexts (sortedTexts texts) = sortedTexts texts :=
  sortedTexts_perm (sortedTexts_perm_self _)

theorem textList_eq_ok {v : Value} {e : PyError} {texts : List Text} :
    textList v e = .ok texts ↔ v = textsValue texts := by
  have hmap (xs : List Value) : xs.mapM (fun v => orRaise v.asText? e) = .ok texts ↔
      xs = texts.map fun t => .atom (.text t) := by
    induction xs generalizing texts with
    | nil =>
      rw [List.mapM_nil, pure_eq_ok]
      constructor
      · rintro rfl
        rfl
      · intro h
        exact (List.map_eq_nil_iff.1 h.symm).symm
    | cons x xs ih =>
      simp only [List.mapM_cons, bind_eq_ok, orRaise_eq_ok, Value.asText?_eq_some, pure_eq_ok]
      constructor
      · rintro ⟨t, rfl, ts, hts, rfl⟩
        rw [List.map_cons, ih.1 hts]
      · intro h
        obtain ⟨t, ts, rfl, hx, hxs⟩ := List.map_eq_cons_iff.1 h.symm
        exact ⟨t, hx.symm, ts, ih.2 hxs.symm, rfl⟩
  simp only [textList, bind_eq_ok, orRaise_eq_ok, Value.asList?_eq_some, hmap]
  constructor
  · rintro ⟨_, rfl, rfl⟩
    rfl
  · rintro rfl
    exact ⟨_, rfl, rfl⟩

/-- A check of each element that returns the element. -/
theorem mapM_self_eq_ok {α : Type} {f : α → Py α} (hself : ∀ a b, f a = .ok b → b = a)
    {l l' : List α} : l.mapM f = .ok l' ↔ l' = l ∧ ∀ a ∈ l, f a = .ok a := by
  induction l generalizing l' with
  | nil =>
    rw [List.mapM_nil, pure_eq_ok]
    simp [eq_comm]
  | cons a l ih =>
    simp only [List.mapM_cons, bind_eq_ok, pure_eq_ok, List.forall_mem_cons]
    constructor
    · rintro ⟨b, hb, bs, hbs, rfl⟩
      obtain rfl := hself _ _ hb
      obtain ⟨rfl, hall⟩ := ih.1 hbs
      exact ⟨rfl, hb, hall⟩
    · rintro ⟨rfl, ha, hall⟩
      exact ⟨a, ha, l, ih.2 ⟨rfl, hall⟩, rfl⟩

/-! ## Fields -/

theorem validateAlg_eq_ok {v : Value} {alg : Text} :
    validateAlg v = .ok alg ↔ v = .atom (.text alg) ∧ alg ≠ [] := by
  simp only [validateAlg, bind_eq_ok, orRaise_eq_ok, raiseIf_eq_ok, pure_eq_ok, exists_const,
    Value.asText?_eq_some, List.isEmpty_iff]
  constructor
  · rintro ⟨_, rfl, hne, rfl⟩
    exact ⟨rfl, hne⟩
  · rintro ⟨rfl, hne⟩
    exact ⟨alg, rfl, hne, rfl⟩

theorem validateEndpoint_self {e e' : Text} (h : validateEndpoint e = .ok e') : e' = e := by
  simp only [validateEndpoint, bind_eq_ok, pure_eq_ok] at h
  obtain ⟨_, -, _, -, rfl⟩ := h
  rfl

theorem validateProviderUri_self {uri uri' : Text} (h : validateProviderUri uri = .ok uri') :
    uri' = uri := by
  simp only [validateProviderUri, bind_eq_ok] at h
  obtain ⟨_, -, _, -, _, -, _, -, _, -, _, -, _, -, h⟩ := h
  split at h
  · exact (pure_eq_ok.1 h).symm
  · obtain ⟨_, -, h⟩ := bind_eq_ok.1 h
    exact (pure_eq_ok.1 h).symm

/-- Endpoints that pass the checks. -/
structure ValidEndpoints (endpoints : List Text) : Prop where
  count : endpoints.length ≤ 32
  valid : ∀ e ∈ endpoints, validateEndpoint e = .ok e

/-- URLs that pass the checks. -/
structure ValidUrls (providerUrls : List Text) : Prop where
  nonempty : 1 ≤ providerUrls.length
  count : providerUrls.length ≤ 32
  valid : ∀ url ∈ providerUrls, validateProviderUri url = .ok url
  distinct : providerUrls.Nodup

theorem validateEndpoints_eq_ok {endpoints eps : List Text} :
    validateEndpoints endpoints = .ok eps ↔ eps = endpoints ∧ ValidEndpoints endpoints := by
  simp only [validateEndpoints, bind_eq_ok, raiseIf_eq_ok, not_lt, exists_const,
    mapM_self_eq_ok fun _ _ => validateEndpoint_self]
  constructor
  · rintro ⟨hcount, rfl, hvalid⟩
    exact ⟨rfl, hcount, hvalid⟩
  · rintro ⟨rfl, hcount, hvalid⟩
    exact ⟨hcount, rfl, hvalid⟩

theorem normalizeSortedProviderUrls_eq_ok {providerUrls urls : List Text} :
    normalizeSortedProviderUrls providerUrls = .ok urls ↔
      urls = sortedTexts providerUrls ∧ ValidUrls providerUrls := by
  simp only [normalizeSortedProviderUrls, bind_eq_ok, raiseIf_eq_ok, not_or, not_lt, not_not,
    exists_const, mapM_self_eq_ok fun _ _ => validateProviderUri_self, pure_eq_ok]
  constructor
  · rintro ⟨⟨hone, hcount⟩, _, ⟨rfl, hvalid⟩, hdistinct, rfl⟩
    exact ⟨rfl, hone, hcount, hvalid, hdistinct⟩
  · rintro ⟨rfl, hone, hcount, hvalid, hdistinct⟩
    exact ⟨⟨hone, hcount⟩, _, ⟨rfl, hvalid⟩, hdistinct, rfl⟩

theorem ValidEndpoints.perm {endpoints endpoints' : List Text} (h : ValidEndpoints endpoints)
    (hperm : endpoints'.Perm endpoints) : ValidEndpoints endpoints' :=
  ⟨hperm.length_eq ▸ h.count, fun e he => h.valid e (hperm.mem_iff.1 he)⟩

theorem ValidUrls.perm {urls urls' : List Text} (h : ValidUrls urls) (hperm : urls'.Perm urls) :
    ValidUrls urls' :=
  ⟨hperm.length_eq ▸ h.nonempty, hperm.length_eq ▸ h.count,
    fun url hurl => h.valid url (hperm.mem_iff.1 hurl), hperm.nodup_iff.2 h.distinct⟩

/-! ## Active payloads -/

/-- The entries of an active payload. -/
def activeFields (alg objectHash : Text) (providerUrls endpoints : List Text) : List (ℕ × Value) :=
  [(1, .atom (.text alg)), (2, natValue 3), (3, .atom (.text objectHash)),
    (4, textsValue providerUrls), (5, textsValue endpoints)]

/-- The fields of an active payload, as both sides check them. -/
structure ActiveFields (alg objectHash : Text) (providerUrls endpoints : List Text) : Prop where
  nonempty : alg ≠ []
  hash : isObjectHash objectHash = true
  urls : ValidUrls providerUrls
  eps : ValidEndpoints endpoints

theorem buildProviderPayloadDict_eq_ok {alg objectHash : Text} {providerUrls endpoints : List Text}
    {version : Value} {payload : Dict} :
    buildProviderPayloadDict alg objectHash providerUrls endpoints version = .ok payload ↔
      version = natValue 3 ∧ ActiveFields alg objectHash providerUrls endpoints ∧
        payload = natEntries (activeFields alg objectHash (sortedTexts providerUrls)
          (sortedTexts endpoints)) := by
  simp only [buildProviderPayloadDict, normalizeSortedEndpoints, bind_eq_ok, raiseIf_eq_ok, not_not,
    Value.asInt?_eq_some, List.isEmpty_iff, exists_const, pure_eq_ok, validateEndpoints_eq_ok,
    normalizeSortedProviderUrls_eq_ok, validateObjectHash_eq_ok]
  constructor
  · rintro ⟨rfl, halg, _, ⟨_, ⟨rfl, heps⟩, rfl⟩, _, ⟨rfl, hurls⟩, hash, ⟨hhash, hvalid⟩, rfl⟩
    cases hhash
    exact ⟨rfl, ⟨halg, hvalid, hurls, heps⟩, rfl⟩
  · rintro ⟨rfl, ⟨halg, hvalid, hurls, heps⟩, rfl⟩
    exact ⟨rfl, halg, _, ⟨_, ⟨rfl, heps⟩, rfl⟩, _, ⟨rfl, hurls⟩, _, ⟨rfl, hvalid⟩, rfl⟩

/-- What a dictionary that reads as an active payload holds. -/
structure ProviderPayloadV3.IsRead (p : ProviderPayloadV3) (payload : Dict) : Prop where
  keys : payload.keysAre [1, 2, 3, 4, 5] = true
  alg : payload.get? 1 = some (.atom (.text p.alg))
  version : payload.get? 2 = some (natValue 3)
  objectHash : payload.get? 3 = some (.atom (.text p.objectHash))
  providerUrls : payload.get? 4 = some (textsValue p.providerUrls)
  endpoints : payload.get? 5 = some (textsValue p.endpoints)
  three : p.version = 3
  fields : ActiveFields p.alg p.objectHash p.providerUrls p.endpoints
  urlsSorted : sortedTexts p.providerUrls = p.providerUrls
  endpointsSorted : sortedTexts p.endpoints = p.endpoints

theorem decodeActivePayload_eq_ok {payload : Dict} {p : ProviderPayloadV3} :
    decodeActivePayload payload = .ok p ↔ p.IsRead payload := by
  simp only [decodeActivePayload, bind_eq_ok, raiseIf_eq_ok, not_not, getItem_eq_ok, orRaise_eq_ok,
    Value.asInt?_eq_some, exists_const, pure_eq_ok, validateAlg_eq_ok, textList_eq_ok,
    validateEndpoints_eq_ok, normalizeSortedProviderUrls_eq_ok, validateObjectHash_eq_ok]
  constructor
  · rintro ⟨hkeys, _, h₂, version, rfl, rfl, _, h₁, alg, ⟨rfl, halg⟩, _, h₅, eps, rfl, _,
      ⟨rfl, heps⟩, hepsSorted, _, h₄, urls, rfl, _, ⟨rfl, hurls⟩, hurlsSorted, _, h₃, hash,
      ⟨rfl, hhash⟩, rfl⟩
    rw [← hurlsSorted]
    exact ⟨by simpa using hkeys, h₁, h₂, h₃, h₄, h₅, rfl, ⟨halg, hhash, hurls, heps⟩,
      hurlsSorted.symm, hepsSorted.symm⟩
  · intro h
    obtain ⟨alg, version, hash, urls, eps⟩ := p
    obtain ⟨hkeys, h₁, h₂, h₃, h₄, h₅, rfl, ⟨halg, hhash, hurls, heps⟩, hurlsSorted, hepsSorted⟩ :=
      h
    refine ⟨by simp [hkeys], _, h₂, 3, rfl, rfl, _, h₁, alg, ⟨rfl, halg⟩, _, h₅, eps, rfl, _,
      ⟨rfl, heps⟩, hepsSorted.symm, _, h₄, urls, rfl, _, ⟨rfl, hurls⟩,
        hurlsSorted.symm, _, h₃, hash,
      ⟨rfl, hhash⟩, ?_⟩
    rw [hurlsSorted]

/-- The dictionary that is built for the fields is read as them. -/
theorem ActiveFields.isRead {alg objectHash : Text} {providerUrls endpoints : List Text}
    (h : ActiveFields alg objectHash providerUrls endpoints) :
    ProviderPayloadV3.IsRead ⟨alg, 3, objectHash, sortedTexts providerUrls, sortedTexts endpoints⟩
      (natEntries (activeFields alg objectHash (sortedTexts providerUrls)
        (sortedTexts endpoints))) :=
  { keys := rfl
    alg := rfl
    version := rfl
    objectHash := rfl
    providerUrls := rfl
    endpoints := rfl
    three := rfl
    fields := ⟨h.nonempty, h.hash, h.urls.perm (sortedTexts_perm_self _),
      h.eps.perm (sortedTexts_perm_self _)⟩
    urlsSorted := sortedTexts_sortedTexts _
    endpointsSorted := sortedTexts_sortedTexts _ }

/-! ## Tombstones -/

/-- The entries of a tombstone. -/
def withdrawnFields (alg objectHash : Text) (replacement : Option Text) : List (ℕ × Value) :=
  [(1, .atom (.text alg)), (2, natValue 2), (3, .atom (.text objectHash)),
    (4, .atom (.text ['w', 'i', 't', 'h', 'd', 'r', 'a', 'w', 'n']))] ++
    (replacement.map fun hash => (5, .atom (.text hash))).toList

/-- The fields of a tombstone, as both sides check them. -/
structure WithdrawnFields (alg objectHash : Text) (replacement : Option Text) : Prop where
  nonempty : alg ≠ []
  hash : isObjectHash objectHash = true
  replacementHash : ∀ hash ∈ replacement, isObjectHash hash = true
  other : ∀ hash ∈ replacement, ∃ bytes bytes', fromHex hash = .ok bytes ∧
    fromHex objectHash = .ok bytes' ∧ bytes ≠ bytes'

theorem buildProviderWithdrawalPayloadDict_eq_ok {alg objectHash : Text}
    {replacement : Option Text} {payload : Dict} :
    buildProviderWithdrawalPayloadDict alg objectHash replacement = .ok payload ↔
      WithdrawnFields alg objectHash replacement ∧
        payload = natEntries (withdrawnFields alg objectHash replacement) := by
  cases replacement with
  | none =>
    simp only [buildProviderWithdrawalPayloadDict, bind_eq_ok, raiseIf_eq_ok, List.isEmpty_iff,
      exists_const, pure_eq_ok, validateObjectHash_eq_ok]
    constructor
    · rintro ⟨halg, hash, ⟨hhash, hvalid⟩, rfl⟩
      cases hhash
      exact ⟨⟨halg, hvalid, by simp, by simp⟩, rfl⟩
    · rintro ⟨⟨halg, hvalid, -, -⟩, rfl⟩
      exact ⟨halg, _, ⟨rfl, hvalid⟩, rfl⟩
  | some replacement =>
    simp only [buildProviderWithdrawalPayloadDict, bind_eq_ok, raiseIf_eq_ok, List.isEmpty_iff,
      exists_const, pure_eq_ok, validateObjectHash_eq_ok]
    constructor
    · rintro ⟨halg, hash, ⟨hhash, hvalid⟩, replacement', ⟨hreplacement, hvalid'⟩, bytes, hbytes,
        bytes', hbytes', hne, rfl⟩
      cases hhash
      cases hreplacement
      exact ⟨⟨halg, hvalid, by simpa using hvalid', by simpa using ⟨_, hbytes, _, hbytes', hne⟩⟩,
        rfl⟩
    · rintro ⟨⟨halg, hvalid, hvalid', hother⟩, rfl⟩
      obtain ⟨bytes, bytes', hbytes, hbytes', hne⟩ := hother replacement rfl
      exact ⟨halg, _, ⟨rfl, hvalid⟩, _, ⟨rfl, hvalid' _ rfl⟩, bytes, hbytes, bytes',
        hbytes', hne, rfl⟩

/-- What a dictionary that reads as a tombstone holds. The version is any number that equals 2 and
is not a boolean. -/
structure ProviderWithdrawnPayloadV2.IsRead (p : ProviderWithdrawnPayloadV2) (payload : Dict) :
    Prop where
  keys : payload.keysAre ((withdrawnFields p.alg p.objectHash p.replacementObjectHash).map
    fun e => (e.1 : Int)) = true
  alg : payload.get? 1 = some (.atom (.text p.alg))
  version : isVersion2 payload = true
  objectHash : payload.get? 3 = some (.atom (.text p.objectHash))
  status : payload.get? 4 = some (.atom (.text ['w', 'i', 't', 'h', 'd', 'r', 'a', 'w', 'n']))
  replacement : ∀ hash ∈ p.replacementObjectHash, payload.get? 5 = some (.atom (.text hash))
  fields : WithdrawnFields p.alg p.objectHash p.replacementObjectHash

theorem decodeWithdrawnPayload_eq_ok {payload : Dict} {p : ProviderWithdrawnPayloadV2}
    (hversion : isVersion2 payload = true) :
    decodeWithdrawnPayload payload = .ok p ↔ p.IsRead payload := by
  obtain ⟨alg, hash, replacement⟩ := p
  cases hfive : payload.has 5 with
  | false =>
    have habsent : ∀ v, payload.get? 5 ≠ some v := by
      intro v hv
      rw [Dict.has_iff.2 ⟨v, hv⟩] at hfive
      cases hfive
    have hfour : payload.keysAre [1, 2, 3, 4, 5] = false := by
      rw [Bool.eq_false_iff]
      intro hkeys
      obtain ⟨v, hv⟩ := Dict.get?_of_keysAre hkeys (n := 5) (by decide)
      exact habsent v hv
    simp only [decodeWithdrawnPayload, hfive, hfour, Bool.false_eq_true, if_false, bind_eq_ok,
      raiseIf_eq_ok, getItem_eq_ok, exists_const, pure_eq_ok, validateAlg_eq_ok,
      validateObjectHash_eq_ok, not_not, Value.asText?_eq_some]
    constructor
    · rintro ⟨hkeys, _, h₁, _, ⟨rfl, halg⟩, _, h₃, _, ⟨rfl, hhash⟩, _, h₄, rfl, _, rfl, heq⟩
      cases heq
      have hkeys' : payload.keysAre [1, 2, 3, 4] = true := by simpa using hkeys
      exact ⟨hkeys', h₁, hversion, h₃, h₄, by simp, halg, hhash, by simp, by simp⟩
    · intro h
      cases replacement with
      | some replacement => exact absurd (h.replacement _ rfl) (habsent _)
      | none =>
        have hkeys : payload.keysAre [1, 2, 3, 4] = true := h.keys
        exact ⟨by simp [hkeys], _, h.alg, _, ⟨rfl, h.fields.nonempty⟩, _, h.objectHash, _,
          ⟨rfl, h.fields.hash⟩, _, h.status, rfl, _, rfl, rfl⟩
  | true =>
    have hfour : payload.keysAre [1, 2, 3, 4] = false := by
      rw [Bool.eq_false_iff]
      intro hkeys
      obtain ⟨v, hv⟩ := Dict.has_iff.1 hfive
      cases (Dict.get?_eq_none_of_keysAre hkeys (n := 5) (by decide)).symm.trans hv
    simp only [decodeWithdrawnPayload, hfive, hfour, if_true, bind_eq_ok, raiseIf_eq_ok,
      getItem_eq_ok, exists_const, pure_eq_ok, validateAlg_eq_ok, validateObjectHash_eq_ok, not_not,
      Value.asText?_eq_some]
    constructor
    · rintro ⟨hkeys, _, h₁, _, ⟨rfl, halg⟩, _, h₃, _, ⟨rfl, hhash⟩, _, h₄, rfl, _, h₅,
        replacement', ⟨rfl, hhash'⟩, bytes, hbytes, bytes', hbytes', hne, _, rfl, heq⟩
      cases heq
      have hkeys' : payload.keysAre [1, 2, 3, 4, 5] = true := by simpa using hkeys
      exact ⟨hkeys', h₁, hversion, h₃, h₄, by simpa using h₅, halg, hhash, by simpa using hhash',
        by simpa using ⟨_, hbytes, _, hbytes', hne⟩⟩
    · intro h
      cases replacement with
      | none =>
        have hkeys : payload.keysAre [1, 2, 3, 4] = true := h.keys
        rw [hkeys] at hfour
        cases hfour
      | some replacement =>
        have hkeys : payload.keysAre [1, 2, 3, 4, 5] = true := h.keys
        obtain ⟨bytes, bytes', hbytes, hbytes', hne⟩ := h.fields.other _ rfl
        exact ⟨by simp [hkeys], _, h.alg, _, ⟨rfl, h.fields.nonempty⟩, _, h.objectHash, _,
          ⟨rfl, h.fields.hash⟩, _, h.status, rfl, _, h.replacement _ rfl, _,
          ⟨rfl, h.fields.replacementHash _ rfl⟩, bytes, hbytes, bytes', hbytes', hne, _, rfl, rfl⟩

/-- The dictionary that is built for the fields is read as them. -/
theorem WithdrawnFields.isRead {alg objectHash : Text} {replacement : Option Text}
    (h : WithdrawnFields alg objectHash replacement) :
    ProviderWithdrawnPayloadV2.IsRead ⟨alg, objectHash, replacement⟩
      (natEntries (withdrawnFields alg objectHash replacement)) := by
  cases replacement with
  | none => exact ⟨rfl, rfl, rfl, rfl, rfl, by simp, h⟩
  | some replacement =>
    refine ⟨rfl, rfl, rfl, rfl, rfl, ?_, h⟩
    rintro hash ⟨⟩
    rfl

end DecentRegistry
