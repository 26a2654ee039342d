import DecentRegistry.Model.Dht.Envelopes

/-!
# Keys of the DHT

The key under which a record is published is UTF-8 text that names the record's kind and, in
hexadecimal, its key (`parseKey_eq_ok`); it is never the key of a history entry
(`parseIdentityHistoryKey_kadKey`).
-/

namespace DecentRegistry

open Fallible PyValue

/-! ## Text and hexadecimal -/

/-- Decoding undoes encoding. -/
theorem decodeUtf8_utf8 (t : Text) : decodeUtf8 (utf8 t) = .ok t := by
  have hbytes : (⟨(utf8 t).toArray⟩ : ByteArray) = t.utf8Encode :=
    ByteArray.ext (List.data_toByteArray (l := utf8 t)).symm
  have hdecode : String.fromUTF8? t.utf8Encode = some (String.ofList t) :=
    dif_pos ByteArray.isValidUTF8_utf8Encode
  simp [decodeUtf8, hbytes, hdecode]

/-- Only what is encoded is decoded. -/
theorem decodeUtf8_eq_ok {key : Bytes} {t : Text} : decodeUtf8 key = .ok t ↔ key = utf8 t := by
  refine ⟨fun h => ?_, fun h => h ▸ decodeUtf8_utf8 t⟩
  simp only [decodeUtf8, orRaise_eq_ok, Option.map_eq_some_iff] at h
  obtain ⟨text, htext, rfl⟩ := h
  have hbytes : text.toByteArray = ⟨key.toArray⟩ := by
    unfold String.fromUTF8? at htext
    split at htext
    · obtain rfl := Option.some.inj htext
      rfl
    · cases htext
  have hencoded : text.toList.utf8Encode = ⟨key.toArray⟩ := String.utf8Encode_toList.trans hbytes
  have hlist := congrArg (fun b : ByteArray => b.data.toList) hencoded
  simpa [List.utf8Encode, utf8] using hlist.symm

theorem utf8_append (a b : Text) : utf8 (a ++ b) = utf8 a ++ utf8 b := List.flatMap_append

theorem hexDigit?_hexChar {n : ℕ} (h : n < 16) : hexDigit? (hexChar n) = some n :=
  (by decide : ∀ n : Fin 16, hexDigit? (hexChar n) = some n.val) ⟨n, h⟩

theorem isAsciiSpace_hexChar {n : ℕ} (h : n < 16) : isAsciiSpace (hexChar n) = false :=
  (by decide : ∀ n : Fin 16, isAsciiSpace (hexChar n) = false) ⟨n, h⟩

/-- Parsing hexadecimal digits undoes writing them. -/
theorem fromHex_toHex (b : Bytes) : fromHex (toHex b) = .ok b := by
  have key : fromHex? (toHex b) = some b := by
    induction b with
    | nil => rfl
    | cons x b ih =>
      have hx : x.toNat < 256 := x.toNat_lt
      have hhi : x.toNat / 16 < 16 := by omega
      have hlo : x.toNat % 16 < 16 := Nat.mod_lt _ (by decide)
      change fromHex? (hexChar (x.toNat / 16) :: hexChar (x.toNat % 16) :: toHex b) = _
      simp only [fromHex?, isAsciiSpace_hexChar hhi, Bool.false_eq_true, if_false,
        hexDigit?_hexChar hhi, hexDigit?_hexChar hlo, ih, Option.bind_eq_bind, Option.bind_some,
        Nat.div_add_mod, UInt8.ofNat_toNat]
  simp [fromHex, key]

/-! ## Record keys -/

/-- The key of a record up to its hash. -/
def kadKeyPrefix (kind : RecordKind) : Text := "/decent-registry/".toList ++ kind.text ++ ['/']

theorem kadKey_eq (hash : Text) (kind : RecordKind) :
    kadKey hash kind = kadKeyPrefix kind ++ hash :=
  List.append_cons _ _ _

/-- The keys of history entries begin with neither prefix. -/
theorem historyKeyPrefix_not_prefix : ∀ kind ∈ [RecordKind.identity, .provider],
    historyKeyPrefix.length ≤ (utf8 (kadKeyPrefix kind)).length ∧
      ¬ historyKeyPrefix <+: utf8 (kadKeyPrefix kind) := by
  decide

/-- The key of a record is not that of a history entry. -/
theorem parseIdentityHistoryKey_kadKey (hash : Text) (kind : RecordKind) :
    ∃ e, parseIdentityHistoryKey (utf8 (kadKey hash kind)) = .error e := by
  obtain ⟨hlength, hstart⟩ := historyKeyPrefix_not_prefix kind (by cases kind <;> simp)
  refine ⟨_, by rw [parseIdentityHistoryKey, raiseIf_pos (.inr fun h => hstart ?_), error_bind]⟩
  rw [kadKey_eq, utf8_append] at h
  exact List.prefix_of_prefix_length_le h (List.prefix_append _ _) hlength

theorem kadKey_eq_intercalate (hash : Text) (kind : RecordKind) :
    kadKey hash kind =
      List.intercalate ['/'] [[], "decent-registry".toList, kind.text, hash] := by
  have hname : "/decent-registry/".toList = '/' :: ("decent-registry".toList ++ ['/']) := by
    decide
  unfold kadKey
  rw [hname]
  generalize "decent-registry".toList = name
  simp [List.intercalate]

/-- A slash is neither a hexadecimal digit nor a space. -/
theorem slash_not_mem_of_fromHex {hash : Text} {b : Bytes} (h : fromHex hash = .ok b) :
    '/' ∉ hash := by
  have hslash : hexDigit? '/' = none ∧ isAsciiSpace '/' = false := by decide
  have key (t : Text) (h : (fromHex? t).isSome = true) : '/' ∉ t := by
    induction t using fromHex?.induct with
    | case1 => simp
    | case2 c _ =>
      intro hmem
      obtain rfl := List.mem_singleton.1 hmem
      simp [fromHex?, hslash.2] at h
    | case3 c _ =>
      simp [fromHex?, *] at h
    | case4 c d rest hspace ih =>
      rw [fromHex?, if_pos hspace] at h
      rintro (_ | hmem)
      · simp [hslash.2] at hspace
      · exact ih h ‹_›
    | case5 c d rest hspace ih =>
      rw [fromHex?, if_neg hspace] at h
      obtain ⟨_, hb⟩ := Option.isSome_iff_exists.1 h
      simp only [Option.bind_eq_bind, Option.bind_eq_some_iff] at hb
      obtain ⟨hi, hhi, lo, hlo, bytes, hrest, -⟩ := hb
      intro hmem
      rcases List.mem_cons.1 hmem with rfl | hmem
      · rw [hslash.1] at hhi
        cases hhi
      rcases List.mem_cons.1 hmem with rfl | hmem
      · rw [hslash.1] at hlo
        cases hlo
      · exact ih (by simp [hrest]) hmem
  refine key hash ?_
  rw [fromHex, orRaise_eq_ok] at h
  simp [h]

/-- **A key that parses** is that of a record. -/
theorem parseKey_eq_ok {key : Text} {kind : RecordKind} {recordKey : Bytes} :
    parseKey key = .ok (kind, recordKey) ↔
      ∃ hash, key = kadKey hash kind ∧ fromHex hash = .ok recordKey ∧ recordKey.length = 32 := by
  constructor
  · intro h
    have hsplit : List.intercalate ['/'] (key.splitOn '/') = key := List.intercalate_splitOn '/'
    have hkad := kadKey_eq_intercalate
    unfold parseKey at h
    generalize key.splitOn '/' = parts at h hsplit
    generalize "decent-registry".toList = name at h hkad
    match parts, h with
    | [start, registry, kindText, hash], h =>
      simp only [bind_eq_ok, raiseIf_eq_ok, not_or, not_not, pure_eq_ok, Prod.mk.injEq] at h
      obtain ⟨-, ⟨rfl, rfl⟩, k, hk, key', hkey, -, hlength, rfl, rfl⟩ := h
      have hkind : kindText = k.text := by
        split at hk
        · obtain rfl := pure_eq_ok.1 hk
          assumption
        · split at hk
          · obtain rfl := pure_eq_ok.1 hk
            assumption
          · cases hk
      subst hkind
      exact ⟨hash, by rw [← hsplit, hkad], rewrap_eq_ok.1 hkey, hlength⟩
  · rintro ⟨hash, rfl, hkey, hlength⟩
    have hsplit : (kadKey hash kind).splitOn '/' =
        [[], "decent-registry".toList, kind.text, hash] := by
      rw [kadKey_eq_intercalate]
      refine List.splitOn_intercalate '/' ?_ (by simp)
      have hnames : '/' ∉ "decent-registry".toList ∧ '/' ∉ kind.text := by
        cases kind <;> decide
      simp [hnames, slash_not_mem_of_fromHex hkey]
    simp only [parseKey, hsplit, bind_eq_ok, raiseIf_eq_ok, not_or, not_not, pure_eq_ok,
      Prod.mk.injEq, exists_const, and_self, true_and]
    refine ⟨kind, ?_, recordKey, rewrap_eq_ok.2 hkey, hlength, rfl, rfl⟩
    cases kind with
    | identity => rfl
    | provider => rfl

/-- **The bytes of a key that parses.** -/
theorem parse_eq_ok {key : Bytes} {kind : RecordKind} {recordKey : Bytes} :
    decodeUtf8 key >>= parseKey = .ok (kind, recordKey) ↔ ∃ hash, key = utf8 (kadKey hash kind) ∧
      fromHex hash = .ok recordKey ∧ recordKey.length = 32 := by
  simp only [bind_eq_ok, decodeUtf8_eq_ok, parseKey_eq_ok]
  constructor
  · rintro ⟨_, rfl, hash, rfl, hkey, hlength⟩
    exact ⟨hash, rfl, hkey, hlength⟩
  · rintro ⟨hash, rfl, hkey, hlength⟩
    exact ⟨_, rfl, hash, rfl, hkey, hlength⟩

theorem kadKey_injective {hash hash' : Text} {kind kind' : RecordKind} :
    kadKey hash kind = kadKey hash' kind' ↔ kind = kind' ∧ hash = hash' := by
  refine ⟨fun h => ?_, fun h => by rw [h.1, h.2]⟩
  rw [kadKey_eq, kadKey_eq] at h
  have hlength : (kadKeyPrefix kind).length = (kadKeyPrefix kind').length := by
    cases kind <;> cases kind' <;> decide
  obtain ⟨hstart, hhash⟩ := List.append_inj h hlength
  refine ⟨?_, hhash⟩
  revert hstart
  cases kind <;> cases kind' <;> decide

/-- The key of a record is the key of no other record. -/
theorem recordKey_of_kadKey {recordKey recordKey' : Bytes} {hash hash' : Text}
    {kind kind' : RecordKind} (h : kadKey hash kind = kadKey hash' kind')
    (hkey : fromHex hash = .ok recordKey) (hkey' : fromHex hash' = .ok recordKey') :
    recordKey = recordKey' := by
  obtain ⟨-, rfl⟩ := kadKey_injective.1 h
  exact Except.ok.inj (hkey.symm.trans hkey')

end DecentRegistry
