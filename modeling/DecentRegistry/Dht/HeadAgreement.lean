import DecentRegistry.Dht.HeadSelection
import DecentRegistry.Dht.Results

/-!
# Two ways to the head

The adapter picks the newer of the network's value and its own by `selectNewestEnvelope`, which
reads the envelopes leniently and compares the bytes of their SignedUpdates. The network picks among
the values of a key by `select`, which reads them as the namespace validator does and compares
digests. On two values the namespace validator reads, the two raise alike and pick one SignedUpdate
(`selectNewestEnvelope_agrees`).
-/

namespace DecentRegistry

open Fallible PyValue

variable {rt : Runtime} {key : Text} {a b : Bytes}

/-- What the namespace validator reads of a value is what the adapter reads of it. -/
theorem isHead_of_metadata {e : Bytes} {m : ℕ × Bytes} (h : metadata rt key e = .ok m) :
    ∃ u, IsHead rt e m.1 u ∧ m.2 = rt.sha256 u := by
  simp only [metadata, bind_eq_ok, rewrap_eq_ok, orRaise_eq_ok, Value.asDict?_eq_some,
    pure_eq_ok] at h
  obtain ⟨-, -, _, -, map, -, u, hu, update, hupdate, -, -, rfl⟩ := h
  have hbytes : envelopeSignedUpdateBytes rt e = .ok u := by
    split at hu
    · simp only [bind_eq_ok, pure_eq_ok] at hu
      obtain ⟨_, hsigned, rfl⟩ := hu
      exact envelopeSignedUpdateBytes_of_legacy hsigned
    · split at hu
      · simp only [bind_eq_ok, pure_eq_ok] at hu
        obtain ⟨_, henvelope, rfl⟩ := hu
        exact envelopeSignedUpdateBytes_of_multisignature henvelope
      · cases throw_eq_ok_iff.1 hu
  exact ⟨u, isHead_of_update hbytes hupdate, rfl⟩

/-! ## The two rules on two values -/

/-- Two heads compete: one sequence number, and different SignedUpdates. -/
abbrev Compete (n m : ℕ) (u v : Bytes) : Prop := n = m ∧ u ≠ v

theorem selectNewestEnvelope_of_heads {n m : ℕ} {u v : Bytes} (ha : IsHead rt a n u)
    (hb : IsHead rt b m v) :
    (Compete n m u v ∧ ∃ e, selectNewestEnvelope rt (some a) (some b) = .error e) ∨
      ¬ Compete n m u v ∧ ∃ w ∈ [a, b], selectNewestEnvelope rt (some a) (some b) = .ok (some w) ∧
        IsHead rt w (max n m) (if n < m then v else u) := by
  by_cases hsame : a = b
  · subst hsame
    obtain rfl : n = m := Except.ok.inj (ha.seq.symm.trans hb.seq)
    obtain rfl : u = v := Except.ok.inj (ha.signedUpdateBytes.symm.trans hb.signedUpdateBytes)
    exact .inr ⟨fun h => h.2 rfl, a, by simp, if_pos rfl, by simpa using ha⟩
  · simp only [selectNewestEnvelope, if_neg hsame, ha.seq, hb.seq, ha.signedUpdateBytes,
      hb.signedUpdateBytes, ok_bind]
    by_cases hseq : n = m
    · subst hseq
      rw [if_pos rfl]
      by_cases hupdate : u = v
      · subst hupdate
        exact .inr ⟨fun h => h.2 rfl, b, by simp, by simp [raiseIf, pure, Except.pure],
          by simpa using hb⟩
      · exact .inl ⟨⟨rfl, hupdate⟩, _, by rw [raiseIf_pos hupdate, error_bind]⟩
    · have hnot : ¬ Compete n m u v := fun h => hseq h.1
      rw [if_neg hseq]
      by_cases hnewer : m < n
      · rw [if_pos hnewer, if_neg (by omega), max_eq_left hnewer.le]
        exact .inr ⟨hnot, a, by simp, rfl, ha⟩
      · rw [if_neg hnewer, if_pos (by omega), max_eq_right (by omega)]
        exact .inr ⟨hnot, b, by simp, rfl, hb⟩

theorem select_of_two {m m' : ℕ × Bytes} (ha : metadata rt key a = .ok m)
    (hb : metadata rt key b = .ok m') :
    (Compete m.1 m'.1 m.2 m'.2 ∧ ∃ e, select rt key [a, b] = .error e) ∨
      ¬ Compete m.1 m'.1 m.2 m'.2 ∧ select rt key [a, b] = .ok (if m.1 < m'.1 then 1 else 0) := by
  simp only [select, selectFrom, ha, hb, ok_bind]
  split_ifs with hnewer
  · exact .inr ⟨fun h => by omega, rfl⟩
  · by_cases hcompete : m'.1 = m.1 ∧ m'.2 ≠ m.2
    · exact .inl ⟨⟨hcompete.1.symm, hcompete.2.symm⟩, _,
        by rw [raiseIf_pos hcompete, error_bind]⟩
    · rw [raiseIf_neg hcompete, ok_bind]
      exact .inr ⟨fun h => hcompete ⟨h.1.symm, h.2.symm⟩, rfl⟩

/-! ## Agreement -/

/-- Both rules raise, or both pick a value of one SignedUpdate and of the given sequence number. -/
structure PickAlike (rt : Runtime) (key : Text) (a b : Bytes) (seq : ℕ) : Prop where
  raises : (∃ e, selectNewestEnvelope rt (some a) (some b) = .error e) ↔
    ∃ e, select rt key [a, b] = .error e
  picks : ∀ r i, selectNewestEnvelope rt (some a) (some b) = .ok r →
    select rt key [a, b] = .ok i →
      ∃ x y u, r = some x ∧ [a, b][i]? = some y ∧ IsHead rt x seq u ∧ IsHead rt y seq u

/-- `_envelope_seq` returns. -/
def Parses (rt : Runtime) (e : Bytes) : Prop := ∃ n, envelopeSeq rt e = .ok n

/-- **The two head-selection rules agree** on two values the namespace validator reads, as far as
the digest tells their SignedUpdates apart; and of two values one of which parses,
`selectNewestEnvelope` returns that one. -/
theorem selectNewestEnvelope_agrees (rt : Runtime) (key : Text) (a b : Bytes) :
    (∀ m m', metadata rt key a = .ok m → metadata rt key b = .ok m' →
      (∀ u v, envelopeSignedUpdateBytes rt a = .ok u → envelopeSignedUpdateBytes rt b = .ok v →
        rt.sha256 u = rt.sha256 v → u = v) →
      PickAlike rt key a b (max m.1 m'.1)) ∧
    (Parses rt a → ¬ Parses rt b → selectNewestEnvelope rt (some a) (some b) = .ok (some a)) ∧
    (¬ Parses rt a → Parses rt b → selectNewestEnvelope rt (some a) (some b) = .ok (some b)) := by
  refine ⟨fun m m' ha hb injective => ?_, fun ⟨n, hn⟩ hb => ?_, fun ha ⟨n, hn⟩ => ?_⟩
  · obtain ⟨u, hu, hdigest⟩ := isHead_of_metadata ha
    obtain ⟨v, hv, hdigest'⟩ := isHead_of_metadata hb
    have hcompete : Compete m.1 m'.1 m.2 m'.2 ↔ Compete m.1 m'.1 u v := by
      rw [hdigest, hdigest']
      exact and_congr_right fun _ => not_congr
        ⟨injective u v hu.signedUpdateBytes hv.signedUpdateBytes, congrArg rt.sha256⟩
    rcases selectNewestEnvelope_of_heads hu hv with ⟨hc, e, he⟩ | ⟨hc, w, -, hw, hhead⟩
    · rcases select_of_two ha hb with ⟨-, e', he'⟩ | ⟨hc', -⟩
      · refine ⟨⟨fun _ => ⟨e', he'⟩, fun _ => ⟨e, he⟩⟩, fun r i hr => ?_⟩
        rw [he] at hr
        cases hr
      · exact absurd (hcompete.2 hc) hc'
    · rcases select_of_two ha hb with ⟨hc', -⟩ | ⟨-, hselect⟩
      · exact absurd (hcompete.1 hc') hc
      · refine ⟨by simp [hw, hselect], fun r i hr hi => ?_⟩
        obtain rfl : some w = r := Except.ok.inj (hw.symm.trans hr)
        obtain rfl : _ = i := Except.ok.inj (hselect.symm.trans hi)
        by_cases hnewer : m.1 < m'.1
        · rw [if_pos hnewer] at hhead ⊢
          exact ⟨w, b, v, rfl, rfl, hhead, by rwa [max_eq_right hnewer.le]⟩
        · rw [if_neg hnewer] at hhead ⊢
          exact ⟨w, a, u, rfl, rfl, hhead, by rwa [max_eq_left (by omega)]⟩
  · obtain ⟨e, he⟩ := eq_error_of_forall_ne_ok fun k hk => hb ⟨k, hk⟩
    have hne : a ≠ b := fun h => hb ⟨n, h ▸ hn⟩
    simp only [selectNewestEnvelope, if_neg hne, hn, he]
    rfl
  · obtain ⟨e, he⟩ := eq_error_of_forall_ne_ok fun k hk => ha ⟨k, hk⟩
    have hne : a ≠ b := fun h => ha ⟨n, h ▸ hn⟩
    simp only [selectNewestEnvelope, if_neg hne, he]
    rfl

/-- A legacy Identity and its upgrade; and the legacy Identity beside bytes that do not parse. -/
theorem sampleValues_pickAlike :
    PickAlike Sample.runtime Sample.identityKadKey Sample.legacyIdentity Sample.upgrade 2 ∧
      selectNewestEnvelope Sample.runtime (some Sample.legacyIdentity) (some []) =
        .ok (some Sample.legacyIdentity) ∧
      selectNewestEnvelope Sample.runtime (some []) (some Sample.legacyIdentity) =
        .ok (some Sample.legacyIdentity) := by
  obtain ⟨hlegacy, hupgrade, hdigests, hok, hempty⟩ :
      Prod.fst <$> metadata Sample.runtime Sample.identityKadKey Sample.legacyIdentity = .ok 1 ∧
      Prod.fst <$> metadata Sample.runtime Sample.identityKadKey Sample.upgrade = .ok 2 ∧
      (envelopeSignedUpdateBytes Sample.runtime Sample.legacyIdentity).map Sample.runtime.sha256 ≠
        (envelopeSignedUpdateBytes Sample.runtime Sample.upgrade).map Sample.runtime.sha256 ∧
      (envelopeSeq Sample.runtime Sample.legacyIdentity).isOk = true ∧
      (envelopeSeq Sample.runtime []).isOk = false := by
    decide +kernel
  obtain ⟨m, hm, hfirst⟩ := map_eq_ok.1 hlegacy
  obtain ⟨m', hm', hsecond⟩ := map_eq_ok.1 hupgrade
  have hseq : max m.1 m'.1 = 2 := by
    rw [hfirst, hsecond]
    rfl
  have hparses : Parses Sample.runtime Sample.legacyIdentity := ⟨_, eq_ok_valueOf hok⟩
  have hnot : ¬ Parses Sample.runtime [] := by
    rintro ⟨n, hn⟩
    rw [hn] at hempty
    cases hempty
  refine ⟨?_, ?_, ?_⟩
  · rw [← hseq]
    refine (selectNewestEnvelope_agrees Sample.runtime Sample.identityKadKey Sample.legacyIdentity
      Sample.upgrade).1 m m' hm hm' fun u v hu hv h => absurd ?_ hdigests
    rw [hu, hv]
    exact congrArg Except.ok h
  · exact (selectNewestEnvelope_agrees Sample.runtime Sample.identityKadKey Sample.legacyIdentity
      []).2.1 hparses hnot
  · exact (selectNewestEnvelope_agrees Sample.runtime Sample.identityKadKey []
      Sample.legacyIdentity).2.2 hnot hparses

end DecentRegistry
