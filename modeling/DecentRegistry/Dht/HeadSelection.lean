import DecentRegistry.Foundations.Selection
import DecentRegistry.Model.Dht.ValueValidator
import DecentRegistry.Sample.Records

/-!
# The order of the values of a key

`select` is one pass over the metadata of the values (`select_spec`), so it depends on their order:
two values of an older sequence number that compete are noticed when they stand before the newest
value, and not when they stand after it (`sampleValues_orderMatters`). It depends on the order in no
other case (`select_orderIndependent_iff`).
-/

namespace DecentRegistry

open Fallible PyValue Selection

variable {rt : Runtime} {key : Text}

/-! ## The pass -/

/-- The metadata of the values, value by value. -/
abbrev MetadataOf (rt : Runtime) (key : Text) : List Bytes → List (ℕ × Bytes) → Prop :=
  List.Forall₂ fun value m => metadata rt key value = .ok m

theorem exists_metadataOf {values : List Bytes}
    (h : ∀ v ∈ values, ∃ m, metadata rt key v = .ok m) : ∃ ms, MetadataOf rt key values ms := by
  induction values with
  | nil => exact ⟨[], .nil⟩
  | cons v values ih =>
    obtain ⟨m, hm⟩ := h v (by simp)
    obtain ⟨ms, hms⟩ := ih fun w hw => h w (by simp [hw])
    exact ⟨m :: ms, .cons hm hms⟩

theorem MetadataOf.mem {values : List Bytes} {ms : List (ℕ × Bytes)} {m : ℕ × Bytes}
    (h : MetadataOf rt key values ms) : m ∈ ms ↔ ∃ v ∈ values, metadata rt key v = .ok m := by
  induction h with
  | nil => simp
  | @cons v m' values ms hv _ ih => simp [ih, hv, eq_comm]

/-- The loop passes the metadata of what is left, and the index it returns is that of the value it
picked. -/
theorem selectFrom_spec {pre rest : List Bytes} {ms : List (ℕ × Bytes)} {bestIndex : ℕ}
    {best : ℕ × Bytes} (h : MetadataOf rt key rest ms)
    (hbest : (pre ++ rest)[bestIndex]?.map (metadata rt key) = some (.ok best)) :
    (pass best ms = none ∧ ∃ e, selectFrom rt key rest pre.length bestIndex best = .error e) ∨
      ∃ b i, pass best ms = some b ∧ selectFrom rt key rest pre.length bestIndex best = .ok i ∧
        (pre ++ rest)[i]?.map (metadata rt key) = some (.ok b) := by
  induction h generalizing pre bestIndex best with
  | nil => exact .inr ⟨best, bestIndex, rfl, rfl, hbest⟩
  | @cons v m rest ms hv _ ih =>
    have hsplit : pre ++ v :: rest = (pre ++ [v]) ++ rest := by simp
    have hlength : pre.length + 1 = (pre ++ [v]).length := by simp
    simp only [selectFrom, hv, ok_bind, Selection.pass]
    split_ifs with newer competing
    · rw [hsplit, hlength]
      refine ih ?_
      simp [hv]
    · exact .inl ⟨rfl, by simp [raiseIf_pos competing]⟩
    · rw [raiseIf_neg competing, ok_bind, hsplit, hlength]
      refine ih ?_
      rw [← hsplit]
      exact hbest

/-- **`select` is one pass over the metadata of the values.** -/
theorem select_spec {values : List Bytes} {ms : List (ℕ × Bytes)}
    (h : MetadataOf rt key values ms) :
    (pick ms = none ∧ ∃ e, select rt key values = .error e) ∨
      ∃ b i, pick ms = some b ∧ select rt key values = .ok i ∧
        values[i]?.map (metadata rt key) = some (.ok b) := by
  cases h with
  | nil => exact .inl ⟨rfl, _, rfl⟩
  | @cons v m rest ms hv hrest =>
    have hloop := @selectFrom_spec rt key [v] rest ms 0 m hrest (by simp [hv])
    simpa [select, pick, hv] using hloop

theorem select_raises_iff {values : List Bytes} {ms : List (ℕ × Bytes)}
    (h : MetadataOf rt key values ms) :
    (∃ e, select rt key values = .error e) ↔ pick ms = none := by
  rcases select_spec h with ⟨hnone, hraises⟩ | ⟨b, i, hb, hi, -⟩
  · exact ⟨fun _ => hnone, fun _ => hraises⟩
  · simp [hb, hi]

/-! ## Orders of the values -/

/-- Two values carry the sequence number and different SignedUpdates. -/
def CompetingAt (rt : Runtime) (key : Text) (values : List Bytes) (seq : ℕ) : Prop :=
  ∃ v ∈ values, ∃ w ∈ values, ∃ stateHash stateHash',
    metadata rt key v = .ok (seq, stateHash) ∧ metadata rt key w = .ok (seq, stateHash') ∧
      stateHash ≠ stateHash'

/-- Both calls raise, or both pick a value of one SignedUpdate and of the greatest sequence
number. -/
structure SelectsAlike (rt : Runtime) (key : Text) (values values' : List Bytes) : Prop where
  raises : (∃ e, select rt key values' = .error e) ↔ ∃ e, select rt key values = .error e
  picks : ∀ i j, select rt key values = .ok i → select rt key values' = .ok j →
    ∃ v w seq stateHash, values[i]? = some v ∧ values'[j]? = some w ∧
      metadata rt key v = .ok (seq, stateHash) ∧ metadata rt key w = .ok (seq, stateHash) ∧
        ∀ u ∈ values, ∀ m, metadata rt key u = .ok m → m.1 ≤ seq

theorem MetadataOf.competingAt {values : List Bytes} {ms : List (ℕ × Bytes)} {seq : ℕ}
    (h : MetadataOf rt key values ms) : CompetingAt rt key values seq ↔ Competes ms seq := by
  constructor
  · rintro ⟨v, hv, w, hw, x, y, hx, hy, hne⟩
    exact ⟨(seq, x), h.mem.2 ⟨v, hv, hx⟩, (seq, y), h.mem.2 ⟨w, hw, hy⟩, rfl, rfl, hne⟩
  · rintro ⟨⟨_, x⟩, hx, ⟨_, y⟩, hy, rfl, hyx, hne⟩
    obtain ⟨v, hv, hmv⟩ := h.mem.1 hx
    obtain ⟨w, hw, hmw⟩ := h.mem.1 hy
    obtain rfl := hyx
    exact ⟨v, hv, w, hw, x, y, hmv, hmw, hne⟩

/-- Where both return, they pick the same metadata, whatever the order. -/
theorem selectsAlike_iff {values values' : List Bytes} {ms ms' : List (ℕ × Bytes)}
    (h : MetadataOf rt key values ms) (h' : MetadataOf rt key values' ms') (hms : ms'.Perm ms) :
    SelectsAlike rt key values values' ↔ (pick ms' = none ↔ pick ms = none) := by
  constructor
  · intro halike
    rw [← select_raises_iff h, ← select_raises_iff h']
    exact halike.raises
  · intro hiff
    refine ⟨by rw [select_raises_iff h, select_raises_iff h', hiff], fun i j hi hj => ?_⟩
    rcases select_spec h with ⟨-, e, he⟩ | ⟨b, i', hb, hi', hvalue⟩
    · rw [hi] at he
      cases he
    rcases select_spec h' with ⟨-, e, he⟩ | ⟨c, j', hc, hj', hvalue'⟩
    · rw [hj] at he
      cases he
    obtain rfl : i = i' := Except.ok.inj (hi.symm.trans hi')
    obtain rfl : j = j' := Except.ok.inj (hj.symm.trans hj')
    have head := pick_isHead hb
    obtain rfl : b = c := head.unique ((pick_isHead hc).perm hms)
    obtain ⟨v, hv, hmv⟩ := Option.map_eq_some_iff.1 hvalue
    obtain ⟨w, hw, hmw⟩ := Option.map_eq_some_iff.1 hvalue'
    exact ⟨v, w, b.1, b.2, hv, hw, hmv, hmw, fun u hu m hm => head.le m (h.mem.2 ⟨u, hu, hm⟩)⟩

/-- **Head selection does not depend on the order** of values exactly when no two of them compete at
one sequence number, or two of the newest do. -/
theorem select_orderIndependent_iff (rt : Runtime) (key : Text) (values : List Bytes)
    (hne : values ≠ []) (hvalid : ∀ v ∈ values, ∃ m, metadata rt key v = .ok m) :
    (∀ values', values'.Perm values → SelectsAlike rt key values values') ↔
      (∀ seq, ¬ CompetingAt rt key values seq) ∨
        ∃ seq, CompetingAt rt key values seq ∧
          ∀ v ∈ values, ∀ m, metadata rt key v = .ok m → m.1 ≤ seq := by
  obtain ⟨ms, h⟩ := exists_metadataOf hvalid
  have hms : ms ≠ [] := by
    rintro rfl
    exact hne (List.forall₂_nil_right_iff.1 h)
  have hperms : (∀ values', values'.Perm values → SelectsAlike rt key values values') ↔
      ∀ ms', ms'.Perm ms → (pick ms' = none ↔ pick ms = none) := by
    constructor
    · intro halike ms' hms'
      obtain ⟨values', h', hvalues'⟩ := List.perm_comp_forall₂ hms' h.flip
      exact (selectsAlike_iff h h'.flip hms').1 (halike values' hvalues')
    · intro hpick values' hvalues'
      obtain ⟨ms', h', hms'⟩ := List.perm_comp_forall₂ hvalues' h
      exact (selectsAlike_iff h h' hms').2 (hpick ms' hms')
  have hnewest (seq : ℕ) : (∀ v ∈ values, ∀ m, metadata rt key v = .ok m → m.1 ≤ seq) ↔
      ∀ m ∈ ms, m.1 ≤ seq := by
    constructor
    · intro hle m hm
      obtain ⟨v, hv, hmv⟩ := h.mem.1 hm
      exact hle v hv m hmv
    · intro hle v hv m hmv
      exact hle m (h.mem.2 ⟨v, hv, hmv⟩)
  simp only [hperms, h.competingAt, hnewest]
  exact pick_perm_iff hms

namespace Sample

def identityKadKey : Text := kadKey (toHex identityKey) .identity

end Sample

/-- Two values that do not compete. -/
theorem sampleValues_selectAlike :
    SelectsAlike Sample.runtime Sample.identityKadKey [Sample.legacyIdentity, Sample.upgrade]
      [Sample.upgrade, Sample.legacyIdentity] := by
  obtain ⟨hvalid, hagree⟩ :
      (∀ v ∈ [Sample.legacyIdentity, Sample.upgrade],
        (metadata Sample.runtime Sample.identityKadKey v).isOk = true) ∧
      ∀ v ∈ [Sample.legacyIdentity, Sample.upgrade],
        ∀ w ∈ [Sample.legacyIdentity, Sample.upgrade],
          (metadata Sample.runtime Sample.identityKadKey v).map Prod.fst =
              (metadata Sample.runtime Sample.identityKadKey w).map Prod.fst →
            metadata Sample.runtime Sample.identityKadKey v =
              metadata Sample.runtime Sample.identityKadKey w := by
    decide +kernel
  refine (select_orderIndependent_iff Sample.runtime Sample.identityKadKey
    [Sample.legacyIdentity, Sample.upgrade] (List.cons_ne_nil _ _)
    fun v hv => ⟨_, eq_ok_valueOf (hvalid v hv)⟩).2 (.inl ?_) _ (.swap _ _ _)
  rintro seq ⟨v, hv, w, hw, x, y, hx, hy, hne⟩
  have hsame := hagree v hv w hw (by rw [hx, hy]; rfl)
  rw [hx, hy] at hsame
  exact hne (congrArg Prod.snd (Except.ok.inj hsame))

/-- A legacy Identity and a genesis compete at one sequence number. Before the upgrade they are
refused; after it they are not looked at. -/
theorem sampleValues_orderMatters :
    (∀ v ∈ [Sample.legacyIdentity, Sample.identityGenesis, Sample.upgrade],
        ∃ m, metadata Sample.runtime Sample.identityKadKey v = .ok m) ∧
      [Sample.upgrade, Sample.legacyIdentity, Sample.identityGenesis].Perm
        [Sample.legacyIdentity, Sample.identityGenesis, Sample.upgrade] ∧
      (∃ e, select Sample.runtime Sample.identityKadKey
        [Sample.legacyIdentity, Sample.identityGenesis, Sample.upgrade] = .error e) ∧
      select Sample.runtime Sample.identityKadKey
        [Sample.upgrade, Sample.legacyIdentity, Sample.identityGenesis] = .ok 0 := by
  obtain ⟨hvalid, hrefused, hselected⟩ :
      (∀ v ∈ [Sample.legacyIdentity, Sample.identityGenesis, Sample.upgrade],
        (metadata Sample.runtime Sample.identityKadKey v).isOk = true) ∧
      (select Sample.runtime Sample.identityKadKey
        [Sample.legacyIdentity, Sample.identityGenesis, Sample.upgrade]).isOk = false ∧
      select Sample.runtime Sample.identityKadKey
        [Sample.upgrade, Sample.legacyIdentity, Sample.identityGenesis] = .ok 0 := by
    decide +kernel
  refine ⟨fun v hv => ⟨_, eq_ok_valueOf (hvalid v hv)⟩, ?_, ?_, hselected⟩
  · have hperm : ([Sample.upgrade] ++ [Sample.legacyIdentity, Sample.identityGenesis]).Perm
        ([Sample.legacyIdentity, Sample.identityGenesis] ++ [Sample.upgrade]) :=
      List.perm_append_comm
    exact hperm
  · refine eq_error_of_forall_ne_ok fun i hi => ?_
    rw [hi] at hrefused
    cases hrefused

end DecentRegistry
