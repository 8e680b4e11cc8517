import Mathlib

namespace PredictFun.Base

abbrev KeyedMap (κ ν : Type) := AList (fun _ : κ => ν)

namespace KeyedMap

variable {κ ν : Type} [DecidableEq κ]

def values (m : KeyedMap κ ν) : List ν := m.entries.map Sigma.snd

def mapValues (f : κ → ν → ν) (m : KeyedMap κ ν) : KeyedMap κ ν :=
  ⟨m.entries.map (Sigma.map id f), List.NodupKeys.map₂ f m.entries m.nodupKeys⟩

def adjust (m : KeyedMap κ ν) (k : κ) (f : ν → ν) : KeyedMap κ ν :=
  match m.lookup k with
  | some v => m.insert k (f v)
  | none => m

def Keyed (key : ν → κ) (m : KeyedMap κ ν) : Prop := ∀ k v, m.lookup k = some v → key v = k

theorem mem_entries_iff (m : KeyedMap κ ν) (k : κ) (v : ν) :
    (⟨k, v⟩ : (_ : κ) × ν) ∈ m.entries ↔ m.lookup k = some v := by
  rw [← AList.mem_lookup_iff, Option.mem_def]

theorem mem_values_iff (m : KeyedMap κ ν) (v : ν) : v ∈ values m ↔ ∃ k, m.lookup k = some v := by
  simp only [values, List.mem_map]
  constructor
  · rintro ⟨⟨k, w⟩, he, rfl⟩
    exact ⟨k, (mem_entries_iff m k w).mp he⟩
  · rintro ⟨k, hk⟩
    exact ⟨⟨k, v⟩, (mem_entries_iff m k v).mpr hk, rfl⟩

variable {key : ν → κ} {m : KeyedMap κ ν}

theorem mem_values_keyed (hm : Keyed key m) (v : ν) :
    v ∈ values m ↔ m.lookup (key v) = some v := by
  rw [mem_values_iff]
  constructor
  · rintro ⟨k, hk⟩
    rwa [hm k v hk]
  · exact fun h => ⟨_, h⟩

@[simp] theorem lookup_mapValues (f : κ → ν → ν) (m : KeyedMap κ ν) (k : κ) :
    (mapValues f m).lookup k = (m.lookup k).map (f k) := by
  apply Option.ext
  intro v
  rw [← Option.mem_def, ← Option.mem_def, AList.mem_lookup_iff]
  simp only [mapValues, List.mem_map, Option.mem_def, Option.map_eq_some_iff]
  constructor
  · rintro ⟨⟨k', u⟩, hu, he⟩
    cases he
    exact ⟨u, (mem_entries_iff m k' u).mp hu, rfl⟩
  · rintro ⟨u, hu, rfl⟩
    exact ⟨⟨k, u⟩, (mem_entries_iff m k u).mpr hu, rfl⟩

theorem lookup_insert_eq (m : KeyedMap κ ν) (k k' : κ) (v : ν) :
    (m.insert k v).lookup k' = if k' = k then some v else m.lookup k' := by
  split_ifs with h
  · subst h
    exact AList.lookup_insert m
  · exact AList.lookup_insert_ne h

theorem lookup_adjust (m : KeyedMap κ ν) (k k' : κ) (f : ν → ν) :
    (m.adjust k f).lookup k' = (m.lookup k').map (fun v => if k' = k then f v else v) := by
  unfold adjust
  cases hv : m.lookup k with
  | none =>
    by_cases hk : k' = k
    · subst hk
      simp [hv]
    · simp [hk]
  | some v =>
    simp only [lookup_insert_eq]
    split_ifs with hk
    · subst hk
      simp [hv]
    · simp

theorem Keyed.empty (key : ν → κ) : Keyed key (∅ : KeyedMap κ ν) := by
  intro k v h
  simp at h

theorem Keyed.insert (hm : Keyed key m) (v : ν) :
    Keyed key (m.insert (key v) v) := by
  intro k u h
  rw [lookup_insert_eq] at h
  split_ifs at h with hk
  · cases h
    exact hk.symm
  · exact hm k u h

theorem Keyed.mapValues (hm : Keyed key m) (f : κ → ν → ν)
    (hf : ∀ k v, key (f k v) = key v) : Keyed key (KeyedMap.mapValues f m) := by
  intro k u h
  rw [lookup_mapValues, Option.map_eq_some_iff] at h
  obtain ⟨v, hv, rfl⟩ := h
  rw [hf]
  exact hm k v hv

theorem entries_perm {m n : KeyedMap κ ν} (h : ∀ k, m.lookup k = n.lookup k) : m.entries.Perm n.entries :=
  List.lookup_ext m.nodupKeys n.nodupKeys (fun k v => by
    have := h k
    simp only [AList.lookup] at this
    rw [this])

def latest (key : ν → κ) (m : KeyedMap κ ν) (records : List ν) : KeyedMap κ ν :=
  records.foldl (fun m r => m.insert (key r) r) m

theorem Keyed.latest (hm : Keyed key m) (records : List ν) :
    Keyed key (KeyedMap.latest key m records) := by
  induction records generalizing m with
  | nil => exact hm
  | cons r rs ih => exact ih (hm.insert r)

theorem latest_append (key : ν → κ) (m : KeyedMap κ ν) (rs ss : List ν) :
    latest key m (rs ++ ss) = latest key (latest key m rs) ss := List.foldl_append

theorem lookup_latest (key : ν → κ) (m : KeyedMap κ ν) (records : List ν) (k : κ) :
    (latest key m records).lookup k =
      ((records.filter (fun r => key r = k)).getLast?).or (m.lookup k) := by
  induction records using List.reverseRecOn with
  | nil => rfl
  | append_singleton rs r ih =>
    rw [latest_append]
    simp only [latest, List.foldl_cons, List.foldl_nil] at ih ⊢
    rw [lookup_insert_eq, List.filter_append]
    by_cases hk : key r = k
    · simp [hk]
    · simp only [hk, decide_false, Bool.false_eq_true, not_false_eq_true, List.filter_cons_of_neg,
        List.filter_nil, List.append_nil, if_neg (Ne.symm hk)]
      exact ih

theorem mem_takeWhile_sorted {r : ν → ν → Prop} (hr : ∀ a b, r a b → ¬r b a) (p : ν → Bool) {l : List ν}
    (hl : l.Pairwise r) (v : ν) : v ∈ l.takeWhile p ↔ v ∈ l ∧ p v = true ∧ ∀ u ∈ l, r u v → p u = true := by
  induction l with
  | nil => simp
  | cons a l ih =>
    obtain ⟨ha, hl⟩ := List.pairwise_cons.mp hl
    by_cases hp : p a = true
    · rw [List.takeWhile_cons_of_pos hp, List.mem_cons, List.mem_cons, ih hl]
      constructor
      · rintro (rfl | ⟨hv, hpv, hall⟩)
        · refine ⟨Or.inl rfl, hp, fun u hu hru => ?_⟩
          rcases List.mem_cons.mp hu with rfl | hu
          · exact hp
          · exact absurd hru (hr _ _ (ha u hu))
        · refine ⟨Or.inr hv, hpv, fun u hu hru => ?_⟩
          rcases List.mem_cons.mp hu with rfl | hu
          · exact hp
          · exact hall u hu hru
      · rintro ⟨rfl | hv, hpv, hall⟩
        · exact Or.inl rfl
        · exact Or.inr ⟨hv, hpv, fun u hu => hall u (List.mem_cons_of_mem _ hu)⟩
    · rw [List.takeWhile_cons_of_neg hp]
      constructor
      · intro h
        cases h
      · rintro ⟨hv, hpv, hall⟩
        rcases List.mem_cons.mp hv with rfl | hv
        · exact absurd hpv hp
        · exact absurd (hall a (List.mem_cons_self) (ha v hv)) hp

variable [LE κ] [DecidableLE κ]

def sortedValues (key : ν → κ) (m : KeyedMap κ ν) : List ν :=
  (values m).insertionSort (fun a b => key a ≤ key b)

omit [DecidableEq κ] in
theorem sortedValues_perm (key : ν → κ) (m : KeyedMap κ ν) : (sortedValues key m).Perm (values m) :=
  List.perm_insertionSort _ _

variable {key : ν → κ}

theorem mem_sortedValues {m : KeyedMap κ ν} (hm : Keyed key m) (v : ν) :
    v ∈ sortedValues key m ↔ m.lookup (key v) = some v := by
  rw [(sortedValues_perm key m).mem_iff, mem_values_keyed hm]

variable [Std.IsLinearOrder κ]

omit [DecidableEq κ] in
theorem sortedValues_pairwise_le (key : ν → κ) (m : KeyedMap κ ν) :
    (sortedValues key m).Pairwise (fun a b => key a ≤ key b) := by
  have total : Std.Total (fun a b : ν => key a ≤ key b) := ⟨fun a b => Std.Total.total (key a) (key b)⟩
  have trans : IsTrans ν (fun a b => key a ≤ key b) :=
    ⟨fun a b c hab hbc => Std.IsPreorder.le_trans _ _ _ hab hbc⟩
  exact List.pairwise_insertionSort _ _

omit [Std.IsLinearOrder κ] in
theorem sortedValues_keys_ne {m : KeyedMap κ ν} (hm : Keyed key m) :
    (sortedValues key m).Pairwise (fun a b => key a ≠ key b) := by
  apply (sortedValues_perm key m).symm.pairwise
  · rw [values, List.pairwise_map]
    apply (List.nodupKeys_iff_pairwise.mp m.nodupKeys).imp_of_mem
    intro a b ha hb hne
    rwa [hm a.1 a.2 ((mem_entries_iff m _ _).mp ha), hm b.1 b.2 ((mem_entries_iff m _ _).mp hb)]
  · exact fun h => h.symm

theorem sortedValues_ext {m n : KeyedMap κ ν} (hm : Keyed key m) (hn : Keyed key n)
    (h : ∀ k, m.lookup k = n.lookup k) : sortedValues key m = sortedValues key n := by
  have hp : (sortedValues key m).Perm (sortedValues key n) :=
    ((sortedValues_perm key m).trans ((entries_perm h).map _)).trans (sortedValues_perm key n).symm
  refine hp.eq_of_pairwise ?_ (sortedValues_pairwise_le key m) (sortedValues_pairwise_le key n)
  intro a b ha hb hab hba
  have hk : key a = key b := Std.Antisymm.antisymm _ _ hab hba
  have hb' := (mem_sortedValues hn b).mp hb
  have ha' := (mem_sortedValues hm a).mp ha
  rw [h, hk, hb'] at ha'
  exact (Option.some.inj ha').symm

end KeyedMap

end PredictFun.Base
