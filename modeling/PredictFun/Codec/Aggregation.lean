import PredictFun.Codec.Orderbook
import PredictFun.Types.Quantities

namespace PredictFun.Codec

open FixedDecimal

theorem addQuantities_eq {left right : FixedDecimal} (hl : left.scale.toNat ≤ FixedDecimal.maxScale)
    (hr : right.scale.toNat ≤ FixedDecimal.maxScale) (field : Bytes) :
    addQuantities left right field =
      if exactUnits [left, right] < 2 ^ 64 then .ok (total [left, right]) else .error (aggregationOverflow field) := by
  -- the scale of the result is the larger one
  obtain ⟨scale, hscale, hmax⟩ : ∃ scale : BitVec 8,
      (if left.scale < right.scale then right.scale else left.scale) = scale ∧
        scale.toNat = max left.scale.toNat right.scale.toNat := by
    refine ⟨_, rfl, ?_⟩
    split_ifs with h
    · exact (max_eq_right (Nat.le_of_lt (BitVec.lt_def.mp h))).symm
    · exact (max_eq_left (BitVec.le_def.mp (BitVec.not_lt.mp h))).symm
  have hle : left.scale ≤ scale ∧ right.scale ≤ scale := by
    simp only [BitVec.le_def, hmax]
    exact ⟨le_max_left _ _, le_max_right _ _⟩
  have hbound : scale.toNat ≤ FixedDecimal.maxScale := hmax ▸ max_le hl hr
  have htotal : total [left, right] =
      ⟨BitVec.ofNat 64 (left.unitsAt scale.toNat + right.unitsAt scale.toNat), scale⟩ := by
    have hs : (total [left, right]).scale = scale := BitVec.eq_of_toNat_eq (by rw [toNat_scale_total, hmax])
    rw [hmax, ← exactUnits_pair, ← hs]
    rfl
  unfold addQuantities
  simp only [hscale, rescaleExact_eq hle.1 hbound, rescaleExact_eq hle.2 hbound, htotal]
  rw [exactUnits_pair, ← hmax]
  by_cases h : left.unitsAt scale.toNat + right.unitsAt scale.toNat < 2 ^ 64
  · rw [if_pos (by omega), if_pos (by omega), if_pos h]
    dsimp only
    rw [if_neg (fun hover => (add_exceeds_iff (by omega) (by omega)).mp hover h), BitVec.ofNat_add]
  · rw [if_neg h]
    by_cases h1 : left.unitsAt scale.toNat < 2 ^ 64
    · by_cases h2 : right.unitsAt scale.toNat < 2 ^ 64
      · rw [if_pos h1, if_pos h2]
        exact if_pos ((add_exceeds_iff h1 h2).mpr h)
      · rw [if_pos h1, if_neg h2]
        rfl
    · rw [if_neg h1]
      rfl

/-- The loop as a recursion: the level that is being added to, and the levels to come. -/
def merged (field : Bytes) : List PriceLevel → PriceLevel → Result (List PriceLevel)
  | [], current => .ok [current]
  | level :: rest, current =>
    if current.price.ticks ≠ level.price.ticks then (merged field rest level).map (current :: ·)
    else do
      let quantity ← addQuantities current.quantity level.quantity field
      merged field rest ⟨current.price, quantity⟩

theorem foldlM_normalize (field : Bytes) (levels finished : List PriceLevel) (current : PriceLevel) :
    levels.foldlM (normalize field) (finished ++ [current]) = (merged field levels current).map (finished ++ ·) := by
  induction levels generalizing finished current with
  | nil => rfl
  | cons level rest ih =>
    rw [List.foldlM_cons, normalize, List.getLast?_concat, merged]
    dsimp only
    split_ifs with h
    · change rest.foldlM (normalize field) ((finished ++ [current]) ++ [level]) = _
      rw [ih]
      cases merged field rest level with
      | error error => rfl
      | ok book => exact congrArg Except.ok (List.append_assoc finished [current] book)
    · cases addQuantities current.quantity level.quantity field with
      | error error => rfl
      | ok quantity =>
        change rest.foldlM (normalize field) ((finished ++ [current]).dropLast ++ [_]) = _
        rw [List.dropLast_concat]
        exact ih finished _

theorem normalize_first (field : Bytes) (level : PriceLevel) (rest : List PriceLevel) :
    (level :: rest).foldlM (normalize field) [] = merged field rest level := by
  rw [List.foldlM_cons]
  change rest.foldlM (normalize field) ([] ++ [level]) = _
  rw [foldlM_normalize]
  cases merged field rest level with
  | error error => rfl
  | ok book => rfl

def Before (ascending : Bool) (left right : PriceLevel) : Prop :=
  if ascending then left.price.ticks < right.price.ticks else right.price.ticks < left.price.ticks

def quantitiesAt (ticks : BitVec 64) (levels : List PriceLevel) : List FixedDecimal :=
  (levels.filter (fun level => level.price.ticks = ticks)).map PriceLevel.quantity

def Overflows (levels : List PriceLevel) : Prop :=
  ∃ level ∈ levels, 2 ^ 64 - 1 < exactUnits (quantitiesAt level.price.ticks levels)

def Parsed (precision : BitVec 8) (levels : List PriceLevel) : Prop :=
  ∀ level ∈ levels, level.price.precision = precision ∧ level.quantity.scale.toNat ≤ FixedDecimal.maxScale

structure Aggregated (ascending : Bool) (levels book : List PriceLevel) : Prop where
  sorted : book.Pairwise (Before ascending)
  covers : ∀ level ∈ levels, ∃ entry ∈ book, entry.price = level.price
  entries : ∀ entry ∈ book, (∃ level ∈ levels, level.price = entry.price) ∧
    entry.quantity = total (quantitiesAt entry.price.ticks levels)

section

variable {ascending : Bool} {ticks : BitVec 64} {current level : PriceLevel} {levels rest : List PriceLevel}

theorem quantitiesAt_cons_self (level : PriceLevel) (levels : List PriceLevel) :
    quantitiesAt level.price.ticks (level :: levels) = level.quantity :: quantitiesAt level.price.ticks levels := by
  simp [quantitiesAt]

theorem quantitiesAt_cons_ne (h : level.price.ticks ≠ ticks) : quantitiesAt ticks (level :: levels) = quantitiesAt ticks levels := by
  simp [quantitiesAt, h]

theorem quantitiesAt_eq_nil (h : ∀ level ∈ levels, level.price.ticks ≠ ticks) : quantitiesAt ticks levels = [] := by
  rw [quantitiesAt, List.filter_eq_nil_iff.mpr, List.map_nil]
  intro level hm
  simpa using h level hm

theorem Before.ne (h : Before ascending current level) : level.price.ticks ≠ current.price.ticks := by
  unfold Before at h
  split_ifs at h
  · exact fun he => absurd (he ▸ h) (BitVec.lt_irrefl _)
  · exact fun he => absurd (he ▸ h) (BitVec.lt_irrefl _)

theorem before_of_sorted (h : (current :: level :: rest).Pairwise (Ordered ascending))
    (hne : current.price.ticks ≠ level.price.ticks) : ∀ other ∈ level :: rest, Before ascending current other := by
  rw [List.pairwise_cons, List.pairwise_cons] at h
  obtain ⟨hcurrent, hlevel, -⟩ := h
  have hfirst := hcurrent level List.mem_cons_self
  intro other hm
  rcases List.mem_cons.mp hm with rfl | hm
  · unfold Before
    unfold Ordered at hfirst
    split_ifs with ha
    · rw [if_pos ha] at hfirst
      bv_omega
    · rw [if_neg ha] at hfirst
      bv_omega
  · have hnext := hlevel other hm
    unfold Before
    unfold Ordered at hfirst hnext
    split_ifs with ha
    · rw [if_pos ha] at hfirst hnext
      bv_omega
    · rw [if_neg ha] at hfirst hnext
      bv_omega

theorem Overflows.cons_iff (h : ∀ other ∈ levels, Before ascending current other) :
    Overflows (current :: levels) ↔ Overflows levels := by
  have hother {level : PriceLevel} (hm : level ∈ levels) :
      quantitiesAt level.price.ticks (current :: levels) = quantitiesAt level.price.ticks levels :=
    quantitiesAt_cons_ne (h level hm).ne.symm
  constructor
  · rintro ⟨level, hm, hover⟩
    rcases List.mem_cons.mp hm with rfl | hm
    · rw [quantitiesAt_cons_self, quantitiesAt_eq_nil (fun other ho => (h other ho).ne), exactUnits_singleton] at hover
      have := level.quantity.units.isLt
      omega
    · exact ⟨level, hm, by rwa [hother hm] at hover⟩
  · rintro ⟨level, hm, hover⟩
    exact ⟨level, List.mem_cons_of_mem _ hm, by rwa [hother hm]⟩

theorem Aggregated.cons {book : List PriceLevel} (h : ∀ other ∈ levels, Before ascending current other)
    (hbook : Aggregated ascending levels book) : Aggregated ascending (current :: levels) (current :: book) := by
  obtain ⟨sorted, covers, entries⟩ := hbook
  have hafter : ∀ entry ∈ book, Before ascending current entry := by
    intro entry hm
    obtain ⟨⟨level, hl, hprice⟩, -⟩ := entries entry hm
    have := h level hl
    rwa [Before, hprice] at this
  refine ⟨List.pairwise_cons.mpr ⟨hafter, sorted⟩, ?_, ?_⟩
  · intro level hm
    rcases List.mem_cons.mp hm with rfl | hm
    · exact ⟨level, List.mem_cons_self, rfl⟩
    · obtain ⟨entry, he, hprice⟩ := covers level hm
      exact ⟨entry, List.mem_cons_of_mem _ he, hprice⟩
  · intro entry hm
    rcases List.mem_cons.mp hm with rfl | hm
    · refine ⟨⟨entry, List.mem_cons_self, rfl⟩, ?_⟩
      rw [quantitiesAt_cons_self, quantitiesAt_eq_nil (fun other ho => (h other ho).ne), total_singleton]
    · obtain ⟨⟨level, hl, hprice⟩, hquantity⟩ := entries entry hm
      refine ⟨⟨level, List.mem_cons_of_mem _ hl, hprice⟩, ?_⟩
      rwa [quantitiesAt_cons_ne (hafter entry hm).ne.symm]

end

section

variable {ascending : Bool} {current level : PriceLevel} {rest : List PriceLevel}

def joined (current level : PriceLevel) : PriceLevel := ⟨current.price, total [current.quantity, level.quantity]⟩

theorem quantitiesAt_joined (hticks : current.price.ticks = level.price.ticks)
    (hfits : exactUnits [current.quantity, level.quantity] < 2 ^ 64) (ticks : BitVec 64) :
    exactUnits (quantitiesAt ticks (joined current level :: rest)) = exactUnits (quantitiesAt ticks (current :: level :: rest)) ∧
      total (quantitiesAt ticks (joined current level :: rest)) = total (quantitiesAt ticks (current :: level :: rest)) := by
  by_cases h : current.price.ticks = ticks
  · subst h
    have hpair : quantitiesAt current.price.ticks (current :: level :: rest) =
        current.quantity :: level.quantity :: quantitiesAt current.price.ticks rest := by
      rw [quantitiesAt_cons_self, hticks, quantitiesAt_cons_self]
    have hjoined : quantitiesAt current.price.ticks (joined current level :: rest) =
        total [current.quantity, level.quantity] :: quantitiesAt current.price.ticks rest :=
      quantitiesAt_cons_self (joined current level) rest
    rw [hpair, hjoined]
    exact ⟨exactUnits_merge hfits _, total_merge hfits _⟩
  · have hj : (joined current level).price.ticks ≠ ticks := h
    rw [quantitiesAt_cons_ne hj, quantitiesAt_cons_ne h, quantitiesAt_cons_ne (hticks ▸ h)]
    exact ⟨rfl, rfl⟩

theorem Overflows.joined_iff (hticks : current.price.ticks = level.price.ticks)
    (hfits : exactUnits [current.quantity, level.quantity] < 2 ^ 64) :
    Overflows (joined current level :: rest) ↔ Overflows (current :: level :: rest) := by
  constructor
  · rintro ⟨other, hm, hover⟩
    rw [(quantitiesAt_joined hticks hfits _).1] at hover
    rcases List.mem_cons.mp hm with rfl | hm
    · exact ⟨current, List.mem_cons_self, hover⟩
    · exact ⟨other, List.mem_cons_of_mem _ (List.mem_cons_of_mem _ hm), hover⟩
  · rintro ⟨other, hm, hover⟩
    rw [← (quantitiesAt_joined hticks hfits _).1] at hover
    rcases List.mem_cons.mp hm with rfl | hm
    · exact ⟨joined other level, List.mem_cons_self, hover⟩
    · rcases List.mem_cons.mp hm with rfl | hm
      · exact ⟨joined current other, List.mem_cons_self, by rwa [← hticks] at hover⟩
      · exact ⟨other, List.mem_cons_of_mem _ hm, hover⟩

theorem Aggregated.of_joined {book : List PriceLevel} (hprice : current.price = level.price)
    (hfits : exactUnits [current.quantity, level.quantity] < 2 ^ 64)
    (h : Aggregated ascending (joined current level :: rest) book) : Aggregated ascending (current :: level :: rest) book := by
  have hticks : current.price.ticks = level.price.ticks := congrArg Price.ticks hprice
  obtain ⟨sorted, covers, entries⟩ := h
  refine ⟨sorted, ?_, ?_⟩
  · intro other hm
    rcases List.mem_cons.mp hm with rfl | hm
    · exact covers (joined other level) List.mem_cons_self
    · rcases List.mem_cons.mp hm with rfl | hm
      · obtain ⟨entry, he, hentry⟩ := covers (joined current other) List.mem_cons_self
        exact ⟨entry, he, hentry.trans hprice⟩
      · exact covers other (List.mem_cons_of_mem _ hm)
  · intro entry he
    obtain ⟨⟨other, hm, hother⟩, hquantity⟩ := entries entry he
    refine ⟨?_, by rw [hquantity, (quantitiesAt_joined hticks hfits _).2]⟩
    rcases List.mem_cons.mp hm with rfl | hm
    · exact ⟨current, List.mem_cons_self, hother⟩
    · exact ⟨other, List.mem_cons_of_mem _ (List.mem_cons_of_mem _ hm), hother⟩

end

theorem merged_spec (field : Bytes) {ascending : Bool} {precision : BitVec 8} {rest : List PriceLevel} {current : PriceLevel}
    (hsorted : (current :: rest).Pairwise (Ordered ascending)) (hparsed : Parsed precision (current :: rest)) :
    (Overflows (current :: rest) → merged field rest current = .error (aggregationOverflow field)) ∧
      (¬Overflows (current :: rest) →
        ∃ book, merged field rest current = .ok book ∧ Aggregated ascending (current :: rest) book) := by
  induction rest generalizing current with
  | nil =>
    have hsingle : quantitiesAt current.price.ticks [current] = [current.quantity] := quantitiesAt_cons_self current []
    constructor
    · rintro ⟨level, hm, hover⟩
      obtain rfl := List.mem_singleton.mp hm
      rw [hsingle, exactUnits_singleton] at hover
      have := level.quantity.units.isLt
      omega
    · intro _
      refine ⟨[current], rfl, List.pairwise_singleton _ _, fun level hm => ⟨level, hm, rfl⟩, fun entry hm => ?_⟩
      obtain rfl := List.mem_singleton.mp hm
      exact ⟨⟨entry, hm, rfl⟩, by rw [hsingle, total_singleton]⟩
  | cons level rest ih =>
    have htail : (level :: rest).Pairwise (Ordered ascending) := (List.pairwise_cons.mp hsorted).2
    have hparsedTail : Parsed precision (level :: rest) := fun other hm => hparsed other (List.mem_cons_of_mem _ hm)
    obtain ⟨hprecision, hscale⟩ := hparsed current List.mem_cons_self
    obtain ⟨hprecision', hscale'⟩ := hparsed level (by simp)
    rw [merged]
    by_cases hticks : current.price.ticks = level.price.ticks
    · rw [if_neg (not_not.mpr hticks), addQuantities_eq hscale hscale']
      by_cases hfits : exactUnits [current.quantity, level.quantity] < 2 ^ 64
      · rw [if_pos hfits]
        have hjoinedSorted : (joined current level :: rest).Pairwise (Ordered ascending) := by
          obtain ⟨hcurrent, -⟩ := List.pairwise_cons.mp hsorted
          exact List.pairwise_cons.mpr
            ⟨fun other hm => hcurrent other (List.mem_cons_of_mem _ hm), (List.pairwise_cons.mp htail).2⟩
        have hjoinedParsed : Parsed precision (joined current level :: rest) := by
          intro other hm
          rcases List.mem_cons.mp hm with rfl | hm
          · refine ⟨hprecision, ?_⟩
            rw [joined, toNat_scale_total]
            exact max_le hscale hscale'
          · exact hparsedTail other (List.mem_cons_of_mem _ hm)
        obtain ⟨hover, hfine⟩ := ih hjoinedSorted hjoinedParsed
        rw [Overflows.joined_iff hticks hfits] at hover hfine
        refine ⟨hover, fun h => ?_⟩
        obtain ⟨book, hbook, haggregated⟩ := hfine h
        have hprice : current.price = level.price := Price.eq_of_ticks (hprecision.trans hprecision'.symm) hticks
        exact ⟨book, hbook, haggregated.of_joined hprice hfits⟩
      · rw [if_neg hfits]
        refine ⟨fun _ => rfl, fun h => absurd ⟨current, List.mem_cons_self, ?_⟩ h⟩
        rw [quantitiesAt_cons_self, hticks, quantitiesAt_cons_self]
        have := exactUnits_pair_le current.quantity level.quantity (quantitiesAt level.price.ticks rest)
        omega
    · rw [if_pos hticks]
      have hbefore := before_of_sorted hsorted hticks
      obtain ⟨hover, hfine⟩ := ih htail hparsedTail
      rw [Overflows.cons_iff hbefore]
      constructor
      · intro h
        rw [hover h]
        rfl
      · intro h
        obtain ⟨book, hbook, haggregated⟩ := hfine h
        rw [hbook]
        exact ⟨current :: book, rfl, haggregated.cons hbefore⟩

section

variable {ascending : Bool} {levels others book book' : List PriceLevel}

instance : Std.Irrefl (Before ascending) := ⟨fun _ h => h.ne rfl⟩

instance : Std.Antisymm (Before ascending) where
  antisymm left right h h' := by
    unfold Before at h h'
    split_ifs at h h'
    · exact absurd h (BitVec.lt_asymm h')
    · exact absurd h (BitVec.lt_asymm h')

theorem quantitiesAt_perm (h : levels.Perm others) (ticks : BitVec 64) :
    (quantitiesAt ticks levels).Perm (quantitiesAt ticks others) := (h.filter _).map _

theorem Aggregated.subset (h : Aggregated ascending levels book) (h' : Aggregated ascending others book')
    (hperm : levels.Perm others) : book ⊆ book' := by
  intro entry he
  obtain ⟨⟨level, hl, hprice⟩, hquantity⟩ := h.entries entry he
  obtain ⟨entry', he', hprice'⟩ := h'.covers level (hperm.mem_iff.mp hl)
  have heq : entry' = entry := by
    obtain ⟨-, hquantity'⟩ := h'.entries entry' he'
    have hp : entry'.price = entry.price := hprice'.trans hprice
    rw [hp, ← total_perm (quantitiesAt_perm hperm _), ← hquantity] at hquantity'
    cases entry'
    cases entry
    cases hp
    cases hquantity'
    rfl
  exact heq ▸ he'

theorem Aggregated.unique (h : Aggregated ascending levels book) (h' : Aggregated ascending others book')
    (hperm : levels.Perm others) : book = book' :=
  List.Subset.antisymm_of_pairwise h.sorted h'.sorted (h.subset h' hperm) (h'.subset h hperm.symm)

theorem Aggregated.perm (h : Aggregated ascending levels book) (hperm : levels.Perm others) :
    Aggregated ascending others book := by
  refine ⟨h.sorted, fun level hm => h.covers level (hperm.mem_iff.mpr hm), fun entry he => ?_⟩
  obtain ⟨⟨level, hm, hprice⟩, hquantity⟩ := h.entries entry he
  exact ⟨⟨level, hperm.mem_iff.mp hm, hprice⟩, hquantity.trans (total_perm (quantitiesAt_perm hperm _))⟩

theorem Overflows.perm (hperm : levels.Perm others) : Overflows levels ↔ Overflows others := by
  have hunits (ticks : BitVec 64) : exactUnits (quantitiesAt ticks levels) = exactUnits (quantitiesAt ticks others) :=
    exactUnits_perm (quantitiesAt_perm hperm ticks)
  simp only [Overflows, hunits, hperm.mem_iff]

end

namespace BookReader

variable (reader : BookReader) (precision : BitVec 8)

def Parses (wire : WireLevel) (level : PriceLevel) : Prop :=
  Price.parse (reader.unquoteRaw wire.1) precision = .ok level.price ∧
    FixedDecimal.parse (reader.unquoteRaw wire.2) = .ok level.quantity ∧ level.quantity.units ≠ 0

variable {reader precision}

variable {field : Bytes} {wire : List WireLevel} {levels : List PriceLevel}

theorem atField_eq_ok {α : Type} {result : Result α} {value : α} :
    atField field result = .ok value ↔ result = .ok value := by
  cases result with
  | error error => simp [atField, Except.mapError]
  | ok a => rfl

theorem convertLevel_eq_ok {wire : WireLevel} {level : PriceLevel} :
    reader.convertLevel wire precision field = .ok level ↔ reader.Parses precision wire level := by
  unfold convertLevel Parses
  simp only [Result.bind_eq_ok, parsePriceRaw, parseDecimalRaw, atField_eq_ok]
  constructor
  · rintro ⟨price, hprice, quantity, hquantity, h⟩
    split_ifs at h with hz
    · cases h
      exact ⟨hprice, hquantity, hz⟩
  · rintro ⟨hprice, hquantity, hz⟩
    exact ⟨_, hprice, _, hquantity, if_neg hz⟩

theorem mapM_convertLevel (start : ℕ) :
    (wire.zipIdx start).mapM (fun (level, index) => reader.convertLevel level precision (indexed field index)) = .ok levels ↔
      List.Forall₂ (reader.Parses precision) wire levels := by
  induction wire generalizing levels start with
  | nil =>
    rw [List.zipIdx_nil, List.mapM_nil, List.forall₂_nil_left_iff]
    exact ⟨fun h => (Except.ok.inj h).symm, fun h => congrArg Except.ok h.symm⟩
  | cons level wire ih =>
    rw [List.zipIdx_cons, List.mapM_cons]
    simp only [Result.bind_eq_ok, convertLevel_eq_ok, ih]
    constructor
    · rintro ⟨first, hfirst, rest, hrest, h⟩
      cases h
      exact .cons hfirst hrest
    · rintro (_ | ⟨hfirst, hrest⟩)
      exact ⟨_, hfirst, _, hrest, rfl⟩

theorem Parses.exists_of_mem
    (h : List.Forall₂ (reader.Parses precision) wire levels) {level : PriceLevel} (hm : level ∈ levels) :
    ∃ entry ∈ wire, reader.Parses precision entry level := by
  induction h with
  | nil => cases hm
  | cons hfirst hrest ih =>
    rcases List.mem_cons.mp hm with rfl | hm
    · exact ⟨_, List.mem_cons_self, hfirst⟩
    · obtain ⟨entry, he, hp⟩ := ih hm
      exact ⟨entry, List.mem_cons_of_mem _ he, hp⟩

theorem Parses.parsed
    (h : List.Forall₂ (reader.Parses precision) wire levels) : Parsed precision levels := by
  intro level hm
  obtain ⟨entry, -, hprice, hquantity, -⟩ := Parses.exists_of_mem h hm
  exact ⟨Price.parse_precision hprice, FixedDecimal.parse_scale_le hquantity⟩

theorem convertLevels_spec {limits : BookDecodeLimits} (ascending : Bool)
    (field : Bytes) (hlimit : wire.length ≤ limits.maxBookLevelsPerSide.toNat)
    (hparses : List.Forall₂ (reader.Parses precision) wire levels) :
    (Overflows levels →
        reader.convertLevels wire precision limits ascending field = .error (aggregationOverflow field)) ∧
      (¬Overflows levels → ∃ book,
        reader.convertLevels wire precision limits ascending field = .ok book ∧ Aggregated ascending levels book) := by
  have hperm := reader.levelSort.perm ascending levels
  have hsorted := reader.levelSort.sorted ascending levels
  have hrun : reader.convertLevels wire precision limits ascending field =
      (reader.levelSort.sort ascending levels).foldlM (normalize field) [] := by
    rw [convertLevels, if_neg (not_lt.mpr hlimit), (mapM_convertLevel 0).mpr hparses]
    rfl
  rw [hrun, ← Overflows.perm hperm]
  cases hlevels : reader.levelSort.sort ascending levels with
  | nil =>
    rw [hlevels] at hperm
    obtain rfl := hperm.symm.eq_nil
    exact ⟨fun ⟨_, hm, _⟩ => absurd hm List.not_mem_nil,
      fun _ => ⟨[], rfl, .nil, fun _ hm => absurd hm List.not_mem_nil, fun _ hm => absurd hm List.not_mem_nil⟩⟩
  | cons current rest =>
    rw [hlevels] at hperm hsorted
    have hparsed : Parsed precision (current :: rest) :=
      fun level hm => Parses.parsed hparses level (hperm.mem_iff.mp hm)
    rw [normalize_first]
    obtain ⟨hover, hfine⟩ := merged_spec field hsorted hparsed
    refine ⟨hover, fun h => ?_⟩
    obtain ⟨book, hbook, haggregated⟩ := hfine h
    exact ⟨book, hbook, haggregated.perm hperm⟩

/-- Aggregation is exact and does not depend on the order of the levels, nor on what the sort does with equal ticks. -/
theorem aggregation_exact (limits : BookDecodeLimits) (ascending : Bool) (field : Bytes) {wire : List WireLevel}
    {levels : List PriceLevel} (hlimit : wire.length ≤ limits.maxBookLevelsPerSide.toNat)
    (hparses : List.Forall₂ (reader.Parses precision) wire levels) :
    (reader.convertLevels wire precision limits ascending field = .error (aggregationOverflow field) ↔
        ∃ level ∈ levels, 2 ^ 64 - 1 < exactUnits (quantitiesAt level.price.ticks levels)) ∧
      ((∀ level ∈ levels, exactUnits (quantitiesAt level.price.ticks levels) ≤ 2 ^ 64 - 1) →
        ∃ book, reader.convertLevels wire precision limits ascending field = .ok book ∧
          book.Pairwise (Before ascending) ∧
          (∀ ticks, (∃ entry ∈ book, entry.price.ticks = ticks) ↔ ∃ level ∈ levels, level.price.ticks = ticks) ∧
          ∀ entry ∈ book, entry.quantity.value = ((quantitiesAt entry.price.ticks levels).map value).sum) ∧
      ∀ (levelSort : LevelSort) (wire' : List WireLevel), wire'.Perm wire →
        { reader with levelSort := levelSort }.convertLevels wire' precision limits ascending field =
          reader.convertLevels wire precision limits ascending field := by
  obtain ⟨hover, hfine⟩ := convertLevels_spec ascending field hlimit hparses
  refine ⟨⟨fun herror => ?_, hover⟩, fun hfits => ?_, fun levelSort wire' hperm => ?_⟩
  · by_contra hno
    obtain ⟨book, hbook, -⟩ := hfine hno
    rw [hbook] at herror
    cases herror
  · have hno : ¬Overflows levels := fun ⟨level, hm, hlt⟩ => absurd (hfits level hm) (not_le.mpr hlt)
    obtain ⟨book, hbook, sorted, covers, entries⟩ := hfine hno
    refine ⟨book, hbook, sorted, fun ticks => ⟨?_, ?_⟩, fun entry he => ?_⟩
    · rintro ⟨entry, he, rfl⟩
      obtain ⟨⟨level, hm, hprice⟩, -⟩ := entries entry he
      exact ⟨level, hm, congrArg Price.ticks hprice⟩
    · rintro ⟨level, hm, rfl⟩
      obtain ⟨entry, he, hprice⟩ := covers level hm
      exact ⟨entry, he, congrArg Price.ticks hprice⟩
    · obtain ⟨⟨level, hm, hprice⟩, hquantity⟩ := entries entry he
      have hunits : exactUnits (quantitiesAt entry.price.ticks levels) < 2 ^ 64 := by
        have := hfits level hm
        rw [hprice] at this
        omega
      rw [hquantity, total_value hunits]
  · obtain ⟨levels', hparses', hlevels⟩ := List.perm_comp_forall₂ hperm hparses
    have hlimit' : wire'.length ≤ limits.maxBookLevelsPerSide.toNat := by rwa [hperm.length_eq]
    have hother : List.Forall₂ (({ reader with levelSort := levelSort } : BookReader).Parses precision) wire' levels' := hparses'
    obtain ⟨hover', hfine'⟩ := convertLevels_spec ascending field hlimit' hother
    rw [Overflows.perm hlevels] at hover' hfine'
    by_cases h : Overflows levels
    · rw [hover h, hover' h]
    · obtain ⟨book, hbook, haggregated⟩ := hfine h
      obtain ⟨book', hbook', haggregated'⟩ := hfine' h
      rw [hbook, hbook', haggregated.unique haggregated' hlevels.symm]

theorem Ordered.total (ascending : Bool) (left right : PriceLevel) :
    Ordered ascending left right ∨ Ordered ascending right left := by
  unfold Ordered
  split_ifs
  · exact BitVec.le_total _ _
  · exact BitVec.le_total _ _

instance (ascending : Bool) : DecidableRel (Ordered ascending) := fun left right =>
  match ascending with
  | true => inferInstanceAs (Decidable (left.price.ticks ≤ right.price.ticks))
  | false => inferInstanceAs (Decidable (right.price.ticks ≤ left.price.ticks))

instance (ascending : Bool) : Std.Total (Ordered ascending) := ⟨Ordered.total ascending⟩

instance (ascending : Bool) : IsTrans PriceLevel (Ordered ascending) where
  trans left middle right h h' := by
    unfold Ordered at h h' ⊢
    split_ifs at h h' ⊢
    · exact BitVec.le_trans h h'
    · exact BitVec.le_trans h' h

def insertion : LevelSort where
  sort ascending levels := levels.insertionSort (Ordered ascending)
  perm _ levels := List.perm_insertionSort _ levels
  sorted _ levels := List.pairwise_insertionSort _ levels

def sampleAsks : List WireLevel :=
  [(ascii "0.20", ascii "1.25"), (ascii "0.10", ascii "1"), (ascii "0.20", ascii "2.5")]

def sampleReader : BookReader where
  string raw := some raw.tail.dropLast
  response _ := .ok ⟨none, none⟩
  book _ := .ok ⟨some sampleAsks, some [(ascii "0.05", ascii "4.5"), (ascii "0.08", ascii "1.0")], none, some 7, none, none, some 1⟩
  pending _ := none
  levelSort := insertion

theorem sampleAsks_parse : List.Forall₂ (sampleReader.Parses 2) sampleAsks
    [⟨.cents 20 (by decide), 125, 2⟩, ⟨.cents 10 (by decide), 1, 0⟩, ⟨.cents 20 (by decide), 25, 1⟩] :=
  .cons ⟨by decide, by decide, by decide⟩
    (.cons ⟨by decide, by decide, by decide⟩
      (.cons ⟨by decide, by decide, by decide⟩ .nil))

theorem reversed_asks_aggregate_alike :
    sampleReader.convertLevels sampleAsks.reverse 2 {} true [] = sampleReader.convertLevels sampleAsks 2 {} true [] ∧
      sampleReader.convertLevels sampleAsks 2 {} true [] =
        .ok [⟨.cents 10 (by decide), 1, 0⟩, ⟨.cents 20 (by decide), 375, 2⟩] := by
  obtain ⟨-, -, hperm⟩ := aggregation_exact {} true [] (by decide) sampleAsks_parse
  exact ⟨hperm insertion _ (List.reverse_perm _), by decide⟩

end BookReader

end PredictFun.Codec
