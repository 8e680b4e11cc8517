import PredictFun.Rest.Targets

namespace PredictFun.Rest

open Base Codec Query

def targetFormat : Format Byte where
  question := byte '?'
  ampersand := byte '&'
  equals := byte '='
  encode := percentEncode
  decode := Percent.decode
  distinct := by decide
  decode_encode := Percent.decode_encode unreservedKept
  ampersand_notMem := Percent.notMem_encode unreservedKept (by decide) (by decide) (by decide)
  equals_notMem := Percent.notMem_encode unreservedKept (by decide) (by decide) (by decide)

inductive Spelled : Bytes → Prop
  | nil : Spelled []
  | unreserved {c : Byte} {rest : Bytes} : unreserved c = true → Spelled rest → Spelled (c :: rest)
  | separator {c : Byte} {rest : Bytes} : c ∈ ascii "/?&=" → Spelled rest → Spelled (c :: rest)
  | triplet {high low : ℕ} {rest : Bytes} : high < 16 → low < 16 → Spelled rest →
      Spelled (byte '%' :: Percent.digit high :: Percent.digit low :: rest)

theorem Spelled.append {first second : Bytes} (h : Spelled first) (hs : Spelled second) : Spelled (first ++ second) := by
  induction h with
  | nil => exact hs
  | unreserved hc _ ih => exact .unreserved hc ih
  | separator hc _ ih => exact .separator hc ih
  | triplet hh hl _ ih => exact .triplet hh hl ih

def plain (text : Bytes) : Bool := text.all fun c => unreserved c || c == byte '/'

theorem plain_append {first second : Bytes} (hf : plain first = true) (hs : plain second = true) :
    plain (first ++ second) = true := by
  rw [plain, List.all_append, Bool.and_eq_true]
  exact ⟨hf, hs⟩

variable {text : Bytes}

theorem spelled_of_plain (h : plain text = true) : Spelled text := by
  induction text with
  | nil => exact .nil
  | cons c text ih =>
    simp only [plain, List.all_cons, Bool.and_eq_true, Bool.or_eq_true, beq_iff_eq] at h
    rcases h.1 with hc | rfl
    · exact .unreserved hc (ih h.2)
    · exact .separator (by decide) (ih h.2)

theorem notMem_of_plain (h : plain text = true) {mark : Byte} (hm : plain [mark] = false) : mark ∉ text := by
  intro hmem
  rw [plain, List.all_eq_true] at h
  simp [plain, h mark hmem] at hm

theorem spelled_percentEncode (value : Bytes) : Spelled (percentEncode value) := by
  apply Percent.encode_induction unreservedKept
  · exact .nil
  · exact fun c rest hc ih => .unreserved hc ih
  · exact fun high low rest hh hl ih => .triplet hh hl ih

theorem spelled_add {text name : Bytes} (ht : Spelled text) (hn : plain name = true) (value : Bytes) :
    Spelled (targetFormat.add text (name, value)) := by
  apply ht.append
  have hvalue : Spelled (name ++ byte '=' :: percentEncode value) :=
    (spelled_of_plain hn).append (.separator (by decide) (spelled_percentEncode value))
  apply Spelled.separator _ hvalue
  split_ifs <;> decide

theorem spelled_foldl {parameters : List (Bytes × Bytes)} (h : ∀ parameter ∈ parameters, plain parameter.1 = true)
    (ht : Spelled text) : Spelled (parameters.foldl targetFormat.add text) := by
  induction parameters generalizing text with
  | nil => exact ht
  | cons parameter parameters ih =>
    simp only [List.mem_cons, forall_eq_or_imp] at h
    exact ih h.2 (spelled_add ht h.1 parameter.2)

theorem name_of_plain {name : Bytes} (h : plain name = true) : targetFormat.Name name :=
  ⟨notMem_of_plain h (by decide), notMem_of_plain h (by decide)⟩

inductive Endpoint
  | markets
  | categories
  | timeseries
  | orderMatches
  | search
  | addressPositions
  | positions
  | orders
  | activity

def Endpoint.names : Endpoint → List Bytes
  | .markets | .categories => [ascii "first", ascii "after", ascii "status", ascii "marketVariant"]
  | .timeseries => [ascii "metric", ascii "resolution", ascii "from", ascii "to", ascii "limit", ascii "after"]
  | .orderMatches =>
    [ascii "first", ascii "after", ascii "category", ascii "marketId", ascii "minValueUsdtWei", ascii "signerAddress",
      ascii "isSignerMaker"]
  | .search => [ascii "query", ascii "includeResolved", ascii "limit"]
  | .addressPositions | .positions => [ascii "first", ascii "after", ascii "marketId", ascii "isResolved", ascii "sort"]
  | .orders => [ascii "first", ascii "after", ascii "status"]
  | .activity => [ascii "first", ascii "after", ascii "eventTypes"]

inductive TargetQuery
  | markets (query : CollectionQuery)
  | categories (query : CollectionQuery)
  | timeseries (marketId : MarketId) (query : TimeseriesQuery)
  | orderMatches (query : MatchesQuery)
  | search (query : SearchQuery)
  | addressPositions (address : EvmAddress) (query : PositionsQuery)
  | positions (query : PositionsQuery)
  | orders (query : OrdersQuery)
  | activity (query : ActivityQuery)

namespace TargetQuery

def endpoint : TargetQuery → Endpoint
  | .markets _ => .markets
  | .categories _ => .categories
  | .timeseries _ _ => .timeseries
  | .orderMatches _ => .orderMatches
  | .search _ => .search
  | .addressPositions _ _ => .addressPositions
  | .positions _ => .positions
  | .orders _ => .orders
  | .activity _ => .activity

def target : TargetQuery → Result Bytes
  | .markets query => marketsTarget query
  | .categories query => categoriesTarget query
  | .timeseries marketId query => timeseriesTarget marketId query
  | .orderMatches query => matchesTarget query
  | .search query => searchTarget query
  | .addressPositions address query => addressPositionsTarget address query
  | .positions query => positionsTarget query
  | .orders query => ordersTarget query
  | .activity query => activityTarget query

def path : TargetQuery → Bytes
  | .markets _ => ascii "/v1/markets"
  | .categories _ => ascii "/v1/categories"
  | .timeseries marketId _ => ascii "/v1/markets/" ++ marketIdText marketId ++ ascii "/timeseries"
  | .orderMatches _ => ascii "/v1/orders/matches"
  | .search _ => ascii "/v1/search"
  | .addressPositions address _ => ascii "/v1/positions/" ++ address.text
  | .positions _ => ascii "/v1/positions"
  | .orders _ => ascii "/v1/orders"
  | .activity _ => ascii "/v1/account/activity"

def values : TargetQuery → List (List Bytes)
  | .markets query | .categories query =>
    [(query.first.map decimalText).toList, query.after.toList, query.status.toList, query.marketVariant.toList]
  | .timeseries _ query =>
    [[query.metric], query.resolution.toList, (query.fromTime.map integerText).toList, (query.toTime.map integerText).toList,
      (query.limit.map decimalText).toList, query.after.toList]
  | .orderMatches query =>
    [(query.first.map decimalText).toList, query.after.toList, query.category.toList,
      (query.marketId.map marketIdText).toList, (query.minValueUsdtWei.map Uint256.text).toList,
      (query.signerAddress.map EvmAddress.text).toList, (query.isSignerMaker.map boolText).toList]
  | .search query => [[query.query], (query.includeResolved.map boolText).toList, (query.limit.map decimalText).toList]
  | .addressPositions _ query | .positions query =>
    [(query.first.map decimalText).toList, query.after.toList, (query.marketId.map marketIdText).toList,
      (query.isResolved.map boolText).toList, query.sort.toList]
  | .orders query => [(query.first.map decimalText).toList, query.after.toList, query.status.toList]
  | .activity query => [(query.first.map decimalText).toList, query.after.toList, query.eventTypes]

def slots (query : TargetQuery) : List (Bytes × List Bytes) := query.endpoint.names.zip query.values

def parameters (query : TargetQuery) : List (Bytes × Bytes) := supplied query.slots

end TargetQuery

def addAll (target : Bytes) (slot : Bytes × List Bytes) : Bytes :=
  slot.2.foldl (fun target value => addQuery target slot.1 value) target

theorem foldl_supplied (slots : List (Bytes × List Bytes)) (target : Bytes) :
    (supplied slots).foldl targetFormat.add target = slots.foldl addAll target := by
  induction slots generalizing target with
  | nil => rfl
  | cons slot slots ih =>
    rw [supplied_cons, List.foldl_append, List.foldl_cons, ← ih, List.foldl_map]
    rfl

theorem addOptional_eq (target : Bytes) (name : String) (value : Option Bytes) :
    addOptional target name value = addAll target (ascii name, value.toList) := by
  cases value <;> rfl

theorem addPage_ok {base target : Bytes} {query : PageQuery} (h : addPage base query = .ok target) :
    target = addAll (addAll base (ascii "first", (query.first.map decimalText).toList)) (ascii "after", query.after.toList) := by
  simp only [addPage, Result.ite_fail_eq_ok, Except.ok.injEq, addOptional_eq] at h
  exact h.2.symm

theorem addEventTypes_ok {events : List Bytes} {target text : Bytes} (h : events.foldlM addEventType target = .ok text) :
    text = addAll target (ascii "eventTypes", events) := by
  induction events generalizing target with
  | nil =>
    cases h
    rfl
  | cons event events ih =>
    obtain ⟨next, hnext, h⟩ := Result.bind_eq_ok.mp h
    simp only [addEventType, Result.ite_fail_eq_ok, Except.ok.injEq] at hnext
    obtain ⟨-, rfl⟩ := hnext
    exact ih h

theorem TargetQuery.target_ok {query : TargetQuery} (h : query.target = .ok text) :
    text = query.slots.foldl addAll query.path := by
  cases query with
  | markets query | categories query =>
    simp only [target, marketsTarget, categoriesTarget, collectionTarget, addOptional_eq, Result.ite_fail_eq_ok,
      Except.ok.injEq] at h
    exact h.2.2.2.symm
  | timeseries marketId query =>
    obtain ⟨market, hm, h⟩ := Result.bind_eq_ok.mp h
    simp only [marketTarget, Result.ite_fail_eq_ok, Except.ok.injEq] at hm
    obtain ⟨-, rfl⟩ := hm
    simp only [addOptional_eq, Result.ite_fail_eq_ok, Except.ok.injEq] at h
    exact h.2.2.2.2.symm
  | orderMatches query =>
    simp only [target, matchesTarget, addOptional_eq, Result.ite_fail_eq_ok, Except.ok.injEq] at h
    exact h.2.2.2.2.symm
  | search query =>
    simp only [target, searchTarget, addOptional_eq, Result.ite_fail_eq_ok, Except.ok.injEq] at h
    exact h.2.2.symm
  | addressPositions address query =>
    simp only [target, addressPositionsTarget, addOptional_eq, Result.ite_fail_eq_ok, Except.ok.injEq] at h
    exact h.2.2.2.2.symm
  | positions query =>
    obtain ⟨page, hp, h⟩ := Result.bind_eq_ok.mp h
    simp only [addPage_ok hp, addOptional_eq, Result.ite_fail_eq_ok, Except.ok.injEq] at h
    exact h.2.2.symm
  | orders query =>
    obtain ⟨page, hp, h⟩ := Result.bind_eq_ok.mp h
    simp only [addPage_ok hp, addOptional_eq, Result.ite_fail_eq_ok, Except.ok.injEq] at h
    exact h.2.symm
  | activity query =>
    obtain ⟨page, hp, h⟩ := Result.bind_eq_ok.mp h
    rw [addEventTypes_ok h, addPage_ok hp]
    rfl

theorem Endpoint.nodup_names (endpoint : Endpoint) : endpoint.names.Nodup := by
  cases endpoint <;> decide

theorem Endpoint.plain_names (endpoint : Endpoint) : ∀ name ∈ endpoint.names, plain name = true := by
  cases endpoint <;> decide

theorem plain_decimalText (n : ℕ) : plain (decimalText n) = true := by
  rw [plain, List.all_eq_true]
  intro c hc
  simp [unreserved, isAlnum, isDigit_decimalText n c hc]

theorem unreserved_hexDigit {n : ℕ} (h : n < 16) : unreserved (hexDigit n) = true := by
  interval_cases n <;> decide

theorem plain_hexText (bytes : Bytes) : plain (hexText bytes) = true := by
  rw [plain, List.all_eq_true]
  intro c hc
  obtain ⟨b, -, hb⟩ := List.mem_flatMap.mp hc
  have hlt := b.isLt
  have hdigit : ∃ n < 16, c = hexDigit n := by
    rcases List.mem_pair.mp hb with rfl | rfl
    · exact ⟨b.toNat / 16, by omega, rfl⟩
    · exact ⟨b.toNat % 16, by omega, rfl⟩
  obtain ⟨n, hn, rfl⟩ := hdigit
  rw [unreserved_hexDigit hn, Bool.true_or]

theorem decimalText_injective : Function.Injective decimalText := by
  intro n m h
  rw [← decimalText_value n, ← decimalText_value m, h]

theorem integerText_injective : Function.Injective integerText := by
  have hsign : ∀ n m : ℕ, byte '-' :: decimalText n ≠ decimalText m := by
    intro n m h
    have hdigit := isDigit_decimalText m (byte '-') (h ▸ List.mem_cons_self)
    exact absurd hdigit (by decide)
  intro a b h
  unfold integerText at h
  split_ifs at h with ha hb hb
  · have := decimalText_injective (List.cons.inj h).2
    omega
  · exact absurd h (hsign _ _)
  · exact absurd h.symm (hsign _ _)
  · have := decimalText_injective h
    omega

theorem marketIdText_injective : Function.Injective marketIdText := by
  intro ⟨a⟩ ⟨b⟩ h
  exact congrArg MarketId.mk (BitVec.eq_of_toNat_eq (decimalText_injective h))

theorem boolText_injective : Function.Injective boolText := by
  intro a b
  cases a <;> cases b <;> decide

theorem toList_inj {α : Type} {a b : Option α} : a.toList = b.toList ↔ a = b := by
  cases a <;> cases b <;> simp

theorem toList_map_inj {α : Type} {text : α → Bytes} (h : Function.Injective text) {a b : Option α} :
    (a.map text).toList = (b.map text).toList ↔ a = b := by
  rw [toList_inj]
  exact (Option.map_injective h).eq_iff

namespace TargetQuery

variable (query : TargetQuery)

theorem slots_names : query.slots.map Prod.fst = query.endpoint.names := by
  cases query <;> rfl

theorem slots_values : query.slots.map Prod.snd = query.values := by
  cases query <;> rfl

theorem plain_path : plain query.path = true := by
  cases query with
  | timeseries marketId => exact plain_append (plain_append (by decide) (plain_decimalText _)) (by decide)
  | addressPositions address => exact plain_append (by decide) (plain_append (by decide) (plain_hexText _))
  | _ => rfl

theorem eq_of_values {query other : TargetQuery} (he : other.endpoint = query.endpoint) (hp : other.path = query.path)
    (hv : other.values = query.values) : other = query := by
  cases query <;> cases other <;> cases he
  all_goals
    simp only [values, List.cons.injEq, toList_map_inj decimalText_injective, toList_map_inj integerText_injective,
      toList_map_inj marketIdText_injective, toList_map_inj boolText_injective, toList_map_inj EvmAddress.text_injective,
      toList_map_inj Uint256.text_injective, toList_inj, and_true] at hv
  case markets.markets.refl | categories.categories.refl =>
    obtain ⟨hfirst, hafter, hstatus, hvariant⟩ := hv
    exact congrArg _ (CollectionQuery.ext hfirst hafter hstatus hvariant)
  case timeseries.timeseries.refl =>
    obtain ⟨hmetric, hresolution, hfrom, hto, hlimit, hafter⟩ := hv
    have hid := marketIdText_injective (List.append_cancel_left (List.append_cancel_right hp))
    exact congrArg₂ _ hid (TimeseriesQuery.ext hmetric hresolution hfrom hto hlimit hafter)
  case orderMatches.orderMatches.refl =>
    obtain ⟨hfirst, hafter, hcategory, hmarket, hvalue, hsigner, hmaker⟩ := hv
    exact congrArg _ (MatchesQuery.ext hfirst hafter hcategory hmarket hvalue hsigner hmaker)
  case search.search.refl =>
    obtain ⟨hquery, hresolved, hlimit⟩ := hv
    exact congrArg _ (SearchQuery.ext hquery hresolved hlimit)
  case addressPositions.addressPositions.refl =>
    obtain ⟨hfirst, hafter, hmarket, hresolved, hsort⟩ := hv
    have haddress := EvmAddress.text_injective (List.append_cancel_left hp)
    exact congrArg₂ _ haddress (PositionsQuery.ext hfirst hafter hmarket hresolved hsort)
  case positions.positions.refl =>
    obtain ⟨hfirst, hafter, hmarket, hresolved, hsort⟩ := hv
    exact congrArg _ (PositionsQuery.ext hfirst hafter hmarket hresolved hsort)
  case orders.orders.refl =>
    obtain ⟨hfirst, hafter, hstatus⟩ := hv
    exact congrArg _ (OrdersQuery.ext hfirst hafter hstatus)
  case activity.activity.refl =>
    obtain ⟨hfirst, hafter, hevents⟩ := hv
    exact congrArg _ (ActivityQuery.ext hfirst hafter hevents)

theorem plain_parameters : ∀ parameter ∈ query.parameters, plain parameter.1 = true := by
  intro parameter hm
  apply query.endpoint.plain_names
  rw [← slots_names]
  exact mem_supplied hm

theorem target_eq {query : TargetQuery} {text : Bytes} (h : query.target = .ok text) :
    text = query.parameters.foldl targetFormat.add query.path := by
  rw [parameters, foldl_supplied]
  exact target_ok h

theorem read_target {query : TargetQuery} {text : Bytes} (h : query.target = .ok text) :
    targetFormat.read text = some (query.path, query.parameters) := by
  rw [target_eq h]
  apply Format.read_foldl_add
  · exact notMem_of_plain query.plain_path (by decide)
  · exact fun parameter hm => name_of_plain (query.plain_parameters parameter hm)

theorem eq_of_parameters {query other : TargetQuery} (he : other.endpoint = query.endpoint) (hp : other.path = query.path)
    (h : other.parameters = query.parameters) : other = query := by
  have hnames : other.slots.map Prod.fst = query.slots.map Prod.fst := by rw [slots_names, slots_names, he]
  have hslots : other.slots = query.slots := by
    apply supplied_inj hnames _ h
    rw [slots_names]
    exact other.endpoint.nodup_names
  apply eq_of_values he hp
  rw [← slots_values, ← slots_values, hslots]

end TargetQuery

theorem targets_read_back (query : TargetQuery) (text : Bytes) (h : query.target = .ok text) :
    targetFormat.read text = some (query.path, query.parameters) ∧ Spelled text ∧
      ∀ other : TargetQuery, other.endpoint = query.endpoint → other.target = .ok text → other = query := by
  refine ⟨query.read_target h, ?_, ?_⟩
  · rw [query.target_eq h]
    exact spelled_foldl query.plain_parameters (spelled_of_plain query.plain_path)
  · intro other he ho
    have hread := (other.read_target ho).symm.trans (query.read_target h)
    rw [Option.some.injEq, Prod.mk.injEq] at hread
    exact TargetQuery.eq_of_parameters he hread.1 hread.2

/-- A search text and a cursor that try to add parameters of their own. -/
def hostileSearch : TargetQuery := .search { query := ascii "a&limit=1?#/", limit := some 5 }

def hostileActivity : TargetQuery :=
  .activity { after := some (ascii "%26first=9"), eventTypes := [ascii "FILL", ascii "FILL"] }

theorem targets_read_back_hostile :
    (targetFormat.read (ascii "/v1/search?query=a%26limit%3D1%3F%23%2F&limit=5") =
      some (ascii "/v1/search", [(ascii "query", ascii "a&limit=1?#/"), (ascii "limit", ascii "5")])) ∧
    targetFormat.read (ascii "/v1/account/activity?after=%2526first%3D9&eventTypes=FILL&eventTypes=FILL") =
      some (ascii "/v1/account/activity",
        [(ascii "after", ascii "%26first=9"), (ascii "eventTypes", ascii "FILL"), (ascii "eventTypes", ascii "FILL")]) :=
  ⟨(targets_read_back hostileSearch _ (by decide)).1, (targets_read_back hostileActivity _ (by decide)).1⟩

end PredictFun.Rest
