import Mathlib

namespace PredictFun.Base

@[ext] structure Rung where
  price : ℕ
  amount : ℕ
  deriving DecidableEq

def Rung.worth (unit : ℕ) (rung : Rung) : ℕ := rung.price * rung.amount / unit

/-- Whatever a budget buys of the rung, whole or in part, is worth what it costs. -/
def Rung.Exact (unit : ℕ) (rung : Rung) : Prop := unit ∣ rung.price * rung.amount ∧ rung.price ∣ unit

instance (unit : ℕ) (rung : Rung) : Decidable (rung.Exact unit) := inferInstanceAs (Decidable (_ ∧ _))

namespace Ladder

def inexact (unit : ℕ) (rungs : List Rung) : ℕ := rungs.countP (fun rung => ¬rung.Exact unit)

def depth (rungs : List Rung) : ℕ := (rungs.map Rung.amount).sum

def cost (rungs : List Rung) : ℕ := (rungs.map (fun rung => rung.price * rung.amount)).sum

def worth (unit : ℕ) (rungs : List Rung) : ℕ := (rungs.map (Rung.worth unit)).sum

/-- Takes a wanted amount from the front, and stops when at most `stop` is left to take. -/
def fill (stop : ℕ) : ℕ → List Rung → List Rung
  | _, [] => []
  | wanted, rung :: rest =>
    if wanted ≤ stop then []
    else ⟨rung.price, min rung.amount wanted⟩ :: fill stop (wanted - min rung.amount wanted) rest

def bought (unit budget : ℕ) (rung : Rung) : Rung :=
  if rung.worth unit ≤ budget then rung else ⟨rung.price, budget * unit / rung.price⟩

def spend (unit stop : ℕ) : ℕ → List Rung → List Rung
  | _, [] => []
  | budget, rung :: rest =>
    if budget ≤ stop then []
    else bought unit budget rung :: spend unit stop (budget - (bought unit budget rung).worth unit) rest

section

variable {unit : ℕ} {rung : Rung} {rungs others : List Rung}

@[simp] theorem depth_nil : depth [] = 0 := rfl

@[simp] theorem depth_cons : depth (rung :: rungs) = rung.amount + depth rungs := by simp [depth]

@[simp] theorem cost_nil : cost [] = 0 := rfl

@[simp] theorem cost_cons : cost (rung :: rungs) = rung.price * rung.amount + cost rungs := by simp [cost]

@[simp] theorem worth_nil : worth unit [] = 0 := rfl

@[simp] theorem worth_cons : worth unit (rung :: rungs) = rung.worth unit + worth unit rungs := by simp [worth]

theorem worth_mul_le_cost : worth unit rungs * unit ≤ cost rungs := by
  induction rungs with
  | nil => simp
  | cons rung rungs ih =>
    rw [worth_cons, cost_cons, add_mul]
    exact Nat.add_le_add (Nat.div_mul_le_self _ _) ih

theorem cost_lt_worth_mul (hu : 0 < unit) (hne : rungs ≠ []) : cost rungs < (worth unit rungs + rungs.length) * unit := by
  induction rungs with
  | nil => exact absurd rfl hne
  | cons rung rungs ih =>
    have hfirst : rung.price * rung.amount < (rung.worth unit + 1) * unit := by
      rw [mul_comm (_ + 1)]
      exact Nat.lt_mul_div_succ _ hu
    rw [cost_cons, worth_cons, List.length_cons]
    cases rungs with
    | nil => simpa using hfirst
    | cons other rungs =>
      have hrest := ih (List.cons_ne_nil _ _)
      calc _ < (rung.worth unit + 1) * unit + (worth unit (other :: rungs) + (other :: rungs).length) * unit :=
            Nat.add_lt_add hfirst hrest
        _ = _ := by ring

variable {price : ℕ}

theorem mul_depth_le_cost (h : ∀ rung ∈ rungs, price ≤ rung.price) : price * depth rungs ≤ cost rungs := by
  induction rungs with
  | nil => simp
  | cons rung rungs ih =>
    rw [depth_cons, cost_cons, mul_add]
    exact Nat.add_le_add (Nat.mul_le_mul_right _ (h rung List.mem_cons_self))
      (ih (fun other hm => h other (List.mem_cons_of_mem _ hm)))

theorem cost_le_mul_depth (h : ∀ rung ∈ rungs, rung.price ≤ price) : cost rungs ≤ price * depth rungs := by
  induction rungs with
  | nil => simp
  | cons rung rungs ih =>
    rw [depth_cons, cost_cons, mul_add]
    exact Nat.add_le_add (Nat.mul_le_mul_right _ (h rung List.mem_cons_self))
      (ih (fun other hm => h other (List.mem_cons_of_mem _ hm)))

theorem le_average (hd : 0 < depth rungs) (h : ∀ rung ∈ rungs, price ≤ rung.price) :
    price ≤ cost rungs / depth rungs := (Nat.le_div_iff_mul_le hd).mpr (mul_depth_le_cost h)

theorem average_le (h : ∀ rung ∈ rungs, rung.price ≤ price) : cost rungs / depth rungs ≤ price :=
  Nat.div_le_of_le_mul ((cost_le_mul_depth h).trans_eq (mul_comm _ _))

theorem cost_le_cost (h : ∀ low ∈ rungs, ∀ high ∈ others, low.price ≤ high.price) (hd : depth rungs ≤ depth others) :
    cost rungs ≤ cost others := by
  obtain ⟨price, hlow, hhigh⟩ : ∃ price, (∀ low ∈ rungs, low.price ≤ price) ∧ ∀ high ∈ others, price ≤ high.price := by
    clear hd
    induction rungs with
    | nil => exact ⟨0, nofun, fun _ _ => Nat.zero_le _⟩
    | cons rung rungs ih =>
      obtain ⟨price, hlow, hhigh⟩ := ih (fun low hm => h low (List.mem_cons_of_mem _ hm))
      refine ⟨max rung.price price, ?_, fun high hm => max_le (h rung List.mem_cons_self high hm) (hhigh high hm)⟩
      intro low hm
      rcases List.mem_cons.mp hm with rfl | hm
      · exact le_max_left _ _
      · exact (hlow low hm).trans (le_max_right _ _)
  calc cost rungs ≤ price * depth rungs := cost_le_mul_depth hlow
    _ ≤ price * depth others := Nat.mul_le_mul_left _ hd
    _ ≤ cost others := mul_depth_le_cost hhigh

theorem rel_first_last {r : ℕ → ℕ → Prop} (hr : ∀ n, r n n) {prices : List ℕ} (h : prices.Pairwise r) (start : ℕ) :
    (∀ first ∈ prices.head?, ∀ price ∈ prices, r first price) ∧ ∀ price ∈ prices, r price (prices.getLastD start) := by
  induction prices generalizing start with
  | nil => simp
  | cons head tail ih =>
    obtain ⟨hhead, htail⟩ := List.pairwise_cons.mp h
    have hfirst : ∀ price ∈ head :: tail, r head price := by
      intro price hm
      rcases List.mem_cons.mp hm with rfl | hm
      · exact hr price
      · exact hhead price hm
    constructor
    · rintro first hf price hm
      obtain rfl := Option.some.inj hf
      exact hfirst price hm
    · intro price hm
      rw [List.getLastD_cons]
      rcases List.mem_cons.mp hm with rfl | hm
      · exact hfirst _ List.getLastD_mem_cons
      · exact (ih htail head).2 price hm

end

/-- What was taken from the front of a ladder, rung by rung at its price and not more than it offers. -/
inductive Taken : List Rung → List Rung → Prop
  | nil (rungs : List Rung) : Taken [] rungs
  | cons {take rung : Rung} {takes rungs : List Rung} (hprice : take.price = rung.price) (hamount : take.amount ≤ rung.amount)
      (h : Taken takes rungs) : Taken (take :: takes) (rung :: rungs)

namespace Taken

variable {takes rungs : List Rung}

theorem depth_le (h : Taken takes rungs) : depth takes ≤ depth rungs := by
  induction h with
  | nil rungs => exact Nat.zero_le _
  | cons _ hamount _ ih =>
    rw [depth_cons, depth_cons]
    exact Nat.add_le_add hamount ih

theorem length_le (h : Taken takes rungs) : takes.length ≤ rungs.length := by
  induction h with
  | nil rungs => exact Nat.zero_le _
  | cons _ _ _ ih => exact Nat.succ_le_succ ih

theorem worth_le (unit : ℕ) (h : Taken takes rungs) : worth unit takes ≤ worth unit rungs := by
  induction h with
  | nil rungs => exact Nat.zero_le _
  | cons hprice hamount _ ih =>
    rw [worth_cons, worth_cons, Rung.worth, Rung.worth, hprice]
    exact Nat.add_le_add (Nat.div_le_div_right (Nat.mul_le_mul_left _ hamount)) ih

theorem price_sublist (h : Taken takes rungs) : (takes.map Rung.price).Sublist (rungs.map Rung.price) := by
  induction h with
  | nil rungs => exact List.nil_sublist _
  | cons hprice _ _ ih =>
    rw [List.map_cons, List.map_cons, hprice]
    exact ih.cons_cons _

theorem last_price (h : Taken takes rungs) :
    (takes.map Rung.price).getLastD 0 = 0 ∨ (takes.map Rung.price).getLastD 0 ∈ rungs.map Rung.price := by
  have hlast : (takes.map Rung.price).getLastD 0 ∈ 0 :: takes.map Rung.price := List.getLastD_mem_cons
  rcases List.mem_cons.mp hlast with hzero | hm
  · exact .inl hzero
  · exact .inr (h.price_sublist.subset hm)

end Taken

section

variable {stop wanted : ℕ} {rung : Rung} {rungs rest : List Rung}

theorem fill_of_le (h : wanted ≤ stop) (rungs : List Rung) : fill stop wanted rungs = [] := by
  cases rungs with
  | nil => rfl
  | cons rung rest => exact if_pos h

theorem fill_cons (h : stop < wanted) : fill stop wanted (rung :: rest) =
    ⟨rung.price, min rung.amount wanted⟩ :: fill stop (wanted - min rung.amount wanted) rest :=
  if_neg (not_le.mpr h)

theorem fill_taken (stop wanted : ℕ) (rungs : List Rung) : Taken (fill stop wanted rungs) rungs := by
  induction rungs generalizing wanted with
  | nil => exact .nil []
  | cons rung rest ih =>
    rw [fill]
    split_ifs
    · exact .nil _
    · exact .cons rfl (min_le_left _ _) (ih _)

theorem depth_fill_le (stop wanted : ℕ) (rungs : List Rung) : depth (fill stop wanted rungs) ≤ wanted := by
  induction rungs generalizing wanted with
  | nil => exact Nat.zero_le _
  | cons rung rest ih =>
    rw [fill]
    split_ifs
    · exact Nat.zero_le _
    · rw [depth_cons]
      dsimp only
      have := ih (wanted - min rung.amount wanted)
      have := min_le_right rung.amount wanted
      omega

theorem fill_front (stop wanted : ℕ) (rungs : List Rung) : ∃ front rest part, rungs = front ++ rest ∧
    (part = [] ∨ ∃ rung after amount, rest = rung :: after ∧ 0 < amount ∧ amount < rung.amount ∧
      part = [⟨rung.price, amount⟩]) ∧
    fill stop wanted rungs = front ++ part := by
  induction rungs generalizing wanted with
  | nil => exact ⟨[], [], [], rfl, .inl rfl, rfl⟩
  | cons rung rest ih =>
    rcases Nat.lt_or_ge stop wanted with hmore | hless
    · rw [fill_cons hmore]
      rcases Nat.lt_or_ge wanted rung.amount with hpart | hwhole
      · rw [min_eq_right hpart.le, Nat.sub_self, fill_of_le (Nat.zero_le stop)]
        exact ⟨[], rung :: rest, _, rfl, .inr ⟨rung, rest, wanted, rfl, by omega, hpart, rfl⟩, rfl⟩
      · rw [min_eq_left hwhole]
        obtain ⟨front, after, part, rfl, hpart, h⟩ := ih (wanted - rung.amount)
        exact ⟨rung :: front, after, part, rfl, hpart, by rw [h, List.cons_append]⟩
    · exact ⟨[], rung :: rest, [], rfl, .inl rfl, fill_of_le hless _⟩

theorem fill_complete (stop wanted : ℕ) (rungs : List Rung) :
    depth (fill stop wanted rungs) = depth rungs ∨ wanted ≤ depth (fill stop wanted rungs) + stop := by
  induction rungs generalizing wanted with
  | nil => exact .inl rfl
  | cons rung rest ih =>
    rw [fill]
    split_ifs with h
    · exact .inr (by simpa using h)
    · rw [depth_cons, depth_cons]
      dsimp only
      rcases Nat.le_total rung.amount wanted with hle | hle
      · rw [min_eq_left hle]
        rcases ih (wanted - rung.amount) with hall | hstop
        · exact .inl (by rw [hall])
        · exact .inr (by omega)
      · rw [min_eq_right hle]
        exact .inr (by omega)

theorem cost_fill_head (h : wanted ≤ rung.amount) : cost (fill 0 wanted (rung :: rest)) = rung.price * wanted := by
  rcases Nat.eq_zero_or_pos wanted with rfl | hpos
  · rw [fill_of_le (le_refl 0), mul_zero, cost_nil]
  · rw [fill_cons hpos, min_eq_right h, Nat.sub_self, fill_of_le (le_refl 0)]
    simp

theorem cost_fill_le {takes : List Rung} {price wanted extra : ℕ} (h : Taken takes rungs)
    (hsorted : rungs.Pairwise (fun left right => left.price ≤ right.price)) (hprice : ∀ rung ∈ rungs, price ≤ rung.price)
    (hdepth : wanted + extra ≤ depth takes) : cost (fill 0 wanted rungs) + price * extra ≤ cost takes := by
  induction h generalizing price wanted extra with
  | nil rungs =>
    obtain ⟨rfl, rfl⟩ : wanted = 0 ∧ extra = 0 := by simpa using hdepth
    rw [fill_of_le (le_refl 0)]
    simp
  | @cons take rung takes rungs hp hamount h ih =>
    obtain ⟨hfirst, hrest⟩ := List.pairwise_cons.mp hsorted
    have hle : price ≤ rung.price := hprice rung List.mem_cons_self
    rw [depth_cons] at hdepth
    rw [cost_cons, hp]
    rcases Nat.lt_or_ge rung.amount wanted with hless | hless
    · -- what the first rung gives beyond the take is saved later, at a price that is not lower
      have hless' : wanted - rung.amount + (rung.amount - take.amount + extra) ≤ depth takes := by omega
      have hlater := ih hrest hfirst hless'
      rw [fill_cons (by omega), cost_cons, min_eq_left hless.le]
      dsimp only
      calc rung.price * rung.amount + cost (fill 0 (wanted - rung.amount) rungs) + price * extra
          ≤ rung.price * take.amount + (cost (fill 0 (wanted - rung.amount) rungs) +
              rung.price * (rung.amount - take.amount + extra)) := by
            have hsplit : rung.price * rung.amount = rung.price * take.amount + rung.price * (rung.amount - take.amount) := by
              rw [← mul_add]
              congr 1
              omega
            have := Nat.mul_le_mul_right extra hle
            rw [mul_add]
            omega
        _ ≤ _ := Nat.add_le_add_left hlater _
    · -- the first rung suffices, and every take costs at least its price
      have hall : ∀ other ∈ takes, rung.price ≤ other.price := by
        intro other hm
        obtain ⟨level, hl, he⟩ := List.mem_map.mp (h.price_sublist.subset (List.mem_map_of_mem hm))
        exact he ▸ hfirst level hl
      calc cost (fill 0 wanted (rung :: rungs)) + price * extra = rung.price * wanted + price * extra := by
            rw [cost_fill_head hless]
        _ ≤ rung.price * (wanted + extra) := by
            rw [mul_add]
            exact Nat.add_le_add_left (Nat.mul_le_mul_right _ hle) _
        _ ≤ rung.price * (take.amount + depth takes) := Nat.mul_le_mul_left _ hdepth
        _ = rung.price * take.amount + rung.price * depth takes := mul_add _ _ _
        _ ≤ _ := Nat.add_le_add_left (mul_depth_le_cost hall) _

end

section

variable {unit stop budget : ℕ} {rung : Rung} {rungs rest : List Rung}

theorem bought_of_le (h : rung.worth unit ≤ budget) : bought unit budget rung = rung := if_pos h

theorem bought_of_lt (h : budget < rung.worth unit) : bought unit budget rung = ⟨rung.price, budget * unit / rung.price⟩ :=
  if_neg (not_le.mpr h)

theorem bought_price (unit budget : ℕ) (rung : Rung) : (bought unit budget rung).price = rung.price := by
  unfold bought
  split_ifs
  · rfl
  · rfl

theorem part_lt (hu : 0 < unit) (h : budget < rung.worth unit) : budget * unit / rung.price < rung.amount := by
  have hworth : rung.worth unit * unit ≤ rung.price * rung.amount := Nat.div_mul_le_self _ _
  have hlt : budget * unit < rung.worth unit * unit := Nat.mul_lt_mul_of_pos_right h hu
  exact Nat.div_lt_of_lt_mul (hlt.trans_le hworth)

theorem bought_amount_le (hu : 0 < unit) (budget : ℕ) (rung : Rung) : (bought unit budget rung).amount ≤ rung.amount := by
  rcases Nat.lt_or_ge budget (rung.worth unit) with h | h
  · rw [bought_of_lt h]
    exact (part_lt hu h).le
  · rw [bought_of_le h]

theorem bought_worth_le (hu : 0 < unit) (budget : ℕ) (rung : Rung) : (bought unit budget rung).worth unit ≤ budget := by
  rcases Nat.lt_or_ge budget (rung.worth unit) with h | h
  · rw [bought_of_lt h, Rung.worth]
    calc rung.price * (budget * unit / rung.price) / unit ≤ budget * unit / unit :=
          Nat.div_le_div_right (Nat.mul_div_le _ _)
      _ = budget := Nat.mul_div_cancel _ hu
  · rwa [bought_of_le h]

theorem budget_le_bought (hp : 0 < rung.price) (hle : rung.price ≤ unit) (h : budget < rung.worth unit) :
    budget ≤ (bought unit budget rung).worth unit + 1 := by
  have hu : 0 < unit := hp.trans_le hle
  rw [bought_of_lt h, Rung.worth]
  dsimp only
  -- the division leaves less than the price, which is at most the unit
  have hpart : budget * unit < rung.price * (budget * unit / rung.price) + unit := by
    have := Nat.lt_mul_div_succ (budget * unit) hp
    rw [mul_add, mul_one] at this
    omega
  have hfloor := Nat.lt_mul_div_succ (rung.price * (budget * unit / rung.price)) hu
  have hlt : budget * unit < (rung.price * (budget * unit / rung.price) / unit + 2) * unit := by
    calc budget * unit < rung.price * (budget * unit / rung.price) + unit := hpart
      _ < unit * (rung.price * (budget * unit / rung.price) / unit + 1) + unit := Nat.add_lt_add_right hfloor _
      _ = _ := by ring
  have := Nat.lt_of_mul_lt_mul_right hlt
  omega

theorem spend_of_le (h : budget ≤ stop) (rungs : List Rung) : spend unit stop budget rungs = [] := by
  cases rungs with
  | nil => rfl
  | cons rung rest => exact if_pos h

theorem spend_cons (h : stop < budget) : spend unit stop budget (rung :: rest) =
    bought unit budget rung :: spend unit stop (budget - (bought unit budget rung).worth unit) rest :=
  if_neg (not_le.mpr h)

theorem spend_taken (hu : 0 < unit) (stop budget : ℕ) (rungs : List Rung) : Taken (spend unit stop budget rungs) rungs := by
  induction rungs generalizing budget with
  | nil => exact .nil []
  | cons rung rest ih =>
    rw [spend]
    split_ifs
    · exact .nil _
    · exact .cons (bought_price _ _ _) (bought_amount_le hu _ _) (ih _)

theorem worth_spend_le (hu : 0 < unit) (stop budget : ℕ) (rungs : List Rung) :
    worth unit (spend unit stop budget rungs) ≤ budget := by
  induction rungs generalizing budget with
  | nil => exact Nat.zero_le _
  | cons rung rest ih =>
    rw [spend]
    split_ifs
    · exact Nat.zero_le _
    · rw [worth_cons]
      have := ih (budget - (bought unit budget rung).worth unit)
      have := bought_worth_le hu budget rung
      omega

theorem bought_exact (h : rung.Exact unit) (budget : ℕ) :
    rung.price * (bought unit budget rung).amount = (bought unit budget rung).worth unit * unit := by
  rcases Nat.lt_or_ge budget (rung.worth unit) with hpart | hwhole
  · have hprice : rung.price * (budget * unit / rung.price) = budget * unit :=
      Nat.mul_div_cancel' (h.2.mul_left budget)
    rw [bought_of_lt hpart, Rung.worth]
    dsimp only
    rw [hprice, Nat.div_mul_cancel (Dvd.intro_left budget rfl)]
  · rw [bought_of_le hwhole, Rung.worth, Nat.div_mul_cancel h.1]

theorem cost_spend_le (hu : 0 < unit) (stop budget : ℕ) (rungs : List Rung) :
    cost (spend unit stop budget rungs) ≤ worth unit (spend unit stop budget rungs) * unit + inexact unit rungs * (unit - 1) := by
  induction rungs generalizing budget with
  | nil => exact Nat.zero_le _
  | cons rung rest ih =>
    rcases Nat.lt_or_ge stop budget with hmore | hless
    · have hrest := ih (budget - (bought unit budget rung).worth unit)
      rw [spend_cons hmore, cost_cons, worth_cons, bought_price, add_mul, inexact, List.countP_cons]
      rw [inexact] at hrest
      by_cases hexact : rung.Exact unit
      · rw [bought_exact hexact, if_neg (by simpa using hexact), Nat.add_zero]
        omega
      · have hfloor : rung.price * (bought unit budget rung).amount ≤ (bought unit budget rung).worth unit * unit + (unit - 1) := by
          rw [Rung.worth, bought_price]
          have hmod := Nat.mod_lt (rung.price * (bought unit budget rung).amount) hu
          have hdiv := Nat.div_add_mod' (rung.price * (bought unit budget rung).amount) unit
          omega
        rw [if_pos (by simpa using hexact), add_mul, one_mul]
        omega
    · rw [spend_of_le hless]
      exact Nat.zero_le _

variable (hp : ∀ rung ∈ rungs, 0 < rung.price ∧ rung.price ≤ unit)

include hp

theorem spend_front (budget : ℕ) : ∃ front rest, rungs = front ++ rest ∧
    (spend unit 1 budget rungs = front ∨ ∃ rung after amount, rest = rung :: after ∧ amount < rung.amount ∧
      0 < Rung.worth unit ⟨rung.price, amount⟩ ∧ spend unit 1 budget rungs = front ++ [⟨rung.price, amount⟩]) := by
  induction rungs generalizing budget with
  | nil => exact ⟨[], [], rfl, .inl rfl⟩
  | cons rung rest ih =>
    rcases Nat.lt_or_ge 1 budget with hmore | hless
    · obtain ⟨hpos, hle⟩ := hp rung List.mem_cons_self
      have hu : 0 < unit := hpos.trans_le hle
      rw [spend_cons hmore]
      rcases Nat.lt_or_ge budget (rung.worth unit) with hpart | hwhole
      · have hleft := budget_le_bought hpos hle hpart
        rw [spend_of_le (by omega), bought_of_lt hpart]
        refine ⟨[], rung :: rest, rfl, .inr ⟨rung, rest, _, rfl, part_lt hu hpart, ?_, rfl⟩⟩
        rw [bought_of_lt hpart] at hleft
        omega
      · rw [bought_of_le hwhole]
        obtain ⟨front, after, rfl, h⟩ := ih (fun other hm => hp other (List.mem_cons_of_mem _ hm)) (budget - rung.worth unit)
        refine ⟨rung :: front, after, rfl, ?_⟩
        rcases h with h | ⟨last, later, amount, rfl, hamount, hworth, h⟩
        · exact .inl (by rw [h])
        · exact .inr ⟨last, later, amount, rfl, hamount, hworth, by rw [h, List.cons_append]⟩
    · exact ⟨[], rung :: rest, rfl, .inl (spend_of_le hless _)⟩

theorem spend_complete (budget : ℕ) :
    budget ≤ worth unit (spend unit 1 budget rungs) + 1 ↔ budget ≤ worth unit rungs + 1 := by
  induction rungs generalizing budget with
  | nil => rfl
  | cons rung rest ih =>
    rcases Nat.lt_or_ge 1 budget with hmore | hless
    · obtain ⟨hpos, hle⟩ := hp rung List.mem_cons_self
      rw [spend_cons hmore, worth_cons, worth_cons]
      rcases Nat.lt_or_ge budget (rung.worth unit) with hpart | hwhole
      · have hleft := budget_le_bought hpos hle hpart
        omega
      · have hrest := ih (fun other hm => hp other (List.mem_cons_of_mem _ hm)) (budget - rung.worth unit)
        rw [bought_of_le hwhole]
        omega
    · omega

end

/-- A walk along levels: where a level fits the state the walk ends or goes on, and elsewhere it fails. -/
structure Walk {ε L S : Type} (walk : List L → S → Except ε S) (Fits : L → S → Prop) (Stops : S → Prop)
    [DecidablePred Stops] (last next : L → S → S) : Prop where
  nil : ∀ s, walk [] s = .ok s
  fits : ∀ {level levels s t}, walk (level :: levels) s = .ok t → Fits level s
  cons : ∀ {level levels s}, Fits level s →
    walk (level :: levels) s = if Stops s then .ok (last level s) else walk levels (next level s)

namespace Walk

variable {ε L S : Type} {walk : List L → S → Except ε S} {Fits : L → S → Prop} {Stops : S → Prop} [DecidablePred Stops]
  {last next : L → S → S}

variable {levels : List L}

theorem made (h : Walk walk Fits Stops last next) (Made : S → List L → S → Prop) (hnil : ∀ s, Made s [] s)
    (hstop : ∀ level levels s, Stops s → Made s (level :: levels) (last level s))
    (hnext : ∀ level levels s t, Fits level s → ¬Stops s → Made (next level s) levels t → Made s (level :: levels) t)
    {s t : S} (ht : walk levels s = .ok t) : Made s levels t := by
  induction levels generalizing s with
  | nil =>
    rw [h.nil] at ht
    cases ht
    exact hnil _
  | cons level levels ih =>
    have hfits := h.fits ht
    rw [h.cons hfits] at ht
    split_ifs at ht with hs
    · cases ht
      exact hstop level levels s hs
    · exact hnext level levels s t hfits hs (ih ht)

theorem succeeds (h : Walk walk Fits Stops last next) (Good : List L → S → Prop)
    (hfits : ∀ level levels s, Good (level :: levels) s → Fits level s)
    (hnext : ∀ level levels s, Good (level :: levels) s → Good levels (next level s)) {s : S}
    (hg : Good levels s) : ∃ t, walk levels s = .ok t := by
  induction levels generalizing s with
  | nil => exact ⟨s, h.nil s⟩
  | cons level levels ih =>
    rw [h.cons (hfits level levels s hg)]
    split_ifs
    · exact ⟨_, rfl⟩
    · exact ih (hnext level levels s hg)

theorem succeeds_of_forall {Valid : L → Prop} (h : Walk walk (fun level _ => Valid level) Stops last next)
    (hvalid : ∀ level ∈ levels, Valid level) (s : S) : ∃ t, walk levels s = .ok t := by
  refine h.succeeds (fun levels _ => ∀ level ∈ levels, Valid level) ?_ ?_ hvalid
  · exact fun level levels s hg => hg level List.mem_cons_self
  · exact fun level levels s hg other hm => hg other (List.mem_cons_of_mem _ hm)

end Walk

end Ladder

end PredictFun.Base
