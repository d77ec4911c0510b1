import AgoricSdk.Zoe.BondingCurves
import AgoricSdk.Lib.Transition

/-!
A pool of two assets on the constant product curve: trades against its reserves, and
liquidity added and removed for shares of it. No step takes from the shares that stay.
-/

namespace AgoricSdk.Zoe

open ERTP

inductive Asset where
  | central
  | secondary
  deriving DecidableEq

structure LiquidityPool where
  central : Nat := 0
  secondary : Nat := 0
  liqTokenSupply : Nat := 0
  deriving DecidableEq

inductive LiquidityFault where
  | curve (fault : CurveFault)
  | poolNotInitialized
  | amountInInsufficient
  | poolIsEmpty
  | insufficientSecondary
  | tokensDoNotExist
  deriving DecidableEq

abbrev LiquidityResult (α : Type) := Except LiquidityFault α

def onCurve {α : Type} (result : CurveResult α) : LiquidityResult α := result.mapError .curve

def ensure (condition : Bool) (fault : LiquidityFault) : LiquidityResult Unit :=
  if condition then .ok () else .error fault

inductive LiquidityAction where
  | swapIn (input output : Asset) (amountIn feeBasisPoints : Nat)
  | swapOut (input output : Asset) (wantedAmountOut amountIn feeBasisPoints : Nat)
  | addLiquidity (centralIn secondaryIn : Nat)
  | removeLiquidity (liquidityIn : Nat)
  deriving DecidableEq

namespace LiquidityPool

def reserve (pool : LiquidityPool) : Asset → Nat
  | .central => pool.central
  | .secondary => pool.secondary

def put (pool : LiquidityPool) (asset : Asset) (value : Nat) : LiquidityPool :=
  match asset with
  | .central => { pool with central := pool.central + value }
  | .secondary => { pool with secondary := pool.secondary + value }

def take (pool : LiquidityPool) (asset : Asset) (value : Nat) : LiquidityPool :=
  match asset with
  | .central => { pool with central := pool.central - value }
  | .secondary => { pool with secondary := pool.secondary - value }

/-- The assets of a trade may be the same one. -/
def consummate (pool : LiquidityPool) (input output : Asset) (amountIn amountOut : Nat) :
    LiquidityPool :=
  (pool.put input amountIn).take output amountOut

def swapIn (pool : LiquidityPool) (input output : Asset) (amountIn feeBasisPoints : Nat) :
    LiquidityResult LiquidityPool := do
  ensure (pool.central ≠ 0) .poolNotInitialized
  let outputValue ← onCurve
    (getInputPrice amountIn (pool.reserve input) (pool.reserve output) feeBasisPoints)
  return pool.consummate input output amountIn outputValue

def swapOut (pool : LiquidityPool) (input output : Asset)
    (wantedAmountOut amountIn feeBasisPoints : Nat) : LiquidityResult LiquidityPool := do
  ensure (pool.central ≠ 0) .poolNotInitialized
  let tradePrice ← onCurve
    (getOutputPrice wantedAmountOut (pool.reserve input) (pool.reserve output) feeBasisPoints)
  ensure (tradePrice ≤ amountIn) .amountInInsufficient
  return pool.consummate input output tradePrice wantedAmountOut

def mint (pool : LiquidityPool) (centralIn secondaryAmount : Nat) :
    LiquidityResult LiquidityPool := do
  ensure (centralIn ≠ 0) .poolIsEmpty
  let liquidityValueOut ← onCurve
    (calcLiqValueToMint pool.liqTokenSupply centralIn pool.central)
  return {
    central := pool.central + centralIn
    secondary := pool.secondary + secondaryAmount
    liqTokenSupply := pool.liqTokenSupply + liquidityValueOut }

/-- The first liquidity is accepted whole; later the secondary asset is taken in
proportion, and the excess is not. -/
def addLiquidity (pool : LiquidityPool) (centralIn secondaryIn : Nat) :
    LiquidityResult LiquidityPool :=
  if pool.central = 0 then pool.mint centralIn secondaryIn
  else do
    let secondaryOut ← onCurve
      (calcSecondaryRequired centralIn pool.central pool.secondary secondaryIn)
    ensure (secondaryOut ≤ secondaryIn) .insufficientSecondary
    pool.mint centralIn secondaryOut

def removeLiquidity (pool : LiquidityPool) (liquidityIn : Nat) :
    LiquidityResult LiquidityPool := do
  ensure (liquidityIn ≠ 0) .poolIsEmpty
  -- Tokens are given back to the pool: no more of them than were minted.
  ensure (liquidityIn ≤ pool.liqTokenSupply) .tokensDoNotExist
  let centralOut ← onCurve (calcValueToRemove pool.liqTokenSupply pool.central liquidityIn)
  let secondaryOut ← onCurve (calcValueToRemove pool.liqTokenSupply pool.secondary liquidityIn)
  return {
    central := pool.central - centralOut
    secondary := pool.secondary - secondaryOut
    liqTokenSupply := pool.liqTokenSupply - liquidityIn }

def act (pool : LiquidityPool) : LiquidityAction → LiquidityResult LiquidityPool
  | .swapIn input output amountIn fee => pool.swapIn input output amountIn fee
  | .swapOut input output wanted amountIn fee => pool.swapOut input output wanted amountIn fee
  | .addLiquidity centralIn secondaryIn => pool.addLiquidity centralIn secondaryIn
  | .removeLiquidity liquidityIn => pool.removeLiquidity liquidityIn

/-- The product of the reserves behind a share, as the square of what one share backs. -/
def backing (pool : LiquidityPool) : ℚ :=
  pool.central * pool.secondary / pool.liqTokenSupply ^ 2

/-- Shares there are exactly while there is central asset; without them nothing is left. -/
structure Live (pool : LiquidityPool) : Prop where
  shares_of_central : 0 < pool.central → 0 < pool.liqTokenSupply
  central_of_shares : 0 < pool.liqTokenSupply → 0 < pool.central
  empty : pool.liqTokenSupply = 0 → pool.secondary = 0

end LiquidityPool

def liquidity : TransitionSystem LiquidityPool LiquidityAction where
  init pool := pool = {}
  step pool action := (pool.act action).toOption

/-! ## What one step does to the shares -/

/-- What a step may do to the shares: each asset stays behind each share, or a trade
keeps the product up. -/
inductive Keeps (p p' : LiquidityPool) : Prop where
  | shares : p.central * p'.liqTokenSupply ≤ p'.central * p.liqTokenSupply →
      p.secondary * p'.liqTokenSupply ≤ p'.secondary * p.liqTokenSupply → Keeps p p'
  | trade : p'.liqTokenSupply = p.liqTokenSupply →
      p.central * p.secondary ≤ p'.central * p'.secondary → Keeps p p'

section Steps

variable {p p' p'' : LiquidityPool} {c l m s v fee amountIn amountOut : Nat} {input output : Asset}

theorem onCurve_eq_ok {α : Type} {result : CurveResult α} {a : α} :
    onCurve result = .ok a ↔ result = .ok a :=
  mapError_ok_iff

theorem ensure_eq_ok {condition : Prop} [Decidable condition] {fault : LiquidityFault} :
    ensure condition fault = .ok () ↔ condition := by
  unfold ensure
  split <;> simp_all

theorem calcLiqValueToMint_eq_ok {inputReserve : Nat}
    (h : calcLiqValueToMint l c inputReserve = .ok m) :
    (l = 0 ∧ m = c) ∨ (0 < l ∧ m * inputReserve ≤ c * l) := by
  unfold calcLiqValueToMint at h
  split at h
  next hzero =>
    cases h
    exact .inl ⟨hzero, rfl⟩
  next hpos =>
    obtain ⟨-, rfl⟩ := floorDivide_eq_ok.mp (curveMath_eq_ok.mp h)
    exact .inr ⟨Nat.pos_of_ne_zero hpos, Nat.div_mul_le_self ..⟩

theorem calcSecondaryRequired_eq_ok {centralPool secondaryPool : Nat}
    (h : calcSecondaryRequired c centralPool secondaryPool s = .ok v) :
    c * secondaryPool ≤ v * centralPool ∨ centralPool = 0 := by
  unfold calcSecondaryRequired at h
  split at h
  next hzero =>
    rcases hzero with hzero | hzero
    · exact .inr hzero
    · left
      rw [hzero]
      exact Nat.zero_le _
  next hpos =>
    left
    obtain ⟨scaled, hscaled, h⟩ := bind_eq_ok.mp h
    obtain ⟨hcentral, rfl⟩ := floorDivide_eq_ok.mp (curveMath_eq_ok.mp hscaled)
    cases h
    split
    next hexact => exact hexact.le
    · rw [Nat.add_comm]
      exact (Nat.lt_mul_of_div_lt (Nat.lt_succ_self _) hcentral).le

/-- What both prices promise about a trade. -/
def Fair (p : LiquidityPool) (input output : Asset) (amountIn amountOut : Nat) : Prop :=
  amountOut < p.reserve output ∧
    p.reserve input * p.reserve output ≤
      (p.reserve input + amountIn) * (p.reserve output - amountOut)

theorem amountOut_le_of_same {x : Nat} (hlt : amountOut < x)
    (h : x * x ≤ (x + amountIn) * (x - amountOut)) : amountOut ≤ amountIn := by
  obtain ⟨rest, rfl⟩ := Nat.exists_eq_add_of_le hlt.le
  rw [Nat.add_sub_cancel_left] at h
  by_contra hnot
  have hmore : amountIn < amountOut := not_le.mp hnot
  nlinarith

@[simp] theorem consummate_supply :
    (p.consummate input output amountIn amountOut).liqTokenSupply = p.liqTokenSupply := by
  cases input <;> cases output <;> rfl

theorem consummate_central (hcentral : 0 < p.central) (h : Fair p input output amountIn amountOut) :
    0 < (p.consummate input output amountIn amountOut).central := by
  obtain ⟨hlt, hproduct⟩ := h
  cases output with
  | central =>
    cases input <;> simp only [LiquidityPool.reserve] at hlt <;>
      simp only [LiquidityPool.consummate, LiquidityPool.put, LiquidityPool.take] <;> omega
  | secondary =>
    cases input <;>
      simp only [LiquidityPool.consummate, LiquidityPool.put, LiquidityPool.take] <;> omega

theorem consummate_product (h : Fair p input output amountIn amountOut) :
    p.central * p.secondary ≤ (p.consummate input output amountIn amountOut).central *
      (p.consummate input output amountIn amountOut).secondary := by
  obtain ⟨hlt, hproduct⟩ := h
  cases input with
  | central =>
    cases output with
    | central =>
      have hle := amountOut_le_of_same hlt hproduct
      apply Nat.mul_le_mul_right
      exact Nat.le_sub_of_add_le (Nat.add_le_add_left hle _)
    | secondary => exact hproduct
  | secondary =>
    cases output with
    | central =>
      rw [Nat.mul_comm, Nat.mul_comm (LiquidityPool.central _)]
      exact hproduct
    | secondary =>
      have hle := amountOut_le_of_same hlt hproduct
      apply Nat.mul_le_mul_left
      exact Nat.le_sub_of_add_le (Nat.add_le_add_left hle _)

theorem consummate_keeps (hp : p.Live) (hcentral : 0 < p.central)
    (h : Fair p input output amountIn amountOut) :
    (p.consummate input output amountIn amountOut).Live ∧
      Keeps p (p.consummate input output amountIn amountOut) := by
  have hshares := hp.shares_of_central hcentral
  constructor
  · constructor
    · simpa using fun _ => hshares
    · exact fun _ => consummate_central hcentral h
    · simpa using fun hzero => by omega
  · exact .trade consummate_supply (consummate_product h)

theorem swapIn_keeps (hp : p.Live) (h : p.swapIn input output amountIn fee = .ok p') :
    p'.Live ∧ Keeps p p' := by
  obtain ⟨_, hcentral, h⟩ := bind_eq_ok.mp h
  obtain ⟨out, hout, h⟩ := bind_eq_ok.mp h
  cases h
  exact consummate_keeps hp (Nat.pos_of_ne_zero (ensure_eq_ok.mp hcentral))
    (getInputPrice_product (onCurve_eq_ok.mp hout))

theorem swapOut_keeps (hp : p.Live)
    (h : p.swapOut input output amountOut amountIn fee = .ok p') : p'.Live ∧ Keeps p p' := by
  obtain ⟨_, hcentral, h⟩ := bind_eq_ok.mp h
  obtain ⟨price, hprice, h⟩ := bind_eq_ok.mp h
  obtain ⟨_, -, h⟩ := bind_eq_ok.mp h
  cases h
  exact consummate_keeps hp (Nat.pos_of_ne_zero (ensure_eq_ok.mp hcentral))
    (getOutputPrice_product (onCurve_eq_ok.mp hprice))

/-- Shares minted for what is put in: no more than in proportion to either asset. -/
structure Minted (p : LiquidityPool) (c s m : Nat) (p' : LiquidityPool) : Prop where
  after : p' = ⟨p.central + c, p.secondary + s, p.liqTokenSupply + m⟩
  positive : 0 < c
  central : m * p.central ≤ c * p.liqTokenSupply
  secondary : m * p.secondary ≤ s * p.liqTokenSupply
  first : p.liqTokenSupply = 0 → m = c

theorem mint_minted (hp : p.Live)
    (hproportion : c * p.secondary ≤ s * p.central ∨ p.central = 0)
    (h : p.mint c s = .ok p') : ∃ m, Minted p c s m p' := by
  obtain ⟨_, hpositive, h⟩ := bind_eq_ok.mp h
  obtain ⟨m, hm, h⟩ := bind_eq_ok.mp h
  cases h
  have hpositive' : 0 < c := Nat.pos_of_ne_zero (ensure_eq_ok.mp hpositive)
  rcases calcLiqValueToMint_eq_ok (onCurve_eq_ok.mp hm) with ⟨hzero, rfl⟩ | ⟨hpos, hle⟩
  · have hcentral : p.central = 0 := by
      by_contra hne
      have hshares := hp.shares_of_central (Nat.pos_of_ne_zero hne)
      omega
    exact ⟨m, rfl, hpositive', by simp [hcentral], by simp [hp.empty hzero], fun _ => rfl⟩
  · have hcentral := hp.central_of_shares hpos
    refine ⟨m, rfl, hpositive', hle, ?_, fun hzero => by omega⟩
    rcases hproportion with hproportion | hzero
    · -- The minted shares keep below the central asset, which keeps below the secondary one.
      apply Nat.le_of_mul_le_mul_right _ hcentral
      calc
        m * p.secondary * p.central = m * p.central * p.secondary := by ring
        _ ≤ c * p.liqTokenSupply * p.secondary := Nat.mul_le_mul_right _ hle
        _ = c * p.secondary * p.liqTokenSupply := by ring
        _ ≤ s * p.central * p.liqTokenSupply := Nat.mul_le_mul_right _ hproportion
        _ = s * p.liqTokenSupply * p.central := by ring
    · omega

theorem addLiquidity_minted (hp : p.Live) (h : p.addLiquidity c s = .ok p') :
    ∃ s' m, s' ≤ s ∧ Minted p c s' m p' := by
  unfold LiquidityPool.addLiquidity at h
  split at h
  next hzero =>
    obtain ⟨m, hm⟩ := mint_minted hp (.inr hzero) h
    exact ⟨s, m, le_rfl, hm⟩
  · obtain ⟨s', hs', h⟩ := bind_eq_ok.mp h
    obtain ⟨_, hle, h⟩ := bind_eq_ok.mp h
    obtain ⟨m, hm⟩ := mint_minted hp (calcSecondaryRequired_eq_ok (onCurve_eq_ok.mp hs')) h
    exact ⟨s', m, ensure_eq_ok.mp hle, hm⟩

theorem Minted.keeps (h : Minted p c s m p') : p'.Live ∧ Keeps p p' := by
  obtain ⟨rfl, hpositive, hcentral, hsecondary, hfirst⟩ := h
  constructor
  · constructor
    · intro _
      dsimp only
      by_cases hzero : p.liqTokenSupply = 0
      · have hm := hfirst hzero
        omega
      · omega
    · intro _
      dsimp only
      omega
    · intro hzero
      dsimp only at hzero
      have hm := hfirst (by omega)
      omega
  · apply Keeps.shares
    · dsimp only
      linarith
    · dsimp only
      linarith

/-- What is taken out for shares given back: no more than in proportion. -/
structure Removed (p : LiquidityPool) (l c s : Nat) (p' : LiquidityPool) : Prop where
  after : p' = ⟨p.central - c, p.secondary - s, p.liqTokenSupply - l⟩
  shares : 0 < l ∧ l ≤ p.liqTokenSupply
  central : c * p.liqTokenSupply ≤ l * p.central
  secondary : s * p.liqTokenSupply ≤ l * p.secondary
  last : l = p.liqTokenSupply → c = p.central ∧ s = p.secondary

theorem removeLiquidity_removed (h : p.removeLiquidity l = .ok p') :
    ∃ c s, Removed p l c s p' := by
  obtain ⟨_, hpositive, h⟩ := bind_eq_ok.mp h
  obtain ⟨_, hexist, h⟩ := bind_eq_ok.mp h
  obtain ⟨c, hc, h⟩ := bind_eq_ok.mp h
  obtain ⟨s, hs, h⟩ := bind_eq_ok.mp h
  cases h
  obtain ⟨hpos, rfl⟩ := floorDivide_eq_ok.mp (curveMath_eq_ok.mp (onCurve_eq_ok.mp hc))
  obtain ⟨-, rfl⟩ := floorDivide_eq_ok.mp (curveMath_eq_ok.mp (onCurve_eq_ok.mp hs))
  refine ⟨_, _, rfl, ⟨Nat.pos_of_ne_zero (ensure_eq_ok.mp hpositive), ensure_eq_ok.mp hexist⟩,
    Nat.div_mul_le_self .., Nat.div_mul_le_self .., ?_⟩
  rintro rfl
  exact ⟨Nat.mul_div_cancel_left _ hpos, Nat.mul_div_cancel_left _ hpos⟩

theorem proportion_kept {x : Nat} (hl : l ≤ m) (hv : v * m ≤ l * x) (hpos : 0 < m) :
    v ≤ x ∧ x * (m - l) ≤ (x - v) * m := by
  have hle : v ≤ x := by
    apply Nat.le_of_mul_le_mul_right _ hpos
    calc
      v * m ≤ l * x := hv
      _ ≤ m * x := Nat.mul_le_mul_right _ hl
      _ = x * m := Nat.mul_comm ..
  apply And.intro hle
  obtain ⟨left, rfl⟩ := Nat.exists_eq_add_of_le hle
  obtain ⟨shares, rfl⟩ := Nat.exists_eq_add_of_le hl
  rw [Nat.add_sub_cancel_left, Nat.add_sub_cancel_left]
  linarith

theorem Removed.keeps (hp : p.Live) (h : Removed p l c s p') : p'.Live ∧ Keeps p p' := by
  obtain ⟨rfl, ⟨hl, hle⟩, hcentral, hsecondary, hlast⟩ := h
  have hpos : 0 < p.liqTokenSupply := hl.trans_le hle
  obtain ⟨hc, hcentralKept⟩ := proportion_kept hle hcentral hpos
  obtain ⟨hs, hsecondaryKept⟩ := proportion_kept hle hsecondary hpos
  constructor
  · constructor
    · intro hsome
      dsimp only at hsome ⊢
      by_contra hzero
      have heq : l = p.liqTokenSupply := by omega
      have hc := (hlast heq).1
      omega
    · intro hsome
      dsimp only at hsome ⊢
      by_contra hzero
      have hnone : p.central - c = 0 := by omega
      rw [hnone, Nat.zero_mul] at hcentralKept
      have hkept : 0 < p.central * (p.liqTokenSupply - l) :=
        Nat.mul_pos (hp.central_of_shares hpos) hsome
      omega
    · intro hzero
      dsimp only at hzero ⊢
      have hs := (hlast (by omega)).2
      omega
  · exact .shares hcentralKept hsecondaryKept

theorem act_keeps {action : LiquidityAction} (hp : p.Live) (h : p.act action = .ok p') :
    p'.Live ∧ Keeps p p' := by
  cases action with
  | swapIn input output amountIn fee => exact swapIn_keeps hp h
  | swapOut input output wanted amountIn fee => exact swapOut_keeps hp h
  | addLiquidity c s =>
    obtain ⟨s', m, -, hm⟩ := addLiquidity_minted hp h
    exact hm.keeps
  | removeLiquidity l =>
    obtain ⟨c, s, hr⟩ := removeLiquidity_removed h
    exact hr.keeps hp

theorem Minted.removed {c' s' : Nat} (h : Minted p c s m p') (hr : Removed p' m c' s' p'') :
    c' ≤ c ∧ s' ≤ s := by
  obtain ⟨rfl, -, hcentral, hsecondary, -⟩ := h
  obtain ⟨-, hshares, hc, hs, -⟩ := hr
  have hpos : 0 < p.liqTokenSupply + m := by omega
  dsimp only at hc hs
  constructor
  · apply Nat.le_of_mul_le_mul_right _ hpos
    linarith
  · apply Nat.le_of_mul_le_mul_right _ hpos
    linarith

end Steps

/-! ## Runs -/

section Runs

variable {p p' p'' : LiquidityPool}

theorem act_of_step {action : LiquidityAction} (h : liquidity.step p action = some p') :
    p.act action = .ok p' := by
  have hact : (p.act action).toOption = some p' := h
  cases hresult : p.act action with
  | error fault =>
    rw [hresult] at hact
    cases hact
  | ok q =>
    rw [hresult] at hact
    cases hact
    rfl

theorem live_of_reachable (h : liquidity.Reachable TransitionSystem.anyStep p) : p.Live := by
  apply h.invariant
  · rintro s rfl
    exact ⟨fun h => h, fun h => h, fun _ => rfl⟩
  · exact fun s a t hs _ hstep => (act_keeps hs (act_of_step hstep)).1

theorem Keeps.backing_le (h : Keeps p p') (hp : 0 < p.liqTokenSupply)
    (hp' : 0 < p'.liqTokenSupply) : p.backing ≤ p'.backing := by
  have hpos : (0 : ℚ) < p.liqTokenSupply := Nat.cast_pos.mpr hp
  have hpos' : (0 : ℚ) < p'.liqTokenSupply := Nat.cast_pos.mpr hp'
  unfold LiquidityPool.backing
  rw [div_le_div_iff₀ (by positivity) (by positivity)]
  have hproduct : p.central * p.secondary * p'.liqTokenSupply ^ 2 ≤
      p'.central * p'.secondary * p.liqTokenSupply ^ 2 := by
    cases h with
    | shares hcentral hsecondary =>
      calc
        p.central * p.secondary * p'.liqTokenSupply ^ 2 =
            (p.central * p'.liqTokenSupply) * (p.secondary * p'.liqTokenSupply) := by ring
        _ ≤ (p'.central * p.liqTokenSupply) * (p'.secondary * p.liqTokenSupply) :=
          Nat.mul_le_mul hcentral hsecondary
        _ = p'.central * p'.secondary * p.liqTokenSupply ^ 2 := by ring
    | trade hsupply hle =>
      rw [hsupply]
      exact Nat.mul_le_mul_right _ hle
  exact_mod_cast hproduct

/-- The steps after which there are shares. -/
def Onward (p p' : LiquidityPool) : Prop :=
  0 < p'.liqTokenSupply ∧ ∃ action, liquidity.step p action = some p'

theorem backing_mono (hp : p.Live) (hshares : 0 < p.liqTokenSupply)
    (h : Relation.ReflTransGen Onward p p') :
    (p'.Live ∧ 0 < p'.liqTokenSupply) ∧ p.backing ≤ p'.backing := by
  induction h with
  | refl => exact ⟨⟨hp, hshares⟩, le_rfl⟩
  | tail _ hstep ih =>
    obtain ⟨⟨hlive, hbefore⟩, hle⟩ := ih
    obtain ⟨hafter, action, hact⟩ := hstep
    obtain ⟨hlive', hkeeps⟩ := act_keeps hlive (act_of_step hact)
    exact ⟨⟨hlive', hafter⟩, hle.trans (hkeeps.backing_le hbefore hafter)⟩

theorem add_then_remove {c s : Nat} (hp : p.Live) (hadd : p.addLiquidity c s = .ok p')
    (hremove : p'.removeLiquidity (p'.liqTokenSupply - p.liqTokenSupply) = .ok p'') :
    p'.central - p''.central ≤ p'.central - p.central ∧
      p'.secondary - p''.secondary ≤ p'.secondary - p.secondary := by
  obtain ⟨s', m, -, hm⟩ := addLiquidity_minted hp hadd
  have hsupply : p'.liqTokenSupply - p.liqTokenSupply = m := by
    rw [hm.after]
    exact Nat.add_sub_cancel_left ..
  rw [hsupply] at hremove
  obtain ⟨c', s'', hr⟩ := removeLiquidity_removed hremove
  obtain ⟨hc, hs⟩ := hm.removed hr
  rw [hr.after, hm.after]
  dsimp only
  omega

/-- The curve never loses value. The price of what an input bought may be one more than
the input, where the output came out without rounding. -/
theorem curve_never_loses (hp : liquidity.Reachable TransitionSystem.anyStep p) :
    (∀ d x y f out, getInputPrice d x y f = .ok out →
      out < y ∧ x * y ≤ (x + d) * (y - out)) ∧
    (∀ q x y f price, getOutputPrice q x y f = .ok price →
      q < y ∧ x * y ≤ (x + price) * (y - q)) ∧
    (∀ d x y f q, f < 10000 → getInputPrice d x y f = .ok q →
      ∃ price, getOutputPrice q x y f = .ok price ∧ price ≤ d + 1 ∧
        (d < price ↔ x * 10000 + d * (10000 - f) ∣ d * (10000 - f) * y)) ∧
    (∀ q x y f price, getOutputPrice q x y f = .ok price →
      ∃ out, getInputPrice price x y f = .ok out ∧ q ≤ out) ∧
    (∀ c s p' p'', p.addLiquidity c s = .ok p' →
      p'.removeLiquidity (p'.liqTokenSupply - p.liqTokenSupply) = .ok p'' →
      p'.central - p''.central ≤ p'.central - p.central ∧
        p'.secondary - p''.secondary ≤ p'.secondary - p.secondary) ∧
    ∀ p', 0 < p.liqTokenSupply → Relation.ReflTransGen Onward p p' → p.backing ≤ p'.backing := by
  have hlive := live_of_reachable hp
  refine ⟨?_, ?_, ?_, ?_, ?_, ?_⟩
  · exact fun _ _ _ _ _ h => getInputPrice_product h
  · exact fun _ _ _ _ _ h => getOutputPrice_product h
  · exact fun _ _ _ _ _ hf h => getOutputPrice_getInputPrice hf h
  · exact fun _ _ _ _ _ h => getInputPrice_getOutputPrice h
  · exact fun _ _ _ _ hadd hremove => add_then_remove hlive hadd hremove
  · exact fun _ hshares hrun => (backing_mono hlive hshares hrun).2

/-- One unit of one buys one of two, and one of two costs two units. -/
theorem getOutputPrice_exceeds_input :
    getInputPrice 1 1 2 0 = .ok 1 ∧ getOutputPrice 1 1 2 0 = .ok 2 ∧
      ¬ (∀ d x y f q price, f < 10000 → getInputPrice d x y f = .ok q → 0 < q →
        getOutputPrice q x y f = .ok price → price ≤ d) := by
  refine ⟨by decide, by decide, ?_⟩
  intro h
  exact absurd (h 1 1 2 0 1 2 (by decide) (by decide) (by decide) (by decide)) (by decide)

theorem curve_never_loses_traded :
    (⟨100, 200, 100⟩ : LiquidityPool).backing ≤ (⟨110, 182, 100⟩ : LiquidityPool).backing := by
  have hreachable : liquidity.Reachable TransitionSystem.anyStep ⟨100, 200, 100⟩ :=
    .step (.init rfl) trivial (a := .addLiquidity 100 200) (by decide)
  apply (curve_never_loses hreachable).2.2.2.2.2 _ (by decide)
  exact .single ⟨by decide, .swapIn .central .secondary 10 30, by decide⟩

end Runs

end AgoricSdk.Zoe
