import VowProtocol.State.World

/-
  Share arithmetic, settlement and the permissionless
  `harvest` instruction.

  Key definitions include:
    * `classForStake`
    * `lockDuration`
    * `positionValue`
    * `sharesForDeposit`
    * `settleIdnft`
    * `matureIfDue`
    * `harvestGain`
    * `harvest`
-/

------------------------------------------------------------
-- Stake Classes
------------------------------------------------------------

namespace Vow

open MachineInt Fallible

/- The class of a stake, by whole XNT. -/
def classForStake
    (lamports : U64) :
    Result U8 :=
  let xnt := lamports.val / LAMPORTS_PER_XNT.val
  if 1 ≤ xnt ∧ xnt ≤ 100 then .ok 0
  else if 101 ≤ xnt ∧ xnt ≤ 300 then .ok 1
  else if 301 ≤ xnt ∧ xnt ≤ 500 then .ok 2
  else if 501 ≤ xnt ∧ xnt ≤ 1000 then .ok 3
  else if 1001 ≤ xnt ∧ xnt ≤ 2000 then .ok 4
  else if 2001 ≤ xnt ∧ xnt ≤ 5000 then .ok 5
  else if 5001 ≤ xnt ∧ xnt ≤ 10000 then .ok 6
  else if 10001 ≤ xnt then .ok 7
  else .error (.vow .insufficientStake)

/- The lock of a class; an unknown class panics. -/
def lockDuration
    (stakeClass : U8) :
    Result I64 :=
  okOr LOCK_SECONDS[stakeClass.val]? .panicked

end Vow

------------------------------------------------------------
-- Share Arithmetic
------------------------------------------------------------

namespace Vow

open MachineInt Fallible

/- The value of shares at a price, rounded down. -/
def positionValue
    (shares price : U128) :
    Result U128 := do
  let product ← okOr (shares.checkedMul price)
    (.vow .mathOverflow)
  return (product.checkedDiv SHARE_PRECISION).getD 0

/- The shares issued for a deposit, rounded down. -/
def sharesForDeposit
    (lamports : U64)
    (price : U128) :
    Result U128 := do
  let scaled ← okOr
    ((lamports.cast 128).checkedMul SHARE_PRECISION)
    (.vow .mathOverflow)
  okOr (scaled.checkedDiv price) (.vow .mathOverflow)

/- The shares burned for a yield credit, rounded down. -/
def sharesToBurn
    (treasuryAmount : U64)
    (price : U128) :
    Result U128 := do
  let scaled ← okOr
    ((treasuryAmount.cast 128).checkedMul SHARE_PRECISION)
    (.vow .mathOverflow)
  return (scaled.checkedDiv price).getD 0

end Vow

------------------------------------------------------------
-- Settlement
------------------------------------------------------------

namespace Vow

open MachineInt Fallible

/-
  Settle the gain accrued since the last settled price. Both
  position values stay far below `2 ^ 127`, so their
  difference is exact before it is clamped to 64 bits.
-/
def settleIdnft
    (idnft : VowState)
    (config : ProtocolConfig) :
    Result VowState :=
  if idnft.lastSharePrice = config.currentSharePrice then
    .ok idnft
  else do
    let currentValue ←
      positionValue idnft.shares config.currentSharePrice
    let lastValue ←
      positionValue idnft.shares idnft.lastSharePrice
    let delta := Signed.clamp 63
      ((currentValue.val : Int) - (lastValue.val : Int))
    return { idnft with
      accruedGain := idnft.accruedGain.saturatingAdd delta
      lastSharePrice := config.currentSharePrice }

/- Set the maturity flag once the lock has expired. -/
def matureIfDue
    (now : I64)
    (idnft : VowState) :
    VowState :=
  if idnft.matured = false ∧ idnft.unlockAt ≤ now then
    { idnft with matured := true }
  else
    idnft

end Vow

------------------------------------------------------------
-- Harvest
------------------------------------------------------------

namespace Vow

open MachineInt Fallible

/-
  Turn shares worth `treasuryAmount` into yield. The Treasury
  and Hybrid branches differ in the amount credited, the
  amount counted as harvested and the gain carried forward.
-/
def creditGain
    (idnft : VowState)
    (config : ProtocolConfig)
    (treasuryAmount harvested : U64)
    (carry : I64) :
    Result (VowState × ProtocolConfig) := do
  let burned ←
    sharesToBurn treasuryAmount config.currentSharePrice
  require (burned ≤ idnft.shares) (.vow .sharesUnderflow)
  let shares ← okOr (idnft.shares.checkedSub burned)
    .panicked
  return (
    { idnft with
      shares := shares
      yieldBalance :=
        idnft.yieldBalance.saturatingAdd treasuryAmount
      totalHarvested :=
        idnft.totalHarvested.saturatingAdd harvested
      accruedGain := carry },
    { config with
      totalShares := config.totalShares.saturatingSub burned
      totalYieldClaims :=
        config.totalYieldClaims.saturatingAdd
          treasuryAmount })

/- Distribute the settled gain by yield mode. -/
def harvestGain
    (idnft : VowState)
    (config : ProtocolConfig) :
    Result (VowState × ProtocolConfig) :=
  let gain := idnft.accruedGain
  let gainU64 := gain.toUnsigned 64
  match idnft.yieldMode with
  | .compound =>
      let positive : I64 := if 0 ≤ gain then gain else 0
      .ok ({ idnft with
        totalHarvested :=
          idnft.totalHarvested.saturatingAdd
            (positive.toUnsigned 64)
        accruedGain := 0 }, config)
  | .treasury =>
      if gain ≤ 0 then
        .ok ({ idnft with accruedGain := 0 }, config)
      else
        creditGain idnft config gainU64 gainU64 0
  | .hybrid =>
      if gain ≤ 0 then
        .ok ({ idnft with accruedGain := 0 }, config)
      else
        -- An odd lamport is carried to the next harvest.
        creditGain idnft config
          (Unsigned.ofNat 64 (gainU64.val / 2)) gainU64
          (Signed.clamp 63 ((gainU64.val % 2 : Nat) : Int))

/- `harvest`: anyone may settle and credit an identity. -/
def harvest
    (env : Env)
    (w : World)
    (vowState : Pubkey) :
    Result World := do
  let config ← loadConfig w
  let loaded ← loadVow w vowState
  let settled ← settleIdnft
    (matureIfDue env.unixTimestamp loaded) config
  let next ← harvestGain settled config
  return { w with
    config := some next.2
    vows := w.vows.insert vowState next.1 }

end Vow
