import Mathlib.Tactic.NormNum
import Sreality.Foundation.Binary

/-! The dials the pass reads (`autodedup/settings.py`), with the defaults and
the bounds a settings row is validated against at load. -/

set_option autoImplicit false

namespace Sreality.Autodedup

open Sreality.Foundation

/-- `repartition_shed_factless_guard`: which members a shed may name. -/
inductive FactlessGuard where
  | off
  | core
  | certificate
  | any
  deriving DecidableEq, Repr

/-- The default of `cluster_area_spread`. -/
def defaultAreaSpread : Float64 := .ofRat _ (8 / 100)

theorem defaultAreaSpread_pos : 0 < defaultAreaSpread.value := by decide +kernel

structure Settings where
  clusterAreaSpread : Float64 := defaultAreaSpread
  maxClusterSize : Nat := 8
  maxCandidatesPerListing : Nat := 60
  storeFloor : ℚ := 2 / 100
  tLo : ℚ := 30 / 100
  bridgeApply : Bool := false
  bridgeMinScore : ℚ := 999 / 1000
  d43ClusterInvariant : Bool := false
  d43PrintedAreaPrevails : Bool := false
  clusterFloorSpread : Bool := true
  clusterDisposition : Bool := true
  repartition : Bool := false
  repartitionMaxRounds : Nat := 4
  repartitionRejoinCells : Bool := false
  repartitionShedBlockers : Bool := false
  repartitionShedMax : Nat := 1
  repartitionShedMaxUnion : Nat := 64
  repartitionOuterRounds : Nat := 1
  repartitionKeepFactless : Bool := false
  repartitionShedFactlessGuard : FactlessGuard := .off
  repartitionReconcileFactlessFirst : Bool := false
  spreadPositive : 0 < clusterAreaSpread.value := by exact defaultAreaSpread_pos
  sizeAtLeastTwo : 2 ≤ maxClusterSize := by decide
  candidatesPositive : 1 ≤ maxCandidatesPerListing := by decide
  floorNonnegative : 0 ≤ storeFloor := by norm_num
  floorBelowThreshold : storeFloor ≤ tLo := by norm_num
  bridgeScoreNonnegative : 0 ≤ bridgeMinScore := by norm_num
  bridgeScoreAtMostOne : bridgeMinScore ≤ 1 := by norm_num
  roundsPositive : 1 ≤ repartitionMaxRounds := by decide
  shedPositive : 1 ≤ repartitionShedMax := by decide
  shedUnionAtLeastTwo : 2 ≤ repartitionShedMaxUnion := by decide
  outerRoundsPositive : 1 ≤ repartitionOuterRounds := by decide
  rejoinNeedsRepartition : repartitionRejoinCells = true → repartition = true := by decide
  shedNeedsRepartition : repartitionShedBlockers = true → repartition = true := by decide
  guardNeedsShed :
    repartitionShedFactlessGuard ≠ .off → repartitionShedBlockers = true := by decide
  factlessFirstNeedsKeep :
    repartitionReconcileFactlessFirst = true → repartitionKeepFactless = true := by decide

end Sreality.Autodedup
