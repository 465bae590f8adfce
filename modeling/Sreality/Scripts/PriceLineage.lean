import Mathlib.Algebra.Order.Field.Rat
import Mathlib.Data.Prod.Lex
import Mathlib.Data.String.Basic
import Sreality.Foundation.StableSort
import Sreality.Foundation.Tables

/-! The price figures of one property (scripts/recompute_property_stats.py): the canonical advert
and its predecessors on the same portal, the price steps of each (`listing_price_steps`), one
handover step into each priced link, and the columns counted over them. -/

set_option autoImplicit false

namespace Sreality.Scripts.PriceLineage

open Sreality.Foundation

/-- A row of `listings` of the property. -/
structure Advert where
  id : Nat
  source : String
  firstSeenAt : ℚ
  lastSeenAt : ℚ
  deriving DecidableEq

/-- `listing_snapshots`. -/
structure Snapshot where
  id : Nat
  listingId : Nat
  scrapedAt : ℚ
  priceCzk : Option Nat
  deriving DecidableEq

/-- A snapshot whose price is not NULL. -/
structure PricePoint where
  id : Nat
  scrapedAt : ℚ
  price : Nat
  deriving DecidableEq

structure Step where
  scrapedAt : ℚ
  price : Nat
  prevPrice : Nat
  deriving DecidableEq

/-! ### The lineage -/

/-- The advert of the portal last seen latest, before the link was first seen. -/
def predecessor (adverts : List Advert) (link : Advert) : Option Advert :=
  (sortedBy (fun advert => toLex (-advert.lastSeenAt, -(advert.id : ℤ)))
    (adverts.filter fun advert => decide (advert.source = link.source ∧
      advert.lastSeenAt < link.firstSeenAt ∧ advert.firstSeenAt < link.firstSeenAt))).head?

/-- `WITH RECURSIVE link`: the links in the order of their hops, so many of them at most. -/
def linksFrom (adverts : List Advert) : Nat → Advert → List Advert
  | 0, link => [link]
  | hops + 1, link =>
      link :: match predecessor adverts link with
        | none => []
        | some earlier => linksFrom adverts hops earlier

/-- `lineage`: no more hops than there are adverts. -/
def lineage (adverts : List Advert) (canonical : Advert) : List Advert :=
  linksFrom adverts adverts.length canonical

/-! ### The points of a link -/

namespace PricePoint

def order (point : PricePoint) : ℚ ×ₗ ℤ := toLex (point.scrapedAt, (point.id : ℤ))

def orderDesc (point : PricePoint) : ℚ ×ₗ ℤ := toLex (-point.scrapedAt, -(point.id : ℤ))

end PricePoint

/-- The priced snapshots of an advert. -/
def priced (snapshots : List Snapshot) (advert : Advert) : List PricePoint :=
  (snapshots.filter fun snapshot => decide (snapshot.listingId = advert.id)).filterMap
    fun snapshot => snapshot.priceCzk.map fun price =>
      { id := snapshot.id, scrapedAt := snapshot.scrapedAt, price := price }

/-- The lateral of `listing_price_steps`: the previous priced snapshot of the advert. -/
def previous (points : List PricePoint) (point : PricePoint) : Option PricePoint :=
  (sortedBy PricePoint.orderDesc (points.filter fun earlier =>
    decide (earlier.scrapedAt ≤ point.scrapedAt ∧ earlier.order < point.order))).head?

/-- `listing_price_steps` of an advert. -/
def ownSteps (points : List PricePoint) : List Step :=
  points.filterMap fun point =>
    match previous points point with
    | none => none
    | some earlier =>
        if point.price ≠ earlier.price then
          some { scrapedAt := point.scrapedAt, price := point.price, prevPrice := earlier.price }
        else none

/-- `members`: what a priced link counts with. -/
structure Member where
  hop : Nat
  firstPrice : Nat
  firstAt : ℚ
  lastPrice : Nat
  pricePoints : Nat
  deriving DecidableEq

/-- A link without a priced snapshot is no member. -/
def memberOf (points : List PricePoint) (hop : Nat) : Option Member :=
  match (sortedBy PricePoint.order points).head?,
      (sortedBy PricePoint.orderDesc points).head?, (points.map (·.scrapedAt)).min? with
  | some first, some last, some firstAt =>
      some { hop := hop, firstPrice := first.price, firstAt := firstAt, lastPrice := last.price
             pricePoints := points.length }
  | _, _, _ => none

section Property

variable (snapshots : List Snapshot) (links : List Advert)

/-- `members`, in hop order. -/
def members : List Member :=
  links.zipIdx.filterMap fun link => memberOf (priced snapshots link.1) link.2

/-- The handover into each priced link from the next older one, by `lead` over the hops. -/
def handovers (members : List Member) : List Step :=
  (members.zip members.tail).filterMap fun pair =>
    if pair.1.firstPrice ≠ pair.2.lastPrice then
      some { scrapedAt := pair.1.firstAt, price := pair.1.firstPrice
             prevPrice := pair.2.lastPrice }
    else none

def steps : List Step :=
  (links.flatMap fun link => ownSteps (priced snapshots link)) ++
    handovers (members snapshots links)

/-- `lineage_span`. -/
structure Span where
  firstPrice : Option Nat
  lastPrice : Option Nat
  pricePoints : Nat
  deriving DecidableEq

def lineageSpan (members : List Member) : Span where
  firstPrice := (sortedBy (fun member => -(member.hop : ℤ)) members).head?.map (·.firstPrice)
  lastPrice := ((members.filter fun member => decide (member.hop = 0)).head?).map (·.lastPrice)
  pricePoints := (members.map (·.pricePoints)).sum

/-- The price columns of `properties`. -/
structure PriceColumns where
  priceDropCount : Nat
  priceRiseCount : Nat
  maxPriceDropPct : Option ℚ
  priceChangeCount : Nat
  priceChangeCount30d : Nat
  priceChangeCount90d : Nat
  priceChangeCount365d : Nat
  totalPriceChangePct : Option ℚ
  deriving DecidableEq

def daySeconds : ℚ := 24 * 60 * 60

def Step.falls (step : Step) : Bool := decide (step.price < step.prevPrice)

def Step.rises (step : Step) : Bool := decide (step.prevPrice < step.price)

def since (now : ℚ) (days : Nat) (steps : List Step) : Nat :=
  (steps.filter fun step => decide (now - days * daySeconds ≤ step.scrapedAt)).length

/-- NULL under two priced snapshots or with an unpriced canonical advert. The quotient is exact:
the digits the `numeric` division rounds it to are left out. -/
def totalPriceChangePct (span : Span) : Option ℚ :=
  match span.firstPrice, span.lastPrice with
  | some first, some last =>
      if 2 ≤ span.pricePoints ∧ 0 < first then some (((last : ℚ) - first) / first * 100) else none
  | _, _ => none

def priceColumns (now : ℚ) : PriceColumns where
  priceDropCount := ((steps snapshots links).filter Step.falls).length
  priceRiseCount := ((steps snapshots links).filter Step.rises).length
  maxPriceDropPct := (((steps snapshots links).filter Step.falls).map fun step =>
    ((step.prevPrice : ℚ) - step.price) / step.prevPrice * 100).max?
  priceChangeCount := (steps snapshots links).length
  priceChangeCount30d := since now 30 (steps snapshots links)
  priceChangeCount90d := since now 90 (steps snapshots links)
  priceChangeCount365d := since now 365 (steps snapshots links)
  totalPriceChangePct := totalPriceChangePct (lineageSpan (members snapshots links))

end Property

end Sreality.Scripts.PriceLineage
